import LingoAsync.Services

/-!
# The quest evaluator

`app/quests/evaluator.py`. An event that drives quests has a unit and a delta;
every listed quest that is active and counts that unit is bumped by the delta, in
the order of the listing. A listing that answers 404 sets the module's latch, and
from then on no listing is asked for.
-/

namespace LingoAsync.Quests

open LingoAsync.Text LingoAsync.Contracts

variable {F D : Type} [PyFloat F]

/-- `_event_unit_and_delta`. -/
def eventUnitAndDelta : EventMessage F D → Option (PyStr × Int)
  | .xpAwarded m => some (py "XP", m.amount)
  | .lessonCompleted m => if m.isTestOut then none else some (py "lessons", 1)
  | .reviewCompleted m => some (py "cards", m.count)
  | .friendAdded _ => some (py "friends", 1)
  | _ => none

/-- `int(progress.get("current") or 0)`. -/
def currentOf (rt : Runtime) (progress : Json F) : Prog F Int := do
  let current ← pyGet progress (py "current")
  pyInt rt (pyOr current (.int 0))

/-- The rest of the loop's turn for a quest that is active and counts the unit. -/
def bumpQuest (rt : Runtime) (userId unit : PyStr) (delta : Int)
    (quest progress status : Json F) : Prog F (Json F) := do
  let questId ← pyItem quest (py "id")
  let before ← currentOf rt progress
  let updated ← Prog.perform (.bumpProgress questId userId delta)
  let newProgress ← pyGet updated (py "progress")
  let after ← currentOf rt (pyOr newProgress (.dict []))
  -- `updated.get("status", status_before)`: an explicit null is kept
  let statusAfter :=
    match updated with
    | .dict kvs => (Json.lookup (py "status") kvs).getD status
    | _ => status
  pure (pyDict [("quest_id", questId), ("unit", .str unit), ("delta", .int delta),
    ("progress_before", .int before), ("progress_after", .int after),
    ("status_before", status), ("status_after", statusAfter)])

/-- One turn of the loop: the action to record, if the quest matches. -/
def evaluateQuest (rt : Runtime) (userId unit : PyStr) (delta : Int) (quest : Json F) :
    Prog F (Option (Json F)) := do
  let status ← pyGet quest (py "status")
  if Json.isStr (some status) (py "active") = false then pure none
  else
    let progress ← pyGet quest (py "progress")
    let progress := pyOr progress (.dict [])
    let questUnit ← pyGet progress (py "unit")
    if Json.isStr (some questUnit) unit = false then pure none
    else
      let action ← bumpQuest rt userId unit delta quest progress status
      pure (some action)

/-- The loop. -/
def evaluateListed (rt : Runtime) (userId unit : PyStr) (delta : Int) :
    List (Json F) → Prog F (List (Json F))
  | [] => pure []
  | quest :: quests => do
    let action ← evaluateQuest rt userId unit delta quest
    let actions ← evaluateListed rt userId unit delta quests
    pure (action.toList ++ actions)

/-- From a listing on. -/
def evaluateListing (rt : Runtime) (userId unit : PyStr) (delta : Int) (listed : Json F) :
    Prog F (List (Json F)) := do
  let items ← pyGet listed (py "items")
  let quests ← pyIter (pyOr items (.list []))
  evaluateListed rt userId unit delta quests

/-- `evaluate_quests_for`. -/
def evaluateQuestsFor (rt : Runtime) (userId : PyStr) (event : EventMessage F D) :
    Prog F (List (Json F)) :=
  match eventUnitAndDelta event with
  | none => pure []
  | some (unit, delta) =>
    if delta ≤ 0 then pure []
    else do
      if ← Program.perform .questsSurfaceUnmounted then pure []
      else
        match ← Program.attempt (.call (.listQuests userId)) with
        | .ok listed => evaluateListing rt userId unit delta listed
        | .error exc =>
          if exc = .HTTPStatusError 404 then
            -- core does not mount the surface: nothing is lost, and it is not asked again
            Program.perform Request.setQuestsSurfaceUnmounted
            pure []
          else .raise exc

/-! ## What the evaluator asks for -/

section Makes

variable {Q : Request F → Prop}

theorem currentOf_makes (rt : Runtime) (progress : Json F) : (currentOf rt progress).Makes Q :=
  (makes_pyGet _ _).bind fun _ => makes_pyInt rt _

theorem evaluateQuest_makes (rt : Runtime) (userId unit : PyStr) (delta : Int) (quest : Json F)
    (hbump : ∀ questId, Q (.call (.step (.bumpProgress questId userId delta)))) :
    (evaluateQuest rt userId unit delta quest).Makes Q := by
  refine (makes_pyGet _ _).bind fun status => ?_
  split
  · trivial
  · refine (makes_pyGet _ _).bind fun progress => (makes_pyGet _ _).bind fun questUnit => ?_
    split
    · trivial
    · refine Program.Makes.bind ?_ fun _ => trivial
      refine (makes_pyItem _ _).bind fun questId => ?_
      refine (currentOf_makes rt _).bind fun before => ?_
      refine (Program.makes_perform (hbump questId)).bind fun updated => ?_
      refine (makes_pyGet _ _).bind fun newProgress => ?_
      exact (currentOf_makes rt _).bind fun after => trivial

theorem evaluateListing_makes (rt : Runtime) (userId unit : PyStr) (delta : Int) (listed : Json F)
    (hbump : ∀ questId, Q (.call (.step (.bumpProgress questId userId delta)))) :
    (evaluateListing rt userId unit delta listed).Makes Q := by
  refine (makes_pyGet _ _).bind fun items => (makes_pyIter _).bind fun quests => ?_
  induction quests with
  | nil => trivial
  | cons quest quests ih =>
    exact (evaluateQuest_makes rt userId unit delta quest hbump).bind fun _ =>
      ih.bind fun _ => trivial

/-- The evaluator asks for the latch, and for the listing and its bumps if it is not set. -/
theorem evaluateQuestsFor_makes (rt : Runtime) (userId : PyStr) (event : EventMessage F D)
    (hlatch : Q .questsSurfaceUnmounted) (hset : Q .setQuestsSurfaceUnmounted)
    (hlist : Q (.call (.listQuests userId)))
    (hbump : ∀ questId delta, Q (.call (.step (.bumpProgress questId userId delta)))) :
    (evaluateQuestsFor rt userId event).Makes Q := by
  unfold evaluateQuestsFor
  split
  · trivial
  · split
    · trivial
    · refine (Program.makes_perform hlatch).bind fun unmounted => ?_
      split
      · trivial
      · refine Program.Makes.bind ⟨hlist, fun _ => trivial⟩ fun listed => ?_
        split
        · exact evaluateListing_makes rt _ _ _ _ fun questId => hbump questId _
        · split
          · exact (Program.makes_perform hset).bind fun _ => trivial
          · trivial

end Makes

end LingoAsync.Quests
