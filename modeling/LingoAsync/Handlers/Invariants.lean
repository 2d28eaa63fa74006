import LingoAsync.Handler.Simulation
import LingoAsync.Handlers

/-!
# Workers over interpreters

What it takes for a property of a process to survive a run of the worker over any interpreter
(`Preserves`): every reading of the clock keeps it, every request that is not about quests, and
`evaluate_quests_for` as a whole, which may break it on the way. `Preserves.run` is the run lemma.
And what it takes for the workers over two interpreters to run side by side (`sideBySide_workerOn`).
-/

namespace LingoAsync.Handlers

open LingoAsync.Text LingoAsync.Contracts LingoAsync.Calendar LingoAsync.Handler
open LingoAsync.Machine LingoAsync.Action

variable {F D σ τ : Type}

/-! ## Requests -/

/-- Is the call about quests? -/
def asksQuests : Call F → Bool
  | .listQuests _ => true
  | .step (.bumpProgress ..) => true
  | .step (.addXp ..) => false
  | .step (.updateItem ..) => false

/-- The requests of the parts of a handler that are not about quests. -/
def NoQuests : Request F → Prop
  | .call c => asksQuests c = false
  | .now => True
  | .questsSurfaceUnmounted => True
  | .setQuestsSurfaceUnmounted => False

/-- The requests of the evaluator once it has a listing. -/
def BumpsOnly : Request F → Prop
  | .call c => ∃ questId userId delta, c = .step (.bumpProgress questId userId delta)
  | .now => True
  | .questsSurfaceUnmounted => True
  | .setQuestsSurfaceUnmounted => False

theorem evaluateListing_bumpsOnly [PyFloat F] (rt : Runtime) (userId unit : PyStr) (delta : Int)
    (listed : Json F) : (Quests.evaluateListing rt userId unit delta listed).Makes BumpsOnly :=
  Quests.evaluateListing_makes rt userId unit delta listed
    fun questId => ⟨questId, userId, delta, rfl⟩

/-! ## Handlers and runs -/

variable [PyFloat F]

/-- `P` survives the clock, the requests that are not about quests, and the evaluator. -/
structure Preserves (app : App F D) (now : σ → Instant × σ) (answer : Interpreter F σ)
    (P : σ → Prop) : Prop where
  now : ∀ s, P s → P (now s).2
  quiet : ∀ r, NoQuests r → ∀ s, P s → P (answer r s).2
  quests : ∀ (event : EventMessage F D) s, P s →
    P ((Quests.evaluateQuestsFor app.rt event.userId event).run answer s).2

namespace Preserves

/-- What every request keeps, the evaluator keeps. -/
theorem of_all {app : App F D} {now : σ → Instant × σ} {answer : Interpreter F σ} {P : σ → Prop}
    (hnow : ∀ s, P s → P (now s).2) (hall : ∀ r s, P s → P (answer r s).2) :
    Preserves app now answer P where
  now := hnow
  quiet r _ := hall r
  quests _ s := Program.run_trans (R := fun s t => P s → P t) (fun _ h => h)
    (fun h h' hs => h' (h hs)) hall _ s

variable {app : App F D} {now : σ → Instant × σ} {answer : Interpreter F σ} {P : σ → Prop}

/-- A handler. -/
theorem handle (h : Preserves app now answer P) (event : EventMessage F D) :
    Ends P ((handle app.cfg app.rt event).run answer) fun _ => P := by
  have hquiet : ∀ {α : Type} {p : Prog F α}, p.Makes NoQuests → Ends P (p.run answer) fun _ => P :=
    fun hp _ hs => hp.run_inv (P := P) h.quiet hs
  have hquests : ∀ event : EventMessage F D,
      Ends P ((questEval app.rt event).run answer) fun _ => P := by
    intro event
    rw [questEval, Program.run_bind]
    exact Ends.bind (R := fun _ => P) (h.quests event) (fun _ _ hs => hs) fun _ _ hs => hs
  have hsole : ∀ event : EventMessage F D,
      Ends P ((questsOnly app.rt event).run answer) fun _ => P := by
    intro event
    rw [questsOnly, Program.run_bind]
    exact (hquests event).bind (fun _ _ hs => hs) fun _ _ hs => hs
  cases event with
  | xpAwarded m =>
    show Ends P ((xpAwarded D app.cfg app.rt m).run answer) fun _ => P
    rw [xpAwarded, Program.run_bind]
    refine (hquiet (creditXp_makes m rfl)).bind (fun credited => ?_) fun _ _ hs => hs
    rw [Program.run_bind]
    refine (hquiet (leaderboardOutcome_makes app.cfg m trivial (fun _ => rfl)
      fun _ => rfl)).bind (fun leaderboard => ?_) fun _ _ hs => hs
    rw [Program.run_bind]
    exact (hquests _).bind (fun _ _ hs => hs) fun _ _ hs => hs
  | lessonCompleted m => exact hsole _
  | reviewCompleted m => exact hsole _
  | friendAdded m => exact hsole _
  | subscriptionChanged m => exact fun s hs => hs
  | adWatched m => exact fun s hs => hs

/-- A record. -/
theorem handleRecord (h : Preserves app now answer P) (record : SqsRecord) {s : σ} (hs : P s) :
    P ((app.workerOn now answer).handleRecord none record s).2 := by
  have htick : P ((app.workerOn now answer).tick s) := h.now _ (h.now s hs)
  rw [handleRecord_none]
  split
  · exact htick
  · exact htick
  · next parsed _ =>
    show P (dispatch (handlersOn app.cfg app.rt answer) parsed _).2
    rw [dispatch_handlersOn]
    exact h.handle parsed _ htick

/-- **A run.** -/
theorem run (h : Preserves app now answer P) (schedule : List (List SqsRecord)) {s : σ}
    (hs : P s) : P (Machine.run (app.workerOn now answer).invoke s schedule) :=
  run_inv P (fun _ _ hs => handleRecords_inv (fun record _ => h.handleRecord record) hs) schedule hs

end Preserves

/-! ## Two interpreters -/

/-- The workers over two interpreters that answer alike, and read the same clock. -/
theorem sideBySide_workerOn (app : App F D) {Good : σ → Prop} {R : σ → τ → Prop}
    {now : σ → Instant × σ} {now' : τ → Instant × τ} {answer : Interpreter F σ}
    {answer' : Interpreter F τ}
    (hnow : Simulates Good R (app.workerOn now answer).utcNow (app.workerOn now' answer').utcNow)
    (hanswer : ∀ r, Simulates Good R (answer r) (answer' r)) :
    SideBySide Good R (app.workerOn now answer) (app.workerOn now' answer') where
  parse _ := rfl
  utcNow := hnow
  dispatch event := by
    show Simulates _ _ (dispatch (handlersOn app.cfg app.rt answer) event)
      (dispatch (handlersOn app.cfg app.rt answer') event)
    rw [dispatch_handlersOn, dispatch_handlersOn]
    exact simulates_run hanswer _
  unlogged := rfl
  unlogged' := rfl

end LingoAsync.Handlers
