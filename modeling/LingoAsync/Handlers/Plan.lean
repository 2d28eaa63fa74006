import LingoAsync.Handlers

/-!
# The plan of an event

What an event calls for, stated apart from the code: the XP credit, the two
leaderboard adds, and a bump for each listed quest the event drives
(`plan`). And what a dispatch does about it: with well-formed answers from
outside, each part of a handler performs its part of the plan, step by step up
to the first that fails (`dispatch_performs`).
-/

namespace LingoAsync.Handlers

open LingoAsync.Text LingoAsync.Contracts LingoAsync.Calendar LingoAsync.Handler
open LingoAsync.Leaderboard LingoAsync.Quests LingoAsync.Action

variable {F D : Type}

/-! ## Well-formed answers -/

/-- A quest's `progress`: absent, null, or an object whose count is an integer, null or
absent. -/
def WellFormedProgress (progress : Option (Json F)) : Prop :=
  progress = none ∨ progress = some .null ∨ ∃ kvs, progress = some (.dict kvs) ∧
    (Json.lookup (py "current") kvs = none ∨ Json.lookup (py "current") kvs = some .null ∨
      ∃ n, Json.lookup (py "current") kvs = some (.int n))

/-- A listed quest: an object with an id. -/
def WellFormedQuest (quest : Json F) : Prop :=
  ∃ kvs, quest = .dict kvs ∧ (Json.lookup (py "id") kvs).isSome = true ∧
    WellFormedProgress (Json.lookup (py "progress") kvs)

/-- A listing: an object whose items, if any, are quests. -/
def WellFormedListing (listed : Json F) : Prop :=
  ∃ kvs, listed = .dict kvs ∧ (Json.lookup (py "items") kvs = none ∨
    Json.lookup (py "items") kvs = some .null ∨ ∃ quests,
      Json.lookup (py "items") kvs = some (.list quests) ∧ ∀ q ∈ quests, WellFormedQuest q)

/-- The services answer what they are specified to answer, when they answer. -/
structure WellFormed (out : Outside F) : Prop where
  addXp : ∀ n userId amount lang optIn j,
    out.answer n (.step (.addXp userId amount lang optIn)) = .ok j → ∃ kvs, j = .dict kvs
  listQuests : ∀ n userId j, out.answer n (.listQuests userId) = .ok j → WellFormedListing j
  bumpProgress : ∀ n questId userId delta j,
    out.answer n (.step (.bumpProgress questId userId delta)) = .ok j →
      ∃ kvs, j = .dict kvs ∧ WellFormedProgress (Json.lookup (py "progress") kvs)

/-! ## The plan -/

/-- The XP credit: for every source whose producer has not credited it. -/
def creditPlan (m : XpAwardedMessage) : List (Step F) :=
  if m.source ≠ .lesson ∧ 0 < m.amount then
    [.addXp m.userId m.amount m.learningLanguageId m.leaderboardOptIn]
  else []

/-- The weekly, then the monthly leaderboard add, at the instant `now`. -/
def leaderboardPlan (cfg : Settings) (now : Instant) (m : XpAwardedMessage) : List (Step F) :=
  if cfg.LEADERBOARD_ENABLED = true ∧ 0 < m.amount ∧ m.leaderboardOptIn = true ∧
      eventLang m ≠ [] then
    [addXpStep (weeklyBucket (eventLang m) now) m.userId m.amount,
     addXpStep (monthlyBucket (eventLang m) now) m.userId m.amount]
  else []

/-- What comes before the quests. -/
def basePlan [PyFloat F] (cfg : Settings) (now : Instant) : EventMessage F D → List (Step F)
  | .xpAwarded m => creditPlan m ++ leaderboardPlan cfg now m
  | _ => []

/-- The unit of the quests an event drives, and by how much. -/
def drives [PyFloat F] : EventMessage F D → Option (PyStr × Int)
  | .xpAwarded m => if 0 < m.amount then some (py "XP", m.amount) else none
  | .lessonCompleted m => if m.isTestOut then none else some (py "lessons", 1)
  | .reviewCompleted m => some (py "cards", m.count)
  | .friendAdded _ => some (py "friends", 1)
  | .adWatched _ => none
  | .subscriptionChanged _ => none

/-- The listed quests. -/
def listedQuests : Json F → List (Json F)
  | .dict kvs =>
    match Json.lookup (py "items") kvs with
    | some (.list quests) => quests
    | _ => []
  | _ => []

/-- An active quest that counts `unit`. -/
def matchesUnit (unit : PyStr) : Json F → Bool
  | .dict kvs =>
    Json.isStr (Json.lookup (py "status") kvs) (py "active") &&
      match Json.lookup (py "progress") kvs with
      | some (.dict progress) => Json.isStr (Json.lookup (py "unit") progress) unit
      | _ => false
  | _ => false

def questId : Json F → Json F
  | .dict kvs => (Json.lookup (py "id") kvs).getD .null
  | _ => .null

/-- A bump for each listed quest that matches, in the order of the listing. -/
def bumpPlan (userId unit : PyStr) (delta : Int) (quests : List (Json F)) : List (Step F) :=
  (quests.filter (matchesUnit unit)).map fun q => .bumpProgress (questId q) userId delta

/-- The bumps of an event, given what the listing answers; none once the surface is
known to be unmounted. -/
def questPlan [PyFloat F] (unmounted : Bool) (event : EventMessage F D)
    (listing : Except PyExc (Json F)) : List (Step F) :=
  match drives event, listing with
  | some (unit, delta), .ok listed =>
    if unmounted then [] else bumpPlan event.userId unit delta (listedQuests listed)
  | _, _ => []

/-- The listing is not needed, or it answers, or answers 404. -/
def Settled [PyFloat F] (unmounted : Bool) (event : EventMessage F D)
    (listing : Except PyExc (Json F)) : Prop :=
  drives event = none ∨ unmounted = true ∨ (∃ j, listing = .ok j) ∨
    listing = .error (.HTTPStatusError 404)

section Plan

variable [PyFloat F] (cfg : Settings) (out : Outside F) (w : World F) (event : EventMessage F D)

/-- The plan's first part, for a dispatch that starts in `w`. -/
def base : List (Step F) := basePlan cfg (out.clock w.readings) event

/-- What the listing answers: it is the call after the first part of the plan. -/
def listing : Except PyExc (Json F) :=
  out.answer (w.calls + (base cfg out w event).length) (.listQuests event.userId)

/-- The plan's second part. -/
def bumps : List (Step F) := questPlan w.unmounted event (listing cfg out w event)

/-- What the event calls for, for a dispatch that starts in `w`. -/
def plan : List (Step F) := base cfg out w event ++ bumps cfg out w event

/-- The dispatch's listing does not stand in the way. -/
def ListingSettled : Prop := Settled w.unmounted event (listing cfg out w event)

/-- How far the outside lets the plan get: up to its first failure. The bumps start
one call after the first part, the listing being in between. -/
def reachedSteps : List (Step F) :=
  let first := base cfg out w event
  let got := out.tape.reached w.calls first
  if got.length = first.length then
    first ++ out.tape.reached (w.calls + first.length + 1) (bumps cfg out w event)
  else got

end Plan

/-! ## The credit -/

section Parts

variable {cfg : Settings} {rt : Runtime} {out : Outside F}

theorem pyGet_dict {σ : Type} (answer : Interpreter F σ) (kvs : List (PyStr × Json F))
    (key : PyStr) (s : σ) :
    (pyGet (.dict kvs) key).run answer s = (.ok ((Json.lookup key kvs).getD .null), s) := rfl

theorem creditXp_performs (hwf : WellFormed out) (m : XpAwardedMessage) (w : World F) :
    Performs out.tape ((creditXp m).run (outside out)) w (creditPlan m) := by
  unfold creditXp creditPlan
  have hsource : m.source ∉ PRODUCER_ALREADY_CREDITED ↔ m.source ≠ .lesson := by
    simp [PRODUCER_ALREADY_CREDITED]
  by_cases h : m.source ≠ .lesson ∧ 0 < m.amount
  · rw [if_pos ⟨hsource.mpr h.1, h.2⟩, if_pos h]
    refine performs_run_then (performs_perform out _ w) ?_
    intro resp w' hstep
    obtain ⟨kvs, rfl⟩ : ∃ kvs, resp = .dict kvs := by
      rw [Prog.run_perform, perform] at hstep
      split at hstep
      · rename_i j hj
        obtain ⟨hj', -⟩ := Prod.mk.inj hstep
        exact Except.ok.inj hj' ▸ hwf.addXp _ _ _ _ _ _ hj
      · cases hstep
    exact performs_run_after (pyGet_dict _ kvs _ w') (performs_pure _ _)
  · rw [if_neg fun hc => h ⟨hsource.mp hc.1, hc.2⟩, if_neg h]
    exact performs_pure _ _

/-- The credit does not look at the clock. -/
theorem creditXp_readings (out : Outside F) (m : XpAwardedMessage) (w : World F) :
    ((creditXp m).run (outside out) w).2.readings = w.readings := by
  have hstep : ∀ step, Keeps World.readings (perform out step) := by
    intro step w
    cases hanswer : out.answer w.calls (.step step) with
    | ok j => rw [perform_ok hanswer]
    | error exc => rw [perform_error hanswer]
  have hmakes : (creditXp m).Makes fun r => Keeps World.readings (outside out r) :=
    creditXp_makes m (hstep _)
  exact hmakes.run_keeps (fun _ h => h) w

/-! ## The leaderboard -/

/-- The plan is what the updater performs, if it is switched on. -/
theorem leaderboardPlan_eq (cfg : Settings) (now : Instant) (m : XpAwardedMessage) :
    (leaderboardPlan cfg now m : List (Step F)) =
      if cfg.LEADERBOARD_ENABLED = true then (if Counts m then boardSteps now m else [])
      else [] := by
  unfold leaderboardPlan
  by_cases hcfg : cfg.LEADERBOARD_ENABLED = true
  · rw [if_pos hcfg]
    by_cases hcounts : Counts m
    · rw [if_pos hcounts, if_pos ⟨hcfg, hcounts⟩]
      rfl
    · rw [if_neg hcounts, if_neg fun h => hcounts h.2]
  · rw [if_neg hcfg, if_neg fun h => hcfg h.1]

theorem leaderboardOutcome_performs (m : XpAwardedMessage) (w : World F) :
    Performs out.tape ((leaderboardOutcome cfg m).run (outside out)) w
      (leaderboardPlan cfg (out.clock w.readings) m) := by
  rw [leaderboardPlan_eq]
  unfold leaderboardOutcome
  by_cases hcfg : cfg.LEADERBOARD_ENABLED = true
  · rw [if_pos hcfg, if_pos hcfg]
    exact performs_run_then (updateLeaderboard_performs out m w) fun _ _ _ => performs_pure _ _
  · rw [if_neg hcfg, if_neg hcfg]
    exact performs_pure _ _

/-! ## The quests -/

theorem isStr_getD (j : Option (Json F)) (s : PyStr) :
    Json.isStr (some (j.getD .null)) s = Json.isStr j s := by
  cases j <;> rfl

variable [PyFloat F]

/-- A well-formed count is read. -/
theorem currentOf_ok {kvs : List (PyStr × Json F)}
    (h : Json.lookup (py "current") kvs = none ∨ Json.lookup (py "current") kvs = some .null ∨
      ∃ n, Json.lookup (py "current") kvs = some (.int n)) (w : World F) :
    ∃ n, (currentOf rt (.dict kvs)).run (outside out) w = (.ok n, w) := by
  unfold currentOf
  rw [Program.run_bind_ok (pyGet_dict _ kvs _ w)]
  rcases h with hn | hn | ⟨n, hn⟩
  · rw [hn]; exact ⟨0, rfl⟩
  · rw [hn]; exact ⟨0, rfl⟩
  · rw [hn]
    by_cases h0 : n = 0
    · subst h0; exact ⟨0, rfl⟩
    · have htruthy : (Json.int n : Json F).truthy = true := by simp [Json.truthy, h0]
      refine ⟨n, ?_⟩
      simp only [Option.getD_some, pyOr, htruthy, if_true]
      rfl

/-- `quest.get("progress") or {}` is an object whose count can be read. -/
theorem progress_or (rt : Runtime) (out : Outside F) {kvs : List (PyStr × Json F)}
    (h : WellFormedProgress (Json.lookup (py "progress") kvs)) :
    ∃ progress, pyOr ((Json.lookup (py "progress") kvs).getD .null) (.dict []) = .dict progress ∧
      (∀ w, ∃ n, (currentOf rt (.dict progress)).run (outside out) w = (.ok n, w)) ∧
      ∀ unit, Json.isStr (Json.lookup (py "unit") progress) unit =
        match Json.lookup (py "progress") kvs with
        | some (.dict progress) => Json.isStr (Json.lookup (py "unit") progress) unit
        | _ => false := by
  have hempty : ∀ w, ∃ n, (currentOf rt (.dict [])).run (outside out) w = (.ok n, w) := by
    intro w
    exact currentOf_ok (Or.inl rfl) w
  rcases h with hp | hp | ⟨progress, hp, hcur⟩
  · rw [hp]; exact ⟨[], rfl, hempty, fun _ => rfl⟩
  · rw [hp]; exact ⟨[], rfl, hempty, fun _ => rfl⟩
  · rw [hp]
    cases progress with
    | nil => exact ⟨[], rfl, hempty, fun _ => rfl⟩
    | cons kv rest => exact ⟨kv :: rest, rfl, fun w => currentOf_ok hcur w, fun _ => rfl⟩

/-- One turn of the loop performs the bump of its quest. -/
theorem evaluateQuest_performs (rt : Runtime) (hwf : WellFormed out) (userId unit : PyStr)
    (delta : Int) {quest : Json F} (hq : WellFormedQuest quest) (w : World F) :
    Performs out.tape ((evaluateQuest rt userId unit delta quest).run (outside out)) w
      (bumpPlan userId unit delta [quest]) := by
  obtain ⟨kvs, rfl, hid, hprog⟩ := hq
  obtain ⟨progress, hor, hcur, hunit⟩ := progress_or rt out hprog
  obtain ⟨qid, hqid⟩ := Option.isSome_iff_exists.mp hid
  unfold evaluateQuest
  refine performs_run_after (pyGet_dict _ kvs _ w) ?_
  rw [isStr_getD]
  by_cases hactive : Json.isStr (Json.lookup (py "status") kvs) (py "active") = true
  · -- an active quest: what decides is the unit it counts
    rw [if_neg (by rw [hactive]; simp)]
    refine performs_run_after (pyGet_dict _ kvs _ w) ?_
    simp only [hor]
    refine performs_run_after (pyGet_dict _ progress _ w) ?_
    rw [isStr_getD]
    have hmatch : matchesUnit unit (.dict kvs) =
        Json.isStr (Json.lookup (py "unit") progress) unit := by
      simp only [matchesUnit, hactive, Bool.true_and, hunit]
    by_cases hu : Json.isStr (Json.lookup (py "unit") progress) unit = true
    · have hplan : bumpPlan userId unit delta [.dict kvs] = [.bumpProgress qid userId delta] := by
        rw [hu] at hmatch
        simp [bumpPlan, hmatch, questId, hqid]
      rw [if_neg (by rw [hu]; simp), hplan]
      refine performs_run_then ?_ fun _ _ _ => performs_pure _ _
      unfold bumpQuest
      have hitem : (pyItem (.dict kvs) (py "id")).run (outside out) w = (.ok qid, w) := by
        simp only [pyItem, hqid]
        rfl
      obtain ⟨before, hbefore⟩ := hcur w
      refine performs_run_after hitem (performs_run_after hbefore ?_)
      -- the bump itself; what follows only reads its answer, which is an object with a count
      refine performs_run_then (performs_perform out _ w) ?_
      intro updated w' hstep
      obtain ⟨ukvs, rfl, huprog⟩ : ∃ ukvs, updated = .dict ukvs ∧
          WellFormedProgress (Json.lookup (py "progress") ukvs) := by
        rw [Prog.run_perform, perform] at hstep
        split at hstep
        · rename_i j hj
          obtain ⟨hj', -⟩ := Prod.mk.inj hstep
          exact Except.ok.inj hj' ▸ hwf.bumpProgress _ _ _ _ _ hj
        · cases hstep
      obtain ⟨uprogress, huor, hucur, -⟩ := progress_or rt out huprog
      obtain ⟨after, hafter⟩ := hucur w'
      refine performs_run_after (pyGet_dict _ ukvs _ w') ?_
      rw [huor]
      exact performs_run_after hafter (performs_pure _ _)
    · have hplan : bumpPlan userId unit delta [.dict kvs] = [] := by
        rw [Bool.not_eq_true] at hu
        rw [hu] at hmatch
        simp [bumpPlan, hmatch]
      rw [if_pos (by simpa using hu), hplan]
      exact performs_pure _ _
  · have hplan : bumpPlan userId unit delta [.dict kvs] = [] := by
      rw [Bool.not_eq_true] at hactive
      have hmatch : matchesUnit unit (.dict kvs) = false := by
        simp only [matchesUnit, hactive, Bool.false_and]
      simp [bumpPlan, hmatch]
    rw [if_pos (by simpa using hactive), hplan]
    exact performs_pure _ _

theorem evaluateListed_performs (hwf : WellFormed out) (userId unit : PyStr) (delta : Int) :
    ∀ (quests : List (Json F)) (w : World F), (∀ q ∈ quests, WellFormedQuest q) →
      Performs out.tape ((evaluateListed rt userId unit delta quests).run (outside out)) w
        (bumpPlan userId unit delta quests) := by
  intro quests
  induction quests with
  | nil =>
    intro w _
    exact performs_pure _ _
  | cons quest quests ih =>
    intro w h
    have hsplit : bumpPlan userId unit delta (quest :: quests) =
        bumpPlan userId unit delta [quest] ++ bumpPlan userId unit delta quests := by
      unfold bumpPlan
      rw [← List.map_append, ← List.filter_append]
      rfl
    rw [hsplit]
    have hquest := evaluateQuest_performs rt hwf userId unit delta
      (h quest (List.mem_cons_self ..)) w
    refine performs_run_bind hquest ?_
    intro _ w' _
    exact performs_run_then (ih w' fun q hq => h q (List.mem_cons_of_mem _ hq))
      fun _ _ _ => performs_pure _ _

theorem evaluateListing_performs (rt : Runtime) (hwf : WellFormed out) (userId unit : PyStr)
    (delta : Int) {listed : Json F} (h : WellFormedListing listed) (w : World F) :
    Performs out.tape ((evaluateListing rt userId unit delta listed).run (outside out)) w
      (bumpPlan userId unit delta (listedQuests listed)) := by
  obtain ⟨kvs, rfl, hitems⟩ := h
  unfold evaluateListing
  refine performs_run_after (pyGet_dict _ kvs _ w) ?_
  have hnone : ∀ j : Json F, j = .null →
      (pyIter (pyOr j (.list []))).run (outside out) w = (.ok [], w) := by
    intro j heq
    subst heq
    rfl
  rcases hitems with hi | hi | ⟨quests, hi, hquests⟩
  · simp only [listedQuests, hi]
    exact performs_run_after (hnone _ rfl) (performs_pure _ _)
  · simp only [listedQuests, hi]
    exact performs_run_after (hnone _ rfl) (performs_pure _ _)
  · have hiter : (pyIter (pyOr (.list quests) (.list []))).run (outside out) w =
        (.ok quests, w) := by
      cases quests <;> rfl
    simp only [listedQuests, hi]
    exact performs_run_after hiter (evaluateListed_performs hwf userId unit delta quests w hquests)

/-- The unit and the delta, where the delta is positive. -/
theorem eventUnitAndDelta_iff (event : EventMessage F D) (unit : PyStr) (delta : Int) :
    eventUnitAndDelta event = some (unit, delta) ∧ 0 < delta ↔
      drives event = some (unit, delta) := by
  cases event with
  | xpAwarded m =>
    simp only [eventUnitAndDelta, drives, Option.some.injEq, Prod.mk.injEq]
    by_cases h : 0 < m.amount
    · simp only [h, if_true, Option.some.injEq, Prod.mk.injEq]
      constructor
      · intro hh
        exact hh.1
      · intro hh
        exact ⟨hh, hh.2 ▸ h⟩
    · simp only [h, if_false, reduceCtorEq, iff_false]
      intro hh
      exact h (hh.1.2 ▸ hh.2)
  | lessonCompleted m =>
    simp only [eventUnitAndDelta, drives]
    split
    · simp
    · simp only [Option.some.injEq, Prod.mk.injEq]
      constructor
      · intro hh
        exact hh.1
      · intro hh
        exact ⟨hh, by omega⟩
  | reviewCompleted m =>
    simp only [eventUnitAndDelta, drives, Option.some.injEq, Prod.mk.injEq]
    constructor
    · intro hh
      exact hh.1
    · intro hh
      exact ⟨hh, by have := m.count_ge; omega⟩
  | friendAdded m =>
    simp only [eventUnitAndDelta, drives, Option.some.injEq, Prod.mk.injEq]
    constructor
    · intro hh
      exact hh.1
    · intro hh
      exact ⟨hh, by omega⟩
  | adWatched m => simp [eventUnitAndDelta, drives]
  | subscriptionChanged m => simp [eventUnitAndDelta, drives]

/-- What evaluating the quests of an event does, from the world `w`: it bumps what the
listing lets it bump, and returns if the listing is settled and every bump succeeds. -/
structure Evaluates {α : Type} (out : Outside F) (event : EventMessage F D) (m : Py (World F) α)
    (w : World F) : Prop where
  applied : (m w).2.applied = w.applied ++ out.tape.reached (w.calls + 1)
    (questPlan w.unmounted event (out.answer w.calls (.listQuests event.userId)))
  returns : (∃ a, (m w).1 = .ok a) ↔
    Settled w.unmounted event (out.answer w.calls (.listQuests event.userId)) ∧
    out.tape.reached (w.calls + 1)
      (questPlan w.unmounted event (out.answer w.calls (.listQuests event.userId))) =
      questPlan w.unmounted event (out.answer w.calls (.listQuests event.userId))
  mounted : out.answer w.calls (.listQuests event.userId) ≠ .error (.HTTPStatusError 404) →
    (m w).2.unmounted = w.unmounted

/-- An event with nothing to evaluate. -/
theorem evaluates_idle {α : Type} {event : EventMessage F D} {m : Py (World F) α} {w : World F}
    {a : α} (hm : m w = (.ok a, w)) (h : drives event = none ∨ w.unmounted = true) :
    Evaluates out event m w := by
  have hplan :
      questPlan w.unmounted event (out.answer w.calls (.listQuests event.userId)) = [] := by
    unfold questPlan
    rcases h with hd | hl
    · rw [hd]
    · split
      · rw [if_pos hl]
      · rfl
  have hsettled : Settled w.unmounted event (out.answer w.calls (.listQuests event.userId)) := by
    rcases h with hd | hl
    · exact Or.inl hd
    · exact Or.inr (Or.inl hl)
  refine ⟨?_, ?_, ?_⟩
  · rw [hm, hplan, Tape.reached, List.append_nil]
  · rw [hm, hplan]
    exact iff_of_true ⟨a, rfl⟩ ⟨hsettled, rfl⟩
  · rw [hm]
    intro _
    exact rfl

omit [PyFloat F] in
theorem latch_read (out : Outside F) (w : World F) :
    (Program.perform Request.questsSurfaceUnmounted).run (outside out) w =
      (.ok w.unmounted, w) := rfl

theorem evaluateQuestsFor_evaluates (hwf : WellFormed out) (event : EventMessage F D)
    (w : World F) :
    Evaluates out event ((evaluateQuestsFor rt event.userId event).run (outside out)) w := by
  by_cases hdrive : ∃ unit delta, drives event = some (unit, delta)
  · obtain ⟨unit, delta, hd⟩ := hdrive
    obtain ⟨hpair, hpos⟩ := (eventUnitAndDelta_iff event unit delta).mpr hd
    cases hlatch : w.unmounted with
    | true =>
      -- the latch is shut: the listing is not asked for
      refine evaluates_idle (a := []) ?_ (Or.inr hlatch)
      simp only [evaluateQuestsFor, hpair, if_neg (by omega : ¬ delta ≤ 0)]
      rw [Program.run_bind_ok (latch_read out w), hlatch]
      rfl
    | false =>
      let w1 : World F := { w with calls := w.calls + 1 }
      have hasked : ∀ r, out.answer w.calls (.listQuests event.userId) = r →
          (Program.attempt (.call (.listQuests event.userId)) : Prog F _).run (outside out) w =
            (.ok r, w1) := by
        intro r hr
        rw [Program.run_attempt]
        simp only [Action.attempt, outside, listQuests, hr, w1]
      have hlatchRead := latch_read out w
      rw [hlatch] at hlatchRead
      cases hl : out.answer w.calls (.listQuests event.userId) with
      | ok listed =>
        have hrun : (evaluateQuestsFor rt event.userId event).run (outside out) w =
            (evaluateListing rt event.userId unit delta listed).run (outside out) w1 := by
          simp only [evaluateQuestsFor, hpair, if_neg (by omega : ¬ delta ≤ 0)]
          rw [Program.run_bind_ok hlatchRead]
          exact Program.run_bind_ok (hasked _ hl) _
        have hplan : questPlan w.unmounted event (.ok listed) =
            bumpPlan event.userId unit delta (listedQuests listed) := by
          simp only [questPlan, hd, hlatch, Bool.false_eq_true, if_false]
        have hperf := evaluateListing_performs rt hwf event.userId unit delta
          (hwf.listQuests _ _ _ hl) w1
        refine ⟨?_, ?_, ?_⟩
        · rw [hrun, hl, hplan]
          exact hperf.ledger
        · rw [hrun, hl, hplan, hperf.returns]
          constructor
          · intro h
            exact ⟨Or.inr (Or.inr (Or.inl ⟨_, rfl⟩)), h⟩
          · intro h
            exact h.2
        · rw [hrun]
          intro _
          exact hperf.kept
      | error exc =>
        have hplan : questPlan w.unmounted event (.error exc : Except PyExc (Json F)) = [] := by
          simp only [questPlan, hd]
        by_cases h404 : exc = .HTTPStatusError 404
        · -- the one failure that is swallowed, and remembered
          have hrun : (evaluateQuestsFor rt event.userId event).run (outside out) w =
              (.ok [], { w1 with unmounted := true }) := by
            simp only [evaluateQuestsFor, hpair, if_neg (by omega : ¬ delta ≤ 0)]
            rw [Program.run_bind_ok hlatchRead]
            refine (Program.run_bind_ok (hasked _ hl) _).trans ?_
            simp only [h404, if_true]
            rfl
          refine ⟨?_, ?_, ?_⟩
          · rw [hrun, hl, hplan, Tape.reached, List.append_nil]
          · rw [hrun, hl, hplan]
            refine iff_of_true ⟨[], rfl⟩ ⟨Or.inr (Or.inr (Or.inr ?_)), rfl⟩
            rw [h404]
          · rw [hl, h404]
            intro h
            exact absurd rfl h
        · -- any other is raised again: the message comes back
          have hrun : (evaluateQuestsFor rt event.userId event).run (outside out) w =
              (.error exc, w1) := by
            simp only [evaluateQuestsFor, hpair, if_neg (by omega : ¬ delta ≤ 0)]
            rw [Program.run_bind_ok hlatchRead]
            refine (Program.run_bind_ok (hasked _ hl) _).trans ?_
            simp only [h404, if_false]
            rfl
          refine ⟨?_, ?_, ?_⟩
          · rw [hrun, hl, hplan, Tape.reached, List.append_nil]
          · rw [hrun, hl]
            refine iff_of_false not_returned ?_
            intro hboth
            rcases hboth.1 with h | h | h | h
            · rw [hd] at h; cases h
            · rw [hlatch] at h; cases h
            · exact not_returned h
            · exact h404 (Except.error.inj h)
          · rw [hrun]
            intro _
            exact rfl
  · -- nothing to drive, or a delta of zero or less: no listing either
    have hd : drives event = none := by
      cases hd : drives event with
      | none => rfl
      | some ud => exact absurd ⟨ud.1, ud.2, hd⟩ hdrive
    refine evaluates_idle (a := []) ?_ (Or.inl hd)
    unfold evaluateQuestsFor
    cases hpair : eventUnitAndDelta event with
    | none => rfl
    | some ud =>
      have hle : ud.2 ≤ 0 := by
        by_contra hpos
        rw [(eventUnitAndDelta_iff event ud.1 ud.2).mp ⟨hpair, by omega⟩] at hd
        cases hd
      simp only [if_pos hle]
      rfl

/-- What follows an evaluation does not change it. -/
theorem Evaluates.then_pure {α β : Type} {event : EventMessage F D} {p : Prog F α}
    {w : World F} (h : Evaluates out event (p.run (outside out)) w) (f : α → β) :
    Evaluates out event ((p >>= fun a => pure (f a)).run (outside out)) w := by
  obtain ⟨happ, hret, hmount⟩ := h
  cases hm : p.run (outside out) w with
  | mk r w' =>
    rw [hm] at happ hret hmount
    cases r with
    | ok a =>
      have hrun : (p >>= fun a => pure (f a)).run (outside out) w = (.ok (f a), w') :=
        Program.run_bind_ok hm _
      refine ⟨by rw [hrun]; exact happ, ?_, by rw [hrun]; exact hmount⟩
      rw [hrun, ← hret]
      exact iff_of_true ⟨f a, rfl⟩ ⟨a, rfl⟩
    | error exc =>
      have hrun : (p >>= fun a => pure (f a)).run (outside out) w = (.error exc, w') :=
        Program.run_bind_error hm _
      refine ⟨by rw [hrun]; exact happ, ?_, by rw [hrun]; exact hmount⟩
      rw [hrun, ← hret]
      exact iff_of_false not_returned not_returned

end Parts

/-! ## A dispatch -/

section Dispatch

variable [PyFloat F] {cfg : Settings} {rt : Runtime} {out : Outside F}

/-- What a dispatch does, from the world `w`. -/
structure Dispatches {α : Type} (cfg : Settings) (out : Outside F) (event : EventMessage F D)
    (m : Py (World F) α) (w : World F) : Prop where
  applied : (m w).2.applied = w.applied ++ reachedSteps cfg out w event
  returns : (∃ a, (m w).1 = .ok a) ↔
    ListingSettled cfg out w event ∧ reachedSteps cfg out w event = plan cfg out w event
  mounted : listing cfg out w event ≠ .error (.HTTPStatusError 404) →
    (m w).2.unmounted = w.unmounted

/-- The first part of the plan, and then the quests. -/
theorem dispatches_of_parts {α β : Type} (cfg : Settings) {event : EventMessage F D}
    {p : Prog F α} {f : α → Prog F β} {w : World F}
    (hp : Performs out.tape (p.run (outside out)) w (base cfg out w event))
    (hf : ∀ a w', p.run (outside out) w = (.ok a, w') →
      Evaluates out event ((f a).run (outside out)) w') :
    Dispatches cfg out event ((p >>= f).run (outside out)) w := by
  have hledger := hp.ledger
  have hreturns := hp.returns
  have hcount := hp.count
  have hkept := hp.kept
  cases h : p.run (outside out) w with
  | mk r w' =>
    rw [h] at hledger hreturns hcount hkept
    cases r with
    | error exc =>
      have hbind := Program.run_bind_error h f
      -- the first part raised: the quests are not listed, and no bump is attempted
      have hpart : out.tape.reached w.calls (base cfg out w event) ≠ base cfg out w event := by
        intro hp
        obtain ⟨a, ha⟩ := hreturns.mpr hp
        cases ha
      have hpre := out.tape.reached_prefix_plan w.calls (base cfg out w event)
      have hlen : (out.tape.reached w.calls (base cfg out w event)).length ≠
          (base cfg out w event).length := fun hl => hpart (hpre.eq_of_length hl)
      have hgot : reachedSteps cfg out w event =
          out.tape.reached w.calls (base cfg out w event) := by
        simp only [reachedSteps, if_neg hlen]
      refine ⟨?_, ?_, ?_⟩
      · rw [hbind, hgot]
        exact hledger
      · rw [hbind]
        refine iff_of_false not_returned ?_
        intro hboth
        have he := hboth.2
        rw [hgot] at he
        refine hpart (hpre.eq_of_length_le ?_)
        rw [he, plan, List.length_append]
        omega
      · rw [hbind]
        intro _
        exact hkept
    | ok a =>
      have hbind := Program.run_bind_ok h f
      have hall : out.tape.reached w.calls (base cfg out w event) = base cfg out w event :=
        hreturns.mp ⟨a, rfl⟩
      have hcalls : w'.calls = w.calls + (base cfg out w event).length := hcount ⟨a, rfl⟩
      have hlatch : w'.unmounted = w.unmounted := hkept
      have happlied : w'.applied = w.applied ++ base cfg out w event := by
        rw [← hall]; exact hledger
      obtain ⟨hqapp, hqret, hqmount⟩ := hf a w' h
      rw [hcalls, hlatch] at hqapp hqret
      rw [hcalls] at hqmount
      have hgot : reachedSteps cfg out w event = base cfg out w event ++
          out.tape.reached (w.calls + (base cfg out w event).length + 1)
            (bumps cfg out w event) := by
        simp only [reachedSteps, hall, if_true]
      refine ⟨?_, ?_, ?_⟩
      · rw [hbind, hgot, hqapp, happlied, List.append_assoc]
        rfl
      · rw [hbind, hqret, hgot, plan]
        exact and_congr_right fun _ =>
          ⟨fun he => congrArg _ he, fun he => List.append_cancel_left he⟩
      · rw [hbind]
        intro h404
        exact (hqmount h404).trans hlatch

/-- **A dispatch** performs the event's plan up to its first failure, and returns
exactly when the listing is settled and it got to the end. -/
theorem dispatch_dispatches (cfg : Settings) (rt : Runtime) (hwf : WellFormed out)
    (event : EventMessage F D) (w : World F) :
    Dispatches cfg out event (dispatch (handlersOn cfg rt (outside out)) event) w := by
  have hquest : ∀ (event : EventMessage F D) (w : World F),
      Evaluates out event ((questEval rt event).run (outside out)) w := by
    intro event w
    exact (evaluateQuestsFor_evaluates hwf event w).then_pure _
  -- an event with no first part
  have hsole : ∀ (event : EventMessage F D) (p : Prog F (Outcomes F)), base cfg out w event = [] →
      Evaluates out event (p.run (outside out)) w →
      Dispatches cfg out event (p.run (outside out)) w := by
    intro event p hbase hp
    have hnone : Performs out.tape ((pure () : Prog F Unit).run (outside out)) w
        (base cfg out w event) := hbase ▸ performs_pure _ _
    refine dispatches_of_parts cfg (f := fun _ => p) hnone ?_
    intro _ w' hw'
    obtain rfl := (Prod.mk.inj hw').2
    exact hp
  have hquests : ∀ event : EventMessage F D,
      Evaluates out event ((questsOnly rt event).run (outside out)) w :=
    fun event => (hquest event w).then_pure _
  rw [dispatch_handlersOn]
  cases event with
  | xpAwarded m =>
    -- the credit and the leaderboard are the first part, in one program
    let head : Prog F (Outcomes F × Json F) := do
      let credited ← creditXp m
      let leaderboard ← leaderboardOutcome cfg m
      pure (credited, leaderboard)
    have hhead : Performs out.tape (head.run (outside out)) w
        (base cfg out w (.xpAwarded m : EventMessage F D)) := by
      refine performs_run_bind (creditXp_performs hwf m w) ?_
      intro _ w' hc
      have hread : w'.readings = w.readings := by
        have hr := creditXp_readings out m w
        rw [hc] at hr
        exact hr
      rw [← hread]
      exact performs_run_then (leaderboardOutcome_performs m w') fun _ _ _ => performs_pure _ _
    have hsplit : handle cfg rt (.xpAwarded m : EventMessage F D) =
        head >>= fun c => questEval rt (.xpAwarded m : EventMessage F D) >>=
          fun quests => pure (c.1 ++ [c.2, quests]) := by
      simp only [head, bind_assoc, pure_bind]
      rfl
    rw [hsplit]
    exact dispatches_of_parts cfg hhead fun c w' _ =>
      (hquest (.xpAwarded m) w').then_pure fun quests => c.1 ++ [c.2, quests]
  | lessonCompleted m => exact hsole _ _ rfl (hquests (.lessonCompleted m))
  | reviewCompleted m => exact hsole _ _ rfl (hquests (.reviewCompleted m))
  | friendAdded m => exact hsole _ _ rfl (hquests (.friendAdded m))
  | adWatched m => exact hsole _ _ rfl (evaluates_idle rfl (Or.inl rfl))
  | subscriptionChanged m => exact hsole _ _ rfl (evaluates_idle rfl (Or.inl rfl))

/-- What a dispatch reaches is a prefix of the plan. -/
theorem reachedSteps_prefix_plan (event : EventMessage F D) (w : World F) :
    reachedSteps cfg out w event <+: plan cfg out w event := by
  unfold reachedSteps plan
  simp only
  split
  · exact (List.prefix_append_right_inj _).mpr (out.tape.reached_prefix_plan _ _)
  · exact (out.tape.reached_prefix_plan _ _).trans (List.prefix_append _ _)

end Dispatch

end LingoAsync.Handlers
