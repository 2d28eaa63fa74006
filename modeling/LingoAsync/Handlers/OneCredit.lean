import LingoAsync.Handlers.InStep

/-!
# One leaderboard credit per event

An award's XP reaches the leaderboard from three sides: the producer may have written it
before it published the event, core writes it when `add_xp` is called, and the worker adds it
itself. The first two share out the sources between them: "`lesson` is the only source whose
producer already credits user.xp and writes the leaderboard inline; every other source needs
the post-hoc callback". So whatever the source, one of them has written the amount.

The worker's own update does not ask for the source. When it is switched on, an award with a
language is credited twice, in the week and in the month, unless nothing is left of the language
once it is stripped: the worker's update passes over that one (`credited_once_iff`). When it is
switched off, every award is credited once (`credited_once_of_disabled`).
-/

namespace LingoAsync.Handlers

open LingoAsync.Text LingoAsync.Contracts LingoAsync.Calendar LingoAsync.Leaderboard
open LingoAsync.Action

variable {F D : Type}

/-! ## What core writes -/

/-- What lingo-core and the producers write to a user's item, as `xp_awarded.py` describes them:
the producer of a lesson has written its amount, no other producer has, and a callback with
`leaderboard_opt_in` writes what it is called with. -/
structure Core where
  producer : Scope → XpAwardedMessage → Int
  callback : Scope → (amount : Int) → (learningLanguageId : Option PyStr) →
    (leaderboardOptIn : Bool) → Int
  producer_lesson : ∀ scope m, m.source = .lesson → m.leaderboardOptIn = true →
    producer scope m = m.amount
  producer_other : ∀ scope m, m.source ≠ .lesson → producer scope m = 0
  callback_optIn : ∀ scope amount lang, callback scope amount lang true = amount

/-- What a step adds to the item `key` of the user, by the worker's hand or by core's. -/
def addition (core : Core) (scope : Scope) (userId : PyStr) (key : Key) : Step F → Option Int
  | .addXp userId' amount lang optIn =>
    if userId' = userId then some (core.callback scope amount lang optIn) else none
  | .updateItem pk sk amount _ => if (pk, sk) = key then some amount else none
  | .bumpProgress _ _ _ => none

/-- All that an award handled at `now` has added to its user's item of the week or of the month:
what its producer had written, and the steps taken between two states of the process. -/
def increment (core : Core) (scope : Scope) (now : Instant) (m : XpAwardedMessage)
    (before after : World F) : Int :=
  let added := addition core scope m.userId (itemKey (bucket scope (eventLang m) now).1 m.userId)
  core.producer scope m + ((made added after).sum - (made added before).sum)

/-- An award that is meant for the leaderboard: it has an amount and a language, and its user has
opted in. -/
structure Meant (m : XpAwardedMessage) : Prop where
  amount : 0 < m.amount
  optIn : m.leaderboardOptIn = true
  language : m.learningLanguageId.getD [] ≠ []

/-- The worker's update takes such an award if there is more to its language than blanks. -/
theorem Meant.counts_iff {m : XpAwardedMessage} (h : Meant m) : Counts m ↔ eventLang m ≠ [] :=
  ⟨fun hcounts => hcounts.2.2, fun hlang => ⟨h.amount, h.optIn, hlang⟩⟩

/-- The credit's step adds what the producer has not written. -/
theorem addition_credit (core : Core) (scope : Scope) {m : XpAwardedMessage} (h : Meant m)
    (key : Key) : core.producer scope m +
      ((creditPlan m : List (Step F)).filterMap (addition core scope m.userId key)).sum =
        m.amount := by
  by_cases hsource : m.source = .lesson
  · have hplan : creditPlan (F := F) m = [] := if_neg fun hc => hc.1 hsource
    rw [hplan, core.producer_lesson scope m hsource h.optIn]
    exact add_zero _
  · have hplan : creditPlan (F := F) m =
        [.addXp m.userId m.amount m.learningLanguageId m.leaderboardOptIn] :=
      if_pos ⟨hsource, h.amount⟩
    have hcallback := core.callback_optIn scope m.amount m.learningLanguageId
    rw [hplan, core.producer_other scope m hsource, h.optIn]
    simp [addition, hcallback]

/-- Of the leaderboard's two steps, one adds to the item of a scope. -/
theorem addition_board (core : Core) (scope : Scope) (now : Instant) (m : XpAwardedMessage) :
    (boardSteps now m : List (Step F)).filterMap
      (addition core scope m.userId (itemKey (bucket scope (eventLang m) now).1 m.userId)) =
        [m.amount] := by
  have hkey : ∀ scope', itemKey (bucket scope' (eventLang m) now).1 m.userId =
      itemKey (bucket scope (eventLang m) now).1 m.userId ↔ scope' = scope := by
    intro scope'
    constructor
    · intro h
      exact scope_of_periodOf ((itemKey_eq_iff _ _ _ _ _ _ _ _).mp h).2.1
    · intro h
      rw [h]
  have hstep : ∀ scope', addition (F := F) core scope m.userId
      (itemKey (bucket scope (eventLang m) now).1 m.userId)
      (addXpStep (bucket scope' (eventLang m) now) m.userId m.amount) =
        if scope' = scope then some m.amount else none := by
    intro scope'
    exact if_congr (hkey scope') rfl rfl
  show List.filterMap _ [addXpStep (bucket .weekly (eventLang m) now) m.userId m.amount,
    addXpStep (bucket .monthly (eventLang m) now) m.userId m.amount] = _
  cases scope <;> simp [hstep]

/-! ## An award that is handled to its end -/

section Award

variable [PyFloat F] {cfg : Settings} {rt : Runtime} {out : Outside F}

/-- A handler that returned took the credit's step and the leaderboard's, and then bumps. -/
theorem made_xpAwarded {β : Type} {g : Step F → Option β}
    (hbump : ∀ questId userId delta, g (.bumpProgress questId userId delta) = none)
    {m : XpAwardedMessage} {w : World F}
    (h : ((xpAwarded D cfg rt m).run (outside out) w).1.isOk = true) :
    made g ((xpAwarded D cfg rt m).run (outside out) w).2 = made g w ++
      (creditPlan m ++ leaderboardPlan cfg (out.clock w.readings) m).filterMap g := by
  unfold xpAwarded at h ⊢
  rcases creditXp_cases out m w with
    ⟨-, credited, w1, hcredit, -, hreadings, happlied⟩ | ⟨-, exc, w1, hcredit, -⟩
  · rw [Program.run_bind_ok hcredit] at h ⊢
    have hperforms : Performs out.tape ((leaderboardOutcome cfg m).run (outside out)) w1
        (leaderboardPlan cfg (out.clock w1.readings) m) := leaderboardOutcome_performs m w1
    cases hboard : (leaderboardOutcome cfg m).run (outside out) w1 with
    | mk r w2 =>
      cases r with
      | error exc =>
        rw [Program.run_bind_error hboard] at h
        cases h
      | ok board =>
        rw [Program.run_bind_ok hboard]
        -- it returned, so it got to the end of its plan
        have hledger := hperforms.ledger
        rw [hperforms.returns.mp ⟨board, by rw [hboard]⟩, hboard, hreadings] at hledger
        have hsteps : w2.applied = w.applied ++
            (creditPlan m ++ leaderboardPlan cfg (out.clock w.readings) m) := by
          rw [← List.append_assoc, ← happlied]
          exact hledger
        have hquests := keeps_questEval rt out hbump (.xpAwarded m : EventMessage F D)
          (fun quests => credited ++ [board, quests]) w2
        rw [hquests, made, hsteps, List.filterMap_append]
        rfl
  · rw [Program.run_bind_error hcredit] at h
    cases h

/-- **What an award comes to**: its amount, and the worker's own update if that is switched on and
takes the award. -/
theorem increment_xpAwarded (core : Core) (scope : Scope) {m : XpAwardedMessage} (hm : Meant m)
    {w : World F} (h : ((xpAwarded D cfg rt m).run (outside out) w).1.isOk = true) :
    increment core scope (out.clock w.readings) m w ((xpAwarded D cfg rt m).run (outside out) w).2 =
      m.amount + if cfg.LEADERBOARD_ENABLED = true ∧ Counts m then m.amount else 0 := by
  have hcredit := addition_credit (F := F) core scope hm
    (itemKey (bucket scope (eventLang m) (out.clock w.readings)).1 m.userId)
  have hboard := addition_board (F := F) core scope (out.clock w.readings) m
  rw [increment, made_xpAwarded (fun _ _ _ => rfl) h, List.filterMap_append, List.sum_append,
    List.sum_append, add_sub_cancel_left, ← add_assoc, hcredit, leaderboardPlan_eq]
  by_cases hcfg : cfg.LEADERBOARD_ENABLED = true
  · by_cases hcounts : Counts m
    · rw [if_pos hcfg, if_pos hcounts, if_pos ⟨hcfg, hcounts⟩, hboard, List.sum_singleton]
    · rw [if_pos hcfg, if_neg hcounts, if_neg fun hc => hcounts hc.2]
      rfl
  · rw [if_neg hcfg, if_neg fun hc => hcfg hc.1]
    rfl

/-- The award is credited once, in the week and in the month. -/
def CreditedOnce (core : Core) (now : Instant) (m : XpAwardedMessage) (before after : World F) :
    Prop :=
  ∀ scope, increment core scope now m before after = m.amount

/-- With the worker's own update switched off an award is credited once. -/
theorem credited_once_of_disabled (core : Core) (hcfg : cfg.LEADERBOARD_ENABLED = false)
    {m : XpAwardedMessage} (hm : Meant m) {w : World F}
    (h : ((xpAwarded D cfg rt m).run (outside out) w).1.isOk = true) :
    CreditedOnce core (out.clock w.readings) m w
      ((xpAwarded D cfg rt m).run (outside out) w).2 := by
  intro scope
  have hoff : ¬ (cfg.LEADERBOARD_ENABLED = true ∧ Counts m) := by simp [hcfg]
  rw [increment_xpAwarded core scope hm h, if_neg hoff, add_zero]

/-- **Which awards are credited once.** With the worker's update switched on, an award meant for the
leaderboard and handled to its end adds its amount to the user's week and to the user's month, and
adds it again unless its language is all blanks. So it is credited once exactly then, whatever its
source. -/
theorem credited_once_iff (core : Core) (hcfg : cfg.LEADERBOARD_ENABLED = true)
    {m : XpAwardedMessage} (hm : Meant m) {w : World F}
    (h : ((xpAwarded D cfg rt m).run (outside out) w).1.isOk = true) :
    (∀ scope, increment core scope (out.clock w.readings) m w
      ((xpAwarded D cfg rt m).run (outside out) w).2 =
        if eventLang m = [] then m.amount else 2 * m.amount) ∧
    (CreditedOnce core (out.clock w.readings) m w ((xpAwarded D cfg rt m).run (outside out) w).2 ↔
      eventLang m = []) := by
  have hsum : ∀ scope, increment core scope (out.clock w.readings) m w
      ((xpAwarded D cfg rt m).run (outside out) w).2 =
        if eventLang m = [] then m.amount else 2 * m.amount := by
    intro scope
    rw [increment_xpAwarded core scope hm h]
    by_cases hlang : eventLang m = []
    · rw [if_neg fun hc => hm.counts_iff.mp hc.2 hlang, if_pos hlang, add_zero]
    · rw [if_pos ⟨hcfg, hm.counts_iff.mpr hlang⟩, if_neg hlang, two_mul]
  refine ⟨hsum, ?_, ?_⟩
  · intro honce
    by_contra hlang
    have htwice := hsum .weekly
    rw [honce .weekly, if_neg hlang] at htwice
    have hpos := hm.amount
    omega
  · intro hlang scope
    rw [hsum scope, if_pos hlang]

end Award

/-! ## A lesson, and a synthetic award -/

/-- Core and the producers, as described. -/
def describedCore : Core where
  producer _ m := if m.source = .lesson ∧ m.leaderboardOptIn = true then m.amount else 0
  callback _ amount _ optIn := if optIn then amount else 0
  producer_lesson _ _ hsource hopt := if_pos ⟨hsource, hopt⟩
  producer_other _ _ hsource := if_neg fun h => hsource h.1
  callback_optIn _ _ _ := rfl

/-- Ten XP in some language. -/
def tenXp (source : XpSource) (lang : PyStr) : XpAwardedMessage where
  userId := py "u1"
  amount := 10
  source := source
  learningLanguageId := some lang
  leaderboardOptIn := true
  amount_ge := Int.natCast_nonneg 10

/-- Ten XP in Spanish. -/
def spanishXp (source : XpSource) : XpAwardedMessage := tenXp source (py "es")

/-- A synthetic award in Spanish is credited by core and by the worker, one in the language `" "` by
core alone. -/
theorem credited_once_iff_manual :
    ¬ CreditedOnce describedCore .noon (spanishXp .manual) World.start
      ((xpAwarded Stamp ⟨true⟩ plainRuntime (spanishXp .manual)).run
        (outside (servicesFailing [])) World.start).2 ∧
    CreditedOnce describedCore .noon (tenXp .manual (py " ")) World.start
      ((xpAwarded Stamp ⟨true⟩ plainRuntime (tenXp .manual (py " "))).run
        (outside (servicesFailing [])) World.start).2 := by
  have hmeant : ∀ {lang : PyStr}, lang ≠ [] → Meant (tenXp .manual lang) :=
    fun hlang => ⟨(by decide : (0 : Int) < 10), rfl, hlang⟩
  have hreturns : ∀ lang ∈ [py "es", py " "],
      ((xpAwarded Stamp ⟨true⟩ plainRuntime (tenXp .manual lang)).run
        (outside (servicesFailing [])) World.start).1.isOk = true := by decide +kernel
  have hclock : (servicesFailing []).clock (World.start : World Score).readings = .noon := rfl
  have hspanish := credited_once_iff describedCore rfl (hmeant (by decide))
    (hreturns (py "es") (by simp))
  have hblank := credited_once_iff describedCore rfl (hmeant (by decide))
    (hreturns (py " ") (by simp))
  rw [hclock] at hspanish hblank
  exact ⟨fun honce => absurd (hspanish.2.mp honce) (by decide), hblank.2.mpr (by decide)⟩

/-- A lesson is credited by its producer and by the worker: its ten XP make twenty. -/
theorem lesson_twice :
    ((xpAwarded Stamp ⟨true⟩ plainRuntime (spanishXp .lesson)).run
      (outside (servicesFailing [])) World.start).1.isOk = true ∧
    ¬ CreditedOnce describedCore .noon (spanishXp .lesson) World.start
      ((xpAwarded Stamp ⟨true⟩ plainRuntime (spanishXp .lesson)).run
        (outside (servicesFailing [])) World.start).2 := by
  refine ⟨by decide +kernel, ?_⟩
  intro honce
  have htwice : increment describedCore .weekly .noon (spanishXp .lesson) World.start
      ((xpAwarded Stamp ⟨true⟩ plainRuntime (spanishXp .lesson)).run
        (outside (servicesFailing [])) World.start).2 = 20 := by decide +kernel
  rw [honce .weekly] at htwice
  exact absurd htwice (by decide)

end LingoAsync.Handlers
