import LingoAsync.Handler.Deliveries
import LingoAsync.Handlers.NoSilentLoss
import Mathlib.Data.List.Count

/-!
# Exactly-once effects

An effect is what a step is for: the XP credit, the weekly or the monthly
leaderboard add, the bump of a quest. A message that ends acknowledged should
have applied each effect its event calls for exactly once, over all its
deliveries (`ExactlyOnce`).

Its last delivery applied the whole plan. So that is the case if and only if the
plan has no effect twice and the deliveries before got to none of its effects
(`exactlyOnce_iff`). The code does nothing to see to the latter: a handler that
fails half-way starts from the beginning the next time, and an invocation that
one record ends delivers again the records it had finished.
-/

namespace LingoAsync.Handlers

open LingoAsync.Text LingoAsync.Contracts LingoAsync.Handler LingoAsync.Db

variable {F D L : Type}

/-! ## Effects -/

inductive Effect (F : Type) where
  | credit
  | weekly
  | monthly
  | bump (questId : Json F)

/-- The effect of a step. The key of a weekly item ends in `-Www`, that of a monthly
one in `-MM`. -/
def effect : Step F → Effect F
  | .addXp .. => .credit
  | .updateItem pk _ _ _ => if pk.reverse[2]? = some 87 then .weekly else .monthly
  | .bumpProgress questId _ _ => .bump questId

/-- `e` occurs exactly once. -/
def Once {α : Type} (e : α) (l : List α) : Prop :=
  open Classical in l.count e = 1

/-- Every item of `q` occurs exactly once in `p ++ q`: `q` has none twice, and `p`
has none of them. -/
theorem once_append_iff {α : Type} (p q : List α) :
    (∀ e ∈ q, Once e (p ++ q)) ↔ q.Nodup ∧ ∀ e ∈ p, e ∉ q := by
  classical
  have hcount : ∀ e, Once e (p ++ q) ↔ p.count e + q.count e = 1 := by
    intro e
    rw [Once, List.count_append]
  constructor
  · intro h
    refine ⟨List.nodup_iff_count_le_one.mpr fun e => ?_, fun e hp hq => ?_⟩
    · -- what occurs once over both occurs at most once in `q`
      by_cases hq : e ∈ q
      · have := (hcount e).mp (h e hq)
        omega
      · rw [List.count_eq_zero_of_not_mem hq]
        omega
    · -- in both it would occur twice
      have h1 := (hcount e).mp (h e hq)
      have h2 := List.count_pos_iff.mpr hp
      have h3 := List.count_pos_iff.mpr hq
      omega
  · intro hyp e hq
    obtain ⟨hnodup, hdisj⟩ := hyp
    rw [hcount, List.count_eq_zero_of_not_mem fun hp => hdisj e hp hq,
      List.count_eq_one_of_mem hnodup hq]

/-! ## What a delivery applies -/

section Run

variable [PyFloat F] (app : App F D) (out : Outside F)

/-- The world a delivery's dispatch starts in: after the two readings of the clock. -/
def dispatchWorld (d : Delivery (World F × L)) : World F := (app.worker out).tick d.before.1

/-- The steps a delivery applied. -/
def applied (d : Delivery (World F × L)) : List (Step F) :=
  d.after.1.applied.drop d.before.1.applied.length

/-- What the event calls for at a delivery. The quest surface counts as mounted. -/
def calledFor (event : EventMessage F D) (d : Delivery (World F × L)) : List (Step F) :=
  plan app.cfg out { dispatchWorld app out d with unmounted := false } event

/-- The steps a delivery gets to before the first that fails. -/
def gotTo (event : EventMessage F D) (d : Delivery (World F × L)) : List (Step F) :=
  reachedSteps app.cfg out { dispatchWorld app out d with unmounted := false } event

/-- Each effect that is called for was applied exactly once, over these deliveries. -/
def ExactlyOnce (steps : List (Step F)) (ds : List (Delivery (World F × L))) : Prop :=
  ∀ e ∈ steps.map effect, Once e ((ds.flatMap applied).map effect)

variable {app out}

/-- The latch stays open while no listing answers 404. -/
theorem handleRecord_unmounted (hwf : WellFormed out)
    (hmounted : ∀ n userId, out.answer n (.listQuests userId) ≠ .error (.HTTPStatusError 404))
    (record : SqsRecord) (s : World F) (hs : s.unmounted = false) :
    ((app.worker out).handleRecord none record s).2.unmounted = false := by
  rw [handleRecord_none]
  have htick : ((app.worker out).tick s).unmounted = false := hs
  split
  · exact htick
  · exact htick
  · rename_i event _
    have hdisp := dispatch_dispatches app.cfg app.rt hwf event ((app.worker out).tick s)
    exact (hdisp.mounted (hmounted _ _)).trans htick

/-- A delivery of the event applies the steps it gets to; an acknowledged one, all the
event calls for. -/
theorem applied_delivery (hwf : WellFormed out)
    (hmounted : ∀ n userId, out.answer n (.listQuests userId) ≠ .error (.HTTPStatusError 404))
    (openLog : Py L (Option (EventsRepo L))) {schedule : List (List SqsRecord)} {s : World F}
    {l : L} (hs : s.unmounted = false) {d : Delivery (World F × L)}
    (hd : d ∈ ((app.worker out).withLog openLog).deliveries schedule (s, l))
    {event : EventMessage F D} (hparse : (app.worker out).parse d.record = .ok event) :
    applied d = gotTo app out event d ∧
      (d.acked = true → gotTo app out event d = calledFor app out event d) := by
  obtain ⟨hopen, hafter, hacked⟩ := mem_deliveries (app.worker out) openLog
    (fun s => s.unmounted = false) (handleRecord_unmounted hwf hmounted) hs d hd
  have hstart : { dispatchWorld app out d with unmounted := false } = dispatchWorld app out d := by
    have h : (dispatchWorld app out d).unmounted = false := hopen
    rw [← h]
  have hdisp := dispatch_dispatches app.cfg app.rt hwf event (dispatchWorld app out d)
  rw [handleRecord_dispatched hparse] at hafter hacked
  have hworld : (dispatch (app.worker out).handlers event (dispatchWorld app out d)).2 =
      d.after.1 := hafter
  unfold applied gotTo calledFor
  rw [hstart]
  refine ⟨?_, fun h => ?_⟩
  · -- the steps after those of the start
    rw [← hworld]
    have happ := hdisp.applied
    have hbefore : (dispatchWorld app out d).applied = d.before.1.applied := rfl
    rw [hbefore] at happ
    exact (congrArg (List.drop _) happ).trans List.drop_left
  · -- acknowledged, so the handler returned
    refine (hdisp.returns.mp ?_).2
    have hnone := hacked h
    cases hr : (dispatch (app.worker out).handlers event (dispatchWorld app out d)).1 with
    | ok outcomes => exact ⟨outcomes, hr⟩
    | error exc =>
      have hraised : raised (dispatch (app.worker out).handlers event
          ((app.worker out).tick d.before.1)).1 = true :=
        congrArg raised hr
      rw [hraised] at hnone
      cases hnone

/-- **Exactly once.** Take any run from a fresh process in which no listing answers
404, and a delivery `d` of it that is acknowledged and after which the message is
not delivered again. Each effect the message's event calls for was applied exactly
once over all its deliveries, if and only if it is called for once and no earlier
delivery of the message got to a step with such an effect. -/
theorem exactlyOnce_iff (hwf : WellFormed out)
    (hmounted : ∀ n userId, out.answer n (.listQuests userId) ≠ .error (.HTTPStatusError 404))
    (openLog : Py L (Option (EventsRepo L))) {schedule : List (List SqsRecord)} {l : L}
    {pre post : List (Delivery (World F × L))} {d : Delivery (World F × L)}
    (hrun : ((app.worker out).withLog openLog).deliveries schedule (World.start, l) =
      pre ++ d :: post)
    (hacked : d.acked = true) (hstop : ∀ d' ∈ post, d'.record ≠ d.record)
    {event : EventMessage F D} (hparse : (app.worker out).parse d.record = .ok event) :
    ExactlyOnce (calledFor app out event d) ((pre ++ d :: post).filter (·.record = d.record)) ↔
      ((calledFor app out event d).map effect).Nodup ∧
      ∀ d' ∈ pre, d'.record = d.record → ∀ step ∈ gotTo app out event d',
        effect step ∉ (calledFor app out event d).map effect := by
  have hmem : ∀ d' ∈ pre ++ d :: post, d' ∈
      ((app.worker out).withLog openLog).deliveries schedule (World.start, l) := by
    intro d' h
    exact hrun ▸ h
  obtain ⟨hd, hall⟩ := applied_delivery hwf hmounted openLog rfl (hmem d (by simp)) hparse
  have hearlier : ∀ d' ∈ pre, d'.record = d.record → applied d' = gotTo app out event d' :=
    fun d' hpre he => (applied_delivery hwf hmounted openLog rfl
      (hmem d' (List.mem_append_left _ hpre)) (he ▸ hparse)).1
  -- the message's deliveries are those before `d`, and `d`, which applied the whole plan
  have htotal : (((pre ++ d :: post).filter (·.record = d.record)).flatMap applied).map effect =
      ((pre.filter (·.record = d.record)).flatMap applied).map effect ++
        (calledFor app out event d).map effect := by
    have hpost : post.filter (·.record = d.record) = [] := by
      rw [List.filter_eq_nil_iff]
      intro d' h
      simpa using hstop d' h
    rw [List.filter_append, List.filter_cons_of_pos (by simp), hpost, List.flatMap_append,
      List.map_append, List.flatMap_cons, List.flatMap_nil, List.append_nil, hd, hall hacked]
  unfold ExactlyOnce
  rw [htotal, once_append_iff]
  refine and_congr_right ?_
  intro _
  simp only [List.mem_map, List.mem_flatMap, List.mem_filter, decide_eq_true_eq]
  constructor
  · intro h d' hpre he step hstep
    exact h (effect step) ⟨step, ⟨d', ⟨hpre, he⟩, (hearlier d' hpre he).symm ▸ hstep⟩, rfl⟩
  · intro h _ hyp
    obtain ⟨step, ⟨d', ⟨hpre, he⟩, hstep⟩, rfl⟩ := hyp
    exact h d' hpre he step (hearlier d' hpre he ▸ hstep)

end Run

/-! ## One award, delivered twice -/

/-- The deliveries of the award in two invocations, with the calls numbered in
`failing` failing. -/
def awardRun (failing : List Nat) : List (Delivery (World Score × Unit)) :=
  ((plainApp.worker (servicesFailing failing)).withLog (pure none)).deliveries
    [[awardRecord], [awardRecord]] (World.start, ())

/-- The kind of an effect. -/
def Effect.kind : Effect F → Nat
  | .credit => 0
  | .weekly => 1
  | .monthly => 2
  | .bump _ => 3

theorem Effect.eq_credit {e : Effect F} (h : e.kind = 0) : e = .credit := by
  cases e with
  | credit => rfl
  | _ => cases h

/-- A credit that occurs once is the only effect of its kind. -/
theorem once_credit {l : List (Effect F)} (h : Once .credit l) :
    (l.map Effect.kind).count 0 = 1 := by
  classical
  have hone : l.count .credit = 1 := h
  rw [← hone, List.count, List.count, List.countP_map]
  refine List.countP_congr ?_
  intro e _
  simp only [Function.comp_apply, beq_iff_eq]
  exact ⟨Effect.eq_credit, fun he => he ▸ rfl⟩

/-- Two deliveries, the second of them acknowledged. -/
theorem awardRun_pair (failing : List Nat)
    (hrecords : (awardRun failing).map (fun d => (d.record, d.acked)) =
      [(awardRecord, false), (awardRecord, true)]) :
    ∃ first last, awardRun failing = [first, last] ∧ first.record = awardRecord ∧
      last.record = awardRecord ∧ last.acked = true := by
  have hlen : (awardRun failing).length = 2 := by
    simpa using congrArg List.length hrecords
  obtain ⟨first, last, hrun⟩ := List.length_eq_two.mp hlen
  rw [hrun] at hrecords
  have hfirst := (List.cons.inj hrecords).1
  have hlast := (List.cons.inj (List.cons.inj hrecords).2).1
  exact ⟨first, last, hrun, (Prod.mk.inj hfirst).1, (Prod.mk.inj hlast).1, (Prod.mk.inj hlast).2⟩

/-- The credit fails at the first delivery: the second applies each effect once. -/
theorem exactlyOnce_iff_award :
    ∃ last, (awardRun [0]).getLast? = some last ∧
      ExactlyOnce (calledFor plainApp (servicesFailing [0]) award last)
        ((awardRun [0]).filter (·.record = awardRecord)) := by
  obtain ⟨first, last, hrun, hfirst, hlast, hacked⟩ := awardRun_pair [0] (by decide +kernel)
  have hmounted : ∀ n userId, (servicesFailing [0]).answer n (.listQuests userId) ≠
      .error (.HTTPStatusError 404) := by
    intro n userId
    simp only [servicesFailing]
    split <;> simp
  have hparse : (plainApp.worker (servicesFailing [0])).parse last.record = .ok award := by
    rw [hlast]
    decide +kernel
  have hkinds : (awardRun [0]).map (fun d =>
      (((calledFor plainApp (servicesFailing [0]) award d).map effect).map Effect.kind,
        (gotTo plainApp (servicesFailing [0]) award d).length)) =
      [([0, 1, 2, 3], 0), ([0, 1, 2, 3], 4)] := by decide +kernel
  rw [hrun] at hkinds
  obtain ⟨hgot, hcalled⟩ := List.cons.inj hkinds
  have hnil : gotTo plainApp (servicesFailing [0]) award first = [] :=
    List.length_eq_zero_iff.mp (Prod.mk.inj hgot).2
  have hnodup : ((calledFor plainApp (servicesFailing [0]) award last).map effect).Nodup := by
    refine List.Nodup.of_map Effect.kind ?_
    rw [(Prod.mk.inj (List.cons.inj hcalled).1).1]
    decide
  refine ⟨last, by rw [hrun]; rfl, ?_⟩
  have hsplit : awardRun [0] = [first] ++ last :: [] := hrun
  have hiff := exactlyOnce_iff (servicesFailing_wellFormed [0]) hmounted
    (pure none : Py Unit (Option (EventsRepo Unit))) hsplit hacked (by simp) hparse
  rw [hlast] at hiff
  rw [hrun]
  refine hiff.mpr ⟨hnodup, ?_⟩
  intro d' hd' _ step hstep
  rw [List.mem_singleton.mp hd', hnil] at hstep
  cases hstep

/-- The weekly add fails at the first delivery, after the credit: the message ends
acknowledged with the credit applied twice. -/
theorem exactlyOnce_redelivered :
    ∃ last, (awardRun [1]).getLast? = some last ∧ last.acked = true ∧
      ¬ ExactlyOnce (calledFor plainApp (servicesFailing [1]) award last)
        ((awardRun [1]).filter (·.record = awardRecord)) := by
  obtain ⟨first, last, hrun, hfirst, hlast, hacked⟩ := awardRun_pair [1] (by decide +kernel)
  refine ⟨last, by rw [hrun]; rfl, hacked, ?_⟩
  intro h
  have hcalled : (awardRun [1]).map (fun d =>
      ((calledFor plainApp (servicesFailing [1]) award d).map effect).map Effect.kind) =
      [[0, 1, 2, 3], [0, 1, 2, 3]] := by decide +kernel
  have htotal : (((((awardRun [1]).filter (·.record = awardRecord)).flatMap applied).map
      effect).map Effect.kind) = [0, 0, 1, 2, 3] := by decide +kernel
  rw [hrun] at hcalled
  have hlastKinds : ((calledFor plainApp (servicesFailing [1]) award last).map effect).map
      Effect.kind = [0, 1, 2, 3] := (List.cons.inj (List.cons.inj hcalled).2).1
  have hmem : (0 : Nat) ∈ ((calledFor plainApp (servicesFailing [1]) award last).map effect).map
      Effect.kind := by
    rw [hlastKinds]
    decide
  obtain ⟨e, he, hkind⟩ := List.mem_map.mp hmem
  obtain rfl := Effect.eq_credit hkind
  have hone := once_credit (h _ he)
  rw [htotal] at hone
  cases hone

end LingoAsync.Handlers
