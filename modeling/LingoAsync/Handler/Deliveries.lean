import LingoAsync.Handler.EventLog

/-!
# Deliveries

SQS hands the worker batches of records, and a record again until an invocation
leaves it out of `batchItemFailures`. A run is the list of the deliveries of a
schedule of batches (`Worker.deliveries`); a delivery is one turn of the loop,
with the states around it.

`mem_deliveries` says what a delivery is, whatever the event log does, and
carries an invariant of the process along the run.
-/

namespace LingoAsync.Handler

open LingoAsync.Text LingoAsync.Db

variable {σ L F D : Type} [PyFloat F]

/-! ## Deliveries -/

/-- One turn of the loop: the record, the states around it, and whether the
invocation left the record out of its failures. -/
structure Delivery (σ : Type) where
  record : SqsRecord
  before : σ
  after : σ
  acked : Bool

/-- The turns of the loop, up to the one that ends the invocation, if any. -/
def Worker.turns (w : Worker σ F D) (repo : Option (EventsRepo σ)) :
    List SqsRecord → σ → List (SqsRecord × σ × σ)
  | [], _ => []
  | record :: records, s =>
    match w.handleRecord repo record s with
    | (.ok _, s') => (record, s, s') :: turns w repo records s'
    | (.error _, s') => [(record, s, s')]

/-- Is the record deleted from the queue after an invocation that ended with
`result`? -/
def deleted (result : Except PyExc (List PyStr)) (record : SqsRecord) : Bool :=
  match result with
  | .ok failures => decide (record.id ∉ failures)
  | .error _ => false

/-- The deliveries of one invocation. -/
def Worker.invocation (w : Worker σ F D) (batch : List SqsRecord) (s : σ) : List (Delivery σ) :=
  match w.getEventsRepo s with
  | (.error _, _) => []
  | (.ok repo, s1) =>
    (w.turns repo batch s1).map fun t =>
      ⟨t.1, t.2.1, t.2.2, deleted (w.lambdaHandler batch s).1 t.1⟩

/-- The deliveries of a schedule, one invocation after the other. -/
def Worker.deliveries (w : Worker σ F D) : List (List SqsRecord) → σ → List (Delivery σ)
  | [], _ => []
  | batch :: schedule, s =>
    w.invocation batch s ++ deliveries w schedule (w.lambdaHandler batch s).2

/-- A turn is a run of `handleRecord`; if the invocation returned and did not report
the record, the turn did not ask to. -/
theorem mem_turns {w : Worker σ F D} {repo : Option (EventsRepo σ)} {records : List SqsRecord}
    {s : σ} {t : SqsRecord × σ × σ} (h : t ∈ w.turns repo records s) :
    ∃ r, w.handleRecord repo t.1 t.2.1 = (r, t.2.2) ∧
      ∀ failures s', w.handleRecords repo records s = (.ok failures, s') →
        t.1.id ∉ failures → ∃ verdict, r = .ok verdict ∧ verdict ≠ some t.1.id := by
  induction records generalizing s with
  | nil => cases h
  | cons record records ih =>
    rw [Worker.turns] at h
    cases hrec : w.handleRecord repo record s with
    | mk r s1 =>
      rw [hrec] at h
      cases r with
      | error exc =>
        -- the turn that ends the invocation: there are no failures to be left out of
        obtain rfl := List.mem_singleton.mp h
        refine ⟨.error exc, hrec, ?_⟩
        intro failures s' hrun
        rw [Worker.handleRecords, Action.bind_error hrec] at hrun
        cases hrun
      | ok verdict =>
        have hrest : ∀ failures s', w.handleRecords repo (record :: records) s =
            (.ok failures, s') → ∃ rest, w.handleRecords repo records s1 = (.ok rest, s') ∧
              failures = verdict.toList ++ rest := by
          intro failures s' hrun
          rw [Worker.handleRecords, Action.bind_ok hrec] at hrun
          obtain ⟨rest, s2, hrest, h2⟩ := Action.bind_eq_ok hrun
          obtain ⟨hf, hs⟩ := Prod.mk.inj h2
          exact ⟨rest, hs ▸ hrest, (Except.ok.inj hf).symm⟩
        rcases List.mem_cons.mp h with rfl | h
        · refine ⟨.ok verdict, hrec, fun failures s' hrun hno => ⟨verdict, rfl, ?_⟩⟩
          obtain ⟨rest, -, rfl⟩ := hrest failures s' hrun
          intro heq
          subst heq
          exact hno (by simp)
        · obtain ⟨r', hr', hmem⟩ := ih h
          refine ⟨r', hr', ?_⟩
          intro failures s' hrun hno
          obtain ⟨rest, hrun', rfl⟩ := hrest failures s' hrun
          exact hmem rest s' hrun' fun hin => hno (List.mem_append_right _ hin)

/-- A loop that returned had a turn for every record. -/
theorem turns_records {w : Worker σ F D} {repo : Option (EventsRepo σ)} {records : List SqsRecord}
    {s s' : σ} {failures : List PyStr}
    (h : w.handleRecords repo records s = (.ok failures, s')) :
    (w.turns repo records s).map (·.1) = records := by
  induction records generalizing s failures with
  | nil => rfl
  | cons record records ih =>
    rw [Worker.turns]
    cases hrec : w.handleRecord repo record s with
    | mk r s1 =>
      cases r with
      | error exc =>
        rw [handleRecords_ended hrec] at h
        cases h
      | ok verdict =>
        rw [Worker.handleRecords, Action.bind_ok hrec] at h
        obtain ⟨rest, s2, hrest, h2⟩ := Action.bind_eq_ok h
        obtain rfl : s2 = s' := (Prod.mk.inj h2).2
        exact congrArg (record :: ·) (ih hrest)

/-- A record that is deleted had a turn, and was acknowledged. -/
theorem mem_invocation_of_deleted {w : Worker σ F D} {batch : List SqsRecord} {s : σ}
    {record : SqsRecord} (hmem : record ∈ batch)
    (h : deleted (w.lambdaHandler batch s).1 record = true) :
    ∃ d ∈ w.invocation batch s, d.record = record ∧ d.acked = true := by
  cases hopen : w.getEventsRepo s with
  | mk r s1 =>
    cases r with
    | error exc =>
      have hrun : w.lambdaHandler batch s = (.error exc, s1) := Action.bind_error hopen _
      rw [hrun] at h
      cases h
    | ok repo =>
      have hrun : w.lambdaHandler batch s = w.handleRecords repo batch s1 := Action.bind_ok hopen _
      cases hend : w.handleRecords repo batch s1 with
      | mk result s2 =>
        cases result with
        | error exc =>
          rw [hrun, hend] at h
          cases h
        | ok failures =>
          have hrecords := turns_records hend
          rw [← hrecords] at hmem
          obtain ⟨t, ht, rfl⟩ := List.mem_map.mp hmem
          refine ⟨⟨t.1, t.2.1, t.2.2, deleted (w.lambdaHandler batch s).1 t.1⟩, ?_, rfl, h⟩
          rw [Worker.invocation, hopen]
          exact List.mem_map.mpr ⟨t, ht, rfl⟩

/-! ## Deliveries as a run of the process -/

/-- The deliveries follow one another from `s`: each starts where the process was left,
and takes `step`. The last leaves it in `s'`. -/
def Follow (step : σ → SqsRecord → σ) : σ → List (Delivery (σ × L)) → σ → Prop
  | s, [], s' => s = s'
  | s, d :: ds, s' =>
    d.before.1 = s ∧ d.after.1 = step s d.record ∧ Follow step (step s d.record) ds s'

theorem follow_append {step : σ → SqsRecord → σ} {s s1 s' : σ} {ds es : List (Delivery (σ × L))}
    (hds : Follow step s ds s1) (hes : Follow step s1 es s') : Follow step s (ds ++ es) s' := by
  induction ds generalizing s with
  | nil =>
    obtain rfl := hds
    exact hes
  | cons d ds ih => exact ⟨hds.1, hds.2.1, ih hds.2.2⟩

/-- If a step keeps `P` exactly under `Q`, the process has `P` around every
delivery exactly when every delivery meets `Q`. -/
theorem follow_inv_iff {step : σ → SqsRecord → σ} {P : σ → Prop}
    {Q : σ → SqsRecord → Prop}
    (hstep : ∀ s record, P s → (P (step s record) ↔ Q s record)) {s s' : σ}
    {ds : List (Delivery (σ × L))} (hs : P s) (h : Follow step s ds s') :
    (∀ d ∈ ds, P d.before.1 ∧ P d.after.1) ↔ ∀ d ∈ ds, Q d.before.1 d.record := by
  induction ds generalizing s with
  | nil => exact iff_of_true (List.forall_mem_nil _) (List.forall_mem_nil _)
  | cons d ds ih =>
    obtain ⟨hbefore, hafter, hrest⟩ := h
    rw [List.forall_mem_cons, List.forall_mem_cons, hbefore, hafter]
    constructor
    · intro hall
      exact ⟨(hstep s d.record hs).mp hall.1.2, (ih hall.1.2 hrest).mp hall.2⟩
    · intro hall
      have hnext := (hstep s d.record hs).mpr hall.1
      exact ⟨⟨hs, hnext⟩, (ih hnext hrest).mpr hall.2⟩

/-- What a delivered record makes of the process, whatever the event log does. -/
def Worker.recordStep (w : Worker σ F D) (s : σ) (record : SqsRecord) : σ :=
  (w.handleRecord none record s).2

/-- The turns of an invocation follow one another. -/
theorem turns_follow (w : Worker σ F D) (openLog : Py L (Option (EventsRepo L)))
    (repo : Option (EventsRepo L)) (acked : SqsRecord → Bool) (records : List SqsRecord)
    (s : σ) (l : L) :
    Follow w.recordStep s
      (((w.withLog openLog).turns (repo.map onLog) records (s, l)).map fun t =>
        (⟨t.1, t.2.1, t.2.2, acked t.1⟩ : Delivery (σ × L)))
      (w.handleRecords none records s).2 := by
  induction records generalizing s l with
  | nil => rfl
  | cons record records ih =>
    obtain ⟨l1, hrec⟩ := handleRecord_withLog w openLog repo record s l
    rw [Worker.turns]
    cases h : w.handleRecord none record s with
    | mk r s1 =>
      rw [h] at hrec
      rw [hrec]
      have hstep : w.recordStep s record = s1 := by rw [Worker.recordStep, h]
      cases r with
      | error exc =>
        rw [handleRecords_ended h]
        exact ⟨rfl, hstep.symm, hstep⟩
      | ok verdict =>
        rw [handleRecords_settled h]
        exact ⟨rfl, hstep.symm, hstep ▸ ih s1 l1⟩

/-- **A run's deliveries follow one another**, with any event log. -/
theorem deliveries_follow (w : Worker σ F D) (openLog : Py L (Option (EventsRepo L)))
    (schedule : List (List SqsRecord)) (s : σ) (l : L) :
    ∃ s', Follow w.recordStep s ((w.withLog openLog).deliveries schedule (s, l)) s' := by
  induction schedule generalizing s l with
  | nil => exact ⟨s, rfl⟩
  | cons batch schedule ih =>
    rw [Worker.deliveries, Worker.invocation]
    cases ho : openLog l with
    | mk r l1 =>
      cases r with
      | error exc =>
        -- the log did not open: nothing was delivered, and the process is as it was
        rw [getEventsRepo_unopened ho, lambdaHandler_unopened ho]
        exact ih s l1
      | ok repo =>
        obtain ⟨l', hinvoke⟩ := lambdaHandler_opened (w := w) ho batch s
        obtain ⟨s', hrest⟩ := ih (w.handleRecords none batch s).2 l'
        rw [getEventsRepo_opened ho, hinvoke]
        exact ⟨s', follow_append (turns_follow w openLog repo _ batch s l1) hrest⟩

/-! ## What a delivery is -/

/-- Whatever a step preserves holds where each delivery starts. -/
theorem follow_inv {step : σ → SqsRecord → σ} {P : σ → Prop}
    (hP : ∀ s record, P s → P (step s record)) {s s' : σ} {ds : List (Delivery (σ × L))}
    (hs : P s) (h : Follow step s ds s') :
    ∀ d ∈ ds, P d.before.1 ∧ d.after.1 = step d.before.1 d.record := by
  induction ds generalizing s with
  | nil => exact List.forall_mem_nil _
  | cons d ds ih =>
    obtain ⟨rfl, hafter, hrest⟩ := h
    rw [List.forall_mem_cons]
    exact ⟨⟨hs, hafter⟩, ih (hP _ _ hs) hrest⟩

/-- A delivery that is acknowledged did not ask to be reported. -/
theorem deliveries_acked (w : Worker σ F D) (openLog : Py L (Option (EventsRepo L)))
    (schedule : List (List SqsRecord)) (s : σ) (l : L) :
    ∀ d ∈ (w.withLog openLog).deliveries schedule (s, l),
      d.acked = true → (w.handleRecord none d.record d.before.1).1 = .ok none := by
  induction schedule generalizing s l with
  | nil => exact List.forall_mem_nil _
  | cons batch schedule ih =>
    intro d h hacked
    rw [Worker.deliveries] at h
    rcases List.mem_append.mp h with h | h
    · rw [Worker.invocation] at h
      cases ho : openLog l with
      | mk r l1 =>
        cases r with
        | error exc =>
          rw [getEventsRepo_unopened ho] at h
          cases h
        | ok repo =>
          rw [getEventsRepo_opened ho] at h
          obtain ⟨t, ht, rfl⟩ := List.mem_map.mp h
          obtain ⟨r, hrec, hack⟩ := mem_turns ht
          obtain ⟨l2, hplain⟩ := handleRecord_withLog w openLog repo t.1 t.2.1.1 t.2.1.2
          have hresult : r = (w.handleRecord none t.1 t.2.1.1).1 :=
            congrArg (·.1) (hrec.symm.trans hplain)
          have hrun : (w.withLog openLog).lambdaHandler batch (s, l) =
              (w.withLog openLog).handleRecords (repo.map onLog) batch (s, l1) :=
            Action.bind_ok (getEventsRepo_opened ho s) _
          dsimp only at hacked
          rw [hrun] at hacked
          -- the invocation returned without the record's id among its failures
          cases hend : (w.withLog openLog).handleRecords (repo.map onLog) batch (s, l1) with
          | mk result s2 =>
            rw [hend] at hacked
            cases result with
            | error exc => cases hacked
            | ok failures =>
              obtain ⟨verdict, rfl, hverdict⟩ := hack failures s2 hend (of_decide_eq_true hacked)
              have hplain : w.handleRecord none t.1 t.2.1.1 =
                  (.ok verdict, (w.handleRecord none t.1 t.2.1.1).2) := Prod.ext hresult.symm rfl
              rcases handleRecord_verdict hplain with rfl | rfl
              · exact hresult.symm
              · exact absurd rfl hverdict
    · exact ih _ _ d h hacked

/-- **A delivery** of a run with any event log: it starts where the invariant `P`
holds, does what `handleRecord` does without a log, and if it is acknowledged, its
turn did not ask to report the record. -/
theorem mem_deliveries (w : Worker σ F D) (openLog : Py L (Option (EventsRepo L))) (P : σ → Prop)
    (hP : ∀ record s, P s → P (w.handleRecord none record s).2)
    {schedule : List (List SqsRecord)} {s : σ} {l : L} (hs : P s) :
    ∀ d ∈ (w.withLog openLog).deliveries schedule (s, l),
      P d.before.1 ∧ (w.handleRecord none d.record d.before.1).2 = d.after.1 ∧
      (d.acked = true → (w.handleRecord none d.record d.before.1).1 = .ok none) := by
  intro d hd
  obtain ⟨s', hfollow⟩ := deliveries_follow w openLog schedule s l
  obtain ⟨hbefore, hafter⟩ := follow_inv (fun s record => hP record s) hs hfollow d hd
  exact ⟨hbefore, hafter.symm, deliveries_acked w openLog schedule s l d hd⟩

end LingoAsync.Handler
