import LingoAsync.Handler.Deliveries
import LingoAsync.Handler.Isolation

/-!
# What the event log influences

"A write failure must NEVER fail the batch": the writes of the log are guarded,
and two runs of a batch that differ in nothing but their event logs dispatch the
same events and report the same records, whatever `save` and `update_status` do
(`handleRecords_withLog`). What is not guarded is getting the repository, which for
SQLite opens the file and runs the schema. If that raises, nothing is dispatched
and nothing returned.

So two logs make no difference exactly when both can be opened or neither can, or
when the batch itself ends before it has dispatched anything
(`uninfluenced_iff`).
-/

namespace LingoAsync.Handler

open LingoAsync.Text LingoAsync.Contracts LingoAsync.Db

variable {σ L L₁ L₂ F D : Type} [PyFloat F]

/-- What is seen of an invocation: the `batchItemFailures` it returns, if it returns, and
the events its handlers were called on, in order. -/
def observed (w : Worker σ F D) (openLog : Py L (Option (EventsRepo L))) (l : L)
    (records : List SqsRecord) (s : σ) : Option (List PyStr) × List (EventMessage F D) :=
  let ran := (w.logged.withLog openLog).lambdaHandler records ((s, []), l)
  (ran.1.toOption, ran.2.1.2.map (·.event))

/-- The log can be opened. -/
def Opens (openLog : Py L (Option (EventsRepo L))) (l : L) : Prop :=
  ∃ repo l', openLog l = (.ok repo, l')

/-- The batch ends in an exception of `parse_event` before any record is dispatched:
the records before are no valid events. -/
def EndsUndispatched (w : Worker σ F D) : List SqsRecord → Prop
  | [] => False
  | record :: records =>
    match w.parse record with
    | .error (.ValidationError _) => EndsUndispatched w records
    | .error _ => True
    | .ok _ => False

/-! ## The batch without a log -/

/-- A record that decodes adds its dispatch to those before; no other record adds one. -/
theorem handleRecord_logged (w : Worker σ F D) (record : SqsRecord) (s : σ)
    (log : List (Dispatched F D)) :
    match w.parse record with
    | .ok parsed => ∃ verdict s' raised, w.logged.handleRecord none record (s, log) =
        (.ok verdict, (s', log ++ [⟨parsed, raised⟩]))
    | .error (.ValidationError _) => w.logged.handleRecord none record (s, log) =
        (.ok (some record.id), (w.tick s, log))
    | .error exc => w.logged.handleRecord none record (s, log) = (.error exc, (w.tick s, log)) := by
  rw [handleRecord_none, parse_logged]
  cases w.parse record with
  | error exc => cases exc <;> rfl
  | ok parsed =>
    have hlogged : dispatch w.logged.handlers parsed =
        logDispatch parsed (dispatch w.handlers parsed) := dispatch_map logDispatch _ _
    dsimp only
    rw [hlogged]
    exact ⟨_, _, _, rfl⟩

/-- A batch only ever adds to the dispatches before it. -/
theorem handleRecords_logged (w : Worker σ F D) (records : List SqsRecord) (s : σ)
    (log : List (Dispatched F D)) :
    ∃ new, (w.logged.handleRecords none records (s, log)).2.2 = log ++ new := by
  refine handleRecords_inv (P := fun t : σ × List (Dispatched F D) => ∃ new, t.2 = log ++ new) ?_
    ⟨[], (List.append_nil log).symm⟩
  intro record t ht
  obtain ⟨s, _⟩ := t
  obtain ⟨new, rfl⟩ := ht
  have hrec := handleRecord_logged w record s (log ++ new)
  split at hrec
  · obtain ⟨verdict, s', raised, hrec⟩ := hrec
    exact ⟨new ++ [_], by rw [hrec, List.append_assoc]⟩
  · exact ⟨new, by rw [hrec]⟩
  · exact ⟨new, by rw [hrec]⟩

/-- **A batch raises without having dispatched** exactly when it ends undispatched. -/
theorem endsUndispatched_iff (w : Worker σ F D) (records : List SqsRecord) (s : σ) :
    EndsUndispatched w records ↔
      (w.logged.handleRecords none records (s, [])).1.toOption = none ∧
        (w.logged.handleRecords none records (s, [])).2.2 = [] := by
  induction records generalizing s with
  | nil => exact iff_of_false id fun h => nomatch h.1
  | cons record records ih =>
    have hrec := handleRecord_logged w record s []
    rw [EndsUndispatched]
    split at hrec
    · -- dispatched: its entry stays
      rename_i parsed hparse
      obtain ⟨verdict, s', raised, hrec⟩ := hrec
      obtain ⟨new, hnew⟩ := handleRecords_logged w records s' ([] ++ [⟨parsed, raised⟩])
      rw [hparse, handleRecords_settled hrec]
      refine iff_of_false id ?_
      intro h
      rw [hnew] at h
      cases h.2
    · -- rejected: the others decide
      rename_i errors hparse
      rw [hparse, handleRecords_settled hrec]
      refine (ih (w.tick s)).trans (and_congr_left' ?_)
      cases (w.logged.handleRecords none records (w.tick s, [])).1 with
      | ok failures => exact iff_of_false (fun h => nomatch h) (fun h => nomatch h)
      | error exc => exact Iff.rfl
    · rename_i exc hno hparse
      rw [hparse, handleRecords_ended hrec]
      refine iff_of_true ?_ ⟨rfl, rfl⟩
      cases exc with
      | ValidationError errors => exact absurd rfl (hno errors)
      | _ => trivial

/-! ## Two logs -/

/-- What is seen when the log opens is what is seen without one. -/
theorem observed_opens (w : Worker σ F D) {openLog : Py L (Option (EventsRepo L))} {l : L}
    (h : Opens openLog l) (records : List SqsRecord) (s : σ) :
    observed w openLog l records s = ((w.logged.handleRecords none records (s, [])).1.toOption,
      (w.logged.handleRecords none records (s, [])).2.2.map (·.event)) := by
  obtain ⟨repo, l1, hopen⟩ := h
  obtain ⟨l', hrun⟩ := lambdaHandler_opened (w := w.logged) hopen records (s, [])
  rw [observed, hrun]

/-- When the log does not open, nothing is seen. -/
theorem observed_raises (w : Worker σ F D) {openLog : Py L (Option (EventsRepo L))} {l : L}
    (h : ¬ Opens openLog l) (records : List SqsRecord) (s : σ) :
    observed w openLog l records s = (none, []) := by
  cases hopen : openLog l with
  | mk r l1 =>
    cases r with
    | ok repo => exact absurd ⟨repo, l1, hopen⟩ h
    | error exc =>
      rw [observed, lambdaHandler_unopened hopen]
      rfl

/-- **When the event log makes no difference**: two logs show the same failures and the same
calls of the handlers exactly if both open or neither does, or the batch ends
undispatched. -/
theorem uninfluenced_iff (w : Worker σ F D) (records : List SqsRecord) (s : σ)
    (openLog₁ : Py L₁ (Option (EventsRepo L₁))) (l₁ : L₁)
    (openLog₂ : Py L₂ (Option (EventsRepo L₂))) (l₂ : L₂) :
    observed w openLog₁ l₁ records s = observed w openLog₂ l₂ records s ↔
      (Opens openLog₁ l₁ ↔ Opens openLog₂ l₂) ∨ EndsUndispatched w records := by
  have hends : EndsUndispatched w records ↔
      ((w.logged.handleRecords none records (s, [])).1.toOption,
        (w.logged.handleRecords none records (s, [])).2.2.map (·.event)) = (none, []) := by
    rw [endsUndispatched_iff w records s, Prod.mk.injEq, List.map_eq_nil_iff]
  by_cases h₁ : Opens openLog₁ l₁
  · by_cases h₂ : Opens openLog₂ l₂
    · rw [observed_opens w h₁, observed_opens w h₂]
      exact iff_of_true rfl (.inl (iff_of_true h₁ h₂))
    · rw [observed_opens w h₁, observed_raises w h₂, ← hends]
      exact ⟨.inr, fun h => h.resolve_left fun hiff => h₂ (hiff.mp h₁)⟩
  · by_cases h₂ : Opens openLog₂ l₂
    · rw [observed_raises w h₁, observed_opens w h₂, eq_comm, ← hends]
      exact ⟨.inr, fun h => h.resolve_left fun hiff => h₁ (hiff.mpr h₂)⟩
    · rw [observed_raises w h₁, observed_raises w h₂]
      exact iff_of_true rfl (.inl (iff_of_false h₁ h₂))

/-! ## A log that does not open -/

/-- A log whose file cannot be opened. -/
def lockedLog : Py Unit (Option (EventsRepo Unit)) :=
  Action.raise (.other (py "OperationalError"))

/-- A good record is dispatched and not reported without a log; with one that cannot be opened it
is not dispatched, and the invocation raises. -/
theorem lockedLog_influences :
    observed idleWorker (pure none : Py Unit (Option (EventsRepo Unit))) () [friendRecord] () ≠
      observed idleWorker lockedLog () [friendRecord] () := by
  intro h
  have hreturns : (observed idleWorker (pure none : Py Unit (Option (EventsRepo Unit))) ()
      [friendRecord] ()).1 = some [] := by decide +kernel
  rw [h] at hreturns
  cases hreturns

end LingoAsync.Handler
