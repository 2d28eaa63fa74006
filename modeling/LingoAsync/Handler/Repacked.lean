import LingoAsync.Contracts.Accepted
import LingoAsync.Handler.LogVerdicts

/-!
# The form a message travels in

A message may be published bare, wrapped by kombu, or wrapped and encoded once more; a replay sends
the body it finds. `Repacks` says that a record carries the event of another in some wire form of
it. `run_repacked`: over any schedule, with any event log, the worker reports the same of both and
the process ends in the same state. It knows a record by its id and by what `parse_event` makes of
its body, and of nothing else.
-/

namespace LingoAsync.Handler

open LingoAsync.Text LingoAsync.Contracts LingoAsync.Db LingoAsync.Machine

variable {σ F D L : Type} [PyFloat F] {w : Worker σ F D}

/-- The same record; or, if it carries an event, one of the same id that carries the event in a wire
form of some JSON text of it. -/
inductive Repacks (w : Worker σ F D) (record : SqsRecord) : SqsRecord → Prop where
  | kept : Repacks w record record
  | form {again : SqsRecord} {event : EventMessage F D} {e : PyStr} :
    w.parse record = .ok event → again.id = record.id → IsJsonText w.pydantic event e →
      WireForm F w.rt e again.text → Repacks w record again

variable {record again : SqsRecord}

theorem Repacks.id (h : Repacks w record again) : again.id = record.id := by
  cases h with
  | kept => rfl
  | form _ hid _ _ => exact hid

theorem Repacks.parse [Json.LawfulPyFloat F] (law : LawfulPydantic w.pydantic)
    (hp : ReadsUnicode w.pydantic) (h : Repacks w record again) :
    w.parse again = w.parse record := by
  cases h with
  | kept => rfl
  | form hparse _ he hform =>
    rw [hparse]
    exact parseEvent_again law hp hparse he hform

/-- A record is known by its id and its event. -/
theorem handleRecord_congr (hid : again.id = record.id) (hparse : w.parse again = w.parse record)
    (s : σ) : w.handleRecord none again s = w.handleRecord none record s := by
  rw [handleRecord_none, handleRecord_none, hparse, hid]

section Runs

variable [Json.LawfulPyFloat F]

theorem handleRecords_repacked (law : LawfulPydantic w.pydantic) (hp : ReadsUnicode w.pydantic)
    {batch batch' : List SqsRecord} (h : List.Forall₂ (Repacks w) batch batch') (s : σ) :
    w.handleRecords none batch' s = w.handleRecords none batch s := by
  induction h generalizing s with
  | nil => rfl
  | @cons record again _ _ hrecord _ ih =>
    have hsame := handleRecord_congr hrecord.id (hrecord.parse law hp) s
    cases hrec : w.handleRecord none record s with
    | mk r s1 =>
      rw [hrec] at hsame
      cases r with
      | ok verdict => rw [handleRecords_settled hrec, handleRecords_settled hsame, ih]
      | error exc => rw [handleRecords_ended hrec, handleRecords_ended hsame]

/-- **The form makes no difference.** Two schedules, the second with some records repacked, over any
two states of an event log that opens: the worker reports the same in every invocation, and the
process ends in the same state. -/
theorem run_repacked (law : LawfulPydantic w.pydantic) (hp : ReadsUnicode w.pydantic)
    (repo : Option (EventsRepo L)) {schedule schedule' : List (List SqsRecord)}
    (h : List.Forall₂ (List.Forall₂ (Repacks w)) schedule schedule') (s : σ) (l l' : L) :
    (w.withLog (pure repo)).reports schedule' (s, l') =
        (w.withLog (pure repo)).reports schedule (s, l) ∧
      (run (w.withLog (pure repo)).invoke (s, l') schedule').1 =
        (run (w.withLog (pure repo)).invoke (s, l) schedule).1 := by
  induction h generalizing s l l' with
  | nil => exact ⟨rfl, rfl⟩
  | @cons batch batch' _ _ hbatch _ ih =>
    have hopen : ∀ (l : L) batch, ∃ l1, (w.withLog (pure repo)).lambdaHandler batch (s, l) =
        ((w.handleRecords none batch s).1, ((w.handleRecords none batch s).2, l1)) :=
      fun l batch => lambdaHandler_opened
        (rfl : (pure repo : Py L (Option (EventsRepo L))) l = (.ok repo, l)) batch s
    obtain ⟨l1, hrun⟩ := hopen l batch
    obtain ⟨l2, hrun'⟩ := hopen l' batch'
    rw [handleRecords_repacked law hp hbatch] at hrun'
    obtain ⟨hreports, hend⟩ := ih (w.handleRecords none batch s).2 l1 l2
    rw [Worker.reports, Worker.reports, run_cons, run_cons, Worker.invoke, Worker.invoke, hrun,
      hrun', hreports]
    exact ⟨rfl, hend⟩

end Runs

/-! ## A lesson that is wrapped twice -/

theorem strictPydantic_readsUnicode : ReadsUnicode strictPydantic := by
  intro mode j s h
  cases j with
  | str t =>
    by_cases ht : IsUnicode t
    · have hread : strictPydantic.toStr mode (.str t) = .ok t := if_pos ht
      rw [← Except.ok.inj (hread.symm.trans h)]
      exact ht
    · have hread : strictPydantic.toStr mode (.str t) = .error (py "string_unicode") := if_neg ht
      cases hread.symm.trans h
  | _ => cases h

/-- The lesson's text as it is, -/
def bareLesson : SqsRecord := ⟨some (py "m1"), some perfectLessonText⟩

/-- and in base64 of its envelope. -/
def wrappedLesson : SqsRecord := ⟨some (py "m1"), some perfectLessonBody⟩

theorem run_repacked_lesson :
    (idleWorker.withLog (pure (some SqliteLog.repo))).reports [[wrappedLesson]] ((), .empty) =
      (idleWorker.withLog (pure (some SqliteLog.repo))).reports [[bareLesson]] ((), .empty) := by
  have htext : bareLesson.text = perfectLessonText := by decide +kernel
  have hbody : wrappedLesson.text = perfectLessonBody := by decide +kernel
  have hparse : idleWorker.parse bareLesson = .ok perfectLesson := by
    show parseEvent plainRuntime strictPydantic (.str bareLesson.text) = _
    obtain ⟨o, kvs, hobj, hfits, hdumps⟩ := perfectLesson_isJsonText.exists_dumps
    rw [htext, ← hdumps]
    exact parseEvent_dumps strictPydantic_lawful perfectLesson_isUnicode hobj hfits .raw
  have hform : WireForm Score plainRuntime perfectLessonText wrappedLesson.text := by
    rw [hbody]
    exact .base64 perfectLesson_isEnvelopeText perfectLesson_encoded
  have hid : wrappedLesson.id = bareLesson.id := by decide +kernel
  have hrepacks : Repacks idleWorker bareLesson wrappedLesson :=
    .form hparse hid perfectLesson_isJsonText hform
  exact (run_repacked (w := idleWorker) strictPydantic_lawful strictPydantic_readsUnicode
    (some SqliteLog.repo) (.cons (.cons hrepacks .nil) .nil) () .empty .empty).1

end LingoAsync.Handler
