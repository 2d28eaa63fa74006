import LingoAsync.Handler.LogVerdicts
import LingoAsync.Program

/-!
# Two workers side by side

The dispatch loop over two kinds of process. If the clocks and the handlers of two workers agree
where their states are related (`SideBySide`), so do their turns of the loop, their batches and
their runs (`run_simulates`): from related states, every invocation of a schedule reports the same
records, and the states stay related. As in `Action.Simulates`, the relation may rest on a
condition on the state the whole run ends in.
-/

namespace LingoAsync.Handler

open LingoAsync.Text LingoAsync.Contracts LingoAsync.Machine LingoAsync.Action

variable {σ τ F D : Type} [PyFloat F] {Good : σ → Prop} {R : σ → τ → Prop}

/-- Neither worker has an event log, they parse alike, and where `Good` holds at the end their
clocks and handlers agree on related states. -/
structure SideBySide (Good : σ → Prop) (R : σ → τ → Prop) (w : Worker σ F D) (w' : Worker τ F D) :
    Prop where
  parse : ∀ record, w.parse record = w'.parse record
  utcNow : Simulates Good R w.utcNow w'.utcNow
  dispatch : ∀ event, Simulates Good R (dispatch w.handlers event) (dispatch w'.handlers event)
  unlogged : w.getEventsRepo = pure none
  unlogged' : w'.getEventsRepo = pure none

namespace SideBySide

variable {w : Worker σ F D} {w' : Worker τ F D}

/-- A turn of the loop. -/
theorem handleRecord (h : SideBySide Good R w w') (record : SqsRecord) :
    Simulates Good R (w.handleRecord none record) (w'.handleRecord none record) := by
  unfold Worker.handleRecord
  refine h.utcNow.bind fun receivedAt => h.utcNow.bind fun ttlFrom => ?_
  rw [h.parse]
  cases w'.parse record with
  | error exc =>
    cases exc with
    | ValidationError errors => exact simulates_pure (some record.id)
    | _ => exact simulates_raise _
  | ok parsed =>
    refine (simulates_pure ()).bind fun _ => (h.dispatch parsed).attempt.bind fun r => ?_
    cases r with
    | ok outcomes => exact simulates_pure none
    | error exc => exact simulates_pure (some record.id)

/-- The loop. -/
theorem handleRecords (h : SideBySide Good R w w') (records : List SqsRecord) :
    Simulates Good R (w.handleRecords none records) (w'.handleRecords none records) := by
  induction records with
  | nil => exact simulates_pure []
  | cons record records ih =>
    exact (h.handleRecord record).bind fun verdict => ih.bind fun failures => simulates_pure _

/-- An invocation. -/
theorem lambdaHandler (h : SideBySide Good R w w') (records : List SqsRecord) :
    Simulates Good R (w.lambdaHandler records) (w'.lambdaHandler records) := by
  unfold Worker.lambdaHandler
  rw [h.unlogged, h.unlogged']
  exact h.handleRecords records

/-- What a run ends in hands `Good` back to where it started. -/
theorem run_back (h : SideBySide Good R w w') (schedule : List (List SqsRecord)) {s : σ}
    (hgood : Good (run w.invoke s schedule)) : Good s := by
  induction schedule generalizing s with
  | nil => exact hgood
  | cons batch schedule ih => exact (h.lambdaHandler batch).back s (ih hgood)

end SideBySide

/-- **Runs side by side**: from related states, and with `Good` at the end of the schedule, every
invocation reports the same and the states stay related. -/
theorem run_simulates {w : Worker σ F D} {w' : Worker τ F D} (h : SideBySide Good R w w')
    (schedule : List (List SqsRecord)) {s : σ} {t : τ} (hR : R s t)
    (hgood : Good (run w.invoke s schedule)) :
    R (run w.invoke s schedule) (run w'.invoke t schedule) ∧
      ∀ pre batch, pre ++ [batch] <+: schedule →
        (w.lambdaHandler batch (run w.invoke s pre)).1 =
          (w'.lambdaHandler batch (run w'.invoke t pre)).1 := by
  induction schedule generalizing s t with
  | nil =>
    refine ⟨hR, ?_⟩
    intro pre batch hpre
    have hlen := hpre.length_le
    rw [List.length_append, List.length_singleton, List.length_nil] at hlen
    omega
  | cons first schedule ih =>
    have hmid : Good (w.invoke s first) := h.run_back schedule hgood
    obtain ⟨hres, hR1⟩ := (h.lambdaHandler first).agrees s t hmid hR
    obtain ⟨hend, hall⟩ := ih (s := w.invoke s first) (t := w'.invoke t first) hR1 hgood
    refine ⟨hend, ?_⟩
    intro pre batch hpre
    cases pre with
    | nil =>
      obtain ⟨rfl, -⟩ := List.cons_prefix_cons.mp hpre
      exact hres
    | cons other pre =>
      obtain ⟨rfl, hrest⟩ := List.cons_prefix_cons.mp hpre
      exact hall pre batch hrest

end LingoAsync.Handler
