import LingoAsync.LocalConsumer
import LingoAsync.Handler.LogVerdicts
import Mathlib.Logic.Function.Basic

/-!
# The local runs and their log

`main` of `app/run_local.py`, over the local consumer. A process counts the messages
it handles from zero and makes their ids of the count, `local-0`, `local-1` and so on.
So the ids of one process are its own, and those of the next are the same again. That
is why `main` first removes the log.

It removes the file `os.environ` names. The log is where `settings` says, and `settings`
also reads `.env`, knows the variable in any case and has a default. Where the two do
not meet, the second process finds the rows of the first: its `save` of `local-0` breaks
the primary key and is swallowed, and its `update_status` overwrites the old row.

`ownRow_iff`: a handled message gets a row of its own exactly if its id is new to the
log and the message is one the handler can log. Over any runs of `main`, every message
gets one if and only if every process that handles a message starts on an empty log
(`run_ownRows_iff`).
-/

namespace LingoAsync.RunLocal

open LingoAsync.Text LingoAsync.Contracts LingoAsync.Db LingoAsync.Handler
  LingoAsync.LocalConsumer LingoAsync.Machine

variable {ι σ F D : Type}

/-! ## Where the log is -/

/-- The variables a process starts with, and those `.env` gives a value. -/
structure Environment where
  environ : List (PyStr × PyStr)
  dotenv : List (PyStr × PyStr)

/-- `str.lower`, for a name of ASCII letters. -/
def lower (s : PyStr) : PyStr := s.map fun c => if 65 ≤ c ∧ c ≤ 90 then c + 32 else c

/-- The variable of the setting, as pydantic finds it: in any case, and the last counts. -/
def setting (vars : List (PyStr × PyStr)) : Option PyStr :=
  (vars.filter fun v => lower v.1 = py "event_log_sqlite_path").getLast?.map (·.2)

namespace Environment

/-- `settings.EVENT_LOG_SQLITE_PATH`. -/
def EVENT_LOG_SQLITE_PATH (env : Environment) : PyStr :=
  ((setting env.environ).or (setting env.dotenv)).getD (py "/tmp/lingo-events.sqlite")

/-- `event_log_path` of `main`. -/
def eventLogPath (env : Environment) : PyStr :=
  (env.environ.lookup (py "EVENT_LOG_SQLITE_PATH")).getD []

end Environment

/-- A path SQLite keeps a file at. Without a name, or with this one, every connection has
a database to itself. -/
def keepsFile (path : PyStr) : Bool := decide (path ≠ [] ∧ path ≠ py ":memory:")

/-- `SqliteEventsWriteRepository(path)`. Each write has its own connection, and the table
was made by another: where no file is kept, it is not there. SQLite stores UTF-8. The
payload is the one text of a row that can hold a surrogate: `user_id` was validated, and
an error is given by its `repr`. -/
def logAt (path : PyStr) : EventsRepo SqliteLog where
  save a :=
    if keepsFile path = false then Action.raise (.other (py "OperationalError"))
    else if IsUnicode a.payloadJson then SqliteLog.save a
    else Action.raise (.other (py "UnicodeEncodeError"))
  updateStatus a :=
    if keepsFile path = false then Action.raise (.other (py "OperationalError"))
    else SqliteLog.updateStatus a

/-- The logs on disk. -/
abbrev Files (ι : Type) := ι → Option SqliteLog

/-! ## Messages -/

variable [PyFloat F]

/-- A message as kombu's virtual transports hand it over: decoded from JSON, and with no
delivery tag. -/
structure Message (F : Type) [PyFloat F] where
  body : Json F
  fits : body.fits = true

/-- The id of the message a process handles after `processed` others. -/
def localId (processed : Nat) : PyStr := py "local-" ++ Json.dumpsNat processed

namespace Message

def kombu (m : Message F) : KombuMessage F := ⟨m.body, none⟩

/-- The body of the synthetic record. -/
def text (m : Message F) : PyStr :=
  match m.body with
  | .str s => s
  | body => body.dumps .default

/-- The synthetic record. -/
def record (m : Message F) (processed : Nat) : SqsRecord where
  messageId := some (localId processed)
  body := some m.text

end Message

theorem localId_injective {m n : Nat} (h : localId m = localId n) : m = n := by
  have hdigits : Json.dumpsNat m = Json.dumpsNat n := List.append_cancel_left h
  rw [← (Json.scanWhole_dumpsNat m Json.terminated_nil).2, hdigits,
    (Json.scanWhole_dumpsNat n Json.terminated_nil).2]

theorem syntheticRecord_message (m : Message F) (processed : Nat) :
    syntheticRecord processed m.kombu = .ok (m.record processed) := by
  obtain ⟨body, hfits⟩ := m
  cases body with
  | str s => rfl
  | _ =>
    simp only [syntheticRecord, Message.kombu, plainPayload, Json.dumpsChecked, hfits, if_true]
    rfl

/-- The handler reads an empty body as `{}`. -/
theorem record_text_eq_iff (m : Message F) (processed : Nat) :
    (m.record processed).text = m.text ↔ m.text ≠ [] := by
  show (if m.text = [] then py "\x7b\x7d" else m.text) = m.text ↔ _
  by_cases h : m.text = []
  · rw [if_pos h, h]
    exact iff_of_false (by decide) (not_not_intro rfl)
  · rw [if_neg h]
    exact iff_of_true rfl h

/-! ## The processes -/

/-- One run of the program: its variables, the files that paths name where it starts,
whether `os.remove` succeeds, and the messages it handles. -/
structure ProcessRun (ι σ F D : Type) [PyFloat F] where
  env : Environment
  fileAt : PyStr → ι
  removes : Bool
  worker : Worker σ F D
  start : σ
  messages : List (Message F)

namespace ProcessRun

variable (run : ProcessRun ι σ F D)

/-- Where the log is. -/
def path : PyStr := run.env.EVENT_LOG_SQLITE_PATH

def file : ι := run.fileAt run.path

/-- `LocalConsumer.handle`, on the process, the log and `self._processed`. -/
def handleStep (st : (σ × SqliteLog) × Nat) (m : Message F) : (σ × SqliteLog) × Nat :=
  (handle (run.worker.withLog (pure (some (logAt run.path)))) m.kombu st).2

/-- What a message makes of the process and `self._processed`, whatever the log does. -/
def processStep (st : σ × Nat) (m : Message F) : σ × Nat :=
  (run.worker.recordStep st.1 (m.record st.2), st.2 + 1)

/-- The message adds a row to the log, with its own text and its own verdict, and every
other row stays as it is. -/
def OwnRow (st : (σ × SqliteLog) × Nat) (m : Message F) : Prop :=
  ∃ row : EventRow, (run.handleStep st m).1.2.rows = st.1.2.rows ++ [row] ∧
    row.payloadJson = m.text ∧ Agrees row (run.worker.process (m.record st.2) st.1.1)

/-- A message the handler can log: it has a body, in Unicode, that can be unwrapped, and
the outcomes its handler returns can be dumped. -/
structure Loggable (st : σ × Nat) (m : Message F) : Prop where
  nonempty : m.text ≠ []
  unicode : IsUnicode m.text
  unwrappable : Unwrappable F run.worker.rt m.text
  dumps : (run.worker.process (m.record st.2) st.1).outcomesJson.isSome = true

variable [DecidableEq ι]

/-- The files after `main` has truncated what it takes for the log. -/
def truncate (files : Files ι) : Files ι :=
  let path := run.env.eventLogPath
  if path ≠ [] ∧ (files (run.fileAt path)).isSome = true ∧ run.removes = true then
    Function.update files (run.fileAt path) none
  else files

/-- The log the process finds. -/
def opened (files : Files ι) : SqliteLog := (run.truncate files run.file).getD .empty

/-- `main`, once it has truncated the log: a fresh `LocalConsumer`. -/
def started (files : Files ι) : (σ × SqliteLog) × Nat := ((run.start, run.opened files), 0)

/-- Every message the process handles gets a row of its own. -/
def OwnRows (files : Files ι) : Prop :=
  Along run.handleStep run.OwnRow (run.started files) run.messages

/-- `main` removes the log of the settings, or there is nothing in it. -/
def StartsEmpty (files : Files ι) : Prop :=
  (run.env.eventLogPath ≠ [] ∧ run.fileAt run.env.eventLogPath = run.file ∧
    run.removes = true) ∨
  ((files run.file).getD .empty).rows = []

/-- The process handles nothing, or it keeps an empty log and can log every message. -/
def Logs (files : Files ι) : Prop :=
  run.messages = [] ∨
  (keepsFile run.path = true ∧ run.StartsEmpty files ∧
    Along run.processStep run.Loggable (run.start, 0) run.messages)

end ProcessRun

/-- The files after a run of the program. The first message makes the log's file, if it is
not there. -/
def mainStep [DecidableEq ι] (files : Files ι) (run : ProcessRun ι σ F D) : Files ι :=
  if run.messages.isEmpty = true ∨ keepsFile run.path = false then run.truncate files
  else
    Function.update (run.truncate files) run.file
      (some (Machine.run run.handleStep (run.started files) run.messages).1.2)

/-! ## What the log saves -/

/-- The ids and texts of a log's rows, which no update changes. -/
def saved (db : SqliteLog) : List (PyStr × PyStr) :=
  db.rows.map fun row => (row.id, row.payloadJson)

theorem saved_ids (db : SqliteLog) : (saved db).map (·.1) = db.rows.map (·.id) := by
  rw [saved, List.map_map]
  rfl

theorem saved_update (a : UpdateArgs) (db : SqliteLog) :
    saved (SqliteLog.updateStatus a db).2 = saved db := by
  show (SqliteLog.updateRows a db.rows).map _ = _
  rw [SqliteLog.updateRows, List.map_map]
  refine List.map_congr_left ?_
  intro row _
  by_cases h : row.id = a.id <;> simp [h, EventRow.update]

theorem saved_safeUpdateStatus (path id status : PyStr) (errorMsg : Option PyStr)
    (outcomes : Outcomes F) (db : SqliteLog) :
    saved (safeUpdateStatus (some (logAt path)) id status errorMsg outcomes db).2 = saved db := by
  rw [safeUpdateStatus, rescue_unit]
  unfold jsonDumps
  cases (Json.list outcomes).dumpsChecked .default with
  | none => rfl
  | some text =>
    show saved ((logAt path).updateStatus ⟨id, status, errorMsg, text⟩ db).2 = _
    by_cases h : keepsFile path = false
    · simp only [logAt, if_pos h]
      rfl
    · simp only [logAt, if_neg h, saved_update]

/-- What it takes to save a row. -/
structure Savable (path : PyStr) (db : SqliteLog) (id payloadJson : PyStr) : Prop where
  kept : keepsFile path = true
  unicode : IsUnicode payloadJson
  fresh : id ∉ db.rows.map (·.id)

/-- A save adds a row, or nothing. -/
theorem saved_safeSave (path : PyStr) (a : SaveArgs) (db : SqliteLog) :
    (Savable path db a.id a.payloadJson ∧
      saved (safeSave (some (logAt path)) a db).2 = saved db ++ [(a.id, a.payloadJson)]) ∨
    (¬ Savable path db a.id a.payloadJson ∧
      saved (safeSave (some (logAt path)) a db).2 = saved db) := by
  rw [safeSave, rescue_unit]
  by_cases hkept : keepsFile path = false
  · refine .inr ⟨fun h => ?_, ?_⟩
    · rw [h.kept] at hkept
      cases hkept
    · simp only [logAt, if_pos hkept]
      rfl
  by_cases hunicode : IsUnicode a.payloadJson
  · simp only [logAt, if_neg hkept, if_pos hunicode]
    by_cases hid : a.id ∈ db.rows.map (·.id)
    · refine .inr ⟨fun h => h.fresh hid, ?_⟩
      rw [SqliteLog.save, dif_pos hid]
    · obtain ⟨db', hsave, hrows⟩ := SqliteLog.save_rows hid
      refine .inl ⟨⟨eq_true_of_ne_false hkept, hunicode, hid⟩, ?_⟩
      rw [hsave, saved, hrows, List.map_append]
      rfl
  · refine .inr ⟨fun h => hunicode h.unicode, ?_⟩
    simp only [logAt, if_neg hkept, if_neg hunicode]
    rfl

/-- The two writes of a record save what the first does. -/
theorem saved_writes (path : PyStr) (a : SaveArgs) (id status : PyStr) (errorMsg : Option PyStr)
    (outcomes : Outcomes F) (db : SqliteLog) :
    saved ((do
      safeSave (some (logAt path)) a
      safeUpdateStatus (some (logAt path)) id status errorMsg outcomes : Py SqliteLog Unit) db).2 =
    saved (safeSave (some (logAt path)) a db).2 := by
  obtain ⟨db', hsave⟩ := safeSave_ok (some (logAt path)) a db
  rw [Action.bind_ok hsave, saved_safeUpdateStatus, hsave]

/-- A record that can be unwrapped saves its id and its text. -/
theorem saved_unwrappable {w : Worker σ F D} {record : SqsRecord}
    (h : Unwrappable F w.rt record.text) (path : PyStr) (s : σ) (db : SqliteLog) :
    ∃ a : SaveArgs, a.id = record.id ∧ a.payloadJson = record.text ∧
      saved (w.logRecord (some (logAt path)) record s db).2 =
        saved (safeSave (some (logAt path)) a db).2 := by
  unfold Worker.logRecord
  cases hp : w.parse record with
  | error exc =>
    obtain ⟨errors, rfl⟩ := parse_rejected h hp
    refine ⟨_, ?_, ?_, saved_writes ..⟩
    · rfl
    · rfl
  | ok parsed =>
    dsimp only
    cases (dispatch w.handlers parsed (w.tick s)).1 with
    | ok outcomes =>
      refine ⟨_, ?_, ?_, saved_writes ..⟩
      · rfl
      · rfl
    | error exc =>
      refine ⟨_, ?_, ?_, saved_writes ..⟩
      · rfl
      · rfl

/-- What it takes to log a record. -/
def Recordable (w : Worker σ F D) (path : PyStr) (record : SqsRecord) (db : SqliteLog) : Prop :=
  Unwrappable F w.rt record.text ∧ Savable path db record.id record.text

/-- A record adds its row, or nothing. -/
theorem saved_logRecord (w : Worker σ F D) (path : PyStr) (record : SqsRecord) (s : σ)
    (db : SqliteLog) :
    (Recordable w path record db ∧ saved (w.logRecord (some (logAt path)) record s db).2 =
      saved db ++ [(record.id, record.text)]) ∨
    (¬ Recordable w path record db ∧
      saved (w.logRecord (some (logAt path)) record s db).2 = saved db) := by
  by_cases h : Unwrappable F w.rt record.text
  · obtain ⟨a, hid, htext, hsaved⟩ := saved_unwrappable h path s db
    rw [hsaved, ← hid, ← htext]
    rcases saved_safeSave path a db with ⟨hsavable, hadds⟩ | ⟨hsavable, hkeeps⟩
    · exact .inl ⟨⟨h, hid ▸ htext ▸ hsavable⟩, hadds⟩
    · exact .inr ⟨fun hrec => hsavable (hid ▸ htext ▸ hrec.2), hkeeps⟩
  · refine .inr ⟨fun hrec => h hrec.1, ?_⟩
    rw [logRecord_raised h]

/-- Where a row can be saved, the log takes a delivery as its table does. -/
theorem deliver_logAt {path : PyStr} {d : Db.Delivery} (hkept : keepsFile path = true)
    (hunicode : IsUnicode d.payloadJson) (db : SqliteLog) :
    deliver (logAt path) db d = deliver SqliteLog.repo db d := by
  have hno : ¬ keepsFile path = false := by rw [hkept]; decide
  have htext : IsUnicode d.saveArgs.payloadJson := hunicode
  rw [deliver_eq, deliver_eq]
  simp only [logAt, if_neg hno, if_pos htext]
  rfl

/-- The rows of the log have the first `n` ids. -/
def Numbered (db : SqliteLog) (n : Nat) : Prop :=
  db.rows.map (·.id) = (List.range n).map localId

theorem numbered_zero {db : SqliteLog} : Numbered db 0 ↔ db.rows = [] := List.map_eq_nil_iff

/-- The next id is new to it. -/
theorem Numbered.fresh {db : SqliteLog} {n : Nat} (h : Numbered db n) :
    localId n ∉ db.rows.map (·.id) := by
  rw [h]
  intro hmem
  obtain ⟨m, hm, hid⟩ := List.mem_map.mp hmem
  rw [localId_injective hid] at hm
  exact List.not_mem_range_self hm

/-- The first one is in it, unless it is empty. -/
theorem Numbered.empty {db : SqliteLog} {n : Nat} (h : Numbered db n)
    (hfresh : localId 0 ∉ db.rows.map (·.id)) : db.rows = [] := by
  cases n with
  | zero => exact numbered_zero.mp h
  | succ n =>
    rw [h] at hfresh
    exact absurd (List.mem_map_of_mem (List.mem_range.mpr (Nat.succ_pos n))) hfresh

/-! ## One message -/

namespace ProcessRun

variable (run : ProcessRun ι σ F D)

/-- The handler's half of the state, the log's half and the count. -/
theorem handleStep_eq (s : σ) (db : SqliteLog) (n : Nat) (m : Message F) :
    run.handleStep ((s, db), n) m =
      ((run.worker.recordStep s (m.record n),
        (run.worker.logRecord (some (logAt run.path)) (m.record n) s db).2), n + 1) := by
  have hopen : (run.worker.withLog (pure (some (logAt run.path)))).lambdaHandler [m.record n]
      (s, db) = _ := Action.bind_ok (getEventsRepo_opened (w := run.worker) rfl s) _
  have hrec := handleRecord_onLog run.worker (pure (some (logAt run.path)))
    (some (logAt run.path)) (m.record n) s db
  unfold handleStep handle
  rw [syntheticRecord_message]
  dsimp only
  rw [hopen]
  cases hr : (run.worker.handleRecord none (m.record n) s).1 with
  | error exc =>
    rw [hr] at hrec
    rw [handleRecords_ended hrec]
    rfl
  | ok verdict =>
    rw [hr] at hrec
    rw [handleRecords_settled hrec]
    rfl

theorem processStep_handleStep (st : (σ × SqliteLog) × Nat) (m : Message F) :
    ((run.handleStep st m).1.1, (run.handleStep st m).2) =
      run.processStep (st.1.1, st.2) m := by
  obtain ⟨⟨s, db⟩, n⟩ := st
  rw [handleStep_eq]
  rfl

/-- A message that has a row of its own has saved its id and its text. -/
theorem ownRow_saved {run : ProcessRun ι σ F D} {st : (σ × SqliteLog) × Nat} {m : Message F}
    (h : run.OwnRow st m) :
    Recordable run.worker run.path (m.record st.2) st.1.2 ∧ (m.record st.2).text = m.text ∧
      saved (run.handleStep st m).1.2 = saved st.1.2 ++ [(localId st.2, m.text)] := by
  obtain ⟨⟨s, db⟩, n⟩ := st
  obtain ⟨row, hrows, htext, -⟩ := h
  have hadded : saved (run.handleStep ((s, db), n) m).1.2 =
      saved db ++ [(row.id, row.payloadJson)] := by
    rw [saved, hrows, List.map_append]
    rfl
  rw [handleStep_eq] at hadded ⊢
  rcases saved_logRecord run.worker run.path (m.record n) s db with ⟨hrec, hsaved⟩ | ⟨-, hsaved⟩
  · have hpair := List.singleton_inj.mp (List.append_cancel_left (hsaved.symm.trans hadded))
    have hbody : (m.record n).text = m.text := (Prod.mk.inj hpair).2.trans htext
    exact ⟨hrec, hbody, hbody ▸ hsaved⟩
  · -- nothing was saved, and the row is one too many
    have hlen := congrArg List.length (hsaved.symm.trans hadded)
    rw [List.length_append, List.length_singleton] at hlen
    omega

/-- **A row of its own.** A message gets one exactly if its id is new to a log that is kept,
and it is one the handler can log. -/
theorem ownRow_iff (st : (σ × SqliteLog) × Nat) (m : Message F) :
    run.OwnRow st m ↔ keepsFile run.path = true ∧
      localId st.2 ∉ st.1.2.rows.map (·.id) ∧ run.Loggable (st.1.1, st.2) m := by
  constructor
  · intro hown
    obtain ⟨hrec, hbody, -⟩ := ownRow_saved hown
    obtain ⟨row, -, -, hagrees⟩ := hown
    have hdumps : (run.worker.process (m.record st.2) st.1.1).outcomesJson.isSome = true := by
      rw [hagrees.outcomesJson]
      rfl
    rw [Recordable, hbody] at hrec
    exact ⟨hrec.2.kept, hrec.2.fresh,
      ⟨(record_text_eq_iff m st.2).mp hbody, hrec.2.unicode, hrec.1, hdumps⟩⟩
  · intro hyp
    obtain ⟨⟨s, db⟩, n⟩ := st
    obtain ⟨hkept, hfresh, hlog⟩ := hyp
    have hbody : (m.record n).text = m.text := (record_text_eq_iff m n).mpr hlog.nonempty
    have hok : (run.worker.handleRecord none (m.record n) s).1.isOk = true :=
      (handleRecord_isOk_iff s).mpr (hbody.symm ▸ hlog.unwrappable)
    obtain ⟨d, hid, htext, hagrees, hdeliver⟩ := logRecord_delivers hok hlog.dumps
    have hnew : d.id ∉ db.rows.map (·.id) := hid ▸ hfresh
    have hunicode : IsUnicode d.payloadJson := (htext.trans hbody).symm ▸ hlog.unicode
    refine ⟨d.row, ?_, htext.trans hbody, hagrees⟩
    rw [handleStep_eq]
    show (run.worker.logRecord (some (logAt run.path)) (m.record n) s db).2.rows = db.rows ++ _
    rw [hdeliver, deliver_logAt hkept hunicode, deliver_sqlite hnew]

/-! ## One process -/

theorem numbered_step {st : (σ × SqliteLog) × Nat} {m : Message F} (h : Numbered st.1.2 st.2)
    (hown : run.OwnRow st m) :
    Numbered (run.handleStep st m).1.2 (run.handleStep st m).2 := by
  obtain ⟨-, -, hsaved⟩ := ownRow_saved hown
  have hcount : (run.handleStep st m).2 = st.2 + 1 := by
    rw [handleStep_eq]
  unfold Numbered at h ⊢
  rw [← saved_ids, hsaved, List.map_append, saved_ids, h, hcount, List.range_succ,
    List.map_append]
  rfl

/-- A process that starts on an empty log gives every message its row exactly if the log is
kept and every message can be logged. -/
theorem along_ownRow_iff {st : (σ × SqliteLog) × Nat} (h : Numbered st.1.2 st.2)
    {ms : List (Message F)} (hms : ms ≠ []) :
    Along run.handleStep run.OwnRow st ms ↔
      keepsFile run.path = true ∧ Along run.processStep run.Loggable (st.1.1, st.2) ms := by
  have hview := along_map (fun st : (σ × SqliteLog) × Nat => (st.1.1, st.2))
    run.processStep_handleStep run.Loggable ms st
  by_cases hkept : keepsFile run.path = true
  · rw [← hview, and_iff_right hkept]
    refine along_congr (fun st : (σ × SqliteLog) × Nat => Numbered st.1.2 st.2)
      (fun st m h hown => run.numbered_step h hown) ?_ ms h
    intro st m hnum
    rw [ownRow_iff, and_iff_right hkept, and_iff_right hnum.fresh]
  · refine iff_of_false ?_ (fun hyp => hkept hyp.1)
    obtain ⟨m, ms, rfl⟩ := List.exists_cons_of_ne_nil hms
    intro hown
    exact hkept ((run.ownRow_iff st m).mp hown.1).1

/-! ## What a process finds -/

variable [DecidableEq ι]

/-- The log a process finds is empty exactly if `main` removed it, or it was. -/
theorem opened_empty_iff (files : Files ι) :
    (run.opened files).rows = [] ↔ run.StartsEmpty files := by
  unfold opened truncate StartsEmpty
  by_cases hremoves : run.env.eventLogPath ≠ [] ∧
      (files (run.fileAt run.env.eventLogPath)).isSome = true ∧ run.removes = true
  · rw [if_pos hremoves]
    by_cases hfile : run.file = run.fileAt run.env.eventLogPath
    · rw [hfile, Function.update_self]
      exact iff_of_true rfl (.inl ⟨hremoves.1, rfl, hremoves.2.2⟩)
    · rw [Function.update_of_ne hfile]
      exact ⟨.inr, fun h => h.resolve_left fun hown => hfile hown.2.1.symm⟩
  · rw [if_neg hremoves]
    refine ⟨.inr, ?_⟩
    intro h
    rcases h with hown | hempty
    · -- there was no file to remove
      have hnone : files run.file = none := by
        rw [← hown.2.1, ← Option.not_isSome_iff_eq_none]
        exact fun hsome => hremoves ⟨hown.1, hsome, hown.2.2⟩
      rw [hnone]
      rfl
    · exact hempty

end ProcessRun

/-! ## The runs -/

section Runs

variable [DecidableEq ι]

/-- The rows of every log on disk have the first ids. -/
def AllNumbered (files : Files ι) : Prop :=
  ∀ file log, files file = some log → ∃ n, Numbered log n

theorem AllNumbered.update {files : Files ι} (h : AllNumbered files) (file : ι)
    {log : Option SqliteLog} (hlog : ∀ db, log = some db → ∃ n, Numbered db n) :
    AllNumbered (Function.update files file log) := by
  intro other db hdb
  by_cases hfile : other = file
  · rw [hfile, Function.update_self] at hdb
    exact hlog db hdb
  · rw [Function.update_of_ne hfile] at hdb
    exact h other db hdb

theorem AllNumbered.truncate {files : Files ι} (h : AllNumbered files)
    (run : ProcessRun ι σ F D) : AllNumbered (run.truncate files) := by
  unfold ProcessRun.truncate
  dsimp only
  split
  · exact h.update _ fun _ => nofun
  · exact h

theorem AllNumbered.opened {files : Files ι} (h : AllNumbered files)
    (run : ProcessRun ι σ F D) : ∃ n, Numbered (run.opened files) n := by
  unfold ProcessRun.opened
  cases hlog : run.truncate files run.file with
  | none => exact ⟨0, rfl⟩
  | some log => exact h.truncate run run.file log hlog

/-- On a disk of such logs, a process gives every message its row exactly if it starts on an
empty log, keeps it and can log every message. -/
theorem ownRows_iff {files : Files ι} (run : ProcessRun ι σ F D) (h : AllNumbered files) :
    run.OwnRows files ↔ run.Logs files := by
  unfold ProcessRun.OwnRows ProcessRun.Logs
  by_cases hms : run.messages = []
  · rw [hms]
    exact iff_of_true trivial (.inl rfl)
  rw [or_iff_right hms, ← run.opened_empty_iff, ← numbered_zero]
  constructor
  · intro hown
    have hempty : Numbered (run.opened files) 0 := by
      obtain ⟨n, hnum⟩ := h.opened run
      obtain ⟨m, ms, hcons⟩ := List.exists_cons_of_ne_nil hms
      rw [hcons] at hown
      -- the first message's id is new
      exact numbered_zero.mpr (hnum.empty ((run.ownRow_iff _ m).mp hown.1).2.1)
    have hlogs := (run.along_ownRow_iff hempty hms).mp hown
    exact ⟨hlogs.1, hempty, hlogs.2⟩
  · intro hlogs
    exact (run.along_ownRow_iff hlogs.2.1 hms).mpr ⟨hlogs.1, hlogs.2.2⟩

/-- Such a process leaves a disk of such logs. -/
theorem allNumbered_step {files : Files ι} {run : ProcessRun ι σ F D} (h : AllNumbered files)
    (hown : run.OwnRows files) : AllNumbered (mainStep files run) := by
  unfold mainStep
  split
  next => exact h.truncate run
  next hno =>
    have hms : run.messages ≠ [] := by
      intro hnil
      exact hno (.inl (by rw [hnil]; rfl))
    obtain ⟨-, hstarts, -⟩ := ((ownRows_iff run h).mp hown).resolve_left hms
    have hempty : Numbered (run.opened files) 0 :=
      numbered_zero.mpr ((run.opened_empty_iff files).mpr hstarts)
    have hend := along_inv (fun st : (σ × SqliteLog) × Nat => Numbered st.1.2 st.2)
      (fun st m h hown => run.numbered_step h hown) hempty hown
    refine (h.truncate run).update run.file ?_
    intro db hdb
    obtain rfl := Option.some.inj hdb
    exact ⟨_, hend⟩

end Runs

/-- **Rows across restarts.** Over any runs of the program, from no log at all: every message
of every run gets a row of its own, and no other row is touched, if and only if every run that
handles a message starts on an empty log, keeps it, and can log every message. -/
theorem run_ownRows_iff [DecidableEq ι] (runs : List (ProcessRun ι σ F D)) :
    Along mainStep (fun files run => run.OwnRows files) (fun _ => none) runs ↔
      Along mainStep (fun files run => run.Logs files) (fun _ => none) runs := by
  have hnone : AllNumbered (fun _ : ι => none) := fun _ _ => nofun
  exact along_congr AllNumbered (fun files run h hown => allNumbered_step h hown)
    (fun files run h => ownRows_iff run h) runs hnone

/-! ## A path in `.env` -/

/-- A run with the log's path in `.env`, as `.env.example` has it, and one message. -/
def dotenvRun (m : Message Score) : ProcessRun PyStr Unit Score Stamp where
  env := ⟨[], [(py "EVENT_LOG_BACKEND", py "sqlite"),
    (py "EVENT_LOG_SQLITE_PATH", py "/tmp/lingo-events.sqlite")]⟩
  fileAt := id
  removes := true
  worker := idleWorker
  start := ()
  messages := [m]

def friendMessage : Message Score where
  body := .dict [(py "type", .str (py "friend_added")), (py "user_id", .str (py "u1")),
    (py "friend_id", .str (py "u2"))]
  fits := by decide

/-- A message that is no event. -/
def emptyMessage : Message Score where
  body := .dict []
  fits := by decide

/-- Started again, the program has no row for its first message. It writes that message's
verdict into the row of the other run's. -/
theorem restart_overwrites :
    ¬ Along mainStep (fun files run => run.OwnRows files) (fun _ => none)
      [dotenvRun friendMessage, dotenvRun emptyMessage] ∧
    (run mainStep (fun _ => none) [dotenvRun friendMessage, dotenvRun emptyMessage]
      (py "/tmp/lingo-events.sqlite")).map (fun log =>
        log.rows.map fun row => (row.payloadJson, row.status)) =
      some [(friendMessage.text, py "failed")] := by
  refine ⟨?_, by decide +kernel⟩
  have hfound : ((dotenvRun emptyMessage).started
      (mainStep (fun _ => none) (dotenvRun friendMessage))).1.2.rows.length = 1 := by
    decide +kernel
  have hleft : ((dotenvRun emptyMessage).handleStep ((dotenvRun emptyMessage).started
      (mainStep (fun _ => none) (dotenvRun friendMessage))) emptyMessage).1.2.rows.length = 1 := by
    decide +kernel
  intro hown
  obtain ⟨row, hrows, -⟩ := hown.2.1.1
  rw [hrows, List.length_append, hfound] at hleft
  cases hleft

end LingoAsync.RunLocal
