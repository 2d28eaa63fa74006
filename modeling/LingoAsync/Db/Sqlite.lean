import LingoAsync.Db.Events
import Mathlib.Data.List.Nodup

/-!
# The SQLite event log

`app/db/sqlite/events.py`: one table, keyed by the message id. The primary key is
a field of the table, so a second insert of an id has nothing to do but raise.
-/

namespace LingoAsync.Db

open LingoAsync.Text

/-- A row of the table `events`. -/
structure EventRow where
  id : PyStr
  userId : PyStr
  eventType : PyStr
  payloadJson : PyStr
  receivedAt : PyStr
  status : PyStr
  errorMsg : Option PyStr
  outcomesJson : PyStr
  ttlEpoch : Int
  deriving DecidableEq, Repr

/-- The table `events`. -/
structure SqliteLog where
  rows : List EventRow
  primaryKey : (rows.map (·.id)).Nodup

/-- The row an insert makes; the columns it does not name take their defaults. -/
def SaveArgs.row (a : SaveArgs) : EventRow where
  id := a.id
  userId := a.userId
  eventType := a.eventType
  payloadJson := a.payloadJson
  receivedAt := a.receivedAt
  status := py "received"
  errorMsg := none
  outcomesJson := py "[]"
  ttlEpoch := a.ttlEpoch

/-- `SET status=?, error_msg=?, outcomes_json=?`. -/
def EventRow.update (r : EventRow) (a : UpdateArgs) : EventRow :=
  { r with status := a.status, errorMsg := a.errorMsg, outcomesJson := a.outcomesJson }

namespace SqliteLog

def empty : SqliteLog := ⟨[], List.nodup_nil⟩

/-- `SqliteEventsWriteRepository.save`. -/
def save (a : SaveArgs) : Py SqliteLog Unit := fun db =>
  if h : a.id ∈ db.rows.map (·.id) then (.error .IntegrityError, db)
  else
    (.ok (), ⟨db.rows ++ [a.row], by
      rw [List.map_append]
      exact List.nodup_append'.mpr
        ⟨db.primaryKey, List.nodup_singleton _, List.disjoint_singleton.mpr h⟩⟩)

/-- The rows after `UPDATE … WHERE id=?`. -/
def updateRows (a : UpdateArgs) (rows : List EventRow) : List EventRow :=
  rows.map fun r => if r.id = a.id then r.update a else r

theorem updateRows_ids (a : UpdateArgs) (rows : List EventRow) :
    (updateRows a rows).map (·.id) = rows.map (·.id) := by
  rw [updateRows, List.map_map]
  refine List.map_congr_left ?_
  intro r _
  by_cases h : r.id = a.id <;> simp [h, EventRow.update]

/-- `SqliteEventsWriteRepository.update_status`. -/
def updateStatus (a : UpdateArgs) : Py SqliteLog Unit := fun db =>
  (.ok (), ⟨updateRows a db.rows, by rw [updateRows_ids]; exact db.primaryKey⟩)

/-- `SqliteEventsWriteRepository`. -/
def repo : EventsRepo SqliteLog := ⟨save, updateStatus⟩

theorem save_rows {a : SaveArgs} {db : SqliteLog} (h : a.id ∉ db.rows.map (·.id)) :
    ∃ db', save a db = (.ok (), db') ∧ db'.rows = db.rows ++ [a.row] := by
  unfold save
  rw [dif_neg h]
  exact ⟨_, rfl, rfl⟩

/-- An update of an id no row has changes nothing. -/
theorem updateRows_of_not_mem {a : UpdateArgs} {rows : List EventRow}
    (h : a.id ∉ rows.map (·.id)) : updateRows a rows = rows := by
  refine (List.map_congr_left ?_).trans (List.map_id rows)
  intro r hr
  show (if r.id = a.id then r.update a else r) = r
  rw [if_neg fun he : r.id = a.id => h (he ▸ List.mem_map_of_mem hr)]

end SqliteLog

end LingoAsync.Db
