import LingoAsync.Calendar
import LingoAsync.Db.Sqlite
import LingoAsync.Db.Dynamo
import LingoAsync.Handler.SafeLog
import LingoAsync.Machine
import Mathlib.Data.List.Induction

/-!
# Does the Dynamo log mirror the SQLite log?

The SQLite log is the source of truth for behaviour, and the Dynamo log is to
mirror it. Both are driven here by the same deliveries, each a `save` whose
failure the caller swallows and then an `update_status`.

They key their rows differently: SQLite by the message id, Dynamo by user, time
of receipt and message id. As long as every delivery brings a new id, each log
holds exactly one entry per delivery, in order (`run_sqlite`, `run_dynamo`), and
they agree. A second delivery of an id, received later, is refused by SQLite and
then updates the one row; in Dynamo it is a second item. So the two agree after
every delivery if and only if no id is delivered twice (`mirrors_iff`).
-/

namespace LingoAsync.Db

open LingoAsync.Text LingoAsync.Machine LingoAsync.Calendar

/-- One delivery, as the dispatch loop logs it. -/
structure Delivery where
  id : PyStr
  userId : PyStr
  eventType : PyStr
  payloadJson : PyStr
  receivedAt : Instant
  ttlEpoch : Int
  status : PyStr
  errorMsg : Option PyStr
  outcomesJson : PyStr

namespace Delivery

def saveArgs (d : Delivery) : SaveArgs where
  id := d.id
  userId := d.userId
  eventType := d.eventType
  payloadJson := d.payloadJson
  receivedAt := d.receivedAt.isoformat
  ttlEpoch := d.ttlEpoch

def updateArgs (d : Delivery) : UpdateArgs where
  id := d.id
  status := d.status
  errorMsg := d.errorMsg
  outcomesJson := d.outcomesJson

/-- The row a first delivery ends as. -/
def row (d : Delivery) : EventRow := d.saveArgs.row.update d.updateArgs

/-- The item a first delivery ends as. -/
def item (d : Delivery) : EventItem := d.saveArgs.item.update d.updateArgs

/-- Items of different deliveries have different keys, if their ids or their times of
receipt differ. -/
theorem item_key_ne {d e : Delivery} (h : d.id = e.id → d.receivedAt ≠ e.receivedAt) :
    d.saveArgs.item.key ≠ e.saveArgs.item.key := by
  intro hk
  obtain ⟨hr, hid⟩ := sk_injective (isoformat_no_hash d.receivedAt)
    (isoformat_no_hash e.receivedAt) (Prod.mk.inj hk).2
  exact h hid (isoformat_injective hr)

end Delivery

/-- The state after one delivery was logged. -/
def deliver {σ : Type} (repo : EventsRepo σ) (s : σ) (d : Delivery) : σ :=
  (do
    Handler.safeSave (some repo) d.saveArgs
    repo.updateStatus d.updateArgs : Py σ Unit) s |>.2

theorem deliver_eq {σ : Type} (repo : EventsRepo σ) (s : σ) (d : Delivery) :
    deliver repo s d = (repo.updateStatus d.updateArgs (repo.save d.saveArgs s).2).2 :=
  congrArg Prod.snd (Action.bind_ok (Handler.rescue_unit (repo.save d.saveArgs) s) _)

/-! ## The SQLite log -/

/-- A delivery of a new id adds its row. -/
theorem deliver_sqlite {db : SqliteLog} {d : Delivery} (h : d.id ∉ db.rows.map (·.id)) :
    (deliver SqliteLog.repo db d).rows = db.rows ++ [d.row] := by
  obtain ⟨db', hsave, hrows⟩ := SqliteLog.save_rows (a := d.saveArgs) h
  rw [deliver_eq]
  show (SqliteLog.updateStatus d.updateArgs (SqliteLog.save d.saveArgs db).2).2.rows = _
  rw [hsave]
  show SqliteLog.updateRows d.updateArgs db'.rows = _
  have hold : SqliteLog.updateRows d.updateArgs db.rows = db.rows :=
    SqliteLog.updateRows_of_not_mem h
  rw [hrows]
  unfold SqliteLog.updateRows at *
  rw [List.map_append, hold]
  simp [Delivery.row, Delivery.updateArgs, Delivery.saveArgs, SaveArgs.row]

/-- A delivery of a known id updates its row. -/
theorem deliver_sqlite_again {db : SqliteLog} {d : Delivery} (h : d.id ∈ db.rows.map (·.id)) :
    (deliver SqliteLog.repo db d).rows = SqliteLog.updateRows d.updateArgs db.rows := by
  have hsave : SqliteLog.save d.saveArgs db = (.error .IntegrityError, db) := dif_pos h
  rw [deliver_eq]
  show (SqliteLog.updateStatus d.updateArgs (SqliteLog.save d.saveArgs db).2).2.rows = _
  rw [hsave]
  rfl

/-- Either way the ids are those there were and that of the delivery. -/
theorem deliver_sqlite_ids (db : SqliteLog) (d : Delivery) (id : PyStr) :
    id ∈ (deliver SqliteLog.repo db d).rows.map (·.id) ↔ id ∈ db.rows.map (·.id) ∨ id = d.id := by
  by_cases h : d.id ∈ db.rows.map (·.id)
  · rw [deliver_sqlite_again h, SqliteLog.updateRows_ids]
    refine ⟨Or.inl, ?_⟩
    intro hid
    rcases hid with hid | rfl
    · exact hid
    · exact h
  · rw [deliver_sqlite h, List.map_append, List.mem_append, List.map_singleton,
      List.mem_singleton]
    rfl

/-- The row of the delivered id has the delivery's verdict, and the others are as they were. -/
theorem mem_deliver_sqlite {db : SqliteLog} {d : Delivery} {row : EventRow}
    (h : row ∈ (deliver SqliteLog.repo db d).rows) :
    (row.id = d.id ∧ row.status = d.status ∧ row.errorMsg = d.errorMsg ∧
      row.outcomesJson = d.outcomesJson) ∨ (row.id ≠ d.id ∧ row ∈ db.rows) := by
  by_cases hknown : d.id ∈ db.rows.map (·.id)
  · rw [deliver_sqlite_again hknown] at h
    obtain ⟨old, hold, rfl⟩ := List.mem_map.mp h
    by_cases hid : old.id = d.id
    · rw [if_pos (show old.id = d.updateArgs.id from hid)]
      exact Or.inl ⟨hid, rfl, rfl, rfl⟩
    · rw [if_neg (show old.id ≠ d.updateArgs.id from hid)]
      exact Or.inr ⟨hid, hold⟩
  · rw [deliver_sqlite hknown] at h
    rcases List.mem_append.mp h with hold | hnew
    · refine Or.inr ⟨?_, hold⟩
      intro hid
      exact hknown (hid ▸ List.mem_map_of_mem hold)
    · rw [List.mem_singleton.mp hnew]
      exact Or.inl ⟨rfl, rfl, rfl, rfl⟩

theorem run_sqlite {ds : List Delivery} (h : (ds.map (·.id)).Nodup) :
    (run (deliver SqliteLog.repo) SqliteLog.empty ds).rows = ds.map Delivery.row := by
  induction ds using List.reverseRecOn with
  | nil => rfl
  | append_singleton ds d ih =>
    rw [List.map_append] at h
    obtain ⟨hds, -, hdisj⟩ := List.nodup_append'.mp h
    have hrows := ih hds
    have hnew : d.id ∉ (run (deliver SqliteLog.repo) SqliteLog.empty ds).rows.map (·.id) := by
      rw [hrows, List.map_map]
      intro hm
      exact hdisj hm (List.mem_singleton.mpr rfl)
    rw [run_concat, deliver_sqlite hnew, hrows, List.map_append]
    rfl

/-! ## The Dynamo log -/

/-- A delivery with a new id adds its item. -/
theorem deliver_dynamo (index : IdIndex) {t : EventTable} {d : Delivery}
    (hkey : ∀ i ∈ t.items, i.key ≠ d.saveArgs.item.key) (hid : d.id ∉ t.items.map (·.id)) :
    (deliver (EventTable.repo index) t d).items = t.items ++ [d.item] := by
  rw [deliver_eq]
  show (EventTable.updateStatus index d.updateArgs (t.put d.saveArgs.item)).2.items = _
  have hput := EventTable.put_items_of_new hkey
  have hmem : d.saveArgs.item ∈ (t.put d.saveArgs.item).withId d.updateArgs.id := by
    unfold EventTable.withId
    rw [hput]
    simp [SaveArgs.item, Delivery.saveArgs, Delivery.updateArgs]
  obtain ⟨base, hbase, hbid, hitems⟩ :=
    EventTable.updateStatus_items index (List.ne_nil_of_mem hmem)
  rw [hput] at hbase
  -- the only item with this id is the one just put
  obtain rfl : base = d.saveArgs.item := by
    rcases List.mem_append.mp hbase with hold | hnew
    · exact absurd (List.mem_map_of_mem (f := (·.id)) hold) (by rw [hbid]; exact hid)
    · exact List.mem_singleton.mp hnew
  rw [hitems, hput]
  unfold EventTable.updateItems
  rw [List.map_append]
  congr 1
  · refine (List.map_congr_left ?_).trans (List.map_id _)
    intro i hi
    rw [if_neg (hkey i hi)]
    rfl
  · rw [List.map_singleton, if_pos rfl]
    rfl

theorem withId_length (t : EventTable) (id : PyStr) :
    (t.withId id).length = (t.items.map (·.id)).count id := by
  rw [EventTable.withId, ← List.countP_eq_length_filter, List.count, List.countP_map]
  exact List.countP_congr fun i _ => by simp

/-- A delivery whose key is new adds an item with its id, whatever the id. -/
theorem deliver_dynamo_withId (index : IdIndex) {t : EventTable} {d : Delivery}
    (hkey : ∀ i ∈ t.items, i.key ≠ d.saveArgs.item.key) :
    ((deliver (EventTable.repo index) t d).withId d.id).length = (t.withId d.id).length + 1 := by
  have hput := EventTable.put_items_of_new hkey
  have hmem : d.saveArgs.item ∈ (t.put d.saveArgs.item).withId d.updateArgs.id := by
    unfold EventTable.withId
    rw [hput]
    simp [SaveArgs.item, Delivery.saveArgs, Delivery.updateArgs]
  obtain ⟨base, -, -, hitems⟩ := EventTable.updateStatus_items index (List.ne_nil_of_mem hmem)
  have hids : (deliver (EventTable.repo index) t d).items.map (·.id) =
      t.items.map (·.id) ++ [d.id] := by
    rw [deliver_eq]
    show (EventTable.updateStatus index d.updateArgs (t.put d.saveArgs.item)).2.items.map _ = _
    rw [hitems, EventTable.updateItems_map _ (fun _ _ => rfl), hput, List.map_append]
    rfl
  rw [withId_length, withId_length, hids, List.count_append, List.count_singleton_self]

theorem run_dynamo (index : IdIndex) {ds : List Delivery} (h : (ds.map (·.id)).Nodup) :
    (run (deliver (EventTable.repo index)) EventTable.empty ds).items = ds.map Delivery.item := by
  induction ds using List.reverseRecOn with
  | nil => rfl
  | append_singleton ds d ih =>
    rw [List.map_append] at h
    obtain ⟨hds, -, hdisj⟩ := List.nodup_append'.mp h
    have hitems := ih hds
    have hne : ∀ e ∈ ds, e.id ≠ d.id := by
      intro e he heq
      exact hdisj (List.mem_map_of_mem he) (heq ▸ List.mem_singleton.mpr rfl)
    have hkey : ∀ i ∈ (run (deliver (EventTable.repo index)) EventTable.empty ds).items,
        i.key ≠ d.saveArgs.item.key := by
      intro i hi
      rw [hitems] at hi
      obtain ⟨e, he, rfl⟩ := List.mem_map.mp hi
      exact Delivery.item_key_ne fun heq => absurd heq (hne e he)
    have hid : d.id ∉
        (run (deliver (EventTable.repo index)) EventTable.empty ds).items.map (·.id) := by
      rw [hitems, List.map_map]
      intro hm
      exact hdisj hm (List.mem_singleton.mpr rfl)
    rw [run_concat, deliver_dynamo index hkey hid, hitems, List.map_append]
    rfl

/-! ## Agreement -/

/-- For every id, each log holds one entry, and the two give the same verdict. -/
def Mirrors (db : SqliteLog) (t : EventTable) (ids : List PyStr) : Prop :=
  ∀ id ∈ ids, ∃ row item, db.rows.filter (fun r => r.id = id) = [row] ∧ t.withId id = [item] ∧
    item.status = row.status ∧ item.errorMsg = row.errorMsg ∧ item.outcomesJson = row.outcomesJson

/-- In a list where no two have the same id, one has a given one. -/
theorem filter_id_of_nodup {α : Type} (f : α → PyStr) {l : List α} {a : α}
    (hnd : (l.map f).Nodup) (h : a ∈ l) : l.filter (fun b => f b = f a) = [a] := by
  induction l with
  | nil => cases h
  | cons b l ih =>
    obtain ⟨hb, hl⟩ := List.nodup_cons.mp hnd
    rcases List.mem_cons.mp h with rfl | h'
    · have hnone : l.filter (fun b => f b = f a) = [] := by
        refine List.filter_eq_nil_iff.mpr ?_
        intro c hc
        simpa using fun he : f c = f a => hb (he ▸ List.mem_map_of_mem hc)
      rw [List.filter_cons_of_pos (by simp), hnone]
    · have hne : f b ≠ f a := by
        intro he
        exact hb (he ▸ List.mem_map_of_mem h')
      rw [List.filter_cons_of_neg (by simpa using hne)]
      exact ih hl h'

theorem mirrors_of_nodup (index : IdIndex) {ds : List Delivery} (h : (ds.map (·.id)).Nodup) :
    Mirrors (run (deliver SqliteLog.repo) SqliteLog.empty ds)
      (run (deliver (EventTable.repo index)) EventTable.empty ds) (ds.map (·.id)) := by
  intro id hid
  obtain ⟨d, hd, rfl⟩ := List.mem_map.mp hid
  have hrow : ((ds.map Delivery.row).map (·.id)).Nodup := by rwa [List.map_map]
  have hitem : ((ds.map Delivery.item).map (·.id)).Nodup := by rwa [List.map_map]
  refine ⟨d.row, d.item, ?_, ?_, rfl, rfl, rfl⟩
  · rw [run_sqlite h]
    exact filter_id_of_nodup EventRow.id hrow (List.mem_map_of_mem hd)
  · rw [EventTable.withId, run_dynamo index h]
    exact filter_id_of_nodup EventItem.id hitem (List.mem_map_of_mem hd)

/-- Deliveries of one id come in the order of their times of receipt. -/
def InOrder (ds : List Delivery) : Prop :=
  ds.Pairwise fun d e => d.id = e.id → d.receivedAt.Before e.receivedAt

instance (ds : List Delivery) : Decidable (InOrder ds) :=
  inferInstanceAs (Decidable (List.Pairwise _ _))

theorem nodup_of_mirrors (index : IdIndex) {ds : List Delivery} (hord : InOrder ds)
    (h : ∀ js, js <+: ds → Mirrors (run (deliver SqliteLog.repo) SqliteLog.empty js)
      (run (deliver (EventTable.repo index)) EventTable.empty js) (js.map (·.id))) :
    (ds.map (·.id)).Nodup := by
  induction ds using List.reverseRecOn with
  | nil => exact List.nodup_nil
  | append_singleton ds d ih =>
    obtain ⟨hord', -, hlast⟩ := List.pairwise_append.mp hord
    have hds := ih hord' fun js hjs => h js (hjs.trans (List.prefix_append ..))
    rw [List.map_append]
    refine List.nodup_append'.mpr ⟨hds, List.nodup_singleton _,
      List.disjoint_singleton.mpr fun hmem => ?_⟩
    -- a second item with the id of `d`, beside the one already there
    obtain ⟨e, he, heid⟩ := List.mem_map.mp hmem
    -- its sort key starts with a later time of receipt, so it overwrites no item
    have hkey : ∀ i ∈ (run (deliver (EventTable.repo index)) EventTable.empty ds).items,
        i.key ≠ d.saveArgs.item.key := by
      intro i hi
      rw [run_dynamo index hds] at hi
      obtain ⟨c, hc, rfl⟩ := List.mem_map.mp hi
      exact Delivery.item_key_ne fun heq =>
        (hlast c hc d (List.mem_singleton.mpr rfl) heq).ne
    -- one item with the id before the delivery and one after it, and a delivery adds one
    obtain ⟨_, i, -, hone, -⟩ := mirrors_of_nodup index hds d.id hmem
    have htwo := deliver_dynamo_withId index hkey
    obtain ⟨_, i', -, hone', -⟩ := h (ds ++ [d]) (List.prefix_refl _) d.id (by simp)
    rw [run_concat] at hone'
    rw [hone, hone'] at htwo
    simp at htwo

/-- **The two logs.** After every delivery the Dynamo log mirrors the SQLite log, if
and only if no id is delivered twice. -/
theorem mirrors_iff (index : IdIndex) (ds : List Delivery) (hord : InOrder ds) :
    (∀ js, js <+: ds → Mirrors (run (deliver SqliteLog.repo) SqliteLog.empty js)
      (run (deliver (EventTable.repo index)) EventTable.empty js) (js.map (·.id))) ↔
      (ds.map (·.id)).Nodup := by
  refine ⟨nodup_of_mirrors index hord, fun h js hjs => mirrors_of_nodup index ?_⟩
  exact h.sublist (hjs.sublist.map _)

/-- An index that answers with the first item. -/
def firstItem : IdIndex where
  pick _ items := items.head?
  pick_mem _ _ _ h := List.mem_of_mem_head? h
  pick_isSome _ items h := by
    obtain ⟨i, l, rfl⟩ := List.exists_cons_of_ne_nil h
    rfl

/-- A `friend_added` message handled at noon, at the given second. -/
def handledAt (id : PyStr) (second : Fin 60) : Delivery where
  id := id
  userId := py "u1"
  eventType := py "friend_added"
  payloadJson := py "\x7b\x7d"
  receivedAt := { Instant.noon with
    second := second, time_range := ⟨by decide, by decide, second.2, by decide⟩ }
  ttlEpoch := 0
  status := py "ok"
  errorMsg := none
  outcomesJson := py "[]"

/-- Two messages, one delivery each: the logs agree. -/
theorem mirrors_iff_two_ids :
    Mirrors (run (deliver SqliteLog.repo) SqliteLog.empty
        [handledAt (py "m1") 0, handledAt (py "m2") 1])
      (run (deliver (EventTable.repo firstItem)) EventTable.empty
        [handledAt (py "m1") 0, handledAt (py "m2") 1]) [py "m1", py "m2"] :=
  (mirrors_iff firstItem [handledAt (py "m1") 0, handledAt (py "m2") 1] (by decide)).mpr (by decide)
    _ (List.prefix_refl _)

/-- One message delivered twice, a second apart: the Dynamo log holds two items for
it. -/
theorem mirrors_redelivered :
    InOrder [handledAt (py "m1") 0, handledAt (py "m1") 1] ∧
    ¬ ∀ js, js <+: [handledAt (py "m1") 0, handledAt (py "m1") 1] →
      Mirrors (run (deliver SqliteLog.repo) SqliteLog.empty js)
        (run (deliver (EventTable.repo firstItem)) EventTable.empty js) (js.map (·.id)) := by
  refine ⟨by decide, ?_⟩
  intro h
  obtain ⟨_, i, -, hone, -⟩ := h _ (List.prefix_refl _) (py "m1") (by decide)
  have htwo : ((run (deliver (EventTable.repo firstItem)) EventTable.empty
      [handledAt (py "m1") 0, handledAt (py "m1") 1]).withId (py "m1")).length = 2 := by decide
  rw [hone] at htwo
  cases htwo

end LingoAsync.Db
