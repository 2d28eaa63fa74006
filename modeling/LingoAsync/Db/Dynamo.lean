import LingoAsync.Db.Events
import Mathlib.Data.List.Nodup

/-!
# The DynamoDB event log

`app/db/dynamo/events.py`: items keyed by user and by time of receipt and message
id, and a secondary index by message id alone. `update_status` knows only the id,
so it asks the index for one item and updates that one by its key.

Which item the index returns, when several have the id, is not specified: an
`IdIndex` is any choice.
-/

namespace LingoAsync.Db

open LingoAsync.Text

/-- An item of the table. `errorMsg` is absent until the first update; read back,
that is `None` too. -/
structure EventItem where
  PK : PyStr
  SK : PyStr
  id : PyStr
  userId : PyStr
  eventType : PyStr
  payloadJson : PyStr
  receivedAt : PyStr
  status : PyStr
  outcomesJson : PyStr
  ttlEpoch : Int
  errorMsg : Option PyStr
  deriving DecidableEq, Repr

def EventItem.key (i : EventItem) : PyStr × PyStr := (i.PK, i.SK)

/-- `_pk`. -/
def pk (userId : PyStr) : PyStr := py "USER#" ++ userId

/-- `_sk`. -/
def sk (receivedAt id : PyStr) : PyStr := py "EVENT#" ++ receivedAt ++ py "#" ++ id

/-- The item `save` puts. -/
def SaveArgs.item (a : SaveArgs) : EventItem where
  PK := pk a.userId
  SK := sk a.receivedAt a.id
  id := a.id
  userId := a.userId
  eventType := a.eventType
  payloadJson := a.payloadJson
  receivedAt := a.receivedAt
  status := py "received"
  outcomesJson := py "[]"
  ttlEpoch := a.ttlEpoch
  errorMsg := none

/-- `SET #s = :status, outcomes_json = :outcomes, error_msg = :err`. -/
def EventItem.update (i : EventItem) (a : UpdateArgs) : EventItem :=
  { i with status := a.status, outcomesJson := a.outcomesJson, errorMsg := a.errorMsg }

/-- The table, with the number of index queries made so far. -/
structure EventTable where
  items : List EventItem
  queries : Nat
  keys_nodup : (items.map EventItem.key).Nodup

/-- What a query of the index with `Limit=1` returns, out of the items with the id:
one of them, whenever there is one. -/
structure IdIndex where
  pick : (query : Nat) → List EventItem → Option EventItem
  pick_mem : ∀ k items i, pick k items = some i → i ∈ items
  pick_isSome : ∀ k items, items ≠ [] → (pick k items).isSome = true

namespace EventTable

def empty : EventTable := ⟨[], 0, List.nodup_nil⟩

/-- `put_item`: replace the item with the same key, or add one. -/
def put (i : EventItem) (t : EventTable) : EventTable where
  items := t.items.filter (fun j => j.key ≠ i.key) ++ [i]
  queries := t.queries
  keys_nodup := by
    rw [List.map_append]
    refine List.nodup_append'.mpr ⟨t.keys_nodup.sublist (List.filter_sublist.map _),
      List.nodup_singleton _, List.disjoint_singleton.mpr fun h => ?_⟩
    obtain ⟨j, hj, hk⟩ := List.mem_map.mp h
    exact (by simpa using (List.mem_filter.mp hj).2 : j.key ≠ i.key) hk

/-- `update_item` on a key. -/
def updateItems (key : PyStr × PyStr) (a : UpdateArgs) (items : List EventItem) : List EventItem :=
  items.map fun i => if i.key = key then i.update a else i

theorem updateItems_map {β : Type} (f : EventItem → β) (hf : ∀ i a, f (i.update a) = f i)
    (key : PyStr × PyStr) (a : UpdateArgs) (items : List EventItem) :
    (updateItems key a items).map f = items.map f := by
  rw [updateItems, List.map_map]
  refine List.map_congr_left ?_
  intro i _
  show f (if i.key = key then i.update a else i) = f i
  split
  · exact hf i a
  · rfl

/-- The items of the index under an id. -/
def withId (t : EventTable) (id : PyStr) : List EventItem := t.items.filter fun i => i.id = id

/-- `DynamoEventsWriteRepository.save`. -/
def save (a : SaveArgs) : Py EventTable Unit := fun t => (.ok (), t.put a.item)

/-- `DynamoEventsWriteRepository.update_status`. -/
def updateStatus (index : IdIndex) (a : UpdateArgs) : Py EventTable Unit := fun t =>
  match index.pick t.queries (t.withId a.id) with
  | none => (.ok (), { t with queries := t.queries + 1 })
  | some base =>
    (.ok (), {
      items := updateItems base.key a t.items
      queries := t.queries + 1
      keys_nodup := by
        rw [updateItems_map EventItem.key (fun _ _ => rfl)]
        exact t.keys_nodup })

/-- `DynamoEventsWriteRepository`. -/
def repo (index : IdIndex) : EventsRepo EventTable := ⟨save, updateStatus index⟩

theorem put_items_of_new {i : EventItem} {t : EventTable} (h : ∀ j ∈ t.items, j.key ≠ i.key) :
    (t.put i).items = t.items ++ [i] := by
  show t.items.filter _ ++ [i] = _
  rw [List.filter_eq_self.mpr fun j hj => by simpa using h j hj]

/-- The keys after a put: those there were, and that of the item. -/
theorem mem_put_keys {i : EventItem} {t : EventTable} {key : PyStr × PyStr} :
    key ∈ (t.put i).items.map EventItem.key ↔ key ∈ t.items.map EventItem.key ∨ key = i.key := by
  show key ∈ (t.items.filter (fun j => j.key ≠ i.key) ++ [i]).map EventItem.key ↔ _
  rw [List.map_append, List.mem_append, List.map_singleton, List.mem_singleton]
  constructor
  · intro h
    refine h.imp_left fun hold => ?_
    obtain ⟨j, hj, hk⟩ := List.mem_map.mp hold
    exact List.mem_map.mpr ⟨j, List.mem_of_mem_filter hj, hk⟩
  · intro h
    by_cases hkey : key = i.key
    · exact .inr hkey
    · obtain ⟨j, hj, rfl⟩ := List.mem_map.mp (h.resolve_right hkey)
      exact .inl (List.mem_map.mpr ⟨j, List.mem_filter.mpr ⟨hj, by simpa using hkey⟩, rfl⟩)

/-- A put leaves the items with other keys, -/
theorem mem_put_of_ne {i j : EventItem} {t : EventTable} (h : j ∈ t.items) (hkey : j.key ≠ i.key) :
    j ∈ (t.put i).items :=
  List.mem_append_left _ (List.mem_filter.mpr ⟨h, by simpa using hkey⟩)

/-- and so does an update. -/
theorem mem_updateItems_of_ne {key : PyStr × PyStr} {a : UpdateArgs} {items : List EventItem}
    {i : EventItem} (h : i ∈ items) (hkey : i.key ≠ key) : i ∈ updateItems key a items :=
  List.mem_map.mpr ⟨i, h, if_neg hkey⟩

theorem mem_updateItems_self {a : UpdateArgs} {items : List EventItem} {i : EventItem}
    (h : i ∈ items) : i.update a ∈ updateItems i.key a items :=
  List.mem_map.mpr ⟨i, h, if_pos rfl⟩

/-- Updating under an id some item has: one item with that id, and no other, is
updated. -/
theorem updateStatus_items (index : IdIndex) {a : UpdateArgs} {t : EventTable}
    (h : t.withId a.id ≠ []) :
    ∃ base ∈ t.items, base.id = a.id ∧
      (updateStatus index a t).2.items = updateItems base.key a t.items := by
  obtain ⟨base, hb⟩ := Option.isSome_iff_exists.mp (index.pick_isSome t.queries _ h)
  have hmem := index.pick_mem _ _ _ hb
  refine ⟨base, List.mem_of_mem_filter hmem, ?_, ?_⟩
  · simpa using (List.mem_filter.mp hmem).2
  · unfold updateStatus
    rw [hb]

end EventTable

/-! ## Keys -/

/-- Two texts without a `#`, each followed by `#` and more: both parts agree. -/
theorem append_hash_inj {s t u v : PyStr} (hs : 35 ∉ s) (ht : 35 ∉ t)
    (h : s ++ 35 :: u = t ++ 35 :: v) : s = t ∧ u = v := by
  induction s generalizing t with
  | nil =>
    cases t with
    | nil => exact ⟨rfl, (List.cons.inj h).2⟩
    | cons c t =>
      exact absurd (List.mem_cons.mpr (Or.inl (List.cons.inj h).1)) ht
  | cons c s ih =>
    cases t with
    | nil => exact absurd (List.mem_cons.mpr (Or.inl (List.cons.inj h).1.symm)) hs
    | cons d t =>
      obtain ⟨rfl, htail⟩ := List.cons.inj h
      obtain ⟨rfl, huv⟩ := ih (fun hm => hs (List.mem_cons_of_mem _ hm))
        (fun hm => ht (List.mem_cons_of_mem _ hm)) htail
      exact ⟨rfl, huv⟩

/-- A sort key names its time of receipt and its id. -/
theorem sk_injective {r r' id id' : PyStr} (hr : 35 ∉ r) (hr' : 35 ∉ r')
    (h : sk r id = sk r' id') : r = r' ∧ id = id' := by
  simp only [sk, List.append_assoc] at h
  exact append_hash_inj hr hr' (List.append_cancel_left h)

end LingoAsync.Db
