import LingoAsync.Db.Dynamo
import LingoAsync.Faults

/-!
# The DynamoDB event log when calls fail

`save` is one call to the table, `update_status` two: a query of the index, and the update of the
item it returned. Any of them may raise, before it has had its effect or after it; and the index is
brought up to date later than the table, so it may not have an item yet (`LaggingIndex`).

Whatever happens, an item tells what was written and nothing else (`Told`): it is an item that was
saved, as it was saved or with an update that was asked for under its id. `save_told` and
`updateStatus_told` say that the two writes keep this.
-/

namespace LingoAsync.Db

open LingoAsync.Text

/-- What a query of an index that lags behind the table returns, out of the items with the id: one
of them, or nothing. -/
structure LaggingIndex where
  pick : (query : Nat) → List EventItem → Option EventItem
  pick_mem : ∀ k items i, pick k items = some i → i ∈ items

/-- An index that does not lag. -/
def IdIndex.lagging (index : IdIndex) : LaggingIndex := ⟨index.pick, index.pick_mem⟩

namespace EventTable

/-- `table.query` of the index. -/
def query (index : LaggingIndex) (id : PyStr) : Py EventTable (Option EventItem) := fun t =>
  (.ok (index.pick t.queries (t.withId id)), { t with queries := t.queries + 1 })

/-- `table.update_item`. -/
def updateItem (key : PyStr × PyStr) (a : UpdateArgs) : Py EventTable Unit := fun t =>
  (.ok (), {
    items := updateItems key a t.items
    queries := t.queries
    keys_nodup := by
      rw [updateItems_map EventItem.key (fun _ _ => rfl)]
      exact t.keys_nodup })

/-- `DynamoEventsWriteRepository`, over calls that fail. -/
def faultyRepo (index : LaggingIndex) (faults : Nat → Option (Fault PyExc)) :
    EventsRepo (EventTable × Nat) where
  save a := faultily faults (save a)
  updateStatus a := do
    match ← faultily faults (query index a.id) with
    | none => pure ()
    | some base => faultily faults (updateItem base.key a)

/-- The two calls of an update, with an index that does not lag. -/
theorem updateStatus_eq (index : IdIndex) (a : UpdateArgs) :
    (do
      match ← query index.lagging a.id with
      | none => pure ()
      | some base => updateItem base.key a : Py EventTable Unit) = updateStatus index a := by
  funext t
  have hquery : query index.lagging a.id t =
      (.ok (index.pick t.queries (t.withId a.id)), { t with queries := t.queries + 1 }) := rfl
  rw [Action.bind_ok hquery, updateStatus]
  cases index.pick t.queries (t.withId a.id) <;> rfl

/-- Where no call fails and the index does not lag, the repository is the repository. -/
theorem forgets_faultless_save (index : IdIndex) (a : SaveArgs) :
    Action.Forgets ((faultyRepo index.lagging fun _ => none).save a) ((repo index).save a) :=
  forgets_faultless (save a)

theorem forgets_faultless_updateStatus (index : IdIndex) (a : UpdateArgs) :
    Action.Forgets ((faultyRepo index.lagging fun _ => none).updateStatus a)
      ((repo index).updateStatus a) := by
  show Action.Forgets _ (updateStatus index a)
  rw [← updateStatus_eq]
  refine Action.forgets_bind (forgets_faultless _) fun found => ?_
  cases found with
  | none => exact Action.forgets_pure ()
  | some base => exact forgets_faultless _

end EventTable

/-! ## What an item tells -/

/-- The item is one that was saved, as it was saved or with an update of its id. -/
def Told (saved : SaveArgs → Prop) (updated : UpdateArgs → Prop) (i : EventItem) : Prop :=
  ∃ a, saved a ∧ (i = a.item ∨ ∃ u, updated u ∧ u.id = a.id ∧ i = a.item.update u)

variable {saved saved' : SaveArgs → Prop} {updated updated' : UpdateArgs → Prop}

theorem Told.mono (hs : ∀ a, saved a → saved' a) (hu : ∀ u, updated u → updated' u) {i : EventItem}
    (h : Told saved updated i) : Told saved' updated' i := by
  obtain ⟨a, ha, hi⟩ := h
  refine ⟨a, hs a ha, hi.imp_right fun hup => ?_⟩
  obtain ⟨u, hup, hid, rfl⟩ := hup
  exact ⟨u, hu u hup, hid, rfl⟩

/-- An item is of the id it was saved under. -/
theorem Told.id {i : EventItem} (h : Told saved updated i) :
    ∃ a, saved a ∧ i.key = a.item.key ∧ i.id = a.id := by
  obtain ⟨a, ha, rfl | ⟨u, -, -, rfl⟩⟩ := h
  · exact ⟨a, ha, rfl, rfl⟩
  · exact ⟨a, ha, rfl, rfl⟩

/-- Every item of the table. -/
def AllTold (saved : SaveArgs → Prop) (updated : UpdateArgs → Prop) (t : EventTable) : Prop :=
  ∀ i ∈ t.items, Told saved updated i

theorem AllTold.put {t : EventTable} (h : AllTold saved updated t) {a : SaveArgs} (ha : saved a) :
    AllTold saved updated (t.put a.item) := by
  intro i hi
  rcases List.mem_append.mp hi with hold | hnew
  · exact h i (List.mem_of_mem_filter hold)
  · rw [List.mem_singleton.mp hnew]
    exact ⟨a, ha, .inl rfl⟩

/-- An update of the item it was asked for under the id of. -/
theorem AllTold.update {t t' : EventTable} (h : AllTold saved updated t) {u : UpdateArgs}
    (hu : updated u) {base : EventItem} (hbase : base ∈ t.items) (hid : base.id = u.id)
    (hitems : t'.items = EventTable.updateItems base.key u t.items) : AllTold saved updated t' := by
  intro i hi
  rw [hitems] at hi
  obtain ⟨old, hold, rfl⟩ := List.mem_map.mp hi
  by_cases hkey : old.key = base.key
  · rw [if_pos hkey]
    obtain rfl : old = base := List.inj_on_of_nodup_map t.keys_nodup hold hbase hkey
    obtain ⟨a, ha, rfl | ⟨v, -, -, rfl⟩⟩ := h old hold
    · exact ⟨a, ha, .inr ⟨u, hu, hid.symm, rfl⟩⟩
    · exact ⟨a, ha, .inr ⟨u, hu, hid.symm, rfl⟩⟩
  · rw [if_neg hkey]
    exact h old hold

/-! ## The two writes -/

section Writes

variable (index : LaggingIndex) (faults : Nat → Option (Fault PyExc)) {s : EventTable × Nat}

theorem save_told (h : AllTold saved updated s.1) {a : SaveArgs} (ha : saved a) :
    AllTold saved updated ((EventTable.faultyRepo index faults).save a s).2.1 :=
  faultily_keeps h (h.put ha) faults

theorem updateStatus_told (h : AllTold saved updated s.1) {u : UpdateArgs} (hu : updated u) :
    AllTold saved updated ((EventTable.faultyRepo index faults).updateStatus u s).2.1 := by
  have hquery : AllTold saved updated (faultily faults (EventTable.query index u.id) s).2.1 :=
    faultily_keeps h h faults
  show AllTold saved updated ((faultily faults (EventTable.query index u.id) >>= fun found =>
    match found with
    | none => pure ()
    | some base => faultily faults (EventTable.updateItem base.key u) : Py _ Unit) s).2.1
  cases hfound : faultily faults (EventTable.query index u.id) s with
  | mk r s1 =>
    rw [hfound] at hquery
    cases r with
    | error e =>
      rw [Action.bind_error hfound]
      exact hquery
    | ok found =>
      rw [Action.bind_ok hfound]
      have hpick := faultily_ok hfound
      obtain ⟨hr, hs1⟩ := Prod.mk.inj hpick
      cases found with
      | none => exact hquery
      | some base =>
        -- the index was asked about the table as it is now
        have hmem := index.pick_mem _ _ _ (Except.ok.inj hr)
        obtain ⟨hbase, hid⟩ := List.mem_filter.mp hmem
        have hitems : s1.1.items = s.1.items := by rw [← hs1]
        refine faultily_keeps hquery (hquery.update hu ?_ (by simpa using hid) rfl)
          faults
        rw [hitems]
        exact hbase

end Writes

end LingoAsync.Db
