import LingoAsync.Db.DynamoFaults
import LingoAsync.Handler.LogVerdicts

/-!
# The production log over whole runs

In production the log is the DynamoDB table, and there a message that comes again is another item:
the update after it may go to the item of an earlier delivery. So an item need not say what became
of the delivery it was saved for. What it does say is still true of its message.

`Worker.settledIn` lists the records a run settles, each with the state it started in, and `run_log`
is the induction over a run that writes to a log: it is enough that each settled record keeps the
invariant. From it, `dynamo_sound`: whatever calls to the table fail and however far the index lags,
every item is the one some settled record saved, as it was saved or with the verdict on a settled
record of the same id. And `dynamo_complete`: if no call fails and the index does not lag, every
settled record has its item, and the verdict on the last record with an id is on an item with that
id.
-/

namespace LingoAsync.Handler

open LingoAsync.Text LingoAsync.Contracts LingoAsync.Db LingoAsync.Machine

variable {σ F D L : Type} [PyFloat F]

namespace Worker

variable (w : Worker σ F D)

/-- The entry a record is saved as, when it starts at `s`. -/
def entry (record : SqsRecord) (s : σ) : SaveArgs :=
  let receivedAt := (w.now s).1.isoformat
  let ttlEpoch := (w.now (w.now s).2).1.timestampPlus TTL_SECONDS
  match w.parse record with
  | .ok parsed => saveArgs record parsed.userId parsed.type receivedAt ttlEpoch
  | .error _ => saveArgs record (py "<unparsed>") (py "<unparsed>") receivedAt ttlEpoch

/-- The records of a batch that are settled, each with the state it starts in. -/
def settled : List SqsRecord → σ → List (SqsRecord × σ)
  | [], _ => []
  | record :: records, s =>
    match (w.handleRecord none record s).1 with
    | .ok _ => (record, s) :: settled records (w.recordStep s record)
    | .error _ => []

/-- Those of a run of invocations. -/
def settledIn : List (List SqsRecord) → σ → List (SqsRecord × σ)
  | [], _ => []
  | batch :: schedule, s =>
    w.settled batch s ++ settledIn schedule (w.handleRecords none batch s).2

/-- What became of them. -/
def verdicts (seen : List (SqsRecord × σ)) : List (Processed F) :=
  seen.map fun x => w.process x.1 x.2

/-- The worker with a log that opens. -/
def loggingTo (repo : EventsRepo L) : Worker (σ × L) F D := w.withLog (pure (some repo))

end Worker

/-! ## What a settled record writes -/

/-- The update says what became of the record. -/
structure Reports (u : UpdateArgs) (p : Processed F) : Prop where
  id : u.id = p.id
  status : u.status = if p.outcomes.isSome then py "ok" else py "failed"
  errorMsg : u.errorMsg.isSome = p.outcomes.isNone
  outcomesJson : p.outcomesJson = some u.outcomesJson

/-- An update of outcomes that cannot be dumped is not made. -/
theorem safeUpdateStatus_undumped {repo : EventsRepo L} {outcomes : Outcomes F}
    (h : (Json.list outcomes).dumpsChecked .default = none) (id status : PyStr)
    (errorMsg : Option PyStr) (l : L) :
    (safeUpdateStatus (some repo) id status errorMsg outcomes l).2 = l := by
  rw [safeUpdateStatus, rescue_unit]
  unfold jsonDumps
  rw [h]
  rfl

/-- A settled record saves its entry and then updates it, unless its outcomes cannot be dumped. -/
theorem logRecord_writes {w : Worker σ F D} {record : SqsRecord} {s : σ}
    (hok : (w.handleRecord none record s).1.isOk = true) :
    (∃ u, Reports u (w.process record s) ∧ ∀ {L : Type} (repo : EventsRepo L) (l : L),
      (w.logRecord (some repo) record s l).2 =
        (repo.updateStatus u (repo.save (w.entry record s) l).2).2) ∨
    (w.process record s).outcomesJson = none ∧ ∀ {L : Type} (repo : EventsRepo L) (l : L),
      (w.logRecord (some repo) record s l).2 = (repo.save (w.entry record s) l).2 := by
  have hempty : (Json.list (F := F) []).dumpsChecked .default = some (py "[]") := rfl
  have hsaved : ∀ {L : Type} (repo : EventsRepo L) a l, safeSave (some repo) a l =
      (.ok (), (repo.save a l).2) := fun _ _ _ => rescue_unit _ _
  unfold Worker.process Worker.entry Worker.logRecord
  rw [handleRecord_none] at hok
  cases hp : w.parse record with
  | error exc =>
    cases exc with
    | ValidationError errors =>
      refine .inl ⟨⟨record.id, py "failed", some (w.strErrors errors), py "[]"⟩,
        ⟨rfl, rfl, rfl, hempty⟩, ?_⟩
      intro L repo l
      dsimp only
      rw [Action.bind_ok (hsaved ..), safeUpdateStatus_dumped hempty]
    | _ =>
      rw [hp] at hok
      cases hok
  | ok parsed =>
    dsimp only
    cases hd : (dispatch w.handlers parsed (w.tick s)).1 with
    | error exc =>
      refine .inl ⟨⟨record.id, py "failed", some (w.repr exc), py "[]"⟩,
        ⟨rfl, rfl, rfl, hempty⟩, ?_⟩
      intro L repo l
      rw [Action.bind_ok (hsaved ..), safeUpdateStatus_dumped hempty]
    | ok outcomes =>
      cases hjson : (Json.list outcomes).dumpsChecked .default with
      | some text =>
        refine .inl ⟨⟨record.id, py "ok", none, text⟩, ⟨rfl, rfl, rfl, hjson⟩, ?_⟩
        intro L repo l
        rw [Action.bind_ok (hsaved ..), safeUpdateStatus_dumped hjson]
      | none =>
        refine .inr ⟨hjson, ?_⟩
        intro L repo l
        rw [Action.bind_ok (hsaved ..), safeUpdateStatus_undumped hjson]

/-! ## Runs -/

section Runs

variable {w : Worker σ F D} {repo : EventsRepo L} {P : List (SqsRecord × σ) → L → Prop}

/-- A batch keeps what every record it settles keeps. -/
theorem handleRecords_log
    (hstep : ∀ seen record s l, (w.handleRecord none record s).1.isOk = true → P seen l →
      P (seen ++ [(record, s)]) (w.logRecord (some repo) record s l).2)
    (records : List SqsRecord) {seen : List (SqsRecord × σ)} {s : σ} {l : L} (h : P seen l) :
    ∃ l', ((w.loggingTo repo).handleRecords (some (onLog repo)) records (s, l)).2 =
        ((w.handleRecords none records s).2, l') ∧ P (seen ++ w.settled records s) l' := by
  induction records generalizing seen s l with
  | nil => exact ⟨l, rfl, by rwa [Worker.settled, List.append_nil]⟩
  | cons record records ih =>
    have hrec : (w.loggingTo repo).handleRecord (some (onLog repo)) record (s, l) = _ :=
      handleRecord_onLog w _ (some repo) record s l
    cases hr : w.handleRecord none record s with
    | mk r s1 =>
      rw [hr] at hrec
      cases r with
      | error exc =>
        have hraised : ¬ Unwrappable F w.rt record.text := by
          rw [← handleRecord_isOk_iff s, hr]
          simp [Except.isOk, Except.toBool]
        rw [handleRecords_ended hrec, handleRecords_ended hr, logRecord_raised hraised,
          Worker.settled, hr]
        exact ⟨l, rfl, by rwa [List.append_nil]⟩
      | ok verdict =>
        have hisOk : (w.handleRecord none record s).1.isOk = true := by rw [hr]; rfl
        have hnext : w.recordStep s record = s1 := by rw [Worker.recordStep, hr]
        obtain ⟨l', hrun, hP⟩ := ih (hstep seen record s l hisOk h) (s := s1)
        rw [handleRecords_settled hrec, handleRecords_settled hr, Worker.settled, hr, hnext]
        exact ⟨l', hrun, by rwa [List.append_assoc] at hP⟩

/-- A run keeps what every record it settles keeps. -/
theorem run_log
    (hstep : ∀ seen record s l, (w.handleRecord none record s).1.isOk = true → P seen l →
      P (seen ++ [(record, s)]) (w.logRecord (some repo) record s l).2)
    (schedule : List (List SqsRecord)) {seen : List (SqsRecord × σ)} {s : σ} {l : L}
    (h : P seen l) :
    P (seen ++ w.settledIn schedule s) (run (w.loggingTo repo).invoke (s, l) schedule).2 := by
  induction schedule generalizing seen s l with
  | nil => rwa [Worker.settledIn, List.append_nil]
  | cons batch schedule ih =>
    have hopen : (w.loggingTo repo).lambdaHandler batch (s, l) =
        (w.loggingTo repo).handleRecords (some (onLog repo)) batch (s, l) :=
      Action.bind_ok (getEventsRepo_opened (w := w) rfl s) _
    obtain ⟨l', hrun, hP⟩ := handleRecords_log hstep batch h
    rw [run_cons, Worker.invoke, hopen, hrun, Worker.settledIn, ← List.append_assoc]
    exact ih hP

end Runs

/-! ## Whatever fails -/

section Table

variable (w : Worker σ F D) {seen : List (SqsRecord × σ)}

/-- The entries that were saved. -/
def Saved (seen : List (SqsRecord × σ)) (a : SaveArgs) : Prop :=
  ∃ x ∈ seen, a = w.entry x.1 x.2

/-- The verdicts that were reported. -/
def Reported (seen : List (SqsRecord × σ)) (u : UpdateArgs) : Prop :=
  ∃ x ∈ seen, Reports u (w.process x.1 x.2)

variable {w}

theorem Saved.more {a : SaveArgs} (h : Saved w seen a) (x : SqsRecord × σ) :
    Saved w (seen ++ [x]) a := by
  obtain ⟨y, hy, ha⟩ := h
  exact ⟨y, List.mem_append_left _ hy, ha⟩

theorem Reported.more {u : UpdateArgs} (h : Reported w seen u) (x : SqsRecord × σ) :
    Reported w (seen ++ [x]) u := by
  obtain ⟨y, hy, hu⟩ := h
  exact ⟨y, List.mem_append_left _ hy, hu⟩

variable (w) in
/-- Every item is the one that some record saved, as it was saved or with the verdict on a record of
the same id. -/
def Truthful (seen : List (SqsRecord × σ)) (t : EventTable) : Prop :=
  ∀ i ∈ t.items, ∃ x ∈ seen, i = (w.entry x.1 x.2).item ∨
    ∃ y ∈ seen, ∃ u, u.id = (w.entry x.1 x.2).id ∧ Reports u (w.process y.1 y.2) ∧
      i = (w.entry x.1 x.2).item.update u

/-- **Nothing in the log is made up.** Whatever calls to the table fail, before or after their
effect, and however far the index lags behind it: after any run the log is truthful about the
settled records. -/
theorem dynamo_sound (w : Worker σ F D) (index : LaggingIndex)
    (faults : Nat → Option (Fault PyExc)) (schedule : List (List SqsRecord)) (s : σ) :
    Truthful w (w.settledIn schedule s)
      (run (w.loggingTo (EventTable.faultyRepo index faults)).invoke (s, (.empty, 0))
        schedule).2.1 := by
  have hstep : ∀ seen record s (t : EventTable × Nat),
      (w.handleRecord none record s).1.isOk = true →
      AllTold (Saved w seen) (Reported w seen) t.1 →
      AllTold (Saved w (seen ++ [(record, s)])) (Reported w (seen ++ [(record, s)]))
        (w.logRecord (some (EventTable.faultyRepo index faults)) record s t).2.1 := by
    intro seen record s t hok h
    have hmore : AllTold (Saved w (seen ++ [(record, s)])) (Reported w (seen ++ [(record, s)]))
        t.1 :=
      fun i hi => (h i hi).mono (fun _ ha => ha.more _) fun _ hu => hu.more _
    have hself : (record, s) ∈ seen ++ [(record, s)] :=
      List.mem_append_right _ (List.mem_singleton.mpr rfl)
    have hsaved := save_told index faults hmore ⟨(record, s), hself, rfl⟩
    rcases logRecord_writes hok with ⟨u, hu, hwrites⟩ | ⟨-, hwrites⟩
    · rw [hwrites]
      exact updateStatus_told index faults hsaved ⟨(record, s), hself, hu⟩
    · rw [hwrites]
      exact hsaved
  have hrun : AllTold (Saved w ([] ++ w.settledIn schedule s))
      (Reported w ([] ++ w.settledIn schedule s))
      (run (w.loggingTo (EventTable.faultyRepo index faults)).invoke (s, (.empty, 0))
        schedule).2.1 :=
    run_log (P := fun seen (t : EventTable × Nat) => AllTold (Saved w seen) (Reported w seen) t.1)
      hstep schedule fun _ hi => absurd hi List.not_mem_nil
  intro i hi
  obtain ⟨_, ⟨x, hx, rfl⟩, hcases⟩ := hrun i hi
  refine ⟨x, hx, hcases.imp_right fun hup => ?_⟩
  obtain ⟨u, ⟨y, hy, hu⟩, hid, hi⟩ := hup
  exact ⟨y, hy, u, hid, hu, hi⟩

/-! ## Where nothing fails -/

theorem entry_id (w : Worker σ F D) (record : SqsRecord) (s : σ) :
    (w.entry record s).id = record.id := by
  unfold Worker.entry
  cases w.parse record <;> rfl

theorem entry_receivedAt (w : Worker σ F D) (record : SqsRecord) (s : σ) :
    (w.entry record s).receivedAt = (w.now s).1.isoformat := by
  unfold Worker.entry
  cases w.parse record <;> rfl

/-- Entries of different ids have different keys. -/
theorem entry_key (w : Worker σ F D) {x y : SqsRecord × σ}
    (h : (w.entry x.1 x.2).item.key = (w.entry y.1 y.2).item.key) : x.1.id = y.1.id := by
  have hsk : sk (w.entry x.1 x.2).receivedAt (w.entry x.1 x.2).id =
      sk (w.entry y.1 y.2).receivedAt (w.entry y.1 y.2).id := (Prod.mk.inj h).2
  rw [entry_receivedAt, entry_receivedAt, entry_id, entry_id] at hsk
  exact (sk_injective (Calendar.isoformat_no_hash _) (Calendar.isoformat_no_hash _) hsk).2

/-- Some item with the id of the record says what became of it. -/
def Tells (w : Worker σ F D) (seen : List (SqsRecord × σ)) (t : EventTable) (p : Processed F) :
    Prop :=
  ∃ x ∈ seen, x.1.id = p.id ∧ ∃ u, Reports u p ∧ (w.entry x.1 x.2).item.update u ∈ t.items

/-- Every settled record has its item, and the last of an id its verdict. -/
structure Complete (w : Worker σ F D) (seen : List (SqsRecord × σ)) (t : EventTable) : Prop where
  told : AllTold (Saved w seen) (Reported w seen) t
  entries : ∀ x ∈ seen, (w.entry x.1 x.2).item.key ∈ t.items.map EventItem.key
  verdicts : ∀ id p, lastWith (w.verdicts seen) id = some p → p.outcomesJson.isSome = true →
    Tells w seen t p

theorem complete_empty (w : Worker σ F D) : Complete w [] EventTable.empty where
  told _ hi := absurd hi List.not_mem_nil
  entries _ hx := absurd hx List.not_mem_nil
  verdicts id p hp := by
    have hnone : lastWith (w.verdicts []) id = none := rfl
    rw [hnone] at hp
    cases hp

/-- A verdict stays told while other records are settled. -/
theorem Tells.other {t : EventTable} {record : SqsRecord} {s : σ} {u : UpdateArgs}
    {p : Processed F} (h : Tells w seen t p) (hid : p.id ≠ record.id)
    {base : EventItem} (hbase : base.id = record.id)
    (hmem : base ∈ (t.put (w.entry record s).item).items) :
    ∃ x ∈ seen, x.1.id = p.id ∧ ∃ v, Reports v p ∧ (w.entry x.1 x.2).item.update v ∈
      EventTable.updateItems base.key u (t.put (w.entry record s).item).items := by
  obtain ⟨x, hx, hxid, v, hv, hi⟩ := h
  have hkey : ((w.entry x.1 x.2).item.update v).key ≠ (w.entry record s).item.key := by
    intro hk
    exact hid (hxid ▸ entry_key w (x := x) (y := (record, s)) hk)
  have hput := EventTable.mem_put_of_ne hi hkey
  refine ⟨x, hx, hxid, v, hv, EventTable.mem_updateItems_of_ne hput ?_⟩
  intro hk
  have hsame := List.inj_on_of_nodup_map (t.put (w.entry record s).item).keys_nodup hput hmem hk
  refine hid ?_
  rw [← hxid, ← entry_id w x.1 x.2, ← hbase, ← hsame]
  rfl

/-- A record that is settled leaves the log complete. -/
theorem Complete.step (index : IdIndex) {record : SqsRecord} {s : σ} {t : EventTable}
    (hok : (w.handleRecord none record s).1.isOk = true) (h : Complete w seen t) :
    Complete w (seen ++ [(record, s)])
      (w.logRecord (some (EventTable.repo index)) record s t).2 := by
  let a := (w.entry record s).item
  have hself : (record, s) ∈ seen ++ [(record, s)] :=
    List.mem_append_right _ (List.mem_singleton.mpr rfl)
  have htold : AllTold (Saved w (seen ++ [(record, s)])) (Reported w (seen ++ [(record, s)]))
      (t.put a) :=
    AllTold.put (fun i hi => (h.told i hi).mono (fun _ ha => ha.more _) fun _ hu => hu.more _)
      ⟨(record, s), hself, rfl⟩
  have hentries : ∀ x ∈ seen ++ [(record, s)],
      (w.entry x.1 x.2).item.key ∈ (t.put a).items.map EventItem.key := by
    intro x hx
    rw [EventTable.mem_put_keys]
    rcases List.mem_append.mp hx with hold | hnew
    · exact .inl (h.entries x hold)
    · rw [List.mem_singleton.mp hnew]
      exact .inr rfl
  have hlast : ∀ id p, lastWith (w.verdicts (seen ++ [(record, s)])) id = some p →
      p = w.process record s ∨ p.id ≠ record.id ∧ lastWith (w.verdicts seen) id = some p := by
    intro id p hp
    rw [Worker.verdicts, List.map_append] at hp
    by_cases hid : id = record.id
    · rw [hid] at hp
      exact .inl (Option.some.inj (hp.symm.trans (lastWith_concat_self _ (w.process record s))))
    · have hold := (lastWith_concat_ne _ (p := w.process record s) hid).symm.trans hp
      exact .inr ⟨(lastWith_id hold).symm ▸ hid, hold⟩
  rcases logRecord_writes hok with ⟨u, hu, hwrites⟩ | ⟨hundumped, hwrites⟩
  · have hmem : a ∈ (t.put a).withId u.id := by
      refine List.mem_filter.mpr ⟨List.mem_append_right _ (List.mem_singleton.mpr rfl), ?_⟩
      rw [hu.id]
      exact decide_eq_true (entry_id w record s)
    obtain ⟨base, hbase, hbid, hitems⟩ :=
      EventTable.updateStatus_items index (List.ne_nil_of_mem hmem)
    rw [hwrites]
    show Complete w _ (EventTable.updateStatus index u (t.put a)).2
    refine ⟨htold.update ⟨(record, s), hself, hu⟩ hbase hbid hitems, ?_, ?_⟩
    · rw [hitems, EventTable.updateItems_map EventItem.key fun _ _ => rfl]
      exact hentries
    · intro id p hp hdumped
      rcases hlast id p hp with rfl | ⟨hne, hold⟩
      · obtain ⟨b, ⟨x, hx, rfl⟩, hcases⟩ := htold base hbase
        have hentry : (w.entry x.1 x.2).id = base.id := by
          rcases hcases with rfl | ⟨_, -, -, rfl⟩ <;> rfl
        have hxid : x.1.id = record.id :=
          (entry_id w x.1 x.2).symm.trans (hentry.trans (hbid.trans hu.id))
        refine ⟨x, hx, hxid, u, hu, ?_⟩
        rw [hitems]
        have hup := EventTable.mem_updateItems_self (a := u) hbase
        rcases hcases with rfl | ⟨_, -, -, rfl⟩
        · exact hup
        · exact hup
      · obtain ⟨x, hx, hxid, v, hv, hi⟩ :=
          (h.verdicts id p hold hdumped).other (s := s) (u := u) hne (hbid.trans hu.id) hbase
        exact ⟨x, List.mem_append_left _ hx, hxid, v, hv, hitems ▸ hi⟩
  · rw [hwrites]
    refine ⟨htold, hentries, ?_⟩
    intro id p hp hdumped
    rcases hlast id p hp with rfl | ⟨hne, hold⟩
    · rw [hundumped] at hdumped
      cases hdumped
    · obtain ⟨x, hx, hxid, v, hv, hi⟩ := h.verdicts id p hold hdumped
      refine ⟨x, List.mem_append_left _ hx, hxid, v, hv, EventTable.mem_put_of_ne hi ?_⟩
      intro hk
      exact hne (hxid ▸ entry_key w (x := x) (y := (record, s)) hk)

/-- **The log keeps every record, and the last verdict on each id.** Where no call to the table
fails and the index does not lag, whichever of the items with an id it returns: after any run every
settled record has its item, and what became of the last record with an id, if its outcomes can be
dumped, is told by an item with that id. -/
theorem dynamo_complete (w : Worker σ F D) (index : IdIndex) (schedule : List (List SqsRecord))
    (s : σ) : Complete w (w.settledIn schedule s)
      (run (w.loggingTo (EventTable.repo index)).invoke (s, .empty) schedule).2 := by
  have hrun : Complete w ([] ++ w.settledIn schedule s)
      (run (w.loggingTo (EventTable.repo index)).invoke (s, .empty) schedule).2 :=
    run_log (P := Complete w) (fun _ _ _ _ hok h => h.step index hok) schedule (complete_empty w)
  exact hrun

end Table

end LingoAsync.Handler
