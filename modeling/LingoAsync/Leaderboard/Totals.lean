import LingoAsync.Leaderboard.Buckets
import LingoAsync.Ledger

/-!
# What the leaderboard holds

The table is a ledger: `update_item` with `ADD xp SET ttl` is a posting to the
item `(PK, SK)`, stamped with the time to live. Its postings are coherent, since
an item's key tells its period and the period its time to live
(`postings_coherent`); so the table does not depend on the order in which events
are handled, and each item holds the XP of one user, in one language, over one
period. `leaderboard_totals` says so of any events at any instants.
-/

namespace LingoAsync.Leaderboard

open LingoAsync.Text LingoAsync.Calendar LingoAsync.Contracts LingoAsync.Ledger

variable {F : Type}

/-! ## The table -/

/-- `PK` and `SK`. -/
abbrev Key := PyStr × PyStr

/-- `update_item`, as a posting. -/
def posting : Step F → Option (Posting Key Int)
  | .updateItem pk sk amount ttl => some ⟨(pk, sk), amount, ttl⟩
  | _ => none

/-- The leaderboard table, by the steps that succeeded. -/
def leaderboard (applied : List (Step F)) : Books Key Int :=
  (∅ : Books Key Int).postAll (applied.filterMap posting)

/-- The key of a user's item in a bucket. -/
def itemKey (bucket : PyStr) (userId : PyStr) : Key :=
  (py "BUCKET#" ++ bucket, py "USER#" ++ userId)

/-- **No two share an item**: an item's key tells the language, the period and the user. -/
theorem itemKey_eq_iff (scope scope' : Scope) (lang lang' userId userId' : PyStr) (t u : Instant) :
    itemKey (bucket scope lang t).1 userId = itemKey (bucket scope' lang' u).1 userId' ↔
      lang = lang' ∧ periodOf scope t = periodOf scope' u ∧ userId = userId' := by
  rw [itemKey, itemKey, Prod.mk.injEq, List.append_cancel_left_eq, List.append_cancel_left_eq,
    bucket_eq_iff, and_assoc]

/-! ## Postings -/

/-- What an event that counts posts in one scope. -/
def post (scope : Scope) (now : Instant) (event : XpAwardedMessage) : Posting Key Int :=
  ⟨itemKey (bucket scope (eventLang event) now).1 event.userId, event.amount,
    (bucket scope (eventLang event) now).2⟩

/-- What an event posts. -/
def posts (now : Instant) (event : XpAwardedMessage) : List (Posting Key Int) :=
  if Counts event then [post .weekly now event, post .monthly now event] else []

/-- What some events post, each at its instant. -/
def postings (pairs : List (XpAwardedMessage × Instant)) : List (Posting Key Int) :=
  pairs.flatMap fun pair => posts pair.2 pair.1

theorem filterMap_boardSteps (now : Instant) (event : XpAwardedMessage) :
    ((if Counts event then boardSteps now event else [] : List (Step F))).filterMap posting =
      posts now event := by
  unfold posts
  split <;> rfl

theorem mem_posts {now : Instant} {event : XpAwardedMessage} {p : Posting Key Int} :
    p ∈ posts now event ↔ Counts event ∧ ∃ scope, p = post scope now event := by
  unfold posts
  split
  · rename_i h
    constructor
    · intro hp
      rcases List.mem_cons.mp hp with rfl | hp
      · exact ⟨h, .weekly, rfl⟩
      · exact ⟨h, .monthly, List.mem_singleton.mp hp⟩
    · intro hp
      obtain ⟨_, scope, rfl⟩ := hp
      cases scope
      · exact List.mem_cons_self
      · exact List.mem_cons_of_mem _ List.mem_cons_self
  · rename_i h
    refine iff_of_false (List.not_mem_nil) ?_
    intro hp
    exact h hp.1

theorem mem_postings {pairs : List (XpAwardedMessage × Instant)} {p : Posting Key Int} :
    p ∈ postings pairs ↔ ∃ pair ∈ pairs, Counts pair.1 ∧ ∃ scope, p = post scope pair.2 pair.1 := by
  simp only [postings, List.mem_flatMap, mem_posts]

/-- Items of one key have one time to live: the key tells the period. -/
theorem postings_coherent (pairs : List (XpAwardedMessage × Instant)) :
    Coherent (postings pairs) := by
  intro p hp q hq hkey
  obtain ⟨a, _, _, scope, rfl⟩ := mem_postings.mp hp
  obtain ⟨b, _, _, scope', rfl⟩ := mem_postings.mp hq
  obtain ⟨_, hperiod, _⟩ := (itemKey_eq_iff _ _ _ _ _ _ _ _).mp hkey
  show (bucket scope _ _).2 = (bucket scope' _ _).2
  rw [bucket_ttl, bucket_ttl, hperiod]

/-! ## Totals -/

/-- The event is the user's, in the language, in the period, and it counts. -/
def Counted (lang userId : PyStr) (period : Period) (pair : XpAwardedMessage × Instant) : Prop :=
  Counts pair.1 ∧ pair.1.userId = userId ∧ eventLang pair.1 = lang ∧ period.Contains pair.2

instance (lang userId : PyStr) (period : Period) : DecidablePred (Counted lang userId period) :=
  fun pair => by
    unfold Counted Period.Contains
    cases period <;> infer_instance

/-- What the item of a user in a language over a period should hold, if there should be
one: the amounts of the events that count, and 30 days after the period's last second. -/
def expected (pairs : List (XpAwardedMessage × Instant)) (lang userId : PyStr) (period : Period) :
    Option (Account Int) :=
  let counted := pairs.filter (Counted lang userId period)
  if counted = [] then none
  else some ⟨(counted.map (·.1.amount)).sum, period.lastSecond + 30 * 86400⟩

/-- An event posts to the item of a period it counts in, and to no other. -/
theorem postedTo_posts (scope : Scope) (lang userId : PyStr) (t : Instant)
    (pair : XpAwardedMessage × Instant) :
    postedTo (posts pair.2 pair.1) (itemKey (bucket scope lang t).1 userId) =
      if Counted lang userId (periodOf scope t) pair then [post scope pair.2 pair.1] else [] := by
  unfold posts
  by_cases hcounts : Counts pair.1
  · have hkey : ∀ scope', (post scope' pair.2 pair.1).key = itemKey (bucket scope lang t).1 userId ↔
        scope' = scope ∧ Counted lang userId (periodOf scope t) pair := by
      intro scope'
      rw [post, itemKey_eq_iff, Counted, contains_periodOf]
      constructor
      · intro h
        obtain ⟨hlang, hperiod, huser⟩ := h
        obtain rfl := scope_of_periodOf hperiod
        exact ⟨rfl, hcounts, huser, hlang, hperiod⟩
      · intro h
        obtain ⟨rfl, -, huser, hlang, hperiod⟩ := h
        exact ⟨hlang, hperiod, huser⟩
    rw [if_pos hcounts, postedTo]
    by_cases hk : Counted lang userId (periodOf scope t) pair
    · -- of its two postings the one of this scope
      rw [if_pos hk]
      cases scope <;> simp [hkey, hk]
    · simp [hkey, hk]
  · rw [if_neg hcounts, if_neg fun h => hcounts h.1]
    rfl

/-- What is posted to an item is what the events that count there post. -/
theorem postedTo_postings (scope : Scope) (lang userId : PyStr) (t : Instant)
    (pairs : List (XpAwardedMessage × Instant)) :
    postedTo (postings pairs) (itemKey (bucket scope lang t).1 userId) =
      (pairs.filter (Counted lang userId (periodOf scope t))).map
        fun pair => post scope pair.2 pair.1 := by
  induction pairs with
  | nil => rfl
  | cons pair pairs ih =>
    have happend : postedTo (postings (pair :: pairs)) (itemKey (bucket scope lang t).1 userId) =
        postedTo (posts pair.2 pair.1) (itemKey (bucket scope lang t).1 userId) ++
          postedTo (postings pairs) (itemKey (bucket scope lang t).1 userId) := by
      rw [postings, List.flatMap_cons, postedTo, List.filter_append]
      rfl
    rw [happend, ih, postedTo_posts, List.filter_cons]
    by_cases hk : Counted lang userId (periodOf scope t) pair
    · rw [if_pos hk, if_pos (by simpa using hk)]
      rfl
    · rw [if_neg hk, if_neg (by simpa using hk)]
      rfl

/-- **The items** of the table after some postings. -/
theorem lookup_postings (scope : Scope) (lang userId : PyStr) (t : Instant)
    (pairs : List (XpAwardedMessage × Instant)) :
    ((∅ : Books Key Int).postAll (postings pairs)).lookup
        (itemKey (bucket scope lang t).1 userId) =
      expected pairs lang userId (periodOf scope t) := by
  have hposted := postedTo_postings scope lang userId t pairs
  rw [lookup_postAll, posted, hposted, expected]
  generalize hcounted : pairs.filter (Counted lang userId (periodOf scope t)) = counted
  rw [List.map_map, List.getLast?_map]
  cases hlast : counted.getLast? with
  | none =>
    rw [if_pos (List.getLast?_eq_none_iff.mp hlast)]
    rfl
  | some pair =>
    have hne : counted ≠ [] := by
      intro hnil
      rw [hnil] at hlast
      cases hlast
    have hmem := List.mem_of_getLast? hlast
    rw [← hcounted, List.mem_filter, decide_eq_true_eq] at hmem
    have hperiod := (contains_periodOf scope t pair.2).mp hmem.2.2.2.2
    rw [if_neg hne, ← hperiod, ← bucket_ttl scope (eventLang pair.1) pair.2]
    rfl

/-! ## Handling events -/

/-- `update_leaderboard` of each event, its clock showing the event's instant. -/
def updateAll (out : Outside F) : List (XpAwardedMessage × Instant) → Py (World F) Unit
  | [] => pure ()
  | pair :: pairs => do
    let _ ← (updateLeaderboard pair.1).run (outside { out with clock := fun _ => pair.2 })
    updateAll out pairs

/-- If every write succeeds, the table is the one the postings make. -/
theorem updateAll_applied (out : Outside F) (pairs : List (XpAwardedMessage × Instant))
    (w : World F) (h : (updateAll out pairs w).1 = .ok ()) :
    (updateAll out pairs w).2.applied.filterMap posting =
      w.applied.filterMap posting ++ postings pairs := by
  induction pairs generalizing w with
  | nil => exact (List.append_nil _).symm
  | cons pair pairs ih =>
    have hperforms := updateLeaderboard_performs { out with clock := fun _ => pair.2 } pair.1 w
    rw [updateAll] at h ⊢
    cases hupdate :
        (updateLeaderboard pair.1).run (outside { out with clock := fun _ => pair.2 }) w with
    | mk r w' =>
      cases r with
      | error exc =>
        rw [Action.bind_error hupdate] at h
        cases h
      | ok actions =>
        rw [Action.bind_ok hupdate] at h ⊢
        have hledger := hperforms.ledger
        rw [hperforms.returns.mp ⟨actions, by rw [hupdate]⟩, hupdate] at hledger
        have happlied : w'.applied.filterMap posting =
            w.applied.filterMap posting ++ posts pair.2 pair.1 := by
          rw [← filterMap_boardSteps (F := F), ← List.filterMap_append]
          exact congrArg (List.filterMap posting) hledger
        rw [ih w' h, happlied, List.append_assoc]
        rfl

/-- Where nothing fails, every event is handled. -/
theorem updateAll_ok {out : Outside F} (hout : ∀ n call, (out.answer n call).isOk = true)
    (pairs : List (XpAwardedMessage × Instant)) (w : World F) :
    (updateAll out pairs w).1 = .ok () := by
  have hreached : ∀ (out' : Outside F), out'.answer = out.answer → ∀ n (plan : List (Step F)),
      out'.tape.reached n plan = plan := by
    intro out' hanswer n plan
    induction plan generalizing n with
    | nil => rfl
    | cons step plan ih =>
      have hsucceeds : out'.tape.succeeds n step = true := by
        show (out'.answer n (.step step)).isOk = true
        rw [hanswer]
        exact hout n _
      rw [Action.Tape.reached, if_pos hsucceeds, ih]
  induction pairs generalizing w with
  | nil => rfl
  | cons pair pairs ih =>
    have hperforms := updateLeaderboard_performs { out with clock := fun _ => pair.2 } pair.1 w
    obtain ⟨actions, hok⟩ := hperforms.returns.mpr (hreached _ rfl _ _)
    rw [updateAll, Action.bind_ok (Prod.ext hok rfl)]
    exact ih _

/-- The table after some events were handled, from an empty one. -/
def tableOf (out : Outside F) (pairs : List (XpAwardedMessage × Instant)) : Books Key Int :=
  leaderboard (updateAll out pairs World.start).2.applied

theorem tableOf_eq {out : Outside F} {pairs : List (XpAwardedMessage × Instant)}
    (h : (updateAll out pairs World.start).1 = .ok ()) :
    tableOf out pairs = (∅ : Books Key Int).postAll (postings pairs) := by
  rw [tableOf, leaderboard, updateAll_applied out pairs World.start h]
  rfl

/-- **Exact totals, in any order.** If every write succeeds, each item of the table holds what
it should, there are no other items, and the events handled in any other order give the
same table. And no two languages, periods or users share an item. -/
theorem leaderboard_totals (out : Outside F) (pairs : List (XpAwardedMessage × Instant))
    (h : (updateAll out pairs World.start).1 = .ok ()) :
    (∀ scope lang userId t, (tableOf out pairs).lookup (itemKey (bucket scope lang t).1 userId) =
      expected pairs lang userId (periodOf scope t)) ∧
    (∀ key ∈ tableOf out pairs, ∃ scope lang userId t,
      key = itemKey (bucket scope lang t).1 userId) ∧
    (∀ (out' : Outside F) (pairs' : List (XpAwardedMessage × Instant)), pairs'.Perm pairs →
      (updateAll out' pairs' World.start).1 = .ok () → tableOf out' pairs' = tableOf out pairs) ∧
    ∀ scope scope' lang lang' userId userId' t u,
      itemKey (bucket scope lang t).1 userId = itemKey (bucket scope' lang' u).1 userId' ↔
        lang = lang' ∧ periodOf scope t = periodOf scope' u ∧ userId = userId' := by
  refine ⟨?_, ?_, ?_, itemKey_eq_iff⟩
  · intro scope lang userId t
    rw [tableOf_eq h]
    exact lookup_postings scope lang userId t pairs
  · intro key hkey
    -- an item that is there was posted to
    by_contra hno
    rw [tableOf_eq h] at hkey
    refine Finmap.lookup_eq_none.mp (lookup_postAll_none ?_) hkey
    intro p hp he
    obtain ⟨pair, _, _, scope, rfl⟩ := mem_postings.mp hp
    exact hno ⟨scope, eventLang pair.1, pair.1.userId, pair.2, he.symm⟩
  · intro out' pairs' hperm h'
    rw [tableOf_eq h, tableOf_eq h']
    exact postAll_perm (postings_coherent pairs') (hperm.flatMap_right _)

/-- An outside in which nothing fails. -/
def allAnswering : Outside Unit where
  clock _ := .noon
  answer _ _ := .ok .null

/-- A lesson's XP in Korean. -/
def koreanXp (amount : Nat) : XpAwardedMessage where
  userId := py "u1"
  amount := amount
  source := .lesson
  learningLanguageId := some (py " ko ")
  leaderboardOptIn := true
  amount_ge := Int.natCast_nonneg amount

/-- Two lessons at noon add up in the item of their week. -/
theorem leaderboard_totals_korean :
    (tableOf allAnswering [(koreanXp 10, .noon), (koreanXp 5, .noon)]).lookup
        (itemKey (bucket .weekly (py "ko") .noon).1 (py "u1")) =
      some ⟨15, (periodOf .weekly .noon).lastSecond + 30 * 86400⟩ := by
  have hok : (updateAll allAnswering [(koreanXp 10, .noon), (koreanXp 5, .noon)] World.start).1 =
      .ok () := updateAll_ok (fun _ _ => rfl) _ _
  rw [(leaderboard_totals allAnswering _ hok).1]
  decide +kernel

end LingoAsync.Leaderboard
