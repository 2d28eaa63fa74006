import Mathlib

/-!
# Ledgers

Accounts that are only ever added to. A posting adds an amount to the account of
its key, opening it if need be, and stamps it; the stamp is overwritten each time.

Additions commute and stamps do not, so the books after some postings depend on
their order, unless all the postings to an account carry one stamp (`Coherent`).
Then they do not (`postAll_perm`), and an account holds the sum of what was posted
to it under that stamp (`lookup_postAll_of_mem`). The sum over any set of accounts
grows with each posting to one of them by its amount (`sumWhere_post`).
-/

namespace LingoAsync.Ledger

variable {κ τ : Type} [DecidableEq κ]

/-- An amount for the account of a key, and the stamp to put on it. -/
structure Posting (κ τ : Type) where
  key : κ
  amount : Int
  stamp : τ
  deriving DecidableEq

structure Account (τ : Type) where
  total : Int
  stamp : τ
  deriving DecidableEq

/-- The open accounts. -/
abbrev Books (κ τ : Type) := Finmap fun _ : κ => Account τ

/-- What the account of `k` holds; an account not opened holds nothing. -/
def Books.balance (b : Books κ τ) (k : κ) : Int := (b.lookup k).elim 0 Account.total

def Books.post (b : Books κ τ) (p : Posting κ τ) : Books κ τ :=
  b.insert p.key ⟨b.balance p.key + p.amount, p.stamp⟩

def Books.postAll (b : Books κ τ) (ps : List (Posting κ τ)) : Books κ τ := ps.foldl Books.post b

theorem postAll_append (b : Books κ τ) (ps qs : List (Posting κ τ)) :
    b.postAll (ps ++ qs) = (b.postAll ps).postAll qs := List.foldl_append ..

theorem postAll_concat (b : Books κ τ) (ps : List (Posting κ τ)) (p : Posting κ τ) :
    b.postAll (ps ++ [p]) = (b.postAll ps).post p := postAll_append b ps [p]

theorem lookup_post_self (b : Books κ τ) (p : Posting κ τ) :
    (b.post p).lookup p.key = some ⟨b.balance p.key + p.amount, p.stamp⟩ :=
  Finmap.lookup_insert b

theorem lookup_post_ne (b : Books κ τ) {p : Posting κ τ} {k : κ} (h : k ≠ p.key) :
    (b.post p).lookup k = b.lookup k :=
  Finmap.lookup_insert_of_ne b h

/-! ## The accounts after some postings -/

/-- The postings to one account. -/
def postedTo (ps : List (Posting κ τ)) (k : κ) : List (Posting κ τ) := ps.filter (·.key = k)

/-- What was posted to it. -/
def posted (ps : List (Posting κ τ)) (k : κ) : Int := ((postedTo ps k).map (·.amount)).sum

theorem postedTo_concat_self (ps : List (Posting κ τ)) (p : Posting κ τ) :
    postedTo (ps ++ [p]) p.key = postedTo ps p.key ++ [p] := by
  simp [postedTo]

theorem postedTo_concat_ne (ps : List (Posting κ τ)) {p : Posting κ τ} {k : κ} (h : k ≠ p.key) :
    postedTo (ps ++ [p]) k = postedTo ps k := by
  simp [postedTo, h.symm]

/-- **An account** after some postings: never opened, or the sum of what was posted to it,
under the stamp of the last. -/
theorem lookup_postAll (ps : List (Posting κ τ)) (k : κ) :
    ((∅ : Books κ τ).postAll ps).lookup k =
      (postedTo ps k).getLast?.map fun last => ⟨posted ps k, last.stamp⟩ := by
  induction ps using List.reverseRecOn with
  | nil => rfl
  | append_singleton ps p ih =>
    rw [postAll_concat]
    by_cases hk : k = p.key
    · subst hk
      have hbalance : ((∅ : Books κ τ).postAll ps).balance p.key = posted ps p.key := by
        rw [Books.balance, ih, posted]
        cases hlast : (postedTo ps p.key).getLast? with
        | none =>
          rw [List.getLast?_eq_none_iff.mp hlast]
          rfl
        | some last => rfl
      rw [lookup_post_self, hbalance, postedTo_concat_self, List.getLast?_concat, posted, posted,
        postedTo_concat_self, List.map_append, List.sum_append]
      simp
    · rw [lookup_post_ne _ hk, ih, posted, posted, postedTo_concat_ne ps hk]

/-- Postings to one account carry one stamp. -/
def Coherent (ps : List (Posting κ τ)) : Prop :=
  ∀ p ∈ ps, ∀ q ∈ ps, p.key = q.key → p.stamp = q.stamp

omit [DecidableEq κ] in
theorem Coherent.perm {ps qs : List (Posting κ τ)} (h : Coherent ps) (hperm : ps.Perm qs) :
    Coherent qs := by
  intro p hp q hq
  exact h p (hperm.mem_iff.mpr hp) q (hperm.mem_iff.mpr hq)

theorem mem_postedTo {ps : List (Posting κ τ)} {k : κ} {p : Posting κ τ} :
    p ∈ postedTo ps k ↔ p ∈ ps ∧ p.key = k := by
  rw [postedTo, List.mem_filter, decide_eq_true_eq]

/-- An account nothing was posted to is not open. -/
theorem lookup_postAll_none {ps : List (Posting κ τ)} {k : κ} (h : ∀ p ∈ ps, p.key ≠ k) :
    ((∅ : Books κ τ).postAll ps).lookup k = none := by
  have hnil : postedTo ps k = [] := by
    refine List.eq_nil_iff_forall_not_mem.mpr ?_
    intro p hp
    obtain ⟨hmem, hkey⟩ := mem_postedTo.mp hp
    exact h p hmem hkey
  rw [lookup_postAll, hnil]
  rfl

/-- **The account of a posting**: the sum of all that went there, and its stamp. -/
theorem lookup_postAll_of_mem {ps : List (Posting κ τ)} (h : Coherent ps) {p : Posting κ τ}
    (hp : p ∈ ps) :
    ((∅ : Books κ τ).postAll ps).lookup p.key = some ⟨posted ps p.key, p.stamp⟩ := by
  rw [lookup_postAll]
  cases hlast : (postedTo ps p.key).getLast? with
  | none =>
    have hmem : p ∈ postedTo ps p.key := mem_postedTo.mpr ⟨hp, rfl⟩
    rw [List.getLast?_eq_none_iff.mp hlast] at hmem
    cases hmem
  | some last =>
    obtain ⟨hmem, hkey⟩ := mem_postedTo.mp (List.mem_of_getLast? hlast)
    rw [← h last hmem p hp hkey]
    rfl

/-- **The order of the postings does not matter**, if they are coherent. -/
theorem postAll_perm {ps qs : List (Posting κ τ)} (h : Coherent ps) (hperm : ps.Perm qs) :
    (∅ : Books κ τ).postAll ps = (∅ : Books κ τ).postAll qs := by
  refine Finmap.ext_lookup ?_
  intro k
  by_cases hk : ∃ p ∈ ps, p.key = k
  · obtain ⟨p, hp, rfl⟩ := hk
    have hsum : posted ps p.key = posted qs p.key := ((hperm.filter _).map _).sum_eq
    rw [lookup_postAll_of_mem h hp,
      lookup_postAll_of_mem (h.perm hperm) (hperm.mem_iff.mp hp), hsum]
  · have hps : ∀ p ∈ ps, p.key ≠ k := by
      intro p hp he
      exact hk ⟨p, hp, he⟩
    have hqs : ∀ q ∈ qs, q.key ≠ k := by
      intro q hq
      exact hps q (hperm.mem_iff.mpr hq)
    rw [lookup_postAll_none hps, lookup_postAll_none hqs]

/-! ## Sums over accounts -/

/-- What the accounts with `P` hold together. -/
def Books.sumWhere (b : Books κ τ) (P : κ → Prop) [DecidablePred P] : Int :=
  ((b.entries.filter fun e => P e.1).map fun e => e.2.total).sum

variable (P : κ → Prop) [DecidablePred P]

/-- An account put in where there was none. -/
theorem sumWhere_insert {b : Books κ τ} {k : κ} (h : k ∉ b) (a : Account τ) :
    Books.sumWhere (b.insert k a) P = b.sumWhere P + if P k then a.total else 0 := by
  rw [Books.sumWhere, Books.sumWhere, Finmap.entries_insert_of_notMem h, Multiset.filter_cons]
  by_cases hP : P k
  · rw [if_pos hP, if_pos hP, Multiset.map_add, Multiset.sum_add]
    simp [add_comm]
  · rw [if_neg hP, if_neg hP]
    simp

/-- Putting an account in is taking out the one of its key and putting the new one in. -/
theorem insert_erase (b : Books κ τ) (k : κ) (a : Account τ) :
    b.insert k a = (b.erase k).insert k a := by
  refine Finmap.ext_lookup ?_
  intro k'
  by_cases hk : k' = k
  · subst hk
    rw [Finmap.lookup_insert, Finmap.lookup_insert]
  · rw [Finmap.lookup_insert_of_ne _ hk, Finmap.lookup_insert_of_ne _ hk,
      Finmap.lookup_erase_ne hk]

/-- What the accounts with `P` hold, one account taken out. -/
theorem sumWhere_erase (b : Books κ τ) (k : κ) :
    b.sumWhere P = Books.sumWhere (b.erase k) P + if P k then b.balance k else 0 := by
  cases hlook : b.lookup k with
  | none =>
    have hsame : b.erase k = b := by
      refine Finmap.ext_lookup ?_
      intro k'
      by_cases hk : k' = k
      · subst hk
        rw [Finmap.lookup_erase, hlook]
      · rw [Finmap.lookup_erase_ne hk]
    rw [hsame, Books.balance, hlook]
    simp
  | some a =>
    have hsame : b.insert k a = b := by
      refine Finmap.ext_lookup ?_
      intro k'
      by_cases hk : k' = k
      · subst hk
        rw [Finmap.lookup_insert, hlook]
      · rw [Finmap.lookup_insert_of_ne _ hk]
    have hbalance : b.balance k = a.total := by
      rw [Books.balance, hlook]
      rfl
    rw [hbalance, ← sumWhere_insert P Finmap.notMem_erase_self a, ← insert_erase, hsame]

/-- **A posting** adds its amount to every sum its account is in. -/
theorem sumWhere_post (b : Books κ τ) (p : Posting κ τ) :
    (b.post p).sumWhere P = b.sumWhere P + if P p.key then p.amount else 0 := by
  rw [Books.post, insert_erase, sumWhere_insert P Finmap.notMem_erase_self,
    sumWhere_erase P b p.key, add_assoc]
  by_cases hP : P p.key
  · rw [if_pos hP, if_pos hP, if_pos hP]
  · rw [if_neg hP, if_neg hP, if_neg hP]
    rfl

end LingoAsync.Ledger
