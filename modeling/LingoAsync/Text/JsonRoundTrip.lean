import Mathlib.Data.Nat.Digits.Lemmas
import LingoAsync.Text.Loads

/-!
# `json.loads` and `json.dumps` agree

`loads_dumps`: `loads` undoes `dumps`, with either choice of escaping and of
separators, on every value nested within the limit whose strings are valid
Unicode. Lone surrogates are excluded because two of them side by side print as
one pair, which reads back as one character.

For floats the round trip is the language's own promise (`float(repr(x)) == x`,
and `repr(x)` is a JSON number or one of the three words), so it is an
assumption here: `LawfulPyFloat`.
-/

namespace LingoAsync.Text.Json

variable {F : Type}

/-- What can follow a number: nothing that would make it longer. -/
def Terminated (rest : PyStr) : Prop :=
  ∀ c, rest.head? = some c → isDigit c = false ∧ c ≠ 46 ∧ c ≠ 101 ∧ c ≠ 69

theorem terminated_nil : Terminated [] := by simp [Terminated]

theorem terminated_cons {c : Nat} (rest : PyStr) (h1 : isDigit c = false) (h2 : c ≠ 46)
    (h3 : c ≠ 101) (h4 : c ≠ 69) : Terminated (c :: rest) := by
  intro d hd
  obtain rfl : c = d := by simpa using hd
  exact ⟨h1, h2, h3, h4⟩

/-- `float(repr(x)) == x`, and what `json.dumps` prints for a float is a token the
scanner reads as a float. -/
class LawfulPyFloat (F : Type) [PyFloat F] : Prop where
  scan_repr : ∀ (x : F) (rest : PyStr), Terminated rest →
    scanScalar (PyFloat.repr x ++ rest) = .ok (.float x, rest)
  repr_head : ∀ x : F, ∃ c s, PyFloat.repr x = c :: s ∧
    (isDigit c = true ∨ c = 45 ∨ c = 73 ∨ c = 78)

/-- The one float token that starts with an `I`. -/
theorem repr_infinity [PyFloat F] [LawfulPyFloat F] {x : F} {s : PyStr}
    (h : PyFloat.repr x = 73 :: s) : PyFloat.repr x = py "Infinity" := by
  have hscan := LawfulPyFloat.scan_repr x [] terminated_nil
  rw [List.append_nil, h, scanScalar] at hscan
  split at hscan
  · rename_i r hfind
    obtain ⟨w, hw, hmap⟩ := List.exists_of_findSome?_eq_some hfind
    obtain ⟨t, ht, rfl⟩ := Option.map_eq_some_iff.mp hmap
    obtain ⟨-, rfl⟩ := Prod.mk.inj (Except.ok.inj hscan)
    unfold stripPrefix at ht
    split at ht
    · rename_i hprefix
      obtain ⟨rest, hrest⟩ := List.isPrefixOf_iff_prefix.mp hprefix
      simp only [words, List.mem_cons, List.not_mem_nil, or_false] at hw
      rcases hw with rfl | rfl | rfl | rfl | rfl | rfl
      · cases hrest
      · cases hrest
      · cases hrest
      · cases hrest
      · rw [← hrest, List.drop_left] at ht
        rw [h, ← hrest, Option.some.inj ht, List.append_nil]
      · cases hrest
    · cases ht
  · cases hscan

/-! ## Strings -/

theorem hexValue_hexDigit {n : Nat} (h : n < 16) : hexValue (hexDigit n) = some n := by
  unfold hexDigit hexValue
  by_cases h1 : n < 10
  · rw [if_pos h1, if_pos (by omega)]
    congr 1
  · rw [if_neg h1, if_neg (by omega), if_pos (by omega)]
    congr 1

/-- A `\u` escape reads its code unit. -/
theorem scanStr_unicodeEscape (pending : Option Nat) {u : Nat} (hu : u < 0x10000) (rest : PyStr) :
    scanStr pending .plain (unicodeEscape u ++ rest) =
      scanStr pending (.hex 0 (u / 16)) (hexDigit (u % 16) :: rest) := by
  have h1 := hexValue_hexDigit (n := u / 4096 % 16) (by omega)
  have h2 := hexValue_hexDigit (n := u / 256 % 16) (by omega)
  have h3 := hexValue_hexDigit (n := u / 16 % 16) (by omega)
  have hacc : ((0 * 16 + u / 4096 % 16) * 16 + u / 256 % 16) * 16 + u / 16 % 16 = u / 16 := by
    omega
  simp only [unicodeEscape, List.cons_append, List.nil_append]
  rw [scanStr, if_neg (by omega), if_neg (by omega), if_pos rfl, scanStr, if_pos rfl]
  rw [scanStr, h1]
  simp only
  rw [scanStr, h2]
  simp only
  rw [scanStr, h3]
  simp only
  rw [hacc]

theorem scanStr_hex_last (pending : Option Nat) (u : Nat) (rest : PyStr) :
    scanStr pending (.hex 0 (u / 16)) (hexDigit (u % 16) :: rest) =
      match pending with
      | some h =>
        if 0xDC00 ≤ u ∧ u ≤ 0xDFFF then
          emit (0x10000 + (h - 0xD800) * 1024 + (u - 0xDC00)) (scanStr none .plain rest)
        else if 0xD800 ≤ u ∧ u ≤ 0xDBFF then emit h (scanStr (some u) .plain rest)
        else emit h (emit u (scanStr none .plain rest))
      | none =>
        if 0xD800 ≤ u ∧ u ≤ 0xDBFF then scanStr (some u) .plain rest
        else emit u (scanStr none .plain rest) := by
  have h4 := hexValue_hexDigit (n := u % 16) (by omega)
  have hu : u / 16 * 16 + u % 16 = u := by omega
  cases pending with
  | none =>
    rw [scanStr, h4]
    simp only [hu]
  | some h =>
    rw [scanStr, h4]
    simp only [hu]

/-- A backslash and one letter. -/
theorem scanStr_short {e u : Nat} (hu : unescape e = some u) (he : e ≠ 117) (rest : PyStr) :
    scanStr none .plain (92 :: e :: rest) = emit u (scanStr none .plain rest) := by
  rw [scanStr, if_neg (by omega), if_neg (by omega), if_pos rfl, scanStr, if_neg he, hu]
  rfl

/-- Whatever way a character was escaped, it reads back. -/
theorem scanStr_escapeChar (b : Bool) {c : Nat} (hc : IsScalar c) (rest : PyStr) :
    scanStr none .plain (escapeChar b c ++ rest) = emit c (scanStr none .plain rest) := by
  unfold escapeChar
  by_cases h34 : c = 34
  · subst h34; exact scanStr_short rfl (by omega) rest
  by_cases h92 : c = 92
  · subst h92; exact scanStr_short rfl (by omega) rest
  by_cases h8 : c = 8
  · subst h8; exact scanStr_short rfl (by omega) rest
  by_cases h9 : c = 9
  · subst h9; exact scanStr_short rfl (by omega) rest
  by_cases h10 : c = 10
  · subst h10; exact scanStr_short rfl (by omega) rest
  by_cases h12 : c = 12
  · subst h12; exact scanStr_short rfl (by omega) rest
  by_cases h13 : c = 13
  · subst h13; exact scanStr_short rfl (by omega) rest
  rw [if_neg h34, if_neg h92, if_neg h8, if_neg h9, if_neg h10, if_neg h12, if_neg h13]
  have hunit : ¬ (0xD800 ≤ c ∧ c ≤ 0xDBFF) := by unfold IsScalar at hc; omega
  by_cases h32 : c < 32
  · rw [if_pos h32, scanStr_unicodeEscape none (by omega), scanStr_hex_last]
    simp only [if_neg hunit]
  rw [if_neg h32]
  by_cases hraw : c < 127 ∨ b = false
  · rw [if_pos hraw]
    show scanStr none .plain (c :: rest) = _
    rw [scanStr, if_neg h34, if_neg h32, if_neg h92]
    rfl
  rw [if_neg hraw]
  by_cases hbmp : c < 0x10000
  · rw [if_pos hbmp, scanStr_unicodeEscape none hbmp, scanStr_hex_last]
    simp only [if_neg hunit]
  · -- an astral character: a surrogate pair that the scanner joins again
    rw [if_neg hbmp, List.append_assoc]
    unfold IsScalar at hc
    rw [scanStr_unicodeEscape none (by omega), scanStr_hex_last]
    simp only
    rw [if_pos (by omega), scanStr_unicodeEscape _ (by omega), scanStr_hex_last]
    simp only
    have hval : 0x10000 + (0xD800 + (c - 0x10000) / 1024 - 0xD800) * 1024
        + (0xDC00 + (c - 0x10000) % 1024 - 0xDC00) = c := by omega
    rw [if_pos (by omega), hval]

/-- A printed string literal reads back. -/
theorem scanStr_flatMap (b : Bool) (rest : PyStr) {s : PyStr} (h : IsUnicode s) :
    scanStr none .plain (s.flatMap (escapeChar b) ++ 34 :: rest) = some (s, rest) := by
  induction s with
  | nil => simp [scanStr, flush]
  | cons c s ih =>
    obtain ⟨hc, hs⟩ := isUnicode_cons.mp h
    rw [List.flatMap_cons, List.append_assoc, scanStr_escapeChar b hc, ih hs]
    rfl

theorem scanStr_dumpsStr (o : DumpsOptions) {s : PyStr} (hs : IsUnicode s) (rest : PyStr) :
    ∃ r, dumpsStr o s ++ rest = 34 :: r ∧ scanStr none .plain r = some (s, rest) := by
  refine ⟨s.flatMap (escapeChar o.ensureAscii) ++ 34 :: rest, ?_, scanStr_flatMap _ rest hs⟩
  simp [dumpsStr]

/-! ## Integers -/

theorem takeWhile_append_of_terminated {s rest : PyStr} (hs : ∀ c ∈ s, isDigit c = true)
    (hrest : Terminated rest) :
    (s ++ rest).takeWhile isDigit = s ∧ (s ++ rest).dropWhile isDigit = rest := by
  have hhead : rest.takeWhile isDigit = [] ∧ rest.dropWhile isDigit = rest := by
    cases rest with
    | nil => exact ⟨rfl, rfl⟩
    | cons c r =>
      have := (hrest c rfl).1
      simp [this]
  rw [List.takeWhile_append_of_pos hs, List.dropWhile_append_of_pos hs, hhead.1, hhead.2,
    List.append_nil]
  exact ⟨rfl, rfl⟩

theorem natOfDigits_digits (ds : List Nat) :
    natOfDigits (ds.reverse.map (· + 48)) = Nat.ofDigits 10 ds := by
  induction ds with
  | nil => rfl
  | cons d ds ih =>
    rw [List.reverse_cons, List.map_append, List.map_cons, List.map_nil, natOfDigits_concat,
      ih, Nat.ofDigits_cons, Nat.add_sub_cancel]
    omega

/-- The digits of a natural number: no leading zero, and their value. -/
theorem scanWhole_dumpsNat (n : Nat) {rest : PyStr} (hrest : Terminated rest) :
    scanWhole (dumpsNat n ++ rest) = some (dumpsNat n, rest) ∧ natOfDigits (dumpsNat n) = n := by
  unfold dumpsNat
  by_cases h0 : n = 0
  · rw [if_pos h0, h0]
    exact ⟨rfl, rfl⟩
  rw [if_neg h0]
  refine ⟨?_, by rw [natOfDigits_digits, Nat.ofDigits_digits]⟩
  have hne : Nat.digits 10 n ≠ [] := Nat.digits_ne_nil_iff_ne_zero.mpr h0
  have hlast := Nat.getLast_digit_ne_zero 10 h0
  have hlt : ∀ d ∈ Nat.digits 10 n, d < 10 := by
    intro d hd
    exact Nat.digits_lt_base (by omega) hd
  obtain ⟨ds, d, hds⟩ : ∃ ds d, Nat.digits 10 n = ds ++ [d] :=
    ⟨_, _, (List.dropLast_append_getLast hne).symm⟩
  have hd : d ≠ 0 ∧ d < 10 := by
    refine ⟨?_, hlt d (by simp [hds])⟩
    simpa [hds] using hlast
  rw [hds, List.reverse_append, List.reverse_singleton, List.singleton_append, List.map_cons,
    List.cons_append]
  have hdig : isDigit (d + 48) = true := by
    simp only [isDigit, Bool.and_eq_true, decide_eq_true_eq]
    omega
  have hall : ∀ c ∈ ds.reverse.map (· + 48), isDigit c = true := by
    intro c hc
    obtain ⟨e, he, rfl⟩ := List.mem_map.mp hc
    have := hlt e (by rw [hds]; exact List.mem_append_left _ (List.mem_reverse.mp he))
    simp only [isDigit, Bool.and_eq_true, decide_eq_true_eq]
    omega
  obtain ⟨htake, hdrop⟩ := takeWhile_append_of_terminated hall hrest
  rw [scanWhole, if_neg (by omega), if_pos hdig, htake, hdrop]

theorem dumpsNat_head (n : Nat) : ∃ c s, dumpsNat n = c :: s ∧ isDigit c = true := by
  obtain ⟨h, -⟩ := scanWhole_dumpsNat n terminated_nil
  rw [List.append_nil] at h
  cases hs : dumpsNat n with
  | nil => rw [hs] at h; simp [scanWhole] at h
  | cons c s =>
    refine ⟨c, s, rfl, ?_⟩
    rw [hs, scanWhole] at h
    by_cases h48 : c = 48
    · subst h48; rfl
    · by_contra hd
      rw [if_neg h48, if_neg hd] at h
      cases h

theorem scanFrac_of_terminated {rest : PyStr} (h : Terminated rest) :
    scanFrac rest = ([], rest) := by
  cases rest with
  | nil => rfl
  | cons c r =>
    have hc := (h c rfl).2.1
    unfold scanFrac
    split
    · rename_i heq
      exact absurd (List.cons.inj heq).1 hc
    · rfl

theorem scanExp_of_terminated {rest : PyStr} (h : Terminated rest) :
    scanExp rest = ([], rest) := by
  cases rest with
  | nil => rfl
  | cons c r =>
    obtain ⟨_, _, h3, h4⟩ := h c rfl
    rw [scanExp, if_neg (by omega)]

/-- A printed integer reads back, whatever ends it. -/
theorem scanNumber_dumpsInt [PyFloat F] {n : Int} (hn : intFits n = true) {rest : PyStr}
    (hrest : Terminated rest) :
    scanNumber (dumpsInt n ++ rest) = .ok ((.int n : Json F), rest) := by
  obtain ⟨hscan, hval⟩ := scanWhole_dumpsNat n.natAbs hrest
  simp only [intFits, decide_eq_true_eq] at hn
  unfold dumpsInt scanNumber
  by_cases hneg : n < 0
  · rw [if_pos hneg, List.cons_append]
    simp only [List.head?_cons, List.tail_cons, beq_self_eq_true, if_true]
    rw [hscan]
    simp only [scanFrac_of_terminated hrest, scanExp_of_terminated hrest, and_self, if_true,
      if_pos hn, hval]
    congr 3
    omega
  · rw [if_neg hneg]
    obtain ⟨c, s, hcs, hc⟩ := dumpsNat_head n.natAbs
    have hc45 : c ≠ 45 := by
      intro heq
      subst heq
      simp [isDigit] at hc
    have hhead : ((dumpsNat n.natAbs ++ rest).head? == some 45) = false := by
      rw [hcs]
      simpa using hc45
    simp only [hhead, Bool.false_eq_true, if_false]
    rw [hscan]
    simp only [scanFrac_of_terminated hrest, scanExp_of_terminated hrest, and_self, if_true,
      if_pos hn, hval]
    congr 3
    omega

/-- No word begins like a digit, or like a minus sign and a digit. -/
theorem scanScalar_digit [PyFloat F] {c : Nat} (hc : isDigit c = true) (s : PyStr) :
    scanScalar (F := F) (c :: s) = scanNumber (c :: s) := by
  simp only [isDigit, Bool.and_eq_true, decide_eq_true_eq] at hc
  have hw : ∀ w ∈ words (F := F), stripPrefix w.1 (c :: s) = none := by
    intro w hw
    simp only [words, List.mem_cons, List.not_mem_nil, or_false] at hw
    rcases hw with rfl | rfl | rfl | rfl | rfl | rfl <;>
      · refine if_neg ?_
        simp [py, List.isPrefixOf]
        omega
  unfold scanScalar
  rw [List.findSome?_eq_none_iff.mpr fun w hmem => by rw [hw w hmem]; rfl]

theorem scanScalar_minus [PyFloat F] {c : Nat} (hc : isDigit c = true) (s : PyStr) :
    scanScalar (F := F) (45 :: c :: s) = scanNumber (45 :: c :: s) := by
  simp only [isDigit, Bool.and_eq_true, decide_eq_true_eq] at hc
  have hw : ∀ w ∈ words (F := F), stripPrefix w.1 (45 :: c :: s) = none := by
    intro w hw
    simp only [words, List.mem_cons, List.not_mem_nil, or_false] at hw
    rcases hw with rfl | rfl | rfl | rfl | rfl | rfl <;>
      · refine if_neg ?_
        simp [py, List.isPrefixOf]
        try omega
  unfold scanScalar
  rw [List.findSome?_eq_none_iff.mpr fun w hmem => by rw [hw w hmem]; rfl]

theorem scanScalar_dumpsInt [PyFloat F] {n : Int} (hn : intFits n = true) {rest : PyStr}
    (hrest : Terminated rest) :
    scanScalar (dumpsInt n ++ rest) = .ok ((.int n : Json F), rest) := by
  rw [← scanNumber_dumpsInt hn hrest]
  obtain ⟨c, s, hcs, hc⟩ := dumpsNat_head n.natAbs
  unfold dumpsInt
  by_cases hneg : n < 0
  · rw [if_pos hneg, hcs]
    exact scanScalar_minus hc _
  · rw [if_neg hneg, hcs]
    exact scanScalar_digit hc _

/-! ## One value -/

/-- Every printed value starts with a character that is no blank and closes nothing. -/
theorem dumps_head [PyFloat F] [LawfulPyFloat F] (o : DumpsOptions) (j : Json F) :
    ∃ c s, j.dumps o = c :: s ∧ isBlank c = false ∧ c ≠ 93 ∧ c ≠ 125 ∧ c ≠ 0xFEFF := by
  have hdigit : ∀ {c : Nat}, isDigit c = true →
      isBlank c = false ∧ c ≠ 93 ∧ c ≠ 125 ∧ c ≠ 0xFEFF := by
    intro c hc
    simp only [isDigit, Bool.and_eq_true, decide_eq_true_eq] at hc
    simp only [isBlank, Bool.or_eq_false_iff, beq_eq_false_iff_ne, ne_eq]
    omega
  cases j with
  | null => exact ⟨110, py "ull", by rw [dumps]; rfl, by decide⟩
  | bool b =>
    cases b with
    | false => exact ⟨102, py "alse", by rw [dumps]; rfl, by decide⟩
    | true => exact ⟨116, py "rue", by rw [dumps]; rfl, by decide⟩
  | int n =>
    obtain ⟨c, s, hcs, hc⟩ := dumpsNat_head n.natAbs
    rw [dumps, dumpsInt]
    by_cases hneg : n < 0
    · rw [if_pos hneg]
      exact ⟨45, dumpsNat n.natAbs, rfl, by decide⟩
    · rw [if_neg hneg]
      exact ⟨c, s, hcs, hdigit hc⟩
  | float x =>
    obtain ⟨c, s, hcs, hc⟩ := LawfulPyFloat.repr_head x
    refine ⟨c, s, by rw [dumps, hcs], ?_⟩
    rcases hc with hc | rfl | rfl | rfl
    · exact hdigit hc
    · decide
    · decide
    · decide
  | str s => exact ⟨34, _, by rw [dumps, dumpsStr], by decide⟩
  | list xs => exact ⟨91, _, by rw [dumps], by decide⟩
  | dict kvs => exact ⟨123, _, by rw [dumps], by decide⟩

theorem skipBlanks_cons {c : Nat} (h : isBlank c = false) (s : PyStr) :
    skipBlanks (c :: s) = c :: s := by
  simp [skipBlanks, h]

/-- The blank after a separator is skipped. -/
theorem skipBlanks_gap (o : DumpsOptions) {c : Nat} (h : isBlank c = false) (s : PyStr) :
    skipBlanks (o.gap ++ c :: s) = c :: s := by
  unfold DumpsOptions.gap
  by_cases hs : o.spaced = true
  · rw [if_pos hs]
    exact skipBlanks_cons h s
  · rw [if_neg hs]
    exact skipBlanks_cons h s

theorem skipBlanks_gap_dumps [PyFloat F] [LawfulPyFloat F] (o : DumpsOptions) (j : Json F)
    (rest : PyStr) : skipBlanks (o.gap ++ (j.dumps o ++ rest)) = j.dumps o ++ rest := by
  obtain ⟨c, s, hcs, hc, -⟩ := dumps_head o j
  rw [hcs, List.cons_append, skipBlanks_gap o hc]

/-- A scanner reads back what was printed for `j`, whatever ends it. -/
def Reads [PyFloat F] (o : DumpsOptions) (item : Scanner F) (j : Json F) : Prop :=
  ∀ rest, Terminated rest → item (j.dumps o ++ rest) = .ok (j, rest)

theorem length_dumpsElems [PyFloat F] [LawfulPyFloat F] (o : DumpsOptions) :
    ∀ xs : List (Json F), xs.length ≤ (dumpsElems o xs).length
  | [] => Nat.zero_le _
  | [x] => by
    obtain ⟨c, s, hcs, -⟩ := dumps_head o x
    rw [dumpsElems, hcs]
    simp
  | x :: y :: xs => by
    have ih := length_dumpsElems o (y :: xs)
    rw [dumpsElems]
    simp only [List.length_cons, List.length_append] at ih ⊢
    omega

theorem length_dumpsMembers [PyFloat F] (o : DumpsOptions) :
    ∀ kvs : List (PyStr × Json F), kvs.length ≤ (dumpsMembers o kvs).length
  | [] => Nat.zero_le _
  | [(k, v)] => by
    rw [dumpsMembers]
    simp [dumpsStr]
  | (k, v) :: kv :: kvs => by
    have ih := length_dumpsMembers o (kv :: kvs)
    rw [dumpsMembers]
    simp only [List.length_cons, List.length_append] at ih ⊢
    omega

/-- The elements of a printed list read back, given a scanner that reads each. -/
theorem scanElems_dumps [PyFloat F] [LawfulPyFloat F] (o : DumpsOptions) (item : Scanner F)
    (rest : PyStr) : ∀ (xs : List (Json F)) (x : Json F) (fuel : Nat),
      xs.length < fuel → (∀ y ∈ x :: xs, Reads o item y) →
      scanElems item fuel (dumpsElems o (x :: xs) ++ 93 :: rest) = .ok (x :: xs, rest)
  | _, _, 0, hf, _ => absurd hf (Nat.not_lt_zero _)
  | [], x, fuel + 1, _, h => by
    -- the last element, ended by the bracket
    have hx := h x (by simp) (93 :: rest) (terminated_cons _ rfl (by omega) (by omega) (by omega))
    rw [dumpsElems, scanElems, hx]
    simp only [skipBlanks_cons (show isBlank 93 = false from rfl), if_true]
  | y :: xs, x, fuel + 1, hf, h => by
    -- one more to come, ended by a comma
    have hx := h x (by simp) (44 :: (o.gap ++ dumpsElems o (y :: xs) ++ 93 :: rest))
      (terminated_cons _ rfl (by omega) (by omega) (by omega))
    have ih := scanElems_dumps o item rest xs y fuel (by simpa using hf)
      fun z hz => h z (List.mem_cons_of_mem _ hz)
    obtain ⟨c, s, hcs, hc⟩ : ∃ c s, dumpsElems o (y :: xs) = c :: s ∧ isBlank c = false := by
      obtain ⟨c, s, hcs, hc, -⟩ := dumps_head o y
      cases xs with
      | nil => exact ⟨c, s, by rw [dumpsElems, hcs], hc⟩
      | cons z zs => exact ⟨c, _, by rw [dumpsElems, hcs, List.cons_append], hc⟩
    have hskip : skipBlanks (o.gap ++ dumpsElems o (y :: xs) ++ 93 :: rest)
        = dumpsElems o (y :: xs) ++ 93 :: rest := by
      rw [List.append_assoc, hcs, List.cons_append, skipBlanks_gap o hc]
    rw [dumpsElems, List.append_assoc, List.cons_append, scanElems, hx]
    simp only [skipBlanks_cons (show isBlank 44 = false from rfl)]
    rw [if_neg (by omega), if_pos trivial, hskip, ih]

/-- A printed key and its colon. -/
theorem scanKey_dumps (o : DumpsOptions) {k : PyStr} (hk : IsUnicode k) (rest : PyStr) :
    scanKey (dumpsStr o k ++ 58 :: rest) = some (k, skipBlanks rest) := by
  obtain ⟨r, hr, hscan⟩ := scanStr_dumpsStr o hk (58 :: rest)
  rw [hr, scanKey, if_pos rfl, hscan]
  simp only [skipBlanks_cons (show isBlank 58 = false from rfl), if_true]

theorem scanMembers_dumps [PyFloat F] [LawfulPyFloat F] (o : DumpsOptions) (item : Scanner F)
    (rest : PyStr) : ∀ (kvs : List (PyStr × Json F)) (kv : PyStr × Json F) (fuel : Nat),
      kvs.length < fuel → (∀ e ∈ kv :: kvs, IsUnicode e.1 ∧ Reads o item e.2) →
      scanMembers item fuel (dumpsMembers o (kv :: kvs) ++ 125 :: rest) = .ok (kv :: kvs, rest)
  | _, _, 0, hf, _ => absurd hf (Nat.not_lt_zero _)
  | [], (k, v), fuel + 1, _, h => by
    obtain ⟨hk, hv⟩ := h (k, v) (by simp)
    have hv := hv (125 :: rest) (terminated_cons _ rfl (by omega) (by omega) (by omega))
    rw [dumpsMembers, List.append_assoc, List.cons_append, List.append_assoc, scanMembers,
      scanKey_dumps o hk, skipBlanks_gap_dumps]
    simp only [hv, skipBlanks_cons (show isBlank 125 = false from rfl), if_true]
  | kv' :: kvs, (k, v), fuel + 1, hf, h => by
    obtain ⟨hk, hv⟩ := h (k, v) (by simp)
    have hv := hv (44 :: (o.gap ++ dumpsMembers o (kv' :: kvs) ++ 125 :: rest))
      (terminated_cons _ rfl (by omega) (by omega) (by omega))
    have ih := scanMembers_dumps o item rest kvs kv' fuel (by simpa using hf)
      fun e he => h e (List.mem_cons_of_mem _ he)
    obtain ⟨s, hs⟩ : ∃ s, dumpsMembers o (kv' :: kvs) = 34 :: s := by
      obtain ⟨k', v'⟩ := kv'
      cases kvs with
      | nil => exact ⟨_, by rw [dumpsMembers, dumpsStr, List.cons_append]⟩
      | cons e es => exact ⟨_, by rw [dumpsMembers, dumpsStr, List.cons_append]⟩
    have hskip : skipBlanks (o.gap ++ dumpsMembers o (kv' :: kvs) ++ 125 :: rest)
        = dumpsMembers o (kv' :: kvs) ++ 125 :: rest := by
      rw [List.append_assoc, hs, List.cons_append, skipBlanks_gap o rfl]
    have htext : dumpsMembers o ((k, v) :: kv' :: kvs) ++ 125 :: rest
        = dumpsStr o k ++ 58 :: (o.gap ++ (v.dumps o
            ++ 44 :: (o.gap ++ dumpsMembers o (kv' :: kvs) ++ 125 :: rest))) := by
      rw [dumpsMembers]
      simp only [List.append_assoc, List.cons_append]
    rw [htext, scanMembers, scanKey_dumps o hk, skipBlanks_gap_dumps]
    simp only [hv, skipBlanks_cons (show isBlank 44 = false from rfl)]
    rw [if_neg (by omega), if_pos trivial, hskip, ih]

theorem scanWith_str [PyFloat F] (o : DumpsOptions) (inner : Option (Scanner F)) {s : PyStr}
    (hs : IsUnicode s) : Reads o (scanWith inner) (.str s) := by
  intro rest _
  obtain ⟨r, hr, hscan⟩ := scanStr_dumpsStr o hs rest
  rw [dumps, hr, scanWith_cons, if_pos rfl, hscan]

/-- A scalar reads back at any depth. -/
theorem scanWith_scalar [PyFloat F] (inner : Option (Scanner F)) {s rest : PyStr} {j : Json F}
    {c : Nat} {t : PyStr} (hs : s = c :: t) (h34 : c ≠ 34) (h123 : c ≠ 123) (h91 : c ≠ 91)
    (h : scanScalar (s ++ rest) = .ok (j, rest)) : scanWith inner (s ++ rest) = .ok (j, rest) := by
  subst hs
  rw [List.cons_append] at h ⊢
  rw [scanWith_cons, if_neg h34, if_neg h123, if_neg h91]
  exact h

theorem scanWith_int [PyFloat F] (o : DumpsOptions) (inner : Option (Scanner F)) {n : Int}
    (hn : intFits n = true) : Reads o (scanWith inner) (.int n) := by
  intro rest hrest
  have hdigit : ∀ {c : Nat}, isDigit c = true → c ≠ 34 ∧ c ≠ 123 ∧ c ≠ 91 := by
    intro c hc
    simp only [isDigit, Bool.and_eq_true, decide_eq_true_eq] at hc
    omega
  have hscan := scanScalar_dumpsInt (F := F) hn hrest
  obtain ⟨c, s, hcs, hc⟩ := dumpsNat_head n.natAbs
  rw [dumps]
  by_cases hneg : n < 0
  · exact scanWith_scalar inner (by rw [dumpsInt, if_pos hneg]) (by omega) (by omega) (by omega)
      hscan
  · obtain ⟨h1, h2, h3⟩ := hdigit hc
    exact scanWith_scalar inner (by rw [dumpsInt, if_neg hneg, hcs]) h1 h2 h3 hscan

theorem scanWith_float [PyFloat F] [LawfulPyFloat F] (o : DumpsOptions)
    (inner : Option (Scanner F)) (x : F) : Reads o (scanWith inner) (.float x) := by
  intro rest hrest
  obtain ⟨c, s, hcs, hc⟩ := LawfulPyFloat.repr_head x
  have hne : c ≠ 34 ∧ c ≠ 123 ∧ c ≠ 91 := by
    rcases hc with hc | rfl | rfl | rfl
    · simp only [isDigit, Bool.and_eq_true, decide_eq_true_eq] at hc
      omega
    · omega
    · omega
    · omega
  rw [dumps]
  exact scanWith_scalar inner hcs hne.1 hne.2.1 hne.2.2 (LawfulPyFloat.scan_repr x rest hrest)

theorem scanWith_list [PyFloat F] [LawfulPyFloat F] (o : DumpsOptions) (item : Scanner F)
    {xs : List (Json F)} (h : ∀ x ∈ xs, Reads o item x) :
    Reads o (scanWith (some item)) (.list xs) := by
  intro rest _
  rw [dumps, List.cons_append, scanWith_cons, if_neg (by omega), if_neg (by omega), if_pos rfl]
  simp only [scanList]
  cases xs with
  | nil =>
    rw [dumpsElems]
    simp only [List.nil_append, List.cons_append,
      skipBlanks_cons (show isBlank 93 = false from rfl), if_true]
  | cons x xs =>
    have hlen := length_dumpsElems o (x :: xs)
    obtain ⟨c, s, hcs, hc, hc93⟩ : ∃ c s, dumpsElems o (x :: xs) = c :: s ∧
        isBlank c = false ∧ c ≠ 93 := by
      obtain ⟨c, s, hcs, hc, hc93, -⟩ := dumps_head o x
      cases xs with
      | nil => exact ⟨c, s, by rw [dumpsElems, hcs], hc, hc93⟩
      | cons z zs => exact ⟨c, _, by rw [dumpsElems, hcs, List.cons_append], hc, hc93⟩
    have hscan := scanElems_dumps o item rest xs x
      (dumpsElems o (x :: xs) ++ 93 :: rest).length (by
        simp only [List.length_append, List.length_cons] at hlen ⊢
        omega) h
    rw [List.append_assoc, List.singleton_append]
    rw [hcs, List.cons_append] at hscan ⊢
    simp only [skipBlanks_cons hc, if_neg hc93]
    rw [hscan]

theorem scanWith_dict [PyFloat F] [LawfulPyFloat F] (o : DumpsOptions) (item : Scanner F)
    {kvs : List (PyStr × Json F)} (hnodup : (kvs.map (·.1)).Nodup)
    (h : ∀ e ∈ kvs, IsUnicode e.1 ∧ Reads o item e.2) :
    Reads o (scanWith (some item)) (.dict kvs) := by
  intro rest _
  rw [dumps, List.cons_append, scanWith_cons, if_neg (by omega), if_pos rfl]
  simp only [scanDict]
  cases kvs with
  | nil =>
    rw [dumpsMembers]
    simp only [List.nil_append, List.cons_append,
      skipBlanks_cons (show isBlank 125 = false from rfl), if_true]
  | cons kv kvs =>
    have hlen := length_dumpsMembers o (kv :: kvs)
    obtain ⟨s, hs⟩ : ∃ s, dumpsMembers o (kv :: kvs) = 34 :: s := by
      obtain ⟨k, v⟩ := kv
      cases kvs with
      | nil => exact ⟨_, by rw [dumpsMembers, dumpsStr, List.cons_append]⟩
      | cons e es => exact ⟨_, by rw [dumpsMembers, dumpsStr, List.cons_append]⟩
    have hscan := scanMembers_dumps o item rest kvs kv
      (dumpsMembers o (kv :: kvs) ++ 125 :: rest).length (by
        simp only [List.length_append, List.length_cons] at hlen ⊢
        omega) h
    rw [List.append_assoc, List.singleton_append]
    rw [hs, List.cons_append] at hscan ⊢
    simp only [skipBlanks_cons (show isBlank 34 = false from rfl),
      if_neg (show (34 : Nat) ≠ 125 by omega)]
    rw [hscan]
    simp only [ofEntries_of_nodup hnodup]

/-- **The scanner reads back what the printer wrote**, at any depth that holds the
value. The induction is on the depth: the elements of a list or dict are read
with one level less. -/
theorem scanOnce_dumps [PyFloat F] [LawfulPyFloat F] (o : DumpsOptions) :
    ∀ (depth : Nat) {j : Json F}, Shaped IsUnicode depth j → Reads o (scanOnce depth) j := by
  intro depth
  -- a value without elements does not ask for the scanner one level down
  have hscalar : ∀ (inner : Option (Scanner F)) {j : Json F} (d : Nat), Shaped IsUnicode d j →
      (∀ xs, j ≠ .list xs) → (∀ kvs, j ≠ .dict kvs) → Reads o (scanWith inner) j := by
    intro inner j d h hlist hdict
    cases j with
    | null =>
      intro rest _
      exact rfl
    | bool b =>
      intro rest _
      cases b with
      | false => exact rfl
      | true => exact rfl
    | int n => exact scanWith_int o inner (by simpa [Shaped] using h)
    | float x => exact scanWith_float o inner x
    | str s => exact scanWith_str o inner (by simpa [Shaped] using h)
    | list xs => exact absurd rfl (hlist xs)
    | dict kvs => exact absurd rfl (hdict kvs)
  induction depth with
  | zero =>
    intro j h
    cases j with
    | list xs => exact absurd h (by simp [Shaped])
    | dict kvs => exact absurd h (by simp [Shaped])
    | _ => exact hscalar none 0 h (fun _ => by simp) (fun _ => by simp)
  | succ d ih =>
    intro j h
    cases j with
    | list xs => exact scanWith_list o _ fun x hx => ih (h x hx)
    | dict kvs => exact scanWith_dict o _ h.1 fun e he => ⟨(h.2 e he).1, ih (h.2 e he).2⟩
    | _ => exact hscalar _ (d + 1) h (fun _ => by simp) (fun _ => by simp)

/-- **`json.loads` undoes `json.dumps`**, on values nested within the recursion
limit with valid Unicode strings and one entry for each key. -/
theorem loads_dumps [PyFloat F] [LawfulPyFloat F] (o : DumpsOptions) {depth : Nat} {j : Json F}
    (h : Shaped IsUnicode depth j) : loads depth (j.dumps o) = .ok j := by
  obtain ⟨c, s, hcs, hc, -, -, hbom⟩ := dumps_head o j
  have hscan := scanOnce_dumps o depth h [] terminated_nil
  rw [List.append_nil] at hscan
  unfold loads
  rw [if_neg (by rw [hcs]; simpa using hbom),
    show skipBlanks (j.dumps o) = j.dumps o by rw [hcs, skipBlanks_cons hc], hscan]
  rfl

end LingoAsync.Text.Json
