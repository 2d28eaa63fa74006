import Mathlib.Data.List.TakeWhile
import Mathlib.Data.Nat.Digits.Lemmas
import LingoAsync.Text.Json

/-!
# `json.loads`

The scanner of the standard library's `json`, over code points. It reads one
value at a time (`scanOnce`), skipping the four JSON blanks between tokens, and
raises in two ways: `JsonError.decode` is `JSONDecodeError` (and the
`ValueError` of an integer with too many digits, which callers catch alike);
`JsonError.recursion` is the `RecursionError` of a text nested deeper than the
interpreter's recursion limit, raised on the bracket that goes too deep.

The limit is the argument `depth`, and it is also what the recursion is on:
`scanOnce (d + 1)` reads the elements of a list or dict with `scanOnce d`. The
loops over elements and members run on a fuel of one step for each character
left, which they cannot use up: every element takes a character.

`loads_shaped` is soundness: whatever is read is nested at most `depth` deep, its
dicts have one entry for each key, and its integers are within the limit, so
that it prints again without raising (`shaped_fits`).
-/

namespace LingoAsync.Text

inductive JsonError where
  | decode
  | recursion
  deriving DecidableEq, Repr

namespace Json

variable {F : Type}

/-- A JSON blank. -/
def isBlank (c : Nat) : Bool := c == 32 || c == 9 || c == 10 || c == 13

/-- Skip blanks. -/
def skipBlanks (s : PyStr) : PyStr := s.dropWhile isBlank

/-! ## Strings -/

/-- The value of a hexadecimal digit. -/
def hexValue (c : Nat) : Option Nat :=
  if 48 ≤ c ∧ c ≤ 57 then some (c - 48)
  else if 97 ≤ c ∧ c ≤ 102 then some (c - 87)
  else if 65 ≤ c ∧ c ≤ 70 then some (c - 55)
  else none

/-- The character a one-letter escape stands for. -/
def unescape (c : Nat) : Option Nat :=
  if c = 34 then some 34
  else if c = 92 then some 92
  else if c = 47 then some 47
  else if c = 98 then some 8
  else if c = 102 then some 12
  else if c = 110 then some 10
  else if c = 114 then some 13
  else if c = 116 then some 9
  else none

/-- Inside a string literal: between characters, after a backslash, or with
hexadecimal digits still owed to a `\u` escape. -/
inductive StrState where
  | plain
  | escaped
  | hex (owed acc : Nat)

/-- Emit a high surrogate that is waiting for its partner. -/
def flush (pending : Option Nat) (r : Option (PyStr × PyStr)) : Option (PyStr × PyStr) :=
  match pending with
  | none => r
  | some h => r.map fun p => (h :: p.1, p.2)

def emit (c : Nat) (r : Option (PyStr × PyStr)) : Option (PyStr × PyStr) :=
  r.map fun p => (c :: p.1, p.2)

/-- The string after the opening quote and what follows the closing one. `pending`
is a high surrogate just escaped, which joins a low one escaped next. -/
def scanStr : (pending : Option Nat) → StrState → PyStr → Option (PyStr × PyStr)
  | _, _, [] => none
  | pending, .plain, c :: rest =>
    if c = 34 then flush pending (some ([], rest))
    else if c < 32 then none
    else if c = 92 then scanStr pending .escaped rest
    else flush pending (emit c (scanStr none .plain rest))
  | pending, .escaped, c :: rest =>
    if c = 117 then scanStr pending (.hex 3 0) rest
    else
      match unescape c with
      | none => none
      | some u => flush pending (emit u (scanStr none .plain rest))
  | pending, .hex owed acc, c :: rest =>
    match hexValue c with
    | none => none
    | some v =>
      match owed with
      | owed + 1 => scanStr pending (.hex owed (acc * 16 + v)) rest
      | 0 =>
        let u := acc * 16 + v
        match pending with
        | some h =>
          if 0xDC00 ≤ u ∧ u ≤ 0xDFFF then
            emit (0x10000 + (h - 0xD800) * 1024 + (u - 0xDC00)) (scanStr none .plain rest)
          else if 0xD800 ≤ u ∧ u ≤ 0xDBFF then emit h (scanStr (some u) .plain rest)
          else emit h (emit u (scanStr none .plain rest))
        | none =>
          if 0xD800 ≤ u ∧ u ≤ 0xDBFF then scanStr (some u) .plain rest
          else emit u (scanStr none .plain rest)

/-! ## Numbers and literals -/

def isDigit (c : Nat) : Bool := 48 ≤ c && c ≤ 57

/-- The digits of a whole number: `0` alone, or no leading zero. -/
def scanWhole : PyStr → Option (PyStr × PyStr)
  | [] => none
  | c :: rest =>
    if c = 48 then some ([48], rest)
    else if isDigit c then some (c :: rest.takeWhile isDigit, rest.dropWhile isDigit)
    else none

/-- The fraction, if a point and a digit follow. -/
def scanFrac : PyStr → PyStr × PyStr
  | 46 :: d :: rest =>
    if isDigit d then (46 :: d :: rest.takeWhile isDigit, rest.dropWhile isDigit)
    else ([], 46 :: d :: rest)
  | s => ([], s)

/-- The exponent, if `e`, an optional sign and a digit follow. -/
def scanExp : PyStr → PyStr × PyStr
  | [] => ([], [])
  | e :: rest =>
    if e = 101 ∨ e = 69 then
      let sign := rest.takeWhile fun c => c == 43 || c == 45
      let digits := (rest.drop sign.length).takeWhile isDigit
      if sign.length ≤ 1 ∧ digits ≠ [] then
        (e :: (sign ++ digits), (rest.drop sign.length).dropWhile isDigit)
      else ([], e :: rest)
    else ([], e :: rest)

/-- The value of a run of decimal digits. -/
def natOfDigits (s : PyStr) : Nat := s.foldl (fun n c => n * 10 + (c - 48)) 0

/-- A number: an integer, or a float where a fraction or an exponent follows. -/
def scanNumber [PyFloat F] (s : PyStr) : Except JsonError (Json F × PyStr) :=
  let neg := s.head? == some 45
  match scanWhole (if neg then s.tail else s) with
  | none => .error .decode
  | some (whole, rest) =>
    let (frac, rest) := scanFrac rest
    let (exp, rest) := scanExp rest
    if frac = [] ∧ exp = [] then
      if whole.length ≤ intMaxStrDigits then
        .ok (.int (if neg then -(natOfDigits whole : Int) else natOfDigits whole), rest)
      else .error .decode
    else .ok (.float (PyFloat.ofToken ((if neg then [45] else []) ++ whole ++ frac ++ exp)), rest)

/-- The words that are values. -/
def words [PyFloat F] : List (PyStr × Json F) :=
  [(py "null", .null), (py "true", .bool true), (py "false", .bool false),
   (py "NaN", .float (PyFloat.ofToken (py "NaN"))),
   (py "Infinity", .float (PyFloat.ofToken (py "Infinity"))),
   (py "-Infinity", .float (PyFloat.ofToken (py "-Infinity")))]

/-- `s` without the prefix `p`. -/
def stripPrefix (p s : PyStr) : Option PyStr :=
  if p.isPrefixOf s then some (s.drop p.length) else none

/-- A value that is not a string, a list or a dict. -/
def scanScalar [PyFloat F] (s : PyStr) : Except JsonError (Json F × PyStr) :=
  match words.findSome? fun w : PyStr × Json F => (stripPrefix w.1 s).map (w.2, ·) with
  | some r => .ok r
  | none => scanNumber s

/-! ## Lists and dicts -/

/-- Reads one value off the front of a text. -/
abbrev Scanner (F : Type) := PyStr → Except JsonError (Json F × PyStr)

/-- The elements of a list, up to and including the `]`. -/
def scanElems (item : Scanner F) : (fuel : Nat) → PyStr → Except JsonError (List (Json F) × PyStr)
  | 0, _ => .error .decode
  | fuel + 1, s =>
    match item s with
    | .error e => .error e
    | .ok (x, r) =>
      match skipBlanks r with
      | [] => .error .decode
      | c :: r =>
        if c = 93 then .ok ([x], r)
        else if c = 44 then
          match scanElems item fuel (skipBlanks r) with
          | .error e => .error e
          | .ok (xs, r) => .ok (x :: xs, r)
        else .error .decode

/-- The key of a member and the text of its value. -/
def scanKey : PyStr → Option (PyStr × PyStr)
  | [] => none
  | c :: rest =>
    if c = 34 then
      match scanStr none .plain rest with
      | none => none
      | some (k, r) =>
        match skipBlanks r with
        | [] => none
        | c :: r => if c = 58 then some (k, skipBlanks r) else none
    else none

/-- The members of a dict, up to and including the `}`. -/
def scanMembers (item : Scanner F) :
    (fuel : Nat) → PyStr → Except JsonError (List (PyStr × Json F) × PyStr)
  | 0, _ => .error .decode
  | fuel + 1, s =>
    match scanKey s with
    | none => .error .decode
    | some (k, r) =>
      match item r with
      | .error e => .error e
      | .ok (v, r) =>
        match skipBlanks r with
        | [] => .error .decode
        | c :: r =>
          if c = 125 then .ok ([(k, v)], r)
          else if c = 44 then
            match scanMembers item fuel (skipBlanks r) with
            | .error e => .error e
            | .ok (kvs, r) => .ok ((k, v) :: kvs, r)
          else .error .decode

/-- A list after its `[`. -/
def scanList (item : Scanner F) (s : PyStr) : Except JsonError (Json F × PyStr) :=
  match skipBlanks s with
  | [] => .error .decode
  | c :: r =>
    if c = 93 then .ok (.list [], r)
    else
      match scanElems item (c :: r).length (c :: r) with
      | .error e => .error e
      | .ok (xs, r) => .ok (.list xs, r)

/-- A dict after its `{`. -/
def scanDict (item : Scanner F) (s : PyStr) : Except JsonError (Json F × PyStr) :=
  match skipBlanks s with
  | [] => .error .decode
  | c :: r =>
    if c = 125 then .ok (.dict [], r)
    else
      match scanMembers item (c :: r).length (c :: r) with
      | .error e => .error e
      | .ok (kvs, r) => .ok (.dict (ofEntries kvs), r)

/-- One value, given the scanner for what is nested in it; `none` where the
recursion limit allows no nesting. -/
def scanWith [PyFloat F] (inner : Option (Scanner F)) : Scanner F
  | [] => .error .decode
  | c :: rest =>
    if c = 34 then
      match scanStr none .plain rest with
      | none => .error .decode
      | some (s, r) => .ok (.str s, r)
    else if c = 123 then
      match inner with
      | none => .error .recursion
      | some item => scanDict item rest
    else if c = 91 then
      match inner with
      | none => .error .recursion
      | some item => scanList item rest
    else scanScalar (c :: rest)

theorem scanWith_cons [PyFloat F] (inner : Option (Scanner F)) (c : Nat) (rest : PyStr) :
    scanWith inner (c :: rest) =
      if c = 34 then
        match scanStr none .plain rest with
        | none => .error .decode
        | some (s, r) => .ok (.str s, r)
      else if c = 123 then
        match inner with
        | none => .error .recursion
        | some item => scanDict item rest
      else if c = 91 then
        match inner with
        | none => .error .recursion
        | some item => scanList item rest
      else scanScalar (c :: rest) := rfl

/-- `scan_once`, with at most `depth` lists and dicts open at a time. -/
def scanOnce [PyFloat F] : (depth : Nat) → Scanner F
  | 0 => scanWith none
  | depth + 1 => scanWith (some (scanOnce depth))

/-- `json.loads(s)` under the recursion limit `depth`. -/
def loads [PyFloat F] (depth : Nat) (s : PyStr) : Except JsonError (Json F) :=
  -- a text that starts with a byte order mark is refused
  if s.head? = some 0xFEFF then .error .decode
  else
    match scanOnce depth (skipBlanks s) with
    | .error e => .error e
    | .ok (j, r) => if skipBlanks r = [] then .ok j else .error .decode

/-! ## What is read is well formed -/

/-- Nested at most `depth` deep, with integers within the limit, one entry for
each key, and `P` of every string. -/
def Shaped (P : PyStr → Prop) : (depth : Nat) → Json F → Prop
  | _, .null => True
  | _, .bool _ => True
  | _, .int n => intFits n = true
  | _, .float _ => True
  | _, .str s => P s
  | 0, .list _ => False
  | 0, .dict _ => False
  | depth + 1, .list xs => ∀ x ∈ xs, Shaped P depth x
  | depth + 1, .dict kvs =>
    (kvs.map (·.1)).Nodup ∧ ∀ kv ∈ kvs, P kv.1 ∧ Shaped P depth kv.2

theorem shaped_fits {P : PyStr → Prop} : ∀ {depth : Nat} {j : Json F},
    Shaped P depth j → j.fits = true
  | _, .null, _ => rfl
  | _, .bool _, _ => rfl
  | _, .int _, h => by simpa [Shaped, fits] using h
  | _, .float _, _ => rfl
  | _, .str _, _ => rfl
  | 0, .list _, h => absurd h (by simp [Shaped])
  | 0, .dict _, h => absurd h (by simp [Shaped])
  | depth + 1, .list xs, h => by
    rw [fits]
    exact fitsElems_of_forall fun x hx => shaped_fits (h x hx)
  | depth + 1, .dict kvs, h => by
    rw [fits]
    exact fitsMembers_of_forall fun kv hkv => shaped_fits (h.2 kv hkv).2

theorem natOfDigits_concat (s : PyStr) (c : Nat) :
    natOfDigits (s ++ [c]) = natOfDigits s * 10 + (c - 48) := by
  simp [natOfDigits]

theorem natOfDigits_lt (s : PyStr) : (∀ c ∈ s, isDigit c = true) →
    natOfDigits s < 10 ^ s.length := by
  induction s using List.reverseRecOn with
  | nil =>
    intro _
    exact Nat.one_pos
  | append_singleton s c ih =>
    intro h
    have hc := h c (by simp)
    simp only [isDigit, Bool.and_eq_true, decide_eq_true_eq] at hc
    have hs := ih fun d hd => h d (List.mem_append_left _ hd)
    rw [natOfDigits_concat, List.length_append, List.length_singleton, Nat.pow_succ]
    omega

theorem scanWhole_digits {s whole rest : PyStr} (h : scanWhole s = some (whole, rest)) :
    whole ≠ [] ∧ ∀ c ∈ whole, isDigit c = true := by
  cases s with
  | nil => simp [scanWhole] at h
  | cons c s =>
    rw [scanWhole] at h
    by_cases h48 : c = 48
    · rw [if_pos h48, Option.some.injEq, Prod.mk.injEq] at h
      rw [← h.1]
      exact ⟨by simp, by simp [isDigit]⟩
    · rw [if_neg h48] at h
      by_cases hd : isDigit c = true
      · rw [if_pos hd, Option.some.injEq, Prod.mk.injEq] at h
        rw [← h.1]
        refine ⟨by simp, ?_⟩
        intro d hmem
        rcases List.mem_cons.mp hmem with rfl | hmem
        · exact hd
        · exact List.mem_takeWhile_imp hmem
      · rw [if_neg hd] at h
        cases h

theorem intFits_of_digits {whole : PyStr} {n : Int} (hw : whole ≠ [])
    (hdig : ∀ c ∈ whole, isDigit c = true) (hlen : whole.length ≤ intMaxStrDigits)
    (hn : n.natAbs = natOfDigits whole) : intFits n = true := by
  have hlt := natOfDigits_lt whole hdig
  rw [intFits, decide_eq_true_eq, dumpsNat]
  by_cases h0 : n.natAbs = 0
  · rw [if_pos h0]
    exact Nat.le_trans (List.length_pos_of_ne_nil hw) hlen
  · rw [if_neg h0, List.length_map, List.length_reverse, hn]
    exact Nat.le_trans ((Nat.digits_length_le_iff (by omega) _).mpr hlt) hlen

theorem scanNumber_shaped [PyFloat F] {s r : PyStr} {j : Json F} {P : PyStr → Prop} (depth : Nat)
    (h : scanNumber s = .ok (j, r)) : Shaped P depth j := by
  unfold scanNumber at h
  simp only at h
  split at h
  · cases h
  · rename_i whole rest hscan
    obtain ⟨hne, hdig⟩ := scanWhole_digits hscan
    split at h
    · split at h
      · rename_i hlen
        cases h
        rw [Shaped]
        refine intFits_of_digits hne hdig hlen ?_
        split <;> omega
      · cases h
    · cases h
      simp [Shaped]

theorem scanScalar_shaped [PyFloat F] {s r : PyStr} {j : Json F} {P : PyStr → Prop} (depth : Nat)
    (h : scanScalar s = .ok (j, r)) : Shaped P depth j := by
  unfold scanScalar at h
  split at h
  · rename_i p hfind
    cases h
    obtain ⟨w, hw, hmap⟩ := List.exists_of_findSome?_eq_some hfind
    obtain ⟨t, -, ht⟩ := Option.map_eq_some_iff.mp hmap
    obtain rfl : w.2 = j := congrArg Prod.fst ht
    simp only [words, List.mem_cons, List.not_mem_nil, or_false] at hw
    rcases hw with rfl | rfl | rfl | rfl | rfl | rfl <;> simp [Shaped]
  · exact scanNumber_shaped depth h

theorem scanElems_forall {item : Scanner F} {Q : Json F → Prop}
    (hitem : ∀ {s r : PyStr} {j : Json F}, item s = .ok (j, r) → Q j) (fuel : Nat) {s r : PyStr}
    {xs : List (Json F)} (h : scanElems item fuel s = .ok (xs, r)) : ∀ x ∈ xs, Q x := by
  induction fuel generalizing s r xs with
  | zero => simp [scanElems] at h
  | succ fuel ih =>
    rw [scanElems] at h
    split at h
    · cases h
    · rename_i x r1 hx
      split at h
      · cases h
      · split at h
        · -- the bracket: the element just read was the last
          cases h
          intro y hy
          rw [List.mem_singleton.mp hy]
          exact hitem hx
        · split at h
          · split at h
            · cases h
            · -- a comma, and the elements after it
              rename_i ys r2 hys
              cases h
              intro y hy
              rcases List.mem_cons.mp hy with rfl | hy
              · exact hitem hx
              · exact ih hys y hy
          · cases h

theorem scanMembers_forall {item : Scanner F} {Q : Json F → Prop}
    (hitem : ∀ {s r : PyStr} {j : Json F}, item s = .ok (j, r) → Q j) (fuel : Nat) {s r : PyStr}
    {kvs : List (PyStr × Json F)} (h : scanMembers item fuel s = .ok (kvs, r)) :
    ∀ kv ∈ kvs, Q kv.2 := by
  induction fuel generalizing s r kvs with
  | zero => simp [scanMembers] at h
  | succ fuel ih =>
    rw [scanMembers] at h
    split at h
    · cases h
    · split at h
      · cases h
      · rename_i v r1 hv
        split at h
        · cases h
        · split at h
          · cases h
            intro kv hkv
            rw [List.mem_singleton.mp hkv]
            exact hitem hv
          · split at h
            · split at h
              · cases h
              · rename_i es r2 hes
                cases h
                intro kv hkv
                rcases List.mem_cons.mp hkv with rfl | hkv
                · exact hitem hv
                · exact ih hes kv hkv
            · cases h

theorem scanList_shaped {item : Scanner F} {depth : Nat} {s r : PyStr} {j : Json F}
    {P : PyStr → Prop}
    (hitem : ∀ {s r : PyStr} {j : Json F}, item s = .ok (j, r) → Shaped P depth j)
    (h : scanList item s = .ok (j, r)) : Shaped P (depth + 1) j := by
  unfold scanList at h
  split at h
  · cases h
  · split at h
    · cases h
      simp [Shaped]
    · split at h
      · cases h
      · rename_i xs r1 hxs
        cases h
        rw [Shaped]
        exact scanElems_forall hitem _ hxs

theorem scanDict_shaped {item : Scanner F} {depth : Nat} {s r : PyStr} {j : Json F}
    (hitem : ∀ {s r : PyStr} {j : Json F}, item s = .ok (j, r) → Shaped (fun _ => True) depth j)
    (h : scanDict item s = .ok (j, r)) : Shaped (fun _ => True) (depth + 1) j := by
  unfold scanDict at h
  split at h
  · cases h
  · split at h
    · cases h
      simp [Shaped]
    · split at h
      · cases h
      · rename_i kvs r1 hkvs
        cases h
        rw [Shaped]
        refine ⟨ofEntries_nodup kvs, fun kv hkv => ⟨trivial, ?_⟩⟩
        exact scanMembers_forall hitem _ hkvs kv (mem_ofEntries hkv)

/-- One value is well formed when what is nested in it is. -/
theorem scanWith_shaped [PyFloat F] {inner : Option (Scanner F)} {depth : Nat} {s r : PyStr}
    {j : Json F}
    (hitem : ∀ item, inner = some item → ∃ d, depth = d + 1 ∧
      ∀ {s r : PyStr} {j : Json F}, item s = .ok (j, r) → Shaped (fun _ => True) d j)
    (h : scanWith inner s = .ok (j, r)) : Shaped (fun _ => True) depth j := by
  cases s with
  | nil => simp [scanWith] at h
  | cons c rest =>
    rw [scanWith_cons] at h
    split at h
    · split at h
      · cases h
      · cases h
        simp [Shaped]
    · split at h
      · split at h
        · cases h
        · rename_i item
          obtain ⟨d, rfl, hd⟩ := hitem item rfl
          exact scanDict_shaped hd h
      · split at h
        · split at h
          · cases h
          · rename_i item
            obtain ⟨d, rfl, hd⟩ := hitem item rfl
            exact scanList_shaped hd h
        · exact scanScalar_shaped depth h

theorem scanOnce_shaped [PyFloat F] (depth : Nat) {s r : PyStr} {j : Json F}
    (h : scanOnce depth s = .ok (j, r)) : Shaped (fun _ => True) depth j := by
  induction depth generalizing s r j with
  | zero => exact scanWith_shaped (fun item hi => by cases hi) h
  | succ depth ih =>
    refine scanWith_shaped ?_ h
    intro item hi
    obtain rfl : scanOnce depth = item := Option.some.inj hi
    exact ⟨depth, rfl, ih⟩

/-- **What `loads` returns is well formed.** -/
theorem loads_shaped [PyFloat F] {depth : Nat} {s : PyStr} {j : Json F}
    (h : loads depth s = .ok j) : Shaped (fun _ => True) depth j := by
  unfold loads at h
  split at h
  · cases h
  · split at h
    · cases h
    · rename_i j' r hscan
      split at h
      · cases h
        exact scanOnce_shaped depth hscan
      · cases h

/-! ## What a dict starts with -/

theorem scanList_not_dict {item : Scanner F} {s r : PyStr} {kvs : List (PyStr × Json F)} :
    scanList item s ≠ .ok (.dict kvs, r) := by
  intro h
  unfold scanList at h
  split at h
  · cases h
  · split at h
    · cases h
    · split at h <;> cases h

/-- Only a brace opens a dict. -/
theorem scanWith_dict_head [PyFloat F] {inner : Option (Scanner F)} {s r : PyStr}
    {kvs : List (PyStr × Json F)} (h : scanWith inner s = .ok (.dict kvs, r)) :
    s.head? = some 123 := by
  cases s with
  | nil => cases h
  | cons c rest =>
    rw [scanWith_cons] at h
    split at h
    · split at h <;> cases h
    · split at h
      · rename_i hc
        rw [hc]
        rfl
      · split at h
        · split at h
          · cases h
          · exact absurd h scanList_not_dict
        · -- a scalar is well formed where nothing may nest, and a dict is not
          have hshape : Shaped (fun _ => True) 0 (.dict kvs : Json F) := scanScalar_shaped 0 h
          rw [Shaped] at hshape
          exact hshape.elim

/-- A text that is read as a dict starts with a brace, or with a blank. -/
theorem loads_dict_head [PyFloat F] {depth : Nat} {s : PyStr} {kvs : List (PyStr × Json F)}
    (h : loads depth s = .ok (.dict kvs)) : ∃ c t, s = c :: t ∧ (isBlank c = true ∨ c = 123) := by
  unfold loads at h
  split at h
  · cases h
  · split at h
    · cases h
    · rename_i j r hscan
      split at h
      · obtain rfl := Except.ok.inj h
        have hhead : (skipBlanks s).head? = some 123 := by
          cases depth with
          | zero => exact scanWith_dict_head hscan
          | succ depth => exact scanWith_dict_head hscan
        cases s with
        | nil => cases hhead
        | cons c t =>
          refine ⟨c, t, rfl, ?_⟩
          cases hc : isBlank c with
          | true => exact Or.inl rfl
          | false =>
            rw [skipBlanks, List.dropWhile_cons, hc] at hhead
            exact Or.inr (Option.some.inj hhead)
      · cases h

end Json

end LingoAsync.Text
