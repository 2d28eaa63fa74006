import Mathlib.Algebra.Group.Nat.Defs
import Mathlib.Data.List.Infix
import Mathlib.Tactic.SplitIfs

/-!
# Strings as code points, and UTF-8

A `str` of the source language is a sequence of code points, lone surrogates
included (a JSON text can spell one as `"\ud800"`), so `PyStr` is a list of
numbers and not Lean's `String`. `py` writes a literal.

`utf8Encode` refuses surrogates, as the strict codec does. `utf8Decode` is the
codec's automaton, one octet at a time: it carries how many continuation octets
are owed, the bits read so far and the range the next octet must lie in (which
is what rules out overlong forms, surrogates and values past `10FFFF`).
`utf8Decode_encode` is the round trip.
-/

namespace LingoAsync.Text

/-- A `str`: its code points. -/
abbrev PyStr := List Nat

/-- A `bytes`: its octets. -/
abbrev Bytes := List Nat

instance decidableMemStr (s : PyStr) (l : List PyStr) : Decidable (s ∈ l) := inferInstance

/-- A string literal. -/
def py (s : String) : PyStr := s.toList.map Char.toNat

/-- A Unicode scalar value: a code point that is not a surrogate. -/
def IsScalar (c : Nat) : Prop := c < 0xD800 ∨ (0xE000 ≤ c ∧ c < 0x110000)

instance : DecidablePred IsScalar := fun _ => inferInstanceAs (Decidable (_ ∨ _))

/-- Valid Unicode text: no surrogates. -/
def IsUnicode (s : PyStr) : Prop := ∀ c ∈ s, IsScalar c

instance : DecidablePred IsUnicode := fun s => inferInstanceAs (Decidable (∀ c ∈ s, IsScalar c))

theorem isUnicode_cons {c : Nat} {s : PyStr} :
    IsUnicode (c :: s) ↔ IsScalar c ∧ IsUnicode s := by
  simp [IsUnicode]

/-- `needle in s`. -/
def contains (needle s : PyStr) : Bool := decide (needle <:+: s)

/-! ## Whitespace -/

/-- `str.isspace` on one character. -/
def isSpace (c : Nat) : Bool :=
  (0x09 ≤ c && c ≤ 0x0D) || (0x1C ≤ c && c ≤ 0x20) || c == 0x85 || c == 0xA0 || c == 0x1680 ||
  (0x2000 ≤ c && c ≤ 0x200A) || c == 0x2028 || c == 0x2029 || c == 0x202F || c == 0x205F ||
  c == 0x3000

/-- `str.strip()`. -/
def strip (s : PyStr) : PyStr :=
  ((s.dropWhile isSpace).reverse.dropWhile isSpace).reverse

/-! ## UTF-8 -/

/-- The octets of one scalar value. -/
def utf8Octets (c : Nat) : Bytes :=
  if c < 0x80 then [c]
  else if c < 0x800 then [0xC0 + c / 64, 0x80 + c % 64]
  else if c < 0x10000 then [0xE0 + c / 4096, 0x80 + c / 64 % 64, 0x80 + c % 64]
  else [0xF0 + c / 262144, 0x80 + c / 4096 % 64, 0x80 + c / 64 % 64, 0x80 + c % 64]

/-- `s.encode('utf-8')`; `none` is `UnicodeEncodeError`. -/
def utf8Encode (s : PyStr) : Option Bytes :=
  if IsUnicode s then some (s.flatMap utf8Octets) else none

/-- The decoder's automaton. `need` continuation octets are owed, `acc` holds the
bits read so far, and the next octet of the sequence must lie in `[lo, hi]`. -/
def utf8Go : (need acc lo hi : Nat) → Bytes → Option PyStr
  | 0, _, _, _, [] => some []
  | _ + 1, _, _, _, [] => none
  | 0, _, _, _, b :: rest =>
    if b < 0x80 then (utf8Go 0 0 0 0 rest).map (b :: ·)
    else if 0xC2 ≤ b ∧ b ≤ 0xDF then utf8Go 1 (b - 0xC0) 0x80 0xBF rest
    else if b = 0xE0 then utf8Go 2 0 0xA0 0xBF rest
    else if b = 0xED then utf8Go 2 0xD 0x80 0x9F rest
    else if 0xE1 ≤ b ∧ b ≤ 0xEF then utf8Go 2 (b - 0xE0) 0x80 0xBF rest
    else if b = 0xF0 then utf8Go 3 0 0x90 0xBF rest
    else if 0xF1 ≤ b ∧ b ≤ 0xF3 then utf8Go 3 (b - 0xF0) 0x80 0xBF rest
    else if b = 0xF4 then utf8Go 3 4 0x80 0x8F rest
    else none
  | need + 1, acc, lo, hi, b :: rest =>
    if lo ≤ b ∧ b ≤ hi then
      if need = 0 then (utf8Go 0 0 0 0 rest).map ((acc * 64 + (b - 0x80)) :: ·)
      else utf8Go need (acc * 64 + (b - 0x80)) 0x80 0xBF rest
    else none

/-- `bs.decode('utf-8')`; `none` is `UnicodeDecodeError`. -/
def utf8Decode (bs : Bytes) : Option PyStr := utf8Go 0 0 0 0 bs

/-- One continuation octet that ends a character. -/
theorem utf8Go_last {acc lo hi b : Nat} {rest : Bytes} (h : lo ≤ b ∧ b ≤ hi) :
    utf8Go 1 acc lo hi (b :: rest) = (utf8Go 0 0 0 0 rest).map ((acc * 64 + (b - 0x80)) :: ·) := by
  rw [utf8Go, if_pos h, if_pos rfl]

/-- One continuation octet with more to come. -/
theorem utf8Go_more {need acc lo hi b : Nat} {rest : Bytes} (h : lo ≤ b ∧ b ≤ hi) :
    utf8Go (need + 2) acc lo hi (b :: rest)
      = utf8Go (need + 1) (acc * 64 + (b - 0x80)) 0x80 0xBF rest := by
  rw [utf8Go, if_pos h, if_neg (Nat.succ_ne_zero need)]

/-- The octets of a scalar value decode to it, whatever follows. -/
theorem utf8Go_octets {c : Nat} (hc : IsScalar c) (rest : Bytes) :
    utf8Go 0 0 0 0 (utf8Octets c ++ rest) = (utf8Go 0 0 0 0 rest).map (c :: ·) := by
  unfold utf8Octets IsScalar at *
  by_cases h1 : c < 0x80
  · rw [if_pos h1]
    show utf8Go 0 0 0 0 (c :: rest) = _
    rw [utf8Go, if_pos h1]
  rw [if_neg h1]
  by_cases h2 : c < 0x800
  · rw [if_pos h2]
    show utf8Go 0 0 0 0 (_ :: _ :: rest) = _
    rw [utf8Go, if_neg (by omega), if_pos (by omega), utf8Go_last (by omega)]
    have hval : (0xC0 + c / 64 - 0xC0) * 64 + (0x80 + c % 64 - 0x80) = c := by omega
    rw [hval]
  rw [if_neg h2]
  by_cases h3 : c < 0x10000
  · rw [if_pos h3]
    show utf8Go 0 0 0 0 (_ :: _ :: _ :: rest) = _
    rw [utf8Go, if_neg (by omega), if_neg (by omega)]
    have hval :
        (c / 4096 * 64 + (0x80 + c / 64 % 64 - 0x80)) * 64 + (0x80 + c % 64 - 0x80) = c := by
      omega
    -- the lead octets `E0` and `ED` narrow the second octet
    by_cases hE0 : 0xE0 + c / 4096 = 0xE0
    · rw [if_pos hE0, utf8Go_more (by omega), utf8Go_last (by omega),
        show 0 = c / 4096 from by omega, hval]
    rw [if_neg hE0]
    by_cases hED : 0xE0 + c / 4096 = 0xED
    · rw [if_pos hED, utf8Go_more (by omega), utf8Go_last (by omega),
        show 0xD = c / 4096 from by omega, hval]
    · rw [if_neg hED, if_pos (by omega), utf8Go_more (by omega), utf8Go_last (by omega),
        Nat.add_sub_cancel_left, hval]
  · rw [if_neg h3]
    show utf8Go 0 0 0 0 (_ :: _ :: _ :: _ :: rest) = _
    rw [utf8Go, if_neg (by omega), if_neg (by omega), if_neg (by omega), if_neg (by omega),
      if_neg (by omega)]
    have hval : ((c / 262144 * 64 + (0x80 + c / 4096 % 64 - 0x80)) * 64
        + (0x80 + c / 64 % 64 - 0x80)) * 64 + (0x80 + c % 64 - 0x80) = c := by
      omega
    -- likewise `F0` and `F4`
    by_cases hF0 : 0xF0 + c / 262144 = 0xF0
    · rw [if_pos hF0, utf8Go_more (by omega), utf8Go_more (by omega), utf8Go_last (by omega),
        show 0 = c / 262144 from by omega, hval]
    rw [if_neg hF0]
    by_cases hF3 : 0xF1 ≤ 0xF0 + c / 262144 ∧ 0xF0 + c / 262144 ≤ 0xF3
    · rw [if_pos hF3, utf8Go_more (by omega), utf8Go_more (by omega), utf8Go_last (by omega),
        Nat.add_sub_cancel_left, hval]
    · rw [if_neg hF3, if_pos (by omega), utf8Go_more (by omega), utf8Go_more (by omega),
        utf8Go_last (by omega), show 4 = c / 262144 from by omega, hval]

theorem utf8Go_flatMap {s : PyStr} (h : IsUnicode s) :
    utf8Go 0 0 0 0 (s.flatMap utf8Octets) = some s := by
  induction s with
  | nil => rfl
  | cons c s ih =>
    obtain ⟨hc, hs⟩ := isUnicode_cons.mp h
    rw [List.flatMap_cons, utf8Go_octets hc, ih hs]
    rfl

/-- **UTF-8 decoding undoes encoding.** -/
theorem utf8Decode_encode {s : PyStr} {bs : Bytes} (h : utf8Encode s = some bs) :
    utf8Decode bs = some s := by
  unfold utf8Encode at h
  by_cases hs : IsUnicode s
  · rw [if_pos hs, Option.some.injEq] at h
    subst h
    exact utf8Go_flatMap hs
  · rw [if_neg hs] at h
    cases h

/-- Encoded text is made of octets. -/
theorem utf8Octets_lt {c b : Nat} (hc : IsScalar c) (hb : b ∈ utf8Octets c) : b < 256 := by
  unfold utf8Octets IsScalar at *
  split_ifs at hb with h1 h2 h3
  all_goals
    simp only [List.mem_cons, List.not_mem_nil, or_false] at hb
    omega

theorem utf8Encode_lt {s : PyStr} {bs : Bytes} (h : utf8Encode s = some bs) :
    ∀ b ∈ bs, b < 256 := by
  unfold utf8Encode at h
  by_cases hs : IsUnicode s
  · rw [if_pos hs, Option.some.injEq] at h
    subst h
    intro b hb
    obtain ⟨c, hc, hb⟩ := List.mem_flatMap.mp hb
    exact utf8Octets_lt (hs c hc) hb
  · rw [if_neg hs] at h
    cases h

/-- Encoding leaves a leading ASCII character as it is. -/
theorem utf8Encode_cons_ascii {c : Nat} {s : PyStr} {bs : Bytes} (hc : c < 0x80)
    (h : utf8Encode (c :: s) = some bs) : ∃ bs', bs = c :: bs' := by
  unfold utf8Encode at h
  by_cases hs : IsUnicode (c :: s)
  · rw [if_pos hs, Option.some.injEq, List.flatMap_cons] at h
    rw [← h, utf8Octets, if_pos hc]
    exact ⟨_, rfl⟩
  · rw [if_neg hs] at h
    cases h

/-- A character that takes more than one octet is not ASCII. -/
theorem utf8Go_pending {need acc lo hi : Nat} {bs : Bytes} {s : PyStr}
    (hmin : 128 ≤ (acc * 64 + (lo - 0x80)) * 64 ^ need)
    (h : utf8Go (need + 1) acc lo hi bs = some s) : ∃ c t, s = c :: t ∧ 128 ≤ c := by
  induction need generalizing acc lo hi bs with
  | zero =>
    cases bs with
    | nil => cases h
    | cons b bs =>
      rw [utf8Go, if_pos rfl] at h
      split at h
      · obtain ⟨t, -, rfl⟩ := Option.map_eq_some_iff.mp h
        exact ⟨_, t, rfl, by omega⟩
      · cases h
  | succ need ih =>
    cases bs with
    | nil => cases h
    | cons b bs =>
      rw [utf8Go, if_neg (Nat.succ_ne_zero need)] at h
      split at h
      · refine ih ?_ h
        have hle : acc * 64 + (lo - 0x80) ≤ acc * 64 + (b - 0x80) := by omega
        calc 128 ≤ (acc * 64 + (lo - 0x80)) * 64 ^ (need + 1) := hmin
          _ ≤ (acc * 64 + (b - 0x80)) * 64 ^ (need + 1) := Nat.mul_le_mul_right _ hle
          _ = ((acc * 64 + (b - 0x80)) * 64 + (0x80 - 0x80)) * 64 ^ need := by
            rw [Nat.pow_succ', ← Nat.mul_assoc, Nat.sub_self, Nat.add_zero]
      · cases h

/-- An ASCII character at the front of a decoded text was its first octet. -/
theorem utf8Decode_ascii_head {bs : Bytes} {c : Nat} {s : PyStr} (hc : c < 128)
    (h : utf8Decode bs = some (c :: s)) : ∃ bs', bs = c :: bs' := by
  cases bs with
  | nil => cases h
  | cons b bs =>
    have hpending : ∀ {need acc lo hi : Nat}, 128 ≤ (acc * 64 + (lo - 0x80)) * 64 ^ need →
        utf8Go (need + 1) acc lo hi bs = some (c :: s) → False := by
      intro need acc lo hi hmin hgo
      obtain ⟨c', t, heq, hge⟩ := utf8Go_pending hmin hgo
      obtain ⟨rfl, -⟩ := List.cons.inj heq
      omega
    rw [utf8Decode, utf8Go] at h
    split_ifs at h with h1 h2 h3 h4 h5 h6 h7 h8
    · obtain ⟨t, -, heq⟩ := Option.map_eq_some_iff.mp h
      exact ⟨bs, by rw [(List.cons.inj heq).1]⟩
    · exact (hpending (by omega) h).elim
    · exact (hpending (by omega) h).elim
    · exact (hpending (by omega) h).elim
    · exact (hpending (by omega) h).elim
    · exact (hpending (by omega) h).elim
    · exact (hpending (by omega) h).elim
    · exact (hpending (by omega) h).elim

end LingoAsync.Text
