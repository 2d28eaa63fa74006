import LingoAsync.Text.Str

/-!
# Base64, as the standard library decodes it

`b64decode` is `base64.b64decode` on a string argument. Its engine
(`binascii.a2b_base64`) is an automaton over the characters: the position in the
current group of four, the bits left over from the last character, and the
padding seen so far. The default mode skips every character outside the
alphabet; the strict mode (`validate=True`) refuses one, and refuses padding out
of place. `a2bGo` transcribes both.

`b64decode_encode`: both modes undo `b64encode`.
-/

namespace LingoAsync.Text

/-- Why `b64decode` raised: a non-ASCII argument (`ValueError`), or the decoder's
own `binascii.Error`. -/
inductive Base64Error where
  | notAscii
  | malformed
  deriving DecidableEq, Repr

/-- The alphabet: the character of a six-bit value. -/
def b64Char (n : Nat) : Nat :=
  if n < 26 then n + 65
  else if n < 52 then n + 71
  else if n < 62 then n - 4
  else if n = 62 then 43
  else 47

/-- The six-bit value of a character of the alphabet. -/
def b64Value (c : Nat) : Option Nat :=
  if 65 ≤ c ∧ c ≤ 90 then some (c - 65)
  else if 97 ≤ c ∧ c ≤ 122 then some (c - 71)
  else if 48 ≤ c ∧ c ≤ 57 then some (c + 4)
  else if c = 43 then some 62
  else if c = 47 then some 63
  else none

/-- `base64.b64encode`, three octets at a time. -/
def b64encode : Bytes → PyStr
  | [] => []
  | [a] => [b64Char (a / 4), b64Char (a % 4 * 16), 61, 61]
  | [a, b] => [b64Char (a / 4), b64Char (a % 4 * 16 + b / 16), b64Char (b % 16 * 4), 61]
  | a :: b :: c :: rest =>
    b64Char (a / 4) :: b64Char (a % 4 * 16 + b / 16) :: b64Char (b % 16 * 4 + c / 64)
      :: b64Char (c % 64) :: b64encode rest

/-- `binascii.a2b_base64`: `quad` counts the characters of the open group, `left`
holds the bits not written yet. -/
def a2bGo (strict : Bool) : (quad left pads : Nat) → (padding : Bool) → PyStr → Option Bytes
  | quad, _, _, _, [] => if quad = 0 then some [] else none
  | quad, left, pads, padding, ch :: rest =>
    if ch = 61 then
      if strict = true ∧ quad = 0 then none
      else if 2 ≤ quad ∧ 4 ≤ quad + (pads + 1) then
        -- the padding closes the group: nothing more is read
        if strict = true ∧ rest ≠ [] then none else some []
      else a2bGo strict quad left (if 2 ≤ quad then pads + 1 else pads) true rest
    else
      match b64Value ch with
      | none => if strict = true then none else a2bGo strict quad left pads padding rest
      | some v =>
        if strict = true ∧ padding = true then none
        else if quad = 0 then a2bGo strict 1 v 0 padding rest
        else if quad = 1 then
          (a2bGo strict 2 (v % 16) 0 padding rest).map ((left * 4 + v / 16) :: ·)
        else if quad = 2 then (a2bGo strict 3 (v % 4) 0 padding rest).map ((left * 16 + v / 4) :: ·)
        else (a2bGo strict 0 0 0 padding rest).map ((left * 64 + v) :: ·)

/-- `base64.b64decode(s, validate=validate)`. -/
def b64decode (validate : Bool) (s : PyStr) : Except Base64Error Bytes :=
  if ∃ c ∈ s, 128 ≤ c then .error .notAscii
  else
    match a2bGo validate 0 0 0 false s with
    | none => .error .malformed
    | some bs => .ok bs

/-! ## The round trip -/

theorem b64Value_b64Char {n : Nat} (h : n < 64) : b64Value (b64Char n) = some n := by
  unfold b64Char
  by_cases h1 : n < 26
  · rw [if_pos h1, b64Value, if_pos (by omega)]
    congr 1
  rw [if_neg h1]
  by_cases h2 : n < 52
  · rw [if_pos h2, b64Value, if_neg (by omega), if_pos (by omega)]
    congr 1
  rw [if_neg h2]
  by_cases h3 : n < 62
  · rw [if_pos h3, b64Value, if_neg (by omega), if_neg (by omega), if_pos (by omega)]
    congr 1
    omega
  rw [if_neg h3]
  by_cases h4 : n = 62
  · subst h4; rfl
  · obtain rfl : n = 63 := by omega
    rfl

theorem b64Char_ne_pad (n : Nat) : b64Char n ≠ 61 := by
  unfold b64Char
  split_ifs <;> omega

theorem b64Char_lt (n : Nat) : b64Char n < 128 := by
  unfold b64Char
  split_ifs <;> omega

/-- A character of the alphabet outside padding: one step of the automaton. -/
theorem a2bGo_char (strict : Bool) (quad left n : Nat) (hn : n < 64) (rest : PyStr) :
    a2bGo strict quad left 0 false (b64Char n :: rest) =
      if quad = 0 then a2bGo strict 1 n 0 false rest
      else if quad = 1 then (a2bGo strict 2 (n % 16) 0 false rest).map ((left * 4 + n / 16) :: ·)
      else if quad = 2 then (a2bGo strict 3 (n % 4) 0 false rest).map ((left * 16 + n / 4) :: ·)
      else (a2bGo strict 0 0 0 false rest).map ((left * 64 + n) :: ·) := by
  rw [a2bGo, if_neg (b64Char_ne_pad n), b64Value_b64Char hn]
  simp only [Bool.false_eq_true, and_false, if_false]

/-- The final group of one octet, with its two pads. -/
theorem a2bGo_pad_two (strict : Bool) (left : Nat) :
    a2bGo strict 2 left 0 false [61, 61] = some [] := by
  simp [a2bGo]

/-- The final group of two octets, with its pad. -/
theorem a2bGo_pad_one (strict : Bool) (left : Nat) :
    a2bGo strict 3 left 0 false [61] = some [] := by
  simp [a2bGo]

/-- Decoding goes group by group, as encoding did. -/
theorem a2bGo_encode (strict : Bool) : ∀ (bs : Bytes), (∀ b ∈ bs, b < 256) →
    a2bGo strict 0 0 0 false (b64encode bs) = some bs
  | [], _ => by simp [b64encode, a2bGo]
  | [a], h => by
    have ha := h a (by simp)
    rw [b64encode, a2bGo_char strict 0 _ _ (by omega), if_pos rfl,
      a2bGo_char strict 1 _ _ (by omega), if_neg (by omega), if_pos rfl, a2bGo_pad_two]
    simp only [Option.map_some, Option.some.injEq, List.cons.injEq, and_true]
    omega
  | [a, b], h => by
    have ha := h a (by simp)
    have hb := h b (by simp)
    rw [b64encode, a2bGo_char strict 0 _ _ (by omega), if_pos rfl,
      a2bGo_char strict 1 _ _ (by omega), if_neg (by omega), if_pos rfl,
      a2bGo_char strict 2 _ _ (by omega), if_neg (by omega), if_neg (by omega), if_pos rfl,
      a2bGo_pad_one]
    simp only [Option.map_some, Option.some.injEq, List.cons.injEq, and_true]
    omega
  | a :: b :: c :: rest, h => by
    have ha := h a (by simp)
    have hb := h b (by simp)
    have hc := h c (by simp)
    have ih := a2bGo_encode strict rest fun x hx => h x (by simp [hx])
    rw [b64encode, a2bGo_char strict 0 _ _ (by omega), if_pos rfl,
      a2bGo_char strict 1 _ _ (by omega), if_neg (by omega), if_pos rfl,
      a2bGo_char strict 2 _ _ (by omega), if_neg (by omega), if_neg (by omega), if_pos rfl,
      a2bGo_char strict 3 _ _ (by omega), if_neg (by omega), if_neg (by omega), if_neg (by omega),
      ih]
    simp only [Option.map_some, Option.some.injEq, List.cons.injEq, and_true]
    omega

theorem b64encode_ascii : ∀ (bs : Bytes), ∀ c ∈ b64encode bs, c < 128
  | [], c, hc => by simp [b64encode] at hc
  | [a], c, hc => by
    simp only [b64encode, List.mem_cons, List.not_mem_nil, or_false] at hc
    rcases hc with rfl | rfl | rfl | rfl <;> first | exact b64Char_lt _ | omega
  | [a, b], c, hc => by
    simp only [b64encode, List.mem_cons, List.not_mem_nil, or_false] at hc
    rcases hc with rfl | rfl | rfl | rfl <;> first | exact b64Char_lt _ | omega
  | a :: b :: d :: rest, c, hc => by
    simp only [b64encode, List.mem_cons] at hc
    rcases hc with rfl | rfl | rfl | rfl | hc
    · exact b64Char_lt _
    · exact b64Char_lt _
    · exact b64Char_lt _
    · exact b64Char_lt _
    · exact b64encode_ascii rest c hc

/-- A digit of the alphabet, or padding. -/
def IsBase64Char (c : Nat) : Prop := (b64Value c).isSome = true ∨ c = 61

instance : DecidablePred IsBase64Char := fun _ => inferInstanceAs (Decidable (_ ∨ _))

/-- It is printable, and neither a quote nor a backslash. -/
theorem isBase64Char_range {c : Nat} (h : IsBase64Char c) : 43 ≤ c ∧ c ≤ 122 ∧ c ≠ 92 := by
  rcases h with hdigit | rfl
  · unfold b64Value at hdigit
    split_ifs at hdigit <;> first | omega | cases hdigit
  · decide

/-- Every six-bit value has a digit, and beyond them the last one is given. -/
theorem b64Char_isBase64Char (n : Nat) : IsBase64Char (b64Char n) := by
  left
  by_cases h : n < 64
  · rw [b64Value_b64Char h]
    rfl
  · have hlast : b64Char n = b64Char 63 := by
      unfold b64Char
      split_ifs <;> omega
    rw [hlast, b64Value_b64Char (by omega)]
    rfl

theorem b64encode_isBase64Char : ∀ (bs : Bytes), ∀ c ∈ b64encode bs, IsBase64Char c
  | [], c, hc => by cases hc
  | [a], c, hc => by
    simp only [b64encode, List.mem_cons, List.not_mem_nil, or_false] at hc
    rcases hc with rfl | rfl | rfl | rfl
    · exact b64Char_isBase64Char _
    · exact b64Char_isBase64Char _
    · exact Or.inr rfl
    · exact Or.inr rfl
  | [a, b], c, hc => by
    simp only [b64encode, List.mem_cons, List.not_mem_nil, or_false] at hc
    rcases hc with rfl | rfl | rfl | rfl
    · exact b64Char_isBase64Char _
    · exact b64Char_isBase64Char _
    · exact b64Char_isBase64Char _
    · exact Or.inr rfl
  | a :: b :: d :: rest, c, hc => by
    simp only [b64encode, List.mem_cons] at hc
    rcases hc with rfl | rfl | rfl | rfl | hc
    · exact b64Char_isBase64Char _
    · exact b64Char_isBase64Char _
    · exact b64Char_isBase64Char _
    · exact b64Char_isBase64Char _
    · exact b64encode_isBase64Char rest c hc

/-- **Base64 decoding undoes encoding**, in both modes. -/
theorem b64decode_encode (validate : Bool) {bs : Bytes} (h : ∀ b ∈ bs, b < 256) :
    b64decode validate (b64encode bs) = .ok bs := by
  have hascii : ¬ ∃ c ∈ b64encode bs, 128 ≤ c := by
    intro hyp
    obtain ⟨c, hc, hge⟩ := hyp
    have := b64encode_ascii bs c hc
    omega
  rw [b64decode, if_neg hascii, a2bGo_encode validate bs h]

/-- The strict mode refuses a text whose first character is outside the alphabet. -/
theorem b64decode_strict_error {c : Nat} {s : PyStr} (hpad : c ≠ 61) (hc : b64Value c = none) :
    ∃ e, b64decode true (c :: s) = .error e := by
  unfold b64decode
  by_cases h : ∃ x ∈ c :: s, 128 ≤ x
  · rw [if_pos h]; exact ⟨_, rfl⟩
  · rw [if_neg h]
    refine ⟨.malformed, ?_⟩
    rw [a2bGo, if_neg hpad, hc]
    rfl

/-- The first character of an encoded text depends on the first octet alone. -/
theorem b64encode_cons (a : Nat) (bs : Bytes) :
    ∃ s, b64encode (a :: bs) = b64Char (a / 4) :: s := by
  rcases bs with _ | ⟨b, _ | ⟨c, rest⟩⟩ <;> exact ⟨_, rfl⟩

theorem b64Value_lt {c v : Nat} (h : b64Value c = some v) : v < 64 := by
  unfold b64Value at h
  split_ifs at h <;> simp only [Option.some.injEq] at h <;> omega

/-- In a group that is open after one character, that character gives the upper bits of
the first octet. -/
theorem a2bGo_first {v : Nat} {padding : Bool} {s : PyStr} {octets : Bytes}
    (h : a2bGo true 1 v 0 padding s = some octets) : ∃ b bs, octets = b :: bs ∧ b / 4 = v := by
  induction s generalizing padding with
  | nil => cases h
  | cons c s ih =>
    rw [a2bGo] at h
    by_cases hpad : c = 61
    · -- one character cannot be padded: the group stays open
      rw [if_pos hpad, if_neg (by omega), if_neg (by omega)] at h
      exact ih h
    · rw [if_neg hpad] at h
      cases hv : b64Value c with
      | none => rw [hv] at h; cases h
      | some v' =>
        rw [hv] at h
        cases padding with
        | true => cases h
        | false =>
          simp only [Bool.false_eq_true, and_false, if_false, Nat.one_ne_zero, if_true] at h
          obtain ⟨bs, -, rfl⟩ := Option.map_eq_some_iff.mp h
          have hlt := b64Value_lt hv
          exact ⟨_, bs, rfl, by omega⟩

/-- What the strict mode decodes starts with the bits of the first character. -/
theorem b64decode_strict_head {c : Nat} {s : PyStr} {octets : Bytes}
    (h : b64decode true (c :: s) = .ok octets) :
    ∃ b bs, octets = b :: bs ∧ b64Value c = some (b / 4) := by
  unfold b64decode at h
  split at h
  · cases h
  · rw [a2bGo] at h
    by_cases hpad : c = 61
    · rw [if_pos hpad] at h
      cases h
    · rw [if_neg hpad] at h
      cases hv : b64Value c with
      | none => rw [hv] at h; cases h
      | some v =>
        rw [hv] at h
        simp only [Bool.false_eq_true, and_false, if_false, if_true] at h
        cases hgo : a2bGo true 1 v 0 false s with
        | none => rw [hgo] at h; cases h
        | some bs =>
          rw [hgo] at h
          obtain ⟨b, bs', rfl, hb⟩ := a2bGo_first hgo
          exact ⟨b, bs', (Except.ok.inj h).symm, by rw [hb]⟩

end LingoAsync.Text
