import Mathlib.Data.List.Nodup
import Mathlib.Data.Nat.Digits.Defs
import LingoAsync.Text.Str

/-!
# JSON values and `json.dumps`

The values `json.loads` returns and `json.dumps` prints. A `dict` keeps its
entries in insertion order, one per key. Binary floats stay abstract: a type `F`
with the few things the program asks of a float (`PyFloat`), so every result
holds of the machine's doubles without a model of their rounding.

`dumps` prints with the two options a producer can choose: escape everything
outside ASCII or not, and put a blank after `,` and `:` or not. It is the text
alone; `dumpsChecked` adds the one way printing can raise, an integer past the
interpreter's limit on decimal digits (`intMaxStrDigits`).
-/

namespace LingoAsync.Text

/-- What the program needs of a float type: `float(token)`, the token `json.dumps`
prints, whether the value is zero, `x <= y`, and `int(x)`, which infinities and NaN
do not have. -/
class PyFloat (F : Type) where
  ofToken : PyStr → F
  repr : F → PyStr
  isZero : F → Bool
  le : F → F → Bool
  toInt : F → Option Int

inductive Json (F : Type) where
  | null
  | bool (b : Bool)
  | int (n : Int)
  | float (x : F)
  | str (s : PyStr)
  | list (xs : List (Json F))
  | dict (kvs : List (PyStr × Json F))

namespace Json

variable {F : Type}

/-! ## Access -/

/-- `bool(j)`: the truth value. -/
def truthy [PyFloat F] : Json F → Bool
  | .null => false
  | .bool b => b
  | .int n => n != 0
  | .float x => !PyFloat.isZero x
  | .str s => !s.isEmpty
  | .list xs => !xs.isEmpty
  | .dict kvs => !kvs.isEmpty

/-- `kvs.get(key)`; `none` where the key is absent. -/
def lookup (key : PyStr) (kvs : List (PyStr × Json F)) : Option (Json F) :=
  (kvs.find? fun kv => kv.1 = key).map (·.2)

/-- `kvs[key] = value`: replace in place, or append. -/
def insert (kvs : List (PyStr × Json F)) (kv : PyStr × Json F) : List (PyStr × Json F) :=
  if kv.1 ∈ kvs.map (·.1) then kvs.map fun e => if e.1 = kv.1 then kv else e
  else kvs ++ [kv]

/-- The dict a sequence of assignments builds. -/
def ofEntries (kvs : List (PyStr × Json F)) : List (PyStr × Json F) :=
  kvs.foldl insert []

/-- `j == s` for a string literal `s`. -/
def isStr (j : Option (Json F)) (s : PyStr) : Bool :=
  match j with
  | some (.str t) => decide (t = s)
  | _ => false

theorem lookup_eq_none_iff {key : PyStr} {kvs : List (PyStr × Json F)} :
    lookup key kvs = none ↔ key ∉ kvs.map (·.1) := by
  simp only [lookup, Option.map_eq_none_iff, List.find?_eq_none, decide_eq_true_eq, List.mem_map,
    not_exists, not_and]

theorem lookup_mem {key : PyStr} {kvs : List (PyStr × Json F)} {v : Json F}
    (h : lookup key kvs = some v) : (key, v) ∈ kvs := by
  unfold lookup at h
  obtain ⟨⟨k, w⟩, hfind, hv⟩ := Option.map_eq_some_iff.mp h
  have hk := List.find?_some hfind
  simp only [decide_eq_true_eq] at hk
  simp only at hv
  rw [← hk, ← hv]
  exact List.mem_of_find?_eq_some hfind

theorem keys_insert (kvs : List (PyStr × Json F)) (kv : PyStr × Json F) :
    (insert kvs kv).map (·.1) =
      if kv.1 ∈ kvs.map (·.1) then kvs.map (·.1) else kvs.map (·.1) ++ [kv.1] := by
  unfold insert
  by_cases h : kv.1 ∈ kvs.map (·.1)
  · rw [if_pos h, if_pos h, List.map_map]
    refine List.map_congr_left ?_
    intro e _
    by_cases he : e.1 = kv.1 <;> simp [he]
  · rw [if_neg h, if_neg h, List.map_append]
    rfl

theorem insert_nodup {kvs : List (PyStr × Json F)} (kv : PyStr × Json F)
    (h : (kvs.map (·.1)).Nodup) : ((insert kvs kv).map (·.1)).Nodup := by
  rw [keys_insert]
  by_cases hk : kv.1 ∈ kvs.map (·.1)
  · rw [if_pos hk]; exact h
  · rw [if_neg hk]
    exact List.nodup_append'.mpr ⟨h, List.nodup_singleton _, by simpa using hk⟩

theorem mem_insert {kvs : List (PyStr × Json F)} {kv e : PyStr × Json F}
    (h : e ∈ insert kvs kv) : e ∈ kvs ∨ e = kv := by
  unfold insert at h
  by_cases hk : kv.1 ∈ kvs.map (·.1)
  · rw [if_pos hk] at h
    obtain ⟨e', he', rfl⟩ := List.mem_map.mp h
    by_cases hq : e'.1 = kv.1
    · rw [if_pos hq]; exact Or.inr rfl
    · rw [if_neg hq]; exact Or.inl he'
  · rw [if_neg hk] at h
    simpa using h

/-- A dict built by assignments has one entry for each key. -/
theorem ofEntries_nodup (kvs : List (PyStr × Json F)) : ((ofEntries kvs).map (·.1)).Nodup := by
  unfold ofEntries
  suffices h : ∀ (l acc : List (PyStr × Json F)), (acc.map (·.1)).Nodup →
      ((l.foldl insert acc).map (·.1)).Nodup from h kvs [] List.nodup_nil
  intro l
  induction l with
  | nil =>
    intro _ h
    exact h
  | cons kv l ih =>
    intro acc h
    exact ih _ (insert_nodup kv h)

/-- Every entry of the dict was assigned. -/
theorem mem_ofEntries {kvs : List (PyStr × Json F)} {e : PyStr × Json F}
    (h : e ∈ ofEntries kvs) : e ∈ kvs := by
  unfold ofEntries at h
  suffices hs : ∀ (l acc : List (PyStr × Json F)), e ∈ l.foldl insert acc → e ∈ acc ∨ e ∈ l by
    rcases hs kvs [] h with h' | h'
    · exact absurd h' (by simp)
    · exact h'
  intro l
  induction l with
  | nil =>
    intro _ h
    exact Or.inl h
  | cons kv l ih =>
    intro acc hmem
    rcases ih _ hmem with h' | h'
    · rcases mem_insert h' with h'' | rfl
      · exact Or.inl h''
      · exact Or.inr (List.mem_cons_self ..)
    · exact Or.inr (List.mem_cons_of_mem _ h')

theorem foldl_insert_of_nodup :
    ∀ (l acc : List (PyStr × Json F)), ((acc ++ l).map (·.1)).Nodup →
      l.foldl insert acc = acc ++ l := by
  intro l
  induction l with
  | nil => intro acc _; simp
  | cons kv l ih =>
    intro acc h
    have hk : kv.1 ∉ acc.map (·.1) := by
      simp only [List.map_append, List.map_cons] at h
      intro hmem
      exact (List.nodup_append'.mp h).2.2 hmem (List.mem_cons_self ..)
    have hins : insert acc kv = acc ++ [kv] := by rw [insert, if_neg hk]
    rw [List.foldl_cons, hins, ih (acc ++ [kv]) (by rwa [List.append_assoc]), List.append_assoc]
    rfl

/-- Assigning distinct keys in order gives back the entries. -/
theorem ofEntries_of_nodup {kvs : List (PyStr × Json F)} (h : (kvs.map (·.1)).Nodup) :
    ofEntries kvs = kvs := by
  rw [ofEntries, foldl_insert_of_nodup kvs [] h, List.nil_append]

/-! ## Printing -/

/-- How a producer prints: `ensure_ascii`, and the separators `, ` and `: ` or the
compact `,` and `:`. -/
structure DumpsOptions where
  ensureAscii : Bool
  spaced : Bool
  deriving DecidableEq, Repr

/-- `json.dumps` with no arguments. -/
def DumpsOptions.default : DumpsOptions := ⟨true, true⟩

def DumpsOptions.gap (o : DumpsOptions) : PyStr := if o.spaced then [32] else []

/-- A lower-case hexadecimal digit. -/
def hexDigit (n : Nat) : Nat := if n < 10 then n + 48 else n + 87

/-- `\uXXXX`. -/
def unicodeEscape (u : Nat) : PyStr :=
  [92, 117, hexDigit (u / 4096 % 16), hexDigit (u / 256 % 16), hexDigit (u / 16 % 16),
    hexDigit (u % 16)]

/-- One character inside a string literal. -/
def escapeChar (ensureAscii : Bool) (c : Nat) : PyStr :=
  if c = 34 then [92, 34]
  else if c = 92 then [92, 92]
  else if c = 8 then [92, 98]
  else if c = 9 then [92, 116]
  else if c = 10 then [92, 110]
  else if c = 12 then [92, 102]
  else if c = 13 then [92, 114]
  else if c < 32 then unicodeEscape c
  else if c < 127 ∨ ensureAscii = false then [c]
  else if c < 0x10000 then unicodeEscape c
  else
    unicodeEscape (0xD800 + (c - 0x10000) / 1024) ++
      unicodeEscape (0xDC00 + (c - 0x10000) % 1024)

/-- A string literal, quotes included. -/
def dumpsStr (o : DumpsOptions) (s : PyStr) : PyStr :=
  34 :: (s.flatMap (escapeChar o.ensureAscii) ++ [34])

/-- Decimal digits. -/
def dumpsNat (n : Nat) : PyStr :=
  if n = 0 then [48] else (Nat.digits 10 n).reverse.map (· + 48)

def dumpsInt (n : Int) : PyStr :=
  if n < 0 then 45 :: dumpsNat n.natAbs else dumpsNat n.natAbs

mutual

/-- The text of `json.dumps(j)`. -/
def dumps [PyFloat F] (o : DumpsOptions) : Json F → PyStr
  | .null => py "null"
  | .bool true => py "true"
  | .bool false => py "false"
  | .int n => dumpsInt n
  | .float x => PyFloat.repr x
  | .str s => dumpsStr o s
  | .list xs => 91 :: (dumpsElems o xs ++ [93])
  | .dict kvs => 123 :: (dumpsMembers o kvs ++ [125])

/-- The elements of a list, separated. -/
def dumpsElems [PyFloat F] (o : DumpsOptions) : List (Json F) → PyStr
  | [] => []
  | [x] => dumps o x
  | x :: y :: xs => dumps o x ++ 44 :: (o.gap ++ dumpsElems o (y :: xs))

/-- The members of a dict, separated. -/
def dumpsMembers [PyFloat F] (o : DumpsOptions) : List (PyStr × Json F) → PyStr
  | [] => []
  | [(k, v)] => dumpsStr o k ++ 58 :: (o.gap ++ dumps o v)
  | (k, v) :: kv :: kvs =>
    dumpsStr o k ++ 58 :: (o.gap ++ (dumps o v ++ 44 :: (o.gap ++ dumpsMembers o (kv :: kvs))))

end

/-- `sys.int_info.default_max_str_digits`: longer decimal integers raise
`ValueError`, read or printed. -/
def intMaxStrDigits : Nat := 4300

/-- An integer within the interpreter's limit. -/
def intFits (n : Int) : Bool := decide ((dumpsNat n.natAbs).length ≤ intMaxStrDigits)

mutual

/-- Every integer inside is within the limit. -/
def fits : Json F → Bool
  | .int n => intFits n
  | .list xs => fitsElems xs
  | .dict kvs => fitsMembers kvs
  | _ => true

def fitsElems : List (Json F) → Bool
  | [] => true
  | x :: xs => fits x && fitsElems xs

def fitsMembers : List (PyStr × Json F) → Bool
  | [] => true
  | (_, v) :: kvs => fits v && fitsMembers kvs

end

/-- `json.dumps(j)`; `none` is the `ValueError` of an integer past the limit. -/
def dumpsChecked [PyFloat F] (o : DumpsOptions) (j : Json F) : Option PyStr :=
  if j.fits then some (j.dumps o) else none

/-- The text of a value inside a dict stands in the text of the dict. -/
theorem dumps_infix_of_mem [PyFloat F] (o : DumpsOptions) {kvs : List (PyStr × Json F)}
    {kv : PyStr × Json F} (h : kv ∈ kvs) : kv.2.dumps o <:+: (Json.dict kvs).dumps o := by
  have hmembers : kv.2.dumps o <:+: dumpsMembers o kvs := by
    induction kvs with
    | nil => cases h
    | cons e kvs ih =>
      obtain ⟨k, v⟩ := e
      cases kvs with
      | nil =>
        rw [List.mem_singleton.mp h, dumpsMembers]
        exact ⟨dumpsStr o k ++ 58 :: o.gap, [], by simp⟩
      | cons e' kvs =>
        rw [dumpsMembers]
        rcases List.mem_cons.mp h with rfl | h
        · exact ⟨dumpsStr o k ++ 58 :: o.gap, 44 :: (o.gap ++ dumpsMembers o (e' :: kvs)), by simp⟩
        · obtain ⟨before, after, hin⟩ := ih h
          refine ⟨dumpsStr o k ++ 58 :: (o.gap ++ (v.dumps o ++ 44 :: (o.gap ++ before))),
            after, ?_⟩
          rw [← hin]
          simp
  rw [dumps]
  exact (hmembers.trans (List.infix_append' [123] _ [125])).trans (by simp)

theorem fitsElems_of_forall {xs : List (Json F)} (h : ∀ x ∈ xs, x.fits = true) :
    fitsElems xs = true := by
  induction xs with
  | nil => rfl
  | cons x xs ih =>
    rw [fitsElems, h x (by simp), ih fun y hy => h y (by simp [hy])]
    rfl

theorem fitsMembers_of_forall {kvs : List (PyStr × Json F)} (h : ∀ kv ∈ kvs, kv.2.fits = true) :
    fitsMembers kvs = true := by
  induction kvs with
  | nil => rfl
  | cons kv kvs ih =>
    obtain ⟨k, v⟩ := kv
    rw [fitsMembers, h (k, v) (by simp), ih fun kv hkv => h kv (by simp [hkv])]
    rfl

theorem fits_of_mem {kvs : List (PyStr × Json F)} (h : fitsMembers kvs = true) :
    ∀ kv ∈ kvs, kv.2.fits = true := by
  intro kv hkv
  induction kvs with
  | nil => cases hkv
  | cons e kvs ih =>
    obtain ⟨k, v⟩ := e
    rw [fitsMembers, Bool.and_eq_true] at h
    rcases List.mem_cons.mp hkv with rfl | hkv
    · exact h.1
    · exact ih h.2 hkv

end Json

end LingoAsync.Text
