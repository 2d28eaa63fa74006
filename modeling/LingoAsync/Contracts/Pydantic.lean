import LingoAsync.Python

/-!
# Pydantic: conversions and model validation

What the contracts use of pydantic, in two parts.

Its conversions are code of its own: parsing a JSON text, reading an `int`, a
`float`, a `bool`, a `str` or a `datetime` off a value the lax way, telling whether
one is the literal `1`, writing a `datetime` out. They are the parameter `Pydantic`;
`LawfulPydantic` is what the contracts rely on, that each reads back the plain value
of its kind.

How a model is validated from them is modelled here. A `Check` is a result or
the complaints; `field` checks one field of a model, and `both` joins the checks
of several, keeping every complaint: a message that fails names all the fields
at fault, in their order.
-/

namespace LingoAsync.Contracts

open LingoAsync.Text

/-- Is the input a JSON text (`validate_json`) or Python objects
(`validate_python`)? -/
inductive InputMode where
  | json
  | python
  deriving DecidableEq, Repr

/-- Pydantic's conversions. A failed one is the `type` of the complaint. -/
structure Pydantic (F D : Type) where
  jsonOfStr : PyStr → Option (Json F)
  jsonOfBytes : Bytes → Option (Json F)
  toStr : InputMode → Json F → Except PyStr PyStr
  toInt : InputMode → Json F → Except PyStr Int
  toFloat : InputMode → Json F → Except PyStr F
  toBool : InputMode → Json F → Except PyStr Bool
  toDatetime : InputMode → Json F → Except PyStr D
  literalOne : InputMode → Json F → Except PyStr Unit
  isoformat : D → PyStr

/-- What the contracts rely on: the text `json.dumps` prints of a flat object parses
back, and a JSON value of a field's own kind is taken as it is. -/
structure LawfulPydantic {F D : Type} [PyFloat F] (p : Pydantic F D) : Prop where
  jsonOfStr_dumps : ∀ (o : Json.DumpsOptions) (kvs : List (PyStr × Json F)),
    Json.Shaped IsUnicode 1 (.dict kvs) →
    p.jsonOfStr ((Json.dict kvs).dumps o) = some (.dict kvs)
  toStr_str : ∀ s, IsUnicode s → p.toStr .json (.str s) = .ok s
  toInt_int : ∀ n, p.toInt .json (.int n) = .ok n
  toFloat_float : ∀ x, p.toFloat .json (.float x) = .ok x
  toBool_bool : ∀ b, p.toBool .json (.bool b) = .ok b
  literalOne_one : p.literalOne .json (.int 1) = .ok ()
  toDatetime_isoformat : ∀ d, p.toDatetime .json (.str (p.isoformat d)) = .ok d
  isoformat_unicode : ∀ d, IsUnicode (p.isoformat d)

/-! ## Checks -/

/-- A validated value, or what is wrong with the input. -/
abbrev Check (α : Type) := Except (List LineError) α

namespace Check

variable {α β : Type}

/-- Both checks, with the complaints of both. -/
def both (a : Check α) (b : Check β) : Check (α × β) :=
  match a, b with
  | .ok x, .ok y => .ok (x, y)
  | .error e, .ok _ => .error e
  | .ok _, .error e => .error e
  | .error e, .error e' => .error (e ++ e')

theorem both_ok {a : Check α} {b : Check β} {x : α} {y : β} (ha : a = .ok x) (hb : b = .ok y) :
    a.both b = .ok (x, y) := by
  rw [ha, hb]
  rfl

end Check

variable {F D α : Type}

/-! ## Conversions of fields -/

/-- `Literal[…]` over strings. -/
def literal (options : List (PyStr × α)) : Json F → Except PyStr α
  | .str s =>
    match options.find? fun o => o.1 = s with
    | some o => .ok o.2
    | none => .error (py "literal_error")
  | _ => .error (py "literal_error")

/-- `T | None`. -/
def nullable (conv : Json F → Except PyStr α) : Json F → Except PyStr (Option α)
  | .null => .ok none
  | j => (conv j).map some

/-- `int` with `Field(ge=bound)`. -/
def intGe (bound : Int) (conv : Json F → Except PyStr Int) (j : Json F) :
    Except PyStr { n : Int // bound ≤ n } :=
  match conv j with
  | .ok n => if h : bound ≤ n then .ok ⟨n, h⟩ else .error (py "greater_than_equal")
  | .error t => .error t

/-- `0.0 <= x` and `x <= 1.0`. -/
def InUnit [PyFloat F] (x : F) : Prop :=
  PyFloat.le (PyFloat.ofToken (py "0.0")) x = true ∧
    PyFloat.le x (PyFloat.ofToken (py "1.0")) = true

/-- `float` with `Field(ge=0.0, le=1.0)`. -/
def floatInUnit [PyFloat F] (conv : Json F → Except PyStr F) (j : Json F) :
    Except PyStr { x : F // InUnit x } :=
  match conv j with
  | .ok x =>
    if hlo : PyFloat.le (PyFloat.ofToken (py "0.0")) x = true then
      if hhi : PyFloat.le x (PyFloat.ofToken (py "1.0")) = true then .ok ⟨x, hlo, hhi⟩
      else .error (py "less_than_equal")
    else .error (py "greater_than_equal")
  | .error t => .error t

/-- One field of the model `tag`: absent, it takes its default, or is missing. -/
def field (tag name : PyStr) (default : Option α) (conv : Json F → Except PyStr α)
    (kvs : List (PyStr × Json F)) : Check α :=
  match Json.lookup name kvs with
  | some j =>
    match conv j with
    | .ok a => .ok a
    | .error t => .error [⟨t, [tag, name]⟩]
  | none =>
    match default with
    | some a => .ok a
    | none => .error [⟨py "missing", [tag, name]⟩]

/-- Every complaint about a field names that field. -/
theorem field_error_loc {tag name : PyStr} {default : Option α} {conv : Json F → Except PyStr α}
    {kvs : List (PyStr × Json F)} {errors : List LineError}
    (h : field tag name default conv kvs = .error errors) : ∃ t, errors = [⟨t, [tag, name]⟩] := by
  unfold field at h
  split at h
  · split at h
    · cases h
    · exact ⟨_, (Except.error.inj h).symm⟩
  · split at h
    · cases h
    · exact ⟨_, (Except.error.inj h).symm⟩

/-- A field is read from its value, or left at its default. -/
theorem field_ok {tag name : PyStr} {default : Option α} {conv : Json F → Except PyStr α}
    {kvs : List (PyStr × Json F)} {j : Json F} {a : α}
    (h : Json.lookup name kvs = some j ∨ (Json.lookup name kvs = none ∧ default = some a))
    (hconv : conv j = .ok a) : field tag name default conv kvs = .ok a := by
  unfold field
  rcases h with hp | ⟨hn, hd⟩
  · rw [hp]
    simp only [hconv]
  · rw [hn]
    simp only [hd]

/-! ## Conversions read back what was written -/

theorem literal_ok (options : List (PyStr × α)) {s : PyStr} {a : α}
    (h : options.find? (fun o => o.1 = s) = some (s, a)) :
    literal options (.str s : Json F) = .ok a := by
  simp only [literal, h]

theorem intGe_ok {bound n : Int} {conv : Json F → Except PyStr Int} {j : Json F}
    (hconv : conv j = .ok n) (hn : bound ≤ n) : intGe bound conv j = .ok ⟨n, hn⟩ := by
  simp only [intGe, hconv, dif_pos hn]

theorem floatInUnit_ok [PyFloat F] {x : F} {conv : Json F → Except PyStr F} {j : Json F}
    (hconv : conv j = .ok x) (hx : InUnit x) : floatInUnit conv j = .ok ⟨x, hx⟩ := by
  simp only [floatInUnit, hconv, dif_pos hx.1, dif_pos hx.2]

end LingoAsync.Contracts
