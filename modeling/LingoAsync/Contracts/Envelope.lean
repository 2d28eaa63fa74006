import LingoAsync.Contracts.Messages

/-!
# Unwrapping kombu's envelope

`_try_kombu_envelope`, `_unwrap_kombu_envelope` and `parse_event` of
`app/contracts/messages.py`. A body arrives as a bare event, as the envelope
kombu puts around it, or as base64 of that envelope, and nothing says which: the
code tries to read it as JSON, looks for the envelope's three keys, and else
tries strict base64.

`_try_kombu_envelope` catches what `json.loads` raises, all but the recursion
limit; it does not catch what decoding the envelope's own body raises, and
neither does anything above it. `unwrapKombuEnvelope_isOk` says exactly when the
decoder returns, and `parseEvent_escapes_iff` what that means for its caller, who
catches `ValidationError` alone.
-/

namespace LingoAsync.Contracts

open LingoAsync.Text

/-- The interpreter: how deeply JSON may nest before the parser raises
`RecursionError`, `bytes.decode(encoding)`, which knows nothing of pydantic, and
`int(s)` of a text. -/
structure Runtime where
  recursionLimit : Nat
  recursionLimit_pos : 1 ≤ recursionLimit
  decode : (encoding : PyStr) → Bytes → Except PyExc PyStr
  decode_utf8 : ∀ bs, decode (py "utf-8") bs =
    match utf8Decode bs with
    | some s => .ok s
    | none => .error .UnicodeDecodeError
  decode_error : ∀ encoding bs e, decode encoding bs = .error e → e.isValidationError = false
  intOfStr : PyStr → Except PyExc Int

variable {F D : Type} [PyFloat F]

/-- `base64.b64decode(inner)`, of a JSON value. -/
def b64decodeJson : Json F → Except PyExc Bytes
  | .str s => (b64decode false s).mapError .ofBase64Error
  | _ => .error .TypeError

/-- `octets.decode(encoding)` for `encoding = obj.get("content-encoding") or "utf-8"`. -/
def decodeWith (rt : Runtime) (encoding : Option (Json F)) (octets : Bytes) : Except PyExc PyStr :=
  match encoding with
  | none => rt.decode (py "utf-8") octets
  | some j =>
    if j.truthy = false then rt.decode (py "utf-8") octets
    else
      match j with
      | .str s => rt.decode s octets
      | _ => .error .TypeError

/-- `base64.b64decode(inner).decode(encoding)`. -/
def decodePayload (rt : Runtime) (inner : Json F) (encoding : Option (Json F)) :
    Except PyExc PyStr :=
  match b64decodeJson inner with
  | .ok octets => decodeWith rt encoding octets
  | .error e => .error e

/-- An object with the envelope's three keys: its body and its properties. -/
def asEnvelope (obj : List (PyStr × Json F)) :
    Option (Json F × List (PyStr × Json F)) :=
  match Json.lookup (py "body") obj, Json.lookup (py "content-type") obj,
    Json.lookup (py "properties") obj with
  | some inner, some _, some (.dict properties) => some (inner, properties)
  | _, _, _ => none

/-- A plain-string payload, or the JSON text of one that is not a string. -/
def plainPayload : Json F → Except PyExc PyStr
  | .str s => .ok s
  | inner =>
    match inner.dumpsChecked .default with
    | some text => .ok text
    | none =>
      .error (.ValueError (py "Exceeds the limit (4300 digits) for integer string conversion"))

/-- The payload of an envelope. -/
def envelopePayload (rt : Runtime) (obj : List (PyStr × Json F)) (inner : Json F)
    (properties : List (PyStr × Json F)) : Except PyExc PyStr :=
  if Json.isStr (Json.lookup (py "body_encoding") properties) (py "base64") then
    decodePayload rt inner (Json.lookup (py "content-encoding") obj)
  else plainPayload inner

/-- `_try_kombu_envelope`. The type of floats is an argument, since the result does
not show it. -/
def tryKombuEnvelope (F : Type) [PyFloat F] (rt : Runtime) (text : PyStr) :
    Except PyExc (Option PyStr) :=
  match (Json.loads rt.recursionLimit text : Except JsonError (Json F)) with
  | .error .decode => .ok none
  -- no `ValueError`, so it is not caught
  | .error .recursion => .error .RecursionError
  | .ok (.dict obj) =>
    match asEnvelope obj with
    | some (inner, properties) => (envelopePayload rt obj inner properties).map some
    | none => .ok none
  | .ok _ => .ok none

/-- What `parse_event` is given. -/
inductive Body (F : Type) where
  | str (s : PyStr)
  | bytes (bs : Bytes)
  | dict (kvs : List (PyStr × Json F))

/-- The result of `_unwrap_kombu_envelope` on `text`: the inner payload, or nothing
where the body is to be returned as it came. -/
def unwrapText (F : Type) [PyFloat F] (rt : Runtime) (text : PyStr) : Except PyExc (Option PyStr) :=
  match tryKombuEnvelope F rt text with
  | .error e => .error e
  | .ok (some inner) => .ok (some inner)
  | .ok none =>
    match b64decode true text with
    | .error _ => .ok none
    | .ok octets =>
      match utf8Decode octets with
      | none => .ok none
      -- outside the `try`: what this raises, the decoder raises
      | some decoded => tryKombuEnvelope F rt decoded

/-- `_unwrap_kombu_envelope` on a `str`. -/
def unwrapKombuEnvelope (F : Type) [PyFloat F] (rt : Runtime) (body : PyStr) : Except PyExc PyStr :=
  (unwrapText F rt body).map (·.getD body)

/-- `parse_event`. -/
def parseEvent (rt : Runtime) (p : Pydantic F D) : Body F → Except PyExc (EventMessage F D)
  | .str body =>
    match unwrapKombuEnvelope F rt body with
    | .error e => .error e
    | .ok text => validateParsed p (p.jsonOfStr text)
  | .bytes body =>
    match utf8Decode body with
    | none => .error .UnicodeDecodeError
    | some text =>
      match unwrapText F rt text with
      | .error e => .error e
      | .ok (some inner) => validateParsed p (p.jsonOfStr inner)
      | .ok none => validateParsed p (p.jsonOfBytes body)
  | .dict kvs => validatePython p (.dict kvs)

/-! ## When the decoder raises -/

/-- An envelope whose body decodes: base64, and octets its content encoding knows. -/
def DecodesPayload (rt : Runtime) (obj : List (PyStr × Json F)) (inner : Json F)
    (properties : List (PyStr × Json F)) : Prop :=
  Json.isStr (Json.lookup (py "body_encoding") properties) (py "base64") = true →
    ∃ s octets text, inner = .str s ∧ b64decode false s = .ok octets ∧
      decodeWith rt (Json.lookup (py "content-encoding") obj) octets = .ok text

/-- A text the envelope reader can take: it does not nest past the limit, and if it
is an envelope, the envelope's body decodes. -/
def Readable (F : Type) [PyFloat F] (rt : Runtime) (text : PyStr) : Prop :=
  (Json.loads rt.recursionLimit text : Except JsonError (Json F)) ≠ .error .recursion ∧
  ∀ obj inner properties,
    (Json.loads rt.recursionLimit text : Except JsonError (Json F)) = .ok (.dict obj) →
      asEnvelope obj = some (inner, properties) → DecodesPayload rt obj inner properties

theorem dumpsChecked_of_loads {depth : Nat} {text : PyStr} {obj : List (PyStr × Json F)}
    (h : Json.loads depth text = .ok (.dict obj)) {kv : PyStr × Json F} (hkv : kv ∈ obj)
    (o : Json.DumpsOptions) : kv.2.dumpsChecked o = some (kv.2.dumps o) := by
  have hshape := Json.loads_shaped h
  cases depth with
  | zero => exact absurd hshape (by simp [Json.Shaped])
  | succ depth =>
    have hfits : kv.2.fits = true := Json.shaped_fits (hshape.2 kv hkv).2
    rw [Json.dumpsChecked, if_pos hfits]

/-- Mapping a result over does not change whether there is one. -/
theorem map_isOk {ε α β : Type} {x : Except ε α} {f : α → β} :
    (∃ b, x.map f = .ok b) ↔ ∃ a, x = .ok a := by
  cases x with
  | error e => simp [Except.map]
  | ok a => simp [Except.map]

theorem map_error {ε α β : Type} {x : Except ε α} {f : α → β} {e : ε}
    (h : x.map f = .error e) : x = .error e := by
  cases x with
  | error e' => exact congrArg _ (Except.error.inj h)
  | ok a => cases h

/-- A payload that can be printed can be passed on. -/
theorem plainPayload_ok {inner : Json F} {text : PyStr}
    (h : inner.dumpsChecked .default = some text) : ∃ t, plainPayload inner = .ok t := by
  cases inner with
  | str s => exact ⟨s, rfl⟩
  | _ => exact ⟨text, by simp only [plainPayload, h]⟩

omit [PyFloat F] in
theorem asEnvelope_body {obj : List (PyStr × Json F)} {inner : Json F}
    {properties : List (PyStr × Json F)} (h : asEnvelope obj = some (inner, properties)) :
    Json.lookup (py "body") obj = some inner := by
  unfold asEnvelope at h
  split at h
  · rename_i hbody _ _
    obtain ⟨rfl, rfl⟩ := Prod.mk.inj (Option.some.inj h)
    exact hbody
  · cases h

/-- The payload of a base64 envelope is read exactly when it decodes. -/
theorem decodePayload_isOk {rt : Runtime} {obj : List (PyStr × Json F)} {inner : Json F} :
    (∃ text, decodePayload rt inner (Json.lookup (py "content-encoding") obj) = .ok text) ↔
      ∃ s octets text, inner = .str s ∧ b64decode false s = .ok octets ∧
        decodeWith rt (Json.lookup (py "content-encoding") obj) octets = .ok text := by
  constructor
  · intro hyp
    obtain ⟨text, h⟩ := hyp
    unfold decodePayload at h
    cases inner with
    | str s =>
      simp only [b64decodeJson] at h
      cases hb : b64decode false s with
      | error e => rw [hb] at h; cases h
      | ok octets =>
        rw [hb] at h
        exact ⟨s, octets, text, rfl, hb, h⟩
    | _ => cases h
  · intro hyp
    obtain ⟨s, octets, text, rfl, hb, hd⟩ := hyp
    refine ⟨text, ?_⟩
    simp only [decodePayload, b64decodeJson, hb]
    exact hd

/-- An envelope's payload is passed on unless it is base64 that does not decode. -/
theorem envelopePayload_isOk {rt : Runtime} {text : PyStr} {obj : List (PyStr × Json F)}
    {inner : Json F} {properties : List (PyStr × Json F)}
    (hl : Json.loads rt.recursionLimit text = .ok (.dict obj))
    (henv : asEnvelope obj = some (inner, properties)) :
    (∃ t, envelopePayload rt obj inner properties = .ok t) ↔
      DecodesPayload rt obj inner properties := by
  unfold envelopePayload DecodesPayload
  by_cases hb : Json.isStr (Json.lookup (py "body_encoding") properties) (py "base64") = true
  · rw [if_pos hb, ← decodePayload_isOk]
    simp only [hb, true_implies]
  · -- a plain payload that `json.loads` returned can be printed
    rw [if_neg hb]
    refine iff_of_true ?_ fun h => absurd h hb
    have hmem := Json.lookup_mem (asEnvelope_body henv)
    exact plainPayload_ok (dumpsChecked_of_loads hl hmem .default)

/-- The envelope reader returns on exactly the readable texts. -/
theorem tryKombuEnvelope_isOk (rt : Runtime) (text : PyStr) :
    (∃ r, tryKombuEnvelope F rt text = .ok r) ↔ Readable F rt text := by
  unfold tryKombuEnvelope Readable
  cases hl : (Json.loads rt.recursionLimit text : Except JsonError (Json F)) with
  | error e =>
    cases e with
    | decode => simp
    | recursion => simp
  | ok j =>
    cases j with
    | dict obj =>
      simp only [ne_eq, reduceCtorEq, not_false_eq_true, true_and, Except.ok.injEq, Json.dict.injEq]
      cases henv : asEnvelope obj with
      | none =>
        refine ⟨?_, fun _ => ⟨_, rfl⟩⟩
        intro _ obj' inner properties hobj h
        rw [← hobj, henv] at h
        cases h
      | some ip =>
        obtain ⟨inner, properties⟩ := ip
        rw [map_isOk, envelopePayload_isOk hl henv]
        constructor
        · intro h obj' inner' properties' hobj h'
          subst hobj
          rw [henv] at h'
          obtain ⟨rfl, rfl⟩ := Prod.mk.inj (Option.some.inj h')
          exact h
        · intro h
          exact h obj inner properties rfl henv
    | _ => simp

/-- A text that is an envelope. -/
def IsEnvelope (F : Type) [PyFloat F] (rt : Runtime) (text : PyStr) : Prop :=
  ∃ (obj : List (PyStr × Json F)) (inner : Json F) (properties : List (PyStr × Json F)),
    Json.loads rt.recursionLimit text = .ok (.dict obj) ∧ asEnvelope obj = some (inner, properties)

/-- The reader finds nothing in exactly the readable texts that are no envelope. -/
theorem tryKombuEnvelope_none_iff (rt : Runtime) (text : PyStr) :
    tryKombuEnvelope F rt text = .ok none ↔
      (Json.loads rt.recursionLimit text : Except JsonError (Json F)) ≠ .error .recursion ∧
        ¬ IsEnvelope F rt text := by
  unfold tryKombuEnvelope IsEnvelope
  cases hl : (Json.loads rt.recursionLimit text : Except JsonError (Json F)) with
  | error e =>
    cases e with
    | decode => simp
    | recursion => simp
  | ok j =>
    cases j with
    | dict obj =>
      simp only [ne_eq, reduceCtorEq, not_false_eq_true, true_and, Except.ok.injEq, Json.dict.injEq]
      cases henv : asEnvelope obj with
      | none =>
        refine ⟨?_, fun _ => rfl⟩
        intro _ hyp
        obtain ⟨obj', inner, properties, rfl, h⟩ := hyp
        rw [henv] at h
        cases h
      | some ip =>
        refine ⟨?_, fun h => absurd ⟨obj, ip.1, ip.2, rfl, henv⟩ h⟩
        intro h
        simp only at h
        cases hp : envelopePayload rt obj ip.1 ip.2 with
        | error e => rw [hp] at h; cases h
        | ok t => rw [hp] at h; cases h
    | _ => simp

/-- A text `_unwrap_kombu_envelope` can take: it is readable, and if it is no envelope
itself, what it is base64 of is readable too. -/
def Unwrappable (F : Type) [PyFloat F] (rt : Runtime) (text : PyStr) : Prop :=
  Readable F rt text ∧
  (¬ IsEnvelope F rt text → ∀ octets decoded,
    b64decode true text = .ok octets → utf8Decode octets = some decoded → Readable F rt decoded)

/-- Unwrapping returns on exactly the unwrappable texts. -/
theorem unwrapKombuEnvelope_isOk (rt : Runtime) (text : PyStr) :
    (∃ t, unwrapKombuEnvelope F rt text = .ok t) ↔ Unwrappable F rt text := by
  have hmap : (∃ t, unwrapKombuEnvelope F rt text = .ok t) ↔ ∃ r, unwrapText F rt text = .ok r :=
    map_isOk
  rw [hmap]
  unfold Unwrappable unwrapText
  rw [← tryKombuEnvelope_isOk]
  have hnone := tryKombuEnvelope_none_iff (F := F) rt text
  cases ht : tryKombuEnvelope F rt text with
  | error e => simp
  | ok r =>
    rw [ht] at hnone
    cases r with
    | some inner =>
      have henv : IsEnvelope F rt text := by
        by_contra hno
        refine absurd (hnone.mpr ⟨?_, hno⟩) (by simp)
        exact ((tryKombuEnvelope_isOk rt text).mp ⟨_, ht⟩).1
      constructor
      · intro _
        exact ⟨⟨_, rfl⟩, fun h => absurd henv h⟩
      · intro _
        exact ⟨_, rfl⟩
    | none =>
      have hno : ¬ IsEnvelope F rt text := (hnone.mp rfl).2
      simp only [exists_apply_eq_apply', true_and, hno, not_false_eq_true, true_implies]
      cases hb : b64decode true text with
      | error e => simp
      | ok octets =>
        cases hd : utf8Decode octets with
        | none =>
          simp only [hd]
          refine ⟨?_, fun _ => ⟨none, rfl⟩⟩
          intro _ octets' decoded ho hu
          rw [← Except.ok.inj ho, hd] at hu
          cases hu
        | some decoded =>
          simp only [hd, tryKombuEnvelope_isOk]
          refine ⟨?_, fun h => h octets decoded rfl hd⟩
          intro h octets' decoded' ho hu
          rw [← Except.ok.inj ho, hd] at hu
          exact Option.some.inj hu ▸ h

/-- Nothing that decodes an envelope raises `ValidationError`. -/
theorem envelopePayload_error {rt : Runtime} {obj properties : List (PyStr × Json F)}
    {inner : Json F} {e : PyExc} (h : envelopePayload rt obj inner properties = .error e) :
    e.isValidationError = false := by
  unfold envelopePayload at h
  split at h
  · unfold decodePayload at h
    split at h
    · rename_i octets _
      unfold decodeWith at h
      split at h
      · exact rt.decode_error _ _ _ h
      · split at h
        · exact rt.decode_error _ _ _ h
        · split at h
          · exact rt.decode_error _ _ _ h
          · rw [← Except.error.inj h]; rfl
    · rename_i e' hb
      obtain rfl := Except.error.inj h
      unfold b64decodeJson at hb
      split at hb
      · rename_i s
        cases hs : b64decode false s with
        | ok octets => rw [hs] at hb; cases hb
        | error e'' =>
          rw [hs] at hb
          rw [← Except.error.inj hb]
          cases e'' <;> rfl
      · rw [← Except.error.inj hb]; rfl
  · unfold plainPayload at h
    split at h
    · cases h
    · split at h
      · cases h
      · rw [← Except.error.inj h]; rfl

theorem tryKombuEnvelope_error {rt : Runtime} {text : PyStr} {e : PyExc}
    (h : tryKombuEnvelope F rt text = .error e) : e.isValidationError = false := by
  unfold tryKombuEnvelope at h
  split at h
  · cases h
  · rw [← Except.error.inj h]; rfl
  · rename_i obj _
    split at h
    · exact envelopePayload_error (map_error h)
    · cases h
  · cases h

theorem unwrapKombuEnvelope_error {rt : Runtime} {text : PyStr} {e : PyExc}
    (h : unwrapKombuEnvelope F rt text = .error e) : e.isValidationError = false := by
  have hu : unwrapText F rt text = .error e := map_error h
  unfold unwrapText at hu
  split at hu
  · rename_i ht
    exact Except.error.inj hu ▸ tryKombuEnvelope_error ht
  · cases hu
  · -- no envelope: what the text is base64 of is read as one
    split at hu
    · cases hu
    · split at hu
      · cases hu
      · exact tryKombuEnvelope_error hu

/-- Validation raises nothing but `ValidationError`. -/
theorem validateParsed_error {p : Pydantic F D} {j : Option (Json F)} {e : PyExc}
    (h : validateParsed p j = .error e) : e.isValidationError = true := by
  unfold validateParsed at h
  cases j with
  | none => rw [← Except.error.inj h]; rfl
  | some j =>
    cases hv : validateEvent p .json j with
    | ok m => simp [hv, Except.mapError] at h
    | error errors =>
      simp only [hv, Except.mapError, Except.error.injEq] at h
      rw [← h]
      rfl

/-- `parse_event` raises something else than `ValidationError` on exactly the texts it
cannot unwrap. -/
theorem parseEvent_escapes_iff (rt : Runtime) (p : Pydantic F D) (text : PyStr) :
    (∃ e, parseEvent rt p (.str text) = .error e ∧ e.isValidationError = false) ↔
      ¬ Unwrappable F rt text := by
  rw [← unwrapKombuEnvelope_isOk]
  cases hu : unwrapKombuEnvelope F rt text with
  | error e =>
    refine iff_of_true ⟨e, ?_, unwrapKombuEnvelope_error hu⟩ (by simp)
    simp only [parseEvent, hu]
  | ok t =>
    refine iff_of_false ?_ (fun hno => hno ⟨t, rfl⟩)
    intro hyp
    obtain ⟨e, he, hno⟩ := hyp
    simp only [parseEvent, hu] at he
    rw [validateParsed_error he] at hno
    cases hno

end LingoAsync.Contracts
