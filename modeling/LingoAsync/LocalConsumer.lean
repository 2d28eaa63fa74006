import LingoAsync.Contracts.WireForms
import LingoAsync.Handler.LogInfluence

/-!
# The local consumer

`app/local_consumer.py`. In production a message reaches the handler as SQS has it:
base64 of kombu's envelope, whose body is base64 of the JSON text of what was
published. In local development kombu has undone all that, and `LocalConsumer.handle`
gives the handler the value itself: a string as it is, anything else as JSON text.

So a value `p` has two texts, and the handler reads each with the same parser. For
most values both are the JSON text of `p` in the end. Two kinds are read differently:

* a string: production reads its JSON text, a string literal and never an event, the
  local consumer the string, which may be the text of one;
* an object with an envelope's three keys: production has taken off the envelope it
  came in and reads the object, the local consumer takes the object for the envelope.

The two paths settle a value alike and dispatch the same exactly if it is of neither
kind, or if both readings happen to find the same (`pathsAgree_iff`).
-/

namespace LingoAsync.LocalConsumer

open LingoAsync.Text LingoAsync.Contracts LingoAsync.Db LingoAsync.Handler

variable {σ L F D : Type} [PyFloat F]

/-- `message.ack()`, or `message.reject(requeue=False)`. -/
inductive Settlement where
  | ack
  | reject
  deriving DecidableEq, Repr

/-- A message as kombu hands it over: the body, decoded, and the text of the delivery
tag, where the transport has given it one. -/
structure KombuMessage (F : Type) where
  body : Json F
  deliveryTag : Option PyStr

/-- The record of `synthetic_event`; `processed` is `self._processed`. -/
def syntheticRecord (processed : Nat) (message : KombuMessage F) : Except PyExc SqsRecord :=
  (plainPayload message.body).map fun body =>
    ⟨some (py "local-" ++ message.deliveryTag.getD (Json.dumpsNat processed)), some body⟩

/-- `LocalConsumer.handle`, on the process and `self._processed`. -/
def handle (w : Worker σ F D) (message : KombuMessage F) : Py (σ × Nat) Settlement := fun s =>
  match syntheticRecord s.2 message with
  -- `json.dumps` is outside the `try`
  | .error exc => (.error exc, s)
  | .ok record =>
    match w.lambdaHandler [record] s.1 with
    | (.error _, s') => (.ok .reject, (s', s.2 + 1))
    | (.ok failures, s') => (.ok (if failures = [] then .ack else .reject), (s', s.2 + 1))

/-! ## The two paths -/

/-- What is seen of a message: how it was settled, and the events dispatched. -/
def handled (w : Worker σ F D) (openLog : Py L (Option (EventsRepo L))) (l : L)
    (message : KombuMessage F) (processed : Nat) (s : σ) :
    Option Settlement × List (EventMessage F D) :=
  let ran := handle (w.logged.withLog openLog) message (((s, []), l), processed)
  (ran.1.toOption, ran.2.1.1.2.map (·.event))

/-- The message is acknowledged exactly if the handler returns the record without a
failure, and both paths dispatch the same. -/
def PathsAgree (w : Worker σ F D) (openLog : Py L (Option (EventsRepo L))) (l : L)
    (message : KombuMessage F) (processed : Nat) (record : SqsRecord) (s : σ) : Prop :=
  ((handled w openLog l message processed s).1 = some .ack ↔
    (observed w openLog l [record] s).1 = some []) ∧
  (handled w openLog l message processed s).2 = (observed w openLog l [record] s).2

/-- The event pydantic finds in a text. -/
def eventIn (pydantic : Pydantic F D) (text : PyStr) : Option (EventMessage F D) :=
  (validateParsed pydantic (pydantic.jsonOfStr text)).toOption

/-- The two readings of a published value find the same event, or neither finds one. -/
def SameEvent (rt : Runtime) (pydantic : Pydantic F D) : Json F → Prop
  | .str s => (parseEvent rt pydantic (.str (if s = [] then py "\x7b\x7d" else s))).toOption = none
  | .dict obj => ∀ inner properties, asEnvelope obj = some (inner, properties) →
      (envelopePayload rt obj inner properties).toOption.bind (eventIn pydantic) =
        eventIn pydantic ((Json.dict obj).dumps .default)
  | _ => True

/-! ## One record -/

section OneRecord

variable {w : Worker σ F D} {openLog : Py L (Option (EventsRepo L))} {l : L}

/-- What is seen of one record follows from the event in it. -/
theorem observed_record (h : Opens openLog l) (record : SqsRecord) (s : σ) :
    ((observed w openLog l [record] s).1 = some [] ↔ ∃ event,
      (w.parse record).toOption = some event ∧
        raised (dispatch w.handlers event (w.tick s)).1 = false) ∧
    (observed w openLog l [record] s).2 = (w.parse record).toOption.toList := by
  rw [observed_opens w h]
  have hrec := handleRecord_none w.logged record (s, [])
  rw [parse_logged] at hrec
  cases hp : w.parse record with
  | error exc =>
    rw [hp] at hrec
    -- reported, or the end of the invocation
    have hseen : (w.logged.handleRecords none [record] (s, [])).1.toOption ≠ some [] ∧
        (w.logged.handleRecords none [record] (s, [])).2.2 = [] := by
      cases exc with
      | ValidationError errors => rw [handleRecords_settled hrec]; exact ⟨nofun, rfl⟩
      | _ => rw [handleRecords_ended hrec]; exact ⟨nofun, rfl⟩
    rw [hseen.2]
    refine ⟨iff_of_false hseen.1 ?_, rfl⟩
    intro hyp
    obtain ⟨event, hevent, -⟩ := hyp
    cases hevent
  | ok parsed =>
    have hlogged : dispatch w.logged.handlers parsed =
        logDispatch parsed (dispatch w.handlers parsed) := dispatch_map logDispatch _ _
    rw [hp] at hrec
    dsimp only at hrec
    rw [hlogged] at hrec
    rw [handleRecords_settled hrec]
    refine ⟨?_, rfl⟩
    have hverdict : (raised (dispatch w.handlers parsed (w.tick s)).1 = false) ↔ ∃ event,
        (Except.ok parsed : Except PyExc (EventMessage F D)).toOption = some event ∧
          raised (dispatch w.handlers event (w.tick s)).1 = false := by
      constructor
      · intro hr
        exact ⟨parsed, rfl, hr⟩
      · intro hyp
        obtain ⟨event, hevent, hr⟩ := hyp
        rwa [Option.some.inj hevent]
    rw [← hverdict]
    show some (Option.toList (if raised (dispatch w.handlers parsed (w.tick s)).1 = true then
      some record.id else none) ++ []) = some [] ↔ _
    cases raised (dispatch w.handlers parsed (w.tick s)).1 <;> simp

/-- So it is of a message: the record is the one the consumer makes of it. -/
theorem handled_message {message : KombuMessage F} {processed : Nat}
    {record : SqsRecord} (hrecord : syntheticRecord processed message = .ok record) (s : σ) :
    ((handled w openLog l message processed s).1 = some .ack ↔
      (observed w openLog l [record] s).1 = some []) ∧
    (handled w openLog l message processed s).2 = (observed w openLog l [record] s).2 := by
  unfold handled observed handle
  rw [hrecord]
  dsimp only
  cases (w.logged.withLog openLog).lambdaHandler [record] ((s, []), l) with
  | mk r s' =>
    cases r with
    | error exc => exact ⟨iff_of_false nofun nofun, rfl⟩
    | ok failures =>
      refine ⟨?_, rfl⟩
      show some (if failures = [] then Settlement.ack else .reject) = _ ↔ some failures = _
      by_cases hf : failures = [] <;> simp [hf]

/-- Two records are seen alike exactly if the log does not open, or the same event is in
both, or none. -/
theorem observed_agree_iff (record record' : SqsRecord) (s : σ) :
    (((observed w openLog l [record] s).1 = some [] ↔
        (observed w openLog l [record'] s).1 = some []) ∧
      (observed w openLog l [record] s).2 = (observed w openLog l [record'] s).2) ↔
    ¬ Opens openLog l ∨ (w.parse record).toOption = (w.parse record').toOption := by
  by_cases h : Opens openLog l
  · obtain ⟨hsettled, hevents⟩ := observed_record (w := w) h record s
    obtain ⟨hsettled', hevents'⟩ := observed_record (w := w) h record' s
    rw [hsettled, hsettled', hevents, hevents']
    constructor
    · intro hagree
      have hheads := congrArg List.head? hagree.2
      rw [Option.head?_toList, Option.head?_toList] at hheads
      exact Or.inr hheads
    · intro hor
      rw [hor.resolve_left (not_not_intro h)]
      exact ⟨Iff.rfl, rfl⟩
  · rw [observed_raises w h, observed_raises w h]
    exact iff_of_true ⟨Iff.rfl, rfl⟩ (.inl h)

end OneRecord

/-! ## The two readings -/

section Readings

variable {rt : Runtime} {pydantic : Pydantic F D}

/-- The parser unwraps, and pydantic looks for an event in what is left. -/
theorem parseEvent_toOption (text : PyStr) : (parseEvent rt pydantic (.str text)).toOption =
    (unwrapKombuEnvelope F rt text).toOption.bind (eventIn pydantic) := by
  cases hu : unwrapKombuEnvelope F rt text with
  | error exc => rw [parseEvent, hu]; rfl
  | ok unwrapped => rw [parseEvent, hu]; rfl

/-- A value that is no object holds no event. -/
theorem eventIn_other {p : Json F} (hp : ∀ obj, p ≠ .dict obj) {text : PyStr}
    (hjson : ∀ j, pydantic.jsonOfStr text = some j → j = p) : eventIn pydantic text = none := by
  unfold eventIn
  cases hj : pydantic.jsonOfStr text with
  | none => rfl
  | some j =>
    obtain rfl := hjson j hj
    cases j with
    | dict obj => exact absurd rfl (hp obj)
    | _ => rfl

/-- The text of an object is read as the object, or as what it is an envelope of. -/
theorem unwrapKombuEnvelope_dict {obj : List (PyStr × Json F)}
    (hround : Json.loads rt.recursionLimit ((Json.dict obj).dumps .default) = .ok (.dict obj)) :
    unwrapKombuEnvelope F rt ((Json.dict obj).dumps .default) =
      match asEnvelope obj with
      | some (inner, properties) => envelopePayload rt obj inner properties
      | none => .ok ((Json.dict obj).dumps .default) := by
  rw [unwrapKombuEnvelope, unwrapText, tryKombuEnvelope, hround]
  cases henv : asEnvelope obj with
  | some ip =>
    cases hp : envelopePayload rt obj ip.1 ip.2 <;> simp only [henv, hp, Except.map, Option.getD]
  | none =>
    obtain ⟨s, hs⟩ := dumps_dict_head (F := F) .default obj
    obtain ⟨e, he⟩ := b64decode_brace s
    simp only [henv, hs, he, Except.map, Option.getD]

/-- The base64 digits whose bits can be the first of a blank or of a brace. -/
theorem b64Value_opens {k c : Nat} (hk : b64Value k = some (c / 4))
    (hc : Json.isBlank c = true ∨ c = 123) : k = 67 ∨ k = 68 ∨ k = 73 ∨ k = 101 := by
  simp only [Json.isBlank, Bool.or_eq_true, beq_iff_eq] at hc
  unfold b64Value at hk
  split_ifs at hk <;> simp only [Option.some.injEq] at hk <;> omega

/-- The text of a value that is no string is not base64 of an envelope. -/
theorem not_envelope_of_base64 [Json.LawfulPyFloat F] {p : Json F} (hp : ∀ s, p ≠ .str s)
    {octets : Bytes} {decoded : PyStr} (hb : b64decode true (p.dumps .default) = .ok octets)
    (hu : utf8Decode octets = some decoded) : ¬ IsEnvelope F rt decoded := by
  intro hyp
  obtain ⟨obj, inner, properties, hloads, -⟩ := hyp
  obtain ⟨c, t, rfl, hc⟩ := Json.loads_dict_head hloads
  have hascii : c < 128 := by
    simp only [Json.isBlank, Bool.or_eq_true, beq_iff_eq] at hc
    omega
  obtain ⟨bs, rfl⟩ := utf8Decode_ascii_head hascii hu
  -- so the first character of the text is one of four
  have hfirst : ∀ {k s}, p.dumps .default = k :: s → k = 67 ∨ k = 68 ∨ k = 73 ∨ k = 101 := by
    intro k s hks
    rw [hks] at hb
    obtain ⟨b, bs', heq, hk⟩ := b64decode_strict_head hb
    obtain ⟨rfl, -⟩ := List.cons.inj heq
    exact b64Value_opens hk hc
  have hdigit : ∀ {k s}, p.dumps .default = k :: s → Json.isDigit k = true → False := by
    intro k s hks hk
    have := hfirst hks
    simp only [Json.isDigit, Bool.and_eq_true, decide_eq_true_eq] at hk
    omega
  cases p with
  | null => exact absurd (hfirst (s := py "ull") (by rw [Json.dumps]; rfl)) (by decide)
  | bool b =>
    cases b with
    | false => exact absurd (hfirst (s := py "alse") (by rw [Json.dumps]; rfl)) (by decide)
    | true => exact absurd (hfirst (s := py "rue") (by rw [Json.dumps]; rfl)) (by decide)
  | int n =>
    obtain ⟨k, s, hks, hk⟩ := Json.dumpsNat_head n.natAbs
    by_cases hneg : n < 0
    · exact absurd (hfirst (by rw [Json.dumps, Json.dumpsInt, if_pos hneg])) (by decide)
    · exact hdigit (by rw [Json.dumps, Json.dumpsInt, if_neg hneg, hks]) hk
  | float x =>
    obtain ⟨k, s, hks, hk⟩ := Json.LawfulPyFloat.repr_head x
    rcases hk with hk | rfl | rfl | rfl
    · exact hdigit (by rw [Json.dumps, hks]) hk
    · exact absurd (hfirst (by rw [Json.dumps, hks])) (by decide)
    · -- the one with the right first character, and its second is wrong
      rw [Json.dumps, Json.repr_infinity hks] at hb
      have hinfinity : b64decode true (py "Infinity") =
          .ok [0x22, 0x77, 0xE2, 0x9E, 0x2B, 0x72] := by decide +kernel
      rw [hinfinity] at hb
      obtain ⟨rfl, -⟩ := List.cons.inj (Except.ok.inj hb)
      exact absurd hc (by decide)
    · exact absurd (hfirst (by rw [Json.dumps, hks])) (by decide)
  | str s => exact hp s rfl
  | list xs => exact absurd (hfirst (by rw [Json.dumps])) (by decide)
  | dict kvs =>
    obtain ⟨s, hs⟩ := dumps_dict_head (F := F) .default kvs
    exact absurd (hfirst hs) (by decide)

/-- The text of any other value but a string holds no event, for either reading. -/
theorem parseEvent_other [Json.LawfulPyFloat F] {p : Json F} (hstr : ∀ s, p ≠ .str s)
    (hdict : ∀ obj, p ≠ .dict obj)
    (hround : Json.loads rt.recursionLimit (p.dumps .default) = .ok p)
    (hjson : ∀ j, pydantic.jsonOfStr (p.dumps .default) = some j → j = p) :
    (parseEvent rt pydantic (.str (p.dumps .default))).toOption = none := by
  have hplain : tryKombuEnvelope F rt (p.dumps .default) = .ok none := by
    rw [tryKombuEnvelope, hround]
    cases p with
    | dict obj => exact absurd rfl (hdict obj)
    | _ => rfl
  have hnone := eventIn_other hdict hjson
  rw [parseEvent_toOption, unwrapKombuEnvelope, unwrapText, hplain]
  cases hb : b64decode true (p.dumps .default) with
  | error e => exact hnone
  | ok octets =>
    cases hu : utf8Decode octets with
    | none => simp only [hu]; exact hnone
    | some decoded =>
      have hno : ¬ IsEnvelope F rt decoded := not_envelope_of_base64 hstr hb hu
      cases ht : tryKombuEnvelope F rt decoded with
      | error e => simp only [hu, ht]; rfl
      | ok r =>
        have hread := ((tryKombuEnvelope_isOk rt decoded).mp ⟨r, ht⟩).1
        have hr := (tryKombuEnvelope_none_iff rt decoded).mpr ⟨hread, hno⟩
        rw [ht] at hr
        obtain rfl := Except.ok.inj hr
        simp only [hu, ht]
        exact hnone

/-- The record the consumer makes of anything but a string has the JSON text as its body. -/
theorem syntheticRecord_text [Json.LawfulPyFloat F] {p : Json F} {tag : Option PyStr}
    {processed : Nat} {record : SqsRecord} (hstr : ∀ s, p ≠ .str s) (hfits : p.fits = true)
    (hrecord : syntheticRecord processed ⟨p, tag⟩ = .ok record) :
    record.text = p.dumps .default := by
  have hpayload : plainPayload p = .ok (p.dumps .default) := by
    cases p with
    | str s => exact absurd rfl (hstr s)
    | _ => simp only [plainPayload, Json.dumpsChecked, hfits, if_true]
  rw [syntheticRecord, hpayload] at hrecord
  obtain rfl := Except.ok.inj hrecord
  obtain ⟨c, s, hcs, -⟩ := Json.dumps_head .default p
  show (if p.dumps .default = [] then _ else p.dumps .default) = _
  rw [hcs, if_neg (List.cons_ne_nil c s)]

/-- What the local consumer's record holds is what production's holds exactly if the two
readings find the same. -/
theorem sameEvent_iff [Json.LawfulPyFloat F] {p : Json F} {tag : Option PyStr}
    {processed : Nat} {record : SqsRecord}
    (hrecord : syntheticRecord processed ⟨p, tag⟩ = .ok record)
    (hround : Json.loads rt.recursionLimit (p.dumps .default) = .ok p)
    (hjson : ∀ j, pydantic.jsonOfStr (p.dumps .default) = some j → j = p) :
    (parseEvent rt pydantic (.str record.text)).toOption = eventIn pydantic (p.dumps .default) ↔
      SameEvent rt pydantic p := by
  have hfits : p.fits = true := Json.shaped_fits (Json.loads_shaped hround)
  cases p with
  | str s =>
    obtain rfl := Except.ok.inj hrecord
    rw [eventIn_other (by nofun) hjson]
    exact Iff.rfl
  | dict obj =>
    rw [syntheticRecord_text (by nofun) hfits hrecord, parseEvent_toOption,
      unwrapKombuEnvelope_dict hround, SameEvent]
    cases henv : asEnvelope obj with
    | none => exact iff_of_true rfl (fun _ _ => nofun)
    | some ip =>
      constructor
      · intro h inner properties heq
        rwa [Option.some.inj heq] at h
      · intro h
        exact h ip.1 ip.2 rfl
  | _ =>
    rw [syntheticRecord_text (by nofun) hfits hrecord,
      parseEvent_other (by nofun) (by nofun) hround hjson,
      eventIn_other (by nofun) hjson]
    exact iff_of_true rfl trivial

end Readings

/-- **Where the two paths agree**: the log does not open, and neither path gets to the message;
or the two readings of the published value find the same event, or none. -/
theorem pathsAgree_iff [Json.LawfulPyFloat F] (w : Worker σ F D)
    (openLog : Py L (Option (EventsRepo L))) (l : L) (message : KombuMessage F) (processed : Nat)
    (messageId : Option PyStr) (s : σ) {envelope : PyStr} {octets : Bytes}
    (henvelope : IsEnvelopeText F w.rt (message.body.dumps .default) envelope)
    (hoctets : utf8Encode envelope = some octets)
    (hround : Json.loads w.rt.recursionLimit (message.body.dumps .default) = .ok message.body)
    (hjson : ∀ j, w.pydantic.jsonOfStr (message.body.dumps .default) = some j →
      j = message.body) :
    PathsAgree w openLog l message processed ⟨messageId, some (b64encode octets)⟩ s ↔
      ¬ Opens openLog l ∨ SameEvent w.rt w.pydantic message.body := by
  obtain ⟨p, tag⟩ := message
  have hfits : p.fits = true := Json.shaped_fits (Json.loads_shaped hround)
  obtain ⟨record, hrecord⟩ : ∃ record, syntheticRecord processed ⟨p, tag⟩ = .ok record := by
    obtain ⟨text, htext⟩ : ∃ text, plainPayload p = .ok text := plainPayload_ok (if_pos hfits)
    exact ⟨_, by rw [syntheticRecord, htext]; rfl⟩
  have hproduction : (w.parse ⟨messageId, some (b64encode octets)⟩).toOption =
      eventIn w.pydantic (p.dumps .default) := by
    obtain ⟨t, ht⟩ := b64encode_envelope henvelope hoctets
    have htext : SqsRecord.text ⟨messageId, some (b64encode octets)⟩ = b64encode octets :=
      if_neg (by rw [ht]; exact List.cons_ne_nil _ _)
    rw [Worker.parse, htext, parseEvent_toOption, unwrapKombuEnvelope_base64 henvelope hoctets]
    rfl
  have hhandled : ((handled w openLog l ⟨p, tag⟩ processed s).1 = some .ack ↔
      (observed w openLog l [record] s).1 = some []) ∧
      (handled w openLog l ⟨p, tag⟩ processed s).2 = (observed w openLog l [record] s).2 :=
    handled_message hrecord s
  rw [PathsAgree, hhandled.1, hhandled.2, observed_agree_iff, hproduction]
  exact or_congr_right (sameEvent_iff hrecord hround hjson)

/-! ## An event, and the text of one -/

/-- A perfect lesson, published as an object, is settled alike. -/
theorem pathsAgree_perfectLesson :
    PathsAgree idleWorker (pure none : Py Unit (Option (EventsRepo Unit))) ()
      ⟨.dict perfectLessonObject, none⟩ 0
      ⟨some (py "m1"), some (b64encode ((utf8Encode perfectLessonEnvelopeText).getD []))⟩ () := by
  have hfits : (Json.dict perfectLessonObject).fits = true := by decide
  have hflat : Json.Shaped IsUnicode 1 (.dict perfectLessonObject) :=
    object_flat perfectLesson_isUnicode perfectLessonObject_isJsonObject hfits
  have hshape : Json.Shaped IsUnicode 1000 (.dict perfectLessonObject) :=
    ⟨hflat.1, fun kv hkv => ⟨(hflat.2 kv hkv).1, shaped_scalar (hflat.2 kv hkv).2 999⟩⟩
  refine (pathsAgree_iff idleWorker (pure none) () ⟨.dict perfectLessonObject, none⟩ 0
    (some (py "m1")) () perfectLesson_isEnvelopeText perfectLesson_encoded
    (Json.loads_dumps .default hshape) ?_).mpr (.inr ?_)
  · intro j hj
    have hread := strictPydantic_lawful.jsonOfStr_dumps .default _ hflat
    exact Option.some.inj (hj.symm.trans hread)
  · -- it has no key `body`
    intro inner properties h
    cases h

/-- What kombu puts on the queue for a value. -/
def kombuBody (p : Json Score) : PyStr :=
  b64encode ((utf8Encode ((Json.dict (F := Score)
    [(py "body", .str (b64encode ((utf8Encode (p.dumps .default)).getD []))),
     (py "content-encoding", .str (py "utf-8")),
     (py "content-type", .str (py "application/json")),
     (py "properties", .dict [(py "body_encoding", .str (py "base64"))])]).dumps .default)).getD [])

/-- The text of an event, published as a string: the local consumer dispatches the event and
acknowledges the message, production dispatches nothing and reports it. -/
theorem friendText_disagrees :
    ¬ PathsAgree idleWorker (pure none : Py Unit (Option (EventsRepo Unit))) ()
      ⟨.str friendRecord.text, none⟩ 0
      ⟨some (py "m1"), some (kombuBody (.str friendRecord.text))⟩ () := by
  have hlocal : (handled idleWorker (pure none : Py Unit (Option (EventsRepo Unit))) ()
      ⟨.str friendRecord.text, none⟩ 0 ()).1 = some .ack := by decide +kernel
  have hproduction : (observed idleWorker (pure none : Py Unit (Option (EventsRepo Unit))) ()
      [⟨some (py "m1"), some (kombuBody (.str friendRecord.text))⟩] ()).1 =
        some [py "m1"] := by decide +kernel
  intro h
  rw [h.1.mp hlocal] at hproduction
  cases hproduction

end LingoAsync.LocalConsumer
