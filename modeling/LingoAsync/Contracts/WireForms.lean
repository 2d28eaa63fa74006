import LingoAsync.Contracts.Envelope
import LingoAsync.Text.JsonRoundTrip

/-!
# The three wire forms of a message

A producer writes a message as a JSON object of its fields (`IsJsonText`): in any
order, with or without the fields that are at their defaults, but always with
`type`. That text travels bare, or in kombu's envelope, or as base64 of the whole
envelope (`WireForm`), and `parse_event` is given one of the three without being
told which.

It cannot mistake one for another. A bare event has no key `body`, so it is no
envelope; it starts with `{`, which is no base64 digit, so it is no base64. An
envelope has the three keys. And base64 of a text that starts with `{` starts
with `e`, which no JSON value does. `parseEvent_wireForm` puts this together with
the round trips of JSON, base64 and UTF-8: every wire form of a message parses to
the message.
-/

namespace LingoAsync.Contracts

open LingoAsync.Text

variable {F D : Type} [PyFloat F]

/-! ## A message as a JSON object -/

/-- A field as a producer writes it; one at its default may be left out. -/
structure WireField (F : Type) where
  name : PyStr
  value : Json F
  omittable : Bool

/-- The fields of a message, in the models' order. -/
def EventMessage.fields (p : Pydantic F D) (event : EventMessage F D) : List (WireField F) :=
  ⟨py "version", .int 1, true⟩ :: ⟨py "type", .str event.type, false⟩ ::
  ⟨py "user_id", .str event.userId, false⟩ ::
  match event with
  | .xpAwarded m =>
    [⟨py "amount", .int m.amount, false⟩,
     ⟨py "source", .str m.source.literal, false⟩,
     ⟨py "learning_language_id", m.learningLanguageId.elim .null .str, m.learningLanguageId.isNone⟩,
     ⟨py "leaderboard_opt_in", .bool m.leaderboardOptIn, m.leaderboardOptIn⟩]
  | .lessonCompleted m =>
    [⟨py "lesson_id", .str m.lessonId, false⟩,
     ⟨py "score", .float m.score, false⟩,
     ⟨py "perfect", .bool m.perfect, false⟩,
     ⟨py "attempted_at", .str (p.isoformat m.attemptedAt), false⟩,
     ⟨py "is_test_out", .bool m.isTestOut, !m.isTestOut⟩]
  | .reviewCompleted m =>
    [⟨py "card_id", .str m.cardId, false⟩,
     ⟨py "modality", .str m.modality.literal, false⟩,
     ⟨py "rating", .str m.rating.literal, false⟩,
     ⟨py "count", .int m.count, m.count == 1⟩]
  | .friendAdded m => [⟨py "friend_id", .str m.friendId, false⟩]
  | .adWatched m =>
    [⟨py "placement", .str m.placement, false⟩,
     ⟨py "idempotency_key", .str m.idempotencyKey, false⟩,
     ⟨py "lingots_awarded", .int m.lingotsAwarded, false⟩,
     ⟨py "occurred_at", .str (p.isoformat m.occurredAt), false⟩]
  | .subscriptionChanged m =>
    [⟨py "tier", .str m.tier.literal, false⟩,
     ⟨py "event", .str m.event.literal, false⟩]

/-- An object that holds the message's fields and nothing else; only fields at their
defaults are missing. -/
structure IsJsonObject (p : Pydantic F D) (event : EventMessage F D)
    (kvs : List (PyStr × Json F)) : Prop where
  nodup : (kvs.map (·.1)).Nodup
  sound : ∀ kv ∈ kvs, ∃ f ∈ event.fields p, kv = (f.name, f.value)
  complete : ∀ f ∈ event.fields p, f.omittable = false → (f.name, f.value) ∈ kvs

/-- Every string of the message is valid Unicode. -/
def EventMessage.IsUnicode (p : Pydantic F D) (event : EventMessage F D) : Prop :=
  ∀ f ∈ event.fields p, ∀ s, f.value = .str s → Text.IsUnicode s

/-- A JSON text of the message: `json.dumps` of such an object, under any of its
options. -/
def IsJsonText (p : Pydantic F D) (event : EventMessage F D) (e : PyStr) : Prop :=
  ∃ o kvs, IsJsonObject p event kvs ∧ (Json.dict kvs).dumpsChecked o = some e

/-- Such a text is the whole text of the object: no integer in it is too long to print. -/
theorem IsJsonText.exists_dumps {p : Pydantic F D} {event : EventMessage F D} {e : PyStr}
    (h : IsJsonText p event e) :
    ∃ o kvs, IsJsonObject p event kvs ∧ (Json.dict kvs).fits = true ∧
      (Json.dict kvs).dumps o = e := by
  obtain ⟨o, kvs, hobj, hdumps⟩ := h
  unfold Json.dumpsChecked at hdumps
  split at hdumps
  · next hfits => exact ⟨o, kvs, hobj, hfits, Option.some.inj hdumps⟩
  · cases hdumps

/-- The names of a message's fields, in the same order. -/
def EventMessage.fieldNames : EventMessage F D → List PyStr
  | .xpAwarded _ =>
    [py "version", py "type", py "user_id", py "amount", py "source",
     py "learning_language_id", py "leaderboard_opt_in"]
  | .lessonCompleted _ =>
    [py "version", py "type", py "user_id", py "lesson_id", py "score", py "perfect",
     py "attempted_at", py "is_test_out"]
  | .reviewCompleted _ =>
    [py "version", py "type", py "user_id", py "card_id", py "modality", py "rating", py "count"]
  | .friendAdded _ => [py "version", py "type", py "user_id", py "friend_id"]
  | .adWatched _ =>
    [py "version", py "type", py "user_id", py "placement", py "idempotency_key",
     py "lingots_awarded", py "occurred_at"]
  | .subscriptionChanged _ => [py "version", py "type", py "user_id", py "tier", py "event"]

theorem fields_map_name (p : Pydantic F D) (event : EventMessage F D) :
    (event.fields p).map (·.name) = event.fieldNames := by
  cases event <;> rfl

/-- No two fields of a message have the same name. -/
theorem fields_nodup (p : Pydantic F D) (event : EventMessage F D) :
    ((event.fields p).map (·.name)).Nodup := by
  rw [fields_map_name]
  cases event <;> simp only [EventMessage.fieldNames] <;> decide

/-- No field is called `body`, and every name is plain text. -/
theorem fields_names (p : Pydantic F D) (event : EventMessage F D) :
    ∀ f ∈ event.fields p, f.name ≠ py "body" ∧ IsUnicode f.name := by
  have hnames : ∀ name ∈ event.fieldNames, name ≠ py "body" ∧ IsUnicode name := by
    cases event <;> simp only [EventMessage.fieldNames] <;> decide
  intro f hf
  refine hnames f.name ?_
  rw [← fields_map_name p event]
  exact List.mem_map_of_mem hf

/-- The values of a message's fields are scalars. -/
theorem fields_scalar (p : Pydantic F D) (event : EventMessage F D) :
    ∀ f ∈ event.fields p, (∃ s, f.value = .str s) ∨ (∃ n, f.value = .int n) ∨
      (∃ b, f.value = .bool b) ∨ (∃ x, f.value = .float x) ∨ f.value = .null := by
  cases event with
  | xpAwarded m =>
    cases hl : m.learningLanguageId <;> simp [EventMessage.fields, hl]
  | _ => simp [EventMessage.fields]

section Object

variable {p : Pydantic F D} {event : EventMessage F D} {kvs : List (PyStr × Json F)}

/-- What the object holds under a field's name: its value, or nothing if it is at its
default. -/
theorem object_lookup (h : IsJsonObject p event kvs) {f : WireField F} (hf : f ∈ event.fields p) :
    Json.lookup f.name kvs = some f.value ∨
      (Json.lookup f.name kvs = none ∧ f.omittable = true) := by
  cases hl : Json.lookup f.name kvs with
  | some v =>
    obtain ⟨g, hg, he⟩ := h.sound _ (Json.lookup_mem hl)
    obtain ⟨hname, rfl⟩ := Prod.mk.inj he
    have hgf : g = f :=
      List.inj_on_of_nodup_map (fields_nodup p event) hg hf hname.symm
    exact Or.inl (by rw [hgf])
  | none =>
    refine Or.inr ⟨rfl, ?_⟩
    by_contra ho
    have hmem := h.complete f hf (by simpa using ho)
    exact Json.lookup_eq_none_iff.mp hl (List.mem_map_of_mem hmem)

/-- A field of the object checks out, if its conversion reads back its value and a
field that may be left out is at its default. -/
theorem object_field {α : Type} (h : IsJsonObject p event kvs) (tag name : PyStr) (j : Json F)
    (omittable : Bool) (hf : ⟨name, j, omittable⟩ ∈ event.fields p) {default : Option α}
    {conv : Json F → Except PyStr α} {a : α} (hconv : conv j = .ok a)
    (hdef : omittable = true → default = some a) : field tag name default conv kvs = .ok a :=
  field_ok ((object_lookup h hf).imp_right fun ⟨hn, ho⟩ => ⟨hn, hdef ho⟩) hconv

/-- A field that may not be left out. -/
theorem object_required {α : Type} (h : IsJsonObject p event kvs) (tag name : PyStr) (j : Json F)
    (hf : ⟨name, j, false⟩ ∈ event.fields p) {default : Option α}
    {conv : Json F → Except PyStr α} {a : α} (hconv : conv j = .ok a) :
    field tag name default conv kvs = .ok a :=
  object_field h tag name j false hf hconv fun ho => by cases ho

/-- A string field. -/
theorem object_str (law : LawfulPydantic p) (hu : event.IsUnicode p)
    (h : IsJsonObject p event kvs) (tag name s : PyStr)
    (hf : ⟨name, .str s, false⟩ ∈ event.fields p) :
    field tag name none (p.toStr .json) kvs = .ok s :=
  object_required h tag name (.str s) hf (law.toStr_str s (hu _ hf s rfl))

theorem object_envelopeV1 (law : LawfulPydantic p) (h : IsJsonObject p event kvs) :
    envelopeV1 p .json event.type kvs = .ok ((), ()) := by
  have hversion : field event.type (py "version") (some ()) (p.literalOne .json) kvs = .ok () :=
    object_field h _ _ (.int 1) true (List.mem_cons_self ..) law.literalOne_one fun _ => rfl
  have htype : field event.type (py "type") (some ()) (literal [(event.type, ())]) kvs = .ok () :=
    object_required h _ _ (.str event.type) (List.mem_cons_of_mem _ (List.mem_cons_self ..))
      (literal_ok _ (by simp))
  exact Check.both_ok hversion htype

theorem object_userId (law : LawfulPydantic p) (hu : event.IsUnicode p)
    (h : IsJsonObject p event kvs) :
    field event.type (py "user_id") none (p.toStr .json) kvs = .ok event.userId :=
  object_str law hu h _ _ _
    (List.mem_cons_of_mem _ (List.mem_cons_of_mem _ (List.mem_cons_self ..)))

end Object

/-! ## Each model reads its own object -/

section Models

variable {p : Pydantic F D} {kvs : List (PyStr × Json F)}

theorem xpAwarded_validate (law : LawfulPydantic p) {m : XpAwardedMessage}
    (hu : (EventMessage.xpAwarded m : EventMessage F D).IsUnicode p)
    (h : IsJsonObject p (.xpAwarded m) kvs) : XpAwardedMessage.validate p .json kvs = .ok m := by
  let tag := py "xp_awarded"
  have hamount : field tag (py "amount") none (intGe 0 (p.toInt .json)) kvs =
      .ok ⟨m.amount, m.amount_ge⟩ :=
    object_required h tag _ (.int m.amount) (by simp [EventMessage.fields])
      (intGe_ok (law.toInt_int m.amount) m.amount_ge)
  have hsource : field tag (py "source") none (literal XpSource.options) kvs = .ok m.source :=
    object_required h tag _ (.str m.source.literal) (by simp [EventMessage.fields])
      (literal_ok _ (by cases m.source <;> decide))
  have hlang : field tag (py "learning_language_id") (some none) (nullable (p.toStr .json)) kvs =
      .ok m.learningLanguageId := by
    have hf : ⟨py "learning_language_id", m.learningLanguageId.elim .null .str,
        m.learningLanguageId.isNone⟩ ∈ (EventMessage.xpAwarded m : EventMessage F D).fields p := by
      simp [EventMessage.fields]
    refine object_field h tag _ _ _ hf ?_ fun ho => by rw [Option.isNone_iff_eq_none.mp ho]
    cases hl : m.learningLanguageId with
    | none => rfl
    | some s =>
      have hs := law.toStr_str s (hu _ hf s (by rw [hl]; rfl))
      show (p.toStr .json (.str s)).map some = _
      rw [hs]
      rfl
  have hopt : field tag (py "leaderboard_opt_in") (some true) (p.toBool .json) kvs =
      .ok m.leaderboardOptIn :=
    object_field h tag _ (.bool m.leaderboardOptIn) m.leaderboardOptIn
      (by simp [EventMessage.fields]) (law.toBool_bool _) fun ho => by rw [ho]
  exact congrArg (Except.map _) (Check.both_ok (object_envelopeV1 law h)
    (Check.both_ok (object_userId law hu h) (Check.both_ok hamount (Check.both_ok hsource
      (Check.both_ok hlang hopt)))))

theorem lessonCompleted_validate (law : LawfulPydantic p) {m : LessonCompletedMessage F D}
    (hu : (EventMessage.lessonCompleted m : EventMessage F D).IsUnicode p)
    (h : IsJsonObject p (.lessonCompleted m) kvs) :
    LessonCompletedMessage.validate p .json kvs = .ok m := by
  let tag := py "lesson_completed"
  have hlesson : field tag (py "lesson_id") none (p.toStr .json) kvs = .ok m.lessonId :=
    object_str law hu h _ _ _ (by simp [EventMessage.fields])
  have hscore : field tag (py "score") none (floatInUnit (p.toFloat .json)) kvs =
      .ok ⟨m.score, m.score_range⟩ :=
    object_required h tag _ (.float m.score) (by simp [EventMessage.fields])
      (floatInUnit_ok (law.toFloat_float m.score) m.score_range)
  have hperfect : field tag (py "perfect") none (p.toBool .json) kvs = .ok m.perfect :=
    object_required h tag _ (.bool m.perfect) (by simp [EventMessage.fields]) (law.toBool_bool _)
  have hattempted : field tag (py "attempted_at") none (p.toDatetime .json) kvs =
      .ok m.attemptedAt :=
    object_required h tag _ (.str (p.isoformat m.attemptedAt)) (by simp [EventMessage.fields])
      (law.toDatetime_isoformat _)
  have htestOut : field tag (py "is_test_out") (some false) (p.toBool .json) kvs =
      .ok m.isTestOut :=
    object_field h tag _ (.bool m.isTestOut) (!m.isTestOut) (by simp [EventMessage.fields])
      (law.toBool_bool _) fun ho => congrArg some (by simpa using ho : m.isTestOut = false).symm
  exact congrArg (Except.map _) (Check.both_ok (object_envelopeV1 law h)
    (Check.both_ok (object_userId law hu h) (Check.both_ok hlesson (Check.both_ok hscore
      (Check.both_ok hperfect (Check.both_ok hattempted htestOut))))))

theorem reviewCompleted_validate (law : LawfulPydantic p) {m : ReviewCompletedMessage}
    (hu : (EventMessage.reviewCompleted m : EventMessage F D).IsUnicode p)
    (h : IsJsonObject p (.reviewCompleted m) kvs) :
    ReviewCompletedMessage.validate p .json kvs = .ok m := by
  let tag := py "review_completed"
  have hcard : field tag (py "card_id") none (p.toStr .json) kvs = .ok m.cardId :=
    object_str law hu h _ _ _ (by simp [EventMessage.fields])
  have hmodality : field tag (py "modality") none (literal Modality.options) kvs =
      .ok m.modality :=
    object_required h tag _ (.str m.modality.literal) (by simp [EventMessage.fields])
      (literal_ok _ (by cases m.modality <;> decide))
  have hrating : field tag (py "rating") none (literal Rating.options) kvs = .ok m.rating :=
    object_required h tag _ (.str m.rating.literal) (by simp [EventMessage.fields])
      (literal_ok _ (by cases m.rating <;> decide))
  have hcount : field tag (py "count") (some ⟨1, le_refl 1⟩) (intGe 1 (p.toInt .json)) kvs =
      .ok ⟨m.count, m.count_ge⟩ :=
    object_field h tag _ (.int m.count) (m.count == 1) (by simp [EventMessage.fields])
      (intGe_ok (law.toInt_int m.count) m.count_ge)
      fun ho => congrArg some (Subtype.ext (eq_of_beq ho).symm)
  exact congrArg (Except.map _) (Check.both_ok (object_envelopeV1 law h)
    (Check.both_ok (object_userId law hu h) (Check.both_ok hcard (Check.both_ok hmodality
      (Check.both_ok hrating hcount)))))

theorem friendAdded_validate (law : LawfulPydantic p) {m : FriendAddedMessage}
    (hu : (EventMessage.friendAdded m : EventMessage F D).IsUnicode p)
    (h : IsJsonObject p (.friendAdded m) kvs) :
    FriendAddedMessage.validate p .json kvs = .ok m := by
  have hfriend : field (py "friend_added") (py "friend_id") none (p.toStr .json) kvs =
      .ok m.friendId :=
    object_str law hu h _ _ _ (by simp [EventMessage.fields])
  exact congrArg (Except.map _) (Check.both_ok (object_envelopeV1 law h)
    (Check.both_ok (object_userId law hu h) hfriend))

theorem adWatched_validate (law : LawfulPydantic p) {m : AdWatchedMessage D}
    (hu : (EventMessage.adWatched m : EventMessage F D).IsUnicode p)
    (h : IsJsonObject p (.adWatched m) kvs) : AdWatchedMessage.validate p .json kvs = .ok m := by
  let tag := py "ad_watched"
  have hplacement : field tag (py "placement") none (p.toStr .json) kvs = .ok m.placement :=
    object_str law hu h _ _ _ (by simp [EventMessage.fields])
  have hkey : field tag (py "idempotency_key") none (p.toStr .json) kvs = .ok m.idempotencyKey :=
    object_str law hu h _ _ _ (by simp [EventMessage.fields])
  have hlingots : field tag (py "lingots_awarded") none (intGe 0 (p.toInt .json)) kvs =
      .ok ⟨m.lingotsAwarded, m.lingotsAwarded_ge⟩ :=
    object_required h tag _ (.int m.lingotsAwarded) (by simp [EventMessage.fields])
      (intGe_ok (law.toInt_int m.lingotsAwarded) m.lingotsAwarded_ge)
  have hoccurred : field tag (py "occurred_at") none (p.toDatetime .json) kvs =
      .ok m.occurredAt :=
    object_required h tag _ (.str (p.isoformat m.occurredAt)) (by simp [EventMessage.fields])
      (law.toDatetime_isoformat _)
  exact congrArg (Except.map _) (Check.both_ok (object_envelopeV1 law h)
    (Check.both_ok (object_userId law hu h) (Check.both_ok hplacement (Check.both_ok hkey
      (Check.both_ok hlingots hoccurred)))))

theorem subscriptionChanged_validate (law : LawfulPydantic p) {m : SubscriptionChangedMessage}
    (hu : (EventMessage.subscriptionChanged m : EventMessage F D).IsUnicode p)
    (h : IsJsonObject p (.subscriptionChanged m) kvs) :
    SubscriptionChangedMessage.validate p .json kvs = .ok m := by
  let tag := py "subscription_changed"
  have htier : field tag (py "tier") none (literal Tier.options) kvs = .ok m.tier :=
    object_required h tag _ (.str m.tier.literal) (by simp [EventMessage.fields])
      (literal_ok _ (by cases m.tier <;> decide))
  have hevent : field tag (py "event") none (literal SubscriptionEvent.options) kvs =
      .ok m.event :=
    object_required h tag _ (.str m.event.literal) (by simp [EventMessage.fields])
      (literal_ok _ (by cases m.event <;> decide))
  exact congrArg (Except.map _) (Check.both_ok (object_envelopeV1 law h)
    (Check.both_ok (object_userId law hu h) (Check.both_ok htier hevent)))

/-- The union reads every message back from its object. -/
theorem validateEvent_object (law : LawfulPydantic p) {event : EventMessage F D}
    (hu : event.IsUnicode p) (h : IsJsonObject p event kvs) :
    validateEvent p .json (.dict kvs) = .ok event := by
  have htype : Json.lookup (py "type") kvs = some (.str event.type) := by
    rcases object_lookup h (List.mem_cons_of_mem _ (List.mem_cons_self ..)) with hl | ⟨-, ho⟩
    · exact hl
    · cases ho
  have hdispatch : validateEvent p .json (.dict kvs) = validateTagged p .json event.type kvs := by
    simp only [validateEvent, htype]
  rw [hdispatch]
  cases event with
  | xpAwarded m => exact congrArg (Except.map _) (xpAwarded_validate law hu h)
  | lessonCompleted m => exact congrArg (Except.map _) (lessonCompleted_validate law hu h)
  | reviewCompleted m => exact congrArg (Except.map _) (reviewCompleted_validate law hu h)
  | friendAdded m => exact congrArg (Except.map _) (friendAdded_validate law hu h)
  | adWatched m => exact congrArg (Except.map _) (adWatched_validate law hu h)
  | subscriptionChanged m => exact congrArg (Except.map _) (subscriptionChanged_validate law hu h)

end Models

/-! ## The three forms -/

/-- The JSON object kombu puts around a base64 body: the three keys, and no content
encoding but UTF-8. -/
structure IsKombuEnvelope (obj : List (PyStr × Json F)) (body : PyStr) : Prop where
  body : Json.lookup (py "body") obj = some (.str body)
  contentType : (Json.lookup (py "content-type") obj).isSome = true
  properties : ∃ properties, Json.lookup (py "properties") obj = some (.dict properties) ∧
    Json.lookup (py "body_encoding") properties = some (.str (py "base64"))
  contentEncoding : Json.lookup (py "content-encoding") obj = none ∨
    Json.lookup (py "content-encoding") obj = some (.str (py "utf-8"))

/-- The text of an envelope around `base64(utf-8 of e)`. -/
def IsEnvelopeText (F : Type) [PyFloat F] (rt : Runtime) (e text : PyStr) : Prop :=
  ∃ (o : Json.DumpsOptions) (obj : List (PyStr × Json F)) (octets : Bytes),
    utf8Encode e = some octets ∧ IsKombuEnvelope obj (b64encode octets) ∧
    Json.Shaped IsUnicode rt.recursionLimit (.dict obj) ∧ text = (Json.dict obj).dumps o

/-- How the JSON text `e` of an event can arrive: as it is, in an envelope, or as
base64 of the envelope. -/
inductive WireForm (F : Type) [PyFloat F] (rt : Runtime) (e : PyStr) : PyStr → Prop where
  | raw : WireForm F rt e e
  | envelope {text : PyStr} : IsEnvelopeText F rt e text → WireForm F rt e text
  | base64 {text : PyStr} {octets : Bytes} : IsEnvelopeText F rt e text →
      utf8Encode text = some octets → WireForm F rt e (b64encode octets)

section Forms

variable {rt : Runtime} {p : Pydantic F D} {event : EventMessage F D}
  {kvs : List (PyStr × Json F)}

omit [PyFloat F] in
/-- Scalars are nested within any limit. -/
theorem shaped_scalar {P : PyStr → Prop} {j : Json F} (h : Json.Shaped P 0 j) (depth : Nat) :
    Json.Shaped P depth j := by
  cases j with
  | list xs => exact absurd h (by simp [Json.Shaped])
  | dict kvs => exact absurd h (by simp [Json.Shaped])
  | _ => cases depth <;> exact h

/-- The object of a message is flat, if its text can be printed. -/
theorem object_flat (hu : event.IsUnicode p) (h : IsJsonObject p event kvs)
    (hfits : (Json.dict kvs).fits = true) : Json.Shaped IsUnicode 1 (.dict kvs) := by
  refine ⟨h.nodup, ?_⟩
  intro kv hkv
  have hkfits : kv.2.fits = true := Json.fits_of_mem (by rwa [Json.fits] at hfits) kv hkv
  obtain ⟨f, hf, rfl⟩ := h.sound kv hkv
  refine ⟨(fields_names p event f hf).2, ?_⟩
  show Json.Shaped IsUnicode 0 f.value
  rcases fields_scalar p event f hf with ⟨s, hv⟩ | ⟨n, hv⟩ | ⟨b, hv⟩ | ⟨x, hv⟩ | hv
  · rw [hv]
    exact hu f hf s hv
  · simp only [hv, Json.fits] at hkfits
    rw [hv]
    exact hkfits
  · rw [hv]; trivial
  · rw [hv]; trivial
  · rw [hv]; trivial

/-- The text of an object starts with a brace. -/
theorem dumps_dict_head (o : Json.DumpsOptions) (kvs : List (PyStr × Json F)) :
    ∃ s, (Json.dict kvs).dumps o = 123 :: s := by
  rw [Json.dumps]
  exact ⟨_, rfl⟩

/-- The text of a message is no envelope: it has no key `body`. -/
theorem tryKombuEnvelope_object [Json.LawfulPyFloat F] (rt : Runtime) (h : IsJsonObject p event kvs)
    (hflat : Json.Shaped IsUnicode 1 (.dict kvs)) (o : Json.DumpsOptions) :
    tryKombuEnvelope F rt ((Json.dict kvs).dumps o) = .ok none := by
  have hshape : Json.Shaped IsUnicode rt.recursionLimit (.dict kvs) := by
    obtain ⟨depth, hd⟩ := Nat.exists_eq_add_of_le' rt.recursionLimit_pos
    rw [hd]
    exact ⟨hflat.1, fun kv hkv => ⟨(hflat.2 kv hkv).1, shaped_scalar (hflat.2 kv hkv).2 depth⟩⟩
  have hbody : Json.lookup (py "body") kvs = none := by
    refine Json.lookup_eq_none_iff.mpr ?_
    intro hmem
    obtain ⟨kv, hkv, hk⟩ := List.mem_map.mp hmem
    obtain ⟨f, hf, rfl⟩ := h.sound kv hkv
    exact (fields_names p event f hf).1 hk
  have henv : asEnvelope kvs = none := by
    simp only [asEnvelope, hbody]
  simp only [tryKombuEnvelope, Json.loads_dumps o hshape, henv]

/-- The text of an envelope gives the event's text. -/
theorem tryKombuEnvelope_envelope [Json.LawfulPyFloat F] {e text : PyStr}
    (h : IsEnvelopeText F rt e text) : tryKombuEnvelope F rt text = .ok (some e) := by
  obtain ⟨o, obj, octets, hutf, henv, hshape, rfl⟩ := h
  obtain ⟨properties, hprops, henc⟩ := henv.properties
  obtain ⟨ct, hct⟩ := Option.isSome_iff_exists.mp henv.contentType
  have has : asEnvelope obj = some (.str (b64encode octets), properties) := by
    simp only [asEnvelope, henv.body, hct, hprops]
  have hb64 : b64decode false (b64encode octets) = .ok octets :=
    b64decode_encode false (utf8Encode_lt hutf)
  have hutf8 : rt.decode (py "utf-8") octets = .ok e := by
    rw [rt.decode_utf8, utf8Decode_encode hutf]
  have hdecode : decodeWith rt (Json.lookup (py "content-encoding") obj) octets = .ok e := by
    rcases henv.contentEncoding with hn | hs
    · simp only [decodeWith, hn, hutf8]
    · have htruthy : (Json.str (py "utf-8") : Json F).truthy = true := by
        simp [Json.truthy, py]
      simp only [decodeWith, hs, htruthy, Bool.true_eq_false, if_false, hutf8]
  have hbase64 : Json.isStr (Json.lookup (py "body_encoding") properties) (py "base64") = true := by
    rw [henc]
    simp [Json.isStr]
  have hpayload : envelopePayload rt obj (.str (b64encode octets)) properties = .ok e := by
    rw [envelopePayload, if_pos hbase64]
    simp only [decodePayload, b64decodeJson, hb64, Except.mapError, hdecode]
  simp only [tryKombuEnvelope, Json.loads_dumps o hshape, has, hpayload, Except.map]

/-- A text that starts with `e` is no JSON. -/
theorem loads_e (depth : Nat) (s : PyStr) :
    (Json.loads depth (101 :: s) : Except JsonError (Json F)) = .error .decode := by
  have hnumber : (Json.scanNumber (101 :: s) : Except JsonError (Json F × PyStr)) =
      .error .decode := rfl
  have hwords : (Json.words.findSome? fun w : PyStr × Json F =>
      (Json.stripPrefix w.1 (101 :: s)).map (w.2, ·)) = none := by
    rw [List.findSome?_eq_none_iff]
    intro w hw
    have hhead : w.1.isPrefixOf (101 :: s) = false := by
      simp only [Json.words, List.mem_cons, List.not_mem_nil, or_false] at hw
      rcases hw with rfl | rfl | rfl | rfl | rfl | rfl <;> rfl
    rw [Json.stripPrefix, hhead]
    rfl
  have hscalar : (Json.scanScalar (101 :: s) : Except JsonError (Json F × PyStr)) =
      .error .decode := by
    rw [Json.scanScalar, hwords, hnumber]
  have hscan : (Json.scanOnce depth (101 :: s) : Except JsonError (Json F × PyStr)) =
      .error .decode := by
    cases depth with
    | zero => exact hscalar
    | succ depth => exact hscalar
  have hskip : Json.skipBlanks (101 :: s) = 101 :: s := Json.skipBlanks_cons rfl s
  have hbom : (101 :: s).head? ≠ some 0xFEFF := by simp
  rw [Json.loads, if_neg hbom, hskip, hscan]

/-- A text that starts with a brace is no strict base64. -/
theorem b64decode_brace (s : PyStr) : ∃ e, b64decode true (123 :: s) = .error e :=
  b64decode_strict_error (by decide) (by decide)

/-- base64 of a text that starts with a brace starts with `e`. -/
theorem b64encode_brace {s : PyStr} {octets : Bytes} (h : utf8Encode (123 :: s) = some octets) :
    ∃ t, b64encode octets = 101 :: t := by
  obtain ⟨bs, rfl⟩ := utf8Encode_cons_ascii (by omega) h
  exact b64encode_cons 123 bs

/-- base64 of an envelope's text starts with `e`. -/
theorem b64encode_envelope {e text : PyStr} {octets : Bytes} (htext : IsEnvelopeText F rt e text)
    (hutf : utf8Encode text = some octets) : ∃ t, b64encode octets = 101 :: t := by
  obtain ⟨o, obj, -, -, -, -, rfl⟩ := htext
  obtain ⟨s, hs⟩ := dumps_dict_head o obj
  exact b64encode_brace (s := s) (by rw [← hs, hutf])

/-- It is no JSON, and decodes to the envelope, so it unwraps to the event's text. -/
theorem unwrapKombuEnvelope_base64 [Json.LawfulPyFloat F] {e text : PyStr} {octets : Bytes}
    (htext : IsEnvelopeText F rt e text) (hutf : utf8Encode text = some octets) :
    unwrapKombuEnvelope F rt (b64encode octets) = .ok e := by
  obtain ⟨t, ht⟩ := b64encode_envelope htext hutf
  have hjson : tryKombuEnvelope F rt (b64encode octets) = .ok none := by
    rw [tryKombuEnvelope, ht, loads_e]
  have hdecode : b64decode true (b64encode octets) = .ok octets :=
    b64decode_encode true (utf8Encode_lt hutf)
  simp only [unwrapKombuEnvelope, unwrapText, hjson, hdecode, utf8Decode_encode hutf,
    tryKombuEnvelope_envelope htext, Except.map, Option.getD_some]

/-- Whichever of its forms the text of a message has, it is unwrapped to itself. -/
theorem unwrapKombuEnvelope_wireForm [Json.LawfulPyFloat F] (h : IsJsonObject p event kvs)
    (hflat : Json.Shaped IsUnicode 1 (.dict kvs)) {o : Json.DumpsOptions} {body : PyStr}
    (hb : WireForm F rt ((Json.dict kvs).dumps o) body) :
    unwrapKombuEnvelope F rt body = .ok ((Json.dict kvs).dumps o) := by
  cases hb with
  | raw =>
    -- no envelope, and no base64: the body is taken as it is
    obtain ⟨s, hs⟩ := dumps_dict_head o kvs
    obtain ⟨err, hb64⟩ := b64decode_brace s
    have henv := tryKombuEnvelope_object rt h hflat o
    rw [hs] at henv ⊢
    simp only [unwrapKombuEnvelope, unwrapText, henv, hb64, Except.map, Option.getD_none]
  | envelope htext =>
    simp only [unwrapKombuEnvelope, unwrapText, tryKombuEnvelope_envelope htext, Except.map,
      Option.getD_some]
  | base64 htext hutf => exact unwrapKombuEnvelope_base64 htext hutf

/-- So the object of a message parses to the message, whatever its form. -/
theorem parseEvent_dumps [Json.LawfulPyFloat F] (law : LawfulPydantic p) (hu : event.IsUnicode p)
    (h : IsJsonObject p event kvs) (hfits : (Json.dict kvs).fits = true) {o : Json.DumpsOptions}
    {body : PyStr} (hb : WireForm F rt ((Json.dict kvs).dumps o) body) :
    parseEvent rt p (.str body) = .ok event := by
  have hflat := object_flat hu h hfits
  simp only [parseEvent, unwrapKombuEnvelope_wireForm h hflat hb,
    law.jsonOfStr_dumps o kvs hflat, validateParsed, validateEvent_object law hu h,
    Except.mapError]

/-- Every wire form of a message parses to the message. -/
theorem parseEvent_wireForm [Json.LawfulPyFloat F] (law : LawfulPydantic p)
    (hu : event.IsUnicode p) {e body : PyStr} (he : IsJsonText p event e)
    (hb : WireForm F rt e body) : parseEvent rt p (.str body) = .ok event := by
  obtain ⟨o, kvs, hobj, hfits, rfl⟩ := he.exists_dumps
  exact parseEvent_dumps law hu hobj hfits hb

end Forms

/-! ## A base64 body, end to end -/

/-- The two floats a lesson that went all wrong or all right is scored with. -/
inductive Score where
  | zero
  | one
  deriving DecidableEq, Repr

instance : PyFloat Score where
  ofToken token := if token = py "1.0" then .one else .zero
  repr
    | .zero => py "0.0"
    | .one => py "1.0"
  isZero x := x == .zero
  le x y := x == .zero || y == .one
  toInt
    | .zero => some 0
    | .one => some 1

/-- A digit, a point and a zero are read as a float. -/
theorem scanScalar_pointZero {d : Nat} (hd : d = 48 ∨ d = 49) {rest : PyStr}
    (hrest : Json.Terminated rest) :
    (Json.scanScalar (d :: 46 :: 48 :: rest) : Except JsonError (Json Score × PyStr)) =
      .ok (.float (PyFloat.ofToken [d, 46, 48]), rest) := by
  have hdigit : Json.isDigit d = true := by rcases hd with rfl | rfl <;> rfl
  have htake := Json.takeWhile_append_of_terminated (s := [48]) (by decide) hrest
  have hfrac : Json.scanFrac (46 :: 48 :: rest) = ([46, 48], rest) := by
    have h0 : Json.isDigit 48 = true := rfl
    simp only [List.cons_append, List.nil_append, List.takeWhile_cons, List.dropWhile_cons, h0,
      if_true, List.cons.injEq, true_and] at htake
    simp only [Json.scanFrac, h0, if_true, htake.1, htake.2]
  have hwhole : Json.scanWhole (d :: 46 :: 48 :: rest) = some ([d], 46 :: 48 :: rest) := by
    rcases hd with rfl | rfl <;> rfl
  have hneg : ((d :: 46 :: 48 :: rest).head? == some 45) = false := by
    rcases hd with rfl | rfl <;> rfl
  rw [Json.scanScalar_digit hdigit, Json.scanNumber]
  simp only [hneg, Bool.false_eq_true, if_false, hwhole, hfrac, Json.scanExp_of_terminated hrest,
    reduceCtorEq, false_and, List.nil_append, List.append_nil, List.cons_append]

instance : Json.LawfulPyFloat Score where
  scan_repr x rest hrest := by
    cases x with
    | zero => exact scanScalar_pointZero (Or.inl rfl) hrest
    | one => exact scanScalar_pointZero (Or.inr rfl) hrest
  repr_head x := by
    cases x with
    | zero => exact ⟨48, [46, 48], rfl, by decide⟩
    | one => exact ⟨49, [46, 48], rfl, by decide⟩

/-- Datetimes kept as the text they were written as. -/
abbrev Stamp := { s : PyStr // IsUnicode s }

/-- Conversions that take each value of their own kind and no other. -/
def strictPydantic : Pydantic Score Stamp where
  jsonOfStr s := (Json.loads 200 s).toOption
  jsonOfBytes bs := (utf8Decode bs).bind fun s => (Json.loads 200 s).toOption
  toStr
    | _, .str s => if IsUnicode s then .ok s else .error (py "string_unicode")
    | _, _ => .error (py "string_type")
  toInt
    | _, .int n => .ok n
    | _, _ => .error (py "int_type")
  toFloat
    | _, .float x => .ok x
    | _, _ => .error (py "float_type")
  toBool
    | _, .bool b => .ok b
    | _, _ => .error (py "bool_type")
  toDatetime
    | _, .str s => if h : IsUnicode s then .ok ⟨s, h⟩ else .error (py "datetime_parsing")
    | _, _ => .error (py "datetime_type")
  literalOne
    | _, .int 1 => .ok ()
    | _, _ => .error (py "literal_error")
  isoformat d := d.1

theorem strictPydantic_lawful : LawfulPydantic strictPydantic where
  jsonOfStr_dumps o kvs h := by
    have hdeep : Json.Shaped IsUnicode 200 (.dict kvs) :=
      ⟨h.1, fun kv hkv => ⟨(h.2 kv hkv).1, shaped_scalar (h.2 kv hkv).2 199⟩⟩
    show (Json.loads 200 ((Json.dict kvs).dumps o)).toOption = _
    rw [Json.loads_dumps o hdeep]
    rfl
  toStr_str s hs := if_pos hs
  toInt_int _ := rfl
  toFloat_float _ := rfl
  toBool_bool _ := rfl
  literalOne_one := rfl
  toDatetime_isoformat d := dif_pos d.2
  isoformat_unicode d := d.2

/-- CPython's default limit, no codec but UTF-8, and `int` of plain digits. -/
def plainRuntime : Runtime where
  recursionLimit := 1000
  recursionLimit_pos := by decide
  decode encoding octets :=
    if encoding = py "utf-8" then
      match utf8Decode octets with
      | some s => .ok s
      | none => .error .UnicodeDecodeError
    else .error .LookupError
  decode_utf8 _ := if_pos rfl
  decode_error encoding octets e h := by
    split at h
    · split at h
      · cases h
      · rw [← Except.error.inj h]; rfl
    · rw [← Except.error.inj h]; rfl
  intOfStr s :=
    if s ≠ [] ∧ s.all Json.isDigit then .ok (Json.natOfDigits s)
    else .error (.ValueError (py "invalid literal for int() with base 10"))

/-- A perfect lesson. -/
def perfectLesson : EventMessage Score Stamp :=
  .lessonCompleted
    { userId := py "u1", lessonId := py "l1", score := .one, perfect := true
      attemptedAt := ⟨py "2026-06-13T12:00:00Z", by decide⟩, isTestOut := false
      score_range := ⟨rfl, rfl⟩ }

/-- Its object, without the fields at their defaults. -/
def perfectLessonObject : List (PyStr × Json Score) :=
  [(py "type", .str (py "lesson_completed")), (py "user_id", .str (py "u1")),
   (py "lesson_id", .str (py "l1")), (py "score", .float .one), (py "perfect", .bool true),
   (py "attempted_at", .str (py "2026-06-13T12:00:00Z"))]

def perfectLessonText : PyStr := (Json.dict perfectLessonObject).dumps .default

/-- The envelope kombu puts around it. -/
def perfectLessonEnvelope : List (PyStr × Json Score) :=
  [(py "body", .str (b64encode ((utf8Encode perfectLessonText).getD []))),
   (py "content-type", .str (py "application/json")),
   (py "properties", .dict [(py "body_encoding", .str (py "base64"))])]

/-- What the queue delivers. -/
def perfectLessonBody : PyStr :=
  b64encode ((utf8Encode ((Json.dict perfectLessonEnvelope).dumps .default)).getD [])

theorem perfectLessonObject_isJsonObject :
    IsJsonObject strictPydantic perfectLesson perfectLessonObject where
  nodup := by decide
  sound := by simp [perfectLessonObject, perfectLesson, EventMessage.fields, strictPydantic,
    EventMessage.type, EventMessage.userId]
  complete := by simp [perfectLessonObject, perfectLesson, EventMessage.fields, strictPydantic,
    EventMessage.type, EventMessage.userId]

theorem perfectLesson_isUnicode : perfectLesson.IsUnicode strictPydantic := by
  intro f hf s hs
  have hvalue : f.value ∈ (perfectLesson.fields strictPydantic).map (·.value) :=
    List.mem_map_of_mem hf
  rw [hs] at hvalue
  simp only [perfectLesson, EventMessage.fields, EventMessage.type, EventMessage.userId,
    strictPydantic, List.map_cons, List.map_nil, List.mem_cons, Json.str.injEq, reduceCtorEq,
    List.not_mem_nil, or_false, false_or] at hvalue
  rcases hvalue with rfl | rfl | rfl | rfl <;> decide

theorem perfectLesson_isJsonText : IsJsonText strictPydantic perfectLesson perfectLessonText :=
  ⟨.default, perfectLessonObject, perfectLessonObject_isJsonObject, rfl⟩

/-- The text of the envelope around it. -/
def perfectLessonEnvelopeText : PyStr := (Json.dict perfectLessonEnvelope).dumps .default

theorem perfectLesson_isEnvelopeText :
    IsEnvelopeText Score plainRuntime perfectLessonText perfectLessonEnvelopeText := by
  have hinner : utf8Encode perfectLessonText =
      some ((utf8Encode perfectLessonText).getD []) := by decide +kernel
  have henv : IsKombuEnvelope perfectLessonEnvelope
      (b64encode ((utf8Encode perfectLessonText).getD [])) :=
    ⟨rfl, rfl, ⟨_, rfl, rfl⟩, Or.inl rfl⟩
  have hunicode : IsUnicode (b64encode ((utf8Encode perfectLessonText).getD [])) := by
    intro c hc
    exact Or.inl (by have := b64encode_ascii _ c hc; omega)
  have hshape : Json.Shaped IsUnicode 1000 (.dict perfectLessonEnvelope) := by
    refine ⟨by decide, ?_⟩
    simp only [perfectLessonEnvelope, List.forall_mem_cons, List.not_mem_nil, false_implies,
      implies_true, and_true]
    refine ⟨⟨by decide, hunicode⟩, ⟨by decide, (by decide : IsUnicode (py "application/json"))⟩,
      by decide, by decide, ?_⟩
    simp only [List.forall_mem_cons, List.not_mem_nil, false_implies, implies_true, and_true]
    exact ⟨by decide, (by decide : IsUnicode (py "base64"))⟩
  exact ⟨.default, perfectLessonEnvelope, _, hinner, henv, hshape, rfl⟩

theorem perfectLesson_encoded : utf8Encode perfectLessonEnvelopeText =
    some ((utf8Encode perfectLessonEnvelopeText).getD []) := by decide +kernel

/-- The body of a perfect lesson, wrapped twice in base64. -/
theorem parseEvent_wireForm_base64 :
    parseEvent plainRuntime strictPydantic (.str perfectLessonBody) = .ok perfectLesson :=
  parseEvent_wireForm strictPydantic_lawful perfectLesson_isUnicode perfectLesson_isJsonText
    (.base64 perfectLesson_isEnvelopeText perfectLesson_encoded)

end LingoAsync.Contracts
