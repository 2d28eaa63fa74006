import LingoAsync.Contracts.Pydantic

/-!
# The six messages

The models of `app/contracts/messages.py` and their discriminated union. A model
is a structure whose constraints (`Field(ge=…)`) are fields, so a message that
breaks one cannot be built; its `validate` checks the fields in the order the
model declares them and keeps every complaint. `validateEvent` dispatches on the
discriminator `type`.

`F` is the type of floats, `D` that of datetimes.
-/

namespace LingoAsync.Contracts

open LingoAsync.Text

inductive XpSource where
  | lesson
  | review
  | manual
  | quest
  | streak
  deriving DecidableEq, Repr

inductive Modality where
  | recognition
  | production
  deriving DecidableEq, Repr

inductive Rating where
  | again
  | hard
  | good
  | easy
  deriving DecidableEq, Repr

inductive Tier where
  | free
  | supporter
  | patron
  | lifetime
  deriving DecidableEq, Repr

inductive SubscriptionEvent where
  | new
  | upgraded
  | downgraded
  | churned
  deriving DecidableEq, Repr

/-- The literal a member of an enumeration is written as. -/
def XpSource.literal : XpSource → PyStr
  | .lesson => py "lesson"
  | .review => py "review"
  | .manual => py "manual"
  | .quest => py "quest"
  | .streak => py "streak"

def Modality.literal : Modality → PyStr
  | .recognition => py "recognition"
  | .production => py "production"

def Rating.literal : Rating → PyStr
  | .again => py "again"
  | .hard => py "hard"
  | .good => py "good"
  | .easy => py "easy"

def Tier.literal : Tier → PyStr
  | .free => py "free"
  | .supporter => py "supporter"
  | .patron => py "patron"
  | .lifetime => py "lifetime"

def SubscriptionEvent.literal : SubscriptionEvent → PyStr
  | .new => py "new"
  | .upgraded => py "upgraded"
  | .downgraded => py "downgraded"
  | .churned => py "churned"

/-- The options of a `Literal` field, each with its text. -/
def options {α : Type} (text : α → PyStr) (members : List α) : List (PyStr × α) :=
  members.map fun a => (text a, a)

def XpSource.options : List (PyStr × XpSource) :=
  Contracts.options literal [.lesson, .review, .manual, .quest, .streak]

def Modality.options : List (PyStr × Modality) :=
  Contracts.options literal [.recognition, .production]

def Rating.options : List (PyStr × Rating) :=
  Contracts.options literal [.again, .hard, .good, .easy]

def Tier.options : List (PyStr × Tier) :=
  Contracts.options literal [.free, .supporter, .patron, .lifetime]

def SubscriptionEvent.options : List (PyStr × SubscriptionEvent) :=
  Contracts.options literal [.new, .upgraded, .downgraded, .churned]

/-! ## The models -/

structure XpAwardedMessage where
  userId : PyStr
  amount : Int
  source : XpSource
  learningLanguageId : Option PyStr
  leaderboardOptIn : Bool
  amount_ge : 0 ≤ amount
  deriving DecidableEq

structure LessonCompletedMessage (F D : Type) [PyFloat F] where
  userId : PyStr
  lessonId : PyStr
  score : F
  perfect : Bool
  attemptedAt : D
  isTestOut : Bool
  score_range : InUnit score
  deriving DecidableEq

structure ReviewCompletedMessage where
  userId : PyStr
  cardId : PyStr
  modality : Modality
  rating : Rating
  count : Int
  count_ge : 1 ≤ count
  deriving DecidableEq

structure FriendAddedMessage where
  userId : PyStr
  friendId : PyStr
  deriving DecidableEq

structure AdWatchedMessage (D : Type) where
  userId : PyStr
  placement : PyStr
  idempotencyKey : PyStr
  lingotsAwarded : Int
  occurredAt : D
  lingotsAwarded_ge : 0 ≤ lingotsAwarded
  deriving DecidableEq

structure SubscriptionChangedMessage where
  userId : PyStr
  tier : Tier
  event : SubscriptionEvent
  deriving DecidableEq

/-- `EventMessage`. -/
inductive EventMessage (F D : Type) [PyFloat F] where
  | xpAwarded (m : XpAwardedMessage)
  | lessonCompleted (m : LessonCompletedMessage F D)
  | reviewCompleted (m : ReviewCompletedMessage)
  | friendAdded (m : FriendAddedMessage)
  | adWatched (m : AdWatchedMessage D)
  | subscriptionChanged (m : SubscriptionChangedMessage)
  deriving DecidableEq

namespace EventMessage

variable {F D : Type} [PyFloat F]

/-- `event.type`. -/
def type : EventMessage F D → PyStr
  | .xpAwarded _ => py "xp_awarded"
  | .lessonCompleted _ => py "lesson_completed"
  | .reviewCompleted _ => py "review_completed"
  | .friendAdded _ => py "friend_added"
  | .adWatched _ => py "ad_watched"
  | .subscriptionChanged _ => py "subscription_changed"

/-- `event.user_id`. -/
def userId : EventMessage F D → PyStr
  | .xpAwarded m => m.userId
  | .lessonCompleted m => m.userId
  | .reviewCompleted m => m.userId
  | .friendAdded m => m.userId
  | .adWatched m => m.userId
  | .subscriptionChanged m => m.userId

end EventMessage

/-! ## Validation -/

section Validate

variable {F D : Type} [PyFloat F] (p : Pydantic F D) (mode : InputMode)

/-- The fields every v1 message starts with: `version` and its own `type`. -/
def envelopeV1 (tag : PyStr) (kvs : List (PyStr × Json F)) : Check (Unit × Unit) :=
  (field tag (py "version") (some ()) (p.literalOne mode) kvs).both
    (field tag (py "type") (some ()) (literal [(tag, ())]) kvs)

def XpAwardedMessage.validate (kvs : List (PyStr × Json F)) : Check XpAwardedMessage :=
  let tag := py "xp_awarded"
  (envelopeV1 p mode tag kvs).both
    ((field tag (py "user_id") none (p.toStr mode) kvs).both
    ((field tag (py "amount") none (intGe 0 (p.toInt mode)) kvs).both
    ((field tag (py "source") none (literal XpSource.options) kvs).both
    ((field tag (py "learning_language_id") (some none) (nullable (p.toStr mode)) kvs).both
    (field tag (py "leaderboard_opt_in") (some true) (p.toBool mode) kvs)))))
  |>.map fun (_, userId, amount, source, lang, optIn) =>
    ⟨userId, amount, source, lang, optIn, amount.2⟩

def LessonCompletedMessage.validate (kvs : List (PyStr × Json F)) :
    Check (LessonCompletedMessage F D) :=
  let tag := py "lesson_completed"
  (envelopeV1 p mode tag kvs).both
    ((field tag (py "user_id") none (p.toStr mode) kvs).both
    ((field tag (py "lesson_id") none (p.toStr mode) kvs).both
    ((field tag (py "score") none (floatInUnit (p.toFloat mode)) kvs).both
    ((field tag (py "perfect") none (p.toBool mode) kvs).both
    ((field tag (py "attempted_at") none (p.toDatetime mode) kvs).both
    (field tag (py "is_test_out") (some false) (p.toBool mode) kvs))))))
  |>.map fun (_, userId, lessonId, score, perfect, attemptedAt, isTestOut) =>
    ⟨userId, lessonId, score, perfect, attemptedAt, isTestOut, score.2⟩

def ReviewCompletedMessage.validate (kvs : List (PyStr × Json F)) : Check ReviewCompletedMessage :=
  let tag := py "review_completed"
  (envelopeV1 p mode tag kvs).both
    ((field tag (py "user_id") none (p.toStr mode) kvs).both
    ((field tag (py "card_id") none (p.toStr mode) kvs).both
    ((field tag (py "modality") none (literal Modality.options) kvs).both
    ((field tag (py "rating") none (literal Rating.options) kvs).both
    (field tag (py "count") (some ⟨1, le_refl 1⟩) (intGe 1 (p.toInt mode)) kvs)))))
  |>.map fun (_, userId, cardId, modality, rating, count) =>
    ⟨userId, cardId, modality, rating, count, count.2⟩

def FriendAddedMessage.validate (kvs : List (PyStr × Json F)) : Check FriendAddedMessage :=
  let tag := py "friend_added"
  (envelopeV1 p mode tag kvs).both
    ((field tag (py "user_id") none (p.toStr mode) kvs).both
    (field tag (py "friend_id") none (p.toStr mode) kvs))
  |>.map fun (_, userId, friendId) => ⟨userId, friendId⟩

def AdWatchedMessage.validate (kvs : List (PyStr × Json F)) : Check (AdWatchedMessage D) :=
  let tag := py "ad_watched"
  (envelopeV1 p mode tag kvs).both
    ((field tag (py "user_id") none (p.toStr mode) kvs).both
    ((field tag (py "placement") none (p.toStr mode) kvs).both
    ((field tag (py "idempotency_key") none (p.toStr mode) kvs).both
    ((field tag (py "lingots_awarded") none (intGe 0 (p.toInt mode)) kvs).both
    (field tag (py "occurred_at") none (p.toDatetime mode) kvs)))))
  |>.map fun (_, userId, placement, idempotencyKey, lingots, occurredAt) =>
    ⟨userId, placement, idempotencyKey, lingots, occurredAt, lingots.2⟩

def SubscriptionChangedMessage.validate (kvs : List (PyStr × Json F)) :
    Check SubscriptionChangedMessage :=
  let tag := py "subscription_changed"
  (envelopeV1 p mode tag kvs).both
    ((field tag (py "user_id") none (p.toStr mode) kvs).both
    ((field tag (py "tier") none (literal Tier.options) kvs).both
    (field tag (py "event") none (literal SubscriptionEvent.options) kvs)))
  |>.map fun (_, userId, tier, event) => ⟨userId, tier, event⟩

/-- The branch of the union a tag selects. -/
def validateTagged (tag : PyStr) (kvs : List (PyStr × Json F)) : Check (EventMessage F D) :=
  if tag = py "xp_awarded" then (XpAwardedMessage.validate p mode kvs).map .xpAwarded
  else if tag = py "lesson_completed" then
    (LessonCompletedMessage.validate p mode kvs).map .lessonCompleted
  else if tag = py "review_completed" then
    (ReviewCompletedMessage.validate p mode kvs).map .reviewCompleted
  else if tag = py "friend_added" then (FriendAddedMessage.validate p mode kvs).map .friendAdded
  else if tag = py "ad_watched" then (AdWatchedMessage.validate p mode kvs).map .adWatched
  else if tag = py "subscription_changed" then
    (SubscriptionChangedMessage.validate p mode kvs).map .subscriptionChanged
  else .error [⟨py "union_tag_invalid", []⟩]

/-- The discriminated union. -/
def validateEvent : Json F → Check (EventMessage F D)
  | .dict kvs =>
    match Json.lookup (py "type") kvs with
    | some (.str tag) => validateTagged p mode tag kvs
    | some _ => .error [⟨py "union_tag_invalid", []⟩]
    | none => .error [⟨py "union_tag_not_found", []⟩]
  | _ => .error [⟨py "dict_type", []⟩]

/-- `_EVENT_ADAPTER.validate_python`. -/
def validatePython (j : Json F) : Except PyExc (EventMessage F D) :=
  (validateEvent p .python j).mapError .ValidationError

/-- `_EVENT_ADAPTER.validate_json`, of a text the parser has read, or could not. -/
def validateParsed (j : Option (Json F)) : Except PyExc (EventMessage F D) :=
  match j with
  | some j => (validateEvent p .json j).mapError .ValidationError
  | none => .error (.ValidationError [⟨py "json_invalid", []⟩])

end Validate

end LingoAsync.Contracts
