import LingoAsync.Contracts.WireForms

/-!
# What is accepted

A message is built from what its fields' conversions returned, or from their defaults; so of every
message that `parse_event` lets through, each string field is valid Unicode
(`parseEvent_isUnicode`). Its constraints are fields of the models and need no proof. Hence what has
been accepted once can be written out again, and in every wire form it comes back the same
(`parseEvent_again`).
-/

namespace LingoAsync.Contracts

open LingoAsync.Text

variable {F D α β : Type}

/-! ## Checks that passed -/

theorem Check.both_eq_ok {a : Check α} {b : Check β} {x : α × β} (h : a.both b = .ok x) :
    a = .ok x.1 ∧ b = .ok x.2 := by
  unfold Check.both at h
  split at h
  · rw [← Except.ok.inj h]
    exact ⟨rfl, rfl⟩
  · cases h
  · cases h
  · cases h

/-- A field was read from a value, or left at its default. -/
theorem field_eq_ok {tag name : PyStr} {default : Option α} {conv : Json F → Except PyStr α}
    {kvs : List (PyStr × Json F)} {a : α} (h : field tag name default conv kvs = .ok a) :
    (∃ j, conv j = .ok a) ∨ default = some a := by
  unfold field at h
  split at h
  · next j _ =>
    cases hc : conv j with
    | ok b =>
      rw [hc] at h
      exact .inl ⟨j, hc.trans (congrArg _ (Except.ok.inj h))⟩
    | error t =>
      rw [hc] at h
      cases h
  · cases default with
    | some b => exact .inr (congrArg some (Except.ok.inj h))
    | none => cases h

theorem map_eq_ok {ε : Type} {x : Except ε α} {f : α → β} {b : β} (h : x.map f = .ok b) :
    ∃ a, x = .ok a ∧ f a = b := by
  cases x with
  | ok a => exact ⟨a, rfl, Except.ok.inj h⟩
  | error e => cases h

/-! ## Strings -/

/-- Every string that pydantic reads is valid Unicode: lone surrogates are a complaint,
`string_unicode`. -/
def ReadsUnicode (p : Pydantic F D) : Prop :=
  ∀ mode j s, p.toStr mode j = .ok s → IsUnicode s

section Strings

variable {p : Pydantic F D} {mode : InputMode} {tag name : PyStr} {kvs : List (PyStr × Json F)}

theorem ReadsUnicode.str (hp : ReadsUnicode p) {s : PyStr}
    (h : field tag name none (p.toStr mode) kvs = .ok s) : IsUnicode s := by
  rcases field_eq_ok h with ⟨j, hj⟩ | hdefault
  · exact hp mode j s hj
  · cases hdefault

theorem ReadsUnicode.nullable (hp : ReadsUnicode p) {s : PyStr}
    (h : field tag name (some none) (nullable (p.toStr mode)) kvs = .ok (some s)) :
    IsUnicode s := by
  rcases field_eq_ok h with ⟨j, hj⟩ | hdefault
  · have hmap : (p.toStr mode j).map some = .ok (some s) := by
      cases j with
      | null => cases hj
      | _ => exact hj
    obtain ⟨t, ht, hs⟩ := map_eq_ok hmap
    exact hp mode j s (ht.trans (congrArg _ (Option.some.inj hs)))
  · cases hdefault

end Strings

/-! ## Messages -/

section Messages

variable [PyFloat F] {p : Pydantic F D} {mode : InputMode} {kvs : List (PyStr × Json F)}

/-- The strings of a message that its reader chooses. -/
def EventMessage.texts (p : Pydantic F D) : EventMessage F D → List PyStr
  | .xpAwarded m => m.userId :: m.learningLanguageId.toList
  | .lessonCompleted m => [m.userId, m.lessonId, p.isoformat m.attemptedAt]
  | .reviewCompleted m => [m.userId, m.cardId]
  | .friendAdded m => [m.userId, m.friendId]
  | .adWatched m => [m.userId, m.placement, m.idempotencyKey, p.isoformat m.occurredAt]
  | .subscriptionChanged m => [m.userId]

/-- Those that are literals of its model. -/
def EventMessage.literals : EventMessage F D → List PyStr
  | .xpAwarded m => [py "xp_awarded", m.source.literal]
  | .lessonCompleted _ => [py "lesson_completed"]
  | .reviewCompleted m => [py "review_completed", m.modality.literal, m.rating.literal]
  | .friendAdded _ => [py "friend_added"]
  | .adWatched _ => [py "ad_watched"]
  | .subscriptionChanged m => [py "subscription_changed", m.tier.literal, m.event.literal]

/-- There are no others. -/
theorem fields_str {event : EventMessage F D} {s : PyStr}
    (h : Json.str s ∈ (event.fields p).map (·.value)) : s ∈ event.texts p ++ event.literals := by
  cases event with
  | xpAwarded m =>
    cases hlang : m.learningLanguageId <;>
      simp [EventMessage.fields, EventMessage.userId, EventMessage.type, EventMessage.texts,
        EventMessage.literals, hlang] at h ⊢ <;> tauto
  | _ =>
    simp [EventMessage.fields, EventMessage.userId, EventMessage.type, EventMessage.texts,
      EventMessage.literals] at h ⊢
    tauto

theorem literals_isUnicode (event : EventMessage F D) : ∀ s ∈ event.literals, IsUnicode s := by
  cases event with
  | xpAwarded m => cases hs : m.source <;> simp only [EventMessage.literals, hs] <;> decide
  | reviewCompleted m =>
    cases hm : m.modality <;> cases hr : m.rating <;>
      simp only [EventMessage.literals, hm, hr] <;> decide
  | subscriptionChanged m =>
    cases ht : m.tier <;> cases he : m.event <;>
      simp only [EventMessage.literals, ht, he] <;> decide
  | _ => simp only [EventMessage.literals]; decide

theorem isUnicode_of_texts {event : EventMessage F D}
    (h : ∀ s ∈ event.texts p, IsUnicode s) : event.IsUnicode p := by
  intro f hf s hs
  have hvalue : Json.str s ∈ (event.fields p).map (·.value) := hs ▸ List.mem_map_of_mem hf
  rcases List.mem_append.mp (fields_str hvalue) with htext | hliteral
  · exact h s htext
  · exact literals_isUnicode event s hliteral

/-! ## Each model -/

theorem XpAwardedMessage.texts_isUnicode (hp : ReadsUnicode p) {m : XpAwardedMessage}
    (h : XpAwardedMessage.validate p mode kvs = .ok m) :
    ∀ s ∈ (EventMessage.xpAwarded m : EventMessage F D).texts p, IsUnicode s := by
  obtain ⟨x, hx, rfl⟩ := map_eq_ok h
  obtain ⟨huser, hx⟩ := Check.both_eq_ok (Check.both_eq_ok hx).2
  have hlang := (Check.both_eq_ok (Check.both_eq_ok (Check.both_eq_ok hx).2).2).1
  intro s hs
  rcases List.mem_cons.mp hs with rfl | hs
  · exact hp.str huser
  · exact hp.nullable (hlang.trans (congrArg _ (Option.mem_toList.mp hs)))

theorem LessonCompletedMessage.texts_isUnicode (law : LawfulPydantic p) (hp : ReadsUnicode p)
    {m : LessonCompletedMessage F D} (h : LessonCompletedMessage.validate p mode kvs = .ok m) :
    ∀ s ∈ (EventMessage.lessonCompleted m).texts p, IsUnicode s := by
  obtain ⟨x, hx, rfl⟩ := map_eq_ok h
  obtain ⟨huser, hx⟩ := Check.both_eq_ok (Check.both_eq_ok hx).2
  have hlesson := (Check.both_eq_ok hx).1
  simp only [EventMessage.texts, List.forall_mem_cons]
  exact ⟨hp.str huser, hp.str hlesson, law.isoformat_unicode _, List.forall_mem_nil _⟩

theorem ReviewCompletedMessage.texts_isUnicode (hp : ReadsUnicode p) {m : ReviewCompletedMessage}
    (h : ReviewCompletedMessage.validate p mode kvs = .ok m) :
    ∀ s ∈ (EventMessage.reviewCompleted m : EventMessage F D).texts p, IsUnicode s := by
  obtain ⟨x, hx, rfl⟩ := map_eq_ok h
  obtain ⟨huser, hx⟩ := Check.both_eq_ok (Check.both_eq_ok hx).2
  have hcard := (Check.both_eq_ok hx).1
  simp only [EventMessage.texts, List.forall_mem_cons]
  exact ⟨hp.str huser, hp.str hcard, List.forall_mem_nil _⟩

theorem FriendAddedMessage.texts_isUnicode (hp : ReadsUnicode p) {m : FriendAddedMessage}
    (h : FriendAddedMessage.validate p mode kvs = .ok m) :
    ∀ s ∈ (EventMessage.friendAdded m : EventMessage F D).texts p, IsUnicode s := by
  obtain ⟨x, hx, rfl⟩ := map_eq_ok h
  obtain ⟨huser, hfriend⟩ := Check.both_eq_ok (Check.both_eq_ok hx).2
  simp only [EventMessage.texts, List.forall_mem_cons]
  exact ⟨hp.str huser, hp.str hfriend, List.forall_mem_nil _⟩

theorem AdWatchedMessage.texts_isUnicode (law : LawfulPydantic p) (hp : ReadsUnicode p)
    {m : AdWatchedMessage D} (h : AdWatchedMessage.validate p mode kvs = .ok m) :
    ∀ s ∈ (EventMessage.adWatched m : EventMessage F D).texts p, IsUnicode s := by
  obtain ⟨x, hx, rfl⟩ := map_eq_ok h
  obtain ⟨huser, hx⟩ := Check.both_eq_ok (Check.both_eq_ok hx).2
  obtain ⟨hplacement, hx⟩ := Check.both_eq_ok hx
  have hkey := (Check.both_eq_ok hx).1
  simp only [EventMessage.texts, List.forall_mem_cons]
  exact ⟨hp.str huser, hp.str hplacement, hp.str hkey, law.isoformat_unicode _,
    List.forall_mem_nil _⟩

theorem SubscriptionChangedMessage.texts_isUnicode (hp : ReadsUnicode p)
    {m : SubscriptionChangedMessage}
    (h : SubscriptionChangedMessage.validate p mode kvs = .ok m) :
    ∀ s ∈ (EventMessage.subscriptionChanged m : EventMessage F D).texts p, IsUnicode s := by
  obtain ⟨x, hx, rfl⟩ := map_eq_ok h
  have huser := (Check.both_eq_ok (Check.both_eq_ok hx).2).1
  simp only [EventMessage.texts, List.forall_mem_cons]
  exact ⟨hp.str huser, List.forall_mem_nil _⟩

/-! ## The union, and the parser -/

variable {event : EventMessage F D}

theorem validateEvent_isUnicode (law : LawfulPydantic p) (hp : ReadsUnicode p) {j : Json F}
    (h : validateEvent p mode j = .ok event) : event.IsUnicode p := by
  refine isUnicode_of_texts ?_
  unfold validateEvent at h
  split at h
  · next kvs =>
    split at h
    · next tag _ =>
      unfold validateTagged at h
      split at h
      · obtain ⟨m, hm, rfl⟩ := map_eq_ok h
        exact XpAwardedMessage.texts_isUnicode hp hm
      · split at h
        · obtain ⟨m, hm, rfl⟩ := map_eq_ok h
          exact LessonCompletedMessage.texts_isUnicode law hp hm
        · split at h
          · obtain ⟨m, hm, rfl⟩ := map_eq_ok h
            exact ReviewCompletedMessage.texts_isUnicode hp hm
          · split at h
            · obtain ⟨m, hm, rfl⟩ := map_eq_ok h
              exact FriendAddedMessage.texts_isUnicode hp hm
            · split at h
              · obtain ⟨m, hm, rfl⟩ := map_eq_ok h
                exact AdWatchedMessage.texts_isUnicode law hp hm
              · split at h
                · obtain ⟨m, hm, rfl⟩ := map_eq_ok h
                  exact SubscriptionChangedMessage.texts_isUnicode hp hm
                · cases h
    · cases h
    · cases h
  · cases h

theorem mapError_eq_ok {ε ε' : Type} {f : ε → ε'} {x : Except ε α} {a : α}
    (h : x.mapError f = .ok a) : x = .ok a := by
  cases x with
  | ok b => exact congrArg _ (Except.ok.inj h)
  | error e => cases h

/-- Every string of a message that was let through is valid Unicode. -/
theorem parseEvent_isUnicode (law : LawfulPydantic p) (hp : ReadsUnicode p) {rt : Runtime}
    {body : Body F} (h : parseEvent rt p body = .ok event) : event.IsUnicode p := by
  have hparsed : ∀ {j : Option (Json F)}, validateParsed p j = .ok event → event.IsUnicode p := by
    intro j hj
    unfold validateParsed at hj
    split at hj
    · exact validateEvent_isUnicode law hp (mapError_eq_ok hj)
    · cases hj
  unfold parseEvent at h
  split at h
  · split at h
    · cases h
    · exact hparsed h
  · split at h
    · cases h
    · split at h
      · cases h
      · exact hparsed h
      · exact hparsed h
  · exact validateEvent_isUnicode law hp (mapError_eq_ok h)

/-- **What is accepted is accepted again.** A message that was let through, out of any body, comes
back from every wire form of any JSON text of it. -/
theorem parseEvent_again [Json.LawfulPyFloat F] (law : LawfulPydantic p) (hp : ReadsUnicode p)
    {rt : Runtime} {body : Body F} (h : parseEvent rt p body = .ok event) {e again : PyStr}
    (he : IsJsonText p event e) (hagain : WireForm F rt e again) :
    parseEvent rt p (.str again) = .ok event := by
  obtain ⟨o, kvs, hobj, hfits, rfl⟩ := he.exists_dumps
  exact parseEvent_dumps law (parseEvent_isUnicode law hp h) hobj hfits hagain

end Messages

end LingoAsync.Contracts
