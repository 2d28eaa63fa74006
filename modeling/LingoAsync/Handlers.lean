import LingoAsync.Handler.Lambda
import LingoAsync.Leaderboard.Updater
import LingoAsync.Quests.Evaluator

/-!
# The handlers

The modules of `app/handlers`. `xp_awarded` credits the user's XP where the
producer has not, writes the leaderboard, and evaluates the quests, in this
order; each raises what it meets, so that the first failure ends the event.

A handler is a program (`Prog`): it asks for a call to another service, a reading of the clock
or the evaluator's latch, and goes on from the answer. So it can be run over any interpreter of
these (`handlersOn`), over `outside` as well as with the client's retries and its breaker in
between.
-/

namespace LingoAsync.Handlers

open LingoAsync.Text LingoAsync.Contracts LingoAsync.Calendar LingoAsync.Handler

variable {F D σ : Type} [PyFloat F]

/-- The settings the handlers read. -/
structure Settings where
  LEADERBOARD_ENABLED : Bool
  deriving DecidableEq, Repr

/-- The record of one handler's actions. -/
def outcome (handler : String) (actions : List (Json F)) : Json F :=
  pyDict [("handler", .str (py handler)), ("actions", .list actions)]

/-- `_PRODUCER_ALREADY_CREDITED`. -/
def PRODUCER_ALREADY_CREDITED : List XpSource := [.lesson]

/-- The XP credit of `xp_awarded`. -/
def creditXp (event : XpAwardedMessage) : Prog F (Outcomes F) :=
  if event.source ∉ PRODUCER_ALREADY_CREDITED ∧ event.amount > 0 then do
    let resp ← Prog.perform
      (.addXp event.userId event.amount event.learningLanguageId event.leaderboardOptIn)
    let newXp ← pyGet resp (py "new_xp")
    pure [outcome "user_xp" [pyDict [("user_id", .str event.userId),
      ("amount_added", .int event.amount), ("new_xp", newXp),
      ("source", .str event.source.literal)]]]
  else pure []

/-- The leaderboard part of `xp_awarded`. -/
def leaderboardOutcome (cfg : Settings) (event : XpAwardedMessage) : Prog F (Json F) :=
  if cfg.LEADERBOARD_ENABLED then do
    let actions ← Leaderboard.updateLeaderboard event
    pure (outcome "leaderboard" actions)
  else pure (outcome "leaderboard" [pyDict [("skipped", .str (py "leaderboard_disabled"))]])

/-- The quest part that four handlers share. -/
def questEval (rt : Runtime) (event : EventMessage F D) : Prog F (Json F) := do
  let actions ← Quests.evaluateQuestsFor rt event.userId event
  pure (outcome "quest_eval" actions)

/-- `xp_awarded.handle`. -/
def xpAwarded (D : Type) (cfg : Settings) (rt : Runtime) (event : XpAwardedMessage) :
    Prog F (Outcomes F) := do
  let credited ← creditXp event
  -- what has been credited stays credited if a step below raises
  let leaderboard ← leaderboardOutcome cfg event
  let quests ← questEval rt (.xpAwarded event : EventMessage F D)
  pure (credited ++ [leaderboard, quests])

/-- `handle` of the handlers that only evaluate the quests. -/
def questsOnly (rt : Runtime) (event : EventMessage F D) : Prog F (Outcomes F) := do
  let quests ← questEval rt event
  pure [quests]

/-- `lesson_completed.handle`. -/
def lessonCompleted (rt : Runtime) (event : LessonCompletedMessage F D) : Prog F (Outcomes F) :=
  questsOnly rt (.lessonCompleted event)

/-- `review_completed.handle`. -/
def reviewCompleted (D : Type) (rt : Runtime) (event : ReviewCompletedMessage) :
    Prog F (Outcomes F) :=
  questsOnly rt (.reviewCompleted event : EventMessage F D)

/-- `friend_added.handle`. -/
def friendAdded (D : Type) (rt : Runtime) (event : FriendAddedMessage) : Prog F (Outcomes F) :=
  questsOnly rt (.friendAdded event : EventMessage F D)

/-- `ad_watched.handle`. -/
def adWatched (event : AdWatchedMessage D) : Prog F (Outcomes F) :=
  pure [outcome "ad_watched" [pyDict [("user_id", .str event.userId),
    ("placement", .str event.placement), ("lingots_awarded", .int event.lingotsAwarded)]]]

/-- `subscription_changed.handle`. -/
def subscriptionChanged (_event : SubscriptionChangedMessage) : Prog F (Outcomes F) := pure []

/-- The handler of an event. -/
def handle (cfg : Settings) (rt : Runtime) : EventMessage F D → Prog F (Outcomes F)
  | .xpAwarded m => xpAwarded D cfg rt m
  | .lessonCompleted m => lessonCompleted rt m
  | .reviewCompleted m => reviewCompleted D rt m
  | .friendAdded m => friendAdded D rt m
  | .subscriptionChanged m => subscriptionChanged m
  | .adWatched m => adWatched m

/-- The handlers over an interpreter. -/
def handlersOn (cfg : Settings) (rt : Runtime) (answer : Interpreter F σ) : Handlers σ F D where
  xp_awarded m := (xpAwarded D cfg rt m).run answer
  lesson_completed m := (lessonCompleted rt m).run answer
  review_completed m := (reviewCompleted D rt m).run answer
  friend_added m := (friendAdded D rt m).run answer
  subscription_changed m := (subscriptionChanged m).run answer
  ad_watched m := (adWatched m).run answer

theorem dispatch_handlersOn (cfg : Settings) (rt : Runtime) (answer : Interpreter F σ)
    (event : EventMessage F D) :
    dispatch (handlersOn cfg rt answer) event = (handle cfg rt event).run answer := by
  cases event <;> rfl

/-! ## What the handlers ask for -/

section Makes

variable {Q : Request F → Prop}

omit [PyFloat F] in
/-- The credit asks for one step. -/
theorem creditXp_makes (event : XpAwardedMessage)
    (h : Q (.call (.step (.addXp event.userId event.amount event.learningLanguageId
      event.leaderboardOptIn)))) : (creditXp event : Prog F (Outcomes F)).Makes Q := by
  unfold creditXp
  split
  · exact (Program.makes_perform h).bind fun _ => (makes_pyGet _ _).bind fun _ => trivial
  · trivial

omit [PyFloat F] in
/-- The leaderboard's part asks for what the updater does, and for nothing if it is off. -/
theorem leaderboardOutcome_makes (cfg : Settings) (event : XpAwardedMessage) (hnow : Q .now)
    (hweekly : ∀ now, Q (.call (.step (Leaderboard.addXpStep
      (Leaderboard.weeklyBucket (Leaderboard.eventLang event) now) event.userId event.amount))))
    (hmonthly : ∀ now, Q (.call (.step (Leaderboard.addXpStep
      (Leaderboard.monthlyBucket (Leaderboard.eventLang event) now) event.userId event.amount)))) :
    (leaderboardOutcome cfg event : Prog F (Json F)).Makes Q := by
  unfold leaderboardOutcome
  split
  · exact (Leaderboard.updateLeaderboard_makes event hnow hweekly hmonthly).bind fun _ => trivial
  · trivial

/-- So does the quests' part. -/
theorem questEval_makes (rt : Runtime) (event : EventMessage F D)
    (hlatch : Q .questsSurfaceUnmounted) (hset : Q .setQuestsSurfaceUnmounted)
    (hlist : Q (.call (.listQuests event.userId)))
    (hbump : ∀ questId delta, Q (.call (.step (.bumpProgress questId event.userId delta)))) :
    (questEval rt event).Makes Q :=
  (Quests.evaluateQuestsFor_makes rt _ event hlatch hset hlist hbump).bind fun _ => trivial

end Makes

/-! ## The worker -/

/-- What the worker is built from, the outside apart. -/
structure App (F D : Type) [PyFloat F] where
  rt : Runtime
  pydantic : Pydantic F D
  cfg : Settings
  strErrors : List LineError → PyStr
  repr : PyExc → PyStr

/-- The worker over an interpreter, without an event log. -/
def App.workerOn (app : App F D) (now : σ → Instant × σ) (answer : Interpreter F σ) :
    Worker σ F D where
  rt := app.rt
  pydantic := app.pydantic
  now := now
  getEventsRepo := pure none
  handlers := handlersOn app.cfg app.rt answer
  strErrors := app.strErrors
  repr := app.repr

/-- The worker over the outside. -/
def App.worker (app : App F D) (out : Outside F) : Worker (World F) F D :=
  app.workerOn (fun w => (out.clock w.readings, { w with readings := w.readings + 1 }))
    (outside out)

end LingoAsync.Handlers
