import LingoAsync.Services

/-!
# The leaderboard updater

`app/leaderboard/updater.py`. An event credits two items of the leaderboard
table, the week's and the month's of its language; a bucket's label and its time
to live follow from the instant it is handled at.
-/

namespace LingoAsync.Leaderboard

open LingoAsync.Text LingoAsync.Calendar LingoAsync.Contracts

variable {F : Type}

/-- `_TTL_GRACE`, in seconds. -/
def TTL_GRACE : Int := 30 * 86400

/-- `_weekly_bucket`: the week's label, and the end of its last second plus the
grace. -/
def weeklyBucket (lang : PyStr) (now : Instant) : PyStr × Int :=
  let iso := isocalendar now.year now.ordinal
  let bucket := lang ++ 35 :: (pad 4 iso.1.toNat ++ py "-W" ++ pad 2 iso.2.toNat)
  -- the ISO year, which is not the calendar year around its ends
  let monday := midnightTimestamp (mondayOfIsoWeek iso.1 iso.2)
  let endOfWeek := monday + 7 * 86400 - 1
  (bucket, endOfWeek + TTL_GRACE)

/-- `_monthly_bucket`. -/
def monthlyBucket (lang : PyStr) (now : Instant) : PyStr × Int :=
  let bucket := lang ++ 35 :: (pad 4 now.year ++ py "-" ++ pad 2 now.month)
  let firstOfNext :=
    if now.month = 12 then midnightTimestamp (ymd2ord (now.year + 1) 1 1)
    else midnightTimestamp (ymd2ord now.year (now.month + 1) 1)
  let endOfMonth := firstOfNext - 1
  (bucket, endOfMonth + TTL_GRACE)

/-- The update `_add_xp` asks for. -/
def addXpStep (bucket : PyStr × Int) (userId : PyStr) (amount : Int) : Step F :=
  .updateItem (py "BUCKET#" ++ bucket.1) (py "USER#" ++ userId) amount bucket.2

/-- `_add_xp`: what it catches it raises again. -/
def addXp (bucket : PyStr × Int) (userId : PyStr) (amount : Int) : Prog F Unit := do
  let _ ← Prog.perform (addXpStep bucket userId amount)
  pure ()

/-- The record of one bucket written. -/
def bucketAction (bucket : PyStr × Int) (amount : Int) (scope : String) : Json F :=
  pyDict [("bucket", .str bucket.1), ("xp_added", .int amount), ("scope", .str (py scope))]

/-- `(event.learning_language_id or "").strip()`. -/
def eventLang (event : XpAwardedMessage) : PyStr := strip (event.learningLanguageId.getD [])

/-- `update_leaderboard`. -/
def updateLeaderboard (event : XpAwardedMessage) : Prog F (List (Json F)) :=
  if event.amount ≤ 0 then pure []
  else if event.leaderboardOptIn = false then pure []
  else if eventLang event = [] then pure []
  else do
    let now ← Program.perform .now
    let weekly := weeklyBucket (eventLang event) now
    let monthly := monthlyBucket (eventLang event) now
    -- two writes: a failure of the second leaves the first in place
    addXp weekly event.userId event.amount
    addXp monthly event.userId event.amount
    pure [bucketAction weekly event.amount "weekly", bucketAction monthly event.amount "monthly"]

/-- It asks for the time, and for an update of the week's item and the month's. -/
theorem updateLeaderboard_makes {Q : Request F → Prop} (event : XpAwardedMessage) (hnow : Q .now)
    (hweekly : ∀ now, Q (.call (.step
      (addXpStep (weeklyBucket (eventLang event) now) event.userId event.amount))))
    (hmonthly : ∀ now, Q (.call (.step
      (addXpStep (monthlyBucket (eventLang event) now) event.userId event.amount)))) :
    (updateLeaderboard event).Makes Q := by
  have hadd : ∀ bucket, Q (.call (.step (addXpStep bucket event.userId event.amount))) →
      (addXp bucket event.userId event.amount).Makes Q :=
    fun _ h => (Program.makes_perform h).bind fun _ => trivial
  unfold updateLeaderboard
  repeat' split
  · trivial
  · trivial
  · trivial
  · refine (Program.makes_perform hnow).bind fun now => ?_
    exact (hadd _ (hweekly now)).bind fun _ => (hadd _ (hmonthly now)).bind fun _ => trivial

/-! ## What an event adds -/

/-- The event counts for the leaderboard. -/
def Counts (event : XpAwardedMessage) : Prop :=
  0 < event.amount ∧ event.leaderboardOptIn = true ∧ eventLang event ≠ []

instance (event : XpAwardedMessage) : Decidable (Counts event) :=
  inferInstanceAs (Decidable (_ ∧ _ ∧ _))

/-- The two updates of an event that counts, handled at `now`. -/
def boardSteps (now : Instant) (event : XpAwardedMessage) : List (Step F) :=
  [addXpStep (weeklyBucket (eventLang event) now) event.userId event.amount,
   addXpStep (monthlyBucket (eventLang event) now) event.userId event.amount]

theorem addXp_performs (out : Outside F) (bucket : PyStr × Int) (userId : PyStr) (amount : Int)
    (w : World F) : Action.Performs out.tape ((addXp bucket userId amount).run (outside out)) w
      [addXpStep bucket userId amount] :=
  Action.performs_run_then (performs_perform out _ w) fun _ _ _ => Action.performs_pure _ _

/-- An event that counts performs its two updates; another one does nothing. -/
theorem updateLeaderboard_performs (out : Outside F) (event : XpAwardedMessage) (w : World F) :
    Action.Performs out.tape ((updateLeaderboard event).run (outside out)) w
      (if Counts event then boardSteps (out.clock w.readings) event else []) := by
  unfold updateLeaderboard
  by_cases hamount : event.amount ≤ 0
  · rw [if_pos hamount, if_neg fun h => absurd h.1 (by omega)]
    exact Action.performs_pure _ _
  rw [if_neg hamount]
  by_cases hopt : event.leaderboardOptIn = false
  · rw [if_pos hopt, if_neg fun h => by rw [h.2.1] at hopt; cases hopt]
    exact Action.performs_pure _ _
  rw [if_neg hopt]
  by_cases hlang : eventLang event = []
  · rw [if_pos hlang, if_neg fun h => h.2.2 hlang]
    exact Action.performs_pure _ _
  rw [if_neg hlang, if_pos ⟨by omega, by simpa using hopt, hlang⟩]
  have hread : Action.Performs out.tape ((Program.perform .now).run (outside out)) w [] :=
    Action.performs_nil rfl rfl rfl rfl
  refine Action.performs_run_bind (p := []) hread ?_
  intro now w' hnow
  obtain ⟨hclock, -⟩ := Prod.mk.inj hnow
  obtain rfl := Except.ok.inj hclock
  refine Action.performs_run_bind (p := [_]) (addXp_performs out _ _ _ _) ?_
  intro _ w1 _
  exact Action.performs_run_then (addXp_performs out _ _ _ _) fun _ _ _ => Action.performs_pure _ _

end LingoAsync.Leaderboard
