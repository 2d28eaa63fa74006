import LingoAsync.Handlers.InStep
import LingoAsync.Handlers.Journal
import LingoAsync.Pool

/-!
# Many containers, one leaderboard

Lambda runs as many containers as the queue has work for. Each has its own process, breaker and
latch, and handles its own batches; what they share is the leaderboard table, which takes their
updates one at a time in whatever order they come.

A container is a program: its invocations, one after the other (`Prog.invocations`). A fleet is a
pool of them, and a turn is one call of one container. `fleet_serial` says that the turns may fall
in any order: at every moment the table holds what the containers have posted, each update of each
of them and nothing else; each container reports and does what it does alone; and when all are done,
the table is that of the containers one after the other.
-/

namespace LingoAsync.Handlers

open LingoAsync.Text LingoAsync.Contracts LingoAsync.Calendar LingoAsync.Handler
open LingoAsync.Http LingoAsync.Machine LingoAsync.Action LingoAsync.Leaderboard LingoAsync.Ledger

variable {F D T σ : Type} [Clock T] [PyFloat F]

/-! ## A container as a program -/

namespace Prog

/-- One turn of the loop, without an event log. -/
def handleRecord (app : App F D) (record : SqsRecord) : Prog F (Option PyStr) := do
  let _ ← Program.perform .now
  let _ ← Program.perform .now
  match parseEvent app.rt app.pydantic (.str record.text) with
  | .error (.ValidationError _) => pure (some record.id)
  | .error exc => .raise exc
  | .ok event =>
    match ← (handle app.cfg app.rt event).caught with
    | .ok _ => pure none
    | .error _ => pure (some record.id)

/-- The loop. -/
def handleRecords (app : App F D) : List SqsRecord → Prog F (List PyStr)
  | [] => pure []
  | record :: records => do
    let verdict ← handleRecord app record
    let failures ← handleRecords app records
    pure (verdict.toList ++ failures)

/-- The invocations of a container. One that raises is followed by the next all the same. -/
def invocations (app : App F D) :
    List (List SqsRecord) → Prog F (List (Except PyExc (List PyStr)))
  | [] => pure []
  | batch :: schedule => do
    let reported ← (handleRecords app batch).caught
    let rest ← invocations app schedule
    pure (reported :: rest)

section Run

variable {app : App F D} {now : σ → Instant × σ} {answer : Interpreter F σ}
  (hnow : ∀ s, answer .now s = (.ok (now s).1, (now s).2))

include hnow

theorem run_handleRecord (record : SqsRecord) :
    (handleRecord app record).run answer = (app.workerOn now answer).handleRecord none record := by
  funext s
  rw [handleRecord_none, handleRecord, Program.run_bind, Program.run_perform, bind_ok (hnow s),
    Program.run_bind, Program.run_perform, bind_ok (hnow _)]
  have hparse : parseEvent app.rt app.pydantic (.str record.text) =
      (app.workerOn now answer).parse record := rfl
  rw [hparse]
  cases (app.workerOn now answer).parse record with
  | error exc => cases exc <;> rfl
  | ok event =>
    have hrun : dispatch (app.workerOn now answer).handlers event =
        (handle app.cfg app.rt event).run answer := dispatch_handlersOn _ _ answer event
    dsimp only
    rw [hrun, Program.run_bind, Program.run_caught]
    cases hd : (handle app.cfg app.rt event).run answer (now (now s).2).2 with
    | mk r s' =>
      have htick : (app.workerOn now answer).tick s = (now (now s).2).2 := rfl
      have hattempt : ((handle app.cfg app.rt event).run answer).attempt (now (now s).2).2 =
          (.ok r, s') := by
        simp only [Action.attempt, hd]
      rw [htick, hd, bind_ok hattempt]
      cases r <;> rfl

theorem run_handleRecords (records : List SqsRecord) :
    (handleRecords app records).run answer =
      (app.workerOn now answer).handleRecords none records := by
  induction records with
  | nil => rfl
  | cons record records ih =>
    rw [handleRecords, Worker.handleRecords, Program.run_bind, run_handleRecord hnow]
    refine congrArg (Worker.handleRecord _ none record >>= ·) ?_
    funext verdict
    rw [Program.run_bind, ih]
    rfl

/-- A container reports what the worker's invocations report, and ends where they do. -/
theorem run_invocations (schedule : List (List SqsRecord)) (s : σ) :
    (invocations app schedule).run answer s =
      (.ok ((app.workerOn now answer).reports schedule s),
        run (app.workerOn now answer).invoke s schedule) := by
  induction schedule generalizing s with
  | nil => rfl
  | cons batch schedule ih =>
    have hbatch : (handleRecords app batch).caught.run answer s =
        (.ok ((app.workerOn now answer).lambdaHandler batch s).1,
          (app.workerOn now answer).invoke s batch) := by
      rw [Program.run_caught, run_handleRecords hnow]
      rfl
    rw [invocations, Program.run_bind, bind_ok hbatch, Program.run_bind, bind_ok (ih _)]
    rfl

end Run

/-! ### What a container writes to the table -/

/-- A request that, if it is an update of the table, is one of an award's two. -/
def Posting : Request F → Prop
  | .call (.step s) => ∀ p, posting s = some p → ∃ scope now m, p = post scope now m
  | _ => True

/-- The updates of a handler are those of an award's week and month. -/
theorem handle_posting (cfg : Settings) (rt : Runtime) (event : EventMessage F D) :
    (handle cfg rt event).Makes Posting := by
  have hquests : ∀ event : EventMessage F D, (questEval rt event).Makes Posting :=
    fun event => questEval_makes rt event trivial trivial trivial (fun _ _ => nofun)
  cases event with
  | xpAwarded m =>
    refine (creditXp_makes m nofun).bind fun credited => ?_
    refine (leaderboardOutcome_makes cfg m trivial ?_ ?_).bind fun leaderboard => ?_
    · intro now p hp
      exact ⟨.weekly, now, m, (Option.some.inj hp).symm⟩
    · intro now p hp
      exact ⟨.monthly, now, m, (Option.some.inj hp).symm⟩
    · exact (hquests _).bind fun _ => trivial
  | lessonCompleted m => exact (hquests _).bind fun _ => trivial
  | reviewCompleted m => exact (hquests _).bind fun _ => trivial
  | friendAdded m => exact (hquests _).bind fun _ => trivial
  | subscriptionChanged m => trivial
  | adWatched m => trivial

theorem handleRecord_posting (app : App F D) (record : SqsRecord) :
    (handleRecord app record).Makes Posting := by
  have hnow : (Program.perform Request.now : Prog F _).Makes Posting :=
    Program.makes_perform trivial
  refine hnow.bind fun _ => hnow.bind fun _ => ?_
  split
  · trivial
  · trivial
  · refine (handle_posting app.cfg app.rt _).caught.bind fun r => ?_
    split <;> trivial

theorem handleRecords_posting (app : App F D) (records : List SqsRecord) :
    (handleRecords app records).Makes Posting := by
  induction records with
  | nil => trivial
  | cons record records ih =>
    exact (handleRecord_posting app record).bind fun _ => ih.bind fun _ => trivial

theorem invocations_posting (app : App F D) (schedule : List (List SqsRecord)) :
    (invocations app schedule).Makes Posting := by
  induction schedule with
  | nil => trivial
  | cons batch schedule ih =>
    exact (handleRecords_posting app batch).caught.bind fun _ => ih.bind fun _ => trivial

end Prog

/-! ## The fleet -/

/-- The postings of a request: what it adds to the table, if it is an update that goes through. -/
def postsOf : (r : Request F) → Except PyExc (Reply r) → List (Ledger.Posting Key Int)
  | .call (.step s), .ok _ => (posting s).toList
  | _, _ => []

/-- Containers, each with its process, and the leaderboard table. -/
abbrev Fleet (n : Nat) (F T : Type) :=
  Pool (Fin n) PyExc (Request F) Reply (List (Except PyExc (List PyStr))) (LiveState F T)
    (Ledger.Books Key Int)

namespace Fleet

variable {n : Nat}

/-- The containers as they start, each with the batches it will be given, and an empty table. -/
def start (app : App F D) (client : Fin n → ClientState T)
    (schedules : Fin n → List (List SqsRecord)) : Fleet n F T where
  program i := Prog.invocations app (schedules i)
  state i := .start (client i)
  shared := ∅

omit [PyFloat F] in
/-- A turn of a container: its next call. -/
def turn (stack : Fin n → Stack F T) : Fleet n F T → Fin n → Fleet n F T :=
  Pool.turn (fun i => (stack i).live) postsOf Ledger.Books.post

omit [PyFloat F] in
/-- Everything the containers have posted, one container after the other. -/
def posted (fleet : Fleet n F T) : List (Ledger.Posting Key Int) :=
  (List.finRange n).flatMap fun i => boardPostings (fleet.state i).world

end Fleet

omit [PyFloat F] in
/-- A request puts its postings on the container's own record. -/
theorem boardPostings_live (stack : Stack F T) (r : Request F) (s : LiveState F T) :
    boardPostings (stack.live r s).2.world =
      boardPostings s.world ++ postsOf r (stack.live r s).1 := by
  cases r with
  | call c =>
    obtain ⟨e, client, updates, hcall, rfl⟩ := call_cases stack c s
    rw [Stack.live, hcall]
    show (s.world.applied ++ e.applied.toList).filterMap posting = _
    rw [List.filterMap_append]
    refine congrArg (_ ++ ·) ?_
    obtain ⟨c, first, sent, answer⟩ := e
    cases c with
    | step step =>
      cases answer with
      | ok j => cases h : posting step <;> simp [Entry.applied, callStep, postsOf, h]
      | error exc => rfl
    | listQuests userId => cases answer <;> rfl
  | _ => exact (List.append_nil _).symm

omit [PyFloat F] in
/-- The postings of awards are coherent: an item's key tells its time to live. -/
theorem coherent_posts {ps : List (Ledger.Posting Key Int)}
    (h : ∀ p ∈ ps, ∃ scope now m, p = post scope now m) : Coherent ps := by
  intro p hp q hq hkey
  obtain ⟨scope, now, m, rfl⟩ := h p hp
  obtain ⟨scope', now', m', rfl⟩ := h q hq
  obtain ⟨-, hperiod, -⟩ := (itemKey_eq_iff _ _ _ _ _ _ _ _).mp hkey
  show (bucket scope _ _).2 = (bucket scope' _ _).2
  rw [bucket_ttl, bucket_ttl, hperiod]

section Serial

variable {n : Nat} (app : App F D) (stack : Fin n → Stack F T) (client : Fin n → ClientState T)
  (schedules : Fin n → List (List SqsRecord))

/-- At every moment the table is what the containers have posted. -/
theorem fleet_table (turns : List (Fin n)) :
    (run (Fleet.turn stack) (Fleet.start app client schedules) turns).shared =
      (∅ : Ledger.Books Key Int).postAll
        (run (Fleet.turn stack) (Fleet.start app client schedules) turns).posted := by
  have hmarks : ∀ (r : Request F) (answer : Except PyExc (Reply r)), Prog.Posting r →
      ∀ p ∈ postsOf r answer, ∃ scope now m, p = post scope now m := by
    intro r answer hr p hp
    unfold postsOf at hp
    split at hp
    · exact hr p (Option.mem_toList.mp hp)
    · cases hp
  obtain ⟨log, hshared, hperm, hlog⟩ := Pool.shared_turns (fun i => (stack i).live) postsOf
    Ledger.Books.post (fun s => boardPostings s.world) (fun i => boardPostings_live (stack i))
    hmarks (List.nodup_finRange n) List.mem_finRange (Fleet.start app client schedules)
    (fun i => Prog.invocations_posting app (schedules i)) turns
  have hstart : Pool.entries (fun s : LiveState F T => boardPostings s.world) (List.finRange n)
      (Fleet.start app client schedules).state = [] := by
    rw [Pool.entries, List.flatMap_eq_nil_iff]
    exact fun _ _ => rfl
  rw [hstart, List.nil_append] at hperm
  exact hshared.trans (postAll_perm (coherent_posts hlog) hperm.symm)

/-- A container that has had its turns reports and does what it does alone. -/
theorem fleet_alone {turns : List (Fin n)} {i : Fin n}
    (h : (Prog.invocations app (schedules i)).calls (stack i).live (.start (client i)) ≤
      turns.count i) :
    ((run (Fleet.turn stack) (Fleet.start app client schedules) turns).program i).ended =
        some (.ok ((app.live (stack i)).reports (schedules i) (.start (client i)))) ∧
      (run (Fleet.turn stack) (Fleet.start app client schedules) turns).state i =
        run (app.live (stack i)).invoke (.start (client i)) (schedules i) := by
  obtain ⟨hended, hstate⟩ := Pool.finished_of_turns (fun i => (stack i).live) postsOf
    Ledger.Books.post (Fleet.start app client schedules) h
  have hrun : (Prog.invocations app (schedules i)).run (stack i).live (.start (client i)) =
      (.ok ((app.live (stack i)).reports (schedules i) (.start (client i))),
        run (app.live (stack i)).invoke (.start (client i)) (schedules i)) :=
    Prog.run_invocations (fun _ => rfl) (schedules i) _
  exact ⟨hended.trans (congrArg (fun r => some r.1) hrun), hstate.trans (congrArg Prod.snd hrun)⟩

/-- **The containers of a fleet do not get into each other's way.** Their calls may fall in any
order. At every moment the table holds every update that went through, of every container, and
nothing else. And there are numbers of turns such that, whatever the order in which the containers
have had theirs, each has reported what it reports alone and is left as it is alone, and the table
is that of the containers one after the other. -/
theorem fleet_serial :
    (∀ turns : List (Fin n),
      (run (Fleet.turn stack) (Fleet.start app client schedules) turns).shared =
        (∅ : Ledger.Books Key Int).postAll
          (run (Fleet.turn stack) (Fleet.start app client schedules) turns).posted) ∧
    ∃ enough : Fin n → Nat, ∀ turns : List (Fin n), (∀ i, enough i ≤ turns.count i) →
      (∀ i, ((run (Fleet.turn stack) (Fleet.start app client schedules) turns).program i).ended =
          some (.ok ((app.live (stack i)).reports (schedules i) (.start (client i)))) ∧
        (run (Fleet.turn stack) (Fleet.start app client schedules) turns).state i =
          run (app.live (stack i)).invoke (.start (client i)) (schedules i)) ∧
      (run (Fleet.turn stack) (Fleet.start app client schedules) turns).shared =
        (∅ : Ledger.Books Key Int).postAll ((List.finRange n).flatMap fun i =>
          boardPostings
            (run (app.live (stack i)).invoke (.start (client i)) (schedules i)).world) := by
  refine ⟨fleet_table app stack client schedules,
    fun i => (Prog.invocations app (schedules i)).calls (stack i).live (.start (client i)), ?_⟩
  intro turns henough
  have halone := fun i => fleet_alone app stack client schedules (henough i)
  refine ⟨halone, ?_⟩
  rw [fleet_table, Fleet.posted]
  simp only [(halone _).2]

end Serial

end LingoAsync.Handlers
