import LingoAsync.Handlers.Invariants
import LingoAsync.Handlers.NoSilentLoss
import LingoAsync.Http.Callbacks

/-!
# The worker over its client

The handlers over what they really call: `add_xp`, `bump_progress` and `list_quests` go through
`_request`, its retries and its breaker, to the network; `update_item` goes to the table. The
breaker, the requests sent and the process outlive each call, each batch and each invocation. A
journal is kept of the calls, each with the requests it took and what it gave.

Everything said elsewhere of the worker was said of any `Outside`, which answers a call from its
number alone. `live_refines` is why that is enough: over any schedule, the worker over its client
does what the worker does over the outside that answers as the journal says.
-/

namespace LingoAsync.Handlers

open LingoAsync.Text LingoAsync.Contracts LingoAsync.Calendar LingoAsync.Handler
open LingoAsync.Http LingoAsync.Machine LingoAsync.Action

variable {F D T : Type}

/-- What the worker stands on: the client's settings and its network, the leaderboard table, which
gives the `n`-th update its answer, and the clock. -/
structure Stack (F T : Type) where
  cfg : ClientSettings
  net : Net F T
  table : Nat → Except PyExc (Json F)
  clock : Nat → Instant

/-- A call that was made: the requests sent before it and by it, and what it gave. -/
structure Entry (F : Type) where
  call : Call F
  first : Nat
  sent : Nat
  answer : Except PyExc (Json F)

/-- The process with its client. -/
structure LiveState (F T : Type) where
  world : World F
  client : ClientState T
  updates : Nat
  journal : List (Entry F)

/-- The `label` of a call into core. An update goes to the table. -/
def coreLabel : Call F → Option PyStr
  | .step (.addXp ..) => some (py "add_xp")
  | .step (.bumpProgress ..) => some (py "bump_progress")
  | .listQuests _ => some (py "list_quests")
  | .step (.updateItem ..) => none

/-- The step a call is an attempt at. -/
def callStep : Call F → Option (Step F)
  | .step s => some s
  | .listQuests _ => none

/-- The step an entry says was applied. -/
def Entry.applied (e : Entry F) : Option (Step F) :=
  match e.answer with
  | .ok _ => callStep e.call
  | .error _ => none

/-- The world after a call. -/
def World.after (w : World F) (e : Entry F) : World F :=
  { w with calls := w.calls + 1, applied := w.applied ++ e.applied.toList }

/-- The process after a call. -/
def LiveState.noted (s : LiveState F T) (e : Entry F) (client : ClientState T) (updates : Nat) :
    LiveState F T where
  world := World.after s.world e
  client := client
  updates := updates
  journal := s.journal ++ [e]

variable [Clock T]

namespace Stack

variable (stack : Stack F T)

/-- A call: through the client, or to the table. -/
def call (c : Call F) : Py (LiveState F T) (Json F) := fun s =>
  match coreLabel c with
  | some label =>
    let ended := request stack.cfg stack.net label s.client
    (ended.1, s.noted ⟨c, s.client.sent, ended.2.sent - s.client.sent, ended.1⟩ ended.2 s.updates)
  | none =>
    (stack.table s.updates, s.noted ⟨c, s.client.sent, 0, stack.table s.updates⟩ s.client
      (s.updates + 1))

/-- `datetime.now(UTC)`. -/
def now (s : LiveState F T) : Instant × LiveState F T :=
  (stack.clock s.world.readings,
    { s with world := { s.world with readings := s.world.readings + 1 } })

/-- What the stack makes of a request of a handler. -/
def live : Interpreter F (LiveState F T)
  | .call c => stack.call c
  | .now => fun s => (.ok (stack.now s).1, (stack.now s).2)
  | .questsSurfaceUnmounted => fun s => (.ok s.world.unmounted, s)
  | .setQuestsSurfaceUnmounted => fun s =>
    (.ok (), { s with world := { s.world with unmounted := true } })

end Stack

/-- The worker over its client. -/
def App.live [PyFloat F] (app : App F D) (stack : Stack F T) : Worker (LiveState F T) F D :=
  app.workerOn stack.now stack.live

/-! ## What a call does -/

/-- One entry for each call, and the process is the journal's last word. -/
theorem call_cases (stack : Stack F T) (c : Call F) (s : LiveState F T) :
    ∃ e client updates, stack.call c s = (e.answer, s.noted e client updates) ∧ e.call = c := by
  unfold Stack.call
  split
  · exact ⟨⟨c, _, _, _⟩, _, _, rfl, rfl⟩
  · exact ⟨⟨c, _, _, _⟩, _, _, rfl, rfl⟩

/-! ## The outside of a run -/

/-- The outside answers as the journal says. -/
def AnswersAs (out : Outside F) (journal : List (Entry F)) : Prop :=
  ∀ n e, journal[n]? = some e → out.answer n e.call = e.answer

theorem AnswersAs.past {out : Outside F} {journal more : List (Entry F)}
    (h : AnswersAs out (journal ++ more)) : AnswersAs out journal := by
  intro n e he
  refine h n e ?_
  rw [List.getElem?_append_left (List.getElem?_eq_some_iff.mp he).1]
  exact he

/-- The world is that of the process, whose every call is in the journal. -/
structure Follows (s : LiveState F T) (w : World F) : Prop where
  world : s.world = w
  calls : s.journal.length = w.calls

variable {stack : Stack F T} {out : Outside F}

omit [Clock T] in
/-- What the outside gives for the next call is what the client gave. -/
theorem outside_call {s : LiveState F T} {w : World F} {e : Entry F} {client : ClientState T}
    {updates : Nat} (hanswers : AnswersAs out (s.noted e client updates).journal)
    (h : Follows s w) :
    outside out (.call e.call) w = (e.answer, World.after w e) := by
  have hans : out.answer w.calls e.call = e.answer := by
    refine hanswers w.calls e ?_
    show (s.journal ++ [e])[w.calls]? = some e
    rw [← h.calls, List.getElem?_concat_length]
  obtain ⟨c, first, sent, answer⟩ := e
  cases c with
  | step step =>
    show perform out step w = _
    cases answer with
    | ok j => rw [perform_ok hans]; rfl
    | error exc =>
      rw [perform_error hans, World.after]
      exact congrArg (fun l => (_, { w with calls := w.calls + 1, applied := l }))
        (List.append_nil _).symm
  | listQuests userId =>
    show listQuests out userId w = _
    rw [listQuests, hans, World.after]
    have hnone : Entry.applied (F := F) ⟨.listQuests userId, first, sent, answer⟩ = none := by
      cases answer <;> rfl
    rw [hnone]
    exact congrArg (fun l => (_, { w with calls := w.calls + 1, applied := l }))
      (List.append_nil _).symm

/-- The stack and the outside give a handler the same. -/
theorem simulates_live (hclock : out.clock = stack.clock) (r : Request F) :
    Simulates (fun s => AnswersAs out s.journal) Follows (stack.live r) (outside out r) := by
  cases r with
  | call c =>
    constructor
    · intro s hgood
      obtain ⟨e, client, updates, hcall, -⟩ := call_cases stack c s
      rw [Stack.live, hcall] at hgood
      exact AnswersAs.past hgood
    · intro s w hgood h
      obtain ⟨e, client, updates, hcall, rfl⟩ := call_cases stack c s
      rw [Stack.live, hcall] at hgood ⊢
      rw [outside_call hgood h]
      refine ⟨rfl, congrArg (World.after · e) h.world, ?_⟩
      show (s.journal ++ [e]).length = w.calls + 1
      rw [List.length_append, h.calls]
      rfl
  | now =>
    refine ⟨fun _ hgood => hgood, ?_⟩
    intro s w _ h
    obtain ⟨rfl, hcalls⟩ := h
    refine ⟨?_, rfl, hcalls⟩
    show Except.ok (stack.clock s.world.readings) = Except.ok (out.clock s.world.readings)
    rw [hclock]
  | questsSurfaceUnmounted =>
    refine ⟨fun _ hgood => hgood, ?_⟩
    intro s w _ h
    obtain ⟨rfl, hcalls⟩ := h
    exact ⟨rfl, rfl, hcalls⟩
  | setQuestsSurfaceUnmounted =>
    refine ⟨fun _ hgood => hgood, ?_⟩
    intro s w _ h
    obtain ⟨rfl, hcalls⟩ := h
    exact ⟨rfl, rfl, hcalls⟩

/-! ## The outside a journal makes -/

/-- What the services are specified to answer. -/
def WellFormedAnswer : Call F → Json F → Prop
  | .step (.addXp ..), j => ∃ kvs, j = .dict kvs
  | .step (.bumpProgress ..), j =>
    ∃ kvs, j = .dict kvs ∧ WellFormedProgress (Json.lookup (py "progress") kvs)
  | .step (.updateItem ..), _ => True
  | .listQuests _, j => WellFormedListing j

/-- Where the services answered, they answered what they are specified to. -/
def WellFormedJournal (journal : List (Entry F)) : Prop :=
  ∀ e ∈ journal, ∀ j, e.answer = .ok j → WellFormedAnswer e.call j

open Classical in
/-- The outside that answers as the journal says, and gives no other answers. -/
noncomputable def outsideOf (clock : Nat → Instant) (journal : List (Entry F)) : Outside F where
  clock := clock
  answer n c :=
    if h : ∃ e, journal[n]? = some e ∧ e.call = c then h.choose.answer else .error .TransportError

theorem outsideOf_answersAs (clock : Nat → Instant) (journal : List (Entry F)) :
    AnswersAs (outsideOf clock journal) journal := by
  intro n e he
  have hex : ∃ e', journal[n]? = some e' ∧ e'.call = e.call := ⟨e, he, rfl⟩
  obtain ⟨hchoose, -⟩ := hex.choose_spec
  rw [outsideOf]
  simp only [dif_pos hex]
  rw [Option.some.inj (hchoose.symm.trans he)]

/-- Its answers are the journal's. -/
theorem outsideOf_ok {clock : Nat → Instant} {journal : List (Entry F)} {n : Nat} {c : Call F}
    {j : Json F} (h : (outsideOf clock journal).answer n c = .ok j) :
    ∃ e ∈ journal, e.call = c ∧ e.answer = .ok j := by
  by_cases hex : ∃ e, journal[n]? = some e ∧ e.call = c
  · obtain ⟨he, hc⟩ := hex.choose_spec
    simp only [outsideOf, dif_pos hex] at h
    exact ⟨_, List.mem_of_getElem? he, hc, h⟩
  · simp only [outsideOf, dif_neg hex] at h
    cases h

theorem outsideOf_wellFormed {clock : Nat → Instant} {journal : List (Entry F)}
    (h : WellFormedJournal journal) : WellFormed (outsideOf clock journal) where
  addXp n userId amount lang optIn j hj := by
    obtain ⟨e, he, hc, hans⟩ := outsideOf_ok hj
    have hwf := h e he j hans
    rw [hc] at hwf
    exact hwf
  listQuests n userId j hj := by
    obtain ⟨e, he, hc, hans⟩ := outsideOf_ok hj
    have hwf := h e he j hans
    rw [hc] at hwf
    exact hwf
  bumpProgress n questId userId delta j hj := by
    obtain ⟨e, he, hc, hans⟩ := outsideOf_ok hj
    have hwf := h e he j hans
    rw [hc] at hwf
    exact hwf

/-! ## The refinement -/

/-- The process as it starts, with the client as it stands. -/
def LiveState.start (client : ClientState T) : LiveState F T where
  world := World.start
  client := client
  updates := 0
  journal := []

variable [PyFloat F]

/-- The worker over its client, and over an outside that answers as the journal says. -/
theorem sideBySide_live (app : App F D) (hclock : out.clock = stack.clock) :
    SideBySide (fun s => AnswersAs out s.journal) Follows (app.live stack) (app.worker out) := by
  have hnow : Simulates (fun s => AnswersAs out s.journal) Follows (app.live stack).utcNow
      (app.worker out).utcNow := by
    refine ⟨fun _ hgood => hgood, ?_⟩
    intro s w _ h
    obtain ⟨rfl, hcalls⟩ := h
    refine ⟨?_, rfl, hcalls⟩
    show Except.ok (stack.clock s.world.readings) = Except.ok (out.clock s.world.readings)
    rw [hclock]
  exact sideBySide_workerOn app hnow (simulates_live hclock)

/-- **The worker over its client refines the worker over an outside.** Over any schedule of batches,
from a process that has just started and a client in any state: there is an outside that gives every
call of the run the answer the client gave, the worker over it reports the same records in every
invocation, and it ends in the same world. If the services answered what they are specified to, it
is well-formed. -/
theorem live_refines (app : App F D) (stack : Stack F T) (client : ClientState T)
    (schedule : List (List SqsRecord)) :
    ∃ out : Outside F, out.clock = stack.clock ∧
      AnswersAs out (run (app.live stack).invoke (.start client) schedule).journal ∧
      (WellFormedJournal (run (app.live stack).invoke (.start client) schedule).journal →
        WellFormed out) ∧
      (run (app.live stack).invoke (.start client) schedule).world =
        run (app.worker out).invoke World.start schedule ∧
      ∀ pre batch, pre ++ [batch] <+: schedule →
        ((app.live stack).lambdaHandler batch (run (app.live stack).invoke (.start client) pre)).1 =
          ((app.worker out).lambdaHandler batch
            (run (app.worker out).invoke World.start pre)).1 := by
  have hanswers := outsideOf_answersAs stack.clock
    (run (app.live stack).invoke (.start client) schedule).journal
  have hstart : Follows (LiveState.start client : LiveState F T) World.start := ⟨rfl, rfl⟩
  obtain ⟨hend, hall⟩ := run_simulates (sideBySide_live app rfl) schedule hstart hanswers
  exact ⟨_, rfl, hanswers, outsideOf_wellFormed, hend.world, hall⟩

end LingoAsync.Handlers
