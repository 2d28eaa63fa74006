import LingoAsync.Handlers.Latch
import LingoAsync.Handlers.Shut
import LingoAsync.Http.InternalToken

/-!
# A container, from its cold start

The handlers build their clients as they go: `xp_awarded` one for a credit, `evaluate_quests_for`
one for a listing and the bumps it leads to, and each resolves the token anew. A `Container` is the
worker with those clients, on a network that answers by the header; `boot` is what happens when the
module is imported.

`container_refines`: all of it comes to one token. The worker does what it would do on the network
as it answers that token, whatever SSM would have said later; so what was said of the worker over
its client holds of a container. And where core does not accept the token, the cold start says so,
and nothing is lost for it (`container_drifted`).
-/

namespace LingoAsync.Handlers

open LingoAsync.Text LingoAsync.Contracts LingoAsync.Calendar LingoAsync.Handler
open LingoAsync.Http LingoAsync.Machine LingoAsync.Action

variable {F D T : Type} [Clock T]

/-- What a container stands on. -/
structure Container (F T : Type) where
  source : TokenSource
  threshold : Int
  cooldownS : T
  cfg : ClientSettings
  net : AuthNet F T
  table : Nat → Except PyExc (Json F)
  clock : Nat → Instant

/-- The process: with the token it has cached, the evaluator's client, by its header, and the
headers of the calls into core so far. -/
structure ContainerState (F T : Type) where
  live : LiveState F T
  tokens : TokenCache
  client : Option PyStr
  carried : List PyStr

/-- `m`, which only works on what the clients share. -/
def onLive {α : Type} (m : Py (LiveState F T) α) : Py (ContainerState F T) α := fun s =>
  ((m s.live).1, { s with live := (m s.live).2 })

namespace Container

variable (box : Container F T)

/-- What a client with the header stands on. -/
def stack (authorization : PyStr) : Stack F T where
  cfg := box.cfg
  net := box.net.carrying authorization
  table := box.table
  clock := box.clock

/-- A call through a client. -/
def callAs (authorization : PyStr) (c : Call F) : Py (ContainerState F T) (Json F) := fun s =>
  let ended := (box.stack authorization).call c s.live
  (ended.1, { s with live := ended.2, carried := s.carried ++ [authorization] })

/-- A call, with the client the source makes it through. -/
def call (c : Call F) : Py (ContainerState F T) (Json F) := fun s =>
  let built := lingoCoreClient box.source s.tokens
  match c with
  | .step (.addXp ..) => box.callAs built.1 c { s with tokens := built.2 }
  | .listQuests _ => box.callAs built.1 c { s with tokens := built.2, client := some built.1 }
  | .step (.bumpProgress ..) =>
    match s.client with
    | some authorization => box.callAs authorization c s
    | none => box.callAs built.1 c { s with tokens := built.2 } -- nothing is bumped unlisted
  | .step (.updateItem ..) => onLive ((box.stack []).call c) s -- the table asks for no header

/-- `datetime.now(UTC)`. -/
def now (s : ContainerState F T) : Instant × ContainerState F T :=
  (((box.stack []).now s.live).1, { s with live := ((box.stack []).now s.live).2 })

/-- What the container makes of a request of a handler. -/
def answer : Interpreter F (ContainerState F T)
  | .call c => box.call c
  | .now => fun s => (.ok (box.now s).1, (box.now s).2)
  | .questsSurfaceUnmounted => onLive ((box.stack []).live .questsSurfaceUnmounted)
  | .setQuestsSurfaceUnmounted => onLive ((box.stack []).live .setQuestsSurfaceUnmounted)

/-- The import of the module: what the probe logs or raises, and the process. -/
def boot : Except PyExc SelfCheck × ContainerState F T :=
  let probed := verifyInternalTokenOnBoot box.source box.net .init
    (.init box.threshold box.cooldownS)
  (probed.1, ⟨.start probed.2.2, probed.2.1, none, []⟩)

/-- The token of the container, and the header its clients carry. -/
def token : PyStr := (resolveInternalServiceToken box.source .init).1

def authorization : PyStr := bearer box.token

end Container

/-- The worker in the container. -/
def App.container [PyFloat F] (app : App F D) (box : Container F T) :
    Worker (ContainerState F T) F D :=
  app.workerOn box.now box.answer

/-! ## One token -/

/-- The process beside one whose every client carries the header. -/
structure Carries (box : Container F T) (s : ContainerState F T) (t : LiveState F T) : Prop where
  live : s.live = t
  tokens : s.tokens = (resolveInternalServiceToken box.source .init).2
  client : ∀ authorization ∈ s.client, authorization = box.authorization
  carried : s.carried = (labels t.journal).map fun _ => box.authorization

variable {box : Container F T} {s : ContainerState F T} {t : LiveState F T}

omit [Clock T] in
/-- Whichever client is built now carries the header. -/
theorem Carries.built (h : Carries box s t) :
    lingoCoreClient box.source s.tokens = (box.authorization, s.tokens) := by
  rw [h.tokens]
  exact (resolve_settles box.source .init).lingoCoreClient

/-- A call through a client with the header. -/
theorem Carries.callAs (h : Carries box s t) {c : Call F} (hcore : coreLabel c ≠ none) :
    (box.callAs box.authorization c s).1 = ((box.stack box.authorization).call c t).1 ∧
      Carries box (box.callAs box.authorization c s).2
        ((box.stack box.authorization).call c t).2 := by
  obtain ⟨rfl, htokens, hclient, hcarried⟩ := h
  refine ⟨rfl, rfl, htokens, hclient, ?_⟩
  obtain ⟨label, hlabel⟩ := Option.ne_none_iff_exists'.mp hcore
  obtain ⟨e, client, updates, hcall, rfl⟩ := call_cases (box.stack box.authorization) c s.live
  show s.carried ++ [box.authorization] = _
  rw [hcall, hcarried]
  simp [labels, LiveState.noted, hlabel]

/-- **A call** is made with the header, or to the table. -/
theorem Carries.call (h : Carries box s t) (c : Call F) :
    (box.call c s).1 = ((box.stack box.authorization).call c t).1 ∧
      Carries box (box.call c s).2 ((box.stack box.authorization).call c t).2 := by
  have hbuilt := h.built
  unfold Container.call
  rw [hbuilt]
  cases c with
  | listQuests userId =>
    have hlisting : Carries box { s with client := some box.authorization } t :=
      ⟨h.live, h.tokens, fun a ha => (Option.some.inj ha).symm, h.carried⟩
    exact hlisting.callAs (by simp [coreLabel])
  | step step =>
    cases step with
    | addXp userId amount lang optIn => exact h.callAs (by simp [coreLabel])
    | bumpProgress questId userId delta =>
      dsimp only
      split
      · next authorization hclient =>
        rw [h.client authorization hclient]
        exact h.callAs (by simp [coreLabel])
      · exact h.callAs (by simp [coreLabel])
    | updateItem pk userId amount ttl =>
      obtain ⟨rfl, htokens, hclient, hcarried⟩ := h
      refine ⟨rfl, rfl, htokens, hclient, ?_⟩
      show s.carried = (labels (s.live.journal ++ [_])).map fun _ => box.authorization
      rw [hcarried, labels, labels, List.filterMap_append]
      exact congrArg (List.map _) (List.append_nil _).symm

/-- A request. -/
theorem simulates_container (r : Request F) :
    Simulates (fun _ => True) (Carries box) (box.answer r)
      ((box.stack box.authorization).live r) := by
  refine ⟨fun _ _ => trivial, ?_⟩
  intro s t _ h
  cases r with
  | call c => exact h.call c
  | now =>
    obtain ⟨rfl, htokens, hclient, hcarried⟩ := h
    exact ⟨rfl, rfl, htokens, hclient, hcarried⟩
  | questsSurfaceUnmounted =>
    obtain ⟨rfl, htokens, hclient, hcarried⟩ := h
    exact ⟨rfl, rfl, htokens, hclient, hcarried⟩
  | setQuestsSurfaceUnmounted =>
    obtain ⟨rfl, htokens, hclient, hcarried⟩ := h
    exact ⟨rfl, rfl, htokens, hclient, hcarried⟩

/-- What the import leaves. -/
theorem carries_boot (box : Container F T) :
    Carries box box.boot.2 (.start box.boot.2.live.client) where
  live := rfl
  tokens := (boot_leaves _ _ _ _).1
  client _ h := by cases h
  carried := rfl

variable [PyFloat F]

theorem sideBySide_container (app : App F D) (box : Container F T) :
    SideBySide (fun _ => True) (Carries box) (app.container box)
      (app.live (box.stack box.authorization)) := by
  refine sideBySide_workerOn app ⟨fun _ _ => trivial, ?_⟩ simulates_container
  intro s t _ h
  obtain ⟨rfl, htokens, hclient, hcarried⟩ := h
  exact ⟨rfl, rfl, htokens, hclient, hcarried⟩

/-- A container's run, beside that of the worker with one header. -/
theorem carries_run (app : App F D) (box : Container F T) (schedule : List (List SqsRecord)) :
    Carries box (run (app.container box).invoke box.boot.2 schedule)
        (run (app.live (box.stack box.authorization)).invoke (.start box.boot.2.live.client)
          schedule) ∧
      ∀ pre batch, pre ++ [batch] <+: schedule →
        ((app.container box).lambdaHandler batch
            (run (app.container box).invoke box.boot.2 pre)).1 =
          ((app.live (box.stack box.authorization)).lambdaHandler batch
            (run (app.live (box.stack box.authorization)).invoke (.start box.boot.2.live.client)
              pre)).1 :=
  run_simulates (sideBySide_container app box) schedule (carries_boot box) trivial

/-- **A container has one token.** However often a client is built, it carries the header of the
token that the cold start came to, and SSM was asked for it once if the setting was empty, and else
never. The probe asked with that header. And over any schedule, every invocation reports what the
worker over its client would on the network as it answers that header, and leaves the process as it
would. -/
theorem container_refines (app : App F D) (box : Container F T) (schedule : List (List SqsRecord)) :
    let w := app.container box
    let w' := app.live (box.stack box.authorization)
    let s := run w.invoke box.boot.2 schedule
    let t := run w'.invoke (.start box.boot.2.live.client) schedule
    box.boot.1 = (if box.token = [] then .ok .unresolved
      else selfCheck ((exchange (box.stack box.authorization).net 0).map fun _ => ())) ∧
    s.live = t ∧ s.carried = (labels t.journal).map (fun _ => bearer box.token) ∧
    s.tokens.lookups = (if box.source.INTERNAL_SERVICE_TOKEN = [] then 1 else 0) ∧
    ∀ pre batch, pre ++ [batch] <+: schedule →
      (w.lambdaHandler batch (run w.invoke box.boot.2 pre)).1 =
        (w'.lambdaHandler batch (run w'.invoke (.start box.boot.2.live.client) pre)).1 := by
  intro w w' s t
  obtain ⟨hend, hall⟩ := carries_run app box schedule
  refine ⟨?_, hend.live, hend.carried, ?_, hall⟩
  · show (verifyInternalTokenOnBoot box.source box.net .init _).1 = _
    by_cases htoken : box.token = []
    · rw [boot_unresolved _ _ _ _ htoken, if_pos htoken]
    · rw [boot_probed _ _ _ _ htoken, if_neg htoken]
      rfl
  · rw [hend.tokens]
    exact resolve_lookups box.source

/-! ## A token that core does not accept -/

variable {stack : Stack F T}

/-- The breaker is as it was at import, and no callback so far has got further than its first
request. -/
structure Denied (b : CircuitBreaker T) (s : LiveState F T) : Prop where
  breaker : s.client.breaker = b
  journal : ∀ e ∈ s.journal, coreLabel e.call ≠ none →
    e.sent = 1 ∧ ∃ code ∈ [401, 403], e.answer = .error (.HTTPStatusError code)

omit [PyFloat F] in
/-- Nor does the next. -/
theorem Denied.call {b : CircuitBreaker T} (hclosed : b.state = .CLOSED)
    (hrejects : Rejects stack.net) {s : LiveState F T} (h : Denied b s) (c : Call F) :
    Denied b (stack.call c s).2 := by
  have happend : ∀ e : Entry F, (coreLabel e.call ≠ none →
      e.sent = 1 ∧ ∃ code ∈ [401, 403], e.answer = .error (.HTTPStatusError code)) →
      ∀ e' ∈ s.journal ++ [e], coreLabel e'.call ≠ none →
        e'.sent = 1 ∧ ∃ code ∈ [401, 403], e'.answer = .error (.HTTPStatusError code) := by
    intro e he e' he'
    rcases List.mem_append.mp he' with hold | hnew
    · exact h.journal e' hold
    · rw [List.mem_singleton.mp hnew]
      exact he
  unfold Stack.call
  split
  · next label hlabel =>
    obtain ⟨hcode, hsent, hbreaker⟩ := hrejects.request stack.cfg label (s := s.client)
      (h.breaker ▸ hclosed)
    refine ⟨hbreaker.trans h.breaker, happend _ fun _ => ⟨?_, hcode⟩⟩
    show (request stack.cfg stack.net label s.client).2.sent - s.client.sent = 1
    omega
  · next hlabel => exact ⟨h.breaker, happend _ fun hcore => absurd hlabel hcore⟩

omit [PyFloat F] in
theorem Denied.live {b : CircuitBreaker T} (hclosed : b.state = .CLOSED)
    (hrejects : Rejects stack.net) (r : Request F) {s : LiveState F T} (h : Denied b s) :
    Denied b (stack.live r s).2 := by
  cases r with
  | call c => exact h.call hclosed hrejects c
  | _ => exact ⟨h.breaker, h.journal⟩

/-- So it stays over a run, -/
theorem denied_run (app : App F D) {b : CircuitBreaker T} (hclosed : b.state = .CLOSED)
    (hrejects : Rejects stack.net) (schedule : List (List SqsRecord)) {s : LiveState F T}
    (h : Denied b s) : Denied b (run (app.live stack).invoke s schedule) :=
  (Preserves.of_all (fun _ h => ⟨h.breaker, h.journal⟩)
    fun r _ h => h.live hclosed hrejects r).run schedule h

omit [PyFloat F] in
/-- and core gives nothing. -/
theorem shut_rejected (hrejects : Rejects stack.net) {s : LiveState F T}
    (hclosed : s.client.breaker.state = .CLOSED) : Shut stack s := by
  intro c label hlabel
  obtain ⟨⟨code, hcode, hexc⟩, -, -⟩ := hrejects.request stack.cfg label (s := s.client) hclosed
  refine ⟨.HTTPStatusError code, ?_, ?_⟩
  · unfold Stack.call
    rw [hlabel]
    exact hexc
  · simp only [List.mem_cons, List.not_mem_nil, or_false] at hcode
    rcases hcode with rfl | rfl <;> simp

omit [PyFloat F] in
/-- The breaker of a stretch of a run. -/
theorem Booked.rejected (hrejects : Rejects stack.net) {s t : LiveState F T} (h : Booked stack s t)
    (hclosed : s.client.breaker.state = .CLOSED) : t.client.breaker = s.client.breaker := by
  obtain ⟨new, hbooks⟩ := h
  rw [hbooks.client]
  refine run_inv (fun c : ClientState T => c.breaker = s.client.breaker) ?_ (labels new) rfl
  intro c label hc
  exact (hrejects.request stack.cfg label (hc ▸ hclosed)).2.2.trans hc

omit [Clock T] in
omit [PyFloat F] in
/-- The quests are not unmounted either: no listing was answered with 404. -/
theorem Denied.mounted {b : CircuitBreaker T} {s : LiveState F T} (h : Denied b s)
    (hlatch : LatchSound s) : s.world.unmounted = false := by
  rcases hlatch with hm | hl
  · exact hm.unset
  · obtain ⟨pre, e, post, hjournal, ⟨⟨userId, hcall⟩, hunmounts⟩, -, -⟩ := hl.once
    obtain ⟨-, code, hcode, hanswer⟩ :=
      h.journal e (by simp [hjournal]) (by simp [hcall, coreLabel])
    rw [hanswer] at hunmounts
    cases hunmounts
    simp at hcode

/-- **A token that core does not accept.** The cold start says so, or that there is none; it does
not raise. Over any schedule, each callback is a single request that core refuses, the breaker is as
it was at import, the quests are not unmounted, and every message whose event needs core is
reported, so that it comes again. -/
theorem container_drifted (app : App F D) (box : Container F T)
    (hrejects : Rejects (box.stack box.authorization).net) (schedule : List (List SqsRecord)) :
    let w := app.container box
    let s := run w.invoke box.boot.2 schedule
    (box.boot.1 = .ok .unresolved ∨ ∃ code ∈ [401, 403], box.boot.1 = .ok (.mismatch code)) ∧
    Denied (.init box.threshold box.cooldownS) s.live ∧ s.live.world.unmounted = false ∧
    ∀ batch failures, (w.lambdaHandler batch s).1 = .ok failures →
      ∀ record ∈ batch, ∀ event, w.parse record = .ok event → NeedsCore false event →
        record.id ∈ failures := by
  intro w s
  have hbreaker : box.boot.2.live.client.breaker = .init box.threshold box.cooldownS :=
    (boot_leaves box.source box.net .init (.init box.threshold box.cooldownS)).2
  have hclosed : (CircuitBreaker.init box.threshold box.cooldownS).state = .CLOSED := rfl
  have hstart : Denied (.init box.threshold box.cooldownS)
      (.start box.boot.2.live.client : LiveState F T) :=
    ⟨hbreaker, fun _ h => absurd h List.not_mem_nil⟩
  have hlatch : LatchSound (.start box.boot.2.live.client : LiveState F T) :=
    .inl ⟨rfl, fun _ h => absurd h List.not_mem_nil⟩
  have hmounted : ∀ schedule, (run (app.live (box.stack box.authorization)).invoke
      (.start box.boot.2.live.client) schedule).world.unmounted = false := by
    intro schedule
    exact (denied_run app hclosed hrejects schedule hstart).mounted
      ((preserves_latchSound app _).run schedule hlatch)
  refine ⟨?_, ?_, ?_, ?_⟩
  · show (verifyInternalTokenOnBoot box.source box.net .init _).1 = _ ∨ ∃ code ∈ [401, 403],
      (verifyInternalTokenOnBoot box.source box.net .init _).1 = _
    by_cases htoken : box.token = []
    · rw [boot_unresolved _ _ _ _ htoken]
      exact .inl rfl
    · obtain ⟨code, hcode, hexchange⟩ := hrejects.exchange 0
      rw [boot_probed _ _ _ _ htoken, verifyInternalToken]
      refine .inr ⟨code, hcode, ?_⟩
      show selfCheck ((exchange (box.stack box.authorization).net 0).map fun _ => ()) = _
      rw [hexchange]
      exact if_pos hcode
  · rw [(carries_run app box schedule).1.live]
    exact denied_run app hclosed hrejects schedule hstart
  · rw [(carries_run app box schedule).1.live]
    exact hmounted schedule
  · intro batch failures hfailures record hrecord event hparse hneeds
    obtain ⟨pre, post, hbatch⟩ := List.append_of_mem hrecord
    rw [(carries_run app box (schedule ++ [batch])).2 schedule batch (List.prefix_refl _)]
      at hfailures
    -- the batch as far as the record is an invocation too
    have hpre : ((app.live (box.stack box.authorization)).handleRecords none pre
          (run (app.live (box.stack box.authorization)).invoke (.start box.boot.2.live.client)
            schedule)).2 =
        run (app.live (box.stack box.authorization)).invoke (.start box.boot.2.live.client)
          (schedule ++ [pre]) := by
      rw [run_append]
      rfl
    have hend := denied_run app hclosed hrejects schedule hstart
    refine batch_shut app _ _ batch (fun t ht _ => ?_) hfailures hbatch hparse ?_
    · refine shut_rejected hrejects ?_
      rw [ht.rejected hrejects (hend.breaker ▸ hclosed), hend.breaker]
      exact hclosed
    · rw [hpre, hmounted (schedule ++ [pre])]
      exact hneeds

/-- SSM holds the token of last month, and core has this month's. -/
def rotatedBox : Container Score ℚ where
  source := ⟨[], fun _ => .ok ⟨some ⟨some (py "may")⟩⟩⟩
  threshold := 5
  cooldownS := 30
  cfg := ⟨2, 1 / 5, 2⟩
  net :=
    { send := fun authorization _ =>
        .ok ⟨if authorization = bearer (py "june") then 200 else 401, .ok .null, null_decodes⟩
      clock := fun n => n }
  table _ := .ok .null
  clock _ := .noon

/-- The cold start names the code, and an award is reported. -/
theorem container_drifted_award : rotatedBox.boot.1 = .ok (.mismatch 401) ∧ ∃ failures,
    ((plainApp.container rotatedBox).lambdaHandler [awardRecord]
      (run (plainApp.container rotatedBox).invoke rotatedBox.boot.2 [[awardRecord]])).1 =
        .ok failures ∧ awardRecord.id ∈ failures := by
  have hrejects : Rejects (rotatedBox.stack rotatedBox.authorization).net :=
    fun _ => ⟨_, rfl, by decide +kernel⟩
  have hparse : (plainApp.container rotatedBox).parse awardRecord = .ok award := by
    decide +kernel
  have hfailures : ((plainApp.container rotatedBox).lambdaHandler [awardRecord]
      (run (plainApp.container rotatedBox).invoke rotatedBox.boot.2 [[awardRecord]])).1 =
        .ok [awardRecord.id] := by decide +kernel
  have hneeds : NeedsCore false award := Or.inl ⟨_, rfl, by decide, by decide⟩
  obtain ⟨-, -, -, hreported⟩ := container_drifted plainApp rotatedBox hrejects [[awardRecord]]
  exact ⟨by decide +kernel, _, hfailures,
    hreported [awardRecord] _ hfailures awardRecord List.mem_cons_self award hparse hneeds⟩

end LingoAsync.Handlers
