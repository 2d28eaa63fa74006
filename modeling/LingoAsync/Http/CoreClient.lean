import LingoAsync.Http.CircuitBreaker
import LingoAsync.Python

/-!
# The client for callbacks into lingo-core

`LingoCoreClient._request` of `app/http/lingo_core_client.py`: ask the shared
breaker, then try up to `1 + max 0 maxRetries` times, sleeping between attempts;
a transient failure counts against the breaker and is retried, any other
failure is raised at once, an answer resets the breaker.

`ClientState` is what outlives one call: the breaker, how far the network and
the clock have been read, and the trace of what the client did. The network
(`Net`) answers the `n`-th request ever sent and gives the `n`-th reading of the
clock, so a run over any list of calls meets every pattern of answers.

One attempt ends in one of three ways (`exchange_cases`), and each has a lemma
that says all the loop does there: `attemptLoop_transient` goes on,
`attemptLoop_answered` and `attemptLoop_refused` end the call. Nothing below
looks into the loop again.
-/

namespace LingoAsync.Http

open LingoAsync.Machine LingoAsync.Text

/-- The fields of `Settings` the client reads. -/
structure ClientSettings where
  CORE_CLIENT_MAX_RETRIES : Int
  CORE_CLIENT_BACKOFF_BASE_S : ℚ
  CORE_CLIENT_BACKOFF_MAX_S : ℚ

/-- `_is_transient`: a failure worth retrying. -/
def isTransient : PyExc → Bool
  | .HTTPStatusError code => decide (code ≥ 500) || decide (code = 429)
  | .TransportError => true
  | _ => false

/-- `_backoff_delay`. -/
def backoffDelay (cfg : ClientSettings) (attempt : Nat) : ℚ :=
  min (cfg.CORE_CLIENT_BACKOFF_BASE_S * 2 ^ attempt) cfg.CORE_CLIENT_BACKOFF_MAX_S

/-- An `httpx.Response`: its status, and what `resp.json()` returns or raises. A
body that does not decode is no failure of the network. -/
structure Response (F : Type) where
  statusCode : Nat
  json : Except PyExc (Json F)
  json_error : ∀ e, json = .error e → isTransient e = false

/-- `resp.raise_for_status()`. -/
def Response.raiseForStatus {F : Type} (r : Response F) : Except PyExc (Response F) :=
  if 200 ≤ r.statusCode ∧ r.statusCode < 300 then .ok r
  else .error (.HTTPStatusError r.statusCode)

/-- What the client meets outside: `send n` is how the `n`-th request ends, and
`clock n` the `n`-th reading of `time.monotonic`. -/
structure Net (F T : Type) where
  send : Nat → Except PyExc (Response F)
  clock : Nat → T

/-- What an onlooker sees the client do. A request is noted with the state the
breaker was in when it was sent. -/
inductive ClientEvent where
  | send (breaker : BreakerState)
  | sleep (delay : ℚ)
  | close
  deriving DecidableEq

/-- The module's state: `_breaker`, the number of requests sent and of clock
readings taken, and the trace. -/
structure ClientState (T : Type) where
  breaker : CircuitBreaker T
  sent : Nat
  ticks : Nat
  trace : List ClientEvent

variable {F T : Type}

namespace ClientState

/-- The state at import. -/
def init [Clock T] (threshold : Int) (cooldownS : T) : ClientState T where
  breaker := .init threshold cooldownS
  sent := 0
  ticks := 0
  trace := []

def note (s : ClientState T) (e : ClientEvent) : ClientState T :=
  { s with trace := s.trace ++ [e] }

end ClientState

/-- `_breaker.allow()`. -/
def allow [Clock T] (net : Net F T) (s : ClientState T) : Bool × ClientState T :=
  let answer := s.breaker.allow (net.clock s.ticks)
  (answer.1, { s with breaker := answer.2, ticks := s.ticks + 1 })

/-- `_breaker.record_success()`. -/
def recordSuccess (s : ClientState T) : ClientState T :=
  { s with breaker := s.breaker.recordSuccess }

/-- `_breaker.record_failure()`. -/
def recordFailure (net : Net F T) (s : ClientState T) : ClientState T :=
  { s with breaker := s.breaker.recordFailure (net.clock s.ticks), ticks := s.ticks + 1 }

/-- `send(client)`, then `raise_for_status` on what came back. -/
def exchange (net : Net F T) (n : Nat) : Except PyExc (Response F) :=
  match net.send n with
  | .ok resp => resp.raiseForStatus
  | .error e => .error e

/-- The body of the `try`: send, check the status, record the success, decode. -/
def tryOnce (net : Net F T) (s : ClientState T) : Except PyExc (Json F) × ClientState T :=
  let s' := { s.note (.send s.breaker.state) with sent := s.sent + 1 }
  match exchange net s.sent with
  -- the success is recorded before the body is decoded
  | .ok resp => (resp.json, recordSuccess s')
  | .error e => (.error e, s')

/-- `for attempt in range(max_attempts)` from `attempt` on, with `left` attempts
to go; `lastExc` is the local of that name. The client is closed on every way
out of the `try`. -/
def attemptLoop (cfg : ClientSettings) (net : Net F T) :
    (left attempt : Nat) → (lastExc : Option PyExc) → ClientState T →
      Except PyExc (Json F) × ClientState T
  | 0, _, lastExc, s => (.error (lastExc.getD .AssertionError), s)
  | left + 1, attempt, _, s =>
    match tryOnce net s with
    | (.ok j, s') => (.ok j, s'.note .close)
    | (.error e, s') =>
      if isTransient e = false then (.error e, s'.note .close)
      else
        let s'' := recordFailure net s'
        -- `attempt + 1 < max_attempts`: another attempt is to come
        let s'' := if left ≠ 0 then s''.note (.sleep (backoffDelay cfg attempt)) else s''
        attemptLoop cfg net left (attempt + 1) (some e) (s''.note .close)

/-- `LingoCoreClient._request`. -/
def request [Clock T] (cfg : ClientSettings) (net : Net F T) (label : PyStr)
    (s : ClientState T) : Except PyExc (Json F) × ClientState T :=
  match allow net s with
  | (false, s') =>
    (.error (.CircuitOpenError (py "circuit open for lingo-core (" ++ label ++ py ")")), s')
  | (true, s') => attemptLoop cfg net (1 + cfg.CORE_CLIENT_MAX_RETRIES.toNat) 0 none s'

/-- The state after one call. -/
def requestStep [Clock T] (cfg : ClientSettings) (net : Net F T) (s : ClientState T)
    (label : PyStr) : ClientState T :=
  (request cfg net label s).2

/-! ## One attempt -/

/-- The `n`-th request fails in a way worth retrying. -/
def failsTransiently (net : Net F T) (n : Nat) : Bool :=
  match exchange net n with
  | .ok _ => false
  | .error e => isTransient e

/-- The `n`-th request is answered: a 2xx, whether or not its body decodes. -/
def answered (net : Net F T) (n : Nat) : Bool := (exchange net n).isOk

theorem answered_of_failsTransiently {net : Net F T} {n : Nat}
    (h : failsTransiently net n = true) : answered net n = false := by
  unfold failsTransiently at h
  unfold answered
  cases hx : exchange net n with
  | ok resp =>
    rw [hx] at h
    cases h
  | error e => rfl

theorem failsTransiently_of_answered {net : Net F T} {n : Nat} (h : answered net n = true) :
    failsTransiently net n = false := by
  rw [← Bool.not_eq_true]
  intro hfails
  rw [answered_of_failsTransiently hfails] at h
  cases h

/-- A transient failure: the breaker hears of it, and the loop goes on. -/
theorem attemptLoop_transient (cfg : ClientSettings) {net : Net F T} {s : ClientState T}
    (left attempt : Nat) (lastExc : Option PyExc) (h : failsTransiently net s.sent = true) :
    ∃ e, exchange net s.sent = .error e ∧
      attemptLoop cfg net (left + 1) attempt lastExc s =
        attemptLoop cfg net left (attempt + 1) (some e)
          { breaker := s.breaker.recordFailure (net.clock s.ticks)
            sent := s.sent + 1
            ticks := s.ticks + 1
            trace := s.trace ++ (.send s.breaker.state ::
              ((if left ≠ 0 then [.sleep (backoffDelay cfg attempt)] else []) ++ [.close])) } := by
  unfold failsTransiently at h
  cases hx : exchange net s.sent with
  | ok resp => rw [hx] at h; cases h
  | error e =>
    rw [hx] at h
    have ht : ¬ isTransient e = false := by simpa using h
    refine ⟨e, rfl, ?_⟩
    have htry : tryOnce net s =
        (.error e, { s.note (.send s.breaker.state) with sent := s.sent + 1 }) := by
      simp only [tryOnce, hx]
    rw [attemptLoop]
    simp only [htry]
    rw [if_neg ht]
    by_cases hl : left = 0 <;> simp [hl, recordFailure, ClientState.note]

/-- An answer: the breaker closes, and the call ends. -/
theorem attemptLoop_answered (cfg : ClientSettings) {net : Net F T} {s : ClientState T}
    (left attempt : Nat) (lastExc : Option PyExc) (h : answered net s.sent = true) :
    ∃ resp, exchange net s.sent = .ok resp ∧
      attemptLoop cfg net (left + 1) attempt lastExc s =
        (resp.json,
          { breaker := s.breaker.recordSuccess
            sent := s.sent + 1
            ticks := s.ticks
            trace := s.trace ++ [.send s.breaker.state, .close] }) := by
  unfold answered at h
  cases hx : exchange net s.sent with
  | error e => rw [hx] at h; cases h
  | ok resp =>
    refine ⟨resp, rfl, ?_⟩
    have htry : tryOnce net s = (resp.json,
        recordSuccess { s.note (.send s.breaker.state) with sent := s.sent + 1 }) := by
      simp only [tryOnce, hx]
    rw [attemptLoop]
    cases hj : resp.json with
    | ok j =>
      rw [hj] at htry
      simp [htry, recordSuccess, ClientState.note]
    | error e =>
      rw [hj] at htry
      simp [htry, resp.json_error e hj, recordSuccess, ClientState.note]

/-- A failure not worth retrying: the breaker hears nothing, and the call ends. -/
theorem attemptLoop_refused (cfg : ClientSettings) {net : Net F T} {s : ClientState T}
    (left attempt : Nat) (lastExc : Option PyExc) (ha : answered net s.sent = false)
    (ht : failsTransiently net s.sent = false) :
    ∃ e, exchange net s.sent = .error e ∧
      attemptLoop cfg net (left + 1) attempt lastExc s =
        (.error e,
          { breaker := s.breaker
            sent := s.sent + 1
            ticks := s.ticks
            trace := s.trace ++ [.send s.breaker.state, .close] }) := by
  unfold answered at ha
  unfold failsTransiently at ht
  cases hx : exchange net s.sent with
  | ok resp => rw [hx] at ha; cases ha
  | error e =>
    rw [hx] at ht
    refine ⟨e, rfl, ?_⟩
    have htry : tryOnce net s =
        (.error e, { s.note (.send s.breaker.state) with sent := s.sent + 1 }) := by
      simp only [tryOnce, hx]
    rw [attemptLoop]
    simp only [htry]
    rw [if_pos ht]
    simp [ClientState.note]

/-- How a request can end. -/
theorem exchange_cases (net : Net F T) (n : Nat) :
    failsTransiently net n = true ∨ answered net n = true ∨
      (answered net n = false ∧ failsTransiently net n = false) := by
  cases h1 : failsTransiently net n
  · cases h2 : answered net n
    · exact Or.inr (Or.inr ⟨rfl, rfl⟩)
    · exact Or.inr (Or.inl rfl)
  · exact Or.inl rfl

end LingoAsync.Http
