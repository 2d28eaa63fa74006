import LingoAsync.Http.RetryLoop

/-!
# The token of the callbacks

`app/http/internal_token.py`, and what is done with the token before the first message: the header
of a `LingoCoreClient`, and the cold-start probe of `app/handler.py`.

The token is the setting, if there is one, and else what SSM gave when it was first asked; a failure
of SSM is the empty token, and is remembered too. So a resolution settles the matter (`Settled`):
any later one gives the same token and asks nobody (`resolve_settles`). The probe asks core with
that token, and its line in the log tells a refusal from a core that is not there. It is meant never
to raise. It raises what is no `httpx.HTTPError` (`boot_raises_iff`).
-/

namespace LingoAsync.Http

open LingoAsync.Machine LingoAsync.Text

variable {F T : Type}

/-! ## Where the token comes from -/

/-- `Parameter` of a response of `get_parameter`. -/
structure Parameter where
  Value : Option PyStr

/-- A response of `get_parameter`. -/
structure ParameterResponse where
  Parameter : Option Parameter

/-- The setting, and how SSM answers when it is asked for the `n`-th time. -/
structure TokenSource where
  INTERNAL_SERVICE_TOKEN : PyStr
  getParameter : Nat → Except PyExc ParameterResponse

/-- The module's state: `_cached_token`, and how often SSM was asked. -/
structure TokenCache where
  cachedToken : Option PyStr
  lookups : Nat
  deriving DecidableEq

/-- The state at import. -/
def TokenCache.init : TokenCache where
  cachedToken := none
  lookups := 0

/-- `resp.get("Parameter", {}).get("Value", "")`. -/
def ParameterResponse.value (resp : ParameterResponse) : PyStr :=
  (resp.Parameter.bind Parameter.Value).getD []

/-- `_fetch_from_ssm`. -/
def fetchFromSsm (src : TokenSource) (c : TokenCache) : PyStr × TokenCache :=
  match src.getParameter c.lookups with
  | .ok resp => (resp.value, { c with lookups := c.lookups + 1 })
  | .error _ => ([], { c with lookups := c.lookups + 1 })

/-- `resolve_internal_service_token`. -/
def resolveInternalServiceToken (src : TokenSource) (c : TokenCache) : PyStr × TokenCache :=
  if src.INTERNAL_SERVICE_TOKEN ≠ [] then (src.INTERNAL_SERVICE_TOKEN, c)
  else
    match c.cachedToken with
    | some token => (token, c)
    | none =>
      let fetched := fetchFromSsm src c
      (fetched.1, { fetched.2 with cachedToken := some fetched.1 })

/-- The `Authorization` header of a token. -/
def bearer (token : PyStr) : PyStr := py "Bearer " ++ token

/-- `LingoCoreClient.__init__`: of the client, the header its requests carry. -/
def lingoCoreClient (src : TokenSource) (c : TokenCache) : PyStr × TokenCache :=
  let resolved := resolveInternalServiceToken src c
  (bearer resolved.1, resolved.2)

/-- Whoever asks gets the token, and SSM is not asked. -/
def Settled (src : TokenSource) (token : PyStr) (c : TokenCache) : Prop :=
  resolveInternalServiceToken src c = (token, c)

/-- **The first resolution settles the token**, whatever it gave. -/
theorem resolve_settles (src : TokenSource) (c : TokenCache) :
    Settled src (resolveInternalServiceToken src c).1 (resolveInternalServiceToken src c).2 := by
  unfold Settled resolveInternalServiceToken
  by_cases henv : src.INTERNAL_SERVICE_TOKEN = []
  · rw [if_neg (not_not_intro henv), if_neg (not_not_intro henv)]
    cases hcached : c.cachedToken with
    | some token =>
      dsimp only
      rw [hcached]
    | none => rfl
  · rw [if_pos henv, if_pos henv]

theorem Settled.lingoCoreClient {src : TokenSource} {token : PyStr} {c : TokenCache}
    (h : Settled src token c) : lingoCoreClient src c = (bearer token, c) := by
  rw [Http.lingoCoreClient, h]

/-- SSM is asked if the setting is empty, and once. -/
theorem resolve_lookups (src : TokenSource) :
    (resolveInternalServiceToken src .init).2.lookups =
      if src.INTERNAL_SERVICE_TOKEN = [] then 1 else 0 := by
  unfold resolveInternalServiceToken
  by_cases henv : src.INTERNAL_SERVICE_TOKEN = []
  · rw [if_neg (not_not_intro henv), if_pos henv]
    show (fetchFromSsm src .init).2.lookups = 1
    unfold fetchFromSsm
    split <;> rfl
  · rw [if_pos henv, if_neg henv]
    rfl

/-! ## The network, to a client with a token -/

/-- The network as it answers a client with a header. -/
structure AuthNet (F T : Type) where
  send : (authorization : PyStr) → Nat → Except PyExc (Response F)
  clock : Nat → T

/-- The network, to clients with the header. -/
def AuthNet.carrying (net : AuthNet F T) (authorization : PyStr) : Net F T where
  send := net.send authorization
  clock := net.clock

/-- `LingoCoreClient.verify_internal_token`: a request past the breaker, and no second one. -/
def verifyInternalToken (net : Net F T) (s : ClientState T) : Except PyExc Unit × ClientState T :=
  ((exchange net s.sent).map fun _ => (),
    { (s.note (.send s.breaker.state)).note .close with sent := s.sent + 1 })

/-! ## The cold-start probe -/

/-- `isinstance(exc, httpx.HTTPError)`. -/
def isHTTPError : PyExc → Bool
  | .HTTPStatusError _ => true
  | .TransportError => true
  | .other name => name ∈ [py "HTTPError", py "RequestError", py "DecodingError",
      py "TooManyRedirects"]
  | _ => false

/-- The line the probe logs. -/
inductive SelfCheck where
  | unresolved
  | ok
  | mismatch (code : Nat)
  | unexpectedStatus (code : Nat)
  | unreachable
  deriving DecidableEq

/-- What is logged of the probe: its success, what `except httpx.HTTPStatusError` logs, and what
`except httpx.HTTPError` does. -/
def selfCheck : Except PyExc Unit → Except PyExc SelfCheck
  | .ok () => .ok .ok
  | .error (.HTTPStatusError code) =>
    if code ∈ [401, 403] then .ok (.mismatch code) else .ok (.unexpectedStatus code)
  | .error exc => if isHTTPError exc then .ok .unreachable else .error exc

/-- `_verify_internal_token_on_boot`. -/
def verifyInternalTokenOnBoot (src : TokenSource) (net : AuthNet F T) (c : TokenCache)
    (s : ClientState T) : Except PyExc SelfCheck × TokenCache × ClientState T :=
  let resolved := resolveInternalServiceToken src c
  if resolved.1 = [] then (.ok .unresolved, resolved.2, s)
  else
    let client := lingoCoreClient src resolved.2
    let probe := verifyInternalToken (net.carrying client.1) s
    (selfCheck probe.1, client.2, probe.2)

/-- The network to the clients of this process. -/
def AuthNet.resolved (net : AuthNet F T) (src : TokenSource) (c : TokenCache) : Net F T :=
  net.carrying (bearer (resolveInternalServiceToken src c).1)

/-- Of the exceptions, those that are no `httpx.HTTPError` are raised. -/
theorem selfCheck_raises (e exc : PyExc) :
    selfCheck (.error e) = .error exc ↔ e = exc ∧ isHTTPError exc = false := by
  constructor
  · intro he
    unfold selfCheck at he
    split at he
    · cases he
    · split at he <;> cases he
    · next exc' _ hexc =>
      cases hexc
      split at he
      · cases he
      · next hno =>
        cases he
        exact ⟨rfl, Bool.not_eq_true _ ▸ hno⟩
  · intro he
    obtain ⟨rfl, hno⟩ := he
    unfold selfCheck
    split
    · next h => cases h
    · next h =>
      cases h
      cases hno
    · next h =>
      cases h
      rw [if_neg (by rw [hno]; exact Bool.false_ne_true)]

section Boot

variable (src : TokenSource) (net : AuthNet F T) (c : TokenCache) (s : ClientState T)

/-- Without a token nothing is sent. -/
theorem boot_unresolved (h : (resolveInternalServiceToken src c).1 = []) :
    verifyInternalTokenOnBoot src net c s =
      (.ok .unresolved, (resolveInternalServiceToken src c).2, s) := by
  rw [verifyInternalTokenOnBoot, if_pos h]

/-- With one, the line says how the one request ended. -/
theorem boot_probed (h : (resolveInternalServiceToken src c).1 ≠ []) :
    verifyInternalTokenOnBoot src net c s =
      (selfCheck (verifyInternalToken (net.resolved src c) s).1,
        (resolveInternalServiceToken src c).2, (verifyInternalToken (net.resolved src c) s).2) := by
  have hclient := (resolve_settles src c).lingoCoreClient
  rw [verifyInternalTokenOnBoot, if_neg h, hclient]
  rfl

/-- Either way the token is settled, and the breaker has heard nothing. -/
theorem boot_leaves :
    (verifyInternalTokenOnBoot src net c s).2.1 = (resolveInternalServiceToken src c).2 ∧
      (verifyInternalTokenOnBoot src net c s).2.2.breaker = s.breaker := by
  by_cases h : (resolveInternalServiceToken src c).1 = []
  · rw [boot_unresolved src net c s h]
    exact ⟨rfl, rfl⟩
  · rw [boot_probed src net c s h]
    exact ⟨rfl, rfl⟩

/-- The probe raises what its request raised, if that is no `httpx.HTTPError`. -/
theorem boot_raises_iff (exc : PyExc) :
    (verifyInternalTokenOnBoot src net c s).1 = .error exc ↔
      (resolveInternalServiceToken src c).1 ≠ [] ∧
        exchange (net.resolved src c) s.sent = .error exc ∧ isHTTPError exc = false := by
  by_cases h : (resolveInternalServiceToken src c).1 = []
  · rw [boot_unresolved src net c s h]
    exact iff_of_false (by simp) fun hraised => hraised.1 h
  · rw [boot_probed src net c s h, verifyInternalToken]
    cases exchange (net.resolved src c) s.sent with
    | ok resp => exact iff_of_false (by simp [selfCheck, Except.map]) (by simp)
    | error e =>
      show selfCheck (.error e) = .error exc ↔ _
      rw [selfCheck_raises]
      simp [h]

end Boot

/-! ## A token that core does not accept -/

/-- Core answers every request with 401 or 403. -/
def Rejects (net : Net F T) : Prop :=
  ∀ n, ∃ resp, net.send n = .ok resp ∧ resp.statusCode ∈ [401, 403]

theorem Rejects.exchange {net : Net F T} (h : Rejects net) (n : Nat) :
    ∃ code ∈ [401, 403], exchange net n = .error (.HTTPStatusError code) := by
  obtain ⟨resp, hsend, hcode⟩ := h n
  refine ⟨resp.statusCode, hcode, ?_⟩
  have hbad : ¬ (200 ≤ resp.statusCode ∧ resp.statusCode < 300) := by
    simp only [List.mem_cons, List.not_mem_nil, or_false] at hcode
    omega
  rw [Http.exchange, hsend]
  exact if_neg hbad

/-- A callback is a single request, and no news to the breaker. -/
theorem Rejects.request [Clock T] {net : Net F T} (h : Rejects net) (cfg : ClientSettings)
    (label : PyStr) {s : ClientState T} (hclosed : s.breaker.state = .CLOSED) :
    (∃ code ∈ [401, 403], (request cfg net label s).1 = .error (.HTTPStatusError code)) ∧
      (request cfg net label s).2.sent = s.sent + 1 ∧
      (request cfg net label s).2.breaker = s.breaker := by
  obtain ⟨code, hcode, hexchange⟩ := h.exchange s.sent
  have hallow : allow net s = (true, { s with ticks := s.ticks + 1 }) := by
    rw [allow, CircuitBreaker.allow_closed hclosed]
  have hfails : failsTransiently net s.sent = false := by
    rw [failsTransiently, hexchange]
    simp only [List.mem_cons, List.not_mem_nil, or_false] at hcode
    rcases hcode with rfl | rfl <;> rfl
  have hone : attemptsFrom net s.sent (maxAttempts cfg) = 1 := by
    rw [maxAttempts, Nat.add_comm, attemptsFrom_succ, hfails, if_neg Bool.false_ne_true]
  rw [request_eq_reference cfg net label s, reference, hallow, if_pos rfl, hone]
  refine ⟨⟨code, hcode, ?_⟩, rfl, ?_⟩
  · show outcome net s.sent = _
    rw [outcome, hexchange]
  · have hans : answered net (s.sent + (1 - 1)) = false := by
      show answered net s.sent = false
      rw [answered, hexchange]
      rfl
    show run CircuitBreaker.step s.breaker (recorded net s.sent (s.ticks + 1) 1) = s.breaker
    rw [recorded, failures_one net hfails, hans]
    rfl

end LingoAsync.Http
