import SupernoteTaskService.Auth.Gate
import SupernoteTaskService.Auth.Throttling
import SupernoteTaskService.Foundation.Noninterference
import SupernoteTaskService.Main

/-!
# Callers and strangers

A caller sends a valid key, a stranger does not.  Callers see and change the tables, strangers
the limiter, and neither sees anything of the other: the application is the two side by side.
Among the strangers, each address has a counter of its own.
-/

set_option autoImplicit false

namespace SupernoteTaskService

open Foundation

variable {K : Type} [CommRing K] [LinearOrder K] [FloorRing K] (sha256 : List ℕ → Text)
  (settings : AppSettings) (db : Database)

def HttpRequest.hasKey {K : Type} (request : HttpRequest K) : Bool :=
  (validateApiKey sha256 settings.toAccessSettings request.authorization request.xApiKey).isSome

def isCaller (step : Timed (HttpRequest K)) : Bool := step.event.hasKey sha256 settings

def isStranger (step : Timed (HttpRequest K)) : Bool := !isCaller sha256 settings step

def HttpRequest.addressKey {K : Type} (request : HttpRequest K) : Text :=
  "ip:".toList ++ clientIp request.client settings.trustProxyHeaders

def HttpRequest.isThrottled {K : Type} (request : HttpRequest K) : Bool :=
  !request.hasKey sha256 settings && (limitBody settings request).isNone &&
    request.target.isEndpoint

def refusalOf (result : RateLimitResult) : Refusal :=
  if result.allowed then unauthorized else rateLimited result.retryAfter

def refuse (result : RateLimitResult) : HttpReply :=
  finish (.ok (errorReply (refusalOf result).error [(refusalOf result).header]))

/-! ## What a request can do -/

theorem enforceRateLimit_stranger {request : HttpRequest K}
    (invalid : validateApiKey sha256 settings.toAccessSettings request.authorization
      request.xApiKey = none) (limiter : RateLimiter Text K) :
    enforceRateLimit sha256 settings.toAccessSettings request.client request.authorization
        request.xApiKey request.monotonic limiter =
      (.error (refusalOf (limiter.check (request.addressKey settings) request.monotonic).1),
        (limiter.check (request.addressKey settings) request.monotonic).2) := by
  rw [enforceRateLimit, invalid, refusalOf]
  by_cases allowed :
      (limiter.check (request.addressKey settings) request.monotonic).1.allowed = true
  · rw [if_pos allowed]
    exact if_pos allowed
  · rw [if_neg allowed]
    exact if_neg allowed

theorem callNext_aside {request : HttpRequest K} (aside : request.target.isEndpoint = false) (now : ℤ) :
    ∃ answer, ∀ service, callNext sha256 settings db service now request = (answer, service) := by
  cases targets : request.target with
  | endpoint call =>
      rw [targets] at aside
      cases aside
  | readyz reachable =>
      cases reachable with
      | true => exact ⟨_, fun service => by rw [callNext, targets]⟩
      | false => exact ⟨_, fun service => by rw [callNext, targets]⟩
  | _ => exact ⟨_, fun service => by rw [callNext, targets]⟩

theorem serve_cases (now : ℤ) (request : HttpRequest K) :
    (request.isThrottled sha256 settings = false ∧
      ∃ reply, ∀ service, serve sha256 settings db service now request = (reply, service)) ∨
    (request.hasKey sha256 settings = true ∧
      ∃ call : Store → HttpReply × Store, ∀ service,
        serve sha256 settings db service now request =
          ((call service.store).1, { service with store := (call service.store).2 })) ∨
    (request.isThrottled sha256 settings = true ∧ ∀ service,
      serve sha256 settings db service now request =
        (refuse (service.unauthRateLimiter.check (request.addressKey settings) request.monotonic).1,
          { service with unauthRateLimiter :=
            (service.unauthRateLimiter.check (request.addressKey settings) request.monotonic).2 })) := by
  cases limited : limitBody settings request with
  | some error =>
      refine Or.inl ⟨?_, errorReply error [], fun service => ?_⟩
      · simp only [HttpRequest.isThrottled, limited, Option.isNone_some, Bool.and_false,
          Bool.false_and]
      · rw [serve, limited]
  | none =>
      cases targets : request.target with
      | endpoint call =>
          cases keyed : validateApiKey sha256 settings.toAccessSettings request.authorization
              request.xApiKey with
          | some callerId =>
              refine Or.inr (Or.inl ⟨by rw [HttpRequest.hasKey, keyed, Option.isSome_some],
                fun store => (finish (answerCall settings db store now call).1,
                  (answerCall settings db store now call).2), fun service => ?_⟩)
              rw [serve, limited]
              simp only [callNext, targets, callEndpoint, enforceRateLimit, keyed]
          | none =>
              have throttled : request.isThrottled sha256 settings = true := by
                simp only [HttpRequest.isThrottled, HttpRequest.hasKey, keyed, limited, targets,
                  Target.isEndpoint, Option.isSome_none, Option.isNone_none, Bool.not_false,
                  Bool.and_self]
              refine Or.inr (Or.inr ⟨throttled, fun service => ?_⟩)
              rw [serve, limited]
              simp only [callNext, targets, callEndpoint, refuse,
                enforceRateLimit_stranger sha256 settings keyed]
      | _ =>
          have aside : request.target.isEndpoint = false := by
            rw [targets]
            rfl
          obtain ⟨answer, answers⟩ := callNext_aside sha256 settings db aside now
          refine Or.inl ⟨?_, _, fun service => by rw [serve, limited, answers]⟩
          simp only [HttpRequest.isThrottled, aside, Bool.and_false]

/-! ## Two parties -/

theorem callers_isolated : Isolates (serviceStep sha256 settings db) (serviceReply sha256 settings db)
    (isCaller (K := K) sha256 settings) Service.store where
  respects := by
    intro service step stranger
    rw [serviceStep]
    rcases serve_cases sha256 settings db step.clock step.event with
      ⟨-, reply, aside⟩ | ⟨keyed, -⟩ | ⟨-, refused⟩
    · rw [aside]
    · rw [isCaller, keyed] at stranger
      cases stranger
    · rw [refused]
  consistent := by
    intro service service' step caller same
    rw [serviceStep, serviceStep, serviceReply, serviceReply]
    rcases serve_cases sha256 settings db step.clock step.event with
      ⟨-, reply, aside⟩ | ⟨-, call, called⟩ | ⟨throttled, -⟩
    · rw [aside, aside]
      exact ⟨same, rfl⟩
    · rw [called, called, same]
      exact ⟨rfl, rfl⟩
    · rw [isCaller] at caller
      rw [HttpRequest.isThrottled, caller] at throttled
      cases throttled

theorem strangers_isolated : Isolates (serviceStep sha256 settings db) (serviceReply sha256 settings db)
    (isStranger (K := K) sha256 settings) Service.unauthRateLimiter where
  respects := by
    intro service step caller
    rw [isStranger, isCaller, Bool.not_eq_false'] at caller
    rw [serviceStep]
    rcases serve_cases sha256 settings db step.clock step.event with
      ⟨-, reply, aside⟩ | ⟨-, call, called⟩ | ⟨throttled, -⟩
    · rw [aside]
    · rw [called]
    · rw [HttpRequest.isThrottled, caller] at throttled
      cases throttled
  consistent := by
    intro service service' step stranger same
    rw [serviceStep, serviceStep, serviceReply, serviceReply]
    rcases serve_cases sha256 settings db step.clock step.event with
      ⟨-, reply, aside⟩ | ⟨keyed, -⟩ | ⟨-, refused⟩
    · rw [aside, aside]
      exact ⟨same, rfl⟩
    · rw [isStranger, isCaller, keyed] at stranger
      cases stranger
    · rw [refused, refused, same]
      exact ⟨rfl, rfl⟩

/-- Callers and strangers do not see each other: without the requests of strangers, and whatever
the limiter holds, a run leaves the same tables and answers the callers alike; without those of
callers, and whatever the tables hold, it leaves the same limiter and answers the strangers
alike. -/
theorem callers_and_strangers_apart (run : List (Timed (HttpRequest K))) (service : Service K)
    (otherLimiter : RateLimiter Text K) (otherStore : Store) :
    let step := serviceStep sha256 settings db
    let toCallers := seen (serviceReply (K := K) sha256 settings db) (isCaller sha256 settings)
    let toStrangers := seen (serviceReply (K := K) sha256 settings db) (isStranger sha256 settings)
    let callers := run.filter (isCaller sha256 settings)
    let strangers := run.filter (isStranger sha256 settings)
    ((run.foldl step service).store =
          (callers.foldl step ⟨service.store, otherLimiter⟩).store ∧
        outputs step toCallers service run =
          outputs step toCallers ⟨service.store, otherLimiter⟩ callers) ∧
      (run.foldl step service).unauthRateLimiter =
          (strangers.foldl step ⟨otherStore, service.unauthRateLimiter⟩).unauthRateLimiter ∧
        outputs step toStrangers service run =
          outputs step toStrangers ⟨otherStore, service.unauthRateLimiter⟩ strangers :=
  ⟨(callers_isolated sha256 settings db).purge run service ⟨service.store, otherLimiter⟩ rfl,
    (strangers_isolated sha256 settings db).purge run service
      ⟨otherStore, service.unauthRateLimiter⟩ rfl⟩

/-! ## Among strangers -/

def isThrottledAt (key : Text) (step : Timed (HttpRequest K)) : Bool :=
  step.event.isThrottled sha256 settings && decide (step.event.addressKey settings = key)

def checksOf (run : List (Timed (HttpRequest K))) : List (Check Text K) :=
  (run.filter fun step => step.event.isThrottled sha256 settings).map fun step =>
    ⟨step.event.addressKey settings, step.event.monotonic⟩

def observedAddress (forwarded : Text) : Text :=
  (forwarded.splitOn ',').getLast (List.splitOn_ne_nil ',' forwarded)

/-- The client sends something else in front of the address that the proxy observes. -/
def ClientRequest.spoofed (front : Text) (client : ClientRequest) : ClientRequest :=
  match client.forwardedFor with
  | some (c :: forwarded) =>
      { client with forwardedFor := some (front ++ ',' :: observedAddress (c :: forwarded)) }
  | _ => client

def spoofed (front : Timed (HttpRequest K) → Text) (step : Timed (HttpRequest K)) :
    Timed (HttpRequest K) :=
  ⟨step.clock, { step.event with client := step.event.client.spoofed (front step) }⟩

theorem comma_not_mem_observedAddress (forwarded : Text) : ',' ∉ observedAddress forwarded :=
  (mem_splitOn_iff.mp (List.getLast_mem (List.splitOn_ne_nil ',' forwarded))).1

theorem observedAddress_append {observed : Text} (single : ',' ∉ observed) (front : Text) :
    observedAddress (front ++ ',' :: observed) = observed := by
  have parts : (front ++ ',' :: observed).splitOn ',' = front.splitOn ',' ++ [observed] := by
    rw [List.splitOn_append_cons_self, List.splitOn_eq_singleton single]
  simp only [observedAddress, parts, List.getLast_append_singleton]

theorem clientIp_forwarded (front rest : Text) (clientHost : Option Text) :
    clientIp ⟨some (front ++ ',' :: rest), clientHost⟩ true =
      strip (observedAddress (front ++ ',' :: rest)) := by
  cases front with
  | nil => rfl
  | cons c front => rfl

theorem clientIp_spoofed (front : Text) (client : ClientRequest) (trustProxy : Bool) :
    clientIp (client.spoofed front) trustProxy = clientIp client trustProxy := by
  obtain ⟨forwardedFor, clientHost⟩ := client
  cases forwardedFor with
  | none => rfl
  | some forwarded =>
      cases forwarded with
      | nil => rfl
      | cons c forwarded =>
          cases trustProxy with
          | false => rfl
          | true =>
              exact (clientIp_forwarded front _ clientHost).trans (congrArg strip
                (observedAddress_append (comma_not_mem_observedAddress (c :: forwarded)) front))

theorem serve_spoofed (front : Text) (service : Service K) (now : ℤ) (request : HttpRequest K) :
    serve sha256 settings db service now { request with client := request.client.spoofed front } =
      serve sha256 settings db service now request := by
  have gate : ∀ limiter : RateLimiter Text K,
      enforceRateLimit sha256 settings.toAccessSettings (request.client.spoofed front)
          request.authorization request.xApiKey request.monotonic limiter =
        enforceRateLimit sha256 settings.toAccessSettings request.client request.authorization
          request.xApiKey request.monotonic limiter := by
    intro limiter
    rw [enforceRateLimit, clientIp_spoofed]
    rfl
  simp only [serve, limitBody, callNext, callEndpoint, gate]

theorem run_spoofed (front : Timed (HttpRequest K) → Text) (run : List (Timed (HttpRequest K))) :
    ∀ service : Service K,
      (run.map (spoofed front)).foldl (serviceStep sha256 settings db) service =
          run.foldl (serviceStep sha256 settings db) service ∧
        outputs (serviceStep sha256 settings db) (serviceReply sha256 settings db) service
            (run.map (spoofed front)) =
          outputs (serviceStep sha256 settings db) (serviceReply sha256 settings db) service run := by
  induction run with
  | nil => exact fun _ => ⟨rfl, rfl⟩
  | cons step run ih =>
      intro service
      have served := serve_spoofed sha256 settings db (front step) service step.clock step.event
      have stepped : serviceStep sha256 settings db service (spoofed front step) =
          serviceStep sha256 settings db service step := congrArg Prod.snd served
      have replied : serviceReply sha256 settings db service (spoofed front step) =
          serviceReply sha256 settings db service step :=
        congrArg (some ∘ Prod.fst) served
      obtain ⟨final, later⟩ := ih (serviceStep sha256 settings db service step)
      rw [List.map_cons, List.foldl_cons, List.foldl_cons, outputs, outputs, stepped, replied, later]
      exact ⟨final, rfl⟩

omit [CommRing K] [LinearOrder K] [FloorRing K] in
theorem checksOf_cons_idle {step : Timed (HttpRequest K)}
    (idle : step.event.isThrottled sha256 settings = false) (run : List (Timed (HttpRequest K))) :
    checksOf sha256 settings (step :: run) = checksOf sha256 settings run := by
  rw [checksOf, List.filter_cons_of_neg (by rw [idle]; exact Bool.false_ne_true), checksOf]

omit [CommRing K] [LinearOrder K] [FloorRing K] in
theorem checksOf_cons_throttled {step : Timed (HttpRequest K)}
    (throttled : step.event.isThrottled sha256 settings = true)
    (run : List (Timed (HttpRequest K))) :
    checksOf sha256 settings (step :: run) =
      ⟨step.event.addressKey settings, step.event.monotonic⟩ :: checksOf sha256 settings run := by
  rw [checksOf, List.filter_cons_of_pos (by exact throttled), List.map_cons, checksOf]

theorem outputs_throttledAt (key : Text) (run : List (Timed (HttpRequest K))) :
    ∀ service : Service K, outputs (serviceStep sha256 settings db)
        (seen (serviceReply sha256 settings db) (isThrottledAt sha256 settings key)) service run =
      (RateLimiter.resultsOn RateLimiter.check key service.unauthRateLimiter
        (checksOf sha256 settings run)).map refuse := by
  induction run with
  | nil => exact fun _ => rfl
  | cons step run ih =>
      intro service
      rw [outputs, ih, seen, isThrottledAt, serviceReply, serviceStep]
      rcases serve_cases sha256 settings db step.clock step.event with
        ⟨idle, reply, aside⟩ | ⟨keyed, call, called⟩ | ⟨throttled, refused⟩
      · rw [aside, idle, checksOf_cons_idle sha256 settings idle]
        rfl
      · have idle : step.event.isThrottled sha256 settings = false := by
          rw [HttpRequest.isThrottled, keyed]
          rfl
        rw [called, idle, checksOf_cons_idle sha256 settings idle]
        rfl
      · rw [refused, throttled, checksOf_cons_throttled sha256 settings throttled, Bool.true_and,
          RateLimiter.resultsOn, RateLimiter.resultsOn, outputs, List.map_append]
        by_cases onKey : step.event.addressKey settings = key
        · rw [if_pos (decide_eq_true onKey), if_pos onKey]
          rfl
        · rw [if_neg (by rw [decide_eq_false onKey]; exact Bool.false_ne_true), if_neg onKey]
          rfl

/-- Nothing that clients send in front of the address that the proxy observed changes anything, and
what the strangers of one address are answered is decided by the times of their own requests:
it is the same in any two runs of the application that agree on these, whatever else happens in
them and whatever the tables hold. -/
theorem address_decides_replies (front : Timed (HttpRequest K) → Text) (key : Text)
    (service : Service K) (store store' : Store) (run run' : List (Timed (HttpRequest K)))
    (monotone : RateLimiter.Nondecreasing (checksOf sha256 settings run))
    (monotone' : RateLimiter.Nondecreasing (checksOf sha256 settings run'))
    (same : RateLimiter.timesOf key (checksOf sha256 settings run) =
      RateLimiter.timesOf key (checksOf sha256 settings run')) :
    let step := serviceStep sha256 settings db
    let reply := serviceReply (K := K) sha256 settings db
    let toAddress := seen reply (isThrottledAt sha256 settings key)
    ((run.map (spoofed front)).foldl step service = run.foldl step service ∧
        outputs step reply service (run.map (spoofed front)) = outputs step reply service run) ∧
      outputs step toAddress ⟨store, unauthRateLimiter settings.toAccessSettings⟩ run =
        outputs step toAddress ⟨store', unauthRateLimiter settings.toAccessSettings⟩ run' := by
  refine ⟨run_spoofed sha256 settings db front run service, ?_⟩
  rw [outputs_throttledAt, outputs_throttledAt]
  refine congrArg (List.map refuse) ?_
  refine (RateLimiter.resultsOn_eq RateLimiter.evictExpired_dropsExpired _ _ key monotone).trans ?_
  rw [same]
  exact (RateLimiter.resultsOn_eq RateLimiter.evictExpired_dropsExpired _ _ key monotone').symm

def strangerAt (forwardedFor : String) (monotonic : ℚ) : Timed (HttpRequest ℚ) :=
  ⟨1700000000000, "GET".toList, none, none, none, none, ⟨some forwardedFor.toList, none⟩, monotonic,
    .endpoint (.ok (.getTask "a".toList))⟩

theorem strangerAt_decides_replies :
    let settings : AppSettings := {}
    let run := [strangerAt "10.0.0.2" 0, strangerAt "1.2.3.4, 10.0.0.1" 1]
    let run' := [strangerAt "10.0.0.1" 1]
    let step := serviceStep (fun _ => []) settings singleUser
    let reply := serviceReply (K := ℚ) (fun _ => []) settings singleUser
    let toAddress := seen reply (isThrottledAt (fun _ => []) settings "ip:10.0.0.1".toList)
    let service : Service ℚ := ⟨Store.empty, unauthRateLimiter settings.toAccessSettings⟩
    ((run.map (spoofed fun _ => [])).foldl step service = run.foldl step service ∧
        outputs step reply service (run.map (spoofed fun _ => [])) = outputs step reply service run) ∧
      outputs step toAddress service run = outputs step toAddress service run' :=
  address_decides_replies (fun _ => []) {} singleUser (fun _ => []) "ip:10.0.0.1".toList
    ⟨Store.empty, unauthRateLimiter ({} : AppSettings).toAccessSettings⟩ Store.empty Store.empty
    [strangerAt "10.0.0.2" 0, strangerAt "1.2.3.4, 10.0.0.1" 1] [strangerAt "10.0.0.1" 1]
    (by unfold RateLimiter.Nondecreasing; decide) (by unfold RateLimiter.Nondecreasing; decide)
    (by decide)

end SupernoteTaskService
