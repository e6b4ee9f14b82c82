import Facade.AppConfig
import Facade.CacheInterface
import Facade.Company
import Facade.Query

/-!
`Backendify::processCompanyRequest` of src/core/Backendify.cpp, with the handler
of the backend call that it makes, and `CircuitBreaker` of
src/core/CircuitBreaker.cpp. The cache and the JSON library are parameters.
What the function does at once is `processCompanyRequest`, which answers or
starts a call; what the handler does later is `on_backend_complete`, in which
an exception is not caught.

`answered_once_iff` says when a request is answered, whatever the backend does.
-/
namespace Facade
open Strings Http Query

/-- The readings of a handler: both clocks, in nanoseconds, and the bytes that
    its calls of `isUTCTimeInFuture` find uninitialised. -/
structure Moment where
  steady : Int
  system : Int
  suffix : Nat → UInt8

structure CircuitBreaker where
  tripped_backends : OrderedMap Bytes Int

namespace CircuitBreaker

def isTripped (b : CircuitBreaker) (backendUrl : Bytes) (now : Int) : Bool :=
  match b.tripped_backends.find backendUrl with
  | some cooldown => cooldown > now
  | none => false

/-- The cool-down is given in milliseconds. -/
def trip (b : CircuitBreaker) (backendUrl : Bytes) (coolDownDuration now : Int) : CircuitBreaker :=
  ⟨b.tripped_backends.assign backendUrl (now + coolDownDuration * 1000000)⟩

end CircuitBreaker

namespace Backendify

/-- The parameters of a request. -/
def idOf (req : Request) : Bytes := param (lit "id") (parseQuery (queryOf req.target))
def countryOf (req : Request) : Bytes :=
  (param (lit "country_iso") (parseQuery (queryOf req.target))).map toUpper

/-- `id + ":" + country_iso`. -/
def cacheKey (id country_iso : Bytes) : Bytes := id ++ 58 :: country_iso

/-- The body that reports an error. -/
def errorBody (text : Bytes) : Bytes := lit "\x7b\"error\": \"" ++ text ++ lit "\"\x7d"

/-- The response prepared for a request. -/
def prepared (req : Request) : Response :=
  { version := req.version, result := 200, keep_alive := req.keep_alive, server := true,
    content_type := some (lit "application/json"), body := [] }

def reply (res : Response) (result : Nat) (body : Bytes) : Response := { res with result := result, body := body }

@[simp] theorem reply_result (res : Response) (result : Nat) (body : Bytes) : (reply res result body).result = result :=
  rfl

@[simp] theorem reply_body (res : Response) (result : Nat) (body : Bytes) : (reply res result body).body = body := rfl

/-- What is left of the prepared response once the handler has captured it. -/
def movedOut (res : Response) : Response :=
  { res with keep_alive := decide (11 ≤ res.version), server := false, content_type := none, body := [] }

/-- The response of `checkCacheAndRespond`. -/
def cachedResponse (body : Bytes) : Response :=
  { version := 11, result := 200, keep_alive := true, server := true,
    content_type := some (lit "application/json"), body := body }

/-- The SLA is missed: the whole microseconds since the request was received
    are more than the slack. -/
def slaMissed (config : AppConfig) (request_received_time now : Int) : Bool :=
  (now - request_received_time).tdiv 1000 > config.slack

/-- What the handler of a backend call has captured, and the backend called. -/
structure BackendCall where
  beast_res_cb : Response
  cache_key : Bytes
  id : Bytes
  backend : BackendUrlInfo
deriving DecidableEq,Repr

/-- What `processCompanyRequest` does: it calls back with a response or with
    nothing, or it starts a backend call. -/
inductive Outcome
  | answered (opt_res : Option Response)
  | calling (call : BackendCall)
deriving DecidableEq,Repr

section
variable (cache : CacheInterface) (config : AppConfig)

/-- What follows the check of the cache. `starts` tells whether `callBackendApi`
    starts the call or throws. -/
def routeRequest (breaker : CircuitBreaker) (starts : Bool) (req : Request) (request_received_time now : Int) :
    Outcome :=
  let beast_res := prepared req
  let id := idOf req
  let country_iso := countryOf req
  if slaMissed config request_received_time now then
    if config.drop_sla_timeout_requests then .answered none
    else .answered (some (reply beast_res 504 (errorBody (lit "Gateway Timeout - SLA Exceeded"))))
  else
    match config.country_backend_map.find country_iso with
    | none => .answered (some (reply beast_res 404 (errorBody (lit "Unconfigured country_iso"))))
    | some backend =>
      if breaker.isTripped backend.url now then
        .answered (some (reply beast_res 504 (errorBody (lit "Gateway Timeout - Circuit Breaker Active"))))
      else if starts then .calling ⟨beast_res,cacheKey id country_iso,id,backend⟩
      else .answered (some (reply (movedOut beast_res) 500 (errorBody (lit "Internal Server Error"))))

def processCompanyRequest (store : cache.Store) (breaker : CircuitBreaker) (starts : Bool) (req : Request)
    (request_received_time : Int) (m : Moment) : Outcome × cache.Store :=
  let id := idOf req
  let country_iso := countryOf req
  if id = [] ∨ country_iso = [] then
    (.answered (some (reply (prepared req) 400 (errorBody (lit "Missing required parameters")))),store)
  else
    match cache.get store (cacheKey id country_iso) m.steady with
    | (some body,store) => (.answered (some (cachedResponse body)),store)
    | (none,store) => (routeRequest config breaker starts req request_received_time m.steady,store)

/-- `handleBackendServerErrorResponse`. -/
def handleBackendServerErrorResponse (backendUrl : Bytes) (now : Int) (breaker : CircuitBreaker) : CircuitBreaker :=
  breaker.trip backendUrl config.backend_servers_circuit_breaker_cool_off_duration_in_millis.toInt now

/-- What escapes a handler: what `isUTCTimeInFuture` or `dump` throws. -/
inductive Exception
  | runtime_error (what : Bytes)
  | json_type_error
deriving DecidableEq,Repr

variable (library : JsonLibrary)

/-- The body for a reply with status 200, or the exception; `none` when the
    reply does not parse. -/
def buildBody (id : Bytes) (res : Response) (m : Moment) : Option (Except Exception Bytes) :=
  let company_info := CompanyInfo.parseBackendResponse library res { id := id }
  if company_info.parse_success then
    match company_info.constructJson m.suffix m.system with
    | .error what => some (.error (.runtime_error what))
    | .ok final_json_obj =>
      match library.dump final_json_obj with
      | none => some (.error .json_type_error)
      | some final_json_string => some (.ok final_json_string)
  else none

/-- Whether the handler takes the call as failed. -/
def failed (ec : Option ErrorCode) : Bool := ec ≠ none && ec ≠ some .end_of_stream

/-- The completion handler of the backend call: the response it calls back with,
    or the exception that leaves it. -/
def on_backend_complete (call : BackendCall) (res : Response) (ec : Option ErrorCode) (m : Moment)
    (store : cache.Store) (breaker : CircuitBreaker) :
    Except Exception Response × cache.Store × CircuitBreaker :=
  let respond := reply call.beast_res_cb
  if failed ec then
    let breaker :=
      if ec = some .connection_refused ∨ ec = some .timed_out then
        handleBackendServerErrorResponse config call.backend.url m.steady breaker
      else breaker
    (.ok (respond 504 (errorBody (lit "Gateway Timeout - Backend Unreachable"))),store,breaker)
  else if res.result = 200 then
    match buildBody library call.id res m with
    | some (.ok body) => (.ok (respond 200 body),cache.set store call.cache_key body (3600 * 24) m.steady,breaker)
    | some (.error e) => (.error e,store,breaker)
    | none =>
      (.ok (respond 502 (errorBody (lit "Bad Gateway - Upstream Response Parse Error"))),store,breaker)
  else if res.result = 404 then (.ok (respond 404 (errorBody (lit "Not Found from backend"))),store,breaker)
  else if 500 ≤ res.result ∧ res.result < 600 then
    (.ok (respond 502 (errorBody (lit "Bad Gateway - Upstream Server Error"))),store,
      handleBackendServerErrorResponse config call.backend.url m.steady breaker)
  else (.ok (respond 502 (errorBody (lit "Bad Gateway - Unknown Upstream Status"))),store,breaker)

/-! ### One request -/

/-- The calls of `send_response_cb` for a request, and what left the handler. -/
structure Exchange where
  sent : List (Option Response)
  escaped : Option Exception
deriving DecidableEq,Repr

/-- A request and, when it calls the backend, the completion of that call with
    `res` and `ec`; the cache and the breaker may have changed in between. -/
def exchange (store : cache.Store) (breaker : CircuitBreaker) (starts : Bool) (req : Request)
    (request_received_time : Int) (m : Moment) (res : Response) (ec : Option ErrorCode) (m' : Moment)
    (store' : cache.Store) (breaker' : CircuitBreaker) : Exchange :=
  match (processCompanyRequest cache config store breaker starts req request_received_time m).1 with
  | .answered opt_res => ⟨[opt_res],none⟩
  | .calling call =>
    match (on_backend_complete cache config library call res ec m' store' breaker').1 with
    | .ok r => ⟨[some r],none⟩
    | .error e => ⟨[],some e⟩

/-- The request has both parameters and is not in the cache, it is in time, its
    country is configured and the breaker lets it through to the backend. -/
structure Reaches (store : cache.Store) (breaker : CircuitBreaker) (req : Request) (request_received_time : Int)
    (m : Moment) (backend : BackendUrlInfo) : Prop where
  id : idOf req ≠ []
  country : countryOf req ≠ []
  missed : (cache.get store (cacheKey (idOf req) (countryOf req)) m.steady).1 = none
  inTime : slaMissed config request_received_time m.steady = false
  configured : config.country_backend_map.find (countryOf req) = some backend
  untripped : breaker.isTripped backend.url m.steady = false

end

variable {cache : CacheInterface} {config : AppConfig} {library : JsonLibrary}

section
variable (cache config)

/-- The request has both parameters, and its key is not in the cache. -/
structure Uncached (store : cache.Store) (req : Request) (m : Moment) : Prop where
  id : idOf req ≠ []
  country : countryOf req ≠ []
  missed : (cache.get store (cacheKey (idOf req) (countryOf req)) m.steady).1 = none

/-- Everything `processCompanyRequest` can do, with the guards on the way to it. -/
inductive Handled (store : cache.Store) (breaker : CircuitBreaker) (starts : Bool) (req : Request)
    (request_received_time : Int) (m : Moment) : Outcome → Prop
  | incomplete : idOf req = [] ∨ countryOf req = [] →
      Handled store breaker starts req request_received_time m
        (.answered (some (reply (prepared req) 400 (errorBody (lit "Missing required parameters")))))
  | cached (body : Bytes) : idOf req ≠ [] → countryOf req ≠ [] →
      (cache.get store (cacheKey (idOf req) (countryOf req)) m.steady).1 = some body →
      Handled store breaker starts req request_received_time m (.answered (some (cachedResponse body)))
  | dropped : Uncached cache store req m → slaMissed config request_received_time m.steady = true →
      config.drop_sla_timeout_requests = true → Handled store breaker starts req request_received_time m (.answered none)
  | late : Uncached cache store req m → slaMissed config request_received_time m.steady = true →
      config.drop_sla_timeout_requests = false → Handled store breaker starts req request_received_time m
        (.answered (some (reply (prepared req) 504 (errorBody (lit "Gateway Timeout - SLA Exceeded")))))
  | unconfigured : Uncached cache store req m → slaMissed config request_received_time m.steady = false →
      config.country_backend_map.find (countryOf req) = none → Handled store breaker starts req request_received_time m
        (.answered (some (reply (prepared req) 404 (errorBody (lit "Unconfigured country_iso")))))
  | tripped (backend : BackendUrlInfo) : Uncached cache store req m →
      slaMissed config request_received_time m.steady = false →
      config.country_backend_map.find (countryOf req) = some backend →
      breaker.isTripped backend.url m.steady = true → Handled store breaker starts req request_received_time m
        (.answered (some (reply (prepared req) 504 (errorBody (lit "Gateway Timeout - Circuit Breaker Active")))))
  | thrown (backend : BackendUrlInfo) : Reaches cache config store breaker req request_received_time m backend →
      starts = false → Handled store breaker starts req request_received_time m
        (.answered (some (reply (movedOut (prepared req)) 500 (errorBody (lit "Internal Server Error")))))
  | called (backend : BackendUrlInfo) : Reaches cache config store breaker req request_received_time m backend →
      starts = true → Handled store breaker starts req request_received_time m
        (.calling ⟨prepared req,cacheKey (idOf req) (countryOf req),idOf req,backend⟩)

end

theorem Reaches.uncached {store : cache.Store} {breaker : CircuitBreaker} {req : Request} {request_received_time : Int}
    {m : Moment} {backend : BackendUrlInfo}
    (reaches : Reaches cache config store breaker req request_received_time m backend) : Uncached cache store req m :=
  ⟨reaches.id,reaches.country,reaches.missed⟩

theorem processCompanyRequest_handled (config : AppConfig) (store : cache.Store) (breaker : CircuitBreaker)
    (starts : Bool) (req : Request) (request_received_time : Int) (m : Moment) :
    Handled cache config store breaker starts req request_received_time m
      (processCompanyRequest cache config store breaker starts req request_received_time m).1 := by
  unfold processCompanyRequest
  simp only
  split
  · rename_i missing
    exact .incomplete missing
  · rename_i present
    rw [not_or] at present
    cases got : cache.get store (cacheKey (idOf req) (countryOf req)) m.steady with
    | mk answer store' =>
      cases answer with
      | some body => exact .cached body present.1 present.2 (by rw [got])
      | none =>
        have uncached : Uncached cache store req m := ⟨present.1,present.2,by rw [got]⟩
        show Handled cache config store breaker starts req request_received_time m
          (routeRequest config breaker starts req request_received_time m.steady)
        unfold routeRequest
        simp only
        cases late : slaMissed config request_received_time m.steady with
        | true =>
          cases dropping : config.drop_sla_timeout_requests with
          | true => exact .dropped uncached late dropping
          | false => exact .late uncached late dropping
        | false =>
          cases configured : config.country_backend_map.find (countryOf req) with
          | none => exact .unconfigured uncached late configured
          | some backend =>
            cases tripped : breaker.isTripped backend.url m.steady with
            | true =>
              simp only [Bool.false_eq_true,↓reduceIte,tripped]
              exact .tripped backend uncached late configured tripped
            | false =>
              have reaches : Reaches cache config store breaker req request_received_time m backend :=
                ⟨present.1,present.2,uncached.missed,late,configured,tripped⟩
              simp only [Bool.false_eq_true,↓reduceIte,tripped]
              cases starts with
              | true => exact .called backend reaches rfl
              | false => exact .thrown backend reaches rfl

/-- A call is started exactly by a request that reaches the backend. -/
theorem calling_iff {store : cache.Store} {breaker : CircuitBreaker} {starts : Bool} {req : Request}
    {request_received_time : Int} {m : Moment} {call : BackendCall} :
    (processCompanyRequest cache config store breaker starts req request_received_time m).1 = .calling call ↔
      starts = true ∧ call.beast_res_cb = prepared req ∧ call.id = idOf req ∧
      call.cache_key = cacheKey (idOf req) (countryOf req) ∧
      Reaches cache config store breaker req request_received_time m call.backend := by
  have handled := processCompanyRequest_handled config store breaker starts req request_received_time m
  constructor
  · intro outcome
    rw [outcome] at handled
    cases handled with
    | called backend reaches started => exact ⟨started,rfl,rfl,rfl,reaches⟩
  · rintro ⟨started,res,id,key,reaches⟩
    obtain ⟨beast_res_cb,cache_key,call_id,backend⟩ := call
    simp only at res id key reaches
    subst res id key
    generalize (processCompanyRequest cache config store breaker starts req request_received_time m).1 = outcome at *
    cases handled with
    | incomplete missing => exact absurd missing (not_or.mpr ⟨reaches.id,reaches.country⟩)
    | cached body _ _ got => exact absurd (got.symm.trans reaches.missed) (by simp)
    | dropped _ late => exact absurd (late.symm.trans reaches.inTime) (by simp)
    | late _ late => exact absurd (late.symm.trans reaches.inTime) (by simp)
    | unconfigured _ _ absent => exact absurd (absent.symm.trans reaches.configured) (by simp)
    | tripped other _ _ configured tripped =>
      cases configured.symm.trans reaches.configured
      exact absurd (tripped.symm.trans reaches.untripped) (by simp)
    | thrown other _ throws => exact absurd (throws.symm.trans started) (by simp)
    | called other there =>
      cases there.configured.symm.trans reaches.configured
      rfl

/-- The cache is looked into when both parameters are there. -/
theorem processCompanyRequest_store (config : AppConfig) (store : cache.Store) (breaker : CircuitBreaker)
    (starts : Bool) (req : Request) (request_received_time : Int) (m : Moment) :
    (processCompanyRequest cache config store breaker starts req request_received_time m).2 =
      if idOf req = [] ∨ countryOf req = [] then store
      else (cache.get store (cacheKey (idOf req) (countryOf req)) m.steady).2 := by
  unfold processCompanyRequest
  simp only
  split
  · rfl
  · split
    · rename_i got
      rw [got]
    · rename_i got
      rw [got]

/-- What a body is built from: the object constructed for the parsed reply. -/
theorem buildBody_eq_ok {id body : Bytes} {res : Response} {m : Moment}
    (built : buildBody library id res m = some (.ok body)) :
    ∃ o, (CompanyInfo.parseBackendResponse library res { id := id }).parse_success = true ∧
      (CompanyInfo.parseBackendResponse library res { id := id }).constructJson m.suffix m.system = .ok o ∧
      library.dump o = some body := by
  unfold buildBody at built
  simp only at built
  split at built
  · rename_i parsed
    split at built
    · cases built
    · rename_i o constructed
      split at built
      · cases built
      · rename_i text wrote
        simp only [Option.some.injEq,Except.ok.injEq] at built
        subst built
        exact ⟨o,parsed,constructed,wrote⟩
  · cases built

/-- A body is built from a reply that parses exactly when the id is UTF-8 and
    the dates are accepted. -/
theorem buildBody_ok_iff {id : Bytes} {res : Response} {m : Moment}
    (parsed : (CompanyInfo.parseBackendResponse library res { id := id }).parse_success = true) :
    (∃ body, buildBody library id res m = some (.ok body)) ↔
      utf8Valid id = true ∧
      CompanyInfo.DatesAccepted m.suffix m.system (CompanyInfo.parseBackendResponse library res { id := id }) := by
  obtain ⟨sameId,clean,versioned⟩ := CompanyInfo.parseBackendResponse_spec library res id
  unfold buildBody
  simp only [parsed,↓reduceIte]
  generalize CompanyInfo.parseBackendResponse library res { id := id } = info at *
  have version := versioned parsed
  rw [← CompanyInfo.constructJson_isSome_iff m.suffix m.system version]
  cases constructed : info.constructJson m.suffix m.system with
  | error what => simp [Except.toOption]
  | ok o =>
    obtain ⟨active,rfl⟩ := CompanyInfo.constructJson_shape version constructed
    have written := library.dump_isSome _ (CompanyInfo.companyJson_plain info.id info.name active info.closing)
    rw [CompanyInfo.companyJson_valid,sameId] at written
    have known : utf8Valid info.name = true ∧ ∀ d, info.closing = some d → utf8Valid d = true :=
      ⟨clean.name,fun d found => clean.closing found⟩
    rw [and_iff_left known] at written
    simp only [sameId,Except.toOption,Option.isSome_some,and_true,← written]
    cases library.dump (CompanyInfo.companyJson id info.name active info.closing) <;> simp

/-- Something is built, or thrown, exactly for a reply that parses. -/
theorem buildBody_isSome (library : JsonLibrary) (id : Bytes) (res : Response) (m : Moment) :
    (buildBody library id res m).isSome =
      (CompanyInfo.parseBackendResponse library res { id := id }).parse_success := by
  unfold buildBody
  simp only
  split
  · rename_i parsed
    rw [parsed]
    split
    · rfl
    · split <;> rfl
  · rename_i unparsed
    simpa using unparsed

/-- The handler calls back unless a reply that parses has an id that is not
    UTF-8 or a date that is not accepted. -/
theorem on_backend_complete_ok_iff {call : BackendCall} {res : Response} {ec : Option ErrorCode} {m : Moment}
    {store : cache.Store} {breaker : CircuitBreaker} :
    (∃ r, (on_backend_complete cache config library call res ec m store breaker).1 = .ok r) ↔
      (failed ec = false → res.result = 200 →
        (CompanyInfo.parseBackendResponse library res { id := call.id }).parse_success = true →
        utf8Valid call.id = true ∧ CompanyInfo.DatesAccepted m.suffix m.system
          (CompanyInfo.parseBackendResponse library res { id := call.id })) := by
  unfold on_backend_complete
  by_cases broken : failed ec = true
  · simp [broken]
  · simp only [Bool.not_eq_true] at broken
    by_cases found : res.result = 200
    · simp only [broken,found,Bool.false_eq_true,↓reduceIte,forall_const]
      have built := buildBody_isSome library call.id res m
      by_cases parsed : (CompanyInfo.parseBackendResponse library res { id := call.id }).parse_success = true
      · rw [← buildBody_ok_iff parsed]
        rw [parsed] at built
        obtain ⟨result,built⟩ := Option.isSome_iff_exists.mp built
        simp only [parsed,forall_const,built]
        cases result <;> simp
      · simp only [Bool.not_eq_true] at parsed
        rw [parsed,Option.isSome_eq_false_iff,Option.isNone_iff_eq_none] at built
        simp [built,parsed]
    · simp only [broken,found,Bool.false_eq_true,↓reduceIte,false_implies,implies_true,iff_true]
      split
      · exact ⟨_,rfl⟩
      · split
        · exact ⟨_,rfl⟩
        · exact ⟨_,rfl⟩

/-- The handler answers with the response that was prepared, and with a 504 only
    when it could not reach the backend. -/
theorem on_backend_complete_reply {call : BackendCall} {res r : Response} {ec : Option ErrorCode} {m : Moment}
    {store : cache.Store} {breaker : CircuitBreaker}
    (answered : (on_backend_complete cache config library call res ec m store breaker).1 = .ok r) :
    ∃ result body, r = reply call.beast_res_cb result body ∧
      (result = 504 → body = errorBody (lit "Gateway Timeout - Backend Unreachable")) := by
  unfold on_backend_complete at answered
  simp only at answered
  split at answered
  · cases answered
    exact ⟨_,_,rfl,fun _ => rfl⟩
  · split at answered
    · split at answered
      · cases answered
        exact ⟨_,_,rfl,by simp⟩
      · cases answered
      · cases answered
        exact ⟨_,_,rfl,by simp⟩
    · split at answered
      · cases answered
        exact ⟨_,_,rfl,by simp⟩
      · split at answered
        · cases answered
          exact ⟨_,_,rfl,by simp⟩
        · cases answered
          exact ⟨_,_,rfl,by simp⟩

/-- The callback is called once for a request and nothing escapes. -/
def AnsweredOnce (e : Exchange) : Prop := e.sent.length = 1 ∧ e.escaped = none

/-- A request is answered exactly once, and no exception leaves the handler,
    unless it reaches a backend whose reply parses and the id is not UTF-8 or
    one of the dates of the reply is not accepted by `isUTCTimeInFuture`. -/
theorem answered_once_iff (cache : CacheInterface) (config : AppConfig) (library : JsonLibrary)
    (store store' : cache.Store) (breaker breaker' : CircuitBreaker) (starts : Bool) (req : Request)
    (request_received_time : Int) (m m' : Moment) (res : Response) (ec : Option ErrorCode) :
    AnsweredOnce (exchange cache config library store breaker starts req request_received_time m res ec m' store'
      breaker') ↔
    (∀ backend, Reaches cache config store breaker req request_received_time m backend → starts = true →
      failed ec = false → res.result = 200 →
      (CompanyInfo.parseBackendResponse library res { id := idOf req }).parse_success = true →
      utf8Valid (idOf req) = true ∧ CompanyInfo.DatesAccepted m'.suffix m'.system
        (CompanyInfo.parseBackendResponse library res { id := idOf req })) := by
  unfold exchange
  cases outcome : (processCompanyRequest cache config store breaker starts req request_received_time m).1 with
  | answered opt_res =>
    simp only [AnsweredOnce,List.length_cons,List.length_nil,and_true,true_iff]
    intro backend reaches started
    have calls : (processCompanyRequest cache config store breaker starts req request_received_time m).1 =
        .calling ⟨prepared req,cacheKey (idOf req) (countryOf req),idOf req,backend⟩ :=
      calling_iff.mpr ⟨started,rfl,rfl,rfl,reaches⟩
    rw [outcome] at calls
    cases calls
  | calling call =>
    obtain ⟨started,_,sameId,_,reaches⟩ := calling_iff.mp outcome
    have handler : (∃ r, (on_backend_complete cache config library call res ec m' store' breaker').1 = .ok r) ↔ _ :=
      on_backend_complete_ok_iff
    rw [sameId] at handler
    constructor
    · intro once backend _ _
      refine handler.mp ?_
      cases completed : (on_backend_complete cache config library call res ec m' store' breaker').1 with
      | ok r => exact ⟨r,rfl⟩
      | error e => simp [completed,AnsweredOnce] at once
    · intro fine
      obtain ⟨r,completed⟩ := handler.mpr (fine call.backend reaches started)
      simp [completed,AnsweredOnce]

/-! ### A reply with a date that is not accepted -/

/-- A configuration with one country. -/
def usConfig : AppConfig :=
  { country_backend_map := [(lit "US",⟨lit "http://us:9001",lit "us",9001,false⟩)] }

def companyRequest : Request := { Request.empty with target := lit "/company?id=1&country_iso=us" }

/-- The start of the epoch, with nothing on the stack. -/
def epoch : Moment := ⟨0,0,fun _ => 0⟩

/-- A V1 reply whose closing date is not a timestamp. -/
def vagueReply : Response :=
  { Response.empty with
    content_type := some (lit "application/x-company-v1")
    body := lit "\x7b\"cn\":\"A\",\"closed_on\":\"tomorrow\"\x7d" }

def vagueLibrary : JsonLibrary :=
  .tabled [(vagueReply.body,[(lit "closed_on",.string (lit "tomorrow")),(lit "cn",.string (lit "A"))])]

/-- The exception leaves the handler, and the callback is never called. -/
theorem vague_date_unanswered :
    exchange .everlasting usConfig vagueLibrary [] ⟨[]⟩ true companyRequest 0 epoch vagueReply none epoch [] ⟨[]⟩ =
        ⟨[],some (.runtime_error (lit "Failed to parse date/time part: 'tomorrow'"))⟩ ∧
      ¬ AnsweredOnce
        (exchange .everlasting usConfig vagueLibrary [] ⟨[]⟩ true companyRequest 0 epoch vagueReply none epoch []
          ⟨[]⟩) := by
  have escapes : exchange .everlasting usConfig vagueLibrary [] ⟨[]⟩ true companyRequest 0 epoch vagueReply none epoch
      [] ⟨[]⟩ = ⟨[],some (.runtime_error (lit "Failed to parse date/time part: 'tomorrow'"))⟩ := by
    decide +kernel
  refine ⟨escapes,?_⟩
  rw [escapes]
  rintro ⟨once,_⟩
  cases once

end Backendify
end Facade
