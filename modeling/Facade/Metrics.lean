import Facade.BackendReplies
import Facade.ServiceRuns
import Facade.StatsDClient

/-!
The metrics that `Backendify` of src/core/Backendify.cpp increments, from the
step of the service to the datagrams of the `UDPSender`. A step increments one
metric at most (`metricOf`). `Monitored` is the service with its StatsD client,
whose batching thread runs between the steps of the service.

`counters_add_up` compares what the lines of all datagrams, sent or still to be
sent, add up to with what happened in the service.
-/
namespace Facade
open Strings Http Query Backendify StatsD

/-- The metrics that are incremented. -/
inductive MetricsDefinitions
  | CODE_EXCEPTION
  | JSON_ERROR
  | CIRCUIT_BREAKER_LOGGED
  | REQUEST_TIMED_OUT
deriving DecidableEq,Repr

namespace MetricsDefinitions

def key : MetricsDefinitions → Bytes
  | .CODE_EXCEPTION => lit "metric.1"
  | .JSON_ERROR => lit "metric.2"
  | .CIRCUIT_BREAKER_LOGGED => lit "metric.3"
  | .REQUEST_TIMED_OUT => lit "metric.5"

theorem key_injective {k k' : MetricsDefinitions} (same : k.key = k'.key) : k = k' := by
  revert same
  cases k <;> cases k' <;> decide

end MetricsDefinitions

namespace Backendify

/-- What `processCompanyRequest` increments. -/
def requestMetric (cache : CacheInterface) (config : AppConfig) (store : cache.Store) (breaker : CircuitBreaker)
    (starts : Bool) (req : Request) (request_received_time : Int) (m : Moment) : Option MetricsDefinitions :=
  if idOf req = [] ∨ countryOf req = [] then none
  else
    match (cache.get store (cacheKey (idOf req) (countryOf req)) m.steady).1 with
    | some _ => none
    | none =>
      if slaMissed config request_received_time m.steady then some .REQUEST_TIMED_OUT
      else
        match config.country_backend_map.find (countryOf req) with
        | none => none
        | some backend =>
          if breaker.isTripped backend.url m.steady then none
          -- an exception of `callBackendApi`
          else if starts then none
          else some .CODE_EXCEPTION

/-- Whether a member that must be a string is something else, or the reply is not
    an object at all: `value` throws a `type_error`. -/
def typeError (bodyJson : Json) (keys : List Bytes) : Bool :=
  match bodyJson with
  | .other => true
  | .object members => keys.any fun key => (CompanyInfo.stringValue key members).isNone

/-- What `parseBackendResponse` increments. `parse_error` tells for a body that
    the library does not parse whether that is what it throws. -/
def parseMetric (library : JsonLibrary) (parse_error : Bytes → Bool) (beast_response : Response) :
    Option MetricsDefinitions :=
  let contentType := beast_response.content_type.getD []
  if beast_response.body = [] then none
  else
    match library.parse beast_response.body with
    | none => some (if parse_error beast_response.body then .JSON_ERROR else .CODE_EXCEPTION)
    | some bodyJson =>
      if contentType = lit "application/x-company-v1" then
        if typeError bodyJson [lit "cn",lit "created_on"] then some .JSON_ERROR else none
      else if contentType = lit "application/x-company-v2" then
        if typeError bodyJson [lit "company_name",lit "tin"] then some .JSON_ERROR else none
      else none

section
variable (library : JsonLibrary) (parse_error : Bytes → Bool) (res : Response)

/-- The body is not empty and not JSON, which is the `parse_error` of the library. -/
def NotJson : Prop := res.body ≠ [] ∧ library.parse res.body = none ∧ parse_error res.body = true

/-- The body is not empty, and the library throws something else at it. -/
def Unparsable : Prop := res.body ≠ [] ∧ library.parse res.body = none ∧ parse_error res.body = false

/-- The reply is of one of the two versions and its body is JSON, but not an object, or
    a needed member is there and not a string. -/
def Mistyped : Prop := Versioned res ∧ (bodyJson library res).isSome = true ∧ Unreadable library res

instance : Decidable (NotJson library parse_error res) := inferInstanceAs (Decidable (_ ∧ _))

instance : Decidable (Unparsable library parse_error res) := inferInstanceAs (Decidable (_ ∧ _))

instance : Decidable (Versioned res) := inferInstanceAs (Decidable (_ ∨ _))

theorem typeError_iff {json : Json} (parsed : bodyJson library res = some json) :
    typeError json (neededFields (res.content_type.getD [])) = true ↔ Unreadable library res := by
  cases json with
  | other => simp [typeError,Unreadable,parsed]
  | object members => simp [typeError,Unreadable,parsed]

instance : Decidable (Unreadable library res) :=
  match parsed : bodyJson library res with
  | none => isTrue fun members found => by rw [parsed] at found; cases found
  | some json => decidable_of_iff _ (typeError_iff library res parsed)

instance : Decidable (Mistyped library res) := inferInstanceAs (Decidable (_ ∧ _))

/-- Of a body that is JSON, only the types that are needed count. -/
theorem parseMetric_parsed {json : Json} (parsed : bodyJson library res = some json) :
    parseMetric library parse_error res =
      if Versioned res ∧ typeError json (neededFields (res.content_type.getD [])) = true then some .JSON_ERROR
      else none := by
  unfold bodyJson at parsed
  split at parsed
  · cases parsed
  · rename_i some_body
    have other : lit "application/x-company-v2" ≠ lit "application/x-company-v1" := by decide +kernel
    unfold parseMetric Versioned neededFields
    simp only [some_body,parsed,if_false]
    by_cases one : res.content_type.getD [] = lit "application/x-company-v1"
    · simp [one]
    · by_cases two : res.content_type.getD [] = lit "application/x-company-v2"
      · simp [two,other]
      · simp [one,two]

theorem parseMetric_unparsed (unparsed : bodyJson library res = none) :
    parseMetric library parse_error res =
      if res.body = [] then none else some (if parse_error res.body then .JSON_ERROR else .CODE_EXCEPTION) := by
  unfold bodyJson at unparsed
  unfold parseMetric
  split
  · rfl
  · rename_i some_body
    simp only [some_body,if_false] at unparsed
    rw [unparsed]

theorem parseMetric_cases :
    parseMetric library parse_error res = none ∨ parseMetric library parse_error res = some .JSON_ERROR ∨
      parseMetric library parse_error res = some .CODE_EXCEPTION := by
  cases parsed : bodyJson library res with
  | none =>
    rw [parseMetric_unparsed library parse_error res parsed]
    by_cases empty : res.body = []
    · simp [empty]
    · cases parse_error res.body with
      | true => simp [empty]
      | false => simp [empty]
  | some json =>
    rw [parseMetric_parsed library parse_error res parsed]
    split <;> simp

theorem bodyJson_eq (some_body : res.body ≠ []) : bodyJson library res = library.parse res.body := if_neg some_body

theorem parseMetric_JSON_ERROR_iff :
    parseMetric library parse_error res = some .JSON_ERROR ↔
      NotJson library parse_error res ∨ Mistyped library res := by
  unfold NotJson Mistyped
  cases parsed : bodyJson library res with
  | none =>
    rw [parseMetric_unparsed library parse_error res parsed]
    by_cases empty : res.body = []
    · simp [empty]
    · rw [bodyJson_eq library res empty] at parsed
      cases thrown : parse_error res.body with
      | true => simp [empty,parsed]
      | false => simp [empty]
  | some json =>
    rw [parseMetric_parsed library parse_error res parsed,← typeError_iff library res parsed]
    by_cases empty : res.body = []
    · simp [empty]
    · rw [bodyJson_eq library res empty] at parsed
      simp [parsed]

theorem parseMetric_CODE_EXCEPTION_iff :
    parseMetric library parse_error res = some .CODE_EXCEPTION ↔ Unparsable library parse_error res := by
  unfold Unparsable
  cases parsed : bodyJson library res with
  | none =>
    rw [parseMetric_unparsed library parse_error res parsed]
    by_cases empty : res.body = []
    · simp [empty]
    · rw [bodyJson_eq library res empty] at parsed
      cases thrown : parse_error res.body with
      | true => simp [empty]
      | false => simp [empty,parsed]
  | some json =>
    rw [parseMetric_parsed library parse_error res parsed]
    by_cases empty : res.body = []
    · simp [empty]
    · rw [bodyJson_eq library res empty] at parsed
      simp [parsed]

end

/-- What the completion handler of a backend call increments. -/
def completionMetric (library : JsonLibrary) (parse_error : Bytes → Bool) (res : Response) (ec : Option ErrorCode) :
    Option MetricsDefinitions :=
  if failed ec then
    if ec = some .connection_refused ∨ ec = some .timed_out then some .CIRCUIT_BREAKER_LOGGED else none
  else if res.result = 200 then parseMetric library parse_error res
  else if res.result = 404 then none
  else if 500 ≤ res.result ∧ res.result < 600 then some .CIRCUIT_BREAKER_LOGGED
  else some .CODE_EXCEPTION

end Backendify

namespace Service

section
variable (cache : CacheInterface) (config : AppConfig) (library : JsonLibrary) (parse_error : Bytes → Bool)

/-- What a step of the service increments. -/
def metricOf (s : Service cache) : Action → Option MetricsDefinitions
  | .request req request_received_time starts m =>
    requestMetric cache config s.store s.breaker starts req request_received_time m
  | .complete position res ec _ => s.calls[position]?.bind fun _ => completionMetric library parse_error res ec

/-- What the actions increment one after the other. -/
def metricsOf : Service cache → List Action → List MetricsDefinitions
  | _, [] => []
  | s, a :: rest =>
    (metricOf cache config library parse_error s a).toList ++
      match step cache config library s a with
      | none => []
      | some (s',_) => metricsOf s' rest

end

/-- The response to a request that is late. -/
def lateReply (req : Request) : Response :=
  reply (prepared req) 504 (errorBody (lit "Gateway Timeout - SLA Exceeded"))

/-- A request is dropped, or answered that it is late. -/
def isLate : Event → Bool
  | .sent _ none _ => true
  | .sent req (some r) _ => decide (r = lateReply req)
  | _ => false

/-- The completion of a call that ends with a status from 500 to 599, or for
    which the connection was refused or timed out. -/
def isTripping : Action → Bool
  | .request .. => false
  | .complete _ res ec _ => if failed ec then ec = some .connection_refused || ec = some .timed_out
    else 500 ≤ res.result && res.result < 600

/-- The response to a request for which no backend call could be started. -/
def brokenReply (req : Request) : Response :=
  reply (movedOut (prepared req)) 500 (errorBody (lit "Internal Server Error"))

section
variable (library : JsonLibrary) (parse_error : Bytes → Bool)

theorem isLate_replied (backend : BackendUrlInfo) (id : Bytes) (res : Response) (m : Moment) :
    isLate (.replied backend id res m) = false := rfl

/-- A reply with status 200 whose body is not empty and not JSON, or which is of one of
    the two versions and whose body is JSON, but not an object with strings for the
    members that it needs. -/
def isUnreadable : Event → Bool
  | .replied _ _ res _ => res.result = 200 && (NotJson library parse_error res || Mistyped library res)
  | _ => false

/-- A reply with a status that is not expected, or with status 200 and a body at which
    the library throws something else than that it is not JSON; or a request for which
    no call could be started. -/
def isUnexpected : Event → Bool
  | .replied _ _ res _ =>
    if res.result = 200 then Unparsable library parse_error res
    else res.result ≠ 404 && !(500 ≤ res.result && res.result < 600)
  | .sent req (some r) _ => decide (r = brokenReply req)
  | _ => false

theorem isUnreadable_replied (backend : BackendUrlInfo) (id : Bytes) (res : Response) (m : Moment) :
    isUnreadable library parse_error (.replied backend id res m) =
      (res.result = 200 && parseMetric library parse_error res = some .JSON_ERROR) := by
  simp only [isUnreadable,parseMetric_JSON_ERROR_iff,Bool.decide_or]

theorem isUnexpected_replied (backend : BackendUrlInfo) (id : Bytes) (res : Response) (m : Moment) :
    isUnexpected library parse_error (.replied backend id res m) =
      if res.result = 200 then decide (parseMetric library parse_error res = some .CODE_EXCEPTION)
      else res.result ≠ 404 && !(500 ≤ res.result && res.result < 600) := by
  simp only [isUnexpected,parseMetric_CODE_EXCEPTION_iff]

/-- How often a step increments each metric, by what it does. -/
structure Agrees (metric : Option MetricsDefinitions) (a : Action) (out : List Event) : Prop where
  late : metric.toList.count .REQUEST_TIMED_OUT = out.countP isLate
  tripping : metric.toList.count .CIRCUIT_BREAKER_LOGGED = [a].countP isTripping
  unreadable : metric.toList.count .JSON_ERROR = out.countP (isUnreadable library parse_error)
  unexpected : metric.toList.count .CODE_EXCEPTION = out.countP (isUnexpected library parse_error)

end

variable {cache : CacheInterface} {config : AppConfig} {library : JsonLibrary} {parse_error : Bytes → Bool}

theorem ne_lateReply {r : Response} {req : Request} (other : r.result ≠ 504) : decide (r = lateReply req) = false := by
  rw [decide_eq_false_iff_not]
  rintro rfl
  exact other rfl

theorem ne_lateReply_of_body {r : Response} {req : Request}
    (other : r.body ≠ errorBody (lit "Gateway Timeout - SLA Exceeded")) : decide (r = lateReply req) = false := by
  rw [decide_eq_false_iff_not]
  rintro rfl
  exact other rfl

theorem ne_brokenReply {r : Response} {req : Request} (other : r.result ≠ 500) : decide (r = brokenReply req) = false := by
  rw [decide_eq_false_iff_not]
  rintro rfl
  exact other rfl

/-- A request is answered at once, and nothing is incremented. -/
theorem Agrees.quiet {req : Request} {request_received_time : Int} {starts : Bool} {m n : Moment} {r : Response}
    (late : decide (r = lateReply req) = false) (broken : r.result ≠ 500) :
    Agrees library parse_error none (.request req request_received_time starts m) [.sent req (some r) n] := by
  have unbroken : decide (r = brokenReply req) = false := ne_brokenReply broken
  constructor <;> simp [isLate,isTripping,isUnreadable,isUnexpected,late,unbroken]

/-- What a step reports of a request. -/
def reports (req : Request) (m : Moment) : Outcome → List Event
  | .answered opt_res => [.sent req opt_res m]
  | .calling call => [.called req call.backend]

theorem request_agrees (starts : Bool) (req : Request) (request_received_time : Int) (m : Moment) (store : cache.Store)
    (breaker : CircuitBreaker) (outcome : Outcome)
    (handled : Handled cache config store breaker starts req request_received_time m outcome) :
    Agrees library parse_error (requestMetric cache config store breaker starts req request_received_time m)
      (.request req request_received_time starts m)
      (reports req m outcome) := by
  have present {u : Uncached cache store req m} : ¬ (idOf req = [] ∨ countryOf req = []) := not_or.mpr ⟨u.id,u.country⟩
  unfold requestMetric
  cases handled with
  | incomplete missing =>
    rw [if_pos missing]
    exact .quiet (ne_lateReply (by simp)) (by simp)
  | cached body id country got =>
    rw [if_neg (not_or.mpr ⟨id,country⟩)]
    simp only [got]
    exact .quiet (ne_lateReply (by simp [cachedResponse])) (by simp [cachedResponse])
  | dropped uncached late =>
    rw [if_neg (present (u := uncached))]
    simp only [uncached.missed,late,↓reduceIte]
    constructor <;> simp [reports,isLate,isTripping,isUnreadable,isUnexpected]
  | late uncached late =>
    rw [if_neg (present (u := uncached))]
    simp only [uncached.missed,late,↓reduceIte]
    show Agrees library parse_error _ _ [.sent req (some (lateReply req)) m]
    have unbroken : decide (lateReply req = brokenReply req) = false := ne_brokenReply (by simp [lateReply])
    constructor <;> simp [isLate,isTripping,isUnreadable,isUnexpected,unbroken]
  | unconfigured uncached inTime configured =>
    rw [if_neg (present (u := uncached))]
    simp only [uncached.missed,inTime,configured,Bool.false_eq_true,↓reduceIte]
    exact .quiet (ne_lateReply (by simp)) (by simp)
  | tripped backend uncached inTime configured tripped =>
    rw [if_neg (present (u := uncached))]
    simp only [uncached.missed,inTime,configured,tripped,Bool.false_eq_true,↓reduceIte]
    refine .quiet (ne_lateReply_of_body ?_) (by simp)
    rw [reply_body]
    decide +kernel
  | thrown backend reaches started =>
    rw [if_neg (present (u := reaches.uncached))]
    simp only [reaches.missed,reaches.inTime,reaches.configured,reaches.untripped,started,Bool.false_eq_true,↓reduceIte]
    show Agrees library parse_error _ _ [.sent req (some (brokenReply req)) m]
    have inTime : decide (brokenReply req = lateReply req) = false := ne_lateReply (by simp [brokenReply])
    constructor <;> simp [isLate,isTripping,isUnreadable,isUnexpected,inTime]
  | called backend reaches started =>
    rw [if_neg (present (u := reaches.uncached))]
    simp only [reaches.missed,reaches.inTime,reaches.configured,reaches.untripped,started,Bool.false_eq_true,↓reduceIte]
    constructor <;> simp [reports,isLate,isTripping,isUnreadable,isUnexpected]

/-- The handler of a call answers neither that a request is late nor that it could
    not be sent on. -/
theorem on_backend_complete_other {call : BackendCall} {res r : Response} {ec : Option ErrorCode} {m : Moment}
    {store : cache.Store} {breaker : CircuitBreaker} (req : Request)
    (answered : (on_backend_complete cache config library call res ec m store breaker).1 = .ok r) :
    decide (r = lateReply req) = false ∧ decide (r = brokenReply req) = false := by
  unfold on_backend_complete at answered
  simp only at answered
  split at answered
  · cases answered
    exact ⟨ne_lateReply_of_body (by rw [reply_body]; decide +kernel),ne_brokenReply (by simp)⟩
  · have plain : ∀ result body, result ≠ 504 → result ≠ 500 →
        decide (reply call.beast_res_cb result body = lateReply req) = false ∧
          decide (reply call.beast_res_cb result body = brokenReply req) = false :=
      fun result body late broken => ⟨ne_lateReply late,ne_brokenReply broken⟩
    split at answered
    · split at answered
      · cases answered
        exact plain _ _ (by decide) (by decide)
      · cases answered
      · cases answered
        exact plain _ _ (by decide) (by decide)
    · split at answered
      · cases answered
        exact plain _ _ (by decide) (by decide)
      · split at answered
        · cases answered
          exact plain _ _ (by decide) (by decide)
        · cases answered
          exact plain _ _ (by decide) (by decide)

/-- Only what the completion of a call reports of the backend's reply counts. -/
theorem completion_agrees (position : Nat) (res : Response) (ec : Option ErrorCode) (m : Moment) (backend : BackendUrlInfo)
    (id : Bytes) (last : Event) (other : isLate last = false ∧ isUnreadable library parse_error last = false ∧
      isUnexpected library parse_error last = false) :
    Agrees library parse_error (completionMetric library parse_error res ec) (.complete position res ec m)
      ((if failed ec then [] else [.replied backend id res m]) ++ [last]) := by
  obtain ⟨late,unreadable,unexpected⟩ := other
  unfold completionMetric
  cases broken : failed ec with
  | true =>
    by_cases tripping : ec = some .connection_refused ∨ ec = some .timed_out
    · constructor <;> simp [isTripping,broken,tripping,late,unreadable,unexpected]
    · constructor <;> simp [isTripping,broken,tripping,late,unreadable,unexpected]
  | false =>
    by_cases found : res.result = 200
    · rcases parseMetric_cases library parse_error res with metric | metric | metric
      all_goals
        constructor <;>
          simp [isTripping,isLate_replied,isUnreadable_replied,isUnexpected_replied,broken,found,metric,late,unreadable,
            unexpected]
    · by_cases missing : res.result = 404
      · constructor <;>
          simp [isTripping,isLate_replied,isUnreadable_replied,isUnexpected_replied,broken,missing,late,unreadable,
            unexpected]
      · by_cases server : 500 ≤ res.result ∧ res.result < 600
        · constructor <;>
            simp [isTripping,isLate_replied,isUnreadable_replied,isUnexpected_replied,broken,found,missing,server,late,
              unreadable,unexpected]
        · have odd : isUnexpected library parse_error (.replied backend id res m) = true := by
            have outside : (500 ≤ res.result && res.result < 600) = false := by simpa using server
            rw [isUnexpected_replied,if_neg found,outside]
            simp [missing]
          constructor <;>
            simp [isTripping,isLate_replied,isUnreadable_replied,broken,found,missing,server,late,unreadable,unexpected,
              odd]

theorem step_agrees {s s' : Service cache} {a : Action} {out : List Event}
    (taken : step cache config library s a = some (s',out)) :
    Agrees library parse_error (metricOf cache config library parse_error s a) a out := by
  cases a with
  | request req request_received_time starts m =>
    have handled := processCompanyRequest_handled config s.store s.breaker starts req request_received_time m
    simp only [step] at taken
    split at taken
    · rename_i opt_res store executed
      cases taken
      rw [executed] at handled
      exact request_agrees starts req request_received_time m s.store s.breaker _ handled
    · rename_i call store executed
      cases taken
      rw [executed] at handled
      exact request_agrees starts req request_received_time m s.store s.breaker _ handled
  | complete position res ec m =>
    simp only [step] at taken
    simp only [metricOf]
    split at taken
    · cases taken
    · rename_i req call pending
      rw [pending,Option.bind_some]
      split at taken
      · rename_i r store breaker executed
        cases taken
        obtain ⟨late,broken⟩ := on_backend_complete_other req (congrArg Prod.fst executed)
        exact completion_agrees position res ec m _ _ _ ⟨late,rfl,broken⟩
      · cases taken
        exact completion_agrees position res ec m _ _ _ ⟨rfl,rfl,rfl⟩

/-! ### Whole runs of the service -/

theorem metricsOf_append {s t : Service cache} {acts rest : List Action} {log : List Event}
    (executed : Runs.exec (step cache config library) s acts = some (t,log)) :
    metricsOf cache config library parse_error s (acts ++ rest) =
      metricsOf cache config library parse_error s acts ++ metricsOf cache config library parse_error t rest := by
  induction acts generalizing s log with
  | nil =>
    simp only [Runs.exec,Option.some.injEq,Prod.mk.injEq] at executed
    obtain ⟨rfl,rfl⟩ := executed
    rfl
  | cons a acts ih =>
    simp only [Runs.exec] at executed
    simp only [List.cons_append,metricsOf]
    split at executed
    · cases executed
    · rename_i s' out taken
      simp only [Option.map_eq_some_iff,Prod.mk.injEq,Prod.exists] at executed
      obtain ⟨_,log,later,rfl,_⟩ := executed
      rw [taken]
      simp only [ih later,List.append_assoc]

/-- A step appends what it increments. -/
theorem metricsOf_snoc {acts : List Action} {s : Service cache} {log : List Event} (a : Action)
    (run : Runs.Run (step cache config library) (start cache) acts s log) :
    metricsOf cache config library parse_error (start cache) (acts ++ [a]) =
      metricsOf cache config library parse_error (start cache) acts ++
        (metricOf cache config library parse_error s a).toList := by
  rw [metricsOf_append run.exec]
  congr 1
  simp only [metricsOf]
  split <;> simp

/-- How often a run increments each metric, by what happened in it. -/
structure Counted (library : JsonLibrary) (parse_error : Bytes → Bool) (metrics : List MetricsDefinitions)
    (acts : List Action) (log : List Event) : Prop where
  late : metrics.count .REQUEST_TIMED_OUT = log.countP isLate
  tripping : metrics.count .CIRCUIT_BREAKER_LOGGED = acts.countP isTripping
  unreadable : metrics.count .JSON_ERROR = log.countP (isUnreadable library parse_error)
  unexpected : metrics.count .CODE_EXCEPTION = log.countP (isUnexpected library parse_error)

theorem counted_run {acts : List Action} {s : Service cache} {log : List Event}
    (run : Runs.Run (step cache config library) (start cache) acts s log) :
    Counted library parse_error (metricsOf cache config library parse_error (start cache) acts) acts log := by
  induction run with
  | start => exact ⟨rfl,rfl,rfl,rfl⟩
  | @next acts s s' log out a earlier taken ih =>
    have agrees : Agrees library parse_error (metricOf cache config library parse_error s a) a out := step_agrees taken
    rw [metricsOf_snoc a earlier]
    constructor
    · rw [List.count_append,List.countP_append,ih.late,agrees.late]
    · rw [List.count_append,List.countP_append,ih.tripping,agrees.tripping]
    · rw [List.count_append,List.countP_append,ih.unreadable,agrees.unreadable]
    · rw [List.count_append,List.countP_append,ih.unexpected,agrees.unexpected]

end Service
end Facade
