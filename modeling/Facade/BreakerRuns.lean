import Facade.ServiceRuns

/-!
The circuit breaker over runs of the service. A call goes to a host and a port,
and the breaker is asked with the text of the configured URL. It keeps one
deadline for a text, which later failures move, so that it stands for the last
failure (`latest_run`, `founded_run`). Two texts may lead to one backend, and
then a failure that one of them saw does not stop the calls of the other
(`cool_off_iff`).
-/
namespace Facade
open Strings Http Query Backendify

/-- A backend is the host and the port that its calls go to. -/
def SameBackend (f g : BackendUrlInfo) : Prop := f.backend_host = g.backend_host ∧ f.backend_port = g.backend_port

/-- The configured URLs of a backend are spelled the same. -/
def OneSpelling (config : AppConfig) : Prop :=
  ∀ country_iso country_iso' f g, config.country_backend_map.find country_iso = some f →
    config.country_backend_map.find country_iso' = some g → SameBackend f g → f.url = g.url

/-- The cool-off, in nanoseconds. -/
def AppConfig.coolOff (config : AppConfig) : Int :=
  config.backend_servers_circuit_breaker_cool_off_duration_in_millis.toInt * 1000000

/-- The backend of a call refused the connection or timed out, or it answered
    with a 5xx. -/
def Failure (res : Response) (ec : Option ErrorCode) : Prop :=
  ec = some .connection_refused ∨ ec = some .timed_out ∨ (failed ec = false ∧ 500 ≤ res.result ∧ res.result < 600)

instance (res : Response) (ec : Option ErrorCode) : Decidable (Failure res ec) :=
  inferInstanceAs (Decidable (_ ∨ _ ∨ _))

/-- The response to a request that the breaker refuses. -/
def Refusal (r : Response) : Prop :=
  r.result = 504 ∧ r.body = errorBody (lit "Gateway Timeout - Circuit Breaker Active")

namespace Service

def Action.moment : Action → Moment
  | .request _ _ _ m => m
  | .complete _ _ _ m => m

/-- The clock does not go back, and requests are received before they are
    processed. -/
structure Clocked (actions : List Action) : Prop where
  ordered : actions.Pairwise fun a b => a.moment.steady ≤ b.moment.steady
  received : ∀ req request_received_time starts m, Action.request req request_received_time starts m ∈ actions →
    request_received_time ≤ m.steady

theorem Clocked.initial {actions : List Action} {a : Action} (clocked : Clocked (actions ++ [a])) :
    Clocked actions := by
  obtain ⟨ordered,received⟩ := clocked
  refine ⟨(List.pairwise_append.mp ordered).1,?_⟩
  intro req request_received_time starts m member
  exact received req request_received_time starts m (List.mem_append_left [a] member)

theorem Clocked.le_last {actions : List Action} {a b : Action} (clocked : Clocked (actions ++ [a]))
    (member : b ∈ actions) : b.moment.steady ≤ a.moment.steady :=
  (List.pairwise_append.mp clocked.ordered).2.2 b member a (List.mem_singleton_self a)

/-- The step at `a` is taken within the cool-off of the one at `b`. -/
def Within (config : AppConfig) (b a : Action) : Prop :=
  b.moment.steady ≤ a.moment.steady ∧ a.moment.steady < b.moment.steady + config.coolOff

section
variable (cache : CacheInterface) (config : AppConfig) (library : JsonLibrary)

/-- The backend of whose failure a step learns. -/
def failure (s : Service cache) : Action → Option BackendUrlInfo
  | .request _ _ _ _ => none
  | .complete position res ec _ =>
    match s.calls[position]? with
    | none => none
    | some (_,call) => if Failure res ec then some call.backend else none

/-- The run of `actions` takes the step `a`, which learns of a failure of the
    backend. -/
def Failed (actions : List Action) (a : Action) (backend : BackendUrlInfo) : Prop :=
  ∃ s log, Runs.Takes (step cache config library) (start cache) actions s log a ∧
    failure cache s a = some backend

/-- The step `a` after the run of `actions`, which reports `out`, calls no backend
    within the cool-off of one of its failures and refuses no call but within the
    cool-off of one. -/
structure CoolsOff (actions : List Action) (a : Action) (out : List Event) : Prop where
  blocked : ∀ req g, Event.called req g ∈ out → ∀ b f, Failed cache config library actions b f → SameBackend f g →
    ¬ Within config b a
  founded : ∀ req r m, Event.sent req (some r) m ∈ out → Refusal r →
    ∃ g, config.country_backend_map.find (countryOf req) = some g ∧
      ∃ b f, Failed cache config library actions b f ∧ SameBackend f g ∧ Within config b a

end

variable {cache : CacheInterface} {config : AppConfig} {library : JsonLibrary}

/-! ### One step -/

/-- The handler trips the breaker exactly for a failure. -/
theorem on_backend_complete_breaker (cache : CacheInterface) (config : AppConfig) (library : JsonLibrary)
    (call : BackendCall) (res : Response) (ec : Option ErrorCode) (m : Moment) (store : cache.Store)
    (breaker : CircuitBreaker) :
    (on_backend_complete cache config library call res ec m store breaker).2.2 =
      if Failure res ec then handleBackendServerErrorResponse config call.backend.url m.steady breaker
      else breaker := by
  unfold on_backend_complete Failure
  by_cases broken : failed ec = true
  · simp only [broken,↓reduceIte,Bool.true_eq_false,false_and,or_false]
  · have reached : ec ≠ some .connection_refused ∧ ec ≠ some .timed_out := by
      constructor
      · rintro rfl; exact broken rfl
      · rintro rfl; exact broken rfl
    simp only [Bool.not_eq_true] at broken
    simp only [broken,Bool.false_eq_true,↓reduceIte,reached.1,reached.2,true_and,false_or]
    by_cases found : res.result = 200
    · rw [if_pos found,if_neg (by omega)]
      split <;> rfl
    · rw [if_neg found]
      by_cases missing : res.result = 404
      · rw [if_pos missing,if_neg (by omega)]
      · rw [if_neg missing]
        by_cases erred : 500 ≤ res.result ∧ res.result < 600
        · rw [if_pos erred,if_pos erred]
        · rw [if_neg erred,if_neg erred]

/-- The breaker after a step. -/
theorem step_breaker {s s' : Service cache} {a : Action} {out : List Event}
    (taken : step cache config library s a = some (s',out)) :
    s'.breaker = match failure cache s a with
      | some f => handleBackendServerErrorResponse config f.url a.moment.steady s.breaker
      | none => s.breaker := by
  cases a with
  | request req request_received_time starts m =>
    simp only [step] at taken
    split at taken
    · cases taken; rfl
    · cases taken; rfl
  | complete position res ec m =>
    simp only [step] at taken
    simp only [failure]
    cases pending : s.calls[position]? with
    | none => simp [pending] at taken
    | some b =>
      obtain ⟨req,call⟩ := b
      have tripped := on_backend_complete_breaker cache config library call res ec m s.store s.breaker
      simp only [pending] at taken
      have left : s'.breaker = (on_backend_complete cache config library call res ec m s.store s.breaker).2.2 := by
        split at taken
        · rename_i executed
          cases taken
          rw [executed]
        · rename_i executed
          cases taken
          rw [executed]
      rw [left,tripped]
      show _ = match (if Failure res ec then some call.backend else none) with
        | some f => handleBackendServerErrorResponse config f.url m.steady s.breaker
        | none => s.breaker
      by_cases fails : Failure res ec
      · rw [if_pos fails,if_pos fails]
      · rw [if_neg fails,if_neg fails]

/-- A call is started by a request that reaches the backend. -/
theorem step_called {s s' : Service cache} {a : Action} {out : List Event}
    (taken : step cache config library s a = some (s',out)) {req : Request} {g : BackendUrlInfo}
    (called : Event.called req g ∈ out) :
    ∃ request_received_time m, a = .request req request_received_time true m ∧
      Reaches cache config s.store s.breaker req request_received_time m g := by
  cases a with
  | request req' request_received_time starts m =>
    simp only [step] at taken
    split at taken
    · cases taken
      simp at called
    · rename_i call store executed
      cases taken
      simp only [List.mem_singleton,Event.called.injEq] at called
      obtain ⟨rfl,rfl⟩ := called
      obtain ⟨rfl,_,_,_,reaches⟩ := calling_iff.mp (congrArg Prod.fst executed)
      exact ⟨request_received_time,m,rfl,reaches⟩
  | complete position res ec m =>
    exfalso
    have done := step_taken taken
    cases done with
    | fetched => simp at called
    | refused _ _ _ _ _ _ _ replied last _ _ shape end_ =>
      rcases shape with rfl | rfl
      · rcases end_ with ⟨r,rfl,_⟩ | ⟨e,rfl⟩ <;> simp at called
      · rcases end_ with ⟨r,rfl,_⟩ | ⟨e,rfl⟩ <;> simp at called

/-- The handler of a call does not answer as the breaker does. -/
theorem on_backend_complete_not_refusal {call : BackendCall} {res : Response} {ec : Option ErrorCode} {m : Moment}
    {store : cache.Store} {breaker : CircuitBreaker} {r : Response}
    (answered : (on_backend_complete cache config library call res ec m store breaker).1 = .ok r) : ¬ Refusal r := by
  obtain ⟨result,body,rfl,unreachable⟩ := on_backend_complete_reply answered
  rintro ⟨timedOut,text⟩
  have other : errorBody (lit "Gateway Timeout - Backend Unreachable") ≠
      errorBody (lit "Gateway Timeout - Circuit Breaker Active") := by decide
  exact other ((unreachable timedOut).symm.trans text)

/-- A request is refused by the breaker when it is in time and the breaker is
    tripped for the URL of its country. -/
theorem processCompanyRequest_refusal {store : cache.Store} {breaker : CircuitBreaker} {starts : Bool}
    {req : Request} {request_received_time : Int} {m : Moment} {r : Response}
    (answered : (processCompanyRequest cache config store breaker starts req request_received_time m).1 =
      .answered (some r)) (refusal : Refusal r) :
    slaMissed config request_received_time m.steady = false ∧
      ∃ g, config.country_backend_map.find (countryOf req) = some g ∧ breaker.isTripped g.url m.steady = true := by
  have handled := processCompanyRequest_handled config store breaker starts req request_received_time m
  obtain ⟨result,body⟩ := refusal
  rw [answered] at handled
  cases handled with
  | incomplete => simp at result
  | cached => simp [cachedResponse] at result
  | late =>
    have other : errorBody (lit "Gateway Timeout - SLA Exceeded") ≠
        errorBody (lit "Gateway Timeout - Circuit Breaker Active") := by decide
    exact absurd body other
  | unconfigured => simp at result
  | tripped g _ inTime configured tripped => exact ⟨inTime,g,configured,tripped⟩
  | thrown => simp at result

/-- What a step that refuses a call finds. -/
theorem step_refusal {s s' : Service cache} {a : Action} {out : List Event}
    (taken : step cache config library s a = some (s',out)) {req : Request} {r : Response} {m : Moment}
    (sent : Event.sent req (some r) m ∈ out) (refusal : Refusal r) :
    ∃ request_received_time starts, a = .request req request_received_time starts m ∧
      slaMissed config request_received_time m.steady = false ∧
      ∃ g, config.country_backend_map.find (countryOf req) = some g ∧ s.breaker.isTripped g.url m.steady = true := by
  cases a with
  | request req' request_received_time starts m' =>
    simp only [step] at taken
    split at taken
    · rename_i opt_res store executed
      cases taken
      simp only [List.mem_singleton,Event.sent.injEq] at sent
      obtain ⟨rfl,rfl,rfl⟩ := sent
      exact ⟨request_received_time,starts,rfl,processCompanyRequest_refusal (congrArg Prod.fst executed) refusal⟩
    · cases taken
      simp at sent
  | complete position res ec m' =>
    exfalso
    simp only [step] at taken
    cases pending : s.calls[position]? with
    | none => simp [pending] at taken
    | some b =>
      simp only [pending] at taken
      split at taken
      · rename_i answer store breaker executed
        cases taken
        have member : r = answer := by
          rcases List.mem_append.mp sent with early | late
          · split at early <;> simp at early
          · simp only [List.mem_singleton,Event.sent.injEq,Option.some.injEq] at late
            exact late.2.1
        subst member
        exact on_backend_complete_not_refusal (congrArg Prod.fst executed) refusal
      · cases taken
        rcases List.mem_append.mp sent with early | late
        · split at early <;> simp at early
        · simp at late

/-! ### Runs -/

/-- A failure is learnt of by a call to the backend, which is configured. -/
theorem Failed.configured {actions : List Action} {b : Action} {f : BackendUrlInfo}
    (fails : Failed cache config library actions b f) :
    ∃ country_iso, config.country_backend_map.find country_iso = some f := by
  obtain ⟨s,log,takes,learnt⟩ := fails
  obtain ⟨before,run⟩ := takes.run
  cases b with
  | request req request_received_time starts m => cases learnt
  | complete position res ec m =>
    simp only [failure] at learnt
    split at learnt
    · cases learnt
    · rename_i req call pending
      split at learnt
      · simp only [Option.some.injEq] at learnt
        subst learnt
        exact ⟨_,((traced_run run).calls (req,call) (List.mem_of_getElem? pending)).2.2⟩
      · cases learnt

theorem failed_snoc {actions : List Action} {s : Service cache} {log : List Event} {a b : Action}
    {f : BackendUrlInfo} (run : Runs.Run (step cache config library) (start cache) actions s log) :
    Failed cache config library (actions ++ [a]) b f ↔
      Failed cache config library actions b f ∨ (b = a ∧ failure cache s a = some f) := by
  constructor
  · rintro ⟨t,before,takes,learnt⟩
    rcases run.takes_snoc.mp takes with earlier | ⟨rfl,rfl,rfl⟩
    · exact .inl ⟨t,before,earlier,learnt⟩
    · exact .inr ⟨rfl,learnt⟩
  · rintro (⟨t,before,earlier,learnt⟩ | ⟨rfl,learnt⟩)
    · exact ⟨t,before,run.takes_snoc.mpr (.inl earlier),learnt⟩
    · exact ⟨s,log,run.takes_snoc.mpr (.inr ⟨rfl,rfl,rfl⟩),learnt⟩

theorem Failed.mem {actions : List Action} {b : Action} {f : BackendUrlInfo}
    (fails : Failed cache config library actions b f) : b ∈ actions := by
  obtain ⟨s,log,takes,_⟩ := fails
  exact takes.mem

/-- The deadline kept for a URL is no earlier than what any failure under that
    URL asks for: the clock does not go back, so the last failure asks for most. -/
theorem latest_run {actions : List Action} {s : Service cache} {log : List Event}
    (run : Runs.Run (step cache config library) (start cache) actions s log) (clocked : Clocked actions) :
    ∀ b f, Failed cache config library actions b f →
      ∃ deadline, s.breaker.tripped_backends.find f.url = some deadline ∧
        b.moment.steady + config.coolOff ≤ deadline := by
  induction run with
  | start =>
    rintro b f fails
    cases fails.mem
  | @next actions s s' log out a run taken ih =>
    intro b f fails
    rw [step_breaker taken]
    rcases (failed_snoc run).mp fails with earlier | ⟨rfl,learnt⟩
    · obtain ⟨deadline,kept,later⟩ := ih clocked.initial b f earlier
      cases learnt : failure cache s a with
      | none => exact ⟨deadline,kept,later⟩
      | some g =>
        by_cases same : f.url = g.url
        · have order := clocked.le_last earlier.mem
          refine ⟨a.moment.steady + config.coolOff,?_,by omega⟩
          rw [same]
          exact OrderedMap.find_assign_self _ _ _
        · refine ⟨deadline,?_,later⟩
          rw [← kept]
          exact OrderedMap.find_assign_ne same _ _
    · rw [learnt]
      exact ⟨b.moment.steady + config.coolOff,OrderedMap.find_assign_self _ _ _,by omega⟩

/-- A deadline stands for a failure under its URL. -/
theorem founded_run {actions : List Action} {s : Service cache} {log : List Event}
    (run : Runs.Run (step cache config library) (start cache) actions s log) :
    ∀ url deadline, s.breaker.tripped_backends.find url = some deadline →
      ∃ b f, Failed cache config library actions b f ∧ f.url = url ∧
        deadline = b.moment.steady + config.coolOff := by
  induction run with
  | start =>
    intro url deadline kept
    cases kept
  | @next actions s s' log out a run taken ih =>
    intro url deadline kept
    rw [step_breaker taken] at kept
    have old : s.breaker.tripped_backends.find url = some deadline →
        ∃ b f, Failed cache config library (actions ++ [a]) b f ∧ f.url = url ∧
          deadline = b.moment.steady + config.coolOff := by
      intro kept
      obtain ⟨b,f,fails,same,stands⟩ := ih url deadline kept
      exact ⟨b,f,(failed_snoc run).mpr (.inl fails),same,stands⟩
    cases learnt : failure cache s a with
    | none =>
      rw [learnt] at kept
      exact old kept
    | some g =>
      rw [learnt] at kept
      by_cases same : url = g.url
      · subst same
        have stands := (OrderedMap.find_assign_self _ _ _).symm.trans kept
        rw [Option.some.injEq] at stands
        exact ⟨a,g,(failed_snoc run).mpr (.inr ⟨rfl,learnt⟩),rfl,stands.symm⟩
      · exact old ((OrderedMap.find_assign_ne same _ _).symm.trans kept)

theorem isTripped_iff {breaker : CircuitBreaker} {url : Bytes} {now : Int} :
    breaker.isTripped url now = true ↔
      ∃ deadline, breaker.tripped_backends.find url = some deadline ∧ now < deadline := by
  unfold CircuitBreaker.isTripped
  cases breaker.tripped_backends.find url with
  | none => simp
  | some deadline => simp

/-- Where the slack is negative every request is late. -/
theorem slaMissed_of_negative {request_received_time now : Int} (negative : config.slack < 0)
    (received : request_received_time ≤ now) : slaMissed config request_received_time now = true := by
  have elapsed : 0 ≤ (now - request_received_time).tdiv 1000 := Int.tdiv_nonneg (by omega) (by omega)
  simp only [slaMissed,decide_eq_true_eq]
  omega

/-- A step cools off when the URLs of a backend are spelled the same, and
    wherever no cool-off or no call is. -/
theorem coolsOff_step {actions : List Action} {s s' : Service cache} {log out : List Event} {a : Action}
    (urls : ∀ b ∈ config.country_backend_map, Configuration.FromUrl b.2)
    (settled : OneSpelling config ∨ config.coolOff ≤ 0 ∨ config.slack < 0)
    (run : Runs.Run (step cache config library) (start cache) actions s log)
    (taken : step cache config library s a = some (s',out)) (clocked : Clocked (actions ++ [a])) :
    CoolsOff cache config library actions a out := by
  constructor
  · rintro req g called b f fails same ⟨_,within⟩
    obtain ⟨request_received_time,m,rfl,reaches⟩ := step_called taken called
    rcases settled with spelled | none_ | negative
    · obtain ⟨country_iso,configured⟩ := fails.configured
      have url := spelled _ _ _ _ configured reaches.configured same
      obtain ⟨deadline,kept,later⟩ := latest_run run clocked.initial b f fails
      have tripped : s.breaker.isTripped g.url m.steady = true := by
        rw [isTripped_iff]
        rw [url] at kept
        exact ⟨deadline,kept,Int.lt_of_lt_of_le within later⟩
      rw [reaches.untripped] at tripped
      cases tripped
    · have order := clocked.le_last fails.mem
      omega
    · have late := slaMissed_of_negative negative (clocked.received req request_received_time true m (by simp))
      rw [reaches.inTime] at late
      cases late
  · intro req r m sent refusal
    obtain ⟨request_received_time,starts,rfl,inTime,g,configured,tripped⟩ := step_refusal taken sent refusal
    refine ⟨g,configured,?_⟩
    obtain ⟨deadline,kept,before⟩ := isTripped_iff.mp tripped
    obtain ⟨b,f,fails,url,rfl⟩ := founded_run run g.url deadline kept
    obtain ⟨country_iso,learnt⟩ := fails.configured
    -- one URL is taken apart in one way
    have same : f = g := Configuration.FromUrl.eq_of_url (urls (country_iso,f) (OrderedMap.mem_of_find learnt))
      (urls (countryOf req,g) (OrderedMap.mem_of_find configured)) url
    subst same
    exact ⟨b,f,fails,⟨rfl,rfl⟩,clocked.le_last fails.mem,before⟩

/-! ### Two spellings of one backend -/

/-- A request for a country. -/
def requestFor (country_iso : Bytes) : Request :=
  { Request.empty with target := lit "/company?id=1&country_iso=" ++ country_iso }

/-- A backend that is down. -/
def unavailable : Response := { Response.empty with result := 503 }

theorem parseQuery_requestFor {a b : UInt8} (first : isUpper a = true) (second : isUpper b = true) :
    parseQuery (queryOf (requestFor [a,b]).target) =
      OrderedMap.assign (lit "country_iso") [a,b] [(lit "id",lit "1")] := by
  have plain : ∀ c, isUpper c = true → c ≠ 61 ∧ c ≠ 38 ∧ c ≠ 43 := by
    intro c upper
    refine ⟨?_,?_,?_⟩
    all_goals
      rintro rfl
      revert upper
      decide
  obtain ⟨noEquals,noAnd,noPlus⟩ := plain a first
  obtain ⟨noEquals',noAnd',noPlus'⟩ := plain b second
  have query : queryOf (requestFor [a,b]).target = lit "id=1&country_iso=" ++ [a,b] := rfl
  have scanned : (lit "id=1&country_iso=").foldl Parser.next .start =
      ⟨[(lit "id",lit "1")],[],lit "country_iso",[],false⟩ := by decide +kernel
  rw [query,parseQuery,List.foldl_append,scanned]
  simp only [List.foldl_cons,List.foldl_nil,Parser.next,noEquals,noAnd,noEquals',noAnd',↓reduceIte,List.nil_append,
    List.cons_append]
  simp only [Parser.finish,reduceCtorEq,↓reduceIte,Bool.false_eq_true,Parser.store,urlDecode,noPlus,noPlus']
  rfl

theorem requestFor_params {country_iso : Bytes} (code : Configuration.IsCountry country_iso) :
    idOf (requestFor country_iso) = lit "1" ∧ countryOf (requestFor country_iso) = country_iso := by
  obtain ⟨size,upper⟩ := code
  obtain ⟨a,b,rfl⟩ := List.length_eq_two.mp size
  have first := upper a (by simp)
  have second := upper b (by simp)
  have fixed : ∀ c : UInt8, isUpper c = true → toUpper c = c := forall_byte (by decide +kernel)
  unfold idOf countryOf param
  rw [parseQuery_requestFor first second,OrderedMap.find_assign_self,OrderedMap.find_assign_ne (by decide)]
  refine ⟨by decide,?_⟩
  simp [fixed a first,fixed b second]

/-- A request in time for a configured country starts a call, unless the cache
    holds something or the breaker is tripped. -/
theorem step_starts (library : JsonLibrary) {s : Service cache} (unheld : ∀ key body, ¬ cache.Holds s.store key body)
    {country_iso : Bytes} {backend : BackendUrlInfo} (code : Configuration.IsCountry country_iso)
    (configured : config.country_backend_map.find country_iso = some backend) (slack : 0 ≤ config.slack)
    (untripped : s.breaker.isTripped backend.url epoch.steady = false) :
    ∃ store call, call.backend = backend ∧ (∀ key body, ¬ cache.Holds store key body) ∧
      step cache config library s (.request (requestFor country_iso) 0 true epoch) =
        some ({ s with store := store, calls := s.calls ++ [(requestFor country_iso,call)] },
          [.called (requestFor country_iso) backend]) := by
  obtain ⟨id,country⟩ := requestFor_params code
  have missed : (cache.get s.store (cacheKey (idOf (requestFor country_iso)) (countryOf (requestFor country_iso)))
      epoch.steady).1 = none := by
    rw [Option.eq_none_iff_forall_ne_some]
    intro body got
    exact unheld _ _ (cache.holds_of_get got)
  have reaches : Reaches cache config s.store s.breaker (requestFor country_iso) 0 epoch backend := by
    refine ⟨?_,?_,missed,?_,?_,untripped⟩
    · rw [id]; decide
    · rw [country]
      rintro rfl
      cases code.1
    · show decide (0 > config.slack) = false
      rw [decide_eq_false_iff_not]
      omega
    · rw [country]; exact configured
  have calls : (processCompanyRequest cache config s.store s.breaker true (requestFor country_iso) 0 epoch).1 =
      .calling ⟨prepared _,cacheKey (idOf _) (countryOf _),idOf _,backend⟩ :=
    calling_iff.mpr ⟨rfl,rfl,rfl,rfl,reaches⟩
  rcases processCompanyRequest_cases config s.store s.breaker true (requestFor country_iso) 0 epoch with
    ⟨body,found,executed⟩ | ⟨_,outcome,store,executed,stored,_⟩
  · rw [executed] at calls
    cases calls
  · rw [executed] at calls
    cases calls
    have emptied : ∀ key body, ¬ cache.Holds store key body := by
      rcases stored with rfl | rfl
      · exact unheld
      · intro key body held
        exact unheld key body (cache.holds_get held)
    exact ⟨store,_,rfl,emptied,by rw [step,executed]⟩

/-- A call for the country that is answered with 503. -/
def downCall (country_iso : Bytes) : List Action :=
  [.request (requestFor country_iso) 0 true epoch,.complete 0 unavailable none epoch]

theorem clocked_downCall (country_iso country_iso' : Bytes) :
    Clocked (downCall country_iso ++ [.request (requestFor country_iso') 0 true epoch]) := by
  refine ⟨by simp [downCall,Action.moment],?_⟩
  intro req request_received_time starts m member
  simp only [downCall,List.nil_append,List.cons_append,List.mem_cons,Action.request.injEq,reduceCtorEq,
    List.not_mem_nil,false_or,or_false] at member
  rcases member with ⟨_,rfl,_,rfl⟩ | ⟨_,rfl,_,rfl⟩
  · exact Int.le_refl 0
  · exact Int.le_refl 0

/-- A failure that one spelling saw does not stop a call of the other. -/
theorem spellings_apart (cache : CacheInterface) (library : JsonLibrary) {country_iso country_iso' : Bytes}
    {f g : BackendUrlInfo} (countries : ∀ b ∈ config.country_backend_map, Configuration.IsCountry b.1)
    (one : config.country_backend_map.find country_iso = some f)
    (other : config.country_backend_map.find country_iso' = some g) (same : SameBackend f g) (apart : f.url ≠ g.url)
    (coolOff : 0 < config.coolOff) (slack : 0 ≤ config.slack) :
    ∃ s log s' out, Runs.Run (step cache config library) (start cache) (downCall country_iso) s log ∧
      step cache config library s (.request (requestFor country_iso') 0 true epoch) = some (s',out) ∧
      Clocked (downCall country_iso ++ [.request (requestFor country_iso') 0 true epoch]) ∧
      ¬ CoolsOff cache config library (downCall country_iso) (.request (requestFor country_iso') 0 true epoch) out := by
  have code := countries _ (OrderedMap.mem_of_find one)
  have code' := countries _ (OrderedMap.mem_of_find other)
  obtain ⟨store,call,rfl,unheld,asked⟩ := step_starts library (s := start cache) cache.holds_empty code one slack rfl
  have answered : step cache config library ⟨store,⟨[]⟩,[(requestFor country_iso,call)]⟩
      (.complete 0 unavailable none epoch) =
      some (⟨store,handleBackendServerErrorResponse config call.backend.url 0 ⟨[]⟩,[]⟩,
        [.replied call.backend call.id unavailable epoch,
         .sent (requestFor country_iso) (some (reply call.beast_res_cb 502
           (errorBody (lit "Bad Gateway - Upstream Server Error")))) epoch]) := rfl
  have untripped : (handleBackendServerErrorResponse config call.backend.url 0 ⟨[]⟩).isTripped g.url
      epoch.steady = false := by
    have unset : (OrderedMap.assign call.backend.url _ []).find g.url = none :=
      OrderedMap.find_assign_ne apart.symm (0 + config.coolOff) []
    rw [Bool.eq_false_iff,Ne,isTripped_iff]
    rintro ⟨deadline,kept,_⟩
    exact absurd (kept.symm.trans unset) (by simp)
  obtain ⟨_,_,rfl,_,again⟩ := step_starts library
    (s := ⟨store,handleBackendServerErrorResponse config call.backend.url 0 ⟨[]⟩,[]⟩) unheld code' other slack untripped
  have first : Runs.Run (step cache config library) (start cache)
      [.request (requestFor country_iso) 0 true epoch] ⟨store,⟨[]⟩,[(requestFor country_iso,call)]⟩
      [.called (requestFor country_iso) call.backend] := .next .start asked
  have second : Runs.Run (step cache config library) (start cache) (downCall country_iso) _ _ := first.next answered
  refine ⟨_,_,_,_,second,again,clocked_downCall country_iso country_iso',?_⟩
  intro cools
  have fails : Failed cache config library (downCall country_iso) (.complete 0 unavailable none epoch) call.backend :=
    (failed_snoc first).mpr (.inr ⟨rfl,rfl⟩)
  refine cools.blocked _ _ (List.mem_singleton_self _) _ _ fails same ⟨Int.le_refl 0,?_⟩
  show 0 < 0 + config.coolOff
  omega

/-- Over all runs of a configuration, a failure of a backend stops its calls for
    the cool-off, and only that stops them, exactly when no two configured URLs
    of the same host and port are spelled differently. Otherwise it takes a
    cool-off that is not positive, or a negative slack, with which no call is
    ever made. -/
theorem cool_off_iff (cache : CacheInterface) (library : JsonLibrary) (startupArguments : OrderedMap Bytes Bytes)
    (settings : AppConfig) :
    (∀ actions s log a s' out,
      Runs.Run (step cache (configure startupArguments settings) library) (start cache) actions s log →
      step cache (configure startupArguments settings) library s a = some (s',out) → Clocked (actions ++ [a]) →
      CoolsOff cache (configure startupArguments settings) library actions a out) ↔
    (OneSpelling (configure startupArguments settings) ∨ (configure startupArguments settings).coolOff ≤ 0 ∨
      (configure startupArguments settings).slack < 0) := by
  have countries : ∀ b ∈ (configure startupArguments settings).country_backend_map, Configuration.IsCountry b.1 :=
    Configuration.loadCountries_keys (by simp) startupArguments
  have urls : ∀ b ∈ (configure startupArguments settings).country_backend_map, Configuration.FromUrl b.2 :=
    Configuration.loadCountries_urls (by simp) startupArguments
  constructor
  · intro cools
    by_contra unsettled
    simp only [not_or,OneSpelling,not_forall] at unsettled
    obtain ⟨⟨country_iso,country_iso',f,g,one,other,same,apart⟩,coolOff,slack⟩ := unsettled
    obtain ⟨s,log,s',out,run,taken,clocked,wrong⟩ := spellings_apart cache library countries one other same apart
      (by omega) (by omega)
    exact wrong (cools _ s log _ s' out run taken clocked)
  · intro settled actions s log a s' out run taken clocked
    exact coolsOff_step urls settled run taken clocked

/-- One backend, with its port left out and written out. -/
def twoSpellings : OrderedMap Bytes Bytes := [(lit "de",lit "http://acme:80"),(lit "us",lit "http://acme")]

/-- The backend answers a call of one country with 503, and it is called again at
    once for the other. -/
theorem spelled_twice_called : ¬ (∀ s log s' out,
    Runs.Run (step .everlasting (configure twoSpellings {}) vagueLibrary) (start .everlasting) (downCall (lit "US"))
      s log →
    step .everlasting (configure twoSpellings {}) vagueLibrary s (.request (requestFor (lit "DE")) 0 true epoch) =
      some (s',out) →
    Clocked (downCall (lit "US") ++ [.request (requestFor (lit "DE")) 0 true epoch]) →
    CoolsOff .everlasting (configure twoSpellings {}) vagueLibrary (downCall (lit "US"))
      (.request (requestFor (lit "DE")) 0 true epoch) out) := by
  intro cools
  have countries : ∀ b ∈ (configure twoSpellings {}).country_backend_map, Configuration.IsCountry b.1 :=
    Configuration.loadCountries_keys (by simp) twoSpellings
  have us : (configure twoSpellings {}).country_backend_map.find (lit "US") =
      some ⟨lit "http://acme",lit "acme",80,false⟩ := by decide +kernel
  have de : (configure twoSpellings {}).country_backend_map.find (lit "DE") =
      some ⟨lit "http://acme:80",lit "acme",80,false⟩ := by decide +kernel
  obtain ⟨s,log,s',out,run,taken,clocked,wrong⟩ := spellings_apart .everlasting vagueLibrary countries us de ⟨rfl,rfl⟩
    (by decide) (by decide) (by decide)
  exact wrong (cools s log s' out run taken clocked)

end Service
end Facade
