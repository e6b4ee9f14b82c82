import Facade.BreakerRuns
import Facade.ProgramAnswers

/-!
The circuit breaker in the whole program: after a session to a backend failed, no session
to its URL is made until the cool-off has passed, whichever connections ask
(`failed_backend_spared`).
-/
namespace Facade
open Strings Http Backendify

/-- The clocks that a handler of the server reads for the service. -/
def Frontend.Action.moment : Frontend.Action → Option Moment
  | .read _ _ _ _ m _ => some m
  | .complete _ _ _ m _ => some m
  | _ => none

namespace Program

def Action.moment : Action → Option Moment
  | .frontend a => a.moment
  | .session _ _ m _ => some m
  | .posted m _ => some m
  | .signal _ => none

variable {cache : CacheInterface} {config : AppConfig} {library : JsonLibrary}

/-- The breaker keeps a deadline for the URL that is no earlier. -/
def CoolingOff (s : Service cache) (url : Bytes) (until_ : Int) : Prop :=
  ∃ deadline, s.breaker.tripped_backends.find url = some deadline ∧ until_ ≤ deadline

/-! ### The service -/

/-- Later failures move the deadline on. -/
theorem coolingOff_service {s s' : Service cache} {a : Service.Action} {told : List Service.Event} {url : Bytes}
    {since : Int} (taken : Service.step cache config library s a = some (s',told))
    (cooling : CoolingOff s url (since + config.coolOff)) (later : since ≤ a.moment.steady) :
    CoolingOff s' url (since + config.coolOff) := by
  obtain ⟨deadline,kept,enough⟩ := cooling
  unfold CoolingOff
  rw [Service.step_breaker taken]
  cases Service.failure cache s a with
  | none => exact ⟨deadline,kept,enough⟩
  | some f =>
    by_cases same : url = f.url
    · subst same
      exact ⟨a.moment.steady + config.coolOff,OrderedMap.find_assign_self _ _ _,by omega⟩
    · exact ⟨deadline,(OrderedMap.find_assign_ne same _ _).trans kept,enough⟩

/-- What a handler of the server does to the service is one step of it, or nothing. -/
theorem service_of_step {f f' : Frontend cache} {a : Frontend.Action} {out : List Frontend.Event}
    (taken : Frontend.step config library f a = some (f',out)) :
    f'.service = f.service ∨ ∃ b told, Service.step cache config library f.service b = some (f'.service,told) ∧
      a.moment = some b.moment := by
  cases (Frontend.step_taken taken).1 with
  | listening => exact .inl rfl
  | accepting => exact .inl rfl
  | stopping => exact .inl rfl
  | dispatching => exact .inl rfl
  | moving => exact .inl rfl
  | answering _ _ _ _ _ _ _ _ _ _ _ _ _ _ _ _ _ _ _ served => exact .inr ⟨_,_,served,rfl⟩
  | calling _ _ _ _ _ _ _ _ _ _ _ _ _ _ _ _ _ served => exact .inr ⟨_,_,served,rfl⟩
  | completing =>
    obtain ⟨_,_,_,_,_,_,_,served⟩ := calls_of_complete taken
    exact .inr ⟨_,_,served,rfl⟩
  | losing _ _ _ _ _ _ _ _ _ _ _ _ _ served => exact .inr ⟨_,_,served,rfl⟩

/-- A call that starts is for a request that reaches its backend. -/
theorem called_reaches {f f' : Frontend cache} {a : Frontend.Action} {out : List Frontend.Event} {req : Request}
    {call : BackendCall} (taken : Frontend.step config library f a = some (f',out)) (alone : spontaneous a = true)
    (calls : f'.service.calls = f.service.calls ++ [(req,call)]) :
    ∃ received m, a.moment = some m ∧
      Reaches cache config f.service.store f.service.breaker req received m call.backend := by
  have longer : f'.service.calls ≠ f.service.calls := by
    rw [calls]
    simp
  cases (Frontend.step_taken taken).1 with
  | listening => exact absurd rfl longer
  | accepting => exact absurd rfl longer
  | stopping => exact absurd rfl longer
  | dispatching => exact absurd rfl longer
  | moving => exact absurd rfl longer
  | answering _ _ _ _ _ _ _ _ _ _ _ _ _ _ _ _ _ _ _ _ same => exact absurd same longer
  | calling id c result arrived s told req' received starts m now service call' _ _ _ _ served calls' =>
    have same := List.append_cancel_left (calls'.symm.trans calls)
    obtain ⟨rfl,rfl⟩ : req' = req ∧ call' = call := by simpa using same
    obtain ⟨received',m',asked,reaches⟩ := Service.step_called served (List.mem_singleton_self _)
    cases asked
    exact ⟨received,m,rfl,reaches⟩
  | completing => cases alone
  | losing => cases alone

/-! ### The program -/

theorem coolingOff_step {p p' : Program cache} {a : Action} {out : List Event} {url : Bytes} {since : Int}
    (taken : Taken config library p a p' out) (cooling : CoolingOff p.frontend.service url (since + config.coolOff))
    (later : ∀ m, a.moment = some m → since ≤ m.steady) :
    CoolingOff p'.frontend.service url (since + config.coolOff) := by
  have served {b : Frontend.Action} {frontend : Frontend cache} {told : List Frontend.Event}
      (stepped : Frontend.step config library p.frontend b = some (frontend,told))
      (moment : ∀ m, b.moment = some m → since ≤ m.steady) :
      CoolingOff frontend.service url (since + config.coolOff) := by
    rcases service_of_step stepped with same | ⟨act,heard,service,at_⟩
    · rw [same]
      exact cooling
    · exact coolingOff_service service cooling (moment _ at_)
  cases taken with
  | alone a frontend told _ _ stepped => exact served stepped later
  | calling a frontend told client req call _ _ stepped => exact served stepped later
  | working | listing | cancelling | halting => exact cooling
  | completing a owner b m now backends out res ec frontend told handles _ _ _ completed =>
    refine served completed ?_
    rintro _ ⟨⟩
    cases handles with
    | session id b m now => exact later m rfl
    | posted m now => exact later m rfl
  | stopping order frontend told _ stopped =>
    rw [(calls_of_stop stopped).1]
    exact cooling

/-- The handlers of the sessions make none. -/
theorem handled_length {p : Program cache} {log : List ClientCalls.Event} (kept : ClientCalls.Kept p.backends log)
    {a : Action} {owner : Owner} {b : ClientCalls.Action} {m : Moment} {now : Int} {backends : ClientCalls}
    {out : List ClientCalls.Event} (handles : Handles a owner b m now)
    (stepped : ClientCalls.step config p.backends b = some (backends,out)) :
    backends.calls.length = p.backends.calls.length := by
  cases handles with
  | posted m now =>
    simp only [ClientCalls.step] at stepped
    split at stepped <;> cases stepped
    rfl
  | session id a m now =>
    simp only [ClientCalls.step] at stepped
    split at stepped
    · cases stepped
    · cases ClientCalls.advance_advanced kept.unset stepped with
      | going _ _ _ _ _ _ _ moved => rw [moved]; exact List.length_set
      | done _ _ _ _ _ _ _ _ _ moved => rw [moved]; exact List.length_set

/-- A session that a step makes is for a request that reaches its backend. -/
theorem made_reaches {p p' : Program cache} {a : Action} {log out : List Event} (whole : Whole config library p log)
    (taken : Taken config library p a p' out) {k : Nat} {c : ClientCall} (new : p.backends.calls.length ≤ k)
    (found : p'.backends.calls[k]? = some c) : ∃ req received m, a.moment = some m ∧
      Reaches cache config p.frontend.service.store p.frontend.service.breaker req received m c.session.backend_info := by
  have inside := (List.getElem?_eq_some_iff.mp found).1
  cases taken with
  | alone | stopping | listing | halting =>
    simp only at inside
    omega
  | working a owner b m now backends out handles _ stepped =>
    have same := handled_length whole.kept handles stepped
    simp only at inside
    omega
  | completing a owner b m now backends out res ec frontend told handles _ stepped =>
    have same := handled_length whole.kept handles stepped
    simp only at inside
    omega
  | cancelling order id rest backends out _ cancelled =>
    have same := (steady_cancelled whole.kept cancelled).length
    simp only at inside
    omega
  | calling a frontend told client req call alone _ stepped calls =>
    obtain ⟨received,m,moment,reaches⟩ := called_reaches stepped alone calls
    cases secure : call.backend.is_https with
    | true =>
      simp only [ClientCalls.callBackendApi_https secure] at inside
      omega
    | false =>
      simp only [ClientCalls.callBackendApi_plain secure,List.length_append,List.length_singleton] at inside found
      obtain rfl : k = p.backends.calls.length := by omega
      simp only [List.getElem?_concat_length,Option.some.injEq] at found
      subst found
      exact ⟨req,received,m,moment,reaches⟩

theorem completes_ends {b : AsyncHttpClientSession.Action} {res : Response} {ec : Option ErrorCode}
    (completes : CallOutcomes.Completes b res ec) : AsyncHttpClientSession.Ends b := by
  cases completes with
  | resolve e => exact Option.some_ne_none e
  | connect e => exact Option.some_ne_none e
  | write e => exact Option.some_ne_none e
  | read => trivial

/-- A result is reported in one way. -/
theorem completes_unique {b : AsyncHttpClientSession.Action} {res res' : Response} {ec ec' : Option ErrorCode}
    (first : CallOutcomes.Completes b res ec) (second : CallOutcomes.Completes b res' ec') : res = res' ∧ ec = ec' := by
  cases first <;> cases second <;> exact ⟨rfl,rfl⟩

/-- A session that fails trips the breaker for its URL. -/
theorem coolingOff_failed {p p' : Program cache} {id : Nat} {b : AsyncHttpClientSession.Action} {m : Moment} {now : Int}
    {log out : List Event} (whole : Whole config library p log)
    (taken : Taken config library p (.session id b m now) p' out) {res : Response} {ec : Option ErrorCode}
    (completes : CallOutcomes.Completes b res ec) (fails : Failure res ec) {c : ClientCall}
    (found : p.backends.calls[id]? = some c) :
    CoolingOff p'.frontend.service c.session.backend_info.url (m.steady + config.coolOff) ∧
      p'.backends.calls.length = p.backends.calls.length := by
  cases taken with
  | working _ owner act m' now' backends out handles _ stepped silent =>
    cases handles with
    | session _ _ _ _ =>
      simp only [ClientCalls.step] at stepped
      split at stepped
      · cases stepped
      · cases ClientCalls.advance_advanced whole.kept.unset stepped with
        | going _ _ _ _ unfinished => exact absurd (completes_ends completes) unfinished
        | done => cases silent
  | completing _ owner act m' now' backends out res' ec' frontend told handles _ stepped called completed =>
    refine ⟨?_,handled_length whole.kept handles stepped⟩
    obtain ⟨member,reports,_⟩ := whole.owned.calledBack whole.kept.unset handles stepped called
    obtain ⟨req,call,there,serves⟩ := whole.owned.serves _ owner (List.getElem?_idxOf member)
    obtain ⟨_,_,_,_,_,_,pending,served⟩ := calls_of_complete completed
    rw [there,Option.some.injEq,Prod.mk.injEq] at pending
    obtain ⟨rfl,rfl⟩ := pending
    cases handles with
    | session _ _ _ _ =>
      cases reports with
      | session _ _ _ _ completes' =>
        obtain ⟨rfl,rfl⟩ := completes_unique completes completes'
        obtain ⟨_,c',here,info,_⟩ := serves
        obtain rfl := Option.some.inj (found.symm.trans here)
        have learnt : Service.failure cache p.frontend.service
            (.complete (p.owners.idxOf (.session id)) res ec m) = some call.backend := by
          simp only [Service.failure,there,fails,if_true]
        rw [CoolingOff,Service.step_breaker served,learnt,info]
        exact ⟨m.steady + config.coolOff,OrderedMap.find_assign_self _ _ _,Int.le_refl _⟩

/-- When a session to a backend fails (its connection is refused, an operation times out, or
    it reads a 5xx), no session to that URL is made as long as the handlers run within the
    cool-off, whatever else happens. -/
theorem failed_backend_spared (config : AppConfig) (cache : CacheInterface) (library : JsonLibrary)
    (actions : List Action) (p q : Program cache) (log out : List Event)
    (run : Runs.Run (step config library) (start cache config) actions p log) (id : Nat)
    (b : AsyncHttpClientSession.Action) (m : Moment) (now : Int) (res : Response) (ec : Option ErrorCode)
    (completes : CallOutcomes.Completes b res ec) (fails : Failure res ec)
    (taken : step config library p (.session id b m now) = some (q,out)) (c : ClientCall)
    (found : p.backends.calls[id]? = some c) (later : List Action) (r : Program cache) (seen : List Event)
    (rest : Runs.Run (step config library) q later r seen)
    (within : ∀ a ∈ later, ∀ m', a.moment = some m' →
      m.steady ≤ m'.steady ∧ m'.steady < m.steady + config.coolOff) :
    ∀ (k : Nat) (c' : ClientCall), p.backends.calls.length ≤ k → r.backends.calls[k]? = some c' →
      c'.session.backend_info.url ≠ c.session.backend_info.url := by
  obtain ⟨cooling,same⟩ := coolingOff_failed (whole_run run) (step_taken taken) completes fails found
  have failed := run.next taken
  have spared : CoolingOff r.frontend.service c.session.backend_info.url (m.steady + config.coolOff) ∧
      ∀ (k : Nat) (c' : ClientCall), p.backends.calls.length ≤ k → r.backends.calls[k]? = some c' →
        c'.session.backend_info.url ≠ c.session.backend_info.url := by
    induction rest with
    | start =>
      refine ⟨cooling,?_⟩
      intro k c' new there
      have inside := (List.getElem?_eq_some_iff.mp there).1
      omega
    | @next before s s' heard told a earlier moved ih =>
      obtain ⟨still,none_yet⟩ := ih fun a' member => within a' (List.mem_append_left [a] member)
      have now_ := within a (by simp)
      have whole := whole_run (failed.append_exec earlier.exec)
      have step := step_taken moved
      refine ⟨coolingOff_step step still fun m' at_ => (now_ m' at_).1,?_⟩
      intro k c' new there
      by_cases old : k < s.backends.calls.length
      · obtain ⟨c'',here,kept⟩ := grows_step whole step k _ (List.getElem?_eq_getElem old)
        obtain rfl := Option.some.inj (there.symm.trans here)
        rw [kept.1]
        exact none_yet k _ new (List.getElem?_eq_getElem old)
      · obtain ⟨req,received,m',at_,reaches⟩ := made_reaches whole step (by omega) there
        intro url
        obtain ⟨deadline,kept,enough⟩ := still
        have tripped : s.frontend.service.breaker.isTripped c'.session.backend_info.url m'.steady = true := by
          rw [Service.isTripped_iff,url]
          exact ⟨deadline,kept,Int.lt_of_lt_of_le (now_ m' at_).2 enough⟩
        rw [reaches.untripped] at tripped
        cases tripped
  exact spared.2

def twoCountries : AppConfig :=
  { usConfig with
    country_backend_map :=
      [(lit "GB",⟨lit "http://gb:9001",lit "gb",9001,false⟩),(lit "US",⟨lit "http://us:9001",lit "us",9001,false⟩)] }

/-- The program before the connection to the backend is refused, and after. -/
def resolvedProgram : Program .everlasting × List Event :=
  (Runs.exec (step twoCountries Service.namedLibrary) (start .everlasting twoCountries)
    (asking ++ [.session 0 (.resolved none) epoch 0])).getD (start .everlasting twoCountries,[])

def refusedProgram : Program .everlasting × List Event :=
  (step twoCountries Service.namedLibrary resolvedProgram.1
    (.session 0 (.connected (some .connection_refused)) epoch 0)).getD (resolvedProgram.1,[])

/-- The connection asks for the company again, and then for one of another country. -/
def retried : List Action :=
  [.frontend (.written 0 none 0),.frontend (.read 0 (.ok companyRequest) 0 true epoch 0),
    .frontend (.written 0 none 0),.frontend (.read 0 (.ok (Service.requestFor (lit "GB"))) 0 true epoch 0)]

theorem failed_backend_spared_retried : ∃ r seen c,
    Runs.Run (step twoCountries Service.namedLibrary) refusedProgram.1 retried r seen ∧
    r.backends.calls[1]? = some c ∧ c.session.backend_info.url ≠ lit "http://us:9001" := by
  have asked : (Runs.exec (step twoCountries Service.namedLibrary) (start .everlasting twoCountries)
      (asking ++ [.session 0 (.resolved none) epoch 0])).isSome = true := by decide +kernel
  have refuses : (step twoCountries Service.namedLibrary resolvedProgram.1
      (.session 0 (.connected (some .connection_refused)) epoch 0)).isSome = true := by decide +kernel
  have refused : step twoCountries Service.namedLibrary resolvedProgram.1
      (.session 0 (.connected (some .connection_refused)) epoch 0) = some (refusedProgram.1,refusedProgram.2) :=
    (Option.getD_of_ne_none (Option.ne_none_iff_isSome.mpr refuses) (resolvedProgram.1,[])).symm
  have executed : (Runs.exec (step twoCountries Service.namedLibrary) refusedProgram.1 retried).isSome = true := by
    decide +kernel
  have rest := Runs.Run.of_isSome executed
  have first : (resolvedProgram.1.backends.calls[0]?.map (·.session.backend_info.url)) = some (lit "http://us:9001") := by
    decide +kernel
  obtain ⟨c,found,url⟩ := Option.map_eq_some_iff.mp first
  have spared := failed_backend_spared twoCountries .everlasting Service.namedLibrary _ _ _ _ _
    (Runs.Run.of_isSome asked) 0 _ epoch 0 .empty (some .connection_refused) (.connect .connection_refused) (.inl rfl)
    refused c found retried _ _ rest (by decide +kernel)
  have second : ((Runs.exec (step twoCountries Service.namedLibrary) refusedProgram.1 retried).getD
      (refusedProgram.1,[])).1.backends.calls[1]?.isSome = true := by decide +kernel
  obtain ⟨c',there⟩ := Option.isSome_iff_exists.mp second
  refine ⟨_,_,c',rest,there,?_⟩
  rw [← url]
  exact spared 1 c' (by decide +kernel) there

end Program
end Facade
