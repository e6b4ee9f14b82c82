import Facade.Cancellation
import Facade.FrontendAnswers
import Facade.ProgramRuns

/-!
What a request gets of the whole program. A company was read from the connection of a
session to the backend of its country (`companies_received`). What a session calls back
settles the request of its call (`callback_delivered`): while it hears nothing nothing
else answers that request (`unanswered_while_silent`), and its first failure does
(`failure_answers`).
-/
namespace Facade.Program
open Strings Http Backendify
open HttpServerSession (dialogue)

variable {cache : CacheInterface} {config : AppConfig} {library : JsonLibrary}

/-! ### Where a company comes from -/

/-- The reply was read on a connection to the backend, of a session that asks for the id. -/
def ReadFrom (p : Program cache) (actions : List Action) (backend : BackendUrlInfo) (id : Bytes) (res : Response)
    (m : Moment) : Prop :=
  ∃ (k : Nat) (c : ClientCall) (ec : Option ErrorCode) (now : Int), p.backends.calls[k]? = some c ∧
    c.session.backend_info = backend ∧ c.session.req = ⟨BACKEND_PATH ++ id,backend.backend_host⟩ ∧
    Action.session k (.received res ec) m now ∈ actions ∧ (ec = none ∨ ec = some .end_of_stream)

/-- The sessions that there are stay what they are. -/
def Grows (p p' : Program cache) : Prop :=
  ∀ (k : Nat) (c : ClientCall), p.backends.calls[k]? = some c → ∃ c', p'.backends.calls[k]? = some c' ∧
    ClientCalls.SameCall c.session c'.session

theorem grows_step {p p' : Program cache} {a : Action} {log out : List Event} (whole : Whole config library p log)
    (taken : Taken config library p a p' out) : Grows p p' := by
  intro k c found
  have steadily {backends : ClientCalls} (steady : ClientCalls.Steady p.backends backends) :
      ∃ c', backends.calls[k]? = some c' ∧ ClientCalls.SameCall c.session c'.session := by
    obtain ⟨c',there,same,_⟩ := steady.calls k c found
    exact ⟨c',there,same⟩
  cases taken with
  | alone | stopping | listing | halting => exact ⟨c,found,rfl,rfl⟩
  | calling a frontend told client req call =>
    refine ⟨c,?_,rfl,rfl⟩
    cases secure : call.backend.is_https with
    | true =>
      rw [ClientCalls.callBackendApi_https secure]
      exact found
    | false =>
      rw [ClientCalls.callBackendApi_plain secure]
      exact (List.getElem?_append_left (List.getElem?_eq_some_iff.mp found).1).trans found
  | working a owner b m now backends out handles _ stepped silent =>
    exact steadily (steady_working whole.kept handles stepped silent)
  | completing a owner b m now backends out res ec frontend told handles _ stepped called =>
    obtain ⟨_,_,same,_⟩ := whole.owned.calledBack whole.kept.unset handles stepped called
    exact same k c found
  | cancelling order id rest backends out _ cancelled => exact steadily (steady_cancelled whole.kept cancelled)

theorem ReadFrom.grow {p p' : Program cache} {actions : List Action} {backend : BackendUrlInfo} {id : Bytes}
    {res : Response} {m : Moment} (read : ReadFrom p actions backend id res m) (grows : Grows p p') (a : Action) :
    ReadFrom p' (actions ++ [a]) backend id res m := by
  obtain ⟨k,c,ec,now,found,info,req,received,fine⟩ := read
  obtain ⟨c',there,same⟩ := grows k c found
  exact ⟨k,c',ec,now,there,same.1.trans info,same.2.trans req,List.mem_append_left [a] received,fine⟩

/-- Only the completion of a call reports a reply. -/
theorem unreplied {f f' : Frontend cache} {a : Frontend.Action} {out : List Frontend.Event}
    (taken : Frontend.step config library f a = some (f',out))
    (other : ∀ position res ec m now, a ≠ .complete position res ec m now) (backend : BackendUrlInfo) (id : Bytes)
    (res : Response) (m : Moment) : Service.Event.replied backend id res m ∉ Frontend.ofService out := by
  cases (Frontend.step_taken taken).1 with
  | listening => simp
  | accepting => simp
  | stopping => simp
  | dispatching => simp
  | moving => simp
  | answering => simp
  | calling => simp
  | completing position res ec m now => exact absurd rfl (other position res ec m now)
  | losing position res ec m now => exact absurd rfl (other position res ec m now)

/-- The reply that a completion reports is the one of the callback, which did not fail. -/
theorem replied_of_complete {s s' : Service cache} {position : Nat} {res : Response} {ec : Option ErrorCode} {m : Moment}
    {told : List Service.Event} {req : Request} {call : BackendCall} (pending : s.calls[position]? = some (req,call))
    (taken : Service.step cache config library s (.complete position res ec m) = some (s',told))
    {backend : BackendUrlInfo} {id : Bytes} {res' : Response} {m' : Moment}
    (replied : Service.Event.replied backend id res' m' ∈ told) :
    failed ec = false ∧ backend = call.backend ∧ id = call.id ∧ res' = res ∧ m' = m := by
  simp only [Service.step,pending] at taken
  cases fails : failed ec with
  | true =>
    simp only [fails,if_true,List.nil_append] at taken
    split at taken
    · cases taken
      simp at replied
    · cases taken
      simp at replied
  | false =>
    simp only [fails,Bool.false_eq_true,if_false] at taken
    split at taken
    · cases taken
      simpa using replied
    · cases taken
      simpa using replied

theorem buildBody_empty (library : JsonLibrary) (id : Bytes) (m : Moment) : buildBody library id .empty m = none := by
  simp [buildBody,CompanyInfo.parseBackendResponse,Response.empty]

section
variable (library)

/-- What made a body was read from a backend. -/
def Received (p : Program cache) (actions : List Action) (log : List Event) : Prop :=
  ∀ backend id res m, Service.Event.replied backend id res m ∈ Frontend.ofService (ofFrontend log) →
    buildBody library id res m ≠ none → ReadFrom p actions backend id res m

end

theorem received_step {p p' : Program cache} {actions : List Action} {a : Action} {log out : List Event}
    (whole : Whole config library p log) (received : Received library p actions log)
    (taken : Taken config library p a p' out) : Received library p' (actions ++ [a]) (log ++ out) := by
  intro backend id res m replied builds
  have grows := grows_step whole taken
  rw [ofFrontend_append,Frontend.ofService_append,List.mem_append] at replied
  rcases replied with old | new
  · exact (received backend id res m old builds).grow grows a
  · cases taken with
    | alone a frontend told alone _ stepped =>
      simp only [ofFrontend_frontend] at new
      exact absurd new (unreplied stepped (not_complete alone) backend id res m)
    | calling a frontend told client req call alone _ stepped =>
      simp only [ofFrontend_append,ofFrontend_frontend,ofFrontend_backend,List.append_nil] at new
      exact absurd new (unreplied stepped (not_complete alone) backend id res m)
    | working | listing | cancelling | halting => simp at new
    | stopping order frontend told _ stopped =>
      simp only [ofFrontend_frontend] at new
      exact absurd new (unreplied stopped (by simp) backend id res m)
    | completing a owner b m' now backends out res' ec frontend told handles _ stepped called completed =>
      obtain ⟨_,_,client,req,call,_,pending,served⟩ := calls_of_complete completed
      simp only [ofFrontend_append,ofFrontend_frontend,ofFrontend_backend,List.nil_append] at new
      obtain ⟨fine,rfl,rfl,rfl,rfl⟩ := replied_of_complete pending served new
      obtain ⟨member,reports,same,_⟩ := whole.owned.calledBack whole.kept.unset handles stepped called
      obtain ⟨req',call',there,serves⟩ := whole.owned.serves _ owner (List.getElem?_idxOf member)
      rw [pending,Option.some.injEq,Prod.mk.injEq] at there
      obtain ⟨rfl,rfl⟩ := there
      have nonempty : res ≠ .empty := by
        rintro rfl
        exact builds (buildBody_empty library call.id m)
      -- a reply that makes a body ends a read
      cases handles with
      | posted => cases reports; exact absurd rfl nonempty
      | session k b m now =>
        obtain ⟨_,c,found,info,asked⟩ := serves
        obtain ⟨c',there,kept⟩ := same k c found
        cases reports with
        | session _ _ _ _ completes =>
          cases completes with
          | resolve => exact absurd rfl nonempty
          | connect => exact absurd rfl nonempty
          | write => exact absurd rfl nonempty
          | read res result =>
            refine ⟨k,c',result,now,there,kept.1.trans info,kept.2.trans asked,by simp,?_⟩
            by_cases closed : result = some .end_of_stream
            · exact .inr closed
            · rw [if_neg closed] at fine
              cases result with
              | none => exact .inl rfl
              | some e => exact absurd (by simpa [failed] using fine) closed

theorem received_run {actions : List Action} {p : Program cache} {log : List Event}
    (run : Runs.Run (step config library) (start cache config) actions p log) : Received library p actions log := by
  induction run with
  | start =>
    intro backend id res m replied
    cases replied
  | next earlier taken ih => exact received_step (whole_run earlier) ih (step_taken taken)

/-- Every company that the service sent is a reply's. -/
theorem sent_genuine (countries : ∀ b ∈ config.country_backend_map, Configuration.IsCountry b.1)
    {requests : List Service.Action} {s : Service cache} {log : List Service.Event}
    (run : Runs.Run (Service.step cache config library) (Service.start cache) requests s log) {req : Request}
    {res : Response} {m : Moment} (sent : Service.Event.sent req (some res) m ∈ log) (ok : res.result = 200)
    (plain : 58 ∉ countryOf req) : Service.Genuine config library log req res.body := by
  induction run with
  | start => cases sent
  | @next before s s' log told a earlier taken ih =>
    rcases List.mem_append.mp sent with old | new
    · exact Frontend.Genuine.append (ih old)
    · have moved := Service.step_taken taken
      refine Service.served_genuine countries (Service.traced_run earlier) moved ?_ (moved.served_of_sent new ok)
      rintro req' received starts m' rfl _
      rcases Frontend.service_request taken with ⟨opt_res,rfl,_⟩ | ⟨call,rfl,_⟩
      · obtain ⟨rfl,_⟩ := Service.Event.sent.inj (List.mem_singleton.mp new)
        exact plain
      · simp at new

/-- A company that the service sends for a request whose country holds no colon was made
    from a reply that a session read from the backend configured for that country, on a
    connection on which it had asked for the id of the request. -/
theorem companies_received (hardware_concurrency : UInt32) (files : Bytes → Option Bytes)
    (startupArguments : OrderedMap Bytes Bytes) (config : AppConfig)
    (loaded : Configuration.loadConfiguration hardware_concurrency files startupArguments = .ok config)
    (positive : 1 ≤ config.max_response_queue_size) (cache : CacheInterface) (library : JsonLibrary)
    (actions : List Action) (p : Program cache) (log : List Event)
    (run : Runs.Run (step config library) (start cache config) actions p log) (req : Request) (res : Response)
    (m : Moment) (sent : Service.Event.sent req (some res) m ∈ Frontend.ofService (ofFrontend log))
    (ok : res.result = 200) (plain : 58 ∉ countryOf req) :
    ∃ backend reply read, config.country_backend_map.find (countryOf req) = some backend ∧ reply.result = 200 ∧
      buildBody library (idOf req) reply read = some (.ok res.body) ∧
      ReadFrom p actions backend (idOf req) reply read := by
  have countries : ∀ b ∈ config.country_backend_map, Configuration.IsCountry b.1 :=
    fun b member => (Configuration.loaded_callable loaded b member).country
  obtain ⟨_,handled⟩ := (whole_run run).frontend
  obtain ⟨_,service⟩ := (Frontend.coherent_run positive handled).1.service
  obtain ⟨⟨backend,configured,reply,read,replied,found,built⟩,_⟩ := sent_genuine countries service sent ok plain
  exact ⟨backend,reply,read,configured,found,built,received_run run backend _ reply read replied (by simp [built])⟩

/-- A company is sent, for a country without a colon. -/
def sendsCompany : Service.Event → Bool
  | .sent req (some res) _ => decide (res.result = 200) && decide (58 ∉ countryOf req)
  | _ => false

theorem companies_received_fetching : ∃ p log,
    Runs.Run (step ClientCalls.oneConfig Service.namedLibrary) (start .everlasting ClientCalls.oneConfig) fetching p log ∧
    ∃ req backend reply read, ClientCalls.oneConfig.country_backend_map.find (countryOf req) = some backend ∧
      ReadFrom p fetching backend (idOf req) reply read := by
  have loaded : Configuration.loadConfiguration 2 (fun _ => none) ClientCalls.oneCountry =
      .ok ClientCalls.oneConfig := rfl
  have executed : (Runs.exec (step ClientCalls.oneConfig Service.namedLibrary)
      (start .everlasting ClientCalls.oneConfig) fetching).isSome = true := by decide +kernel
  have run := Runs.Run.of_isSome executed
  have company : (Frontend.ofService (ofFrontend ((Runs.exec (step ClientCalls.oneConfig Service.namedLibrary)
      (start .everlasting ClientCalls.oneConfig) fetching).getD
        (start .everlasting ClientCalls.oneConfig,[])).2)).any sendsCompany = true := by decide +kernel
  obtain ⟨e,told,sends⟩ := List.any_eq_true.mp company
  cases e with
  | sent req opt_res m =>
    cases opt_res with
    | none => cases sends
    | some res =>
      simp only [sendsCompany,Bool.and_eq_true,decide_eq_true_eq] at sends
      obtain ⟨backend,reply,read,configured,_,_,received⟩ := companies_received 2 (fun _ => none) ClientCalls.oneCountry
        ClientCalls.oneConfig loaded (Configuration.loaded_positive loaded (by decide)) .everlasting
        Service.namedLibrary fetching _ _ run req res m told sends.1 sends.2
      exact ⟨_,_,run,req,backend,reply,read,configured,received⟩
  | called => cases sends
  | replied => cases sends
  | lost => cases sends

/-! ### A silent backend -/

/-- The session owns the call of the client for the request. -/
def Attached (p : Program cache) (id client : Nat) (req : Request) (call : BackendCall) : Prop :=
  ∃ i : Nat, p.owners[i]? = some (.session id) ∧ p.frontend.callers[i]? = some client ∧
    p.frontend.service.calls[i]? = some (req,call)

/-- An action of the session that is none of its socket's, and none of its resolver's. -/
def Silent (id : Nat) (a : Action) : Prop := ∀ b m now, a = .session id b m now → b = .expire ∨ b = .timeout

/-- Only what the session hears ends its call. -/
theorem attached_step {p p' : Program cache} {a : Action} {log out : List Event} (whole : Whole config library p log)
    (taken : Taken config library p a p' out) {id client : Nat} {req : Request} {call : BackendCall}
    (silent : Silent id a) (attached : Attached p id client req call) : Attached p' id client req call := by
  obtain ⟨i,owner,caller,pending⟩ := attached
  cases taken with
  | alone a frontend told _ _ _ calls callers =>
    exact ⟨i,owner,by rw [callers]; exact caller,by rw [calls]; exact pending⟩
  | calling a frontend told client' req' call' _ _ _ calls callers =>
    have there {α : Type} {l : List α} {x : α} (found : l[i]? = some x) (y : α) : (l ++ [y])[i]? = some x :=
      (List.getElem?_append_left (List.getElem?_eq_some_iff.mp found).1).trans found
    exact ⟨i,there owner _,by rw [callers]; exact there caller _,by rw [calls]; exact there pending _⟩
  | working | listing | cancelling | halting => exact ⟨i,owner,caller,pending⟩
  | stopping order frontend told _ stopped =>
    obtain ⟨service,callers,_⟩ := calls_of_stop stopped
    exact ⟨i,owner,by rw [callers]; exact caller,by rw [service]; exact pending⟩
  | completing a other b m now backends out res ec frontend told handles _ stepped called completed =>
    obtain ⟨calls,callers,_⟩ := calls_of_complete completed
    obtain ⟨member,reports,_⟩ := whole.owned.calledBack whole.kept.unset handles stepped called
    have different : other ≠ .session id := by
      rintro rfl
      cases handles with
      | session _ b m now =>
        cases reports with
        | session _ _ _ _ completes => rcases silent b m now rfl with rfl | rfl <;> cases completes
    have apart : i ≠ p.owners.idxOf other := by
      rintro rfl
      exact different (Option.some.inj ((List.getElem?_idxOf member).symm.trans owner))
    refine ⟨if i < p.owners.idxOf other then i else i - 1,(eraseIdx_others apart).trans owner,?_,?_⟩
    · rw [callers]
      exact (eraseIdx_others apart).trans caller
    · rw [calls]
      exact (eraseIdx_others apart).trans pending

theorem attached_run {actions later : List Action} {p q : Program cache} {log seen : List Event}
    (run : Runs.Run (step config library) (start cache config) actions p log)
    (rest : Runs.Run (step config library) p later q seen) {id client : Nat} {req : Request} {call : BackendCall}
    (silent : ∀ a ∈ later, Silent id a) (attached : Attached p id client req call) :
    Attached q id client req call := by
  induction rest with
  | start => exact attached
  | @next before s s' heard out a earlier taken ih =>
    have until_ := whole_run (run.append_exec earlier.exec)
    refine attached_step until_ (step_taken taken) (silent a (by simp)) (ih ?_)
    intro b member
    exact silent b (List.mem_append_left [a] member)

/-- The connection of an attached call waits. -/
theorem Attached.waits (positive : 1 ≤ config.max_response_queue_size) {actions : List Action} {p : Program cache}
    {log : List Event} (run : Runs.Run (step config library) (start cache config) actions p log) {id client : Nat}
    {req : Request} {call : BackendCall} (attached : Attached p id client req call) :
    (dialogue (Frontend.ofSession client (ofFrontend log))).pending = some req ∧ p.backends.InFlight id := by
  obtain ⟨i,owner,caller,pending⟩ := attached
  have whole := whole_run run
  obtain ⟨_,handled⟩ := whole.frontend
  obtain ⟨c,req',call',_,_,there,waits⟩ := (Frontend.coherent_run positive handled).2.waiting i client caller
  rw [pending,Option.some.injEq,Prod.mk.injEq] at there
  obtain ⟨rfl,rfl⟩ := there
  exact ⟨waits,(whole.owned.sessions id).mp (List.mem_of_getElem? owner)⟩

/-- As long as the resolver and the socket of a session tell nothing, the connection whose
    call it serves waits for the answer to its request: not when the timer of the session
    expires and is handled, nor on a signal, nor with anything that other sessions, other
    connections or the server do. -/
theorem unanswered_while_silent (config : AppConfig) (positive : 1 ≤ config.max_response_queue_size)
    (cache : CacheInterface) (library : JsonLibrary) (actions : List Action) (p : Program cache) (log : List Event)
    (run : Runs.Run (step config library) (start cache config) actions p log) (i id client : Nat)
    (owner : p.owners[i]? = some (.session id)) (caller : p.frontend.callers[i]? = some client)
    (later : List Action) (q : Program cache) (seen : List Event)
    (rest : Runs.Run (step config library) p later q seen) (silent : ∀ a ∈ later, Silent id a) :
    ∃ req, (dialogue (Frontend.ofSession client (ofFrontend log))).pending = some req ∧
      (dialogue (Frontend.ofSession client (ofFrontend (log ++ seen)))).pending = some req ∧
      p.backends.InFlight id ∧ q.backends.InFlight id := by
  obtain ⟨req,call,pending,_⟩ := (whole_run run).owned.serves i _ owner
  have attached : Attached p id client req call := ⟨i,owner,caller,pending⟩
  have first := attached.waits positive run
  have last := (attached_run run rest silent attached).waits positive (run.append_exec rest.exec)
  exact ⟨req,first.1,last.1,first.2,last.2⟩

/-! ### A callback -/

/-- What becomes of a request whose call has completed: its connection gets the response, or
    an exception left the handler, which ends a thread and tells the connection nothing. -/
inductive Settles (f f' : Frontend cache) (log out : List Frontend.Event) (client : Nat) (req : Request) :
    Except Exception Response → Prop
  | answered (r : Response) : f'.threads = f.threads →
      dialogue (Frontend.ofSession client (log ++ out)) =
        ⟨none,(dialogue (Frontend.ofSession client log)).answered ++ [(req,some r)]⟩ →
      Settles f f' log out client req (.ok r)
  | lost (e : Exception) : f'.threads + 1 = f.threads → Frontend.ofSession client out = [] →
      Settles f f' log out client req (.error e)

/-- A completion settles the request of its call, and no other connection is told anything. -/
theorem complete_settles {f f' : Frontend cache} {log out : List Frontend.Event}
    (parts : Frontend.Parts config library f log) (matched : Frontend.Matched f log)
    (positive : 1 ≤ config.max_response_queue_size) {position client : Nat} {req : Request} {call : BackendCall}
    (caller : f.callers[position]? = some client) (pending : f.service.calls[position]? = some (req,call))
    {res : Response} {ec : Option ErrorCode} {m : Moment} {now : Int}
    (taken : Frontend.step config library f (.complete position res ec m now) = some (f',out)) :
    ∃ result store breaker,
      on_backend_complete cache config library call res ec m f.service.store f.service.breaker = (result,store,breaker) ∧
      f'.service = ⟨store,breaker,f.service.calls.eraseIdx position⟩ ∧ Settles f f' log out client req result ∧
      ∀ other, other ≠ client → Frontend.ofSession other out = [] := by
  obtain ⟨running,moved⟩ : f.threads ≠ 0 ∧ Frontend.complete config library position res ec m now f = some (f',out) := by
    simpa [Frontend.step,Frontend.Action.isHandler,Frontend.move] using taken
  rcases made : on_backend_complete cache config library call res ec m f.service.store f.service.breaker with
    ⟨result,store,breaker⟩
  refine ⟨result,store,breaker,rfl,?_⟩
  obtain ⟨replied,shape,heard⟩ : ∃ replied,
      (replied = [] ∨ replied = [Service.Event.replied call.backend call.id res m]) ∧
      replied = if failed ec then [] else [Service.Event.replied call.backend call.id res m] := by
    refine ⟨_,?_,rfl⟩
    cases failed ec with
    | true => exact .inl rfl
    | false => exact .inr rfl
  cases result with
  | ok r =>
    have served : Service.step cache config library f.service (.complete position res ec m) =
        some (⟨store,breaker,f.service.calls.eraseIdx position⟩,replied ++ [.sent req (some r) m]) := by
      simp only [Service.step,pending,made,heard]
    simp only [Frontend.complete,caller,served,Frontend.answerOf_sent shape,Option.some.injEq,Prod.mk.injEq] at moved
    obtain ⟨rfl,rfl⟩ := moved
    obtain ⟨c,s,told,found,dispatched,waits,answered,after,said⟩ :=
      parts.completes positive matched caller pending (Prod.eta (Frontend.respond client (some r) now
        { f with
          service := ⟨store,breaker,f.service.calls.eraseIdx position⟩
          callers := f.callers.eraseIdx position })).symm
    rw [after,said]
    refine ⟨rfl,.answered r rfl ?_,?_⟩
    · obtain ⟨req',waiting,ended⟩ := (parts.continues positive found dispatched answered).ends
      rw [waits,Option.some.injEq] at waiting
      rw [waiting]
      simpa using ended
    · intro other apart
      rw [Frontend.ofSession_append,Frontend.ofSession_service,Frontend.ofSession_other client apart,List.append_nil]
  | error e =>
    have served : Service.step cache config library f.service (.complete position res ec m) =
        some (⟨store,breaker,f.service.calls.eraseIdx position⟩,replied ++ [.lost req e]) := by
      simp only [Service.step,pending,made,heard]
    simp only [Frontend.complete,caller,served,Frontend.answerOf_lost shape,Option.some.injEq,Prod.mk.injEq] at moved
    obtain ⟨rfl,rfl⟩ := moved
    have unsaid : ∀ id, Frontend.ofSession id ((replied ++ [Service.Event.lost req e]).map .service) = [] :=
      fun id => Frontend.ofSession_service id _
    exact ⟨rfl,.lost e (Nat.sub_add_cancel (Nat.pos_of_ne_zero running)) (unsaid client),fun other _ => unsaid other⟩

/-- What is called back in a step comes from a handler of the backends. -/
theorem calledBack_handles {p q : Program cache} {a : Action} {log : List ClientCalls.Event} {out : List Event}
    {res : Response} {ec : Option ErrorCode} (kept : ClientCalls.Kept p.backends log)
    (taken : Taken config library p a q out) (called : ClientCalls.callbackOf (ofBackend out) = some (res,ec)) :
    ∃ owner b m now backends heard told, Handles a owner b m now ∧
      ClientCalls.step config p.backends b = some (backends,heard) ∧ ClientCalls.callbackOf heard = some (res,ec) ∧
      Frontend.step config library p.frontend (.complete (p.owners.idxOf owner) res ec m now) =
        some (q.frontend,told) ∧ ofFrontend out = told := by
  cases taken with
  | alone a frontend told => simp [ClientCalls.callbackOf] at called
  | calling a frontend told client req call =>
    simp only [ofBackend_append,ofBackend_frontend,ofBackend_backend,List.nil_append] at called
    cases secure : call.backend.is_https with
    | true => simp [ClientCalls.callBackendApi_https secure,ClientCalls.callbackOf] at called
    | false => simp [ClientCalls.callBackendApi_plain secure,ClientCalls.callbackOf] at called
  | working a owner b m now backends heard handles _ stepped silent => simp [silent] at called
  | completing a owner b m now backends heard res' ec' frontend told handles _ stepped back completed =>
    have same : ClientCalls.callbackOf heard = some (res,ec) := by simpa using called
    obtain ⟨rfl,rfl⟩ := Prod.mk.inj (Option.some.inj (back.symm.trans same))
    exact ⟨owner,b,m,now,backends,heard,told,handles,stepped,back,completed,by simp⟩
  | cancelling order id rest backends heard _ cancelled =>
    simp [(ClientCalls.advance_cancel kept.unset cancelled).2] at called
  | stopping | listing | halting => simp [ClientCalls.callbackOf] at called

/-- Whatever is called back to the service, in any interleaving, settles the request of one
    call: the one whose owner called back. Its connection waited with that request and gets
    what the handler makes of the reply, or an exception of the handler ends a thread; the
    cache and the breaker are left as the handler leaves them, the call is over, and no other
    connection is told anything. -/
theorem callback_delivered (config : AppConfig) (positive : 1 ≤ config.max_response_queue_size) (cache : CacheInterface)
    (library : JsonLibrary) (actions : List Action) (p q : Program cache) (log out : List Event)
    (run : Runs.Run (step config library) (start cache config) actions p log) (a : Action)
    (taken : step config library p a = some (q,out)) (res : Response) (ec : Option ErrorCode)
    (called : ClientCalls.callbackOf (ofBackend out) = some (res,ec)) :
    ∃ i owner b m now client req call result store breaker, Handles a owner b m now ∧ Reports b res ec ∧
      p.owners[i]? = some owner ∧ Serves p.backends call owner ∧
      p.frontend.callers[i]? = some client ∧ p.frontend.service.calls[i]? = some (req,call) ∧
      (dialogue (Frontend.ofSession client (ofFrontend log))).pending = some req ∧
      on_backend_complete cache config library call res ec m p.frontend.service.store p.frontend.service.breaker =
        (result,store,breaker) ∧
      q.frontend.service = ⟨store,breaker,p.frontend.service.calls.eraseIdx i⟩ ∧
      Settles p.frontend q.frontend (ofFrontend log) (ofFrontend out) client req result ∧
      ∀ other, other ≠ client → Frontend.ofSession other (ofFrontend out) = [] := by
  have whole := whole_run run
  obtain ⟨_,handled⟩ := whole.frontend
  obtain ⟨parts,matched⟩ := Frontend.coherent_run positive handled
  obtain ⟨owner,b,m,now,backends,heard,told,handles,stepped,back,completed,same⟩ :=
    calledBack_handles whole.kept (step_taken taken) called
  obtain ⟨member,reports,_⟩ := whole.owned.calledBack whole.kept.unset handles stepped back
  have place := List.getElem?_idxOf member
  obtain ⟨req,call,pending,serves⟩ := whole.owned.serves _ owner place
  have inside : p.owners.idxOf owner < p.frontend.callers.length := by
    rw [whole.owned.callers]
    exact List.idxOf_lt_length_of_mem member
  have caller := List.getElem?_eq_getElem inside
  obtain ⟨_,req',call',_,_,there,waits⟩ := matched.waiting _ _ caller
  obtain ⟨rfl,rfl⟩ := Prod.mk.inj (Option.some.inj (pending.symm.trans there))
  obtain ⟨result,store,breaker,made,service,settles,others⟩ :=
    complete_settles parts matched positive caller pending completed
  exact ⟨_,owner,b,m,now,_,req,call,result,store,breaker,handles,reports,place,serves,caller,pending,waits,made,service,
    same ▸ settles,same ▸ others⟩

/-- The program once a connection has asked, and its session has asked the backend. -/
def awaitingProgram : Program .everlasting × List Event :=
  (Runs.exec (step usConfig Service.namedLibrary) (start .everlasting usConfig) (fetching.take 7)).getD
    (start .everlasting usConfig,[])

theorem callback_delivered_fetching : ∃ q out client req result,
    step usConfig Service.namedLibrary awaitingProgram.1 (.session 0 (.received Service.namedReply none) epoch 0) =
      some (q,out) ∧
    Settles awaitingProgram.1.frontend q.frontend (ofFrontend awaitingProgram.2) (ofFrontend out) client req result := by
  have run : Runs.Run (step usConfig Service.namedLibrary) (start .everlasting usConfig) (fetching.take 7)
      awaitingProgram.1 awaitingProgram.2 := Runs.Run.of_isSome (by decide +kernel)
  have heard : ((step usConfig Service.namedLibrary awaitingProgram.1
      (.session 0 (.received Service.namedReply none) epoch 0)).bind fun r => ClientCalls.callbackOf (ofBackend r.2)) =
        some (Service.namedReply,none) := by decide +kernel
  obtain ⟨⟨q,out⟩,taken,called⟩ := Option.bind_eq_some_iff.mp heard
  obtain ⟨_,_,_,_,_,client,req,_,result,_,_,_,_,_,_,_,_,_,_,_,settles,_⟩ := callback_delivered usConfig (by decide)
    .everlasting Service.namedLibrary _ _ q _ out run _ taken _ _ called
  exact ⟨q,out,client,req,result,taken,settles⟩

/-! ### A failure -/

/-- What a request gets when its call fails. -/
def unreachable (call : BackendCall) : Response :=
  reply call.beast_res_cb 504 (errorBody (lit "Gateway Timeout - Backend Unreachable"))

/-- A call that fails answers the connection that waits for it. -/
theorem complete_failed {f f' : Frontend cache} {log out : List Frontend.Event}
    (parts : Frontend.Parts config library f log) (matched : Frontend.Matched f log)
    (positive : 1 ≤ config.max_response_queue_size) {position client : Nat} {req : Request} {call : BackendCall}
    (caller : f.callers[position]? = some client) (pending : f.service.calls[position]? = some (req,call))
    {res : Response} {ec : Option ErrorCode} (fails : failed ec = true) {m : Moment} {now : Int}
    (taken : Frontend.step config library f (.complete position res ec m now) = some (f',out)) :
    dialogue (Frontend.ofSession client (log ++ out)) =
      ⟨none,(dialogue (Frontend.ofSession client log)).answered ++ [(req,some (unreachable call))]⟩ := by
  obtain ⟨result,store,breaker,made,_,settles,_⟩ := complete_settles parts matched positive caller pending taken
  simp only [on_backend_complete,fails,if_true,Prod.mk.injEq] at made
  obtain ⟨rfl,_⟩ := made
  cases settles with
  | answered _ _ ended => exact ended

/-- The operation in flight may always fail. -/
theorem session_fails {s : AsyncHttpClientSession} {phase : Phase} (running : s.pending = some phase) (res : Response)
    {e : ErrorCode} (other : e ≠ .end_of_stream) : ∃ s' res',
    AsyncHttpClientSession.step s (CallInFlight.actionFor phase res (some e)) = some (s',[.completed res' (some e)]) := by
  have delivered (handler : AsyncHttpClientSession → AsyncHttpClientSession × List AsyncHttpClientSession.Event) :
      AsyncHttpClientSession.deliver phase (some e) handler s = some (handler { s with pending := none, aborted := false }) := by
    simp [AsyncHttpClientSession.deliver,running]
  cases phase with
  | resolve => exact ⟨_,.empty,delivered (AsyncHttpClientSession.on_resolve (some e))⟩
  | connect => exact ⟨_,.empty,delivered (AsyncHttpClientSession.on_connect (some e))⟩
  | write => exact ⟨_,.empty,delivered (AsyncHttpClientSession.on_write (some e))⟩
  | read =>
    have reported : AsyncHttpClientSession.on_read res (some e) { s with pending := none, aborted := false } =
        (AsyncHttpClientSession.cancelTimer { s with pending := none, aborted := false },[.completed res (some e)]) := by
      simp [AsyncHttpClientSession.on_read,AsyncHttpClientSession.complete,other]
    exact ⟨_,res,(delivered (AsyncHttpClientSession.on_read res (some e))).trans (congrArg some reported)⟩

/-- The operation in flight of a session fails with the error, or what was posted runs. -/
inductive FailsWith (p : Program cache) (res : Response) (e : ErrorCode) : Owner → ClientCalls.Action → Prop
  | session (id : Nat) (c : ClientCall) (phase : Phase) : p.backends.calls[id]? = some c →
      c.session.pending = some phase →
      FailsWith p res e (.session id) (.session id (CallInFlight.actionFor phase res (some e)))
  | posted : FailsWith p res e .posted .runPosted

/-- The failure calls back with an error. -/
theorem FailsWith.calledBack {p : Program cache} (owned : Owned p)
    (unset : ∀ call ∈ p.backends.calls, call.session_to_remove_on_complete = none) {res : Response} {e : ErrorCode}
    {owner : Owner} {b : ClientCalls.Action} (fails : FailsWith p res e owner b) (member : owner ∈ p.owners)
    (other : e ≠ .end_of_stream) : ∃ backends out res' ec, ClientCalls.step config p.backends b = some (backends,out) ∧
      ClientCalls.callbackOf out = some (res',ec) ∧ failed ec = true := by
  cases fails with
  | session id c phase found running =>
    obtain ⟨s,res',stepped⟩ := session_fails running res other
    have free := unset c (List.mem_of_getElem? found)
    have uncancelled : CallInFlight.actionFor phase res (some e) ≠ .cancel := by
      cases phase <;> simp [CallInFlight.actionFor]
    have advanced : ClientCalls.advance id (CallInFlight.actionFor phase res (some e)) p.backends =
        some ({ p.backends with calls := p.backends.calls.set id { c with session := s } },
          [.session id (.completed res' (some e)),.callback res' (some e)]) := by
      simp only [ClientCalls.advance,found,stepped,Option.bind_eq_bind,Option.bind_some,ClientCalls.relay,
        ClientCalls.on_complete,free,List.append_nil]
    have same : ClientCalls.step config p.backends (.session id (CallInFlight.actionFor phase res (some e))) =
        ClientCalls.advance id (CallInFlight.actionFor phase res (some e)) p.backends := by
      simp only [ClientCalls.step,uncancelled,if_false]
    exact ⟨_,_,res',some e,same.trans advanced,rfl,by simp [failed,other]⟩
  | posted =>
    obtain ⟨rest,_,queued⟩ := owned.posted_cons member
    have ran : ClientCalls.step config p.backends .runPosted =
        some ({ p.backends with posted := List.replicate rest .operation_not_supported },
          [.callback .empty (some .operation_not_supported)]) := by
      simp only [ClientCalls.step,queued]
    exact ⟨_,_,.empty,some .operation_not_supported,ran,rfl,by simp [failed]⟩

/-- While the handlers run, the first failure of the operation in flight of a session answers
    the connection whose call it serves, and so does a posted callback when it runs: with 504. -/
theorem failure_answers (config : AppConfig) (positive : 1 ≤ config.max_response_queue_size) (cache : CacheInterface)
    (library : JsonLibrary) (actions : List Action) (p : Program cache) (log : List Event)
    (run : Runs.Run (step config library) (start cache config) actions p log) (running : Running p) (owner : Owner)
    (member : owner ∈ p.owners) (client : Nat) (caller : p.frontend.callers[p.owners.idxOf owner]? = some client)
    (res : Response) (e : ErrorCode) (other : e ≠ .end_of_stream) (a : Action) (b : ClientCalls.Action) (m : Moment)
    (now : Int) (fails : FailsWith p res e owner b) (handles : Handles a owner b m now) :
    ∃ q out req call, step config library p a = some (q,out) ∧
      p.frontend.service.calls[p.owners.idxOf owner]? = some (req,call) ∧
      (dialogue (Frontend.ofSession client (ofFrontend log))).pending = some req ∧
      dialogue (Frontend.ofSession client (ofFrontend (log ++ out))) =
        ⟨none,(dialogue (Frontend.ofSession client (ofFrontend log))).answered ++ [(req,some (unreachable call))]⟩ := by
  have whole := whole_run run
  obtain ⟨_,handled⟩ := whole.frontend
  obtain ⟨parts,matched⟩ := Frontend.coherent_run positive handled
  obtain ⟨backends,heard,res',ec,stepped,called,failing⟩ :
      ∃ backends out res' ec, ClientCalls.step config p.backends b = some (backends,out) ∧
        ClientCalls.callbackOf out = some (res',ec) ∧ failed ec = true :=
    fails.calledBack whole.owned whole.kept.unset member other
  obtain ⟨c,req,call,_,_,pending,waits⟩ := matched.waiting _ client caller
  have progress : (Frontend.step config library p.frontend
      (.complete (p.owners.idxOf owner) res' ec m now)).isSome = true :=
    complete_progress running.threads caller pending res' ec m now
  obtain ⟨⟨frontend,told⟩,completed⟩ := Option.isSome_iff_exists.mp progress
  have answered := complete_failed parts matched positive caller pending failing completed
  have delivered : deliver config library owner b m now p = some
      ({ p with frontend := frontend, backends := backends, owners := p.owners.eraseIdx (p.owners.idxOf owner) },
        heard.map .backend ++ told.map .frontend) := by
    simp only [deliver,stepped,called,completed,Option.map_some]
  have taken : step config library p a = deliver config library owner b m now p := by
    cases handles with
    | session id b m now => simp only [step,running,or_true,if_true]
    | posted m now => simp only [step,running,if_true]
  exact ⟨_,_,req,call,taken.trans delivered,pending,waits,by simpa using answered⟩

/-- The program once a connection has asked for a company. -/
def askingProgram : Program .everlasting × List Event :=
  (Runs.exec (step usConfig Service.namedLibrary) (start .everlasting usConfig) asking).getD
    (start .everlasting usConfig,[])

theorem asking_run : Runs.Run (step usConfig Service.namedLibrary) (start .everlasting usConfig) asking askingProgram.1
    askingProgram.2 := Runs.Run.of_isSome (by decide +kernel)

/-- A signal is handled: the server stops, the session is cancelled, and `ioc.stop()` is called. -/
def signalled : List Action := [.signal [],.signal [0],.signal [],.signal []]

/-- The name is never resolved, the timer expires, and at last a signal arrives. -/
def unresolved : List Action := [.session 0 .expire epoch 0,.session 0 .timeout epoch 0] ++ signalled

theorem unanswered_while_silent_unresolved : ∃ q seen,
    Runs.Run (step usConfig Service.namedLibrary) askingProgram.1 unresolved q seen ∧ ∃ req,
      (dialogue (Frontend.ofSession 0 (ofFrontend (askingProgram.2 ++ seen)))).pending = some req := by
  have executed : (Runs.exec (step usConfig Service.namedLibrary) askingProgram.1 unresolved).isSome = true := by
    decide +kernel
  have rest := Runs.Run.of_isSome executed
  obtain ⟨req,_,waits,_⟩ := unanswered_while_silent usConfig (by decide) .everlasting Service.namedLibrary asking _ _
    asking_run 0 0 0 (by decide +kernel) (by decide +kernel) unresolved _ _ rest
    (by simp [unresolved,signalled,Silent])
  exact ⟨_,_,rest,req,waits⟩

theorem failure_answers_unresolved : ∃ q out req call,
    step usConfig Service.namedLibrary askingProgram.1 (.session 0 (.resolved (some (.other 1))) epoch 0) = some (q,out) ∧
    dialogue (Frontend.ofSession 0 (ofFrontend (askingProgram.2 ++ out))) =
      ⟨none,(dialogue (Frontend.ofSession 0 (ofFrontend askingProgram.2))).answered ++
        [(req,some (unreachable call))]⟩ := by
  have resolving : (askingProgram.1.backends.calls[0]?.bind (·.session.pending)) = some .resolve := by decide +kernel
  obtain ⟨c,found,running⟩ := Option.bind_eq_some_iff.mp resolving
  obtain ⟨q,out,req,call,taken,_,_,answered⟩ := failure_answers usConfig (by decide) .everlasting Service.namedLibrary
    asking _ _ asking_run (by decide +kernel) (.session 0) (by decide +kernel) 0 (by decide +kernel) .empty (.other 1)
    (by decide) _ _ epoch 0 (.session 0 c .resolve found running) (.session 0 _ epoch 0)
  exact ⟨q,out,req,call,taken,answered⟩

end Facade.Program
