import Facade.Program

/-!
Runs of the whole program. Each call that the service waits for has an owner of its
own that will call back: a session in flight to the backend of the request's country,
or what was posted (`calls_owned`). So no callback is without its call, and a run of
the program is a run of the server and one of the sessions to the backends
(`program_projects`).
-/
namespace Facade
open Strings Http Backendify

namespace ClientCalls

/-- The session of a call is in flight. -/
def InFlight (p : ClientCalls) (id : Nat) : Prop := ∃ call, p.calls[id]? = some call ∧ call.session.pending ≠ none

/-- What is in flight, what it calls and what was posted stay the same. -/
structure Steady (p p' : ClientCalls) : Prop where
  posted : p'.posted = p.posted
  length : p'.calls.length = p.calls.length
  calls : ∀ (id : Nat) (call : ClientCall), p.calls[id]? = some call → ∃ call', p'.calls[id]? = some call' ∧
    SameCall call.session call'.session ∧ (call'.session.pending = none ↔ call.session.pending = none)

theorem Steady.refl (p : ClientCalls) : Steady p p :=
  ⟨rfl,rfl,fun _ call found => ⟨call,found,⟨rfl,rfl⟩,Iff.rfl⟩⟩

theorem Steady.trans {p q r : ClientCalls} (first : Steady p q) (second : Steady q r) : Steady p r := by
  refine ⟨second.posted.trans first.posted,second.length.trans first.length,?_⟩
  intro id call found
  obtain ⟨call',there,same,open_⟩ := first.calls id call found
  obtain ⟨call'',last,same',open'⟩ := second.calls id call' there
  exact ⟨call'',last,⟨same'.1.trans same.1,same'.2.trans same.2⟩,open'.trans open_⟩

theorem Steady.inFlight {p p' : ClientCalls} (steady : Steady p p') (id : Nat) : p'.InFlight id ↔ p.InFlight id := by
  constructor
  · rintro ⟨call',found,running⟩
    have inside : id < p.calls.length := by
      rw [← steady.length]
      exact (List.getElem?_eq_some_iff.mp found).1
    obtain ⟨other,there,_,open_⟩ := steady.calls id _ (List.getElem?_eq_getElem inside)
    obtain rfl := Option.some.inj (found.symm.trans there)
    exact ⟨_,List.getElem?_eq_getElem inside,fun idle => running (open_.mpr idle)⟩
  · rintro ⟨call,found,running⟩
    obtain ⟨call',there,_,open_⟩ := steady.calls id call found
    exact ⟨call',there,fun idle => running (open_.mp idle)⟩

variable {p p' : ClientCalls} {id : Nat} {a : AsyncHttpClientSession.Action} {out : List Event}

/-- A session that moves on leaves the others alone. -/
theorem steady_set {call : ClientCall} {s : AsyncHttpClientSession} (found : p.calls[id]? = some call)
    (same : SameCall call.session s) (open_ : s.pending = none ↔ call.session.pending = none) :
    Steady p { p with calls := p.calls.set id { call with session := s } } := by
  obtain ⟨inside,_⟩ := List.getElem?_eq_some_iff.mp found
  refine ⟨rfl,List.length_set,?_⟩
  intro other call' there
  by_cases here : other = id
  · subst here
    obtain rfl := Option.some.inj (found.symm.trans there)
    exact ⟨{ call with session := s },by simp [inside],same,open_⟩
  · exact ⟨call',by rw [List.getElem?_set_ne (Ne.symm here)]; exact there,⟨rfl,rfl⟩,Iff.rfl⟩

/-- A session that ends is not in flight any more, and leaves the others alone. -/
theorem ended_set {call : ClientCall} {s : AsyncHttpClientSession} (found : p.calls[id]? = some call)
    (same : SameCall call.session s) (ended : s.pending = none)
    (moved : p' = { p with calls := p.calls.set id { call with session := s } }) :
    (∀ (other : Nat) (call' : ClientCall), p.calls[other]? = some call' → ∃ call'', p'.calls[other]? = some call'' ∧
      SameCall call'.session call''.session) ∧
    ∀ other, p'.InFlight other ↔ p.InFlight other ∧ id ≠ other := by
  obtain ⟨inside,_⟩ := List.getElem?_eq_some_iff.mp found
  have own : p'.calls[id]? = some { call with session := s } := by simp [moved,inside]
  have others : ∀ other, id ≠ other → p'.calls[other]? = p.calls[other]? := by
    intro other apart
    rw [moved]
    exact List.getElem?_set_ne apart
  refine ⟨?_,?_⟩
  · intro other call' there
    by_cases here : id = other
    · subst here
      obtain rfl := Option.some.inj (found.symm.trans there)
      exact ⟨_,own,same⟩
    · exact ⟨call',(others other here).trans there,rfl,rfl⟩
  · intro other
    by_cases here : id = other
    · subst here
      simp only [ne_eq,not_true_eq_false,and_false,iff_false]
      rintro ⟨call',there,running⟩
      obtain rfl := Option.some.inj (own.symm.trans there)
      exact running ended
    · simp only [InFlight,others other here,ne_eq,here,not_false_eq_true,and_true]

/-- What is not called back leaves everything in flight. -/
theorem Advanced.steady (advanced : Advanced p id a p' out) (silent : callbackOf out = none) : Steady p p' := by
  cases advanced with
  | going call s out found _ open_ same moved _ =>
    rw [moved]
    exact steady_set found same open_
  | done => cases silent

theorem advance_cancel (unset : ∀ call ∈ p.calls, call.session_to_remove_on_complete = none)
    (taken : advance id .cancel p = some (p',out)) : Steady p p' ∧ callbackOf out = none := by
  cases advance_advanced unset taken with
  | going call s out found _ open_ same moved silent =>
    rw [moved]
    exact ⟨steady_set found same open_,silent⟩
  | done call s res ec _ completes => cases completes

/-- A session that is cancelled is closed. -/
theorem cancel_closes (taken : advance id .cancel p = some (p',out)) : Event.session id .closed ∈ out := by
  simp only [advance,AsyncHttpClientSession.step,AsyncHttpClientSession.cancel,AsyncHttpClientSession.close,
    Option.bind_eq_bind,Option.bind_eq_some_iff,Option.some.injEq,Prod.exists,Prod.mk.injEq] at taken
  obtain ⟨_,_,_,_,⟨_,rfl⟩,_,rfl⟩ := taken
  exact List.mem_cons_self

/-- What `callBackendApi` does for a backend that it supports, and for one with https. -/
theorem callBackendApi_plain {info : BackendUrlInfo} (plain : info.is_https = false) (config : AppConfig)
    (company_id : Bytes) (p : ClientCalls) :
    callBackendApi config (some info) company_id p =
      ({ p with
         calls := p.calls ++
           [⟨AsyncHttpClientSession.launched info (BACKEND_PATH ++ company_id) (timeout_ms config),none⟩]
         active_client_sessions := insert p.calls.length p.active_client_sessions },
        [.started p.calls.length,.session p.calls.length (.started .resolve)]) := by
  simp only [callBackendApi,plain,Bool.false_eq_true,if_false]
  rfl

theorem callBackendApi_https {info : BackendUrlInfo} (secure : info.is_https = true) (config : AppConfig)
    (company_id : Bytes) (p : ClientCalls) :
    callBackendApi config (some info) company_id p =
      ({ p with posted := p.posted ++ [.operation_not_supported] },[]) := by
  simp only [callBackendApi,secure,if_true]

theorem inFlight_append (call : ClientCall) (running : call.session.pending ≠ none) (active : Finset Nat)
    (posted : List ErrorCode) (id : Nat) :
    InFlight ⟨p.calls ++ [call],active,posted⟩ id ↔ p.InFlight id ∨ id = p.calls.length := by
  constructor
  · rintro ⟨found,there,open_⟩
    rw [List.getElem?_append] at there
    split at there
    · exact .inl ⟨found,there,open_⟩
    · have last := (List.getElem?_eq_some_iff.mp there).1
      simp only [List.length_singleton] at last
      exact .inr (by omega)
  · rintro (⟨found,there,open_⟩ | rfl)
    · refine ⟨found,?_,open_⟩
      rw [List.getElem?_append_left (List.getElem?_eq_some_iff.mp there).1]
      exact there
    · exact ⟨call,by simp,running⟩

end ClientCalls

namespace Program
open HttpServerSession (dialogue)

/-- The owner asks the backend of the call for its id; the backends with https are not asked. -/
def Serves (backends : ClientCalls) (call : BackendCall) : Owner → Prop
  | .session id => call.backend.is_https = false ∧ ∃ c, backends.calls[id]? = some c ∧
      c.session.backend_info = call.backend ∧ c.session.req = ⟨BACKEND_PATH ++ call.id,call.backend.backend_host⟩
  | .posted => call.backend.is_https = true

/-- Each call has its owner, and each session in flight and each posted callback its call. -/
structure Owned {cache : CacheInterface} (p : Program cache) : Prop where
  aligned : p.owners.length = p.frontend.service.calls.length
  callers : p.frontend.callers.length = p.owners.length
  sessions : ∀ id, Owner.session id ∈ p.owners ↔ p.backends.InFlight id
  once : ∀ id, p.owners.count (.session id) ≤ 1
  posted : p.backends.posted = List.replicate (p.owners.count .posted) .operation_not_supported
  serves : ∀ (i : Nat) (owner : Owner), p.owners[i]? = some owner → ∃ req call,
    p.frontend.service.calls[i]? = some (req,call) ∧ Serves p.backends call owner

variable {cache : CacheInterface} {config : AppConfig} {library : JsonLibrary}

theorem Serves.steady {backends backends' : ClientCalls} {call : BackendCall} {owner : Owner}
    (serves : Serves backends call owner) (steady : ClientCalls.Steady backends backends') :
    Serves backends' call owner := by
  cases owner with
  | posted => exact serves
  | session id =>
    obtain ⟨plain,c,found,info,req⟩ := serves
    obtain ⟨c',there,same,_⟩ := steady.calls id c found
    exact ⟨plain,c',there,same.1.trans info,same.2.trans req⟩

/-- Nothing is called, and nothing called back. -/
theorem Owned.steady {p : Program cache} (owned : Owned p) {frontend : Frontend cache} {backends : ClientCalls}
    (calls : frontend.service.calls = p.frontend.service.calls) (callers : frontend.callers = p.frontend.callers)
    (steady : ClientCalls.Steady p.backends backends) (handler : SignalHandler) :
    Owned ⟨frontend,backends,p.owners,handler⟩ := by
  refine ⟨by rw [calls]; exact owned.aligned,by rw [callers]; exact owned.callers,?_,owned.once,?_,?_⟩
  · intro id
    exact (owned.sessions id).trans (steady.inFlight id).symm
  · exact steady.posted.trans owned.posted
  · intro i owner found
    obtain ⟨req,call,pending,serves⟩ := owned.serves i owner found
    exact ⟨req,call,by rw [calls]; exact pending,serves.steady steady⟩

/-- What a call that starts leaves of what the earlier ones are served by. -/
theorem Owned.served {p : Program cache} (owned : Owned p) {frontend : Frontend cache} {req : Request}
    {call : BackendCall} {backends : ClientCalls} {owner : Owner}
    (calls : frontend.service.calls = p.frontend.service.calls ++ [(req,call)])
    (kept : ∀ (id : Nat) (c : ClientCall), p.backends.calls[id]? = some c → backends.calls[id]? = some c)
    (serves : Serves backends call owner) (i : Nat) (o : Owner) (found : (p.owners ++ [owner])[i]? = some o) :
    ∃ req call, frontend.service.calls[i]? = some (req,call) ∧ Serves backends call o := by
  rw [calls]
  rw [List.getElem?_append] at found
  split at found
  · rename_i inside
    obtain ⟨req',call',pending,served⟩ := owned.serves i o found
    refine ⟨req',call',?_,?_⟩
    · rw [List.getElem?_append_left (by rw [← owned.aligned]; exact inside)]
      exact pending
    · cases o with
      | posted => exact served
      | session id =>
        obtain ⟨plain,c,there,same⟩ := served
        exact ⟨plain,c,kept id c there,same⟩
  · obtain ⟨last,rfl⟩ := List.getElem?_eq_some_iff.mp found
    have place : i = p.frontend.service.calls.length := by
      simp only [List.length_singleton] at last
      have aligned := owned.aligned
      omega
    subst place
    exact ⟨req,call,by simp,by simpa using serves⟩

/-- A call that starts gets an owner. -/
theorem Owned.calling {p : Program cache} (owned : Owned p) {frontend : Frontend cache} {client : Nat} {req : Request}
    {call : BackendCall} (calls : frontend.service.calls = p.frontend.service.calls ++ [(req,call)])
    (callers : frontend.callers = p.frontend.callers ++ [client]) :
    Owned { p with
      frontend := frontend
      backends := (ClientCalls.callBackendApi config (some call.backend) call.id p.backends).1
      owners := p.owners ++ [ownerOf call p.backends] } := by
  have aligned : (p.owners ++ [ownerOf call p.backends]).length = frontend.service.calls.length := by
    simp [calls,owned.aligned]
  have alike : frontend.callers.length = (p.owners ++ [ownerOf call p.backends]).length := by
    simp [callers,owned.callers]
  cases secure : call.backend.is_https with
  | true =>
    have owner : ownerOf call p.backends = .posted := by simp [ownerOf,secure]
    simp only [ClientCalls.callBackendApi_https secure,owner] at aligned alike ⊢
    refine ⟨aligned,alike,?_,?_,?_,owned.served calls (fun _ _ found => found) secure⟩
    · intro id
      show Owner.session id ∈ p.owners ++ [.posted] ↔ p.backends.InFlight id
      simpa using owned.sessions id
    · intro id
      simpa using owned.once id
    · simp [owned.posted,List.replicate_succ']
  | false =>
    have owner : ownerOf call p.backends = .session p.backends.calls.length := by simp [ownerOf,secure]
    have fresh : Owner.session p.backends.calls.length ∉ p.owners := by
      intro member
      obtain ⟨c,found,_⟩ := (owned.sessions _).mp member
      simp at found
    simp only [ClientCalls.callBackendApi_plain secure,owner] at aligned alike ⊢
    refine ⟨aligned,alike,?_,?_,?_,owned.served calls ?_ ⟨secure,_,by simp; rfl,rfl,rfl⟩⟩
    · intro id
      rw [ClientCalls.inFlight_append _ (by simp [AsyncHttpClientSession.launched,AsyncHttpClientSession.run,
        AsyncHttpClientSession.begin])]
      simp [owned.sessions id]
    · intro id
      by_cases new : id = p.backends.calls.length
      · subst new
        simp [List.count_eq_zero_of_not_mem fresh]
      · have other : Owner.session p.backends.calls.length ≠ .session id := by simpa using Ne.symm new
        simpa [List.count_append,List.count_singleton,other] using owned.once id
    · simp [owned.posted,List.count_append]
    · intro id c found
      rw [List.getElem?_append_left (List.getElem?_eq_some_iff.mp found).1]
      exact found

/-- What stays where it was when something else is erased. -/
theorem eraseIdx_others {α : Type} {l : List α} {i position : Nat} (other : i ≠ position) :
    (l.eraseIdx position)[if i < position then i else i - 1]? = l[i]? := by
  rw [List.getElem?_eraseIdx]
  by_cases before : i < position
  · simp only [before,if_true]
  · have after : ¬ i - 1 < position := by omega
    have place : i - 1 + 1 = i := by omega
    simp only [before,after,if_false,place]

/-- A call that completes takes its owner with it. -/
theorem Owned.completes {p : Program cache} (owned : Owned p) {frontend : Frontend cache} {backends : ClientCalls}
    {owner : Owner} (member : owner ∈ p.owners)
    (calls : frontend.service.calls = p.frontend.service.calls.eraseIdx (p.owners.idxOf owner))
    (callers : frontend.callers = p.frontend.callers.eraseIdx (p.owners.idxOf owner))
    (kept : ∀ (id : Nat) (c : ClientCall), p.backends.calls[id]? = some c → ∃ c', backends.calls[id]? = some c' ∧
      ClientCalls.SameCall c.session c'.session)
    (sessions : ∀ id, backends.InFlight id ↔ p.backends.InFlight id ∧ owner ≠ .session id)
    (posted : backends.posted = List.replicate ((p.owners.erase owner).count .posted) .operation_not_supported) :
    Owned { p with
      frontend := frontend
      backends := backends
      owners := p.owners.eraseIdx (p.owners.idxOf owner) } := by
  have erased : p.owners.eraseIdx (p.owners.idxOf owner) = p.owners.erase owner :=
    (List.erase_eq_eraseIdx_of_idxOf rfl).symm
  have once : ∀ id, (p.owners.erase owner).count (.session id) ≤ 1 := by
    intro id
    exact (List.erase_sublist.count_le _).trans (owned.once id)
  refine ⟨?_,?_,?_,by rw [erased]; exact once,by rw [erased]; exact posted,?_⟩
  · simp only [calls,List.length_eraseIdx,owned.aligned]
  · simp only [callers,List.length_eraseIdx,owned.callers]
  · intro id
    rw [erased,sessions,← owned.sessions]
    by_cases same : owner = .session id
    · subst same
      simp only [ne_eq,not_true_eq_false,and_false,iff_false]
      have single := owned.once id
      rw [← List.count_pos_iff,List.count_erase_self]
      omega
    · rw [List.mem_erase_of_ne (Ne.symm same)]
      simp [same]
  · intro i o found
    rw [List.getElem?_eraseIdx] at found
    rw [calls,List.getElem?_eraseIdx]
    have served : ∀ (place : Nat), p.owners[place]? = some o → ∃ req call,
        p.frontend.service.calls[place]? = some (req,call) ∧ Serves backends call o := by
      intro place there
      obtain ⟨req,call,pending,serves⟩ := owned.serves place o there
      refine ⟨req,call,pending,?_⟩
      cases o with
      | posted => exact serves
      | session id =>
        obtain ⟨plain,c,here,info,target⟩ := serves
        obtain ⟨c',now,same⟩ := kept id c here
        exact ⟨plain,c',now,same.1.trans info,same.2.trans target⟩
    split at found
    · rename_i before
      rw [if_pos before]
      exact served i found
    · rename_i after
      rw [if_neg after]
      exact served (i + 1) found

/-- What a callback reports: the end of a session, or that https is not supported. -/
inductive Reports : ClientCalls.Action → Response → Option ErrorCode → Prop
  | session (id : Nat) (a : AsyncHttpClientSession.Action) (res : Response) (ec : Option ErrorCode) :
      CallOutcomes.Completes a res ec → Reports (.session id a) res ec
  | posted : Reports .runPosted .empty (some .operation_not_supported)

/-- What was posted for a call is the first in the queue. -/
theorem Owned.posted_cons {p : Program cache} (owned : Owned p) (member : Owner.posted ∈ p.owners) :
    ∃ rest, p.owners.count .posted = rest + 1 ∧
      p.backends.posted = .operation_not_supported :: List.replicate rest .operation_not_supported := by
  obtain ⟨rest,count⟩ : ∃ rest, p.owners.count .posted = rest + 1 :=
    ⟨_,(Nat.sub_add_cancel (List.count_pos_iff.mpr member)).symm⟩
  exact ⟨rest,count,by rw [owned.posted,count,List.replicate_succ]⟩

/-- A callback that runs has a call, of which it is the owner's. -/
theorem Owned.calledBack {p : Program cache} (owned : Owned p)
    (unset : ∀ call ∈ p.backends.calls, call.session_to_remove_on_complete = none) {a : Action} {owner : Owner}
    {b : ClientCalls.Action} {m : Moment} {now : Int} {backends : ClientCalls} {out : List ClientCalls.Event}
    {res : Response} {ec : Option ErrorCode} (handles : Handles a owner b m now)
    (stepped : ClientCalls.step config p.backends b = some (backends,out))
    (called : ClientCalls.callbackOf out = some (res,ec)) :
    owner ∈ p.owners ∧ Reports b res ec ∧
    (∀ (id : Nat) (c : ClientCall), p.backends.calls[id]? = some c → ∃ c', backends.calls[id]? = some c' ∧
      ClientCalls.SameCall c.session c'.session) ∧
    (∀ id, backends.InFlight id ↔ p.backends.InFlight id ∧ owner ≠ .session id) ∧
    backends.posted = List.replicate ((p.owners.erase owner).count .posted) .operation_not_supported := by
  cases handles with
  | posted m now =>
    simp only [ClientCalls.step] at stepped
    split at stepped
    · cases stepped
    · rename_i e rest posted
      cases stepped
      cases called
      have member : Owner.posted ∈ p.owners := by
        have lengths := congrArg List.length (posted.symm.trans owned.posted)
        simp only [List.length_cons,List.length_replicate] at lengths
        exact List.count_pos_iff.mp (by omega)
      obtain ⟨others,count,queued⟩ := owned.posted_cons member
      obtain ⟨rfl,rfl⟩ := List.cons.inj (posted.symm.trans queued)
      refine ⟨member,.posted,fun id c found => ⟨c,found,rfl,rfl⟩,?_,?_⟩
      · intro id
        exact ⟨fun open_ => ⟨open_,by simp⟩,fun open_ => open_.1⟩
      · rw [List.count_erase_self,count]
        rfl
  | session id a m now =>
    simp only [ClientCalls.step] at stepped
    split at stepped
    · cases stepped
    · cases ClientCalls.advance_advanced unset stepped with
      | going _ _ _ _ _ _ _ _ silent => rw [silent] at called; cases called
      | done call s res' ec' found completes running ended same moved =>
        cases called
        obtain ⟨kept,flying⟩ := ClientCalls.ended_set found same ended moved
        refine ⟨(owned.sessions id).mpr ⟨call,found,running⟩,.session id a res ec completes,kept,?_,?_⟩
        · intro other
          rw [flying other,ne_eq,ne_eq,Owner.session.injEq]
        · rw [List.count_erase_of_ne (by simp),← owned.posted,moved]

/-- What does not call back leaves everything in flight. -/
theorem steady_working {p : Program cache} {log : List ClientCalls.Event} (kept : ClientCalls.Kept p.backends log)
    {a : Action} {owner : Owner} {b : ClientCalls.Action} {m : Moment} {now : Int} {backends : ClientCalls}
    {out : List ClientCalls.Event} (handles : Handles a owner b m now)
    (stepped : ClientCalls.step config p.backends b = some (backends,out))
    (silent : ClientCalls.callbackOf out = none) : ClientCalls.Steady p.backends backends := by
  cases handles with
  | posted m now =>
    simp only [ClientCalls.step] at stepped
    split at stepped <;> cases stepped
    cases silent
  | session id a m now =>
    simp only [ClientCalls.step] at stepped
    split at stepped
    · cases stepped
    · exact (ClientCalls.advance_advanced kept.unset stepped).steady silent

theorem steady_cancelled {p : Program cache} {log : List ClientCalls.Event} (kept : ClientCalls.Kept p.backends log)
    {id : Nat} {backends : ClientCalls} {out : List ClientCalls.Event}
    (cancelled : ClientCalls.step config p.backends (.cancel id) = some (backends,out)) :
    ClientCalls.Steady p.backends backends :=
  (ClientCalls.advance_cancel kept.unset cancelled).1

/-- Every step keeps the calls and their owners together. -/
theorem owned_step {p p' : Program cache} {a : Action} {out : List Event} {log : List ClientCalls.Event}
    (owned : Owned p) (kept : ClientCalls.Kept p.backends log) (taken : Taken config library p a p' out) :
    Owned p' := by
  cases taken with
  | alone a frontend told _ _ _ calls callers => exact owned.steady calls callers (.refl _) _
  | calling a frontend told client req call _ _ _ calls callers => exact owned.calling calls callers
  | working a owner b m now backends out handles _ stepped silent =>
    exact owned.steady rfl rfl (steady_working kept handles stepped silent) _
  | completing a owner b m now backends out res ec frontend told handles _ stepped called completed =>
    obtain ⟨calls,callers,_⟩ := calls_of_complete completed
    obtain ⟨member,_,same,sessions,posted⟩ := owned.calledBack kept.unset handles stepped called
    exact owned.completes member calls callers same sessions posted
  | stopping order frontend told _ stopped =>
    obtain ⟨service,callers,_⟩ := calls_of_stop stopped
    exact owned.steady (by rw [service]) callers (.refl _) _
  | listing | halting => exact owned.steady rfl rfl (.refl _) _
  | cancelling order id rest backends out _ cancelled => exact owned.steady rfl rfl (steady_cancelled kept cancelled) _

/-! ### Runs -/

section
variable (config library)

/-- The program is where runs of its parts lead, and its calls have owners. -/
structure Whole (p : Program cache) (log : List Event) : Prop where
  frontend : ∃ actions, Runs.Run (Frontend.step config library) (Frontend.start cache config) actions p.frontend
    (ofFrontend log)
  backends : ∃ actions, Runs.Run (ClientCalls.step config) .empty actions p.backends (ofBackend log)
  owned : Owned p

end

theorem Whole.kept {p : Program cache} {log : List Event} (whole : Whole config library p log) :
    ClientCalls.Kept p.backends (ofBackend log) := by
  obtain ⟨_,run⟩ := whole.backends
  exact ClientCalls.kept_run run

theorem whole_step {p p' : Program cache} {a : Action} {log out : List Event} (whole : Whole config library p log)
    (taken : Taken config library p a p' out) : Whole config library p' (log ++ out) := by
  have owned := owned_step whole.owned whole.kept taken
  obtain ⟨actions,frontend⟩ := whole.frontend
  obtain ⟨calls,backends⟩ := whole.backends
  cases taken with
  | alone a frontend' told _ _ stepped =>
    exact ⟨⟨_,by simpa using frontend.next stepped⟩,⟨calls,by simpa using backends⟩,owned⟩
  | calling a frontend' told client req call _ _ stepped =>
    have started : ClientCalls.step config p.backends (.callBackendApi (some call.backend) call.id) =
        some (ClientCalls.callBackendApi config (some call.backend) call.id p.backends) := rfl
    refine ⟨⟨_,by simpa using frontend.next stepped⟩,⟨calls ++ [.callBackendApi (some call.backend) call.id],?_⟩,owned⟩
    rw [ofBackend_append,ofBackend_append,ofBackend_frontend,ofBackend_backend,List.nil_append]
    exact backends.next started
  | working a owner b m now backends' out _ _ stepped =>
    exact ⟨⟨actions,by simpa using frontend⟩,⟨_,by simpa using backends.next stepped⟩,owned⟩
  | completing a owner b m now backends' out res ec frontend' told _ _ stepped _ completed =>
    exact ⟨⟨_,by simpa using frontend.next completed⟩,⟨_,by simpa using backends.next stepped⟩,owned⟩
  | stopping order frontend' told _ stopped =>
    exact ⟨⟨_,by simpa using frontend.next stopped⟩,⟨calls,by simpa using backends⟩,owned⟩
  | listing | halting => exact ⟨⟨actions,by simpa using frontend⟩,⟨calls,by simpa using backends⟩,owned⟩
  | cancelling order id rest backends' out _ cancelled =>
    exact ⟨⟨actions,by simpa using frontend⟩,⟨_,by simpa using backends.next cancelled⟩,owned⟩

theorem whole_start : Whole config library (start cache config) [] := by
  refine ⟨⟨[],.start⟩,⟨[],.start⟩,rfl,rfl,?_,by simp [start],rfl,by simp [start]⟩
  intro id
  simp [start,ClientCalls.InFlight,ClientCalls.empty]

theorem whole_run {actions : List Action} {p : Program cache} {log : List Event}
    (run : Runs.Run (step config library) (start cache config) actions p log) : Whole config library p log :=
  run.invariant (Whole config library) whole_start fun _ _ _ _ _ whole taken => whole_step whole (step_taken taken)

/-! ### What every run keeps -/

/-- The server takes the completion of a call that it waits for. -/
theorem complete_progress {f : Frontend cache} {position client : Nat} {req : Request} {call : BackendCall}
    (threads : f.threads ≠ 0) (caller : f.callers[position]? = some client)
    (pending : f.service.calls[position]? = some (req,call)) (res : Response) (ec : Option ErrorCode) (m : Moment)
    (now : Int) : (Frontend.step config library f (.complete position res ec m now)).isSome = true := by
  have served : (Service.step cache config library f.service (.complete position res ec m)).isSome = true := by
    simp only [Service.step,pending]
    split <;> rfl
  obtain ⟨⟨service,told⟩,completed⟩ := Option.isSome_iff_exists.mp served
  simp only [Frontend.step,Frontend.move,Frontend.complete,threads,and_false,if_false,caller,completed]
  split <;> rfl

/-- No callback comes without a call that waits for it. -/
theorem Owned.progress {p : Program cache} (owned : Owned p)
    (unset : ∀ call ∈ p.backends.calls, call.session_to_remove_on_complete = none) (running : Running p) {a : Action}
    {owner : Owner} {b : ClientCalls.Action} {m : Moment} {now : Int} (handles : Handles a owner b m now) :
    (deliver config library owner b m now p).isSome = (ClientCalls.step config p.backends b).isSome := by
  unfold deliver
  split
  · rename_i refused
    rw [refused]
    rfl
  · rename_i backends out stepped
    rw [stepped]
    split
    · rfl
    · rename_i res ec called
      obtain ⟨member,_⟩ := owned.calledBack unset handles stepped called
      have place := List.getElem?_idxOf member
      obtain ⟨req,call,pending,_⟩ := owned.serves _ owner place
      have inside : p.owners.idxOf owner < p.frontend.callers.length := by
        rw [owned.callers]
        exact List.idxOf_lt_length_of_mem member
      rw [Option.isSome_map]
      exact complete_progress running.threads (List.getElem?_eq_getElem inside) pending res ec m now

/-- Every run of the program is a run of the server and a run of the calls to the
    backends, each with the events that are its own; and while the handlers run, the
    program takes whatever happens to the calls. -/
theorem program_projects (config : AppConfig) (cache : CacheInterface) (library : JsonLibrary) (actions : List Action)
    (p : Program cache) (log : List Event)
    (run : Runs.Run (step config library) (start cache config) actions p log) :
    (∃ handlers, Runs.Run (Frontend.step config library) (Frontend.start cache config) handlers p.frontend
      (ofFrontend log)) ∧
    (∃ calls, Runs.Run (ClientCalls.step config) .empty calls p.backends (ofBackend log)) ∧
    (Running p → ∀ a owner b m now, Handles a owner b m now →
      (step config library p a).isSome = (ClientCalls.step config p.backends b).isSome) := by
  have whole := whole_run run
  refine ⟨whole.frontend,whole.backends,?_⟩
  intro running a owner b m now handles
  have progress : (deliver config library owner b m now p).isSome = (ClientCalls.step config p.backends b).isSome :=
    whole.owned.progress whole.kept.unset running handles
  rw [← progress]
  cases handles with
  | session id a m now => simp only [step,running,or_true,if_true]
  | posted m now => simp only [step,running,if_true]

/-- A connection is accepted and asks for a company. -/
def asking : List Action :=
  [.frontend (.ends none),.frontend .accepted,.frontend (.run 0 0),
    .frontend (.read 0 (.ok companyRequest) 0 true epoch 0)]

/-- The backend answers, and the connection is told. -/
def fetching : List Action :=
  asking ++ [.session 0 (.resolved none) epoch 0,.session 0 (.connected none) epoch 0,
    .session 0 (.written none) epoch 0,.session 0 (.received Service.namedReply none) epoch 0,
    .frontend (.written 0 none 0)]

theorem program_projects_fetching : ∃ p log,
    Runs.Run (step usConfig Service.namedLibrary) (start .everlasting usConfig) fetching p log ∧
    (∃ handlers, Runs.Run (Frontend.step usConfig Service.namedLibrary)
      (Frontend.start .everlasting usConfig) handlers p.frontend (ofFrontend log)) ∧
    p.frontend.service.calls.length = 0 ∧
    (step usConfig Service.namedLibrary p (.session 0 .timeout epoch 0)).isSome = true := by
  have executed : (Runs.exec (step usConfig Service.namedLibrary)
      (start .everlasting usConfig) fetching).isSome = true := by decide +kernel
  have run := Runs.Run.of_isSome executed
  obtain ⟨frontend,_,progress⟩ := program_projects usConfig .everlasting Service.namedLibrary fetching _ _ run
  refine ⟨_,_,run,frontend,by decide +kernel,?_⟩
  rw [progress (by decide +kernel) _ _ _ _ _ (.session 0 .timeout epoch 0)]
  decide +kernel

/-- At any time each call that the service waits for has an owner of its own: a session in
    flight that asks the configured backend of the request's country for its id, or, for a
    backend with https, a posted callback. No session in flight and no posted callback is
    without its call, and the connection of the call waits with the request. -/
theorem calls_owned (config : AppConfig) (positive : 1 ≤ config.max_response_queue_size) (cache : CacheInterface)
    (library : JsonLibrary) (actions : List Action) (p : Program cache) (log : List Event)
    (run : Runs.Run (step config library) (start cache config) actions p log) :
    p.owners.length = p.frontend.service.calls.length ∧ p.frontend.callers.Nodup ∧
    (∀ id, (p.backends.InFlight id → p.owners.count (.session id) = 1) ∧
      (¬ p.backends.InFlight id → p.owners.count (.session id) = 0)) ∧
    p.backends.posted.length = p.owners.count .posted ∧
    ∀ (i : Nat) (owner : Owner), p.owners[i]? = some owner → ∃ client req call,
      p.frontend.callers[i]? = some client ∧ p.frontend.service.calls[i]? = some (req,call) ∧
      (dialogue (Frontend.ofSession client (ofFrontend log))).pending = some req ∧ call.id = idOf req ∧
      config.country_backend_map.find (countryOf req) = some call.backend ∧ Serves p.backends call owner := by
  have whole := whole_run run
  obtain ⟨_,handled⟩ := whole.frontend
  obtain ⟨parts,matched⟩ := Frontend.coherent_run positive handled
  obtain ⟨_,service⟩ := parts.service
  have traced := Service.traced_run service
  have owned := whole.owned
  refine ⟨owned.aligned,matched.distinct,?_,?_,?_⟩
  · intro id
    have once := owned.once id
    have member := owned.sessions id
    constructor
    · intro open_
      have some_ := List.count_pos_iff.mpr (member.mpr open_)
      omega
    · intro shut
      exact List.count_eq_zero_of_not_mem fun there => shut (member.mp there)
  · rw [owned.posted,List.length_replicate]
  · intro i owner found
    obtain ⟨req,call,pending,serves⟩ := owned.serves i owner found
    have inside : i < p.frontend.callers.length := by
      rw [owned.callers]
      exact (List.getElem?_eq_some_iff.mp found).1
    obtain ⟨c,req',call',_,_,there,waits⟩ := matched.waiting i _ (List.getElem?_eq_getElem inside)
    rw [pending,Option.some.injEq,Prod.mk.injEq] at there
    obtain ⟨rfl,rfl⟩ := there
    obtain ⟨asked,_,configured⟩ := traced.calls (req,call) (List.mem_of_getElem? pending)
    exact ⟨_,req,call,List.getElem?_eq_getElem inside,pending,waits,asked,configured,serves⟩

theorem calls_owned_asking : ∃ p log,
    Runs.Run (step usConfig Service.namedLibrary) (start .everlasting usConfig) asking p log ∧
    p.owners = [.session 0] ∧ ∃ client req call, p.frontend.callers[0]? = some client ∧
      p.frontend.service.calls[0]? = some (req,call) ∧ Serves p.backends call (.session 0) := by
  have executed : (Runs.exec (step usConfig Service.namedLibrary)
      (start .everlasting usConfig) asking).isSome = true := by decide +kernel
  have run := Runs.Run.of_isSome executed
  have owned := calls_owned usConfig (by decide +kernel) .everlasting Service.namedLibrary asking _ _ run
  obtain ⟨client,req,call,caller,pending,_,_,_,serves⟩ := owned.2.2.2.2 0 (.session 0) (by decide +kernel)
  exact ⟨_,_,run,by decide +kernel,client,req,call,caller,pending,serves⟩

end Program
end Facade
