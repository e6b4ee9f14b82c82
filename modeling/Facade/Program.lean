import Facade.CallOutcomes
import Facade.ClientCalls
import Facade.FrontendLife

/-!
The whole program of src/main.cpp: the server with its sessions and its service
(`Frontend`), the sessions to the backends (`ClientCalls`), and the signal handler.
A call of the service passes its callback to a session or to the queue of the
`io_context`, and the handler that completes the session, or runs what was posted,
completes the call. Handlers are atomic, but for the signal handler: it stops the
server, lists the active sessions, cancels them one by one and calls `ioc.stop()`, and
the other threads run handlers between these steps.

`step_taken` is everything that a step can do.
-/
namespace Facade
open Strings Http Backendify

namespace ClientCalls

/-- The callback among what happened. -/
def callbackOf : List Event → Option (Response × Option ErrorCode)
  | [] => none
  | .callback res ec :: _ => some (res,ec)
  | _ :: rest => callbackOf rest

/-- Both call the same backend, with the same request. -/
def SameCall (s s' : AsyncHttpClientSession) : Prop := s'.backend_info = s.backend_info ∧ s'.req = s.req

theorem begin_same (phase : Phase) (s : AsyncHttpClientSession) :
    SameCall s (AsyncHttpClientSession.begin phase s).1 := by
  cases phase <;> exact ⟨rfl,rfl⟩

theorem cancelTimer_same (s : AsyncHttpClientSession) : SameCall s s.cancelTimer := by
  unfold AsyncHttpClientSession.cancelTimer
  split <;> exact ⟨rfl,rfl⟩

/-- The handler of a phase that another one follows. -/
theorem passOn_same (next : Phase) (ec : Option ErrorCode) (s : AsyncHttpClientSession) :
    SameCall s (AsyncHttpClientSession.passOn next ec s).1 := by
  cases ec with
  | some e => exact ⟨rfl,rfl⟩
  | none => exact begin_same next s

/-- A session calls the backend that it was made for. -/
theorem stepAny_same {s s' : AsyncHttpClientSession} {a : AsyncHttpClientSession.Action}
    {out : List AsyncHttpClientSession.Event} (taken : AsyncHttpClientSession.stepAny s a = some (s',out)) :
    SameCall s s' := by
  have followed : ∀ {phase next ec}, AsyncHttpClientSession.Followed a phase next ec → SameCall s s' := by
    intro phase next ec followed
    rw [followed.stepAny_eq] at taken
    obtain ⟨_,handled⟩ := AsyncHttpClientSession.deliverAny_eq_some taken
    have same := passOn_same next ec { s with pending := none, aborted := false }
    rwa [handled] at same
  cases a with
  | resolved ec => exact followed (.resolved ec)
  | connected ec => exact followed (.connected ec)
  | written ec => exact followed (.written ec)
  | received res ec =>
    obtain ⟨_,handled⟩ := AsyncHttpClientSession.deliverAny_eq_some taken
    cases handled
    exact cancelTimer_same { s with pending := none, aborted := false }
  | cancel =>
    cases taken
    exact cancelTimer_same s
  | expire =>
    simp only [AsyncHttpClientSession.stepAny,AsyncHttpClientSession.step,Option.ite_none_right_eq_some,
      Option.some.injEq,Prod.mk.injEq] at taken
    obtain ⟨_,rfl,_⟩ := taken
    exact ⟨rfl,rfl⟩
  | timeout =>
    simp only [AsyncHttpClientSession.stepAny,AsyncHttpClientSession.step,Option.map_eq_some_iff] at taken
    obtain ⟨ec,_,handled⟩ := taken
    simp only [AsyncHttpClientSession.on_timeout] at handled
    split at handled <;> cases handled <;> exact ⟨rfl,rfl⟩

/-- A step of a session of a call: it goes on, or it completes and calls back. -/
inductive Advanced (p : ClientCalls) (id : Nat) (a : AsyncHttpClientSession.Action) (p' : ClientCalls) :
    List Event → Prop
  | going (call : ClientCall) (s : AsyncHttpClientSession) (out : List Event) : p.calls[id]? = some call →
      ¬ AsyncHttpClientSession.Ends a → (s.pending = none ↔ call.session.pending = none) →
      SameCall call.session s →
      p' = { p with calls := p.calls.set id { call with session := s } } → callbackOf out = none →
      Advanced p id a p' out
  | done (call : ClientCall) (s : AsyncHttpClientSession) (res : Response) (ec : Option ErrorCode) :
      p.calls[id]? = some call → CallOutcomes.Completes a res ec → call.session.pending ≠ none → s.pending = none →
      SameCall call.session s →
      p' = { p with calls := p.calls.set id { call with session := s } } →
      Advanced p id a p' [.session id (.completed res ec),.callback res ec]

/-- Without a completion nothing is called back. -/
theorem relay_going (call : ClientCall) (id : Nat) {out : List AsyncHttpClientSession.Event}
    (going : ∀ e ∈ out, AsyncHttpClientSession.isCompletion e = false) (p : ClientCalls) :
    relay call id out p = (p,out.map (.session id)) := by
  induction out with
  | nil => rfl
  | cons e rest ih =>
    have others := ih fun e member => going e (List.mem_cons_of_mem _ member)
    cases e with
    | completed res ec => simpa [AsyncHttpClientSession.isCompletion] using going _ List.mem_cons_self
    | started phase => simp [relay,others]
    | closed => simp [relay,others]

theorem callbackOf_sessions (id : Nat) (out : List AsyncHttpClientSession.Event) :
    callbackOf (out.map (.session id)) = none := by
  induction out with
  | nil => rfl
  | cons e rest ih => exact ih

theorem advance_advanced {p p' : ClientCalls} {id : Nat} {a : AsyncHttpClientSession.Action} {out : List Event}
    (unset : ∀ call ∈ p.calls, call.session_to_remove_on_complete = none)
    (taken : advance id a p = some (p',out)) : Advanced p id a p' out := by
  simp only [advance,Option.bind_eq_bind,Option.bind_eq_some_iff,Option.some.injEq,Prod.exists] at taken
  obtain ⟨call,found,s,told,stepped,relayed⟩ := taken
  have any := AsyncHttpClientSession.stepAny_of_step stepped
  have same := stepAny_same any
  have silent : (∀ e ∈ told, AsyncHttpClientSession.isCompletion e = false) →
      p' = { p with calls := p.calls.set id { call with session := s } } ∧ callbackOf out = none := by
    intro going
    rw [relay_going call id going,Prod.mk.injEq] at relayed
    obtain ⟨rfl,rfl⟩ := relayed
    exact ⟨rfl,callbackOf_sessions id told⟩
  cases AsyncHttpClientSession.stepAny_progress any with
  | aside unfinished kept closings =>
    obtain ⟨moved,nothing⟩ := silent fun e member => by rw [closings e member]; rfl
    exact .going call s out found unfinished (by rw [kept]) same moved nothing
  | onward phase next unfinished running started reported =>
    obtain ⟨moved,nothing⟩ := silent (by rw [reported]; simp [AsyncHttpClientSession.isCompletion])
    exact .going call s out found unfinished (by simp [running,started]) same moved nothing
  | done phase res ec ends running ended reported =>
    have completes := CallOutcomes.completes_of_step any (reported ▸ List.mem_singleton_self _)
    have free := unset call (List.mem_of_getElem? found)
    simp only [reported,relay,on_complete,free,List.append_nil,Prod.mk.injEq] at relayed
    obtain ⟨rfl,rfl⟩ := relayed
    exact .done call s res ec found completes (by simp [running]) ended same (by rw [free])

end ClientCalls

/-- What holds the callback of a backend call. -/
inductive Owner
  | session (id : Nat)
  | posted
deriving DecidableEq,Repr

/-- Where the signal handler stands: no signal has come, the server is stopped, the
    sessions that it listed are to be cancelled, or it has called `ioc.stop()`. -/
inductive SignalHandler
  | waiting
  | stopping
  | cancelling (sessions_to_cancel_vec : List Nat)
  | stopped
deriving DecidableEq,Repr

/-- The threads that it takes. -/
def SignalHandler.busy : SignalHandler → Nat
  | .waiting => 0
  | .stopping => 1
  | .cancelling _ => 1
  | .stopped => 0

/-- The sessions that it has listed and not cancelled yet. -/
def SignalHandler.toCancel : SignalHandler → List Nat
  | .cancelling sessions_to_cancel_vec => sessions_to_cancel_vec
  | _ => []

structure Program (cache : CacheInterface) where
  frontend : Frontend cache
  backends : ClientCalls
  /-- The owner of the callback of each call that the service waits for. -/
  owners : List Owner
  signal_handler : SignalHandler

namespace Program

inductive Event
  | frontend (e : Frontend.Event)
  | backend (e : ClientCalls.Event)

/-- What can happen: to the server, to a session to a backend, to what was posted;
    or the signal handler takes a step, where `order` is how the hash table lists the
    active sessions. -/
inductive Action
  | frontend (a : Frontend.Action)
  | session (id : Nat) (a : AsyncHttpClientSession.Action) (m : Moment) (now : Int)
  | posted (m : Moment) (now : Int)
  | signal (order : List Nat)

/-! ### The record of a run -/

def Event.ofFrontend : Event → List Frontend.Event
  | .frontend e => [e]
  | .backend _ => []

def Event.ofBackend : Event → List ClientCalls.Event
  | .frontend _ => []
  | .backend e => [e]

/-- What the server and the sessions to the backends tell. -/
def ofFrontend (log : List Event) : List Frontend.Event := log.flatMap Event.ofFrontend
def ofBackend (log : List Event) : List ClientCalls.Event := log.flatMap Event.ofBackend

section
variable (log more : List Event)

@[simp] theorem ofFrontend_nil : ofFrontend [] = [] := rfl
@[simp] theorem ofBackend_nil : ofBackend [] = [] := rfl

@[simp] theorem ofFrontend_append : ofFrontend (log ++ more) = ofFrontend log ++ ofFrontend more := by simp [ofFrontend]
@[simp] theorem ofBackend_append : ofBackend (log ++ more) = ofBackend log ++ ofBackend more := by simp [ofBackend]

@[simp] theorem ofFrontend_frontend (out : List Frontend.Event) : ofFrontend (out.map .frontend) = out := by
  induction out with
  | nil => rfl
  | cons e rest ih => simpa [ofFrontend,Event.ofFrontend] using ih

@[simp] theorem ofBackend_frontend (out : List Frontend.Event) : ofBackend (out.map .frontend) = [] := by
  simp [ofBackend,Event.ofBackend]

@[simp] theorem ofBackend_backend (out : List ClientCalls.Event) : ofBackend (out.map .backend) = out := by
  induction out with
  | nil => rfl
  | cons e rest ih => simpa [ofBackend,Event.ofBackend] using ih

@[simp] theorem ofFrontend_backend (out : List ClientCalls.Event) : ofFrontend (out.map .backend) = [] := by
  simp [ofFrontend,Event.ofFrontend]

end

/-! ### The step -/

/-- Whether an action of the server is one by itself: the calls complete with the
    sessions to the backends, and the signal handler stops the server. -/
def spontaneous : Frontend.Action → Bool
  | .complete _ _ _ _ _ => false
  | .stop => false
  | _ => true

section
variable {cache : CacheInterface} (config : AppConfig) (library : JsonLibrary)

/-- What receives the callback of a call that starts in `backends`. -/
def ownerOf (call : BackendCall) (backends : ClientCalls) : Owner :=
  if call.backend.is_https then .posted else .session backends.calls.length

/-- If the service has a call more than `earlier`, `callBackendApi` runs for it. -/
def startCall (earlier : Nat) (p : Program cache) : Program cache × List ClientCalls.Event :=
  match p.frontend.service.calls[earlier]? with
  | none => (p,[])
  | some (_,call) =>
    let (backends,out) := ClientCalls.callBackendApi config (some call.backend) call.id p.backends
    ({ p with backends := backends, owners := p.owners ++ [ownerOf call p.backends] },out)

/-- A handler of the backends; if it calls back, the call completes. -/
def deliver (owner : Owner) (b : ClientCalls.Action) (m : Moment) (now : Int) (p : Program cache) :
    Option (Program cache × List Event) :=
  match ClientCalls.step config p.backends b with
  | none => none
  | some (backends,out) =>
    match ClientCalls.callbackOf out with
    | none => some ({ p with backends := backends },out.map .backend)
    | some (res,ec) =>
      let position := p.owners.idxOf owner
      (Frontend.step config library p.frontend (.complete position res ec m now)).map fun (frontend,told) =>
        ({ p with frontend := frontend, backends := backends, owners := p.owners.eraseIdx position },
          out.map .backend ++ told.map .frontend)

variable (cache)

def start : Program cache := ⟨Frontend.start cache config,.empty,[],.waiting⟩

variable {cache}

/-- Whether the `io_context` runs handlers: a thread is left for them. -/
def Running (p : Program cache) : Prop := p.signal_handler ≠ .stopped ∧ p.signal_handler.busy < p.frontend.threads

instance (p : Program cache) : Decidable (Running p) := inferInstanceAs (Decidable (_ ∧ _))

theorem Running.threads {p : Program cache} (running : Running p) : p.frontend.threads ≠ 0 :=
  Nat.ne_of_gt (Nat.zero_lt_of_lt running.2)

/-- The next step of the signal handler. -/
def handleSignal (order : List Nat) (p : Program cache) : Option (Program cache × List Event) :=
  match p.signal_handler with
  | .waiting =>
    (Frontend.step config library p.frontend .stop).map fun (frontend,told) =>
      ({ p with frontend := frontend, signal_handler := .stopping },told.map .frontend)
  | .stopping =>
    if order.Nodup ∧ order.toFinset = p.backends.active_client_sessions then
      some ({ p with signal_handler := .cancelling order },[])
    else none
  | .cancelling (id :: rest) =>
    (ClientCalls.step config p.backends (.cancel id)).map fun (backends,out) =>
      ({ p with backends := backends, signal_handler := .cancelling rest },out.map .backend)
  | .cancelling [] => some ({ p with signal_handler := .stopped },[])
  | .stopped => none

def step (p : Program cache) : Action → Option (Program cache × List Event)
  | .frontend a =>
    if spontaneous a = false ∨ (a.isHandler = true ∧ ¬ Running p) then none
    else
      (Frontend.step config library p.frontend a).map fun (frontend,told) =>
        let (q,out) := startCall config p.frontend.service.calls.length { p with frontend := frontend }
        (q,told.map .frontend ++ out.map .backend)
  -- The timer expires by itself.
  | .session id a m now =>
    if a = .expire ∨ Running p then deliver config library (.session id) (.session id a) m now p else none
  | .posted m now => if Running p then deliver config library .posted .runPosted m now p else none
  | .signal order => handleSignal config library order p

end

variable {cache : CacheInterface} {config : AppConfig} {library : JsonLibrary}

/-! ### One step -/

theorem not_complete {a : Frontend.Action} (alone : spontaneous a = true) :
    ∀ position res ec m now, a ≠ .complete position res ec m now := by
  rintro position res ec m now rfl
  cases alone

/-- The calls that the service waits for change with a completion, and by one that starts. -/
theorem calls_of_step {f f' : Frontend cache} {a : Frontend.Action} {out : List Frontend.Event}
    (taken : Frontend.step config library f a = some (f',out))
    (other : ∀ position res ec m now, a ≠ .complete position res ec m now) :
    (f'.service.calls = f.service.calls ∧ f'.callers = f.callers) ∨
      ∃ client req call, f'.service.calls = f.service.calls ++ [(req,call)] ∧ f'.callers = f.callers ++ [client] ∧
        a.isHandler = true := by
  cases (Frontend.step_taken taken).1 with
  | listening => exact .inl ⟨rfl,rfl⟩
  | accepting => exact .inl ⟨rfl,rfl⟩
  | stopping => exact .inl ⟨rfl,rfl⟩
  | dispatching => exact .inl ⟨rfl,rfl⟩
  | moving => exact .inl ⟨rfl,rfl⟩
  | answering _ _ _ _ _ _ _ _ _ _ _ _ _ _ _ _ _ _ _ _ calls => exact .inl ⟨calls,rfl⟩
  | calling id c result arrived s out req received starts m now service call _ _ _ _ _ calls =>
    exact .inr ⟨id,req,call,calls,rfl,rfl⟩
  | completing position res ec m now => exact absurd rfl (other position res ec m now)
  | losing position res ec m now => exact absurd rfl (other position res ec m now)

/-- Stopping the server takes no call from the service, and no request is answered. -/
theorem calls_of_stop {f f' : Frontend cache} {out : List Frontend.Event}
    (taken : Frontend.step config library f .stop = some (f',out)) :
    f'.service = f.service ∧ f'.callers = f.callers ∧ Frontend.ofService out = [] ∧
      ∀ id, Frontend.ofSession id out = [] := by
  simp only [Frontend.step,Frontend.move,Option.ite_none_left_eq_some,Option.some.injEq,Prod.mk.injEq] at taken
  obtain ⟨_,rfl,rfl⟩ := taken
  exact ⟨rfl,rfl,by simp,by simp⟩

/-- A completion ends the call at its position. -/
theorem calls_of_complete {f f' : Frontend cache} {position : Nat} {res : Response} {ec : Option ErrorCode} {m : Moment}
    {now : Int} {out : List Frontend.Event}
    (taken : Frontend.step config library f (.complete position res ec m now) = some (f',out)) :
    f'.service.calls = f.service.calls.eraseIdx position ∧ f'.callers = f.callers.eraseIdx position ∧
      ∃ client req call, f.callers[position]? = some client ∧ f.service.calls[position]? = some (req,call) ∧
        Service.step cache config library f.service (.complete position res ec m) =
          some (f'.service,Frontend.ofService out) := by
  have moved : Frontend.complete config library position res ec m now f = some (f',out) := by
    simp only [Frontend.step,Option.ite_none_left_eq_some] at taken
    exact taken.2
  unfold Frontend.complete at moved
  split at moved
  · cases moved
  · rename_i client caller
    split at moved
    · cases moved
    · rename_i service told completed
      obtain ⟨req,call,_,pending,calls,_⟩ := Frontend.service_complete completed
      split at moved
      · rename_i opt_res answer
        simp only [Option.some.injEq,Prod.mk.injEq] at moved
        obtain ⟨rfl,rfl⟩ := moved
        unfold Frontend.respond
        split
        · exact ⟨calls,rfl,client,req,call,caller,pending,by simpa using completed⟩
        · exact ⟨calls,rfl,client,req,call,caller,pending,by simpa [Frontend.update] using completed⟩
      · simp only [Option.some.injEq,Prod.mk.injEq] at moved
        obtain ⟨rfl,rfl⟩ := moved
        exact ⟨calls,rfl,client,req,call,caller,pending,by simpa using completed⟩

/-- The owner whose callback an action may run, and what happens to the backends. -/
inductive Handles : Action → Owner → ClientCalls.Action → Moment → Int → Prop
  | session (id : Nat) (a : AsyncHttpClientSession.Action) (m : Moment) (now : Int) :
      Handles (.session id a m now) (.session id) (.session id a) m now
  | posted (m : Moment) (now : Int) : Handles (.posted m now) .posted .runPosted m now

section
variable (config library)

/-- Everything a step can do. -/
inductive Taken (p : Program cache) : Action → Program cache → List Event → Prop
  | alone (a : Frontend.Action) (frontend : Frontend cache) (told : List Frontend.Event) : spontaneous a = true →
      (a.isHandler = true → Running p) → Frontend.step config library p.frontend a = some (frontend,told) →
      frontend.service.calls = p.frontend.service.calls → frontend.callers = p.frontend.callers →
      Taken p (.frontend a) { p with frontend := frontend } (told.map .frontend)
  | calling (a : Frontend.Action) (frontend : Frontend cache) (told : List Frontend.Event) (client : Nat)
      (req : Request) (call : BackendCall) : spontaneous a = true → Running p →
      Frontend.step config library p.frontend a = some (frontend,told) →
      frontend.service.calls = p.frontend.service.calls ++ [(req,call)] →
      frontend.callers = p.frontend.callers ++ [client] →
      Taken p (.frontend a)
        { p with
          frontend := frontend
          backends := (ClientCalls.callBackendApi config (some call.backend) call.id p.backends).1
          owners := p.owners ++ [ownerOf call p.backends] }
        (told.map .frontend ++
          (ClientCalls.callBackendApi config (some call.backend) call.id p.backends).2.map .backend)
  | working (a : Action) (owner : Owner) (b : ClientCalls.Action) (m : Moment) (now : Int) (backends : ClientCalls)
      (out : List ClientCalls.Event) : Handles a owner b m now → ((∀ id, b ≠ .session id .expire) → Running p) →
      ClientCalls.step config p.backends b = some (backends,out) → ClientCalls.callbackOf out = none →
      Taken p a { p with backends := backends } (out.map .backend)
  | completing (a : Action) (owner : Owner) (b : ClientCalls.Action) (m : Moment) (now : Int) (backends : ClientCalls)
      (out : List ClientCalls.Event) (res : Response) (ec : Option ErrorCode) (frontend : Frontend cache)
      (told : List Frontend.Event) : Handles a owner b m now → ((∀ id, b ≠ .session id .expire) → Running p) →
      ClientCalls.step config p.backends b = some (backends,out) → ClientCalls.callbackOf out = some (res,ec) →
      Frontend.step config library p.frontend (.complete (p.owners.idxOf owner) res ec m now) =
        some (frontend,told) →
      Taken p a
        { p with frontend := frontend, backends := backends, owners := p.owners.eraseIdx (p.owners.idxOf owner) }
        (out.map .backend ++ told.map .frontend)
  | stopping (order : List Nat) (frontend : Frontend cache) (told : List Frontend.Event) :
      p.signal_handler = .waiting → Frontend.step config library p.frontend .stop = some (frontend,told) →
      Taken p (.signal order) { p with frontend := frontend, signal_handler := .stopping } (told.map .frontend)
  | listing (order : List Nat) : p.signal_handler = .stopping → order.Nodup →
      order.toFinset = p.backends.active_client_sessions →
      Taken p (.signal order) { p with signal_handler := .cancelling order } []
  | cancelling (order : List Nat) (id : Nat) (rest : List Nat) (backends : ClientCalls) (out : List ClientCalls.Event) :
      p.signal_handler = .cancelling (id :: rest) →
      ClientCalls.step config p.backends (.cancel id) = some (backends,out) →
      Taken p (.signal order) { p with backends := backends, signal_handler := .cancelling rest } (out.map .backend)
  | halting (order : List Nat) : p.signal_handler = .cancelling [] →
      Taken p (.signal order) { p with signal_handler := .stopped } []

end

theorem deliver_taken {p p' : Program cache} {a : Action} {owner : Owner} {b : ClientCalls.Action} {m : Moment}
    {now : Int} {out : List Event} (handles : Handles a owner b m now)
    (running : (∀ id, b ≠ .session id .expire) → Running p)
    (taken : deliver config library owner b m now p = some (p',out)) : Taken config library p a p' out := by
  unfold deliver at taken
  split at taken
  · cases taken
  · rename_i backends heard stepped
    split at taken
    · rename_i silent
      cases taken
      exact .working a owner b m now backends heard handles running stepped silent
    · rename_i res ec called
      simp only [Option.map_eq_some_iff,Prod.mk.injEq,Prod.exists] at taken
      obtain ⟨frontend,told,completed,rfl,rfl⟩ := taken
      exact .completing a owner b m now backends heard res ec frontend told handles running stepped called completed

theorem handleSignal_taken {p p' : Program cache} {order : List Nat} {out : List Event}
    (taken : handleSignal config library order p = some (p',out)) :
    Taken config library p (.signal order) p' out := by
  unfold handleSignal at taken
  split at taken
  · rename_i waits
    simp only [Option.map_eq_some_iff,Prod.mk.injEq,Prod.exists] at taken
    obtain ⟨frontend,told,stopped,rfl,rfl⟩ := taken
    exact .stopping order frontend told waits stopped
  · rename_i stands
    simp only [Option.ite_none_right_eq_some,Option.some.injEq,Prod.mk.injEq] at taken
    obtain ⟨⟨once,all⟩,rfl,rfl⟩ := taken
    exact .listing order stands once all
  · rename_i id rest stands
    simp only [Option.map_eq_some_iff,Prod.mk.injEq,Prod.exists] at taken
    obtain ⟨backends,told,cancelled,rfl,rfl⟩ := taken
    exact .cancelling order id rest backends told stands cancelled
  · rename_i stands
    cases taken
    exact .halting order stands
  · cases taken

theorem step_taken {p p' : Program cache} {a : Action} {out : List Event}
    (taken : step config library p a = some (p',out)) : Taken config library p a p' out := by
  cases a with
  | frontend a =>
    simp only [step,Option.ite_none_left_eq_some,not_or,not_and,Bool.not_eq_false,not_not,
      Option.map_eq_some_iff,Prod.mk.injEq,Prod.exists] at taken
    obtain ⟨⟨alone,running⟩,frontend,told,stepped,rfl,rfl⟩ := taken
    rcases calls_of_step stepped (not_complete alone) with ⟨calls,callers⟩ | ⟨client,req,call,calls,callers,handler⟩
    · have none_new : frontend.service.calls[p.frontend.service.calls.length]? = none := by simp [calls]
      simp only [startCall,none_new,List.map_nil,List.append_nil]
      exact .alone a frontend told alone running stepped calls callers
    · have new : frontend.service.calls[p.frontend.service.calls.length]? = some (req,call) := by simp [calls]
      simp only [startCall,new]
      exact .calling a frontend told client req call alone (running handler) stepped calls callers
  | session id a m now =>
    simp only [step,Option.ite_none_right_eq_some] at taken
    refine deliver_taken (.session id a m now) ?_ taken.2
    intro handler
    exact taken.1.resolve_left fun expires => handler id (by rw [expires])
  | posted m now =>
    simp only [step,Option.ite_none_right_eq_some] at taken
    exact deliver_taken (.posted m now) (fun _ => taken.1) taken.2
  | signal order => exact handleSignal_taken taken

end Program
end Facade
