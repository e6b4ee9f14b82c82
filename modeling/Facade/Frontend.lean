import Facade.Exchanges
import Facade.HttpServer
import Facade.ServiceRuns

/-!
The whole server: the sessions that `BeastHttpServer` accepts, the service that
they share, and the threads on which src/main.cpp runs the `io_context`. Sessions
are numbered as the server numbers them. A handler is one step; the service
answers a session at once or when a backend call completes, and the call belongs
to the session that asked for it (`callers`).

An exception that leaves the handler of a backend call leaves `ioc.run()` as
well, and the thread that ran it does not run handlers again.

A run of the whole is a run of its service, and of each of its sessions
(`coherent_run`).
-/
namespace Facade
open Strings Http Backendify

/-- A session, and whether the handler that `run()` dispatches has run. -/
structure Client where
  session : HttpServerSession
  dispatched : Bool

structure Frontend (cache : CacheInterface) where
  server : BeastHttpServer
  clients : List Client
  service : Service cache
  /-- The session of each backend call that the service waits for. -/
  callers : List Nat
  /-- The threads that are in `ioc.run()`. -/
  threads : Nat

namespace Frontend

inductive Event
  | server (e : BeastHttpServer.Event)
  | session (id : Nat) (e : HttpServerSession.Event)
  | service (e : Service.Event)

/-- What can happen: an accept or a wait ends, or a handler runs. -/
inductive Action
  | ends (ec : Option ErrorCode)
  | expire (id : Nat) (write : Nat)
  | accepted
  | finish (id : Nat)
  | stop
  | run (id : Nat) (now : Int)
  | read (id : Nat) (result : Except ErrorCode Request) (arrived : Int) (starts : Bool) (m : Moment) (now : Int)
  | written (id : Nat) (ec : Option ErrorCode) (now : Int)
  | timer (id : Nat) (write : Nat)
  | complete (position : Nat) (res : Response) (ec : Option ErrorCode) (m : Moment) (now : Int)

/-- Whether an action is a handler, which needs a thread. -/
def Action.isHandler : Action → Bool
  | .ends _ => false
  | .expire _ _ => false
  | _ => true

/-! ### The record of a run -/

def Event.ofSession (id : Nat) : Event → List HttpServerSession.Event
  | .session i e => if i = id then [e] else []
  | _ => []

def Event.ofService : Event → List Service.Event
  | .service e => [e]
  | _ => []

def Event.ofServer : Event → List BeastHttpServer.Event
  | .server e => [e]
  | _ => []

/-- What one session, the service and the server tell. -/
def ofSession (id : Nat) (log : List Event) : List HttpServerSession.Event := log.flatMap (Event.ofSession id)
def ofService (log : List Event) : List Service.Event := log.flatMap Event.ofService
def ofServer (log : List Event) : List BeastHttpServer.Event := log.flatMap Event.ofServer

attribute [simp] Event.ofSession Event.ofService Event.ofServer

section
variable (id : Nat) (e : Event) (log more : List Event)

@[simp] theorem ofSession_cons : ofSession id (e :: log) = e.ofSession id ++ ofSession id log := by simp [ofSession]
@[simp] theorem ofService_cons : ofService (e :: log) = e.ofService ++ ofService log := by simp [ofService]
@[simp] theorem ofServer_cons : ofServer (e :: log) = e.ofServer ++ ofServer log := by simp [ofServer]

@[simp] theorem ofSession_nil : ofSession id [] = [] := rfl
@[simp] theorem ofSession_append : ofSession id (log ++ more) = ofSession id log ++ ofSession id more := by
  simp [ofSession]
@[simp] theorem ofSession_session (out : List HttpServerSession.Event) :
    ofSession id (out.map (.session id)) = out := by
  induction out with
  | nil => rfl
  | cons e rest ih => simp [ih]

@[simp] theorem ofSession_server (out : List BeastHttpServer.Event) : ofSession id (out.map .server) = [] := by
  simp [ofSession,Event.ofSession]
@[simp] theorem ofSession_service (out : List Service.Event) : ofSession id (out.map .service) = [] := by
  simp [ofSession,Event.ofSession]

theorem ofSession_other {j : Nat} (other : j ≠ id) (out : List HttpServerSession.Event) :
    ofSession j (out.map (.session id)) = [] := by
  simp [ofSession,Event.ofSession,other.symm]

@[simp] theorem ofService_nil : ofService [] = [] := rfl
@[simp] theorem ofService_append : ofService (log ++ more) = ofService log ++ ofService more := by simp [ofService]
@[simp] theorem ofService_session (out : List HttpServerSession.Event) : ofService (out.map (.session id)) = [] := by
  simp [ofService,Event.ofService]
@[simp] theorem ofService_server (out : List BeastHttpServer.Event) : ofService (out.map .server) = [] := by
  simp [ofService,Event.ofService]
@[simp] theorem ofService_service (out : List Service.Event) : ofService (out.map .service) = out := by
  induction out with
  | nil => rfl
  | cons e rest ih => simp [ih]

@[simp] theorem ofServer_nil : ofServer [] = [] := rfl
@[simp] theorem ofServer_append : ofServer (log ++ more) = ofServer log ++ ofServer more := by simp [ofServer]
@[simp] theorem ofServer_session (out : List HttpServerSession.Event) : ofServer (out.map (.session id)) = [] := by
  simp [ofServer,Event.ofServer]
@[simp] theorem ofServer_service (out : List Service.Event) : ofServer (out.map .service) = [] := by
  simp [ofServer,Event.ofServer]
@[simp] theorem ofServer_server (out : List BeastHttpServer.Event) : ofServer (out.map .server) = out := by
  induction out with
  | nil => rfl
  | cons e rest ih => simp [ih]

end

/-! ### The step -/

section
variable {cache : CacheInterface}

/-- A session after a handler, and what it tells. -/
def update (id : Nat) (r : HttpServerSession × List HttpServerSession.Event) (f : Frontend cache) :
    Frontend cache × List Event :=
  ({ f with clients := f.clients.set id ⟨r.1,true⟩ },r.2.map (.session id))

/-- The callback that a session passes to the service. -/
def respond (id : Nat) (opt_res : Option Response) (now : Int) (f : Frontend cache) : Frontend cache × List Event :=
  match f.clients[id]? with
  | none => (f,[])
  | some c =>
    update id (HttpServerSession.send_response opt_res now { c.session with serving := c.session.serving - 1 }) f

/-- The answer among what the service did. -/
def answerOf : List Service.Event → Option (Option Response)
  | [] => none
  | .sent _ opt_res _ :: _ => some opt_res
  | _ :: rest => answerOf rest

/-- A handler of a session that is running. -/
def act (id : Nat) (a : HttpServerSession.Action) (f : Frontend cache) : Option (Frontend cache × List Event) :=
  match f.clients[id]? with
  | none => none
  | some c => if c.dispatched then (HttpServerSession.step c.session a).map fun r => update id r f else none

/-- `stop()` of every session among the numbers. -/
def stopAll (ids : List Nat) (clients : List Client) : List Client :=
  clients.mapIdx fun id c => if id ∈ ids then { c with session := c.session.stop } else c

variable (cache) (config : AppConfig) (library : JsonLibrary)

/-- The acceptor listens, and the main thread and `num_io_threads` others run. -/
def start : Frontend cache := ⟨.launched,[],.start cache,[],config.num_io_threads.toNat + 1⟩

/-- A session that was just accepted. -/
def fresh : Client := ⟨.new true config.max_response_queue_size,false⟩

variable {cache}

/-- The service gets the request of a session. -/
def serve (id : Nat) (req : Request) (received : Int) (starts : Bool) (m : Moment) (now : Int) (f : Frontend cache) :
    Option (Frontend cache × List Event) :=
  match Service.step cache config library f.service (.request req received starts m) with
  | none => none
  | some (service,told) =>
    let f := { f with service := service }
    match answerOf told with
    | some opt_res =>
      let (f,out) := respond id opt_res now f
      some (f,told.map .service ++ out)
    | none => some ({ f with callers := f.callers ++ [id] },told.map .service)

/-- A backend call completes. -/
def complete (position : Nat) (res : Response) (ec : Option ErrorCode) (m : Moment) (now : Int) (f : Frontend cache) :
    Option (Frontend cache × List Event) :=
  match f.callers[position]? with
  | none => none
  | some id =>
    match Service.step cache config library f.service (.complete position res ec m) with
    | none => none
    | some (service,told) =>
      let f := { f with service := service, callers := f.callers.eraseIdx position }
      match answerOf told with
      | some opt_res =>
        let (f,out) := respond id opt_res now f
        some (f,told.map .service ++ out)
      -- The exception ends `ioc.run()`.
      | none => some ({ f with threads := f.threads - 1 },told.map .service)

/-- The step, when there is a thread for it. -/
def move (f : Frontend cache) : Action → Option (Frontend cache × List Event)
  | .ends ec =>
    (BeastHttpServer.step f.server (.ends ec)).map fun (server,out) => ({ f with server := server },out.map .server)
  | .expire id write => act id (.expire write) f
  | .accepted =>
    (BeastHttpServer.step f.server .accepted).map fun (server,out) =>
      let clients := if server.created = f.server.created then f.clients else f.clients ++ [fresh config]
      ({ f with server := server, clients := clients },out.map .server)
  | .finish id =>
    match f.clients[id]? with
    | none => none
    | some c =>
      if c.session.on_finish_callback then none
      else (BeastHttpServer.step f.server (.finish id)).map fun (server,out) =>
        ({ f with server := server },out.map .server)
  | .stop =>
    let (server,out) := BeastHttpServer.stop f.server
    some ({ f with server := server, clients := stopAll f.server.active_sessions f.clients },out.map .server)
  | .run id now =>
    match f.clients[id]? with
    | none => none
    | some c =>
      if c.dispatched then none
      else some ({ f with clients := f.clients.set id ⟨(HttpServerSession.do_read now c.session).1,true⟩ },[])
  | .read id result arrived starts m now =>
    match act id (.read result arrived) f with
    | none => none
    | some (f,out) =>
      match HttpServerSession.handed (ofSession id out) with
      | none => some (f,out)
      | some (req,received) => (serve config library id req received starts m now f).map fun (f,more) => (f,out ++ more)
  | .written id ec now => act id (.written ec now) f
  | .timer id write => act id (.timer write) f
  | .complete position res ec m now => complete config library position res ec m now f

def step (f : Frontend cache) (a : Action) : Option (Frontend cache × List Event) :=
  if a.isHandler ∧ f.threads = 0 then none else move config library f a

end

variable {cache : CacheInterface} {config : AppConfig} {library : JsonLibrary}

/-! ### One step -/

section
variable (config library)

/-- Everything a step can do. -/
inductive Taken (f : Frontend cache) : Action → Frontend cache → List Event → Prop
  | listening (a : Action) (b : BeastHttpServer.Action) (server : BeastHttpServer) (out : List BeastHttpServer.Event) :
      BeastHttpServer.step f.server b = some (server,out) → server.created = f.server.created → b ≠ .stop →
      (∀ id, a = .finish id ↔ b = .finish id) →
      (∀ id, b = .finish id → ∃ c, f.clients[id]? = some c ∧ c.session.on_finish_callback = false) →
      Taken f a { f with server := server } (out.map .server)
  | accepting (server : BeastHttpServer) (out : List BeastHttpServer.Event) :
      BeastHttpServer.step f.server .accepted = some (server,out) → server.created = f.server.created + 1 →
      Taken f .accepted { f with server := server, clients := f.clients ++ [fresh config] } (out.map .server)
  | stopping :
      Taken f .stop { f with server := f.server.stop.1, clients := stopAll f.server.active_sessions f.clients }
        (f.server.stop.2.map .server)
  | dispatching (id : Nat) (now : Int) (c : Client) : f.clients[id]? = some c → c.dispatched = false →
      Taken f (.run id now)
        { f with clients := f.clients.set id ⟨(HttpServerSession.do_read now c.session).1,true⟩ } []
  | moving (a : Action) (b : HttpServerSession.Action) (id : Nat) (c : Client) (s : HttpServerSession)
      (out : List HttpServerSession.Event) : (∀ id, a ≠ .finish id) → f.clients[id]? = some c →
      c.dispatched = true → (∀ opt_res now, b ≠ .answer opt_res now) →
      HttpServerSession.step c.session b = some (s,out) →
      HttpServerSession.handed out = none →
      Taken f a { f with clients := f.clients.set id ⟨s,true⟩ } (out.map (.session id))
  | answering (id : Nat) (c : Client) (result : Except ErrorCode Request) (arrived : Int) (s t : HttpServerSession)
      (out more : List HttpServerSession.Event) (req : Request) (received : Int) (starts : Bool) (m : Moment) (now : Int)
      (service : Service cache) (opt_res : Option Response) : f.clients[id]? = some c → c.dispatched = true →
      HttpServerSession.step c.session (.read result arrived) = some (s,out) →
      HttpServerSession.handed out = some (req,received) →
      Service.step cache config library f.service (.request req received starts m) =
        some (service,[.sent req opt_res m]) → service.calls = f.service.calls →
      HttpServerSession.step s (.answer opt_res now) = some (t,more) →
      Taken f (.read id result arrived starts m now)
        { f with service := service, clients := f.clients.set id ⟨t,true⟩ }
        (out.map (.session id) ++ ([Service.Event.sent req opt_res m].map .service ++ more.map (.session id)))
  | calling (id : Nat) (c : Client) (result : Except ErrorCode Request) (arrived : Int) (s : HttpServerSession)
      (out : List HttpServerSession.Event) (req : Request) (received : Int) (starts : Bool) (m : Moment) (now : Int)
      (service : Service cache) (call : BackendCall) : f.clients[id]? = some c → c.dispatched = true →
      HttpServerSession.step c.session (.read result arrived) = some (s,out) →
      HttpServerSession.handed out = some (req,received) →
      Service.step cache config library f.service (.request req received starts m) =
        some (service,[.called req call.backend]) →
      service.calls = f.service.calls ++ [(req,call)] →
      Taken f (.read id result arrived starts m now)
        { f with service := service, clients := f.clients.set id ⟨s,true⟩, callers := f.callers ++ [id] }
        (out.map (.session id) ++ [Service.Event.called req call.backend].map .service)
  | completing (position : Nat) (res : Response) (ec : Option ErrorCode) (m : Moment) (now : Int) (id : Nat)
      (req : Request) (call : BackendCall) (service : Service cache) (told : List Service.Event)
      (opt_res : Option Response) (f' : Frontend cache) (out : List Event) : f.callers[position]? = some id →
      f.service.calls[position]? = some (req,call) →
      Service.step cache config library f.service (.complete position res ec m) = some (service,told) →
      service.calls = f.service.calls.eraseIdx position → Service.Event.sent req opt_res m ∈ told →
      (∀ req e, Service.Event.lost req e ∉ told) →
      respond id opt_res now { f with service := service, callers := f.callers.eraseIdx position } = (f',out) →
      Taken f (.complete position res ec m now) f' (told.map .service ++ out)
  | losing (position : Nat) (res : Response) (ec : Option ErrorCode) (m : Moment) (now : Int) (id : Nat)
      (req : Request) (call : BackendCall) (service : Service cache) (told : List Service.Event) (e : Exception) :
      f.callers[position]? = some id → f.service.calls[position]? = some (req,call) →
      Service.step cache config library f.service (.complete position res ec m) =
        some (service,told ++ [Service.Event.lost req e]) →
      service.calls = f.service.calls.eraseIdx position → (∀ req e, Service.Event.lost req e ∉ told) →
      Taken f (.complete position res ec m now)
        { f with service := service, callers := f.callers.eraseIdx position, threads := f.threads - 1 }
        ((told ++ [Service.Event.lost req e]).map .service)

end

/-- The service answers a request at once or starts a call for it. -/
theorem service_request {s s' : Service cache} {req : Request} {received : Int} {starts : Bool} {m : Moment}
    {told : List Service.Event}
    (taken : Service.step cache config library s (.request req received starts m) = some (s',told)) :
    (∃ opt_res, told = [.sent req opt_res m] ∧ s'.calls = s.calls) ∨
      ∃ call, told = [.called req call.backend] ∧ s'.calls = s.calls ++ [(req,call)] := by
  cases Service.step_taken taken with
  | hit => exact .inl ⟨_,rfl,rfl⟩
  | answered => exact .inl ⟨_,rfl,rfl⟩
  | calling => exact .inr ⟨_,rfl,rfl⟩

/-- A call that completes is over; its request is answered, or its handler threw. -/
theorem service_complete {s s' : Service cache} {position : Nat} {res : Response} {ec : Option ErrorCode} {m : Moment}
    {told : List Service.Event}
    (taken : Service.step cache config library s (.complete position res ec m) = some (s',told)) :
    ∃ req call replied, s.calls[position]? = some (req,call) ∧ s'.calls = s.calls.eraseIdx position ∧
      (replied = [] ∨ replied = [Service.Event.replied call.backend call.id res m]) ∧
      ((∃ r, told = replied ++ [.sent req (some r) m]) ∨ ∃ e, told = replied ++ [.lost req e]) := by
  cases Service.step_taken taken with
  | fetched _ _ _ _ req call body pending _ =>
    exact ⟨req,call,_,pending,rfl,.inr rfl,.inl ⟨_,rfl⟩⟩
  | refused _ _ _ _ req call breaker replied last pending _ shape end_ =>
    refine ⟨req,call,replied,pending,rfl,shape,?_⟩
    rcases end_ with ⟨r,rfl,_⟩ | ⟨e,rfl⟩
    · exact .inl ⟨r,rfl⟩
    · exact .inr ⟨e,rfl⟩

theorem act_eq_some {f f' : Frontend cache} {id : Nat} {a : HttpServerSession.Action} {out : List Event} :
    act id a f = some (f',out) ↔ ∃ c s told, f.clients[id]? = some c ∧ c.dispatched = true ∧
      HttpServerSession.step c.session a = some (s,told) ∧
      f' = { f with clients := f.clients.set id ⟨s,true⟩ } ∧ out = told.map (.session id) := by
  unfold act
  cases found : f.clients[id]? with
  | none => simp
  | some c =>
    by_cases dispatched : c.dispatched = true
    · simp only [dispatched,↓reduceIte,Option.map_eq_some_iff,update,Prod.mk.injEq,Prod.exists,Option.some.injEq]
      constructor
      · rintro ⟨s,told,stepped,rfl,rfl⟩
        exact ⟨c,s,told,rfl,dispatched,stepped,rfl,rfl⟩
      · rintro ⟨_,s,told,rfl,_,stepped,rfl,rfl⟩
        exact ⟨s,told,stepped,rfl,rfl⟩
    · simp only [dispatched,Bool.false_eq_true,↓reduceIte,reduceCtorEq,Option.some.injEq,false_iff]
      rintro ⟨_,_,_,rfl,yes,_⟩
      exact dispatched yes

/-- The request that a session hands over is one that it was reading. -/
theorem serving_of_handed {s s' : HttpServerSession} {a : HttpServerSession.Action}
    {out : List HttpServerSession.Event} {req : Request} {received : Int}
    (taken : HttpServerSession.step s a = some (s',out)) (handed : HttpServerSession.handed out = some (req,received)) :
    s'.serving = s.serving + 1 := by
  cases HttpServerSession.step_utters taken with
  | asks req now _ routed reading modest => exact modest.keeps.serving
  | own req res now _ rest other reading own modest =>
    have silent : HttpServerSession.handed rest = none := modest.aside.private.handed
    simp [HttpServerSession.handed,silent] at handed
  | answers opt_res now _ rest busy modest =>
    have silent : HttpServerSession.handed rest = none := modest.aside.private.handed
    simp [HttpServerSession.handed,silent] at handed
  | aside a _ out _ _ modest =>
    rw [modest.aside.private.handed] at handed
    cases handed

/-- A session that has a request with the service takes the answer. -/
theorem respond_eq {f : Frontend cache} {id : Nat} {c : Client} (found : f.clients[id]? = some c)
    (busy : 0 < c.session.serving) (opt_res : Option Response) (now : Int) :
    ∃ s told, HttpServerSession.step c.session (.answer opt_res now) = some (s,told) ∧
      respond id opt_res now f = ({ f with clients := f.clients.set id ⟨s,true⟩ },told.map (.session id)) := by
  obtain ⟨serving,count⟩ : ∃ serving, c.session.serving = serving + 1 := ⟨c.session.serving - 1,by omega⟩
  refine ⟨(HttpServerSession.send_response opt_res now { c.session with serving := c.session.serving - 1 }).1,
    (HttpServerSession.send_response opt_res now { c.session with serving := c.session.serving - 1 }).2,?_,?_⟩
  · simp [HttpServerSession.step,count]
  · simp [respond,found,update]

theorem answerOf_lost {replied : List Service.Event} {call : BackendCall} {res : Response} {m : Moment} {req : Request}
    (shape : replied = [] ∨ replied = [Service.Event.replied call.backend call.id res m]) (e : Exception) :
    answerOf (replied ++ [.lost req e]) = none := by
  rcases shape with rfl | rfl <;> rfl

theorem answerOf_sent {replied : List Service.Event} {call : BackendCall} {res : Response} {m : Moment} {req : Request}
    (shape : replied = [] ∨ replied = [Service.Event.replied call.backend call.id res m]) (opt_res : Option Response)
    (m' : Moment) : answerOf (replied ++ [.sent req opt_res m']) = some opt_res := by
  rcases shape with rfl | rfl <;> rfl

/-- What an accept leaves of the number of sessions. -/
theorem accepted_created {s s' : BeastHttpServer} {out : List BeastHttpServer.Event}
    (taken : BeastHttpServer.step s .accepted = some (s',out)) : s'.created = s.created ∨ s'.created = s.created + 1 := by
  simp only [BeastHttpServer.step] at taken
  split at taken
  · rename_i ec ended
    rw [Option.some.injEq] at taken
    obtain rfl : _ = s' := congrArg Prod.fst taken
    cases ec with
    | none => exact .inr rfl
    | some e =>
      left
      simp only [BeastHttpServer.on_accept,BeastHttpServer.do_accept]
      split <;> rfl
  · cases taken

/-- A step that neither reads a request nor answers one hands nothing over. -/
theorem handed_of_aside {s s' : HttpServerSession} {a : HttpServerSession.Action}
    {out : List HttpServerSession.Event} (taken : HttpServerSession.step s a = some (s',out))
    (unread : ∀ req now, a ≠ .read (.ok req) now) (unanswered : ∀ opt_res now, a ≠ .answer opt_res now) :
    HttpServerSession.handed out = none := by
  cases HttpServerSession.step_utters taken with
  | asks req now => exact absurd rfl (unread req now)
  | own req res now => exact absurd rfl (unread req now)
  | answers opt_res now => exact absurd rfl (unanswered opt_res now)
  | aside a _ out _ _ modest => exact modest.aside.private.handed

theorem act_taken {f f' : Frontend cache} {id : Nat} {b : HttpServerSession.Action} {out : List Event}
    (acted : act id b f = some (f',out)) (unread : ∀ req now, b ≠ .read (.ok req) now)
    (unanswered : ∀ opt_res now, b ≠ .answer opt_res now) (a : Action) (other : ∀ id, a ≠ .finish id) :
    Taken config library f a f' out := by
  obtain ⟨c,s,told,found,dispatched,stepped,rfl,rfl⟩ := act_eq_some.mp acted
  exact .moving a b id c s told other found dispatched unanswered stepped (handed_of_aside stepped unread unanswered)

theorem move_taken {f f' : Frontend cache} {a : Action} {out : List Event}
    (moved : move config library f a = some (f',out)) : Taken config library f a f' out := by
  cases a with
  | ends ec =>
    simp only [move,Option.map_eq_some_iff,Prod.mk.injEq,Prod.exists] at moved
    obtain ⟨server,told,stepped,rfl,rfl⟩ := moved
    have same : server.created = f.server.created := by
      simp only [BeastHttpServer.step,Option.ite_none_right_eq_some,Option.some.injEq,Prod.mk.injEq] at stepped
      obtain ⟨_,rfl,_⟩ := stepped
      rfl
    exact .listening _ _ server told stepped same (by simp) (by simp) (by simp)
  | accepted =>
    simp only [move,Option.map_eq_some_iff,Prod.mk.injEq,Prod.exists] at moved
    obtain ⟨server,told,stepped,rfl,rfl⟩ := moved
    rcases accepted_created stepped with same | one
    · rw [if_pos same]
      exact .listening _ _ server told stepped same (by simp) (by simp) (by simp)
    · rw [if_neg (by omega)]
      exact .accepting server told stepped one
  | finish id =>
    simp only [move] at moved
    split at moved
    · cases moved
    · rename_i c found
      split at moved
      · cases moved
      · rename_i unset
        simp only [Option.map_eq_some_iff,Prod.mk.injEq,Prod.exists] at moved
        obtain ⟨server,told,stepped,rfl,rfl⟩ := moved
        have same : server.created = f.server.created := by
          simp only [BeastHttpServer.step,BeastHttpServer.on_session_finish,Option.ite_none_right_eq_some,
            Option.some.injEq,Prod.mk.injEq] at stepped
          obtain ⟨_,rfl,_⟩ := stepped
          rfl
        refine .listening _ _ server told stepped same (by simp) (by simp) ?_
        rintro id' ⟨⟩
        exact ⟨c,found,by simpa using unset⟩
  | stop =>
    simp only [move,Option.some.injEq,Prod.mk.injEq] at moved
    obtain ⟨rfl,rfl⟩ := moved
    exact .stopping
  | run id now =>
    simp only [move] at moved
    split at moved
    · cases moved
    · rename_i c found
      split at moved
      · cases moved
      · rename_i undispatched
        simp only [Option.some.injEq,Prod.mk.injEq] at moved
        obtain ⟨rfl,rfl⟩ := moved
        exact .dispatching id now c found (by simpa using undispatched)
  | read id result arrived starts m now =>
    simp only [move] at moved
    split at moved
    · cases moved
    · rename_i g told acted
      obtain ⟨c,s,told,found,dispatched,stepped,rfl,rfl⟩ := act_eq_some.mp acted
      rw [ofSession_session] at moved
      split at moved
      · rename_i silent
        simp only [Option.some.injEq,Prod.mk.injEq] at moved
        obtain ⟨rfl,rfl⟩ := moved
        exact .moving _ _ id c s told (by simp) found dispatched (by simp) stepped silent
      · rename_i req received handed
        simp only [Option.map_eq_some_iff,Prod.mk.injEq,Prod.exists] at moved
        obtain ⟨g,more,served,rfl,rfl⟩ := moved
        unfold serve at served
        split at served
        · cases served
        · rename_i service heard entered
          have inside : id < f.clients.length := (List.getElem?_eq_some_iff.mp found).1
          rcases service_request entered with ⟨opt_res,rfl,calls⟩ | ⟨call,rfl,calls⟩
          · simp only [answerOf,Option.some.injEq,Prod.mk.injEq] at served
            obtain ⟨rfl,rfl⟩ := served
            have here : ({ f with service := service, clients := f.clients.set id ⟨s,true⟩ } : Frontend cache).clients[id]? =
                some ⟨s,true⟩ := by simp [inside]
            have busy : 0 < s.serving := by
              have one := serving_of_handed stepped handed
              omega
            obtain ⟨t,more,answered,executed⟩ := respond_eq here busy opt_res now
            rw [executed]
            simp only [List.set_set]
            exact .answering id c result arrived s t told more req received starts m now service opt_res found dispatched
              stepped handed entered calls answered
          · simp only [answerOf,Option.some.injEq,Prod.mk.injEq] at served
            obtain ⟨rfl,rfl⟩ := served
            exact .calling id c result arrived s told req received starts m now service call found dispatched stepped
              handed entered calls
  | written id ec now => exact act_taken moved (by simp) (by simp) _ (by simp)
  | expire id write => exact act_taken moved (by simp) (by simp) _ (by simp)
  | timer id write => exact act_taken moved (by simp) (by simp) _ (by simp)
  | complete position res ec m now =>
    simp only [move,complete] at moved
    split at moved
    · cases moved
    · rename_i id caller
      split at moved
      · cases moved
      · rename_i service heard completed
        obtain ⟨req,call,replied,pending,calls,shape,⟨r,rfl⟩ | ⟨e,rfl⟩⟩ := service_complete completed
        · rw [answerOf_sent shape] at moved
          simp only [Option.some.injEq,Prod.mk.injEq] at moved
          obtain ⟨rfl,rfl⟩ := moved
          refine .completing position res ec m now id req call service _ (some r) _ _ caller pending completed calls
            (by simp) ?_ rfl
          intro req' e lost
          rcases shape with rfl | rfl <;> simp at lost
        · rw [answerOf_lost shape] at moved
          simp only [Option.some.injEq,Prod.mk.injEq] at moved
          obtain ⟨rfl,rfl⟩ := moved
          refine .losing position res ec m now id req call service replied e caller pending completed calls ?_
          intro req' e lost
          rcases shape with rfl | rfl <;> simp at lost

theorem step_taken {f f' : Frontend cache} {a : Action} {out : List Event}
    (taken : step config library f a = some (f',out)) :
    Taken config library f a f' out ∧ (a.isHandler = true → f.threads ≠ 0) := by
  simp only [step,Option.ite_none_left_eq_some,not_and] at taken
  exact ⟨move_taken taken.2,taken.1⟩

end Frontend
end Facade
