import Facade.Frontend

/-!
Runs of the whole server. However the handlers of the sessions, of the service and
of the acceptor are interleaved, each of them is in a state that a run of its own
leads to, and a pending backend call is for the request that its session waits
with (`coherent_run`).
-/
namespace Facade.Frontend
open Strings Http Backendify
open HttpServerSession (dialogue)

/-- The session is where a run of it leads, once it is dispatched. -/
inductive Lived (config : AppConfig) (c : Client) (log : List HttpServerSession.Event) : Prop
  | waiting (stopped : Bool) : c.dispatched = false →
      c.session = (if stopped then (fresh config).session.stop else (fresh config).session) → log = [] →
      Lived config c log
  | running (stopped : Bool) (first : Int) (actions : List HttpServerSession.Action) : c.dispatched = true →
      Runs.Run HttpServerSession.step (.started true config.max_response_queue_size stopped first) actions c.session log →
      Lived config c log

section
variable {cache : CacheInterface} (config : AppConfig) (library : JsonLibrary)

/-- Every part is in a state of a run of its own. -/
structure Parts (f : Frontend cache) (log : List Event) : Prop where
  lived : ∀ id c, f.clients[id]? = some c → Lived config c (ofSession id log)
  strangers : ∀ id, f.clients.length ≤ id → ofSession id log = []
  created : f.server.created = f.clients.length
  service : ∃ actions, Runs.Run (Service.step cache config library) (Service.start cache) actions f.service (ofService log)
  server : ∃ actions, Runs.Run BeastHttpServer.step .launched actions f.server (ofServer log)

end

/-- The calls of the service are for the requests that their sessions wait with,
    one for a session. -/
structure Matched {cache : CacheInterface} (f : Frontend cache) (log : List Event) : Prop where
  aligned : f.callers.length = f.service.calls.length
  distinct : f.callers.Nodup
  waiting : ∀ position id : Nat, f.callers[position]? = some id → ∃ c req call, f.clients[id]? = some c ∧
    c.dispatched = true ∧ f.service.calls[position]? = some (req,call) ∧
    (dialogue (ofSession id log)).pending = some req

variable {cache : CacheInterface} {config : AppConfig} {library : JsonLibrary}

/-- No session but one tells anything. -/
def Only (id : Nat) (out : List Event) : Prop := ∀ j, j ≠ id → ofSession j out = []

theorem only_session (id : Nat) (out : List HttpServerSession.Event) : Only id (out.map (.session id)) :=
  fun _ other => ofSession_other id other out

theorem only_service (id : Nat) (out : List Service.Event) : Only id (out.map .service) :=
  fun _ _ => ofSession_service _ out

theorem Only.append {id : Nat} {out more : List Event} (first : Only id out) (second : Only id more) :
    Only id (out ++ more) := by
  intro j other
  rw [ofSession_append,first j other,second j other,List.append_nil]

/-! ### The sessions -/

theorem Lived.advance {c : Client} {log out : List HttpServerSession.Event} {s : HttpServerSession}
    {actions : List HttpServerSession.Action} (lived : Lived config c log) (dispatched : c.dispatched = true)
    (executed : Runs.exec HttpServerSession.step c.session actions = some (s,out)) :
    Lived config ⟨s,true⟩ (log ++ out) := by
  cases lived with
  | waiting stopped undispatched => rw [dispatched] at undispatched; cases undispatched
  | running stopped first earlier _ run => exact .running stopped first _ rfl (run.append_exec executed)

theorem exec_one {s t : HttpServerSession} {a : HttpServerSession.Action} {out : List HttpServerSession.Event}
    (taken : HttpServerSession.step s a = some (t,out)) : Runs.exec HttpServerSession.step s [a] = some (t,out) := by
  simp [Runs.exec,taken]

theorem exec_two {s t u : HttpServerSession} {a b : HttpServerSession.Action} {out more : List HttpServerSession.Event}
    (first : HttpServerSession.step s a = some (t,out)) (second : HttpServerSession.step t b = some (u,more)) :
    Runs.exec HttpServerSession.step s [a,b] = some (u,out ++ more) := by
  simp [Runs.exec,first,second]

theorem Lived.dispatch {c : Client} {log : List HttpServerSession.Event} (lived : Lived config c log)
    (undispatched : c.dispatched = false) (now : Int) :
    Lived config ⟨(HttpServerSession.do_read now c.session).1,true⟩ log := by
  cases lived with
  | waiting stopped _ still empty =>
    subst empty
    rw [still]
    exact .running stopped now [] rfl .start
  | running stopped first actions dispatched _ => rw [undispatched] at dispatched; cases dispatched

theorem Lived.stop {c : Client} {log : List HttpServerSession.Event} (lived : Lived config c log) :
    Lived config { c with session := c.session.stop } log := by
  cases lived with
  | waiting stopped undispatched still empty =>
    refine .waiting true undispatched ?_ empty
    simp only [still]
    cases stopped <;> rfl
  | running stopped first actions dispatched run =>
    have longer := run.next (show HttpServerSession.step c.session .stop = some (c.session.stop,[]) from rfl)
    rw [List.append_nil] at longer
    exact .running stopped first _ dispatched longer

/-- A dispatched session keeps what every run keeps. -/
theorem Lived.faithful {c : Client} {log : List HttpServerSession.Event} (lived : Lived config c log)
    (positive : 1 ≤ config.max_response_queue_size) (dispatched : c.dispatched = true) :
    HttpServerSession.Faithful true c.session log := by
  cases lived with
  | waiting stopped undispatched => rw [dispatched] at undispatched; cases undispatched
  | running stopped first actions _ run => exact HttpServerSession.spoken_run positive run

/-- How a step of a dispatched session continues its dialogue. -/
theorem Lived.continues {c : Client} {log out : List HttpServerSession.Event} {a : HttpServerSession.Action}
    {s : HttpServerSession} (lived : Lived config c log) (positive : 1 ≤ config.max_response_queue_size)
    (dispatched : c.dispatched = true) (taken : HttpServerSession.step c.session a = some (s,out)) :
    HttpServerSession.Continues c.session log a out := by
  have faithful := lived.faithful positive dispatched
  exact (HttpServerSession.spoken_step faithful.orderly faithful.spoken faithful.routed
    (HttpServerSession.step_utters taken)).2.2

/-! ### The parts -/

/-- What holds of every session with its log still does when one of them moves. -/
theorem each_set {P : Client → List HttpServerSession.Event → Prop} {clients : List Client} {log out : List Event}
    {id : Nat} {c : Client} (each : ∀ j d, clients[j]? = some d → P d (ofSession j log))
    (moved : P c (ofSession id (log ++ out))) (only : Only id out) :
    ∀ j d, (clients.set id c)[j]? = some d → P d (ofSession j (log ++ out)) := by
  intro j d found
  rw [List.getElem?_set] at found
  by_cases same : id = j
  · subst same
    simp only [↓reduceIte,Option.ite_none_right_eq_some,Option.some.injEq] at found
    rw [← found.2]
    exact moved
  · rw [if_neg same] at found
    rw [ofSession_append,only j (Ne.symm same),List.append_nil]
    exact each j d found

/-- One session moves, and the service may. -/
theorem Parts.move {f : Frontend cache} {log out : List Event} {id : Nat} {c d : Client} {service : Service cache}
    {callers : List Nat} {threads : Nat} (parts : Parts config library f log) (found : f.clients[id]? = some c)
    (moved : Lived config d (ofSession id (log ++ out))) (only : Only id out) (quiet : ofServer out = [])
    (served : ∃ actions, Runs.Run (Service.step cache config library) (Service.start cache) actions service
      (ofService (log ++ out))) :
    Parts config library ⟨f.server,f.clients.set id d,service,callers,threads⟩ (log ++ out) := by
  refine ⟨each_set parts.lived moved only,?_,?_,served,?_⟩
  · intro j beyond
    rw [List.length_set] at beyond
    have inside := (List.getElem?_eq_some_iff.mp found).1
    have other : j ≠ id := by omega
    rw [ofSession_append,only j other,parts.strangers j beyond,List.nil_append]
  · rw [List.length_set]
    exact parts.created
  · rw [ofServer_append,quiet,List.append_nil]
    exact parts.server

/-- The server moves, and tells the sessions nothing. -/
theorem Parts.listen {f : Frontend cache} {log : List Event} {server : BeastHttpServer} {clients : List Client}
    {b : BeastHttpServer.Action} {out : List BeastHttpServer.Event} (parts : Parts config library f log)
    (stepped : BeastHttpServer.step f.server b = some (server,out)) (created : server.created = clients.length)
    (more : f.clients.length ≤ clients.length)
    (lived : ∀ id c, clients[id]? = some c → Lived config c (ofSession id log)) :
    Parts config library { f with server := server, clients := clients } (log ++ out.map .server) := by
  obtain ⟨accepts,run⟩ := parts.server
  refine ⟨?_,?_,created,?_,⟨accepts ++ [b],?_⟩⟩
  · intro id c found
    simpa using lived id c found
  · intro id beyond
    simpa using parts.strangers id (more.trans beyond)
  · simpa using parts.service
  · rw [ofServer_append,ofServer_server]
    exact run.next stepped

theorem Parts.served {f : Frontend cache} {log : List Event} {a : Service.Action} {service : Service cache}
    {told : List Service.Event} (parts : Parts config library f log)
    (taken : Service.step cache config library f.service a = some (service,told)) :
    ∃ actions, Runs.Run (Service.step cache config library) (Service.start cache) actions service
      (ofService log ++ told) := by
  obtain ⟨actions,run⟩ := parts.service
  exact ⟨actions ++ [a],run.next taken⟩

/-! ### The calls -/

/-- One session moves; if it has a call, it waits as before. -/
theorem Matched.move {f : Frontend cache} {log out : List Event} {id : Nat} {s : HttpServerSession}
    {service : Service cache} (matched : Matched f log) (only : Only id out)
    (calls : service.calls = f.service.calls)
    (kept : id ∈ f.callers → (dialogue (ofSession id (log ++ out))).pending = (dialogue (ofSession id log)).pending) :
    Matched ⟨f.server,f.clients.set id ⟨s,true⟩,service,f.callers,f.threads⟩ (log ++ out) := by
  refine ⟨by rw [calls]; exact matched.aligned,matched.distinct,?_⟩
  intro position j caller
  obtain ⟨d,req,call,found,dispatched,pending,waits⟩ := matched.waiting position j caller
  rw [calls]
  by_cases same : j = id
  · subst same
    have inside := (List.getElem?_eq_some_iff.mp found).1
    exact ⟨⟨s,true⟩,req,call,by simp [inside],rfl,pending,(kept (List.mem_of_getElem? caller)).trans waits⟩
  · refine ⟨d,req,call,?_,dispatched,pending,?_⟩
    · rw [List.getElem?_set_ne (Ne.symm same)]
      exact found
    · rw [ofSession_append,only j same,List.append_nil]
      exact waits

/-- The server moves, and the sessions keep their places. -/
theorem Matched.listen {f : Frontend cache} {log : List Event} {server : BeastHttpServer} {clients : List Client}
    {out : List BeastHttpServer.Event} (matched : Matched f log)
    (same : ∀ (id : Nat) (c : Client), f.clients[id]? = some c →
      ∃ d : Client, clients[id]? = some d ∧ d.dispatched = c.dispatched) :
    Matched { f with server := server, clients := clients } (log ++ out.map .server) := by
  refine ⟨matched.aligned,matched.distinct,?_⟩
  intro position id caller
  obtain ⟨c,req,call,found,dispatched,pending,waits⟩ := matched.waiting position id caller
  obtain ⟨d,there,flag⟩ := same id c found
  exact ⟨d,req,call,there,flag.trans dispatched,pending,by simpa using waits⟩

/-- A session without a request that waits has no call. -/
theorem Matched.not_caller {f : Frontend cache} {log : List Event} (matched : Matched f log) {id : Nat}
    (idle : (dialogue (ofSession id log)).pending = none) : id ∉ f.callers := by
  intro member
  obtain ⟨position,caller⟩ := List.mem_iff_getElem?.mp member
  obtain ⟨_,req,_,_,_,_,waits⟩ := matched.waiting position id caller
  rw [idle] at waits
  cases waits

/-- A call is made for the request that a session waits with. -/
theorem Matched.enter {f : Frontend cache} {log : List Event} {id : Nat} {c : Client} {req : Request}
    {call : BackendCall} {service : Service cache} (matched : Matched f log) (found : f.clients[id]? = some c)
    (dispatched : c.dispatched = true) (waits : (dialogue (ofSession id log)).pending = some req)
    (free : id ∉ f.callers) (calls : service.calls = f.service.calls ++ [(req,call)]) :
    Matched { f with service := service, callers := f.callers ++ [id] } log := by
  refine ⟨by simp [calls,matched.aligned],?_,?_⟩
  · refine List.nodup_append.mpr ⟨matched.distinct,by simp,?_⟩
    intro a old b new same
    rw [List.mem_singleton.mp new] at same
    exact free (same ▸ old)
  · intro position j caller
    rw [List.getElem?_append] at caller
    simp only [calls]
    split at caller
    · rename_i earlier
      obtain ⟨d,req',call',there,running,pending,waiting⟩ := matched.waiting position j caller
      refine ⟨d,req',call',there,running,?_,waiting⟩
      rw [List.getElem?_append_left (by rw [← matched.aligned]; exact earlier)]
      exact pending
    · rename_i later
      obtain ⟨last,rfl⟩ := List.getElem?_eq_some_iff.mp caller
      have place : position = f.callers.length := by
        simp only [List.length_singleton] at last
        omega
      subst place
      simp only [Nat.sub_self,List.getElem_cons_zero]
      exact ⟨c,req,call,found,dispatched,by rw [matched.aligned]; simp,waits⟩

/-- A call that is over leaves its session without one. -/
theorem Matched.leave {f : Frontend cache} {log : List Event} {position id : Nat} {service : Service cache}
    (matched : Matched f log) (threads : Nat) (caller : f.callers[position]? = some id)
    (calls : service.calls = f.service.calls.eraseIdx position) :
    Matched { f with service := service, callers := f.callers.eraseIdx position, threads := threads } log ∧
      id ∉ f.callers.eraseIdx position := by
  have apart : id ∉ f.callers.eraseIdx position := by
    intro member
    obtain ⟨place,other,there⟩ := List.mem_eraseIdx_iff_getElem?.mp member
    have inside := (List.getElem?_eq_some_iff.mp there).1
    exact other ((List.getElem?_inj inside matched.distinct).mp (there.trans caller.symm))
  refine ⟨⟨?_,?_,?_⟩,apart⟩
  · simp only [calls,List.length_eraseIdx,matched.aligned]
  · exact matched.distinct.eraseIdx position
  · intro place j found
    simp only [calls]
    rw [List.getElem?_eraseIdx] at found
    rw [List.getElem?_eraseIdx]
    split at found
    · rename_i before
      rw [if_pos before]
      exact matched.waiting place j found
    · rename_i after
      rw [if_neg after]
      exact matched.waiting (place + 1) j found

/-- The numbers of the sessions stay what they are when all stop. -/
theorem stopAll_getElem? (ids : List Nat) (clients : List Client) (id : Nat) :
    (stopAll ids clients)[id]? = clients[id]?.map fun c => if id ∈ ids then { c with session := c.session.stop } else c := by
  simp [stopAll]

/-! ### One step -/

theorem Parts.continues {f : Frontend cache} {log : List Event} (parts : Parts config library f log)
    (positive : 1 ≤ config.max_response_queue_size) {id : Nat} {c : Client} {a : HttpServerSession.Action}
    {s : HttpServerSession} {out : List HttpServerSession.Event} (found : f.clients[id]? = some c)
    (dispatched : c.dispatched = true) (taken : HttpServerSession.step c.session a = some (s,out)) :
    HttpServerSession.Continues c.session (ofSession id log) a out :=
  (parts.lived id c found).continues positive dispatched taken

/-- The session of a call waits with the request of the call, and takes the answer. -/
theorem Parts.completes {f f' : Frontend cache} {log out : List Event} (parts : Parts config library f log)
    (positive : 1 ≤ config.max_response_queue_size) (matched : Matched f log) {position id : Nat} {req : Request}
    {call : BackendCall} {service : Service cache} {opt_res : Option Response} {now : Int}
    (caller : f.callers[position]? = some id) (pending : f.service.calls[position]? = some (req,call))
    (responded : respond id opt_res now { f with service := service, callers := f.callers.eraseIdx position } =
      (f',out)) :
    ∃ c s heard, f.clients[id]? = some c ∧ c.dispatched = true ∧
      (dialogue (ofSession id log)).pending = some req ∧
      HttpServerSession.step c.session (.answer opt_res now) = some (s,heard) ∧
      f' = { f with service := service, callers := f.callers.eraseIdx position, clients := f.clients.set id ⟨s,true⟩ } ∧
      out = heard.map (.session id) := by
  obtain ⟨c,req',call',found,dispatched,there,waits⟩ := matched.waiting position id caller
  rw [pending,Option.some.injEq,Prod.mk.injEq] at there
  obtain ⟨rfl,rfl⟩ := there
  have busy : 0 < c.session.serving := by
    rw [((parts.lived id c found).faithful positive dispatched).spoken.waits,waits]
    simp
  obtain ⟨s,heard,answered,executed⟩ := respond_eq
    (f := { f with service := service, callers := f.callers.eraseIdx position }) found busy opt_res now
  rw [executed] at responded
  obtain ⟨rfl,rfl⟩ := Prod.mk.inj responded
  exact ⟨c,s,heard,found,dispatched,waits,answered,rfl,rfl⟩

/-- Every step keeps the parts and the calls. -/
theorem coherent_step (positive : 1 ≤ config.max_response_queue_size) {f f' : Frontend cache} {a : Action}
    {log out : List Event} (parts : Parts config library f log) (matched : Matched f log)
    (taken : Taken config library f a f' out) : Parts config library f' (log ++ out) ∧ Matched f' (log ++ out) := by
  cases taken with
  | listening a b server' out stepped same =>
    refine ⟨parts.listen stepped (same.trans parts.created) le_rfl parts.lived,matched.listen ?_⟩
    exact fun id c found => ⟨c,found,rfl⟩
  | accepting server' out stepped one =>
    refine ⟨parts.listen stepped ?_ (by simp) ?_,matched.listen ?_⟩
    · rw [one,parts.created,List.length_append,List.length_singleton]
    · intro id c found
      rw [List.getElem?_append] at found
      split at found
      · exact parts.lived id c found
      · rename_i beyond
        rw [parts.strangers id (by omega)]
        obtain ⟨here,rfl⟩ := List.getElem?_eq_some_iff.mp found
        simp only [List.getElem_singleton]
        exact .waiting false rfl rfl rfl
    · intro id c found
      refine ⟨c,?_,rfl⟩
      rw [List.getElem?_append_left (List.getElem?_eq_some_iff.mp found).1]
      exact found
  | stopping =>
    have stepped : BeastHttpServer.step f.server .stop = some (f.server.stop.1,f.server.stop.2) := rfl
    refine ⟨parts.listen stepped ?_ (by simp [stopAll]) ?_,matched.listen ?_⟩
    · exact parts.created.trans (by simp [stopAll])
    · intro id c found
      rw [stopAll_getElem?,Option.map_eq_some_iff] at found
      obtain ⟨d,there,rfl⟩ := found
      split
      · exact (parts.lived id d there).stop
      · exact parts.lived id d there
    · intro id c found
      refine ⟨_,by rw [stopAll_getElem?,found,Option.map_some],?_⟩
      split <;> rfl
  | dispatching id now c found undispatched =>
    have silent : ofSession id (log ++ []) = ofSession id log := by simp
    refine ⟨parts.move found ?_ (fun _ _ => rfl) rfl (by simpa using parts.service),
      matched.move (fun _ _ => rfl) rfl (fun _ => by rw [silent])⟩
    rw [silent]
    exact (parts.lived id c found).dispatch undispatched now
  | moving a b id c s out _ found dispatched unanswered stepped silent =>
    have own : ofSession id (log ++ out.map (.session id)) = ofSession id log ++ out := by simp
    have only := only_session id out
    refine ⟨parts.move found ?_ only (by simp) (by simpa using parts.service),matched.move only rfl ?_⟩
    · rw [own]
      exact (parts.lived id c found).advance dispatched (exec_one stepped)
    · intro caller
      rw [own]
      have called (idle : (dialogue (ofSession id log)).pending = none) : id ∉ f.callers := matched.not_caller idle
      cases parts.continues positive found dispatched stepped with
      | asks req now out _ idle => exact absurd caller (called idle)
      | own req res now out _ _ idle => exact absurd caller (called idle)
      | answers req opt_res now out => exact absurd rfl (unanswered opt_res now)
      | aside b out _ same => rw [same]
  | answering id c result arrived s t out more req received starts m now service' opt_res found dispatched stepped handed
      entered calls answered =>
    have own : ofSession id (log ++ (out.map (.session id) ++ ([Service.Event.sent req opt_res m].map .service ++
        more.map (.session id)))) = ofSession id log ++ (out ++ more) := by simp
    have only := (only_session id out).append ((only_service id [.sent req opt_res m]).append (only_session id more))
    refine ⟨parts.move found ?_ only (by simp) (by simpa using parts.served entered),
      matched.move only calls ?_⟩
    · rw [own]
      exact (parts.lived id c found).advance dispatched (exec_two stepped answered)
    · intro caller
      obtain ⟨_,idle,_⟩ := (parts.continues positive found dispatched stepped).asked handed
      exact absurd caller (matched.not_caller idle)
  | calling id c result arrived s out req received starts m now service' call found dispatched stepped handed entered
      calls =>
    have own : ofSession id (log ++ (out.map (.session id) ++ [Service.Event.called req call.backend].map .service)) =
        ofSession id log ++ out := by simp
    have only := (only_session id out).append (only_service id [.called req call.backend])
    have inside : id < f.clients.length := (List.getElem?_eq_some_iff.mp found).1
    obtain ⟨_,idle,heard⟩ := (parts.continues positive found dispatched stepped).asked handed
    have free := matched.not_caller idle
    have there := matched.move (s := s) only rfl (fun caller => absurd caller free)
    refine ⟨parts.move found ?_ only (by simp) (by simpa using parts.served entered),
      there.enter (c := ⟨s,true⟩) ?_ rfl ?_ free calls⟩
    · rw [own]
      exact (parts.lived id c found).advance dispatched (exec_one stepped)
    · simp [inside]
    · rw [own,heard]
  | completing position res ec m now id req call service' told opt_res f' out caller pending completed calls sent kept
      responded =>
    obtain ⟨c,s,heard,found,dispatched,_,answered,rfl,rfl⟩ :=
      parts.completes positive matched caller pending responded
    obtain ⟨left,free⟩ := matched.leave f.threads caller calls
    have own : ofSession id (log ++ (told.map .service ++ heard.map (.session id))) = ofSession id log ++ heard := by simp
    have only := (only_service id told).append (only_session id heard)
    refine ⟨parts.move found ?_ only (by simp) (by simpa using parts.served completed),
      left.move only rfl (fun member => absurd member free)⟩
    rw [own]
    exact (parts.lived id c found).advance dispatched (exec_one answered)
  | losing position res ec m now id req call service' told e caller pending completed calls kept =>
    obtain ⟨left,_⟩ := matched.leave (f.threads - 1) caller calls
    have silent : ∀ j, ofSession j (log ++ (told ++ [Service.Event.lost req e]).map .service) = ofSession j log := by
      intro j
      rw [ofSession_append,ofSession_service,List.append_nil]
    refine ⟨⟨?_,?_,parts.created,?_,?_⟩,left.aligned,left.distinct,?_⟩
    · intro j d found
      rw [silent]
      exact parts.lived j d found
    · intro j beyond
      rw [silent]
      exact parts.strangers j beyond
    · rw [ofService_append,ofService_service]
      exact parts.served completed
    · rw [ofServer_append,ofServer_service,List.append_nil]
      exact parts.server
    · intro place j there
      rw [silent]
      exact left.waiting place j there

theorem coherent_run (positive : 1 ≤ config.max_response_queue_size) {actions : List Action} {f : Frontend cache}
    {log : List Event} (run : Runs.Run (step config library) (start cache config) actions f log) :
    Parts config library f log ∧ Matched f log := by
  refine run.invariant (fun f log => Parts config library f log ∧ Matched f log) ?_ ?_
  · refine ⟨⟨by simp [start],by simp,rfl,⟨[],.start⟩,⟨[],.start⟩⟩,⟨rfl,by simp [start],by simp [start]⟩⟩
  · rintro f log a f' out ⟨parts,matched⟩ taken
    exact coherent_step positive parts matched (step_taken taken).1

/-- Every run of the whole server is a run of its service, of its acceptor, and of each
    session whose first handler has run, each with the events that are its own. -/
theorem run_projects (config : AppConfig) (positive : 1 ≤ config.max_response_queue_size) (cache : CacheInterface)
    (library : JsonLibrary) (actions : List Action) (f : Frontend cache) (log : List Event)
    (run : Runs.Run (step config library) (start cache config) actions f log) :
    (∃ requests, Runs.Run (Service.step cache config library) (Service.start cache) requests f.service
      (ofService log)) ∧
    (∃ accepts, Runs.Run BeastHttpServer.step .launched accepts f.server (ofServer log)) ∧
    ∀ id c, f.clients[id]? = some c → c.dispatched = true → ∃ stopped first handlers,
      Runs.Run HttpServerSession.step (.started true config.max_response_queue_size stopped first) handlers c.session
        (ofSession id log) := by
  obtain ⟨parts,_⟩ := coherent_run positive run
  refine ⟨parts.service,parts.server,?_⟩
  intro id c found dispatched
  cases parts.lived id c found with
  | waiting stopped undispatched => rw [dispatched] at undispatched; cases undispatched
  | running stopped first handlers _ session => exact ⟨stopped,first,handlers,session⟩

/-- A connection that is accepted and asks for a company. -/
def oneCall : List Action := [.ends none,.accepted,.run 0 0,.read 0 (.ok companyRequest) 0 true epoch 0]

theorem run_projects_oneCall : ∃ f log,
    Runs.Run (step usConfig vagueLibrary) (start .everlasting usConfig) oneCall f log ∧
    (∃ requests, Runs.Run (Service.step .everlasting usConfig vagueLibrary) (Service.start .everlasting) requests
      f.service (ofService log)) ∧ f.service.calls.length = 1 ∧ f.callers = [0] ∧
    ∃ c, f.clients[0]? = some c ∧ ∃ stopped first handlers, Runs.Run HttpServerSession.step
      (.started true usConfig.max_response_queue_size stopped first) handlers c.session (ofSession 0 log) := by
  have executed : (Runs.exec (step usConfig vagueLibrary) (start .everlasting usConfig) oneCall).isSome = true := by
    decide +kernel
  have run := Runs.Run.of_isSome executed
  obtain ⟨service,_,sessions⟩ := run_projects usConfig (by decide) .everlasting vagueLibrary oneCall _ _ run
  refine ⟨_,_,run,service,by decide +kernel,by decide +kernel,_,rfl,sessions 0 _ rfl ?_⟩
  decide +kernel

end Facade.Frontend
