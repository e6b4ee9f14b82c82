import Facade.FrontendRuns

/-!
What becomes of the whole server: of its requests and its threads when handlers
throw (`threads_left`), of its sessions when it stops (`stop_ends_writing`), and of
the set in which it keeps them (`active_sessions_iff`).
-/
namespace Facade.Frontend
open Strings Http Backendify
open HttpServerSession (Quiet)

variable {cache : CacheInterface} {config : AppConfig} {library : JsonLibrary}

/-! ### Requests and threads -/

/-- Whether an event is the end of a handler by an exception. -/
def isLost : Service.Event → Bool
  | .lost _ _ => true
  | _ => false

/-- The number of handlers of backend calls that threw. -/
def lost (log : List Service.Event) : Nat := log.countP isLost

/-- The number of requests that the sessions wait with. -/
def waitingRequests (clients : List Client) : Nat := (clients.map fun c => c.session.serving).sum

theorem lost_append (log more : List Service.Event) : lost (log ++ more) = lost log + lost more := List.countP_append

theorem lost_eq_zero {told : List Service.Event} (kept : ∀ req e, Service.Event.lost req e ∉ told) : lost told = 0 := by
  refine List.countP_eq_zero.mpr ?_
  intro event member
  cases event with
  | lost req e => exact absurd member (kept req e)
  | _ => simp [isLost]

theorem waitingRequests_set {clients : List Client} {id : Nat} {c : Client} (found : clients[id]? = some c)
    (d : Client) : waitingRequests (clients.set id d) + c.session.serving = waitingRequests clients + d.session.serving := by
  induction clients generalizing id with
  | nil => simp at found
  | cons first rest ih =>
    cases id with
    | zero =>
      simp only [List.getElem?_cons_zero,Option.some.injEq] at found
      subst found
      simp only [waitingRequests,List.set_cons_zero,List.map_cons,List.sum_cons]
      omega
    | succ id =>
      have found : rest[id]? = some c := by simpa using found
      have later := ih found
      simp only [waitingRequests,List.set_cons_succ,List.map_cons,List.sum_cons] at later ⊢
      omega

theorem waitingRequests_stopAll (ids : List Nat) (clients : List Client) :
    waitingRequests (stopAll ids clients) = waitingRequests clients := by
  have same : (stopAll ids clients).map (fun c => c.session.serving) = clients.map fun c => c.session.serving := by
    refine List.ext_getElem? fun id => ?_
    rw [List.getElem?_map,List.getElem?_map,stopAll_getElem?,Option.map_map]
    congr 1
    funext c
    simp only [Function.comp_apply]
    split <;> rfl
  rw [waitingRequests,same,waitingRequests]

/-- A step of a session that hands nothing over and answers nothing keeps what the
    service has of it. -/
theorem serving_of_unhanded {s s' : HttpServerSession} {a : HttpServerSession.Action}
    {out : List HttpServerSession.Event} (taken : HttpServerSession.step s a = some (s',out))
    (silent : HttpServerSession.handed out = none) (unanswered : ∀ opt_res now, a ≠ .answer opt_res now) :
    s'.serving = s.serving := by
  cases HttpServerSession.step_utters taken with
  | asks req now => simp [HttpServerSession.handed] at silent
  | own req res now _ rest _ _ _ modest => exact modest.keeps.serving
  | answers opt_res now => exact absurd rfl (unanswered opt_res now)
  | aside a _ out _ _ modest => exact modest.keeps.serving

theorem serving_of_answer {s s' : HttpServerSession} {opt_res : Option Response} {now : Int}
    {out : List HttpServerSession.Event} (taken : HttpServerSession.step s (.answer opt_res now) = some (s',out)) :
    s'.serving + 1 = s.serving := by
  cases HttpServerSession.step_utters taken with
  | answers _ _ _ rest busy modest =>
    have less := modest.keeps.serving
    simp only at less
    omega
  | aside a _ out _ unanswered => exact absurd rfl (unanswered opt_res now)

/-- The requests that wait are those of the pending calls and of the handlers that
    threw, and each of these took a thread. -/
structure Balanced (config : AppConfig) (f : Frontend cache) (log : List Event) : Prop where
  requests : waitingRequests f.clients = f.callers.length + lost (ofService log)
  threads : f.threads + lost (ofService log) = config.num_io_threads.toNat + 1

theorem balanced_step (positive : 1 ≤ config.max_response_queue_size) {f f' : Frontend cache} {a : Action}
    {log out : List Event} (parts : Parts config library f log) (matched : Matched f log)
    (balanced : Balanced config f log) (taken : Taken config library f a f' out)
    (alive : a.isHandler = true → f.threads ≠ 0) : Balanced config f' (log ++ out) := by
  obtain ⟨requests,threads⟩ := balanced
  cases taken with
  | listening a b server' out => exact ⟨by simpa using requests,by simpa using threads⟩
  | accepting server' out =>
    refine ⟨?_,by simpa using threads⟩
    simpa [waitingRequests,fresh,HttpServerSession.new] using requests
  | stopping =>
    refine ⟨?_,by simpa using threads⟩
    simpa [waitingRequests_stopAll] using requests
  | dispatching id now c found =>
    have same := waitingRequests_set found ⟨(HttpServerSession.do_read now c.session).1,true⟩
    refine ⟨?_,by simpa using threads⟩
    simp only [HttpServerSession.do_read] at same
    simp only [HttpServerSession.do_read,List.append_nil]
    omega
  | moving a b id c s out _ found dispatched unanswered stepped silent =>
    have same := waitingRequests_set found ⟨s,true⟩
    have kept := serving_of_unhanded stepped silent unanswered
    refine ⟨?_,by simpa using threads⟩
    simp only [ofService_append,ofService_session,List.append_nil] at same ⊢
    omega
  | answering id c result arrived s t out more req received starts m now service' opt_res found dispatched stepped handed
      entered calls answered =>
    have same := waitingRequests_set found ⟨t,true⟩
    have one := serving_of_handed stepped handed
    have back := serving_of_answer answered
    have none_lost : lost [Service.Event.sent req opt_res m] = 0 := rfl
    refine ⟨?_,?_⟩
    · simp only [ofService_append,ofService_session,ofService_service,List.nil_append,List.append_nil,lost_append,
        none_lost] at same ⊢
      omega
    · simpa [lost_append,none_lost] using threads
  | calling id c result arrived s out req received starts m now service' call found dispatched stepped handed entered
      calls =>
    have same := waitingRequests_set found ⟨s,true⟩
    have one := serving_of_handed stepped handed
    have none_lost : lost [Service.Event.called req call.backend] = 0 := rfl
    refine ⟨?_,?_⟩
    · simp only [ofService_append,ofService_session,ofService_service,List.nil_append,lost_append,none_lost,
        List.length_append,List.length_singleton] at same ⊢
      omega
    · simpa [lost_append,none_lost] using threads
  | completing position res ec m now id req call service' told opt_res f' out caller pending completed calls sent kept
      responded =>
    obtain ⟨c,s,heard,found,dispatched,_,answered,rfl,rfl⟩ :=
      parts.completes positive matched caller pending responded
    have same := waitingRequests_set found ⟨s,true⟩
    have back := serving_of_answer answered
    have inside := (List.getElem?_eq_some_iff.mp caller).1
    have none_lost := lost_eq_zero kept
    refine ⟨?_,?_⟩
    · simp only [ofService_append,ofService_session,ofService_service,List.append_nil,lost_append,none_lost,
        List.length_eraseIdx_of_lt inside] at same ⊢
      omega
    · simpa [lost_append,none_lost] using threads
  | losing position res ec m now id req call service' told e caller pending completed calls kept =>
    have inside := (List.getElem?_eq_some_iff.mp caller).1
    have one_lost : lost (told ++ [Service.Event.lost req e]) = 1 := by
      rw [lost_append,lost_eq_zero kept]
      rfl
    have thread := alive rfl
    refine ⟨?_,?_⟩
    · simp only [ofService_append,ofService_service,lost_append (ofService log),one_lost,
        List.length_eraseIdx_of_lt inside]
      omega
    · simp only [ofService_append,ofService_service,lost_append (ofService log),one_lost]
      omega

theorem balanced_run (positive : 1 ≤ config.max_response_queue_size) {actions : List Action} {f : Frontend cache}
    {log : List Event} (run : Runs.Run (step config library) (start cache config) actions f log) :
    Balanced config f log := by
  have whole : (Parts config library f log ∧ Matched f log) ∧ Balanced config f log := by
    refine run.invariant (fun f log => (Parts config library f log ∧ Matched f log) ∧ Balanced config f log) ?_ ?_
    · exact ⟨coherent_run positive .start,rfl,rfl⟩
    · rintro f log a f' out ⟨⟨parts,matched⟩,balanced⟩ taken
      obtain ⟨moved,alive⟩ := step_taken taken
      exact ⟨coherent_step positive parts matched moved,balanced_step positive parts matched balanced moved alive⟩
  exact whole.2

/-- At any time each connection waits for one answer at most; the requests that wait
    are those of the pending backend calls, no two of one connection, and those whose
    handler threw. -/
theorem requests_waiting (config : AppConfig) (positive : 1 ≤ config.max_response_queue_size) (cache : CacheInterface)
    (library : JsonLibrary) (actions : List Action) (f : Frontend cache) (log : List Event)
    (run : Runs.Run (step config library) (start cache config) actions f log) :
    (∀ c ∈ f.clients, c.session.serving ≤ 1) ∧
    waitingRequests f.clients = f.service.calls.length + lost (ofService log) ∧
    f.callers.length = f.service.calls.length ∧ f.callers.Nodup ∧
    ∀ position id : Nat, f.callers[position]? = some id → ∃ c req call, f.clients[id]? = some c ∧
      c.session.serving = 1 ∧ f.service.calls[position]? = some (req,call) ∧
      (HttpServerSession.dialogue (ofSession id log)).pending = some req := by
  obtain ⟨parts,matched⟩ := coherent_run positive run
  have balanced := balanced_run positive run
  refine ⟨?_,matched.aligned ▸ balanced.requests,matched.aligned,matched.distinct,?_⟩
  · intro c member
    obtain ⟨id,found⟩ := List.mem_iff_getElem?.mp member
    have lived := parts.lived id c found
    cases dispatched : c.dispatched with
    | true =>
      rw [(lived.faithful positive dispatched).spoken.waits]
      cases (HttpServerSession.dialogue (ofSession id log)).pending <;> simp
    | false =>
      cases lived with
      | waiting stopped _ still =>
        rw [still]
        cases stopped <;> simp [fresh,HttpServerSession.new,HttpServerSession.stop]
      | running stopped first actions running => rw [dispatched] at running; cases running
  · intro position id caller
    obtain ⟨c,req,call,found,dispatched,pending,waits⟩ := matched.waiting position id caller
    refine ⟨c,req,call,found,?_,pending,waits⟩
    rw [((parts.lived id c found).faithful positive dispatched).spoken.waits,waits]
    rfl

/-- An action that is no handler reports nothing and takes no thread. -/
theorem unhandled_step {f f' : Frontend cache} {a : Action} {out : List Event}
    (taken : step config library f a = some (f',out)) (unhandled : a.isHandler = false) :
    out = [] ∧ f'.threads = f.threads := by
  have moved := taken
  simp only [step,Option.ite_none_left_eq_some] at moved
  cases a with
  | ends ec =>
    simp only [move,BeastHttpServer.step,Option.map_eq_some_iff,Option.ite_none_right_eq_some,Option.some.injEq,
      Prod.mk.injEq,Prod.exists] at moved
    obtain ⟨_,server,told,⟨_,_,rfl⟩,rfl,rfl⟩ := moved
    exact ⟨rfl,rfl⟩
  | expire id write =>
    obtain ⟨c,s,told,_,_,stepped,rfl,rfl⟩ := act_eq_some.mp moved.2
    simp only [HttpServerSession.step,Option.some.injEq,Prod.mk.injEq] at stepped
    obtain ⟨_,rfl⟩ := stepped
    exact ⟨rfl,rfl⟩
  | _ => simp [Action.isHandler] at unhandled

/-- Every handler of a backend call that throws ends one of the `num_io_threads + 1`
    threads; once all have ended no handler runs again, and nothing is seen of the
    server any more. -/
theorem threads_left (config : AppConfig) (positive : 1 ≤ config.max_response_queue_size) (cache : CacheInterface)
    (library : JsonLibrary) (actions : List Action) (f : Frontend cache) (log : List Event)
    (run : Runs.Run (step config library) (start cache config) actions f log) :
    f.threads + lost (ofService log) = config.num_io_threads.toNat + 1 ∧
    (lost (ofService log) = config.num_io_threads.toNat + 1 →
      ∀ later f' seen, Runs.Run (step config library) f later f' seen →
        seen = [] ∧ ∀ a ∈ later, a.isHandler = false) := by
  have balanced := balanced_run positive run
  refine ⟨balanced.threads,?_⟩
  intro all later f' seen more
  have none_left : f.threads = 0 := by
    have threads := balanced.threads
    omega
  have still : f'.threads = 0 ∧ seen = [] ∧ ∀ a ∈ later, a.isHandler = false := by
    induction more with
    | start => exact ⟨none_left,rfl,by simp⟩
    | @next earlier g g' told out a _ taken ih =>
      obtain ⟨without,silent,unhandled⟩ := ih
      have idle : a.isHandler = false := by
        cases handler : a.isHandler with
        | true => exact absurd without ((step_taken taken).2 handler)
        | false => rfl
      obtain ⟨quiet,same⟩ := unhandled_step taken idle
      refine ⟨same.trans without,by rw [silent,quiet]; rfl,?_⟩
      intro b member
      rcases List.mem_append.mp member with old | new
      · exact unhandled b old
      · rw [List.mem_singleton.mp new]
        exact idle
  exact still.2

/-- One thread beside the main one. -/
def frail : AppConfig := { usConfig with num_io_threads := 1 }

/-- Two connections ask for a company. -/
def asked : List Action :=
  [.ends none,.accepted,.ends none,.accepted,.run 0 0,.run 1 0,.read 0 (.ok companyRequest) 0 true epoch 0,
    .read 1 (.ok companyRequest) 0 true epoch 0]

theorem requests_waiting_asked : ∃ f log,
    Runs.Run (step frail vagueLibrary) (start .everlasting frail) asked f log ∧ waitingRequests f.clients = 2 ∧
    f.callers = [0,1] ∧ waitingRequests f.clients = f.service.calls.length + lost (ofService log) ∧ f.callers.Nodup := by
  have executed : (Runs.exec (step frail vagueLibrary) (start .everlasting frail) asked).isSome = true := by
    decide +kernel
  have run := Runs.Run.of_isSome executed
  obtain ⟨_,waiting,_,distinct,_⟩ := requests_waiting frail (by decide) .everlasting vagueLibrary asked _ _ run
  exact ⟨_,_,run,by decide +kernel,by decide +kernel,waiting,distinct⟩

/-- Both backends reply with a date that is not accepted. -/
def doomed : List Action := asked ++ [.complete 1 vagueReply none epoch 0,.complete 0 vagueReply none epoch 0]

theorem threads_left_doomed : ∃ f log,
    Runs.Run (step frail vagueLibrary) (start .everlasting frail) doomed f log ∧ lost (ofService log) = 2 ∧
    f.threads = 0 ∧ ∀ later f' seen, Runs.Run (step frail vagueLibrary) f later f' seen → seen = [] := by
  have executed : (Runs.exec (step frail vagueLibrary) (start .everlasting frail) doomed).isSome = true := by
    decide +kernel
  have run := Runs.Run.of_isSome executed
  obtain ⟨_,deaf⟩ := threads_left frail (by decide) .everlasting vagueLibrary doomed _ _ run
  refine ⟨_,_,run,by decide +kernel,by decide +kernel,?_⟩
  exact fun later f' seen more => (deaf (by decide +kernel) later f' seen more).1

/-! ### The end of the sessions -/

/-- Nothing is written any more: the socket is closed, or nothing is in flight. -/
def Muted (c : Client) : Prop := c.session.socket_open = false ∨ (c.dispatched = true ∧ Quiet c.session)

theorem quiet_step {s s' : HttpServerSession} {a : HttpServerSession.Action} {out : List HttpServerSession.Event}
    (quiet : Quiet s) (taken : HttpServerSession.step s a = some (s',out)) :
    Quiet s' ∧ ∀ e ∈ out, ∃ write, e = .timerClosed write := by
  obtain ⟨reads,serving,writes⟩ := quiet
  cases a with
  | read result now => simp [HttpServerSession.step,reads] at taken
  | answer opt_res now => simp [HttpServerSession.step,serving] at taken
  | written ec now => simp [HttpServerSession.step,writes] at taken
  | stop =>
    simp only [HttpServerSession.step,Option.some.injEq,Prod.mk.injEq] at taken
    obtain ⟨rfl,rfl⟩ := taken
    exact ⟨⟨reads,serving,writes⟩,by simp⟩
  | expire write =>
    simp only [HttpServerSession.step,Option.some.injEq,Prod.mk.injEq] at taken
    obtain ⟨rfl,rfl⟩ := taken
    exact ⟨⟨reads,serving,writes⟩,by simp⟩
  | timer write =>
    simp only [HttpServerSession.step] at taken
    split at taken
    · cases taken
    · rename_i w found
      have state := congrArg Prod.fst (Option.some.inj taken)
      have events := congrArg Prod.snd (Option.some.inj taken)
      rw [HttpServerSession.on_diagnostic_timer_fst] at state
      simp only at state events
      subst state
      refine ⟨⟨reads,serving,writes⟩,?_⟩
      rw [← events]
      exact fun e member => ⟨write,HttpServerSession.on_diagnostic_timer_snd _ _ _ e member⟩

/-- A muted session stays muted. -/
theorem muted_step {c : Client} (muted : Muted c) {s : HttpServerSession} {a : HttpServerSession.Action}
    {out : List HttpServerSession.Event} (taken : HttpServerSession.step c.session a = some (s,out)) :
    Muted ⟨s,true⟩ ∧ ∀ res, HttpServerSession.Event.writing res ∉ out := by
  have steady := (HttpServerSession.step_utters taken).steady
  rcases muted with closed | ⟨_,quiet⟩
  · refine ⟨.inl ?_,?_⟩
    · cases opened : s.socket_open with
      | true => rw [steady.socket opened] at closed; cases closed
      | false => rfl
    · intro res member
      rw [steady.writes res member] at closed
      cases closed
  · obtain ⟨still,silent⟩ := quiet_step quiet taken
    refine ⟨.inr ⟨rfl,still⟩,?_⟩
    intro res member
    obtain ⟨_,wrong⟩ := silent _ member
    cases wrong

/-- The first sessions are muted. -/
def MutedBelow (count : Nat) (clients : List Client) : Prop :=
  ∀ id c, id < count → clients[id]? = some c → Muted c

theorem MutedBelow.set {count id : Nat} {clients : List Client} {c : Client} (muted : MutedBelow count clients)
    (moved : id < count → Muted c) : MutedBelow count (clients.set id c) := by
  intro j d below found
  rw [List.getElem?_set] at found
  by_cases same : id = j
  · subst same
    simp only [↓reduceIte,Option.ite_none_right_eq_some,Option.some.injEq] at found
    rw [← found.2]
    exact moved below
  · rw [if_neg same] at found
    exact muted j d below found

/-- What the log says of the first sessions has no write in it. -/
def Unwriting (count : Nat) (log : List Event) : Prop :=
  ∀ id, id < count → ∀ res, HttpServerSession.Event.writing res ∉ ofSession id log

theorem Unwriting.append {count : Nat} {log more : List Event} (first : Unwriting count log)
    (second : Unwriting count more) : Unwriting count (log ++ more) := by
  intro id below res member
  rw [ofSession_append] at member
  rcases List.mem_append.mp member with old | new
  · exact first id below res old
  · exact second id below res new

/-- Only one session tells something, and if it is one of the first it does not write. -/
theorem Unwriting.of_only {count id : Nat} {out : List Event} (only : Only id out)
    (own : id < count → ∀ res, HttpServerSession.Event.writing res ∉ ofSession id out) : Unwriting count out := by
  intro j below res member
  by_cases same : j = id
  · subst same
    exact own below res member
  · rw [only j same] at member
    cases member

theorem mutedBelow_step (positive : 1 ≤ config.max_response_queue_size) {f f' : Frontend cache} {a : Action}
    {log out : List Event} {count : Nat} (known : count ≤ f.clients.length) (parts : Parts config library f log)
    (matched : Matched f log) (muted : MutedBelow count f.clients) (taken : Taken config library f a f' out) :
    MutedBelow count f'.clients ∧ count ≤ f'.clients.length ∧ Unwriting count out := by
  have listening : ∀ told : List BeastHttpServer.Event, Unwriting count (told.map .server) := by
    intro told id _ res member
    rw [ofSession_server] at member
    cases member
  cases taken with
  | listening a b server' told => exact ⟨muted,known,listening told⟩
  | accepting server' told =>
    refine ⟨?_,by simp; omega,listening told⟩
    intro id c below found
    rw [List.getElem?_append_left (by omega)] at found
    exact muted id c below found
  | stopping =>
    refine ⟨?_,by simpa [stopAll] using known,listening _⟩
    intro id c below found
    rw [stopAll_getElem?,Option.map_eq_some_iff] at found
    obtain ⟨d,there,rfl⟩ := found
    split
    · exact .inl rfl
    · exact muted id d below there
  | dispatching id now c found undispatched =>
    refine ⟨muted.set ?_,by simpa using known,fun _ _ _ member => by cases member⟩
    intro below
    rcases muted id c below found with closed | ⟨dispatched,_⟩
    · exact .inl closed
    · rw [undispatched] at dispatched
      cases dispatched
  | moving a b id c s told _ found dispatched unanswered stepped =>
    have step := fun below => muted_step (muted id c below found) stepped
    refine ⟨muted.set fun below => (step below).1,by simpa using known,.of_only (only_session id told) ?_⟩
    rw [ofSession_session]
    exact fun below => (step below).2
  | answering id c result arrived s t told more req received starts m now service' opt_res found dispatched stepped handed
      entered calls answered =>
    have first := fun below => muted_step (muted id c below found) stepped
    have second := fun below => muted_step (first below).1 answered
    refine ⟨muted.set fun below => (second below).1,by simpa using known,?_⟩
    refine (Unwriting.of_only (only_session id told) ?_).append
      ((Unwriting.of_only (only_service id [.sent req opt_res m]) ?_).append
        (Unwriting.of_only (only_session id more) ?_))
    · rw [ofSession_session]
      exact fun below => (first below).2
    · rw [ofSession_service]
      simp
    · rw [ofSession_session]
      exact fun below => (second below).2
  | calling id c result arrived s told req received starts m now service' call found dispatched stepped handed entered
      calls =>
    have first := fun below => muted_step (muted id c below found) stepped
    refine ⟨muted.set fun below => (first below).1,by simpa using known,?_⟩
    refine (Unwriting.of_only (only_session id told) ?_).append
      (Unwriting.of_only (only_service id [.called req call.backend]) ?_)
    · rw [ofSession_session]
      exact fun below => (first below).2
    · rw [ofSession_service]
      simp
  | completing position res ec m now id req call service' told opt_res f' out caller pending completed calls sent kept
      responded =>
    obtain ⟨c,s,heard,found,dispatched,_,answered,rfl,rfl⟩ :=
      parts.completes positive matched caller pending responded
    have first := fun below => muted_step (muted id c below found) answered
    refine ⟨muted.set fun below => (first below).1,by simpa using known,?_⟩
    refine (Unwriting.of_only (only_service id told) ?_).append (Unwriting.of_only (only_session id heard) ?_)
    · rw [ofSession_service]
      simp
    · rw [ofSession_session]
      exact fun below => (first below).2
  | losing position res ec m now id req call service' told e =>
    refine ⟨muted,known,?_⟩
    intro j _ res member
    rw [ofSession_service] at member
    cases member

/-- What a step of the server does to its set, other than to stop. -/
theorem active_step {s s' : BeastHttpServer} {a : BeastHttpServer.Action} {out : List BeastHttpServer.Event}
    (taken : BeastHttpServer.step s a = some (s',out)) (running : a ≠ .stop) :
    (s'.created = s.created ∧ (∀ id, a ≠ .finish id) ∧ s'.active_sessions = s.active_sessions ∧
      s'.unfinished = s.unfinished) ∨
    (s'.created = s.created + 1 ∧ a = .accepted ∧ s'.active_sessions = s.created :: s.active_sessions ∧
      s'.unfinished = s.created :: s.unfinished) ∨
    ∃ id, a = .finish id ∧ id ∈ s.unfinished ∧ s'.created = s.created ∧
      s'.active_sessions = s.active_sessions.erase id ∧ s'.unfinished = s.unfinished.erase id := by
  cases a with
  | ends ec =>
    simp only [BeastHttpServer.step,Option.ite_none_right_eq_some,Option.some.injEq,Prod.mk.injEq] at taken
    obtain ⟨_,rfl,_⟩ := taken
    exact .inl ⟨rfl,by simp,rfl,rfl⟩
  | accepted =>
    simp only [BeastHttpServer.step] at taken
    split at taken
    · rename_i ec ended
      rw [Option.some.injEq] at taken
      obtain rfl : _ = s' := congrArg Prod.fst taken
      cases ec with
      | none => exact .inr (.inl ⟨rfl,rfl,rfl,rfl⟩)
      | some e =>
        refine .inl ?_
        simp only [BeastHttpServer.on_accept,BeastHttpServer.do_accept]
        split <;> exact ⟨rfl,by simp,rfl,rfl⟩
    · cases taken
  | finish id =>
    simp only [BeastHttpServer.step,BeastHttpServer.on_session_finish,Option.ite_none_right_eq_some,Option.some.injEq,
      Prod.mk.injEq] at taken
    obtain ⟨member,rfl,_⟩ := taken
    exact .inr (.inr ⟨id,rfl,member,rfl,rfl,rfl⟩)
  | stop => exact absurd rfl running

/-- No session opens its socket again or gets its callback back. -/
def Ages (clients clients' : List Client) : Prop :=
  ∀ (id : Nat) (c : Client), clients[id]? = some c → ∃ d : Client, clients'[id]? = some d ∧
    (d.session.socket_open = true → c.session.socket_open = true) ∧
    (d.session.on_finish_callback = true → c.session.on_finish_callback = true)

theorem ages_set {clients : List Client} {id : Nat} {c d : Client} (found : clients[id]? = some c)
    (socket : d.session.socket_open = true → c.session.socket_open = true)
    (callback : d.session.on_finish_callback = true → c.session.on_finish_callback = true) :
    Ages clients (clients.set id d) := by
  intro j e there
  by_cases same : id = j
  · subst same
    rw [found,Option.some.injEq] at there
    subst there
    have inside := (List.getElem?_eq_some_iff.mp found).1
    exact ⟨d,by simp [inside],socket,callback⟩
  · exact ⟨e,by rw [List.getElem?_set_ne same,there],fun opened => opened,fun set => set⟩

/-- What a step does to the sessions and to the set of them. -/
inductive Turned (f f' : Frontend cache) : Action → Prop
  | kept (a : Action) : (∀ id, a ≠ .finish id) → f'.clients.length = f.clients.length →
      f'.server.active_sessions = f.server.active_sessions → f'.server.unfinished = f.server.unfinished →
      Turned f f' a
  | accepted : f'.clients.length = f.clients.length + 1 →
      f'.server.active_sessions = f.clients.length :: f.server.active_sessions →
      f'.server.unfinished = f.clients.length :: f.server.unfinished → Turned f f' .accepted
  | finished (id : Nat) (c : Client) : f.clients[id]? = some c → c.session.on_finish_callback = false →
      f'.clients.length = f.clients.length → id ∈ f.server.unfinished →
      f'.server.active_sessions = f.server.active_sessions.erase id →
      f'.server.unfinished = f.server.unfinished.erase id → Turned f f' (.finish id)
  | stopped : f'.clients.length = f.clients.length → f'.server.active_sessions = [] →
      (∀ id ∈ f.server.active_sessions, ∀ d, f'.clients[id]? = some d → d.session.socket_open = false) →
      Turned f f' .stop

theorem turned_step (positive : 1 ≤ config.max_response_queue_size) {f f' : Frontend cache} {a : Action}
    {log out : List Event} (parts : Parts config library f log) (matched : Matched f log)
    (taken : Taken config library f a f' out) : Ages f.clients f'.clients ∧ Turned f f' a := by
  have still : Ages f.clients f.clients := fun id c found => ⟨c,found,fun opened => opened,fun set => set⟩
  cases taken with
  | listening a b server' told stepped same running names finishing =>
    refine ⟨still,?_⟩
    rcases active_step stepped running with ⟨_,other,active,unfinished⟩ | ⟨more,_⟩ |
      ⟨id,rfl,member,_,active,unfinished⟩
    · exact .kept a (fun id done => other id ((names id).mp done)) rfl active unfinished
    · omega
    · obtain ⟨c,found,past⟩ := finishing id rfl
      rw [(names id).mpr rfl]
      exact .finished id c found past rfl member active unfinished
  | accepting server' told stepped one =>
    refine ⟨?_,?_⟩
    · intro id c found
      refine ⟨c,?_,fun opened => opened,fun set => set⟩
      rw [List.getElem?_append_left (List.getElem?_eq_some_iff.mp found).1]
      exact found
    · rcases active_step stepped (by simp) with ⟨same,_⟩ | ⟨_,_,active,unfinished⟩ | ⟨_,wrong,_⟩
      · omega
      · rw [parts.created] at active unfinished
        exact .accepted (by simp) active unfinished
      · cases wrong
  | stopping =>
    refine ⟨?_,.stopped (by simp [stopAll]) rfl ?_⟩
    · intro id c found
      refine ⟨_,by rw [stopAll_getElem?,found,Option.map_some],?_,?_⟩
      · split
        · simp [HttpServerSession.stop]
        · exact fun opened => opened
      · split
        · exact fun set => set
        · exact fun set => set
    · intro id member d found
      rw [stopAll_getElem?,Option.map_eq_some_iff] at found
      obtain ⟨c,_,rfl⟩ := found
      rw [if_pos member]
      rfl
  | dispatching id now c found =>
    exact ⟨ages_set found (fun opened => opened) (fun set => set),.kept _ (by simp) (by simp) rfl rfl⟩
  | moving a b id c s told other found dispatched unanswered stepped =>
    have steady := (HttpServerSession.step_utters stepped).steady
    exact ⟨ages_set found steady.socket steady.callback,.kept a other (by simp) rfl rfl⟩
  | answering id c result arrived s t told more req received starts m now service' opt_res found dispatched stepped handed
      entered calls answered =>
    have first := (HttpServerSession.step_utters stepped).steady
    have second := (HttpServerSession.step_utters answered).steady
    exact ⟨ages_set found (fun opened => first.socket (second.socket opened))
      (fun set => first.callback (second.callback set)),.kept _ (by simp) (by simp) rfl rfl⟩
  | calling id c result arrived s told req received starts m now service' call found dispatched stepped =>
    have steady := (HttpServerSession.step_utters stepped).steady
    exact ⟨ages_set found steady.socket steady.callback,.kept _ (by simp) (by simp) rfl rfl⟩
  | completing position res ec m now id req call service' told opt_res f' out caller pending completed calls sent kept
      responded =>
    obtain ⟨c,s,heard,found,dispatched,_,answered,rfl,rfl⟩ :=
      parts.completes positive matched caller pending responded
    have steady := (HttpServerSession.step_utters answered).steady
    exact ⟨ages_set found steady.socket steady.callback,.kept _ (by simp) (by simp) rfl rfl⟩
  | losing => exact ⟨still,.kept _ (by simp) rfl rfl rfl⟩

/-- A session is active, or its socket is closed, or it is over. -/
def Tracked (f : Frontend cache) : Prop :=
  ∀ id c, f.clients[id]? = some c →
    id ∈ f.server.active_sessions ∨ c.session.socket_open = false ∨ c.session.on_finish_callback = false

theorem tracked_step {f f' : Frontend cache} {a : Action} (tracked : Tracked f) (ages : Ages f.clients f'.clients)
    (turned : Turned f f' a) : Tracked f' := by
  -- A session that was there is still active, or as it was.
  have older : ∀ id d, id < f.clients.length → f'.clients[id]? = some d →
      id ∈ f.server.active_sessions ∨ d.session.socket_open = false ∨ d.session.on_finish_callback = false := by
    intro id d known found
    obtain ⟨d',there,socket,callback⟩ := ages id _ (List.getElem?_eq_getElem known)
    rw [found,Option.some.injEq] at there
    subst there
    rcases tracked id _ (List.getElem?_eq_getElem known) with active | closed | past
    · exact .inl active
    · exact .inr (.inl (Bool.eq_false_iff.mpr fun opened => by simp [socket opened] at closed))
    · exact .inr (.inr (Bool.eq_false_iff.mpr fun set => by simp [callback set] at past))
  intro id d found
  have inside := (List.getElem?_eq_some_iff.mp found).1
  cases turned with
  | kept a _ same active =>
    rw [active]
    exact older id d (by omega) found
  | accepted one active =>
    rw [active]
    by_cases known : id < f.clients.length
    · exact (older id d known found).imp_left (List.mem_cons_of_mem _)
    · have itself : id = f.clients.length := by omega
      rw [itself]
      exact .inl (List.mem_cons_self ..)
  | finished done c there past same _ active =>
    by_cases itself : id = done
    · subst itself
      obtain ⟨d',there',_,callback⟩ := ages id c there
      rw [found,Option.some.injEq] at there'
      subst there'
      exact .inr (.inr (Bool.eq_false_iff.mpr fun set => by simp [callback set] at past))
    · rw [active,List.mem_erase_of_ne itself]
      exact older id d (by omega) found
  | stopped same active closed =>
    rcases older id d (by omega) found with was | rest
    · exact .inr (.inl (closed id was d found))
    · exact .inr rest

/-- What every run of the server keeps of it. -/
theorem tracked_run (positive : 1 ≤ config.max_response_queue_size) {actions : List Action} {f : Frontend cache}
    {log : List Event} (run : Runs.Run (step config library) (start cache config) actions f log) :
    (Parts config library f log ∧ Matched f log) ∧ Tracked f := by
  refine run.invariant (fun f log => (Parts config library f log ∧ Matched f log) ∧ Tracked f) ?_ ?_
  · exact ⟨coherent_run positive .start,by simp [Tracked,start]⟩
  · rintro f log a f' out ⟨⟨parts,matched⟩,tracked⟩ taken
    have moved := (step_taken taken).1
    obtain ⟨ages,turned⟩ := turned_step positive parts matched moved
    exact ⟨coherent_step positive parts matched moved,tracked_step tracked ages turned⟩

/-- A session that is over has nothing in flight. -/
theorem Lived.muted {c : Client} {log : List HttpServerSession.Event} (lived : Lived config c log)
    (positive : 1 ≤ config.max_response_queue_size) (past : c.session.on_finish_callback = false) : Muted c := by
  cases dispatched : c.dispatched with
  | true =>
    have faithful := lived.faithful positive dispatched
    refine .inr ⟨dispatched,faithful.orderly.after (faithful.finished.resolve_left ?_)⟩
    rw [past]
    simp
  | false =>
    cases lived with
    | waiting stopped _ still =>
      rw [still] at past
      cases stopped <;> simp [fresh,HttpServerSession.new,HttpServerSession.stop] at past
    | running stopped first actions running => rw [dispatched] at running; cases running

theorem mutedBelow_stopped (positive : 1 ≤ config.max_response_queue_size) {f : Frontend cache} {log : List Event}
    (parts : Parts config library f log) (tracked : Tracked f) :
    MutedBelow f.clients.length (stopAll f.server.active_sessions f.clients) := by
  intro id c _ found
  rw [stopAll_getElem?,Option.map_eq_some_iff] at found
  obtain ⟨d,there,rfl⟩ := found
  split
  · exact .inl rfl
  · rename_i inactive
    rcases (tracked id d there).resolve_left inactive with closed | past
    · exact .inl closed
    · exact (parts.lived id d there).muted positive past

/-- Once the server is stopped, no session that there was starts another write, in
    whatever order the remaining handlers run. -/
theorem stop_ends_writing (config : AppConfig) (positive : 1 ≤ config.max_response_queue_size) (cache : CacheInterface)
    (library : JsonLibrary) (before after : List Action) (f f' f'' : Frontend cache) (log out seen : List Event)
    (run : Runs.Run (step config library) (start cache config) before f log)
    (stopped : step config library f .stop = some (f',out)) (later : Runs.Run (step config library) f' after f'' seen)
    (id : Nat) (known : id < f.clients.length) (res : Response) : Event.session id (.writing res) ∉ seen := by
  obtain ⟨⟨parts,matched⟩,tracked⟩ := tracked_run positive run
  obtain ⟨parts',matched'⟩ := coherent_step positive parts matched (step_taken stopped).1
  have muted : MutedBelow f.clients.length f'.clients ∧ f.clients.length ≤ f'.clients.length := by
    simp only [step,Option.ite_none_left_eq_some,move,Option.some.injEq,Prod.mk.injEq] at stopped
    obtain ⟨_,rfl,_⟩ := stopped
    exact ⟨mutedBelow_stopped positive parts tracked,by simp [stopAll]⟩
  have whole : (Parts config library f'' (log ++ out ++ seen) ∧ Matched f'' (log ++ out ++ seen)) ∧
      MutedBelow f.clients.length f''.clients ∧ f.clients.length ≤ f''.clients.length ∧
      Unwriting f.clients.length seen := by
    refine later.invariant (fun g told => (Parts config library g (log ++ out ++ told) ∧
      Matched g (log ++ out ++ told)) ∧ MutedBelow f.clients.length g.clients ∧
      f.clients.length ≤ g.clients.length ∧ Unwriting f.clients.length told) ?_ ?_
    · refine ⟨by simpa using ⟨parts',matched'⟩,muted.1,muted.2,?_⟩
      intro _ _ _ member
      cases member
    · rintro g told a g' more ⟨⟨parts,matched⟩,muted,enough,unwriting⟩ taken
      have moved := (step_taken taken).1
      obtain ⟨still,longer,silent⟩ := mutedBelow_step positive enough parts matched muted moved
      rw [← List.append_assoc]
      exact ⟨coherent_step positive parts matched moved,still,longer,unwriting.append silent⟩
  intro member
  refine whole.2.2.2 id known res (List.mem_flatMap.mpr ⟨_,member,?_⟩)
  simp

/-- The server stops while backend calls are pending. -/
def askedFrontend : Frontend .everlasting × List Event :=
  (Runs.exec (step frail vagueLibrary) (start .everlasting frail) asked).getD (start .everlasting frail,[])

def stoppedFrontend : Frontend .everlasting × List Event :=
  (step frail vagueLibrary askedFrontend.1 .stop).getD (askedFrontend.1,[])

/-- A call that completes then closes its connection, and nothing is written to it. -/
theorem stop_ends_writing_pending : ∃ f seen,
    Runs.Run (step frail vagueLibrary) stoppedFrontend.1
      [.complete 0 { Response.empty with result := 404 } none epoch 0] f seen ∧
    (ofSession 0 seen).contains .closing = true ∧ ∀ res, Event.session 0 (.writing res) ∉ seen := by
  have executed : (Runs.exec (step frail vagueLibrary) (start .everlasting frail) asked).isSome = true := by
    decide +kernel
  have stops : (step frail vagueLibrary askedFrontend.1 .stop).isSome = true := by decide +kernel
  have stopped : step frail vagueLibrary askedFrontend.1 .stop = some (stoppedFrontend.1,stoppedFrontend.2) :=
    (Option.getD_of_ne_none (Option.ne_none_iff_isSome.mpr stops) (askedFrontend.1,[])).symm
  have completes : (Runs.exec (step frail vagueLibrary) stoppedFrontend.1
      [.complete 0 { Response.empty with result := 404 } none epoch 0]).isSome = true := by decide +kernel
  have later := Runs.Run.of_isSome completes
  refine ⟨_,_,later,by decide +kernel,?_⟩
  exact stop_ends_writing frail (by decide) .everlasting vagueLibrary asked _ _ _ _ _ _ _ (Runs.Run.of_isSome executed)
    stopped later 0 (by decide +kernel)

/-! ### The set of sessions -/

/-- The set of a server that was not stopped. -/
structure Kept (actions : List Action) (f : Frontend cache) : Prop where
  same : f.server.unfinished = f.server.active_sessions
  distinct : f.server.active_sessions.Nodup
  exactly : ∀ id, id ∈ f.server.active_sessions ↔ id < f.clients.length ∧ Action.finish id ∉ actions
  past : ∀ id, Action.finish id ∈ actions → ∃ c, f.clients[id]? = some c ∧ c.session.on_finish_callback = false

theorem kept_step {f f' : Frontend cache} {a : Action} {actions : List Action} (kept : Kept actions f)
    (ages : Ages f.clients f'.clients) (turned : Turned f f' a) (running : a ≠ .stop) : Kept (actions ++ [a]) f' := by
  obtain ⟨same,distinct,exactly,past⟩ := kept
  have later : ∀ id, Action.finish id ∈ actions → ∃ c, f'.clients[id]? = some c ∧
      c.session.on_finish_callback = false := by
    intro id done
    obtain ⟨c,found,ended⟩ := past id done
    obtain ⟨d,there,_,callback⟩ := ages id c found
    exact ⟨d,there,Bool.eq_false_iff.mpr fun set => by simp [callback set] at ended⟩
  cases turned with
  | kept a other length active unfinished =>
    have names : ∀ id, Action.finish id ∈ actions ++ [a] ↔ Action.finish id ∈ actions := by
      intro id
      simp [(other id).symm]
    refine ⟨by rw [unfinished,active,same],active ▸ distinct,?_,?_⟩
    · intro id
      rw [active,exactly,length,names]
    · intro id done
      exact later id ((names id).mp done)
  | accepted length active unfinished =>
    have names : ∀ id, Action.finish id ∈ actions ++ [.accepted] ↔ Action.finish id ∈ actions := by
      intro id
      simp
    refine ⟨by rw [unfinished,active,same],?_,?_,?_⟩
    · rw [active]
      exact List.nodup_cons.mpr ⟨fun member => by have := ((exactly _).mp member).1; omega,distinct⟩
    · intro id
      rw [active,List.mem_cons,exactly,length,names]
      constructor
      · rintro (rfl | ⟨known,undone⟩)
        · refine ⟨by omega,fun done => ?_⟩
          obtain ⟨c,found,_⟩ := past _ done
          have inside := (List.getElem?_eq_some_iff.mp found).1
          omega
        · exact ⟨by omega,undone⟩
      · rintro ⟨known,undone⟩
        by_cases last : id = f.clients.length
        · exact .inl last
        · exact .inr ⟨by omega,undone⟩
    · intro id done
      exact later id ((names id).mp done)
  | finished id c found ended length member active unfinished =>
    refine ⟨by rw [unfinished,active,same],active ▸ distinct.erase id,?_,?_⟩
    · intro j
      rw [active,distinct.mem_erase_iff,exactly,length]
      simp only [List.mem_append,List.mem_singleton,Action.finish.injEq,not_or]
      constructor
      · rintro ⟨other,known,undone⟩
        exact ⟨known,undone,other⟩
      · rintro ⟨known,undone,other⟩
        exact ⟨other,known,undone⟩
    · intro j done
      simp only [List.mem_append,List.mem_singleton,Action.finish.injEq] at done
      rcases done with earlier | rfl
      · exact later j earlier
      · obtain ⟨d,there,_,callback⟩ := ages j c found
        exact ⟨d,there,Bool.eq_false_iff.mpr fun set => by simp [callback set] at ended⟩
  | stopped => exact absurd rfl running

/-- Until the server stops: the set of the sessions holds, once each, exactly those
    that were accepted and whose callback has not run; and a session that is not in
    it has closed. -/
theorem active_sessions_iff (config : AppConfig) (positive : 1 ≤ config.max_response_queue_size)
    (cache : CacheInterface) (library : JsonLibrary) (actions : List Action) (f : Frontend cache) (log : List Event)
    (run : Runs.Run (step config library) (start cache config) actions f log) (running : Action.stop ∉ actions) :
    f.server.active_sessions.Nodup ∧
    (∀ id, id ∈ f.server.active_sessions ↔ id < f.clients.length ∧ Action.finish id ∉ actions) ∧
    ∀ id, id < f.clients.length → id ∉ f.server.active_sessions →
      HttpServerSession.Event.closing ∈ ofSession id log := by
  have kept : Kept actions f := by
    induction run with
    | start => exact ⟨rfl,List.nodup_nil,by simp [start,BeastHttpServer.launched,BeastHttpServer.run,
        BeastHttpServer.do_accept,BeastHttpServer.new],by simp⟩
    | @next earlier g g' told out a run taken ih =>
      simp only [List.mem_append,List.mem_singleton,not_or] at running
      obtain ⟨parts,matched⟩ := coherent_run positive run
      obtain ⟨ages,turned⟩ := turned_step positive parts matched (step_taken taken).1
      exact kept_step (ih running.1) ages turned (Ne.symm running.2)
  refine ⟨kept.distinct,kept.exactly,?_⟩
  intro id known inactive
  rw [kept.exactly,not_and,not_not] at inactive
  obtain ⟨c,found,past⟩ := kept.past id (inactive known)
  have lived := (coherent_run positive run).1.lived id c found
  cases lived with
  | waiting stopped _ still =>
    rw [still] at past
    cases stopped <;> simp [fresh,HttpServerSession.new,HttpServerSession.stop] at past
  | running stopped first actions dispatched session =>
    refine (HttpServerSession.spoken_run positive session).finished.resolve_left ?_
    rw [past]
    simp

/-- Two connections, of which the first is closed by its client. -/
def hungUp : List Action :=
  [.ends none,.accepted,.ends none,.accepted,.run 0 0,.run 1 0,.read 0 (.error .end_of_stream) 0 true epoch 0,.finish 0]

theorem active_sessions_iff_hungUp : ∃ f log,
    Runs.Run (step frail vagueLibrary) (start .everlasting frail) hungUp f log ∧ f.server.active_sessions = [1] ∧
    HttpServerSession.Event.closing ∈ ofSession 0 log ∧ 1 ∈ f.server.active_sessions := by
  have executed : (Runs.exec (step frail vagueLibrary) (start .everlasting frail) hungUp).isSome = true := by
    decide +kernel
  have run := Runs.Run.of_isSome executed
  obtain ⟨_,exactly,closed⟩ := active_sessions_iff frail (by decide) .everlasting vagueLibrary hungUp _ _ run
    (by simp [hungUp])
  refine ⟨_,_,run,by decide +kernel,closed 0 (by decide +kernel) (by decide +kernel),(exactly 1).mpr ⟨?_,?_⟩⟩
  · decide +kernel
  · simp [hungUp]

end Facade.Frontend
