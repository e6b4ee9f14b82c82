import Facade.SlaMisses

/-!
Whether a connection persists. A response carries the decision, and the session
reads the next request or closes by it; a request that is dropped leaves no
response, and the session asks `req_`. Most responses take the version and the
decision from the request. Those of `/status` and of the cache are made without
it, and what was moved from has lost its `Connection` field.

`persistence_iff` says in which runs the connection does what its requests ask.
-/
namespace Facade
open Strings Http Backendify

namespace HttpServerSession

/-- The last request that was read, `earlier` being the one before the log. -/
def asking (earlier : Option Request) (log : List Event) : Option Request :=
  log.foldl (fun last e => match e with | .request req _ => some req | _ => last) earlier

theorem asking_append (earlier : Option Request) (log more : List Event) :
    asking earlier (log ++ more) = asking (asking earlier log) more := by
  simp [asking]

/-- The session reads another request if the one it is done with was to be kept
    alive, and closes otherwise. -/
def Persists (req : Request) (out : List Event) : Prop :=
  ((∃ t, Event.reading t ∈ out) ↔ req.keep_alive = true) ∧ (Event.closing ∈ out ↔ req.keep_alive = false)

/-- The events of a step follow the last request: its answer has its version and
    its decision, and the session goes on as it asks once it is dropped, or once
    its response is written to a socket that is still open. -/
structure Follows (socket_open : Bool) (asked : Option Request) (out : List Event) : Prop where
  answered : ∀ res, Event.answered (some res) ∈ out →
    ∃ req, asked = some req ∧ res.version = req.version ∧ res.keep_alive = req.keep_alive
  dropped : Event.answered none ∈ out → ∃ req, asked = some req ∧ Persists req out
  written : ∀ res, Event.wrote res ∈ out → socket_open = true → ∃ req, asked = some req ∧ Persists req out

/-- No request, no answer, and no write that is over. -/
def Event.isPlain : Event → Bool
  | .request _ _ => false
  | .answered _ => false
  | .wrote _ => false
  | _ => true

def Plain (out : List Event) : Prop := ∀ e ∈ out, e.isPlain = true

theorem Plain.asking {out : List Event} (plain : Plain out) (earlier : Option Request) :
    asking earlier out = earlier := by
  induction out with
  | nil => rfl
  | cons e rest ih =>
    have first := plain e (by simp)
    have later := ih fun d member => plain d (by simp [member])
    cases e with
    | request req now => simp [Event.isPlain] at first
    | _ => exact later

theorem Plain.follows {out : List Event} (plain : Plain out) (socket_open : Bool) (asked : Option Request) :
    Follows socket_open asked out := by
  refine ⟨?_,?_,?_⟩
  · intro res member
    have wrong := plain _ member
    cases wrong
  · intro member
    have wrong := plain _ member
    cases wrong
  · intro res member
    have wrong := plain _ member
    cases wrong

/-- Nothing is in flight and nothing waits to be written. -/
structure Idle (s : HttpServerSession) : Prop where
  reads : s.reads = 0
  serving : s.serving = 0
  writes : s.writes = []
  queue : s.response_queue = []
  free : s.write_in_progress = false

/-- The session is writing its only response. On an open socket the flag is
    down: `stop()` closes what it stops. -/
structure Writing (s : HttpServerSession) (res : Response) : Prop where
  reads : s.reads = 0
  serving : s.serving = 0
  writes : s.writes = [res]
  queue : s.response_queue = [res]
  flag : s.socket_open = true → s.current_write_op_completed = false

theorem do_close_spec (s : HttpServerSession) :
    Plain (do_close s).2 ∧ Event.closing ∈ (do_close s).2 ∧ (∀ t, Event.reading t ∉ (do_close s).2) ∧
      (do_close s).1.reads = s.reads ∧ (do_close s).1.serving = s.serving ∧ (do_close s).1.writes = s.writes := by
  unfold do_close
  simp only
  split
  · simp [Plain,Event.isPlain]
  · simp [Plain,Event.isPlain]

/-- The only response is written, unless the socket is gone: then the session
    closes. -/
theorem do_write_spec {s : HttpServerSession} {res : Response} (reads : s.reads = 0) (serving : s.serving = 0)
    (writes : s.writes = []) (queue : s.response_queue = [res]) :
    Plain (do_write s).2 ∧ (Writing (do_write s).1 res ∨ Quiet (do_write s).1) := by
  unfold do_write
  rw [queue]
  simp only
  split
  · refine ⟨by simp [Plain,Event.isPlain],.inl ⟨reads,serving,?_,rfl,fun _ => rfl⟩⟩
    simp [writes]
  · obtain ⟨plain,_,_,reads',serving',writes'⟩ := do_close_spec
      { s with response_queue := [], write_in_progress := false }
    exact ⟨plain,.inr ⟨reads'.trans reads,serving'.trans serving,writes'.trans writes⟩⟩

/-- What an idle session does with an answer. -/
theorem send_response_some {s : HttpServerSession} (idle : Idle s) (res : Response) (now : Int) :
    ∃ rest, (send_response (some res) now s).2 = .answered (some res) :: rest ∧ Plain rest ∧
      (Writing (send_response (some res) now s).1 res ∨ Quiet (send_response (some res) now s).1) := by
  obtain ⟨reads,serving,writes,queue,free⟩ := idle
  obtain ⟨plain,left⟩ := do_write_spec (s := { s with response_queue := [res] }) reads serving writes rfl
  unfold send_response make_space
  simp only
  split
  · simp only [queue,free,List.tail_nil,List.nil_append,Bool.false_eq_true,↓reduceIte]
    refine ⟨.overflow :: (do_write { s with response_queue := [res] }).2,rfl,?_,left⟩
    intro e member
    rcases List.mem_cons.mp member with rfl | later
    · rfl
    · exact plain e later
  · simp only [queue,free,List.nil_append,Bool.false_eq_true,↓reduceIte]
    exact ⟨(do_write { s with response_queue := [res] }).2,rfl,plain,left⟩

/-- The session reads a request and does nothing else, or it is over. -/
def Between (s : HttpServerSession) : Prop := (s.reads = 1 ∧ Idle { s with reads := 0 }) ∨ Quiet s

/-- The session goes on by a decision. -/
structure GoesOn (keep_alive : Bool) (r : HttpServerSession × List Event) : Prop where
  plain : Plain r.2
  reads : (∃ t, Event.reading t ∈ r.2) ↔ keep_alive = true
  closes : Event.closing ∈ r.2 ↔ keep_alive = false
  left : Between r.1

theorem goesOn {s : HttpServerSession} (idle : Idle s) (keep_alive : Bool) (now : Int) :
    GoesOn keep_alive (if keep_alive then do_read now s else do_close s) := by
  obtain ⟨reads,serving,writes,queue,free⟩ := idle
  cases keep_alive with
  | true =>
    simp only [↓reduceIte]
    refine ⟨by simp [Plain,Event.isPlain,do_read],by simp [do_read],by simp [do_read],.inl ⟨?_,?_⟩⟩
    · show s.reads + 1 = 1
      rw [reads]
    · exact ⟨rfl,serving,writes,queue,free⟩
  | false =>
    obtain ⟨plain,closing,unread,reads',serving',writes'⟩ := do_close_spec s
    simp only [Bool.false_eq_true,↓reduceIte]
    refine ⟨plain,?_,by simp [closing],.inr ⟨reads'.trans reads,serving'.trans serving,writes'.trans writes⟩⟩
    simp [unread]

/-- An idle session goes on by `req_` when the request is dropped. -/
theorem send_response_none {s : HttpServerSession} (idle : Idle s) (now : Int) :
    ∃ rest, (send_response none now s).2 = .answered none :: rest ∧
      GoesOn s.req.keep_alive ((send_response none now s).1,rest) := by
  unfold send_response
  simp only [idle.free,Bool.false_eq_true,↓reduceIte]
  exact ⟨_,rfl,goesOn idle s.req.keep_alive now⟩

/-- After the write of its only response the session reads or is over. Unless it
    was stopped or the write failed, it goes on by the decision of that response. -/
theorem on_write_spec {s : HttpServerSession} {res : Response} (writing : Writing s res) (keep_alive : Bool)
    (ec : Option ErrorCode) (now : Int) :
    Plain (on_write keep_alive ec now { s with writes := [] }).2 ∧
    Between (on_write keep_alive ec now { s with writes := [] }).1 ∧
    (ec = none → s.socket_open = true → GoesOn keep_alive (on_write keep_alive ec now { s with writes := [] })) := by
  obtain ⟨reads,serving,_,queue,flag⟩ := writing
  unfold on_write
  simp only
  split
  · rename_i stopped
    obtain ⟨plain,_,_,reads',serving',writes'⟩ := do_close_spec
      { s with current_write_op_completed := true, waits := cancelWaits s.waits, writes := [] }
    refine ⟨plain,.inr ⟨reads'.trans reads,serving'.trans serving,writes'⟩,?_⟩
    intro _ opened
    rw [flag opened] at stopped
    cases stopped
  · cases ec with
    | some e =>
      obtain ⟨plain,_,_,reads',serving',writes'⟩ := do_close_spec
        { s with
          current_write_op_completed := true, waits := cancelWaits s.waits, writes := [], response_queue := [],
          write_in_progress := false }
      exact ⟨plain,.inr ⟨reads'.trans reads,serving'.trans serving,writes'⟩,by simp⟩
    | none =>
      have idle : Idle { s with
          current_write_op_completed := true, waits := cancelWaits s.waits, writes := [], response_queue := [],
          write_in_progress := false } := ⟨reads,serving,rfl,rfl,rfl⟩
      have goes := goesOn idle keep_alive now
      simp only [write_done,queue,reduceCtorEq,↓reduceIte,List.tail_cons,ne_eq,not_true_eq_false,List.nil_append]
      exact ⟨goes.plain,goes.left,fun _ _ => goes⟩

/-- What `stop()` and the timer leave as it was. -/
structure Untouched (s s' : HttpServerSession) : Prop where
  reads : s'.reads = s.reads
  serving : s'.serving = s.serving
  writes : s'.writes = s.writes
  queue : s'.response_queue = s.response_queue
  free : s'.write_in_progress = s.write_in_progress
  req : s'.req = s.req
  flag : s'.socket_open = true → s.socket_open = true ∧ s'.current_write_op_completed = s.current_write_op_completed

theorem untouched_step {s : HttpServerSession} {a : Action} {r : HttpServerSession × List Event}
    (other : (∀ result now, a ≠ .read result now) ∧ (∀ opt_res now, a ≠ .answer opt_res now) ∧
      ∀ ec now, a ≠ .written ec now) (taken : step s a = some r) : Untouched s r.1 ∧ Plain r.2 := by
  cases a with
  | read result now => exact absurd rfl (other.1 result now)
  | answer opt_res now => exact absurd rfl (other.2.1 opt_res now)
  | written ec now => exact absurd rfl (other.2.2 ec now)
  | stop =>
    simp only [step,Option.some.injEq] at taken
    rw [← taken]
    exact ⟨⟨rfl,rfl,rfl,rfl,rfl,rfl,by simp [stop]⟩,by simp [Plain]⟩
  | expire write =>
    simp only [step,Option.some.injEq] at taken
    rw [← taken]
    exact ⟨⟨rfl,rfl,rfl,rfl,rfl,rfl,fun opened => ⟨opened,rfl⟩⟩,by simp [Plain]⟩
  | timer write =>
    simp only [step] at taken
    split at taken
    · cases taken
    · rename_i w found
      rw [Option.some.injEq] at taken
      rw [← taken]
      refine ⟨?_,?_⟩
      · rw [on_diagnostic_timer_fst]
        refine ⟨rfl,rfl,rfl,rfl,rfl,rfl,?_⟩
        intro opened
        exact ⟨(Bool.and_eq_true_iff.mp opened).1,rfl⟩
      · intro e member
        rw [on_diagnostic_timer_snd _ _ _ e member]
        rfl

section
variable {s s' : HttpServerSession}

theorem Untouched.between (same : Untouched s s') (between : Between s) : Between s' := by
  rcases between with ⟨reads,idle⟩ | ⟨reads,serving,writes⟩
  · refine .inl ⟨same.reads.trans reads,rfl,?_,?_,?_,?_⟩
    · exact same.serving.trans idle.serving
    · exact same.writes.trans idle.writes
    · exact same.queue.trans idle.queue
    · exact same.free.trans idle.free
  · exact .inr ⟨same.reads.trans reads,same.serving.trans serving,same.writes.trans writes⟩

theorem Untouched.serving_idle (same : Untouched s s') (idle : Idle { s with serving := 0 }) :
    Idle { s' with serving := 0 } :=
  ⟨same.reads.trans idle.reads,rfl,same.writes.trans idle.writes,same.queue.trans idle.queue,same.free.trans idle.free⟩

theorem Untouched.writing (same : Untouched s s') {res : Response} (writing : Writing s res) : Writing s' res := by
  refine ⟨same.reads.trans writing.reads,same.serving.trans writing.serving,same.writes.trans writing.writes,
    same.queue.trans writing.queue,?_⟩
  intro opened
  obtain ⟨before,flag⟩ := same.flag opened
  rw [flag]
  exact writing.flag before

end

/-! ### What the events say -/

/-- The events that tell how a request was answered and how the session goes on. -/
def Event.tells : Event → Bool
  | .answered _ => true
  | .wrote _ => true
  | .reading _ => true
  | .closing => true
  | _ => false

section
variable {socket_open : Bool} {asked : Option Request} {req : Request} {out rest : List Event}

theorem Follows.of_same {more : List Event} (follows : Follows socket_open asked out)
    (same : ∀ e, e.tells = true → (e ∈ more ↔ e ∈ out)) : Follows socket_open asked more := by
  have persists : ∀ req, Persists req out → Persists req more := by
    intro req persists
    unfold Persists
    rw [same .closing rfl,exists_congr fun t => same (.reading t) rfl]
    exact persists
  refine ⟨?_,?_,?_⟩
  · intro res member
    exact follows.answered res ((same _ rfl).mp member)
  · intro member
    obtain ⟨req,this,on⟩ := follows.dropped ((same _ rfl).mp member)
    exact ⟨req,this,persists req on⟩
  · intro res member opened
    obtain ⟨req,this,on⟩ := follows.written res ((same _ rfl).mp member) opened
    exact ⟨req,this,persists req on⟩

theorem follows_cons {e : Event} (silent : e.tells = false) :
    Follows socket_open asked (e :: out) ↔ Follows socket_open asked out := by
  have same : ∀ d : Event, d.tells = true → (d ∈ e :: out ↔ d ∈ out) := by
    intro d telling
    have differs : d ≠ e := by
      rintro rfl
      rw [silent] at telling
      cases telling
    simp [differs]
  constructor
  · intro follows
    exact follows.of_same fun d telling => (same d telling).symm
  · intro follows
    exact follows.of_same same

/-- Among plain events an answer, or a write that is over, is the one put first. -/
theorem Plain.mem_cons {d e : Event} (plain : Plain rest) (other : d.isPlain = false) : d ∈ e :: rest ↔ d = e := by
  have absent : d ∉ rest := by
    intro member
    rw [plain d member] at other
    cases other
  simp [absent]

theorem follows_answered {res : Response} (plain : Plain rest) :
    Follows socket_open (some req) (.answered (some res) :: rest) ↔
      res.version = req.version ∧ res.keep_alive = req.keep_alive := by
  constructor
  · intro follows
    obtain ⟨_,asked,same⟩ := follows.answered res (by simp)
    cases asked
    exact same
  · intro same
    refine ⟨?_,?_,?_⟩
    · intro other member
      cases (plain.mem_cons rfl).mp member
      exact ⟨req,rfl,same⟩
    · intro member
      cases (plain.mem_cons rfl).mp member
    · intro other member
      cases (plain.mem_cons rfl).mp member

theorem GoesOn.persists {keep_alive : Bool} {r : HttpServerSession × List Event} (goes : GoesOn keep_alive r)
    {e : Event} (unread : ∀ t, e ≠ .reading t) (unclosed : e ≠ .closing) :
    Persists req (e :: r.2) ↔ req.keep_alive = keep_alive := by
  have reads : (∃ t, Event.reading t ∈ e :: r.2) ↔ keep_alive = true := by
    rw [← goes.reads]
    simp [Ne.symm (unread _)]
  have closes : Event.closing ∈ e :: r.2 ↔ keep_alive = false := by
    rw [← goes.closes]
    simp [Ne.symm unclosed]
  unfold Persists
  rw [reads,closes]
  cases keep_alive <;> cases req.keep_alive <;> simp

theorem follows_dropped {keep_alive : Bool} {s : HttpServerSession} (goes : GoesOn keep_alive (s,rest)) :
    Follows socket_open (some req) (.answered none :: rest) ↔ req.keep_alive = keep_alive := by
  have persists : Persists req (.answered none :: rest) ↔ _ := goes.persists (by simp) (by simp)
  rw [← persists]
  constructor
  · intro follows
    obtain ⟨_,asked,on⟩ := follows.dropped (by simp)
    cases asked
    exact on
  · intro on
    refine ⟨?_,fun _ => ⟨req,rfl,on⟩,?_⟩
    · intro res member
      cases (goes.plain.mem_cons rfl).mp member
    · intro res member
      cases (goes.plain.mem_cons rfl).mp member

theorem follows_wrote {res : Response} (plain : Plain rest)
    (goes : socket_open = true → Persists req (.wrote res :: rest)) :
    Follows socket_open (some req) (.wrote res :: rest) := by
  refine ⟨?_,?_,fun _ _ opened => ⟨req,rfl,goes opened⟩⟩
  · intro res member
    cases (plain.mem_cons rfl).mp member
  · intro member
    cases (plain.mem_cons rfl).mp member

end

end HttpServerSession

namespace Connection
open HttpServerSession (Event handed ForService asking Plain Follows Persists Idle Writing Between GoesOn OwnAnswer)

section
variable (cache : CacheInterface) (config : AppConfig) (library : JsonLibrary)

/-- The cache answers the request. -/
structure Hit (around : Surroundings cache) (req : Request) : Prop where
  id : idOf req ≠ []
  country : countryOf req ≠ []
  held : (cache.get around.store (cacheKey (idOf req) (countryOf req)) around.m.steady).1 ≠ none

/-- The request is dropped because the SLA is missed. -/
structure Dropped (around : Surroundings cache) (req : Request) (received : Int) : Prop where
  checked : Checked cache around req
  late : slaMissed config received around.m.steady = true
  dropping : config.drop_sla_timeout_requests = true

/-- The request is let through to a backend, and `callBackendApi` throws. -/
structure Unstarted (around : Surroundings cache) (req : Request) (received : Int) : Prop where
  reaches : ∃ backend, Reaches cache config around.store around.breaker req received around.m backend
  throws : around.starts = false

/-- The request is answered by a response that is made without it. -/
def Canned (s : HttpServerSession) (around : Surroundings cache) (req : Request) : Prop :=
  s.backendify_service = true ∧ req.method = .get ∧
    (pathOf req.target = lit "/status" ∨ pathOf req.target = lit "/company" ∧ Hit cache around req)

/-- The persistence of the connection is read from what was moved out. -/
def Emptied (s : HttpServerSession) (around : Surroundings cache) (req : Request) : Prop :=
  ForService s req ∧ (Dropped cache config around req s.request_received_time ∨
    Unstarted cache config around req s.request_received_time)

/-- The request asks for what the path it takes gives it anyway: a response made
    without it is HTTP/1.1 and kept alive, and a message without a `Connection`
    field is kept alive from HTTP/1.1 on. -/
structure Suits (s : HttpServerSession) (around : Surroundings cache) (req : Request) : Prop where
  canned : Canned cache s around req → req.version = 11 ∧ req.keep_alive = true
  emptied : Emptied cache config s around req → req.keep_alive = decide (11 ≤ req.version)

/-- The same of a step: that of a request when one is read. -/
def SuitsStep (c : Connection) : Action cache → Prop
  | .read (.ok req) _ around _ => Suits cache config c.session around req
  | _ => True

/-- The answer takes the version and the decision from the request, and a request
    that is dropped asks for what its version gives it. -/
def Apt (req : Request) : Option Response → Prop
  | some res => res.version = req.version ∧ res.keep_alive = req.keep_alive
  | none => req.keep_alive = decide (11 ≤ req.version)

/-- What an outcome of `processCompanyRequest` is made of. -/
inductive Source (around : Surroundings cache) (req : Request) (received : Int) : Outcome → Prop
  | cached (body : Bytes) : Hit cache around req → Source around req received (.answered (some (cachedResponse body)))
  | dropped : Dropped cache config around req received → Source around req received (.answered none)
  | unstarted (text : Bytes) : Unstarted cache config around req received →
      Source around req received (.answered (some (reply (movedOut (prepared req)) 500 text)))
  | copied (result : Nat) (body : Bytes) : ¬ Hit cache around req → ¬ Dropped cache config around req received →
      ¬ Unstarted cache config around req received →
      Source around req received (.answered (some (reply (prepared req) result body)))
  | calling (call : BackendCall) : ¬ Hit cache around req → ¬ Dropped cache config around req received →
      ¬ Unstarted cache config around req received → call.beast_res_cb = prepared req →
      Source around req received (.calling call)

end

variable {cache : CacheInterface} {config : AppConfig} {library : JsonLibrary}

/-! ### The service -/

theorem processCompanyRequest_source (config : AppConfig) (around : Surroundings cache) (req : Request)
    (received : Int) :
    Source cache config around req received
      (processCompanyRequest cache config around.store around.breaker around.starts req received around.m).1 := by
  have handled := processCompanyRequest_handled config around.store around.breaker around.starts req received around.m
  generalize (processCompanyRequest cache config around.store around.breaker around.starts req received around.m).1 =
    outcome at *
  have unheld : Uncached cache around.store req around.m → ¬ Hit cache around req := by
    intro uncached hit
    exact hit.held uncached.missed
  have kept : slaMissed config received around.m.steady = false → ¬ Dropped cache config around req received := by
    intro inTime dropped
    exact absurd (inTime.symm.trans dropped.late) (by simp)
  cases handled with
  | incomplete missing =>
    refine .copied _ _ ?_ ?_ ?_
    · intro hit
      exact missing.elim hit.id hit.country
    · intro dropped
      exact missing.elim dropped.checked.id dropped.checked.country
    · rintro ⟨⟨backend,reaches⟩,_⟩
      exact missing.elim reaches.id reaches.country
  | cached body id country got => exact .cached body ⟨id,country,by simp [got]⟩
  | dropped uncached late dropping =>
    exact .dropped ⟨⟨uncached.id,uncached.country,uncached.missed⟩,late,dropping⟩
  | late uncached late answering =>
    refine .copied _ _ (unheld uncached) ?_ ?_
    · intro dropped
      exact absurd (answering.symm.trans dropped.dropping) (by simp)
    · rintro ⟨⟨backend,reaches⟩,_⟩
      exact absurd (late.symm.trans reaches.inTime) (by simp)
  | unconfigured uncached inTime absent =>
    refine .copied _ _ (unheld uncached) (kept inTime) ?_
    rintro ⟨⟨backend,reaches⟩,_⟩
    exact absurd (absent.symm.trans reaches.configured) (by simp)
  | tripped backend uncached inTime configured tripped =>
    refine .copied _ _ (unheld uncached) (kept inTime) ?_
    rintro ⟨⟨other,reaches⟩,_⟩
    cases configured.symm.trans reaches.configured
    exact absurd (tripped.symm.trans reaches.untripped) (by simp)
  | thrown backend reaches throws => exact .unstarted _ ⟨⟨backend,reaches⟩,throws⟩
  | called backend reaches started =>
    refine .calling _ (unheld reaches.uncached) (kept reaches.inTime) ?_ rfl
    rintro ⟨_,throws⟩
    exact absurd (started.symm.trans throws) (by simp)

/-- For a request of the service the condition says that the answer is apt. -/
theorem suits_service {s : HttpServerSession} {around : Surroundings cache} {req : Request} {outcome : Outcome}
    (routed : ForService s req) (source : Source cache config around req s.request_received_time outcome) :
    Suits cache config s around req ↔ match outcome with
      | .answered opt_res => Apt req opt_res
      | .calling _ => True := by
  have canned : Canned cache s around req ↔ Hit cache around req := by
    constructor
    · rintro ⟨_,_,status | ⟨_,hit⟩⟩
      · exact absurd (status.symm.trans routed.2.2) (by decide)
      · exact hit
    · intro hit
      exact ⟨routed.1,routed.2.1,.inr ⟨routed.2.2,hit⟩⟩
  have emptied : Emptied cache config s around req ↔ (Dropped cache config around req s.request_received_time ∨
      Unstarted cache config around req s.request_received_time) := by
    constructor
    · rintro ⟨_,which⟩
      exact which
    · intro which
      exact ⟨routed,which⟩
  -- a request that the cache answers gets no further
  have apart : Hit cache around req → ¬ (Dropped cache config around req s.request_received_time ∨
      Unstarted cache config around req s.request_received_time) := by
    rintro hit (dropped | ⟨⟨backend,reaches⟩,_⟩)
    · exact hit.held dropped.checked.missed
    · exact hit.held reaches.missed
  have split : Suits cache config s around req ↔
      (Hit cache around req → req.version = 11 ∧ req.keep_alive = true) ∧
      ((Dropped cache config around req s.request_received_time ∨
        Unstarted cache config around req s.request_received_time) → req.keep_alive = decide (11 ≤ req.version)) := by
    rw [← canned,← emptied]
    exact ⟨fun suits => ⟨suits.canned,suits.emptied⟩,fun suits => ⟨suits.1,suits.2⟩⟩
  rw [split]
  cases source with
  | cached body hit =>
    simp only [hit,apart hit,forall_const,false_implies,and_true,Apt,cachedResponse]
    rw [eq_comm,@eq_comm _ true]
  | dropped gone =>
    have unheld : ¬ Hit cache around req := fun hit => apart hit (.inl gone)
    simp only [unheld,gone,false_implies,true_or,forall_const,true_and,Apt]
  | unstarted text thrown =>
    have unheld : ¬ Hit cache around req := fun hit => apart hit (.inr thrown)
    simp only [unheld,thrown,false_implies,or_true,forall_const,true_and,Apt,reply,movedOut,prepared]
    exact eq_comm
  | copied result body unheld kept started =>
    simp only [unheld,kept,started,false_implies,or_self,and_self,Apt,reply,prepared]
  | calling call unheld kept started same =>
    simp only [unheld,kept,started,false_implies,or_self,and_self]

/-- So it does for a request that the session answers itself. -/
theorem suits_own {s : HttpServerSession} {around : Surroundings cache} {req : Request} {res : Response}
    (elsewhere : ¬ ForService s req) (own : OwnAnswer s.backendify_service req res) :
    Suits cache config s around req ↔ Apt req (some res) := by
  have emptied : ¬ Emptied cache config s around req := fun emptied => elsewhere emptied.1
  have split : Suits cache config s around req ↔
      (Canned cache s around req → req.version = 11 ∧ req.keep_alive = true) :=
    ⟨fun suits => suits.canned,fun canned => ⟨canned,fun wrong => absurd wrong emptied⟩⟩
  rw [split]
  cases own with
  | status set method path =>
    have canned : Canned cache s around req := ⟨set,method,.inl path⟩
    simp only [canned,forall_const,Apt,HttpServerSession.statusResponse,Response.empty]
    rw [eq_comm,@eq_comm _ true]
  | notFound set other =>
    have made : ¬ Canned cache s around req := by
      rintro ⟨_,method,status | ⟨company,_⟩⟩
      · exact other ⟨method,status⟩
      · exact elsewhere ⟨set,method,company⟩
    simp only [made,false_implies,Apt,HttpServerSession.resourceNotFound,and_self]
  | unavailable unset =>
    have made : ¬ Canned cache s around req := by
      rintro ⟨set,_⟩
      rw [unset] at set
      cases set
    simp only [made,false_implies,Apt,HttpServerSession.serviceUnavailable,and_self]

/-! ### The stages of a connection -/

/-- Where a connection is with its requests. Where `ok` holds, the response that
    is written has the decision of its request. -/
inductive Stage (ok : Prop) (c : Connection) (log : List Event) : Prop
  | between : Between c.session → c.calls = [] → Stage ok c log
  | serving (req : Request) : asking none log = some req → c.session.serving = 1 →
      Idle { c.session with serving := 0 } → c.session.req = req.movedOut →
      (c.calls = [] ∨ ∃ call, c.calls = [call] ∧ call.beast_res_cb = prepared req) → Stage ok c log
  | writing (req : Request) (res : Response) : asking none log = some req → Writing c.session res →
      (ok → res.keep_alive = req.keep_alive) → c.calls = [] → Stage ok c log

/-- An answer of the service ends what the session was serving. -/
theorem turn_answer {ok : Prop} {c c' : Connection} {log out : List Event} {req : Request} {opt_res : Option Response}
    {now : Int} (asked : asking none log = some req) (serving : c.session.serving = 1)
    (idle : Idle { c.session with serving := 0 }) (moved : c.session.req = req.movedOut) (calls : c.calls = [])
    (apt : ok → Apt req opt_res) (taken : act (.answer opt_res now) now c = some (c',out)) :
    Stage ok c' (log ++ out) ∧ asking none (log ++ out) = some req ∧
      ∀ socket_open, Follows socket_open (some req) out ↔ Apt req opt_res := by
  obtain ⟨session,stepped,rfl⟩ := act_eq_some.mp taken
  simp only [HttpServerSession.step,serving,Option.some.injEq] at stepped
  cases opt_res with
  | none =>
    obtain ⟨rest,sent,goes⟩ := HttpServerSession.send_response_none idle now
    rw [stepped] at sent goes
    simp only at sent goes
    subst sent
    have asked' : asking none (log ++ .answered none :: rest) = some req := by
      rw [HttpServerSession.asking_append,asked]
      exact goes.plain.asking (some req)
    have decision : req.movedOut.keep_alive = decide (11 ≤ req.version) := by
      simp only [Request.keep_alive,Request.movedOut]
      by_cases old : req.version < 11
      · simp [old,Nat.not_le.mpr old]
      · simp [old,Nat.not_lt.mp old]
    rw [moved,decision] at goes
    exact ⟨.between goes.left calls,asked',fun _ => HttpServerSession.follows_dropped goes⟩
  | some res =>
    obtain ⟨rest,sent,plain,left⟩ := HttpServerSession.send_response_some idle res now
    rw [stepped] at sent left
    simp only at sent left
    subst sent
    have asked' : asking none (log ++ .answered (some res) :: rest) = some req := by
      rw [HttpServerSession.asking_append,asked]
      exact plain.asking (some req)
    refine ⟨?_,asked',fun _ => HttpServerSession.follows_answered plain⟩
    rcases left with writing | ended
    · exact .writing req res asked' writing (fun okay => (apt okay).2) calls
    · exact .between (.inr ended) calls

/-- What a step of a connection comes to: it follows the last request only if
    `suits` holds, and it does where `ok` holds. -/
structure Turn (ok suits : Prop) (c : Connection) (log : List Event) (c' : Connection) (out : List Event) : Prop where
  stage : Stage ok c' (log ++ out)
  suits : Follows c.session.socket_open (asking none (log ++ out)) out → suits
  follows : ok → Follows c.session.socket_open (asking none (log ++ out)) out

/-- The service gets a request that was just read. -/
theorem turn_serve {ok : Prop} {c d c' : Connection} {log more : List Event} {req : Request} {arrived now : Int}
    {around : Surroundings cache} (routed : ForService c.session req) (serving : d.session.serving = 1)
    (idle : Idle { d.session with serving := 0 }) (moved : d.session.req = req.movedOut) (calls : d.calls = [])
    (suits : ok → Suits cache config c.session around req)
    (served : serve cache config req c.session.request_received_time around now d = some (c',more)) :
    Turn ok (Suits cache config c.session around req) c log c'
      ([.request req arrived,.company req c.session.request_received_time] ++ more) := by
  have asked : asking none (log ++ [.request req arrived,.company req c.session.request_received_time]) = some req := by
    rw [HttpServerSession.asking_append]
    rfl
  have told : ∀ socket_open,
      Follows socket_open (some req) ([.request req arrived,.company req c.session.request_received_time] ++ more) ↔
        Follows socket_open (some req) more := by
    intro socket_open
    rw [List.cons_append,List.cons_append,List.nil_append,HttpServerSession.follows_cons rfl,
      HttpServerSession.follows_cons rfl]
  have source := processCompanyRequest_source config around req c.session.request_received_time
  unfold serve at served
  cases outcome : (processCompanyRequest cache config around.store around.breaker around.starts req
      c.session.request_received_time around.m).1 with
  | answered opt_res =>
    rw [outcome] at served source
    have apt := suits_service routed source
    obtain ⟨stage,asked',follows⟩ := turn_answer asked serving idle moved calls (fun okay => apt.mp (suits okay)) served
    rw [List.append_assoc] at stage asked'
    refine ⟨stage,?_,?_⟩
    · rw [asked',told,follows,apt]
      exact id
    · intro okay
      rw [asked',told,follows]
      exact apt.mp (suits okay)
  | calling call =>
    rw [outcome] at served source
    have apt := suits_service routed source
    simp only [Option.some.injEq,Prod.mk.injEq] at served
    obtain ⟨rfl,rfl⟩ := served
    have prepared : call.beast_res_cb = prepared req := by
      cases source with
      | calling _ _ _ _ same => exact same
    rw [List.append_nil] at told ⊢
    refine ⟨.serving req asked serving idle moved (.inr ⟨call,by simp [calls],prepared⟩),fun _ => apt.mpr trivial,?_⟩
    intro _
    rw [asked,told]
    exact HttpServerSession.Plain.follows (by simp [Plain]) _ _

/-- The session answers a request itself. -/
theorem turn_own {ok : Prop} {c : Connection} {s : HttpServerSession} {log : List Event} {req : Request}
    {res : Response} {arrived now : Int} {around : Surroundings cache} (idle : Idle { s with req := req })
    (calls : c.calls = []) (apt : Suits cache config c.session around req ↔ Apt req (some res))
    (suits : ok → Suits cache config c.session around req) :
    Turn ok (Suits cache config c.session around req) c log
      { c with session := (HttpServerSession.send_response (some res) arrived { s with req := req }).1, clock := now }
      (.request req arrived :: (HttpServerSession.send_response (some res) arrived { s with req := req }).2) := by
  obtain ⟨rest,sent,plain,left⟩ := HttpServerSession.send_response_some idle res arrived
  rw [sent]
  have asked : asking none (log ++ .request req arrived :: .answered (some res) :: rest) = some req := by
    rw [HttpServerSession.asking_append]
    exact plain.asking (some req)
  have follows : ∀ socket_open,
      Follows socket_open (some req) (.request req arrived :: .answered (some res) :: rest) ↔ Apt req (some res) := by
    intro socket_open
    rw [HttpServerSession.follows_cons rfl]
    exact HttpServerSession.follows_answered plain
  refine ⟨?_,?_,?_⟩
  · rcases left with writing | ended
    · exact .writing req res asked writing (fun okay => (apt.mp (suits okay)).2) calls
    · exact .between (.inr ended) calls
  · rw [asked,follows,apt]
    exact id
  · intro okay
    rw [asked,follows]
    exact apt.mp (suits okay)

/-- A step that reports nothing of a request follows it. -/
theorem turn_plain {ok suits : Prop} {c c' : Connection} {log out : List Event} (stage : Stage ok c' (log ++ out))
    (plain : Plain out) (holds : suits) : Turn ok suits c log c' out :=
  ⟨stage,fun _ => holds,fun _ => plain.follows _ _⟩

theorem turn_aside {ok : Prop} {c c' : Connection} {log out : List Event} {a : HttpServerSession.Action} {now : Int}
    (stage : Stage ok c log) (other : (∀ result now, a ≠ .read result now) ∧ (∀ opt_res now, a ≠ .answer opt_res now) ∧
      ∀ ec now, a ≠ .written ec now) (taken : act a now c = some (c',out)) : Turn ok True c log c' out := by
  obtain ⟨session,stepped,rfl⟩ := act_eq_some.mp taken
  obtain ⟨same,plain⟩ := HttpServerSession.untouched_step other stepped
  have asked : asking none (log ++ out) = asking none log := by
    rw [HttpServerSession.asking_append]
    exact plain.asking _
  refine turn_plain ?_ plain trivial
  cases stage with
  | between between calls => exact .between (same.between between) calls
  | serving req this serving idle moved calls =>
    exact .serving req (asked.trans this) (same.serving.trans serving) (same.serving_idle idle) (same.req.trans moved)
      calls
  | writing req res this writing agreed calls =>
    exact .writing req res (asked.trans this) (same.writing writing) agreed calls

theorem turn_written {ok : Prop} {c c' : Connection} {log out : List Event} {ec : Option ErrorCode} {now : Int}
    (stage : Stage ok c log) (taken : act (.written ec now) now c = some (c',out)) : Turn ok True c log c' out := by
  obtain ⟨session,stepped,rfl⟩ := act_eq_some.mp taken
  cases stage with
  | between between calls =>
    have unwritten : c.session.writes = [] := by
      rcases between with ⟨_,idle⟩ | ended
      · exact idle.writes
      · exact ended.2.2
    simp [HttpServerSession.step,unwritten] at stepped
  | serving req this serving idle moved calls =>
    have unwritten : c.session.writes = [] := idle.writes
    simp [HttpServerSession.step,unwritten] at stepped
  | writing req res this writing agreed calls =>
    obtain ⟨plain,between,goes⟩ := HttpServerSession.on_write_spec writing res.keep_alive ec now
    simp only [HttpServerSession.step,writing.writes,Option.some.injEq,Prod.mk.injEq] at stepped
    obtain ⟨state,events⟩ := stepped
    rw [state] at between
    have stage : Stage ok { c with session := session, clock := now } (log ++ out) := .between between calls
    cases ec with
    | some e =>
      rw [if_neg (by simp),List.nil_append] at events
      rw [events] at plain
      exact turn_plain stage plain trivial
    | none =>
      rw [if_pos rfl,List.singleton_append] at events
      have asked : asking none (log ++ out) = some req := by
        rw [HttpServerSession.asking_append,this,← events]
        exact plain.asking (some req)
      refine ⟨stage,fun _ => trivial,?_⟩
      intro okay
      rw [asked,← events]
      refine HttpServerSession.follows_wrote plain ?_
      intro opened
      rw [(goes rfl opened).persists (by simp) (by simp)]
      exact (agreed okay).symm

theorem turn_complete {ok : Prop} {c c' : Connection} {log out : List Event} {position : Nat} {res : Response}
    {ec : Option ErrorCode} {around : Surroundings cache} {now : Int} (stage : Stage ok c log)
    (taken : step cache config library c (.complete position res ec around now) = some (c',out)) :
    Turn ok True c log c' out := by
  simp only [step] at taken
  split at taken
  · cases stage with
    | between between calls => simp [calls] at taken
    | writing req res this writing agreed calls => simp [calls] at taken
    | serving req this serving idle moved calls =>
      rcases calls with calls | ⟨call,calls,copied⟩
      · simp [calls] at taken
      · cases position with
        | succ position => simp [calls] at taken
        | zero =>
          simp only [calls,List.getElem?_cons_zero,List.eraseIdx_cons_zero] at taken
          split at taken
          · rename_i r completed
            obtain ⟨result,body,rfl,_⟩ := on_backend_complete_reply completed
            have apt : Apt req (some (reply call.beast_res_cb result body)) := by
              rw [copied]
              exact ⟨rfl,rfl⟩
            obtain ⟨stage,asked,follows⟩ := turn_answer (c := ⟨c.session,[],now⟩) this serving idle moved rfl
              (fun _ => apt) taken
            refine ⟨stage,fun _ => trivial,?_⟩
            intro _
            rw [asked,follows]
            exact apt
          · simp only [Option.some.injEq,Prod.mk.injEq] at taken
            obtain ⟨rfl,rfl⟩ := taken
            have unchanged : log ++ [] = log := List.append_nil log
            refine turn_plain ?_ (by simp [Plain]) trivial
            rw [unchanged]
            exact .serving req this serving idle moved (.inl rfl)
  · cases taken

/-- A read ends only between two requests. -/
theorem Stage.reading {ok : Prop} {c : Connection} {log : List Event} {reads : Nat} (stage : Stage ok c log)
    (pending : c.session.reads = reads + 1) : Idle { c.session with reads := reads } ∧ c.calls = [] := by
  cases stage with
  | between between calls =>
    rcases between with ⟨one,idle⟩ | ended
    · have last : reads = 0 := by omega
      subst last
      exact ⟨idle,calls⟩
    · have unread := ended.1
      omega
  | serving req this serving idle moved calls =>
    have unread : c.session.reads = 0 := idle.reads
    omega
  | writing req res this writing agreed calls =>
    have unread := writing.reads
    omega

theorem turn_read {ok : Prop} {c c' : Connection} {log out : List Event} {result : Except ErrorCode Request}
    {arrived now : Int} {around : Surroundings cache} (stage : Stage ok c log)
    (suits : ok → SuitsStep cache config c (.read result arrived around now))
    (taken : step cache config library c (.read result arrived around now) = some (c',out)) :
    Turn ok (SuitsStep cache config c (.read result arrived around now)) c log c' out := by
  obtain ⟨_,_,reads,pending,done⟩ := step_read taken
  obtain ⟨idle,calls⟩ := stage.reading pending
  cases done with
  | failed ec =>
    obtain ⟨plain,_,_,reads',serving',writes'⟩ := HttpServerSession.do_close_spec { c.session with reads := reads }
    refine turn_plain (.between (.inr ⟨?_,?_,?_⟩) calls) plain trivial
    · exact reads'.trans idle.reads
    · exact serving'.trans idle.serving
    · exact writes'.trans idle.writes
  | served req _ more routed served =>
    have still : c.session.serving = 0 := idle.serving
    refine turn_serve routed ?_ ?_ ?_ ?_ suits served
    · show c.session.serving + 1 = 1
      rw [still]
    · exact ⟨idle.reads,rfl,idle.writes,idle.queue,idle.free⟩
    · rfl
    · exact calls
  | own req res elsewhere own =>
    exact turn_own ⟨idle.reads,idle.serving,idle.writes,idle.queue,idle.free⟩ calls (suits_own elsewhere own) suits

theorem turn_step {ok : Prop} {c c' : Connection} {log out : List Event} {a : Action cache} (stage : Stage ok c log)
    (suits : ok → SuitsStep cache config c a) (taken : step cache config library c a = some (c',out)) :
    Turn ok (SuitsStep cache config c a) c log c' out := by
  cases a with
  | read result arrived around now => exact turn_read stage suits taken
  | complete position res ec around now => exact turn_complete stage taken
  | written ec now =>
    simp only [step] at taken
    split at taken
    · exact turn_written stage taken
    · cases taken
  | stop => exact turn_aside stage (by simp) taken
  | expire write => exact turn_aside stage (by simp) taken
  | timer write => exact turn_aside stage (by simp) taken

/-! ### Runs -/

theorem stage_run {ok : Prop} {backendify_service : Bool} {max_response_queue_size : Int32} {stopped : Bool}
    {first : Int} {actions : List (Action cache)} {c : Connection} {log : List Event}
    (run : Runs.Run (step cache config library) (opened backendify_service max_response_queue_size stopped first)
      actions c log)
    (suits : ok → ∀ d before a d' out,
      Runs.Takes (step cache config library) (opened backendify_service max_response_queue_size stopped first)
        actions d before a →
      step cache config library d a = some (d',out) → SuitsStep cache config d a) : Stage ok c log := by
  induction run with
  | start =>
    refine .between (.inl ?_) rfl
    cases stopped
    · exact ⟨rfl,rfl,rfl,rfl,rfl,rfl⟩
    · exact ⟨rfl,rfl,rfl,rfl,rfl,rfl⟩
  | @next actions c c' log out a run taken ih =>
    have stage := ih fun okay d before b d' out takes => suits okay d before b d' out (run.takes_snoc.mpr (.inl takes))
    refine (turn_step stage (fun okay => ?_) taken).stage
    exact suits okay c log a c' out (run.takes_snoc.mpr (.inr ⟨rfl,rfl,rfl⟩)) taken

/-- In a run of a connection every answer has the version and the persistence of
    its request, and the session reads on or closes as the request asks, exactly
    when every request asks for what its path gives it anyway: HTTP/1.1 and
    keep-alive where it is answered by `/status` or from the cache, and the
    default of its version where it is dropped or its backend call cannot be
    started. -/
theorem persistence_iff (cache : CacheInterface) (config : AppConfig) (library : JsonLibrary)
    (backendify_service : Bool) (max_response_queue_size : Int32) (stopped : Bool) (first : Int)
    (actions : List (Action cache)) :
    (∀ c log a c' out,
      Runs.Takes (step cache config library) (opened backendify_service max_response_queue_size stopped first)
        actions c log a →
      step cache config library c a = some (c',out) →
      Follows c.session.socket_open (asking none (log ++ out)) out) ↔
    (∀ c log a c' out,
      Runs.Takes (step cache config library) (opened backendify_service max_response_queue_size stopped first)
        actions c log a →
      step cache config library c a = some (c',out) → SuitsStep cache config c a) := by
  constructor
  · intro follows c log a c' out takes taken
    obtain ⟨before,run⟩ := takes.run
    have stage : Stage False c log := stage_run run False.elim
    exact (turn_step stage False.elim taken).suits (follows c log a c' out takes taken)
  · intro suits c log a c' out takes taken
    have earlier := takes
    obtain ⟨before,after,rfl,run⟩ := earlier
    have stage : Stage True c log := by
      refine stage_run run ?_
      rintro - d log b d' out ⟨early,late,rfl,run'⟩
      exact suits d log b d' out ⟨early,late ++ a :: after,by simp,run'⟩
    exact (turn_step stage (fun _ => suits c log a c' out takes taken) taken).follows trivial

/-! ### A request to close that is dropped -/

/-- A request of HTTP/1.1 with `Connection: close`. -/
def lastRequest : Request := { companyRequest with connection_close := true }

/-- It comes one second after the start of the read. -/
def lateRead : Action .everlasting := .read (.ok lastRequest) 1000000000 (untroubled 1000000000) 1000000000

/-- The request is dropped, and the session reads on from what was moved out. -/
theorem last_request_read_on : ¬ (∀ c log a c' out,
    Runs.Takes (step .everlasting {} vagueLibrary) (opened true 10 false 0) [lateRead] c log a →
    step .everlasting {} vagueLibrary c a = some (c',out) →
    Follows c.session.socket_open (asking none (log ++ out)) out) := by
  intro follows
  have executed : (step .everlasting {} vagueLibrary (opened true 10 false 0) lateRead).map Prod.snd =
      some [.request lastRequest 1000000000,.company lastRequest 0,.answered none,.reading 1000000000] := by
    decide +kernel
  obtain ⟨⟨c',out⟩,taken,rfl⟩ := Option.map_eq_some_iff.mp executed
  have step_follows := follows _ [] lateRead c' _ ⟨[],[],rfl,.start⟩ taken
  obtain ⟨req,asked,reads,_⟩ := step_follows.dropped (by simp)
  have same : req = lastRequest := (Option.some.inj asked).symm
  subst same
  have kept : lastRequest.keep_alive = true := reads.mp ⟨1000000000,by simp⟩
  revert kept
  decide

end Connection
end Facade
