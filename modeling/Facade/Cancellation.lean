import Facade.Backendify
import Facade.ClientPhases

/-!
`AsyncHttpClientSession::cancel`. An operation ends at one time and its handler runs
at a later one, and `cancel` may come before or between the two: closing the socket
makes an operation on it fail that has not ended, but leaves a resolution alone and
cannot change a result that is there already.

`cancel_stops_iff` says when nothing is started any more after `cancel` and the call
completes with an error.
-/
namespace Facade
open Strings Http
open AsyncHttpClientSession (Action Event Followed deliverAny stepAny launched)

/-- A session and the result of its operation in flight, from the end of the operation
    until its handler runs. -/
structure CallInFlight where
  session : AsyncHttpClientSession
  result : Option (Response × Option ErrorCode)
deriving DecidableEq,Repr

namespace CallInFlight

/-- What can happen to a call. -/
inductive Move
  | ends (res : Response) (ec : Option ErrorCode)
  | handled
  | cancel
  | expire
  | timeout
deriving DecidableEq,Repr

/-- The handler of a phase, with the result it is called with. -/
def actionFor (phase : Phase) (res : Response) (ec : Option ErrorCode) : Action :=
  match phase with
  | .resolve => .resolved ec
  | .connect => .connected ec
  | .write => .written ec
  | .read => .received res ec

/-- The result of an operation whose socket was closed. -/
def Lost (ec : Option ErrorCode) : Prop := ec ≠ none ∧ ec ≠ some .end_of_stream

instance (ec : Option ErrorCode) : Decidable (Lost ec) := inferInstanceAs (Decidable (_ ∧ _))

/-- `cancel`: a result that is there stays. -/
def cancelled (c : CallInFlight) : CallInFlight := ⟨(AsyncHttpClientSession.cancel c.session).1,c.result⟩

def step (c : CallInFlight) : Move → Option (CallInFlight × List Event)
  | .ends res ec =>
    if c.session.pending ≠ none ∧ c.result = none ∧ (c.session.aborted = true → Lost ec) then
      some ({ c with result := some (res,ec) },[])
    else none
  | .handled =>
    match c.session.pending,c.result with
    | some phase,some (res,ec) => (stepAny c.session (actionFor phase res ec)).map fun (s,out) => (⟨s,none⟩,out)
    | _,_ => none
  | .cancel => some (c.cancelled,[.closed])
  | .expire => (AsyncHttpClientSession.step c.session .expire).map fun (s,out) => (⟨s,c.result⟩,out)
  | .timeout => (AsyncHttpClientSession.step c.session .timeout).map fun (s,out) => (⟨s,c.result⟩,out)

/-- A call that was started. -/
def started (backendInfo : BackendUrlInfo) (target_path : Bytes) (timeout : Int) : CallInFlight :=
  ⟨launched backendInfo target_path timeout,none⟩

/-- The handler of the phase completes the call with an error. -/
def Errs (phase : Phase) (ec : Option ErrorCode) : Prop := ec ≠ none ∧ (phase = .read → ec ≠ some .end_of_stream)

instance (phase : Phase) (ec : Option ErrorCode) : Decidable (Errs phase ec) := inferInstanceAs (Decidable (_ ∧ _))

/-- The operation in flight uses the socket, or it has ended with an error. -/
def Stoppable (phase : Phase) : Option (Response × Option ErrorCode) → Prop
  | none => phase ≠ .resolve
  | some (_,ec) => Errs phase ec

instance (phase : Phase) : (result : Option (Response × Option ErrorCode)) → Decidable (Stoppable phase result)
  | none => inferInstanceAs (Decidable (_ ≠ _))
  | some (_,ec) => inferInstanceAs (Decidable (Errs phase ec))

/-- The completion handler does not touch the cache. -/
def LeavesCache (res : Response) (ec : Option ErrorCode) : Prop :=
  ∀ (cache : CacheInterface) (config : AppConfig) (library : JsonLibrary) (call : Backendify.BackendCall) (m : Moment)
    (store : cache.Store) (breaker : CircuitBreaker),
    (Backendify.on_backend_complete cache config library call res ec m store breaker).2.1 = store

/-- From here on nothing is started, the call can complete and has done so once no
    operation is in flight, and it completes with an error that leaves the cache alone. -/
def Stopped (c : CallInFlight) : Prop :=
  ∀ moves d log, Runs.Run step c moves d log →
    (∀ phase, Event.started phase ∉ log) ∧
    (∀ res ec, Event.completed res ec ∈ log → ec ≠ none ∧ LeavesCache res ec) ∧
    (d.session.pending = none → ∃ res ec, Event.completed res ec ∈ log) ∧
    (d.session.pending ≠ none → ∃ more e out, Runs.Run step d more e out ∧ ∃ res ec, Event.completed res ec ∈ out)

variable {c c' : CallInFlight} {move : Move} {out : List Event}

/-- What a move does. -/
inductive Moves (c c' : CallInFlight) (move : Move) (out : List Event) : Prop
  | ended (res : Response) (ec : Option ErrorCode) : move = .ends res ec → c.session.pending ≠ none → c.result = none →
      (c.session.aborted = true → Lost ec) → c' = { c with result := some (res,ec) } → out = [] → Moves c c' move out
  | onward (phase next : Phase) (res : Response) : move = .handled → c.session.pending = some phase → phase ≠ .read →
      c.result = some (res,none) → c'.session.pending = some next → next ≠ .resolve → c'.result = none →
      out = [.started next] → Moves c c' move out
  | failed (phase : Phase) (res : Response) (e : ErrorCode) : move = .handled → c.session.pending = some phase →
      phase ≠ .read → c.result = some (res,some e) → c'.session.pending = none → c'.result = none →
      out = [.completed .empty (some e)] → Moves c c' move out
  | read (res : Response) (ec : Option ErrorCode) : move = .handled → c.session.pending = some .read →
      c.result = some (res,ec) → c'.session.pending = none → c'.result = none →
      out = [.completed res (if ec = some .end_of_stream then none else ec)] → Moves c c' move out
  | aside : c'.session.pending = c.session.pending → c'.result = c.result →
      (c.session.aborted = true → c'.session.aborted = true) →
      (c.session.pending = some .resolve → c'.session.aborted = c.session.aborted) → (∀ e ∈ out, e = .closed) →
      Moves c c' move out

/-- The result of a phase before the last is followed by another phase. -/
theorem followed_of_ne_read {phase : Phase} (notRead : phase ≠ .read) (res : Response) (ec : Option ErrorCode) :
    ∃ next, next ≠ .resolve ∧ Followed (actionFor phase res ec) phase next ec := by
  cases phase with
  | resolve => exact ⟨.connect,by simp,.resolved ec⟩
  | connect => exact ⟨.write,by simp,.connected ec⟩
  | write => exact ⟨.read,by simp,.written ec⟩
  | read => exact absurd rfl notRead

theorem step_handled {phase : Phase} {res : Response} {ec : Option ErrorCode}
    (running : c.session.pending = some phase) (ended : c.result = some (res,ec)) :
    step c .handled = (stepAny c.session (actionFor phase res ec)).map fun (s,out) => (⟨s,none⟩,out) := by
  simp only [step,running,ended]

theorem step_moves (taken : step c move = some (c',out)) : Moves c c' move out := by
  cases move with
  | ends res ec =>
    simp only [step,Option.ite_none_right_eq_some,Option.some.injEq,Prod.mk.injEq] at taken
    obtain ⟨⟨running,waiting,lost⟩,rfl,rfl⟩ := taken
    exact .ended res ec rfl running waiting lost rfl rfl
  | handled =>
    simp only [step] at taken
    split at taken
    · rename_i phase res ec running ended
      simp only [Option.map_eq_some_iff,Prod.exists,Prod.mk.injEq] at taken
      obtain ⟨s,_,delivered,rfl,rfl⟩ := taken
      by_cases last : phase = .read
      · subst last
        obtain ⟨-,done⟩ := AsyncHttpClientSession.deliverAny_eq_some delivered
        cases done
        refine .read res ec rfl running ended ?_ rfl rfl
        unfold AsyncHttpClientSession.cancelTimer
        split <;> rfl
      · obtain ⟨next,later,followed⟩ := followed_of_ne_read last res ec
        obtain ⟨-,⟨e,rfl,idle,reported⟩ | ⟨rfl,now,reported⟩⟩ := followed.taken delivered
        · exact .failed phase res e rfl running last ended idle rfl reported
        · exact .onward phase next res rfl running last ended now later rfl reported
    · cases taken
  | cancel =>
    cases taken
    have timer : (AsyncHttpClientSession.cancelTimer c.session).pending = c.session.pending ∧
        (AsyncHttpClientSession.cancelTimer c.session).aborted = c.session.aborted := by
      unfold AsyncHttpClientSession.cancelTimer
      split <;> exact ⟨rfl,rfl⟩
    refine .aside timer.1 rfl ?_ ?_ (by simp)
    · intro aborted
      simp [cancelled,AsyncHttpClientSession.cancel,AsyncHttpClientSession.close,timer,aborted]
    · intro resolving
      simp [cancelled,AsyncHttpClientSession.cancel,AsyncHttpClientSession.close,timer,resolving]
  | expire =>
    simp only [step,AsyncHttpClientSession.step,Option.map_eq_some_iff,Option.ite_none_right_eq_some,Option.some.injEq,
      Prod.exists,Prod.mk.injEq] at taken
    obtain ⟨s,_,⟨-,rfl,rfl⟩,rfl,rfl⟩ := taken
    exact .aside rfl rfl id (fun _ => rfl) (by simp)
  | timeout =>
    -- the wait ends without an error or with `operation_aborted`, which the handler ignores
    simp only [step,AsyncHttpClientSession.step,Option.map_eq_some_iff,Prod.exists,Prod.mk.injEq] at taken
    obtain ⟨s,_,⟨ec,ended,handled⟩,rfl,rfl⟩ := taken
    have ignored : ¬ (ec ≠ none ∧ ec ≠ some .operation_aborted) := by
      cases timer : c.session.timer <;> simp_all [AsyncHttpClientSession.waitResult]
    simp only [AsyncHttpClientSession.on_timeout,ignored,if_false,Prod.mk.injEq] at handled
    obtain ⟨rfl,rfl⟩ := handled
    exact .aside rfl rfl id (fun _ => rfl) (by simp)

/-- A resolution in flight does not use the socket. -/
theorem resolving_run {backendInfo : BackendUrlInfo} {target_path : Bytes} {timeout : Int} {moves : List Move}
    {log : List Event} (run : Runs.Run step (started backendInfo target_path timeout) moves c log) :
    c.session.pending = some .resolve → c.session.aborted = false := by
  refine run.invariant (fun c _ => c.session.pending = some .resolve → c.session.aborted = false) (fun _ => rfl) ?_
  intro c log move c' out unaborted taken resolving
  cases step_moves taken with
  | ended res ec _ _ _ _ same _ =>
    subst same
    exact unaborted resolving
  | onward phase next res _ _ _ _ now later _ _ =>
    rw [now] at resolving
    exact absurd (Option.some.inj resolving) later
  | failed phase res e _ _ _ _ done _ _ => simp [done] at resolving
  | read res ec _ _ _ done _ _ => simp [done] at resolving
  | aside same _ _ keeps _ =>
    rw [same] at resolving
    rw [keeps resolving]
    exact unaborted resolving

/-! ### After `cancel` -/

/-- The operation in flight can only fail. -/
structure Doomed (c : CallInFlight) (phase : Phase) : Prop where
  running : c.session.pending = some phase
  waiting : c.result = none → phase ≠ .resolve ∧ c.session.aborted = true
  ended : ∀ res ec, c.result = some (res,ec) → Errs phase ec

theorem leavesCache_failed {res : Response} {ec : Option ErrorCode} (fails : Backendify.failed ec = true) :
    LeavesCache res ec := by
  intro cache config library call m store breaker
  simp only [Backendify.on_backend_complete,fails,if_true]

/-- A response without a body is not cached, whatever the error. -/
theorem leavesCache_empty (ec : Option ErrorCode) : LeavesCache .empty ec := by
  by_cases fails : Backendify.failed ec = true
  · exact leavesCache_failed fails
  · intro cache config library call m store breaker
    have nothing : Backendify.buildBody library call.id .empty m = none := by
      simp [Backendify.buildBody,CompanyInfo.parseBackendResponse,Response.empty]
    have ok : Response.empty.result = 200 := rfl
    simp only [Backendify.on_backend_complete,fails,ok,nothing,if_true]
    rfl

/-- What holds after `cancel` stopped a call. -/
structure Quiet (d : CallInFlight) (log : List Event) : Prop where
  silent : ∀ phase, Event.started phase ∉ log
  errors : ∀ res ec, Event.completed res ec ∈ log → ec ≠ none ∧ LeavesCache res ec
  completed : d.session.pending = none → ∃ res ec, Event.completed res ec ∈ log
  doomed : ∀ phase, d.session.pending = some phase → Doomed d phase

/-- The completion of a call that could only fail. -/
theorem Quiet.complete {log : List Event} {res : Response} {ec : Option ErrorCode} (quiet : Quiet c log)
    (done : c'.session.pending = none) (error : ec ≠ none ∧ LeavesCache res ec) :
    Quiet c' (log ++ [.completed res ec]) := by
  constructor
  · intro phase member
    simp only [List.mem_append,List.mem_singleton,reduceCtorEq,or_false] at member
    exact quiet.silent phase member
  · intro res' ec' member
    rcases List.mem_append.mp member with earlier | now
    · exact quiet.errors res' ec' earlier
    · simp only [List.mem_singleton,Event.completed.injEq] at now
      obtain ⟨rfl,rfl⟩ := now
      exact error
  · exact fun _ => ⟨res,ec,by simp⟩
  · intro phase running
    simp [done] at running

theorem quiet_step {log : List Event} (quiet : Quiet c log) (taken : step c move = some (c',out)) :
    Quiet c' (log ++ out) := by
  cases step_moves taken with
  | ended res ec _ running waiting lost same reported =>
    subst same reported
    rw [List.append_nil]
    refine ⟨quiet.silent,quiet.errors,fun idle => absurd idle running,?_⟩
    intro phase now
    have doomed := quiet.doomed phase now
    refine ⟨now,by simp,?_⟩
    intro res' ec' same
    simp only [Option.some.injEq,Prod.mk.injEq] at same
    obtain ⟨rfl,rfl⟩ := same
    obtain ⟨some_error,notEnd⟩ := lost (doomed.waiting waiting).2
    exact ⟨some_error,fun _ => notEnd⟩
  | onward phase next res _ running _ ended _ _ _ _ =>
    have error := (quiet.doomed phase running).ended res none ended
    exact absurd rfl error.1
  | failed phase res e _ _ _ _ done _ reported =>
    subst reported
    exact quiet.complete done ⟨by simp,leavesCache_empty _⟩
  | read res ec _ running ended done _ reported =>
    subst reported
    obtain ⟨some_error,notEnd⟩ := (quiet.doomed .read running).ended res ec ended
    have kept : (if ec = some .end_of_stream then none else ec) = ec := if_neg (notEnd rfl)
    rw [kept]
    exact quiet.complete done ⟨some_error,leavesCache_failed (by simp [Backendify.failed,some_error,notEnd rfl])⟩
  | aside same sameResult aborts keeps closings =>
    constructor
    · intro phase member
      rcases List.mem_append.mp member with earlier | now
      · exact quiet.silent phase earlier
      · cases closings _ now
    · intro res ec member
      rcases List.mem_append.mp member with earlier | now
      · exact quiet.errors res ec earlier
      · cases closings _ now
    · intro idle
      obtain ⟨res,ec,member⟩ := quiet.completed (same ▸ idle)
      exact ⟨res,ec,by simp [member]⟩
    · intro phase running
      have doomed := quiet.doomed phase (same ▸ running)
      refine ⟨running,?_,?_⟩
      · intro waiting
        obtain ⟨uses,aborted⟩ := doomed.waiting (sameResult ▸ waiting)
        exact ⟨uses,aborts aborted⟩
      · intro res ec ended
        exact doomed.ended res ec (sameResult ▸ ended)

theorem deliverAny_running {phase : Phase} (running : c.session.pending = some phase)
    (handler : AsyncHttpClientSession → AsyncHttpClientSession × List Event) :
    deliverAny phase handler c.session = some (handler { c.session with pending := none, aborted := false }) := by
  rw [deliverAny,if_pos running]

/-- The handler of an operation that ended with an error completes the call. -/
theorem handled_completes {phase : Phase} {res : Response} {ec : Option ErrorCode}
    (running : c.session.pending = some phase) (ended : c.result = some (res,ec)) (error : Errs phase ec) :
    ∃ d out, step c .handled = some (d,out) ∧ ∃ res ec, Event.completed res ec ∈ out := by
  obtain ⟨e,rfl⟩ := Option.ne_none_iff_exists'.mp error.1
  rw [step_handled running ended]
  by_cases last : phase = .read
  · subst last
    exact ⟨_,_,by rw [actionFor,stepAny,deliverAny_running running]; rfl,res,_,List.mem_singleton.mpr rfl⟩
  · obtain ⟨next,_,followed⟩ := followed_of_ne_read last res (some e)
    exact ⟨_,_,by rw [followed.stepAny_eq,deliverAny_running running]; rfl,.empty,some e,List.mem_singleton.mpr rfl⟩

/-- A call that can only fail can complete. -/
theorem Doomed.completes {phase : Phase} (doomed : Doomed c phase) :
    ∃ more e out, Runs.Run step c more e out ∧ ∃ res ec, Event.completed res ec ∈ out := by
  cases result : c.result with
  | none =>
    have lost : Lost (some .operation_aborted) := by decide
    have running := doomed.running
    have ends : step c (.ends .empty (some .operation_aborted)) =
        some ({ c with result := some (.empty,some .operation_aborted) },[]) := by
      simp [step,running,result,lost]
    have error : Errs phase (some .operation_aborted) := ⟨by simp,by simp⟩
    obtain ⟨d,out,handled,completion⟩ :=
      handled_completes (c := { c with result := some (.empty,some .operation_aborted) }) running rfl error
    exact ⟨_,d,_,(Runs.Run.start.next ends).next handled,by simpa using completion⟩
  | some pair =>
    obtain ⟨res,ec⟩ := pair
    obtain ⟨d,out,handled,completion⟩ := handled_completes doomed.running result (doomed.ended res ec result)
    exact ⟨_,d,_,Runs.Run.start.next handled,by simpa using completion⟩

theorem stopped_of_doomed {phase : Phase} (doomed : Doomed c phase) : Stopped c := by
  intro moves d log run
  have start : Quiet c [] := by
    refine ⟨by simp,by simp,?_,?_⟩
    · intro idle
      simp [doomed.running] at idle
    · intro other running
      rw [doomed.running,Option.some.injEq] at running
      exact running ▸ doomed
  have quiet : Quiet d log := run.invariant Quiet start fun _ _ _ _ _ kept taken => quiet_step kept taken
  refine ⟨quiet.silent,quiet.errors,quiet.completed,?_⟩
  intro busy
  obtain ⟨other,running⟩ := Option.ne_none_iff_exists'.mp busy
  exact (quiet.doomed other running).completes

theorem cancelled_pending (c : CallInFlight) : c.cancelled.session.pending = c.session.pending := by
  unfold cancelled AsyncHttpClientSession.cancel AsyncHttpClientSession.close AsyncHttpClientSession.cancelTimer
  split <;> rfl

theorem cancelled_aborted (c : CallInFlight) :
    c.cancelled.session.aborted = (c.session.aborted || decide (c.session.pending ≠ some .resolve)) := by
  unfold cancelled AsyncHttpClientSession.cancel AsyncHttpClientSession.close AsyncHttpClientSession.cancelTimer
  split <;> rfl

/-- The handler of an operation that did not fail goes on, or completes without an
    error. -/
theorem not_stopped_of_result {phase : Phase} {res : Response} {ec : Option ErrorCode}
    (running : c.session.pending = some phase) (ended : c.result = some (res,ec)) (fine : ¬ Errs phase ec) : ¬ Stopped c := by
  intro stopped
  by_cases last : phase = .read
  · subst last
    have unread : (if ec = some .end_of_stream then none else ec) = none := by
      by_cases closed : ec = some .end_of_stream
      · rw [if_pos closed]
      · rw [if_neg closed]
        by_contra error
        exact fine ⟨error,fun _ => closed⟩
    have handled : ∃ d, step c .handled = some (d,[.completed res none]) := by
      rw [step_handled running ended,actionFor,stepAny,deliverAny_running running]
      exact ⟨_,by rw [AsyncHttpClientSession.on_read,unread]; rfl⟩
    obtain ⟨d,handled⟩ := handled
    obtain ⟨-,errors,-⟩ := stopped _ d _ (Runs.Run.start.next handled)
    exact (errors res none (by simp)).1 rfl
  · have worked : ec = none := by
      by_contra error
      exact fine ⟨error,fun read => absurd read last⟩
    subst worked
    obtain ⟨next,_,followed⟩ := followed_of_ne_read last res none
    have handled : ∃ d, step c .handled = some (d,[.started next]) := by
      rw [step_handled running ended,followed.stepAny_eq,deliverAny_running running]
      exact ⟨_,rfl⟩
    obtain ⟨d,handled⟩ := handled
    obtain ⟨silent,-⟩ := stopped _ d _ (Runs.Run.start.next handled)
    exact silent next (by simp)

/-- What follows a run from the state after a move is what follows that move. -/
theorem Stopped.after {moves : List Move} {log : List Event} (stopped : Stopped c)
    (run : Runs.Run step c moves c' log) (silent : log = []) : Stopped c' := by
  intro more d out later
  have whole := run.append_exec later.exec
  rw [silent,List.nil_append] at whole
  exact stopped _ d out whole

/-- In any run of a call that has not completed, `cancel` stops it exactly when the
    operation in flight uses the socket and has not ended, or has ended with an error. -/
theorem cancel_stops_iff (backendInfo : BackendUrlInfo) (target_path : Bytes) (timeout : Int) (moves : List Move)
    (c : CallInFlight) (log : List Event) (phase : Phase)
    (run : Runs.Run step (started backendInfo target_path timeout) moves c log) (running : c.session.pending = some phase) :
    Stopped c.cancelled ↔ Stoppable phase c.result := by
  have still : c.cancelled.session.pending = some phase := (cancelled_pending c).trans running
  have aborts := cancelled_aborted c
  cases result : c.result with
  | none =>
    have waiting : c.cancelled.result = none := result
    show Stopped c.cancelled ↔ phase ≠ .resolve
    constructor
    · rintro stopped rfl
      -- the resolution goes on, and its handler starts the connection
      have unaborted : c.cancelled.session.aborted = false := by simp [aborts,running,resolving_run run running]
      have ends : step c.cancelled (.ends .empty none) = some ({ c.cancelled with result := some (.empty,none) },[]) := by
        simp [step,still,waiting,unaborted]
      have after := stopped.after (Runs.Run.start.next ends) rfl
      exact not_stopped_of_result (c := { c.cancelled with result := some (.empty,none) }) still rfl (by decide) after
    · intro uses
      refine stopped_of_doomed ⟨still,fun _ => ⟨uses,by simp [aborts,running,uses]⟩,?_⟩
      intro res ec ended
      rw [waiting] at ended
      cases ended
  | some pair =>
    obtain ⟨res,ec⟩ := pair
    have ended : c.cancelled.result = some (res,ec) := result
    show Stopped c.cancelled ↔ Errs phase ec
    constructor
    · intro stopped
      by_contra fine
      exact not_stopped_of_result still ended fine stopped
    · intro error
      refine stopped_of_doomed ⟨still,?_,?_⟩
      · intro waiting
        rw [ended] at waiting
        cases waiting
      · intro res' ec' same
        rw [ended,Option.some.injEq,Prod.mk.injEq] at same
        rw [← same.2]
        exact error

/-- While the backend is being connected to, `cancel` stops the call. -/
theorem cancel_stops_iff_connecting : ∃ c log,
    Runs.Run step (started AsyncHttpClientSession.usBackend (lit "/companies/1") 275) [.ends .empty none,.handled] c log ∧
      Stopped c.cancelled := by
  have run : Runs.Run step (started AsyncHttpClientSession.usBackend (lit "/companies/1") 275)
      [.ends .empty none,.handled] _ _ := Runs.Run.of_isSome (by decide +kernel)
  exact ⟨_,_,run,(cancel_stops_iff AsyncHttpClientSession.usBackend (lit "/companies/1") 275 _ _ _ .connect run
    (by decide +kernel)).mpr (by decide +kernel)⟩

/-- A call that is cancelled while its backend is looked up: it connects, sends its
    request and completes without an error. -/
def cancelledLookup : List Move :=
  [.cancel,.ends .empty none,.handled,.ends .empty none,.handled,.ends .empty none,.handled,
    .ends .empty none,.handled]

theorem lookup_not_cancelled :
    (Runs.exec step (started AsyncHttpClientSession.usBackend (lit "/companies/1") 275) cancelledLookup).map Prod.snd =
      some [.closed,.started .connect,.started .write,.started .read,.completed .empty none] ∧
    ¬ Stopped (started AsyncHttpClientSession.usBackend (lit "/companies/1") 275).cancelled := by
  refine ⟨by decide +kernel,?_⟩
  intro stopped
  have run : Runs.Run step (started AsyncHttpClientSession.usBackend (lit "/companies/1") 275).cancelled
      [.ends .empty none,.handled] _ _ := Runs.Run.of_isSome (by decide +kernel)
  exact (stopped _ _ _ run).1 .connect (by decide +kernel)

end CallInFlight
end Facade
