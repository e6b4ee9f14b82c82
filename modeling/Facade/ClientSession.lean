import Facade.AppConfig
import Facade.Http
import Facade.Runs

/-!
`AsyncHttpClientSession` of src/core/AsyncHttpClientSession.hpp: one call to a
backend, in four phases (resolve, connect, write, read), watched by one timer.
The session records the operation in flight and the state of the wait on its
timer. Closing the socket makes a socket operation in flight fail, a name
resolution goes on, and `async_connect` opens the socket again; a wait on the
timer completes without an error when the timer has expired and with
`operation_aborted` when it was cancelled before.
-/
namespace Facade
open Strings Http

inductive Phase
  | resolve
  | connect
  | write
  | read
deriving DecidableEq,Repr

inductive TimerStatus
  | waiting
  | expired
  | cancelled
  | handled
deriving DecidableEq,Repr

/-- The request of a session: a GET of HTTP/1.1 without a body. -/
structure ClientRequest where
  target : Bytes
  host : Bytes
deriving DecidableEq,Repr

structure AsyncHttpClientSession where
  backend_info : BackendUrlInfo
  req : ClientRequest
  timeout : Int
  socket_open : Bool
  /-- The operation in flight, once the session runs. -/
  pending : Option Phase
  /-- Whether the operation in flight can only fail. -/
  aborted : Bool
  timer : TimerStatus
deriving DecidableEq,Repr

namespace AsyncHttpClientSession

/-- What an observer of the session sees: the operations it starts, the closing
    of its socket and the calls of `on_complete_`. -/
inductive Event
  | started (phase : Phase)
  | closed
  | completed (res : Response) (ec : Option ErrorCode)
deriving DecidableEq,Repr

/-- The constructor. -/
def new (backendInfo : BackendUrlInfo) (target_path : Bytes) (timeout : Int) : AsyncHttpClientSession :=
  ⟨backendInfo,⟨target_path,backendInfo.backend_host⟩,timeout,false,none,false,.handled⟩

/-- An asynchronous operation is started. The resolver does not use the socket,
    and `async_connect` opens it. -/
def begin (phase : Phase) (s : AsyncHttpClientSession) : AsyncHttpClientSession × List Event :=
  let s := if phase = .connect then { s with socket_open := true } else s
  ({ s with pending := some phase, aborted := phase ≠ .resolve && !s.socket_open },[.started phase])

/-- `stream_.socket().close()`. -/
def close (s : AsyncHttpClientSession) : AsyncHttpClientSession × List Event :=
  ({ s with socket_open := false, aborted := s.aborted || s.pending ≠ some .resolve },[.closed])

/-- `timer_.cancel()`. -/
def cancelTimer (s : AsyncHttpClientSession) : AsyncHttpClientSession :=
  if s.timer = .waiting then { s with timer := .cancelled } else s

def complete (res : Response) (ec : Option ErrorCode) (s : AsyncHttpClientSession) :
    AsyncHttpClientSession × List Event := (s,[.completed res ec])

/-- `run`, with `do_resolve`. -/
def run (s : AsyncHttpClientSession) : AsyncHttpClientSession × List Event :=
  begin .resolve { s with timer := .waiting }

def cancel (s : AsyncHttpClientSession) : AsyncHttpClientSession × List Event := close (cancelTimer s)

def on_timeout (ec : Option ErrorCode) (s : AsyncHttpClientSession) : AsyncHttpClientSession × List Event :=
  -- `ec && ec != operation_aborted`
  if ec ≠ none ∧ ec ≠ some .operation_aborted then
    let (s,closing) := close s
    let (s,out) := complete .empty (some .timed_out) s
    (s,closing ++ out)
  else (s,[])

def on_resolve (ec : Option ErrorCode) (s : AsyncHttpClientSession) : AsyncHttpClientSession × List Event :=
  match ec with
  | some e => complete .empty (some e) s
  | none => begin .connect s

def on_connect (ec : Option ErrorCode) (s : AsyncHttpClientSession) : AsyncHttpClientSession × List Event :=
  match ec with
  | some e => complete .empty (some e) s
  | none => begin .write s

def on_write (ec : Option ErrorCode) (s : AsyncHttpClientSession) : AsyncHttpClientSession × List Event :=
  match ec with
  | some e => complete .empty (some e) s
  | none => begin .read s

/-- `res` is what was read into `res_` when the operation ended. -/
def on_read (res : Response) (ec : Option ErrorCode) (s : AsyncHttpClientSession) :
    AsyncHttpClientSession × List Event :=
  complete res (if ec = some .end_of_stream then none else ec) (cancelTimer s)

/-- What can happen to a running session. -/
inductive Action
  | resolved (ec : Option ErrorCode)
  | connected (ec : Option ErrorCode)
  | written (ec : Option ErrorCode)
  | received (res : Response) (ec : Option ErrorCode)
  | cancel
  | expire
  | timeout
deriving DecidableEq,Repr

/-- The handler of the operation in flight runs. -/
def deliver (phase : Phase) (ec : Option ErrorCode)
    (handler : AsyncHttpClientSession → AsyncHttpClientSession × List Event) (s : AsyncHttpClientSession) :
    Option (AsyncHttpClientSession × List Event) :=
  if s.pending = some phase ∧ (s.aborted = true → ec ≠ none) then
    some (handler { s with pending := none, aborted := false })
  else none

/-- The error code with which the wait on the timer ends, once it does. -/
def waitResult : TimerStatus → Option (Option ErrorCode)
  | .expired => some none
  | .cancelled => some (some .operation_aborted)
  | _ => none

def step (s : AsyncHttpClientSession) : Action → Option (AsyncHttpClientSession × List Event)
  | .resolved ec => deliver .resolve ec (on_resolve ec) s
  | .connected ec => deliver .connect ec (on_connect ec) s
  | .written ec => deliver .write ec (on_write ec) s
  | .received res ec => deliver .read ec (on_read res ec) s
  | .cancel => some (cancel s)
  | .expire => if s.timer = .waiting then some ({ s with timer := .expired },[]) else none
  | .timeout => (waitResult s.timer).map fun ec => on_timeout ec { s with timer := .handled }

/-- Whether the call has completed: `on_complete_` was called. -/
def isCompletion : Event → Bool
  | .completed _ _ => true
  | _ => false

/-- The session as `run` leaves it. -/
def launched (backendInfo : BackendUrlInfo) (target_path : Bytes) (timeout : Int) : AsyncHttpClientSession :=
  (run (new backendInfo target_path timeout)).1

/-- In state `s`, after `log`, the timer has expired and the call has not
    completed. -/
def Overdue (s : AsyncHttpClientSession) (log : List Event) : Prop :=
  s.timer = .expired ∧ ∀ e ∈ log, isCompletion e = false

/-- Handling the expiry closes the socket and completes the call as timed out. -/
def TimesOut (s : AsyncHttpClientSession) : Prop :=
  ∃ s' out, step s .timeout = some (s',out) ∧ s'.socket_open = false ∧ Event.closed ∈ out ∧
    Event.completed .empty (some .timed_out) ∈ out

/-- The handler of the timer takes the end of the wait without an error, which
    is the expiry, for a cancellation, and does nothing. -/
theorem timeout_ignored {s : AsyncHttpClientSession} (expired : s.timer = .expired) :
    step s .timeout = some ({ s with timer := .handled },[]) := by
  simp [step,expired,waitResult,on_timeout]

theorem not_timesOut {s : AsyncHttpClientSession} (expired : s.timer = .expired) : ¬ TimesOut s := by
  rintro ⟨s',out,taken,_,closes,_⟩
  rw [timeout_ignored expired,Option.some.injEq,Prod.mk.injEq] at taken
  obtain ⟨_,rfl⟩ := taken
  cases closes

/-- A cancelled wait ends with `operation_aborted`, which the handler ignores as
    it should; but it ignores the expiry as well, and the call goes on as if
    there were no timer. So the expiries that a run handles before the call has
    completed time it out only if there are none. -/
theorem timeout_completes_iff (backendInfo : BackendUrlInfo) (target_path : Bytes) (timeout : Int)
    (actions : List Action) :
    (∀ s log, Runs.Takes step (launched backendInfo target_path timeout) actions s log .timeout →
      Overdue s log → TimesOut s) ↔
    (∀ s log, Runs.Takes step (launched backendInfo target_path timeout) actions s log .timeout →
      ¬ Overdue s log) := by
  constructor
  · intro timesOut s log takes overdue
    exact not_timesOut overdue.1 (timesOut s log takes overdue)
  · intro punctual s log takes overdue
    exact absurd overdue (punctual s log takes)

/-- A backend that does not answer: the timer expires while the read is in
    flight. -/
def hanging : List Action := [.resolved none,.connected none,.written none,.expire,.timeout]

theorem hanging_not_timed_out (backendInfo : BackendUrlInfo) (target_path : Bytes) (timeout : Int) :
    ∃ s log, Runs.Takes step (launched backendInfo target_path timeout) hanging s log .timeout ∧
      Overdue s log ∧ s.pending = some .read ∧ ¬ TimesOut s := by
  have executed : Runs.exec step (launched backendInfo target_path timeout) hanging.dropLast =
      some ({ launched backendInfo target_path timeout with
        socket_open := true, pending := some .read, timer := .expired },
        [.started .connect,.started .write,.started .read]) := rfl
  refine ⟨_,_,⟨hanging.dropLast,[],rfl,Runs.Run.of_exec executed⟩,⟨rfl,?_⟩,rfl,not_timesOut rfl⟩
  decide

/-- The backend used in the runs on fixed inputs. -/
def usBackend : BackendUrlInfo := ⟨lit "http://us:9001",lit "us",9001,false⟩

theorem timeout_does_not_complete : ¬ (∀ s log,
    Runs.Takes step (launched usBackend (lit "/companies/1") 275) hanging s log .timeout →
      Overdue s log → TimesOut s) := by
  intro timesOut
  obtain ⟨s,log,takes,overdue,_,ignored⟩ := hanging_not_timed_out usBackend (lit "/companies/1") 275
  exact ignored (timesOut s log takes overdue)

end AsyncHttpClientSession
end Facade
