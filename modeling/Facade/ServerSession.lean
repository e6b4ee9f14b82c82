import Mathlib.Algebra.Group.Int.Defs
import Mathlib.Algebra.GroupWithZero.Nat
import Facade.Http
import Facade.Runs

/-!
`HttpServerSession` of src/core/HttpServerSession.hpp and .cpp: one client
connection. The handlers are functions on the session, which also records the
operations in flight (the read, the request handed to the service, the write
and the waits on the diagnostic timer). A step of the session completes one of
them, calls `stop()`, or lets a timer expire.

`orderly_run` is the shape every run keeps (`Orderly`): until `do_close` the
session is in exactly one of three phases, and what it has written is what the
service answered, in order.
-/
namespace Facade
open Strings Http

inductive WaitStatus
  | waiting
  | expired
  | cancelled
deriving DecidableEq,Repr

/-- A wait on the diagnostic timer, named by the write it was armed for. -/
structure Wait where
  write : Nat
  status : WaitStatus
deriving DecidableEq,Repr

/-- The session and its operations in flight. -/
structure HttpServerSession where
  /-- Whether `backendify_service_` is set. -/
  backendify_service : Bool
  max_response_queue_size : Int32
  socket_open : Bool
  response_queue : List Response
  write_in_progress : Bool
  current_write_op_completed : Bool
  req : Request
  request_received_time : Int
  /-- Whether `on_finish_callback_` is still set. -/
  on_finish_callback : Bool
  /-- Reads started and not completed. -/
  reads : Nat
  /-- Requests handed to the service and not answered. -/
  serving : Nat
  /-- Writes started and not completed. -/
  writes : List Response
  /-- Waits on `diagnostic_write_timer_` whose handler has not run. -/
  waits : List Wait
  /-- The number of writes started so far. -/
  writes_started : Nat
deriving DecidableEq,Repr

namespace HttpServerSession

/-- What an observer of the session sees. -/
inductive Event
  | reading (now : Int)
  | request (req : Request) (now : Int)
  | company (req : Request) (received : Int)
  | answered (opt_res : Option Response)
  | overflow
  | emptyQueue
  | writing (res : Response)
  | wrote (res : Response)
  | timerClosed (write : Nat)
  | closing
  | finished
deriving DecidableEq,Repr

/-- The constructor. -/
def new (backendify_service : Bool) (max_response_queue_size : Int32) : HttpServerSession :=
  ⟨backendify_service,max_response_queue_size,true,[],false,false,.empty,0,true,0,0,[],[],0⟩

/-- `diagnostic_write_timer_.cancel()`: a wait that has expired already is not
    called back. -/
def cancelWaits (waits : List Wait) : List Wait :=
  waits.map fun w => if w.status = .waiting then { w with status := .cancelled } else w

def stop (s : HttpServerSession) : HttpServerSession :=
  { s with current_write_op_completed := true, waits := cancelWaits s.waits, socket_open := false }

def do_read (now : Int) (s : HttpServerSession) : HttpServerSession × List Event :=
  ({ s with request_received_time := now, req := .empty, reads := s.reads + 1 },[.reading now])

def do_close (s : HttpServerSession) : HttpServerSession × List Event :=
  let s := { s with current_write_op_completed := true, waits := cancelWaits s.waits }
  if s.on_finish_callback then ({ s with on_finish_callback := false },[.closing,.finished]) else (s,[.closing])

def do_write (s : HttpServerSession) : HttpServerSession × List Event :=
  match s.response_queue with
  | [] => ({ s with write_in_progress := false },[.emptyQueue])
  | current_response :: _ =>
    let s := { s with write_in_progress := true }
    if s.socket_open then
      -- `expires_after` cancels the waits before the new one is started.
      ({ s with
         current_write_op_completed := false
         waits := cancelWaits s.waits ++ [⟨s.writes_started,.waiting⟩]
         writes := s.writes ++ [current_response]
         writes_started := s.writes_started + 1 },[.writing current_response])
    else do_close { s with response_queue := [], write_in_progress := false }

/-- The handler of the wait armed for the `write`-th write. -/
def on_diagnostic_timer (write : Nat) (ec_timer : Option ErrorCode) (s : HttpServerSession) :
    HttpServerSession × List Event :=
  if s.current_write_op_completed then (s,[])
  else
    match ec_timer with
    | some _ => (s,[])
    | none => ({ s with socket_open := false },[.timerClosed write])

/-- The conversion of an `int` to `size_t` in the comparison with the size of
    the queue. -/
def sizeT (n : Int32) : Nat := (n.toInt % 2 ^ 64).toNat

/-- The overflow branch of `send_response`: the oldest response gives way. -/
def make_space (s : HttpServerSession) : HttpServerSession × List Event :=
  if sizeT s.max_response_queue_size ≤ s.response_queue.length then
    ({ s with response_queue := s.response_queue.tail },[.overflow])
  else (s,[])

def send_response (opt_res : Option Response) (now : Int) (s : HttpServerSession) :
    HttpServerSession × List Event :=
  match opt_res with
  | none =>
    if s.write_in_progress then (s,[.answered none])
    else
      let (s,out) := if s.req.keep_alive then do_read now s else do_close s
      (s,.answered none :: out)
  | some res =>
    let (s,discarded) := make_space s
    let s := { s with response_queue := s.response_queue ++ [res] }
    let (s,out) := if s.write_in_progress then (s,[]) else do_write s
    (s,.answered (some res) :: discarded ++ out)

/-- The answer when there is no service. -/
def serviceUnavailable (req : Request) : Response :=
  { version := req.version, result := 500, keep_alive := req.keep_alive, server := true,
    content_type := some (lit "text/plain"), body := lit "Internal server error: service not available." }

/-- The answer to a target that is not routed. -/
def resourceNotFound (req : Request) : Response :=
  { version := req.version, result := 404, keep_alive := req.keep_alive, server := true,
    content_type := some (lit "text/plain"),
    body := lit "The resource '" ++ req.target ++ lit "' was not found." }

/-- The response of `Backendify::processStatusRequest`. -/
def statusResponse : Response :=
  { Response.empty with
    content_type := some (lit "text/plain"), result := 200, body := lit "Frontend Server is running (Beast)" }

/-- The request is a reference to `req_`, which is moved from when the service
    gets it. -/
def handle_request (req : Request) (now : Int) (s : HttpServerSession) : HttpServerSession × List Event :=
  if s.backendify_service then
    if req.method = .get ∧ pathOf req.target = lit "/company" then
      ({ s with req := req.movedOut, serving := s.serving + 1 },[.company req s.request_received_time])
    else if req.method = .get ∧ pathOf req.target = lit "/status" then send_response (some statusResponse) now s
    else send_response (some (resourceNotFound req)) now s
  else send_response (some (serviceUnavailable req)) now s

def on_read (result : Except ErrorCode Request) (now : Int) (s : HttpServerSession) :
    HttpServerSession × List Event :=
  match result with
  | .error _ => do_close s
  | .ok req =>
    let (s,out) := handle_request req now { s with req := req }
    (s,.request req now :: out)

/-- The end of `on_write` after a write without errors: the next response is
    written, or the next request is read, or the session ends. -/
def write_done (keep_alive : Bool) (now : Int) (s : HttpServerSession) : HttpServerSession × List Event :=
  let unexpected := if s.response_queue = [] then [Event.emptyQueue] else []
  let s := { s with response_queue := s.response_queue.tail }
  let (s,out) :=
    if s.response_queue ≠ [] then do_write s
    else
      let s := { s with write_in_progress := false }
      if keep_alive then do_read now s else do_close s
  (s,unexpected ++ out)

def on_write (keep_alive : Bool) (ec : Option ErrorCode) (now : Int) (s : HttpServerSession) :
    HttpServerSession × List Event :=
  let timer_already_fired_and_acted := s.current_write_op_completed
  let s := { s with current_write_op_completed := true, waits := cancelWaits s.waits }
  if timer_already_fired_and_acted then do_close s
  else
    match ec with
    | some _ => do_close { s with response_queue := [], write_in_progress := false }
    | none => write_done keep_alive now s

/-- What can happen to a session, with the reading of the clock where a handler
    reads it. -/
inductive Action
  | read (result : Except ErrorCode Request) (now : Int)
  | answer (opt_res : Option Response) (now : Int)
  | written (ec : Option ErrorCode) (now : Int)
  | stop
  | expire (write : Nat)
  | timer (write : Nat)

/-- The wait armed for a write runs out while it is still waited for. -/
def expireWait (write : Nat) (waits : List Wait) : List Wait :=
  waits.map fun w => if w.write = write ∧ w.status = .waiting then { w with status := .expired } else w

/-- One step. A handler runs only for an operation in flight: a wait that
    expired completes without an error, a cancelled one with `operation_aborted`. -/
def step (s : HttpServerSession) : Action → Option (HttpServerSession × List Event)
  | .read result now =>
    match s.reads with
    | 0 => none
    | reads + 1 => some (on_read result now { s with reads := reads })
  | .answer opt_res now =>
    match s.serving with
    | 0 => none
    | serving + 1 => some (send_response opt_res now { s with serving := serving })
  | .written ec now =>
    match s.writes with
    | [] => none
    | res :: writes =>
      let (s,out) := on_write res.keep_alive ec now { s with writes := writes }
      some (s,(if ec = none then [.wrote res] else []) ++ out)
  | .stop => some (s.stop,[])
  | .expire write => some ({ s with waits := expireWait write s.waits },[])
  | .timer write =>
    match s.waits.find? fun w => w.write = write ∧ w.status ≠ .waiting with
    | none => none
    | some w =>
      some (on_diagnostic_timer write (if w.status = .expired then none else some .operation_aborted)
        { s with waits := s.waits.erase w })

/-- The state in which the handler dispatched by `run()` leaves a new session;
    a `stop()` may have come before it. -/
def started (backendify_service : Bool) (max_response_queue_size : Int32) (stopped : Bool) (now : Int) :
    HttpServerSession :=
  let s := new backendify_service max_response_queue_size
  (do_read now (if stopped then s.stop else s)).1

/-! ### The record of a run -/

/-- The response an event gives as the answer to a request. -/
def Event.answer : Event → List Response
  | .answered (some res) => [res]
  | _ => []

/-- The response whose write an event reports. -/
def Event.delivery : Event → List Response
  | .wrote res => [res]
  | _ => []

/-- Whether an event is the arrival of a request. -/
def Event.asks : Event → Nat
  | .request _ _ => 1
  | _ => 0

/-- Whether an event answers or drops a request. -/
def Event.replies : Event → Nat
  | .answered _ => 1
  | _ => 0

/-- The responses the service gave, dropped requests left out. -/
def answers (log : List Event) : List Response := log.flatMap Event.answer

/-- The responses whose write succeeded. -/
def written (log : List Event) : List Response := log.flatMap Event.delivery

/-- The number of requests read. -/
def asked (log : List Event) : Nat := (log.map Event.asks).sum

/-- The number of requests answered or dropped. -/
def replied (log : List Event) : Nat := (log.map Event.replies).sum

section
variable (e : Event) (log more : List Event)

@[simp] theorem answers_nil : answers [] = [] := rfl
@[simp] theorem answers_cons : answers (e :: log) = e.answer ++ answers log := by simp [answers]
@[simp] theorem answers_append : answers (log ++ more) = answers log ++ answers more := by simp [answers]

@[simp] theorem written_nil : written [] = [] := rfl
@[simp] theorem written_cons : written (e :: log) = e.delivery ++ written log := by simp [written]
@[simp] theorem written_append : written (log ++ more) = written log ++ written more := by simp [written]

@[simp] theorem asked_nil : asked [] = 0 := rfl
@[simp] theorem asked_cons : asked (e :: log) = e.asks + asked log := by simp [asked]
@[simp] theorem asked_append : asked (log ++ more) = asked log + asked more := by simp [asked]

@[simp] theorem replied_nil : replied [] = 0 := rfl
@[simp] theorem replied_cons : replied (e :: log) = e.replies + replied log := by simp [replied]
@[simp] theorem replied_append : replied (log ++ more) = replied log + replied more := by simp [replied]

end

attribute [simp] Event.answer Event.delivery Event.asks Event.replies

/-! ### The shape of a run -/

/-- What holds in every state: the branches for a full and for an empty queue
    were not taken, and the end was announced at most once. -/
structure Sound (s : HttpServerSession) (log : List Event) : Prop where
  room : 1 ≤ sizeT s.max_response_queue_size
  kept : Event.overflow ∉ log
  filled : Event.emptyQueue ∉ log
  once : log.count .finished + s.on_finish_callback.toNat ≤ 1

/-- Nothing is in flight. -/
def Quiet (s : HttpServerSession) : Prop := s.reads = 0 ∧ s.serving = 0 ∧ s.writes = []

/-- The phases of an open session. -/
inductive Phase (s : HttpServerSession) (log : List Event) : Prop
  | reading : s.reads = 1 → s.serving = 0 → s.writes = [] → s.response_queue = [] → s.write_in_progress = false →
      written log = answers log → asked log = replied log → Phase s log
  | serving : s.reads = 0 → s.serving = 1 → s.writes = [] → s.response_queue = [] → s.write_in_progress = false →
      written log = answers log → asked log = replied log + 1 → Phase s log
  | writing (res : Response) : s.reads = 0 → s.serving = 0 → s.writes = [res] → s.response_queue = [res] →
      s.write_in_progress = true → written log ++ [res] = answers log → asked log = replied log → Phase s log

/-- The invariant of the session: one of the three phases until `do_close`, and
    nothing in flight from then on. -/
structure Orderly (s : HttpServerSession) (log : List Event) : Prop extends Sound s log where
  before : Event.closing ∉ log → Phase s log
  after : Event.closing ∈ log → Quiet s
  delivered : written log <+: answers log

theorem sizeT_pos {n : Int32} (positive : 1 ≤ n) : 1 ≤ sizeT n := by
  have low : (1 : Int32).toInt ≤ n.toInt := Int32.le_iff_toInt_le.mp positive
  have high := n.toInt_lt
  have one : (1 : Int32).toInt = 1 := by decide
  unfold sizeT
  omega

/-- `do_write` starts the write of the first response in the queue. -/
theorem do_write_cons {s : HttpServerSession} {res : Response} {rest : List Response}
    (queued : s.response_queue = res :: rest) (opened : s.socket_open = true) :
    do_write s =
      ({ s with
         write_in_progress := true
         current_write_op_completed := false
         waits := cancelWaits s.waits ++ [⟨s.writes_started,.waiting⟩]
         writes := s.writes ++ [res]
         writes_started := s.writes_started + 1 },[.writing res]) := by
  simp [do_write,queued,opened]

/-- The handler of a wait does nothing but close the socket. -/
theorem on_diagnostic_timer_fst (write : Nat) (ec_timer : Option ErrorCode) (s : HttpServerSession) :
    (on_diagnostic_timer write ec_timer s).1 =
      { s with socket_open := s.socket_open && (s.current_write_op_completed || ec_timer.isSome) } := by
  unfold on_diagnostic_timer
  by_cases ended : s.current_write_op_completed = true
  · have ignored : (s.current_write_op_completed || ec_timer.isSome) = true := by simp [ended]
    rw [ignored,Bool.and_true,if_pos ended]
  · rw [if_neg ended]
    cases ec_timer with
    | none => simp [ended]
    | some e => rw [Option.isSome_some,Bool.or_true,Bool.and_true]

theorem on_diagnostic_timer_snd (write : Nat) (ec_timer : Option ErrorCode) (s : HttpServerSession) :
    ∀ e ∈ (on_diagnostic_timer write ec_timer s).2, e = .timerClosed write := by
  unfold on_diagnostic_timer
  split
  · simp
  · split
    · simp
    · simp

/-- An event that neither discards nor misses a response, nor ends the session,
    may be reported. -/
theorem Sound.report {s t : HttpServerSession} {log : List Event} {e : Event} (sound : Sound s log)
    (bound : t.max_response_queue_size = s.max_response_queue_size)
    (callback : t.on_finish_callback = s.on_finish_callback)
    (plain : e ≠ .overflow ∧ e ≠ .emptyQueue ∧ e ≠ .finished) : Sound t (log ++ [e]) := by
  obtain ⟨room,kept,filled,once⟩ := sound
  refine ⟨?_,?_,?_,?_⟩
  · rw [bound]
    exact room
  · simp [kept,plain.1.symm]
  · simp [filled,plain.2.1.symm]
  · rw [callback,List.count_append,List.count_singleton,if_neg (by simpa using plain.2.2)]
    exact once

/-- After `do_close` nothing more is in flight. -/
theorem orderly_do_close {s : HttpServerSession} {log : List Event} (sound : Sound s log) (quiet : Quiet s)
    (delivered : written log <+: answers log) : Orderly (do_close s).1 (log ++ (do_close s).2) := by
  obtain ⟨room,kept,filled,once⟩ := sound
  unfold do_close
  by_cases set : s.on_finish_callback = true
  · simp only [set,Bool.toNat_true] at once
    refine ⟨⟨?_,?_,?_,?_⟩,?_,?_,?_⟩
    · simpa [set] using room
    · simpa [set] using kept
    · simpa [set] using filled
    · simp only [set,↓reduceIte,List.count_append,Bool.toNat_false]
      have : List.count Event.finished [.closing,.finished] = 1 := by decide
      omega
    · intro unclosed
      simp [set] at unclosed
    · intro _
      simpa [set,Quiet] using quiet
    · simpa [set] using delivered
  · simp only [Bool.not_eq_true] at set
    refine ⟨⟨?_,?_,?_,?_⟩,?_,?_,?_⟩
    · simpa [set] using room
    · simpa [set] using kept
    · simpa [set] using filled
    · simpa [set,List.count_append] using once
    · intro unclosed
      simp [set] at unclosed
    · intro _
      simpa [set,Quiet] using quiet
    · simpa [set] using delivered

/-- An open session with nothing in flight, whose answers are all written, and
    which owes an answer to `owed` requests. -/
structure Settled (s : HttpServerSession) (log : List Event) (owed : Nat) : Prop extends Sound s log where
  unclosed : Event.closing ∉ log
  quiet : Quiet s
  empty : s.response_queue = []
  idle : s.write_in_progress = false
  even : written log = answers log
  count : asked log = replied log + owed

theorem orderly_do_read {s : HttpServerSession} {log : List Event} (settled : Settled s log 0) (now : Int) :
    Orderly (do_read now s).1 (log ++ (do_read now s).2) := by
  obtain ⟨sound,unclosed,⟨reads,serving,writes⟩,empty,idle,even,count⟩ := settled
  refine ⟨sound.report rfl rfl (by simp),?_,?_,?_⟩
  · intro _
    refine .reading ?_ serving writes empty idle ?_ ?_
    · simp [do_read,reads]
    · simpa [do_read] using even
    · simpa [do_read] using count
  · intro closed
    exact absurd (by simpa [do_read] using closed) unclosed
  · simp [do_read,even]

/-- The one queued response is written, or the session ends when its socket is
    closed already. -/
theorem orderly_do_write {s : HttpServerSession} {log : List Event} {res : Response} (sound : Sound s log)
    (unclosed : Event.closing ∉ log) (quiet : Quiet s) (queued : s.response_queue = [res])
    (next : written log ++ [res] = answers log) (count : asked log = replied log) :
    Orderly (do_write s).1 (log ++ (do_write s).2) := by
  have behind : written log <+: answers log := ⟨[res],next⟩
  by_cases opened : s.socket_open = true
  · obtain ⟨reads,serving,writes⟩ := quiet
    rw [do_write_cons queued opened]
    refine ⟨sound.report rfl rfl (by simp),?_,?_,?_⟩
    · intro _
      refine .writing res reads serving (by simp [writes]) queued rfl ?_ ?_
      · simpa  using next
      · simpa  using count
    · intro closed
      exact absurd (by simpa using closed) unclosed
    · simpa  using behind
  · simp only [Bool.not_eq_true] at opened
    have stepped : do_write s = do_close { s with response_queue := [], write_in_progress := false } := by
      simp [do_write,queued,opened]
    rw [stepped]
    exact orderly_do_close ⟨sound.room,sound.kept,sound.filled,sound.once⟩ quiet behind

theorem Settled.answered {s : HttpServerSession} {log : List Event} (settled : Settled s log 1) :
    Settled s (log ++ [.answered none]) 0 := by
  obtain ⟨sound,unclosed,quiet,empty,idle,even,count⟩ := settled
  refine ⟨sound.report rfl rfl (by simp),?_,quiet,empty,idle,?_,?_⟩
  · simpa using unclosed
  · simpa using even
  · simpa using count

/-- The queue is empty when an answer comes, so there is space for it and it is
    written at once. -/
theorem orderly_send_response {s : HttpServerSession} {log : List Event} (settled : Settled s log 1)
    (opt_res : Option Response) (now : Int) :
    Orderly (send_response opt_res now s).1 (log ++ (send_response opt_res now s).2) := by
  cases opt_res with
  | none =>
    have later := settled.answered
    by_cases persistent : s.req.keep_alive = true
    · have stepped : send_response none now s = ((do_read now s).1,.answered none :: (do_read now s).2) := by
        simp [send_response,settled.idle,persistent]
      rw [stepped]
      simpa using orderly_do_read later now
    · have stepped : send_response none now s = ((do_close s).1,.answered none :: (do_close s).2) := by
        simp [send_response,settled.idle,persistent]
      rw [stepped]
      have closed := orderly_do_close later.toSound later.quiet (later.even ▸ List.prefix_refl _)
      simpa using closed
  | some res =>
    obtain ⟨sound,unclosed,quiet,empty,idle,even,count⟩ := settled
    have space : make_space s = (s,[]) := by
      have room := sound.room
      unfold make_space
      rw [if_neg]
      simp only [empty,List.length_nil]
      omega
    have stepped : send_response (some res) now s =
        ((do_write { s with response_queue := [res] }).1,
          .answered (some res) :: (do_write { s with response_queue := [res] }).2) := by
      simp [send_response,space,empty,idle]
    rw [stepped]
    have queued : Orderly (do_write { s with response_queue := [res] }).1
        ((log ++ [.answered (some res)]) ++ (do_write { s with response_queue := [res] }).2) := by
      refine orderly_do_write (sound.report rfl rfl (by simp)) ?_ quiet rfl ?_ ?_
      · simpa using unclosed
      · simp [even]
      · simpa using count
    simpa using queued

/-- A request for `/company` goes to the service; every other one is answered
    at once. -/
theorem orderly_handle_request {s : HttpServerSession} {log : List Event} (settled : Settled s log 1)
    (req : Request) (now : Int) :
    Orderly (handle_request req now s).1 (log ++ (handle_request req now s).2) := by
  unfold handle_request
  split
  · split
    · obtain ⟨sound,unclosed,⟨reads,serving,writes⟩,empty,idle,even,count⟩ := settled
      refine ⟨sound.report rfl rfl (by simp),?_,?_,?_⟩
      · intro _
        refine .serving reads ?_ writes empty idle ?_ ?_
        · simp [serving]
        · simpa using even
        · simpa using count
      · intro closed
        exact absurd (by simpa using closed) unclosed
      · simp [even]
    · split
      · exact orderly_send_response settled _ now
      · exact orderly_send_response settled _ now
  · exact orderly_send_response settled _ now

theorem orderly_on_read {s : HttpServerSession} {log : List Event} (settled : Settled s log 0)
    (result : Except ErrorCode Request) (now : Int) :
    Orderly (on_read result now s).1 (log ++ (on_read result now s).2) := by
  cases result with
  | error ec => exact orderly_do_close settled.toSound settled.quiet (settled.even ▸ List.prefix_refl _)
  | ok req =>
    obtain ⟨sound,unclosed,quiet,empty,idle,even,count⟩ := settled
    have received : Settled { s with req := req } (log ++ [.request req now]) 1 := by
      refine ⟨sound.report rfl rfl (by simp),?_,quiet,empty,idle,?_,?_⟩
      · simpa using unclosed
      · simpa using even
      · simp [count]
    have handled := orderly_handle_request received req now
    simpa [on_read] using handled

/-- The write of the one queued response completes: an error ends the session,
    and so does a `stop()` that came before; otherwise the queue is empty again. -/
theorem orderly_on_write {s : HttpServerSession} {log : List Event} {res : Response} (sound : Sound s log)
    (unclosed : Event.closing ∉ log) (quiet : Quiet s) (queued : s.response_queue = [res])
    (next : written log ++ [res] = answers log) (count : asked log = replied log) (keep_alive : Bool)
    (ec : Option ErrorCode) (now : Int) :
    Orderly (on_write keep_alive ec now s).1
      (log ++ ((if ec = none then [.wrote res] else []) ++ (on_write keep_alive ec now s).2)) := by
  have behind : written log <+: answers log := ⟨[res],next⟩
  have quietly : ∀ t : HttpServerSession, t.max_response_queue_size = s.max_response_queue_size →
      t.on_finish_callback = s.on_finish_callback → Sound t log := by
    rintro t bound callback
    exact ⟨by rw [bound]; exact sound.room,sound.kept,sound.filled,by rw [callback]; exact sound.once⟩
  rw [← List.append_assoc]
  by_cases fired : s.current_write_op_completed = true
  · -- The response may be out, but the session does not go on.
    simp only [on_write,fired,↓reduceIte]
    by_cases success : ec = none
    · simp only [success,↓reduceIte]
      exact orderly_do_close (sound.report rfl rfl (by simp)) quiet (by simp [next])
    · simp only [success,↓reduceIte,List.append_nil]
      exact orderly_do_close (quietly _ rfl rfl) quiet behind
  · cases ec with
    | some e =>
      simp only [on_write,fired,Bool.false_eq_true,↓reduceIte,reduceCtorEq,List.append_nil]
      exact orderly_do_close (quietly _ rfl rfl) quiet behind
    | none =>
      let idle : HttpServerSession :=
        { s with
          current_write_op_completed := true
          waits := cancelWaits s.waits
          response_queue := []
          write_in_progress := false }
      have settled : Settled idle (log ++ [.wrote res]) 0 :=
        ⟨sound.report rfl rfl (by simp),by simpa using unclosed,quiet,rfl,rfl,by simp [next],by simpa using count⟩
      have stepped : on_write keep_alive none now s = if keep_alive then do_read now idle else do_close idle := by
        simp [on_write,fired,write_done,queued,idle]
      simp only [stepped,↓reduceIte]
      split
      · exact orderly_do_read settled now
      · exact orderly_do_close settled.toSound settled.quiet (settled.even ▸ List.prefix_refl _)

/-- `stop()`, an expiry and the timer's handler touch neither the queue nor the
    operations in flight. -/
theorem Orderly.frame {s t : HttpServerSession} {log out : List Event} (orderly : Orderly s log)
    (same : t.max_response_queue_size = s.max_response_queue_size ∧ t.on_finish_callback = s.on_finish_callback ∧
      t.reads = s.reads ∧ t.serving = s.serving ∧ t.writes = s.writes ∧ t.response_queue = s.response_queue ∧
      t.write_in_progress = s.write_in_progress)
    (silent : ∀ e ∈ out, ∃ write, e = .timerClosed write) : Orderly t (log ++ out) := by
  obtain ⟨bound,callback,reads,serving,writes,queue,progress⟩ := same
  have absent : ∀ e, (∀ write, e ≠ Event.timerClosed write) → (e ∈ log ++ out ↔ e ∈ log) := by
    intro e other
    refine ⟨fun member => ?_,fun member => by simp [member]⟩
    rcases List.mem_append.mp member with old | new
    · exact old
    · obtain ⟨write,rfl⟩ := silent e new
      exact absurd rfl (other write)
  have nothing : answers out = [] ∧ written out = [] ∧ asked out = 0 ∧ replied out = 0 ∧
      out.count .finished = 0 := by
    clear absent
    induction out with
    | nil => simp
    | cons e rest ih =>
      obtain ⟨write,rfl⟩ := silent e (by simp)
      have later := ih (fun d member => silent d (by simp [member]))
      simpa using later
  obtain ⟨noAnswers,noWritten,noAsked,noReplied,noFinished⟩ := nothing
  obtain ⟨⟨room,kept,filled,once⟩,before,after,delivered⟩ := orderly
  refine ⟨⟨?_,?_,?_,?_⟩,?_,?_,?_⟩
  · rw [bound]; exact room
  · rw [absent _ (by simp)]; exact kept
  · rw [absent _ (by simp)]; exact filled
  · rw [List.count_append,noFinished,callback]; exact once
  · intro unclosed
    rw [absent _ (by simp)] at unclosed
    rcases before unclosed with ⟨a,b,c,d,e,f,g⟩ | ⟨a,b,c,d,e,f,g⟩ | ⟨res,a,b,c,d,e,f,g⟩
    · exact .reading (by rw [reads,a]) (by rw [serving,b]) (by rw [writes,c]) (by rw [queue,d])
        (by rw [progress,e]) (by simp [noAnswers,noWritten,f]) (by simp [noAsked,noReplied,g])
    · exact .serving (by rw [reads,a]) (by rw [serving,b]) (by rw [writes,c]) (by rw [queue,d])
        (by rw [progress,e]) (by simp [noAnswers,noWritten,f]) (by simp [noAsked,noReplied,g])
    · exact .writing res (by rw [reads,a]) (by rw [serving,b]) (by rw [writes,c]) (by rw [queue,d])
        (by rw [progress,e]) (by simp [noAnswers,noWritten,f]) (by simp [noAsked,noReplied,g])
  · intro closed
    rw [absent _ (by simp)] at closed
    obtain ⟨a,b,c⟩ := after closed
    exact ⟨by rw [reads,a],by rw [serving,b],by rw [writes,c]⟩
  · simpa [noAnswers,noWritten] using delivered

/-- Every step keeps the shape of the session. -/
theorem orderly_step {s s' : HttpServerSession} {log out : List Event} {a : Action} (orderly : Orderly s log)
    (taken : step s a = some (s',out)) : Orderly s' (log ++ out) := by
  -- An operation that completes was in flight, so the session is still open.
  have opened : ¬ Quiet s → Event.closing ∉ log := fun busy closed => busy (orderly.after closed)
  cases a with
  | read result now =>
    match pending : s.reads with
    | 0 => simp [step,pending] at taken
    | reads + 1 =>
      simp only [step,pending,Option.some.injEq] at taken
      obtain ⟨rfl,rfl⟩ := Prod.mk.inj taken
      have unclosed := opened (by simp [Quiet,pending])
      rcases orderly.before unclosed with ⟨a,b,c,d,e,f,g⟩ | ⟨a,_⟩ | ⟨_,a,_⟩
      · have none_left : reads = 0 := by omega
        exact orderly_on_read (s := { s with reads := reads })
          ⟨⟨orderly.room,orderly.kept,orderly.filled,orderly.once⟩,unclosed,⟨none_left,b,c⟩,d,e,f,by simpa using g⟩
          result now
      · omega
      · omega
  | answer opt_res now =>
    match pending : s.serving with
    | 0 => simp [step,pending] at taken
    | serving + 1 =>
      simp only [step,pending,Option.some.injEq] at taken
      obtain ⟨rfl,rfl⟩ := Prod.mk.inj taken
      have unclosed := opened (by simp [Quiet,pending])
      rcases orderly.before unclosed with ⟨_,b,_⟩ | ⟨a,b,c,d,e,f,g⟩ | ⟨_,_,b,_⟩
      · omega
      · have none_left : serving = 0 := by omega
        exact orderly_send_response (s := { s with serving := serving })
          ⟨⟨orderly.room,orderly.kept,orderly.filled,orderly.once⟩,unclosed,⟨a,none_left,c⟩,d,e,f,g⟩ opt_res now
      · omega
  | written ec now =>
    match pending : s.writes with
    | [] => simp [step,pending] at taken
    | res :: writes =>
      simp only [step,pending,Option.some.injEq] at taken
      obtain ⟨rfl,rfl⟩ := Prod.mk.inj taken
      have unclosed := opened (by simp [Quiet,pending])
      rcases orderly.before unclosed with ⟨_,_,c,_⟩ | ⟨_,_,c,_⟩ | ⟨other,a,b,c,d,e,f,g⟩
      · simp [pending] at c
      · simp [pending] at c
      · rw [pending,List.cons.injEq] at c
        obtain ⟨rfl,none_left⟩ := c
        exact orderly_on_write (s := { s with writes := writes })
          ⟨orderly.room,orderly.kept,orderly.filled,orderly.once⟩ unclosed ⟨a,b,none_left⟩ d f g res.keep_alive ec now
  | stop =>
    simp only [step,Option.some.injEq] at taken
    obtain ⟨rfl,rfl⟩ := Prod.mk.inj taken
    exact orderly.frame ⟨rfl,rfl,rfl,rfl,rfl,rfl,rfl⟩ (by simp)
  | expire write =>
    simp only [step,Option.some.injEq] at taken
    obtain ⟨rfl,rfl⟩ := Prod.mk.inj taken
    exact orderly.frame ⟨rfl,rfl,rfl,rfl,rfl,rfl,rfl⟩ (by simp)
  | timer write =>
    simp only [step] at taken
    split at taken
    · cases taken
    · rename_i w found
      have silent : ∀ e ∈ out, ∃ write, e = Event.timerClosed write := by
        have events : _ = out := congrArg Prod.snd (Option.some.inj taken)
        rw [← events]
        intro e member
        exact ⟨write,on_diagnostic_timer_snd _ _ _ e member⟩
      have state := congrArg Prod.fst (Option.some.inj taken)
      rw [on_diagnostic_timer_fst] at state
      subst state
      exact orderly.frame ⟨rfl,rfl,rfl,rfl,rfl,rfl,rfl⟩ silent

theorem orderly_started (backendify_service : Bool) {max_response_queue_size : Int32}
    (positive : 1 ≤ max_response_queue_size) (stopped : Bool) (now : Int) :
    Orderly (started backendify_service max_response_queue_size stopped now) [] := by
  cases stopped <;>
  · refine ⟨⟨sizeT_pos positive,by simp,by simp,by simp [started,do_read,new,stop]⟩,?_,by simp,by simp⟩
    intro _
    exact .reading rfl rfl rfl rfl rfl rfl rfl

/-- Every run of a session keeps its shape. -/
theorem orderly_run {backendify_service : Bool} {max_response_queue_size : Int32} {stopped : Bool} {now : Int}
    (positive : 1 ≤ max_response_queue_size) {actions : List Action} {s : HttpServerSession} {log : List Event}
    (run : Runs.Run step (started backendify_service max_response_queue_size stopped now) actions s log) :
    Orderly s log := by
  refine run.invariant Orderly (orderly_started backendify_service positive stopped now) ?_
  intro s log a s' out orderly taken
  exact orderly_step orderly taken

/-- In every run: one operation is in flight until `do_close`, the queue holds
    a response exactly while one is written and then only that one, no response
    is discarded or missing, the responses written are those the service gave,
    in their order, and the end is announced once at most. -/
theorem session_serves_in_order (backendify_service : Bool) (max_response_queue_size : Int32)
    (positive : 1 ≤ max_response_queue_size) (stopped : Bool) (now : Int) (actions : List Action)
    (s : HttpServerSession) (log : List Event)
    (run : Runs.Run step (started backendify_service max_response_queue_size stopped now) actions s log) :
    (Event.closing ∉ log →
      s.reads + s.serving + s.writes.length = 1 ∧
      s.response_queue.length ≤ 1 ∧
      (s.response_queue ≠ [] ↔ s.writes ≠ []) ∧
      (s.write_in_progress = true ↔ s.writes ≠ []) ∧
      asked log = replied log + s.serving ∧
      (0 < s.reads → written log = answers log)) ∧
    Event.overflow ∉ log ∧ Event.emptyQueue ∉ log ∧
    written log <+: answers log ∧
    log.count .finished ≤ 1 := by
  have orderly := orderly_run positive run
  refine ⟨?_,orderly.kept,orderly.filled,orderly.delivered,by have := orderly.once; omega⟩
  intro unclosed
  rcases orderly.before unclosed with ⟨a,b,c,d,e,f,g⟩ | ⟨a,b,c,d,e,f,g⟩ | ⟨res,a,b,c,d,e,f,g⟩
  · simp [a,b,c,d,e,f,g]
  · simp [a,b,c,d,e,g]
  · simp [a,b,c,d,e,g]

/-- A `/status` request, a `/company` request that is answered 404, a dropped
    one, and the end of the stream. -/
def conversation : List Action :=
  let status : Request := { Request.empty with target := lit "/status" }
  let company : Request := { Request.empty with target := lit "/company?id=1&country_iso=US" }
  [.read (.ok status) 1,.written none 2,.read (.ok company) 3,
    .answer (some { Response.empty with result := 404 }) 4,.expire 1,.written none 5,.read (.ok company) 6,
    .answer none 7,.read (.error .end_of_stream) 8]

theorem session_serves_in_order_conversation : ∃ s log,
    Runs.Run step (started true 8 false 0) conversation s log ∧
    written log = [statusResponse,{ Response.empty with result := 404 }] ∧ written log <+: answers log ∧
    log.count .finished = 1 := by
  have executed : (Runs.exec step (started true 8 false 0) conversation).isSome = true := by decide
  have run := Runs.Run.of_isSome executed
  obtain ⟨_,_,_,inOrder,_⟩ := session_serves_in_order true 8 (by decide) false 0 conversation _ _ run
  exact ⟨_,_,run,by decide,inOrder,by decide⟩

end HttpServerSession
end Facade
