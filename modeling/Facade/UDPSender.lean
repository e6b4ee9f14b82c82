import Facade.Batching
import Facade.Decimals
import Facade.Runs

/-!
`Statsd::UDPSender` of src/third_party/UDPSender.hpp, with its batching thread.

The class is `UDPSender`. `Sending` is the object in use: its callers send and
flush, the batching thread takes the queue and sends what it took, and the
destructor ends the thread and waits for it. A call of `send` is one step, since
it holds the mutex; `flush`, which holds the mutex too, and the thread, which
does not while it sends, take one step for each `sendto`. A step of the destructor
comes after the last call, and calls of a sender without a thread come one at a
time, since they take no mutex.

`step_moves` says everything that a step can do.
-/
namespace Facade
open Strings Decimals

/-- What the network says to `initialize`: the `errno` of `socket` where it fails,
    the address that `inet_pton` reads, and what `getaddrinfo` finds or its error. -/
structure Network where
  socket : Option Int
  inet_pton : Bytes → Option UInt32
  getaddrinfo : Bytes → Except Int UInt32

/-- A `sockaddr_in`. -/
structure ServerAddress where
  sin_addr : UInt32
  sin_port : UInt16
deriving DecidableEq,Repr

structure UDPSender where
  m_mustExit : Bool := false
  m_host : Bytes
  m_port : UInt16
  /-- Not set before there is a socket. -/
  m_server : Option ServerAddress := none
  /-- Whether the socket is a valid one. -/
  m_socket : Bool := false
  m_batchsize : UInt64
  m_sendInterval : UInt64
  m_batchingMessageQueue : List Bytes := []
  /-- Whether the thread is joinable. -/
  m_batchingThread : Bool := false
  m_errorMessage : Bytes := []
deriving DecidableEq,Repr

namespace UDPSender

/-- The separator of the messages of a batch, a line feed. -/
def separator : UInt8 := 10

/-- What `c_str()` points to. -/
def c_str (s : Bytes) : Bytes := s.takeWhile (· ≠ 0)

/-- `initialize`. -/
def initializeSocket (net : Network) (s : UDPSender) : UDPSender × Bool :=
  match net.socket with
  | some errno =>
    ({ s with m_socket := false, m_errorMessage := lit "socket creation failed: errno=" ++ to_string errno },false)
  | none =>
    match net.inet_pton (c_str s.m_host) with
    | some sin_addr => ({ s with m_socket := true, m_server := some ⟨sin_addr,s.m_port⟩ },true)
    | none =>
      match net.getaddrinfo (c_str s.m_host) with
      | .error ret =>
        ({ s with m_socket := false, m_server := some ⟨0,s.m_port⟩,
                  m_errorMessage := lit "getaddrinfo failed: error code=" ++ to_string ret },false)
      | .ok sin_addr => ({ s with m_socket := true, m_server := some ⟨sin_addr,s.m_port⟩ },true)

def initialized (s : UDPSender) : Bool := s.m_socket

/-- The constructor. -/
def new (net : Network) (host : Bytes) (port : UInt16) (batchsize sendInterval : UInt64) : UDPSender :=
  let s : UDPSender := { m_host := host, m_port := port, m_batchsize := batchsize, m_sendInterval := sendInterval }
  if s.m_host = [] then s
  else
    match initializeSocket net s with
    | (s,false) => s
    | (s,true) => if s.m_batchsize ≠ 0 ∧ s.m_sendInterval > 0 then { s with m_batchingThread := true } else s

/-- The longest string there can be. -/
def max_size : UInt64 := 0x7fffffffffffffff

/-- `reserve` throws when no string has that capacity; memory does not run out
    here. -/
def reserve (capacity : UInt64) : Option Unit := if capacity > max_size then none else some ()

/-- `queueMessage`, or nothing when it throws, which ends the process. -/
def queueMessage (s : UDPSender) (message : Bytes) : Option UDPSender :=
  match s.m_batchingMessageQueue.getLast? with
  | none => (reserve (s.m_batchsize + 256)).map fun _ => { s with m_batchingMessageQueue := [message] }
  | some back =>
    if back.length > s.m_batchsize.toNat then
      (reserve (s.m_batchsize + 256)).map fun _ =>
        { s with m_batchingMessageQueue := s.m_batchingMessageQueue ++ [message] }
    else
      let back := if back = [] then back else back ++ [separator]
      some { s with m_batchingMessageQueue := s.m_batchingMessageQueue.dropLast ++ [back ++ message] }

/-- `sendToDaemon`, where `err` is the `errno` of a `sendto` that fails. -/
def sendToDaemon (s : UDPSender) (err : Option Int) : UDPSender :=
  match err with
  | none => s
  | some errno =>
    { s with m_errorMessage := lit "sendto server failed: host=" ++ s.m_host ++ lit ":" ++ to_string s.m_port.toNat ++
              lit ", err=" ++ to_string errno }

end UDPSender

/-! ### The object in use -/

/-- Where the batching thread stands: before it looks whether it must exit,
    before it takes the queue, sending what it took, asleep, or at its end. -/
inductive Worker
  | looking
  | swapping
  | sending (stagedMessageQueue : List Bytes)
  | sleeping
  | returned
deriving DecidableEq,Repr

/-- The object may be called, its destructor waits for the thread, or it is gone;
    or the process has been terminated. -/
inductive Life
  | alive
  | joining
  | gone
  | terminated
deriving DecidableEq,Repr

structure Sending where
  sender : UDPSender
  worker : Worker
  /-- `flush` holds the mutex. -/
  flushing : Bool
  life : Life
deriving DecidableEq,Repr

namespace Sending
open UDPSender

inductive Action
  | send (message : Bytes) (err : Option Int)
  | thread (err : Option Int)
  | flush
  | flushNext (err : Option Int)
  | destroy
  | join
deriving DecidableEq,Repr

/-- What an observer sees: messages that `send` took, queues that the thread took,
    datagrams with the `errno` of each, and the end of the process. -/
inductive Event
  | accepted (message : Bytes)
  | took
  | sendto (m_server : Option ServerAddress) (message : Bytes) (err : Option Int)
  | terminated
deriving DecidableEq,Repr

/-- The object just constructed. -/
def start (s : UDPSender) : Sending := ⟨s,.looking,false,.alive⟩

/-- The batches that the thread has taken and not sent. -/
def staged (d : Sending) : List Bytes :=
  match d.worker with
  | .sending stagedMessageQueue => stagedMessageQueue
  | _ => []

/-- `send`. Nothing is sent through an invalid socket. -/
def send (d : Sending) (message : Bytes) (err : Option Int) : Option (Sending × List Event) :=
  let s := { d.sender with m_errorMessage := [] }
  if s.m_batchsize > 0 then
    if d.flushing then none
    else
      match queueMessage s message with
      | some s => some ({ d with sender := s },[.accepted message])
      | none => some ({ d with life := .terminated },[.terminated])
  else if s.m_socket || err ≠ none then
    some ({ d with sender := sendToDaemon s err },[.accepted message,.sendto s.m_server message err])
  else none

/-- The next step of the batching thread. -/
def runThread (d : Sending) (err : Option Int) : Option (Sending × List Event) :=
  match d.worker with
  | .looking => some ({ d with worker := if d.sender.m_mustExit then .returned else .swapping },[])
  | .swapping =>
    if d.flushing then none
    else
      some ({ d with sender := { d.sender with m_batchingMessageQueue := [] },
                     worker := .sending d.sender.m_batchingMessageQueue },[.took])
  | .sending (front :: rest) =>
    some ({ d with sender := sendToDaemon d.sender err, worker := .sending rest },
      [.sendto d.sender.m_server front err])
  | .sending [] => some ({ d with worker := .sleeping },[])
  | .sleeping => some ({ d with worker := .looking },[])
  | .returned => none

/-- The next step of a `flush` that holds the mutex. -/
def flushNext (d : Sending) (err : Option Int) : Option (Sending × List Event) :=
  match d.sender.m_batchingMessageQueue with
  | front :: rest =>
    if d.sender.m_socket || err ≠ none then
      some ({ d with sender := { sendToDaemon d.sender err with m_batchingMessageQueue := rest } },
        [.sendto d.sender.m_server front err])
    else none
  | [] => some ({ d with flushing := false },[])

/-- The destructor, up to where it waits. -/
def destroy (d : Sending) : Sending :=
  if d.sender.initialized = false then { d with life := .gone }
  else if d.sender.m_batchingThread then
    { d with sender := { d.sender with m_mustExit := true }, life := .joining }
  else { d with life := .gone }

def step (d : Sending) : Action → Option (Sending × List Event)
  | .send message err => if d.life = .alive then d.send message err else none
  | .thread err =>
    if d.sender.m_batchingThread ∧ (d.life = .alive ∨ d.life = .joining) then d.runThread err else none
  | .flush => if d.life = .alive ∧ d.flushing = false then some ({ d with flushing := true },[]) else none
  | .flushNext err => if d.flushing ∧ d.life = .alive then d.flushNext err else none
  | .destroy => if d.life = .alive ∧ d.flushing = false then some (d.destroy,[]) else none
  | .join =>
    if d.life = .joining ∧ d.worker = .returned then
      some ({ d with sender := { d.sender with m_batchingThread := false }, life := .gone },[])
    else none

/-! ### What a step does to the messages -/

/-- The messages that `send` took, in order. -/
def accepted (log : List Event) : List Bytes :=
  log.filterMap fun | .accepted message => some message | _ => none

/-- The datagrams that were handed to the network, in order. -/
def datagrams (log : List Event) : List Bytes :=
  log.filterMap fun | .sendto _ message _ => some message | _ => none

@[simp] theorem accepted_append (log more : List Event) : accepted (log ++ more) = accepted log ++ accepted more :=
  List.filterMap_append
@[simp] theorem datagrams_append (log more : List Event) : datagrams (log ++ more) = datagrams log ++ datagrams more :=
  List.filterMap_append

theorem sendToDaemon_eq (s : UDPSender) (err : Option Int) :
    ∃ text, sendToDaemon s err = { s with m_errorMessage := text } := by
  cases err with
  | none => exact ⟨s.m_errorMessage,rfl⟩
  | some errno => exact ⟨_,rfl⟩

/-- A message is put in the queue of batches, unless no string can be as long
    as a batch may get. -/
theorem queueMessage_eq {s t : UDPSender} {message : Bytes} (queued : queueMessage s message = some t) :
    t = { s with m_batchingMessageQueue :=
            Batching.push separator s.m_batchsize.toNat s.m_batchingMessageQueue message } := by
  unfold queueMessage at queued
  unfold Batching.push
  cases last : s.m_batchingMessageQueue.getLast? with
  | none =>
    simp only [last,Option.map_eq_some_iff] at queued ⊢
    obtain ⟨_,_,rfl⟩ := queued
    rfl
  | some back =>
    simp only [last] at queued ⊢
    by_cases full : s.m_batchsize.toNat < back.length
    · simp only [gt_iff_lt,full,↓reduceIte,Option.map_eq_some_iff] at queued ⊢
      obtain ⟨_,_,rfl⟩ := queued
      rfl
    · simp only [gt_iff_lt,full,↓reduceIte,Option.some.injEq] at queued ⊢
      subst queued
      by_cases empty : back = []
      · simp [empty]
      · simp [empty,Batching.extend]

/-- A call throws only where a batch of the size configured cannot be reserved,
    and then it does so when a batch is opened. -/
theorem queueMessage_none {s : UDPSender} {message : Bytes} (thrown : queueMessage s message = none) :
    s.m_batchsize + 256 > max_size := by
  unfold queueMessage reserve at thrown
  by_cases long : s.m_batchsize + 256 > max_size
  · exact long
  · simp only [long,↓reduceIte,Option.map_some] at thrown
    split at thrown
    · cases thrown
    · split at thrown
      · cases thrown
      · cases thrown

/-- A call that opens a batch has reserved it. -/
theorem queueMessage_fits {s t : UDPSender} {message : Bytes} (queued : queueMessage s message = some t)
    (empty : s.m_batchingMessageQueue = []) : s.m_batchsize + 256 ≤ max_size := by
  by_contra long
  simp [queueMessage,empty,reserve,long] at queued

/-- Everything a step can do. -/
inductive Moves (d : Sending) : Action → Sending → List Event → Prop
  | queued (message : Bytes) (err : Option Int) : d.life = .alive → d.sender.m_batchsize ≠ 0 → d.flushing = false →
      (d.sender.m_batchingMessageQueue = [] → d.sender.m_batchsize + 256 ≤ max_size) →
      Moves d (.send message err)
        { d with sender := { d.sender with
            m_errorMessage := []
            m_batchingMessageQueue :=
              Batching.push separator d.sender.m_batchsize.toNat d.sender.m_batchingMessageQueue message } }
        [.accepted message]
  | refused (message : Bytes) (err : Option Int) : d.life = .alive → d.sender.m_batchsize ≠ 0 →
      d.sender.m_batchsize + 256 > max_size →
      Moves d (.send message err) { d with life := .terminated } [.terminated]
  | direct (message : Bytes) (err : Option Int) (text : Bytes) : d.life = .alive → d.sender.m_batchsize = 0 →
      Moves d (.send message err) { d with sender := { d.sender with m_errorMessage := text } }
        [.accepted message,.sendto d.sender.m_server message err]
  | looked (err : Option Int) : d.sender.m_batchingThread = true → d.life = .alive ∨ d.life = .joining →
      d.worker = .looking →
      Moves d (.thread err) { d with worker := if d.sender.m_mustExit then .returned else .swapping } []
  | took (err : Option Int) : d.sender.m_batchingThread = true → d.life = .alive ∨ d.life = .joining →
      d.worker = .swapping →
      Moves d (.thread err)
        { d with sender := { d.sender with m_batchingMessageQueue := [] },
                 worker := .sending d.sender.m_batchingMessageQueue } [.took]
  | delivered (front : Bytes) (rest : List Bytes) (err : Option Int) (text : Bytes) :
      d.sender.m_batchingThread = true → d.life = .alive ∨ d.life = .joining → d.worker = .sending (front :: rest) →
      Moves d (.thread err) { d with sender := { d.sender with m_errorMessage := text }, worker := .sending rest }
        [.sendto d.sender.m_server front err]
  | rested (err : Option Int) : d.sender.m_batchingThread = true → d.life = .alive ∨ d.life = .joining →
      d.worker = .sending [] → Moves d (.thread err) { d with worker := .sleeping } []
  | woke (err : Option Int) : d.sender.m_batchingThread = true → d.life = .alive ∨ d.life = .joining →
      d.worker = .sleeping → Moves d (.thread err) { d with worker := .looking } []
  | locked : d.life = .alive → Moves d .flush { d with flushing := true } []
  | flushed (front : Bytes) (rest : List Bytes) (err : Option Int) (text : Bytes) : d.life = .alive →
      d.flushing = true → d.sender.m_batchingMessageQueue = front :: rest →
      Moves d (.flushNext err)
        { d with sender := { d.sender with m_errorMessage := text, m_batchingMessageQueue := rest } }
        [.sendto d.sender.m_server front err]
  | unlocked (err : Option Int) : d.life = .alive → d.flushing = true →
      Moves d (.flushNext err) { d with flushing := false } []
  | destroyed : d.life = .alive → d.flushing = false →
      d.sender.m_socket = false ∨ d.sender.m_batchingThread = false →
      Moves d .destroy { d with life := .gone } []
  | ending : d.life = .alive → d.flushing = false → d.sender.m_socket = true → d.sender.m_batchingThread = true →
      Moves d .destroy { d with sender := { d.sender with m_mustExit := true }, life := .joining } []
  | joined : d.life = .joining → d.worker = .returned →
      Moves d .join { d with sender := { d.sender with m_batchingThread := false }, life := .gone } []

theorem send_moves {d d' : Sending} {message : Bytes} {err : Option Int} {out : List Event} (alive : d.life = .alive)
    (taken : d.send message err = some (d',out)) : Moves d (.send message err) d' out := by
  unfold send at taken
  by_cases batching : d.sender.m_batchsize > 0
  · have some_size : d.sender.m_batchsize ≠ 0 := by
      intro none
      simp [none] at batching
    simp only [batching,↓reduceIte] at taken
    split at taken
    · cases taken
    · rename_i free
      split at taken
      · rename_i s queued
        cases taken
        have fits := queueMessage_fits queued
        rw [queueMessage_eq queued]
        exact .queued message err alive some_size (by simpa using free) fits
      · rename_i thrown
        cases taken
        have long := queueMessage_none thrown
        exact .refused message err alive some_size long
  · have no_size : d.sender.m_batchsize = 0 := by simpa using batching
    simp only [batching,↓reduceIte] at taken
    split at taken
    · cases taken
      obtain ⟨text,same⟩ := sendToDaemon_eq { d.sender with m_errorMessage := [] } err
      rw [same]
      exact .direct message err text alive no_size
    · cases taken

theorem runThread_moves {d d' : Sending} {err : Option Int} {out : List Event}
    (running : d.sender.m_batchingThread = true) (life : d.life = .alive ∨ d.life = .joining)
    (taken : d.runThread err = some (d',out)) : Moves d (.thread err) d' out := by
  unfold runThread at taken
  split at taken
  · rename_i stands
    cases taken
    exact .looked err running life stands
  · rename_i stands
    split at taken
    · cases taken
    · cases taken
      exact .took err running life stands
  · rename_i front rest stands
    cases taken
    obtain ⟨text,same⟩ := sendToDaemon_eq d.sender err
    rw [same]
    exact .delivered front rest err text running life stands
  · rename_i stands
    cases taken
    exact .rested err running life stands
  · rename_i stands
    cases taken
    exact .woke err running life stands
  · cases taken

theorem flushNext_moves {d d' : Sending} {err : Option Int} {out : List Event} (alive : d.life = .alive)
    (holding : d.flushing = true) (taken : d.flushNext err = some (d',out)) : Moves d (.flushNext err) d' out := by
  unfold flushNext at taken
  split at taken
  · rename_i front rest queue
    split at taken
    · cases taken
      obtain ⟨text,same⟩ := sendToDaemon_eq d.sender err
      rw [same]
      exact .flushed front rest err text alive holding queue
    · cases taken
  · cases taken
    exact .unlocked err alive holding

theorem destroy_moves {d : Sending} (alive : d.life = .alive) (free : d.flushing = false) :
    Moves d .destroy d.destroy [] := by
  unfold destroy initialized
  split
  · rename_i closed
    exact .destroyed alive free (.inl closed)
  · rename_i valid
    split
    · rename_i running
      exact .ending alive free (by simpa using valid) running
    · rename_i none
      exact .destroyed alive free (.inr (by simpa using none))

theorem step_moves {d d' : Sending} {a : Action} {out : List Event} (taken : step d a = some (d',out)) :
    Moves d a d' out := by
  cases a with
  | send message err =>
    simp only [step,Option.ite_none_right_eq_some] at taken
    exact send_moves taken.1 taken.2
  | thread err =>
    simp only [step,Option.ite_none_right_eq_some] at taken
    exact runThread_moves taken.1.1 taken.1.2 taken.2
  | flush =>
    simp only [step,Option.ite_none_right_eq_some,Option.some.injEq,Prod.mk.injEq] at taken
    obtain ⟨⟨alive,_⟩,rfl,rfl⟩ := taken
    exact .locked alive
  | flushNext err =>
    simp only [step,Option.ite_none_right_eq_some] at taken
    exact flushNext_moves taken.1.2 taken.1.1 taken.2
  | destroy =>
    simp only [step,Option.ite_none_right_eq_some,Option.some.injEq,Prod.mk.injEq] at taken
    obtain ⟨⟨alive,free⟩,rfl,rfl⟩ := taken
    exact destroy_moves alive free
  | join =>
    simp only [step,Option.ite_none_right_eq_some,Option.some.injEq,Prod.mk.injEq] at taken
    obtain ⟨⟨joining,returned⟩,rfl,rfl⟩ := taken
    exact .joined joining returned

end Sending
end Facade
