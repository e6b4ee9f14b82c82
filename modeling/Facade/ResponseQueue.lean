import Mathlib.Data.List.Range
import Facade.ServerSession

/-!
The response queue of a session under responses that arrive at any time. The first
response in the queue is the one that is being written, and it is also the one that
`send_response` discards when the queue is full.

The responses are numbered as they are queued; `ledger` follows the numbers through
the record of a run. `queue_faithful_iff` says in which runs each response is written
once, in order, or discarded before its write.
-/
namespace Facade.HttpServerSession
open Strings Http

/-- Responses arrive and writes succeed. -/
inductive QueueAction
  | send (res : Response) (now : Int)
  | written (now : Int)
deriving DecidableEq,Repr

def queueStep (s : HttpServerSession) : QueueAction → Option (HttpServerSession × List Event)
  | .send res now => some (send_response (some res) now s)
  | .written now => step s (.written none now)

/-- What has become of the responses, by their numbers. -/
structure Ledger where
  next : Nat
  queue : List Nat
  /-- The response that is being written. -/
  current : Option Nat
  /-- The discarded responses, each with the one being written at that time. -/
  discarded : List (Nat × Option Nat)
  /-- The responses whose write completed, each with the one removed then. -/
  completed : List (Option Nat × Option Nat)
deriving DecidableEq,Repr

namespace Ledger

def note (l : Ledger) : Event → Ledger
  | .answered (some _) => { l with next := l.next + 1, queue := l.queue ++ [l.next] }
  | .overflow =>
    { l with queue := l.queue.tail, discarded := l.discarded ++ l.queue.head?.toList.map fun n => (n,l.current) }
  | .writing _ => { l with current := l.queue.head? }
  | .wrote _ =>
    { l with current := none, queue := l.queue.tail, completed := l.completed ++ [(l.current,l.queue.head?)] }
  | _ => l

/-- The numbers of the responses that were written. -/
def written (l : Ledger) : List Nat := l.completed.filterMap Prod.fst

/-- Each response is in the queue, or was written once and in order, or was discarded
    before its write; what is removed after a write is what was written. -/
structure Faithful (l : Ledger) : Prop where
  apart : ∀ d ∈ l.discarded, d.2 ≠ some d.1
  removed : ∀ c ∈ l.completed, c.2 = c.1
  ordered : l.written.Pairwise (· < ·)
  once : (l.written ++ l.discarded.map Prod.fst ++ l.queue).Perm (List.range l.next)

end Ledger

def ledger (log : List Event) : Ledger := log.foldl Ledger.note ⟨0,[],none,[],[]⟩

/-- The ledger's queue and the write in flight are those of the session. -/
structure Mirrors (s : HttpServerSession) (log : List Event) : Prop where
  numbered : (ledger log).next = (answers log).length
  queue : (ledger log).queue.map (fun n => (answers log)[n]?) = s.response_queue.map some
  current : (ledger log).current.toList.map (fun n => (answers log)[n]?) = s.writes.map some

/-- While responses are queued, the first one or one that was discarded is being
    written. -/
structure Shape (s : HttpServerSession) : Prop where
  opened : s.socket_open = true
  room : 1 ≤ sizeT s.max_response_queue_size
  busy : s.write_in_progress = !s.response_queue.isEmpty
  one : s.writes.length = if s.response_queue = [] then 0 else 1
  underway : s.response_queue ≠ [] → s.current_write_op_completed = false

/-- An event that says nothing of responses. -/
def Aside (e : Event) : Prop := (∃ now, e = .reading now) ∨ e = .closing ∨ e = .finished

/-- What a step does to the queue and to the write in flight. -/
inductive Moves (s s' : HttpServerSession) (a : QueueAction) (out : List Event) : Prop
  | first (res : Response) (now : Int) : a = .send res now → s.response_queue = [] → s'.response_queue = [res] →
      s'.writes = [res] → out = [.answered (some res),.writing res] → Moves s s' a out
  | queued (res : Response) (now : Int) : a = .send res now → s.response_queue ≠ [] →
      s.response_queue.length < sizeT s.max_response_queue_size → s'.response_queue = s.response_queue ++ [res] →
      s'.writes = s.writes → out = [.answered (some res)] → Moves s s' a out
  | displaced (res : Response) (now : Int) : a = .send res now → s.response_queue ≠ [] →
      sizeT s.max_response_queue_size ≤ s.response_queue.length →
      s'.response_queue = s.response_queue.tail ++ [res] → s'.writes = s.writes →
      out = [.answered (some res),.overflow] → Moves s s' a out
  | next (res q r : Response) (rest : List Response) (now : Int) : a = .written now →
      s.response_queue = q :: r :: rest → s'.response_queue = r :: rest → s'.writes = [r] →
      out = [.wrote res,.writing r] → Moves s s' a out
  | last (res q : Response) (more : List Event) (now : Int) : a = .written now → s.response_queue = [q] →
      s'.response_queue = [] → s'.writes = [] → out = .wrote res :: more → (∀ e ∈ more, Aside e) → Moves s s' a out

/-- The shape, the limit and the movement after a step. -/
structure Advances (s s' : HttpServerSession) (a : QueueAction) (out : List Event) : Prop where
  shape : Shape s'
  limit : s'.max_response_queue_size = s.max_response_queue_size
  moves : Moves s s' a out

theorem advances_send {s : HttpServerSession} (shape : Shape s) (res : Response) (now : Int) :
    Advances s (send_response (some res) now s).1 (.send res now) (send_response (some res) now s).2 := by
  obtain ⟨opened,room,busy,one,underway⟩ := shape
  by_cases empty : s.response_queue = []
  · -- there is space, and the response is written at once
    have idle : s.write_in_progress = false := by simp [busy,empty]
    have unwritten : s.writes = [] := List.length_eq_zero_iff.mp (by simp [one,empty])
    have space : make_space s = (s,[]) := by
      unfold make_space
      rw [if_neg]
      simp only [empty,List.length_nil]
      omega
    have written := do_write_cons (s := { s with response_queue := [res] }) rfl opened
    have sent : send_response (some res) now s =
        ((do_write { s with response_queue := [res] }).1,
          .answered (some res) :: (do_write { s with response_queue := [res] }).2) := by
      simp [send_response,space,empty,idle]
    rw [sent,written]
    refine ⟨⟨opened,room,rfl,?_,fun _ => rfl⟩,rfl,.first res now rfl empty rfl ?_ rfl⟩
    · simp [unwritten]
    · simp [unwritten]
  · have writing : s.write_in_progress = true := by simp [busy,empty]
    have flying : s.writes.length = 1 := by simp [one,empty]
    have flag := underway empty
    by_cases full : sizeT s.max_response_queue_size ≤ s.response_queue.length
    · have sent : send_response (some res) now s =
          ({ s with response_queue := s.response_queue.tail ++ [res] },[.answered (some res),.overflow]) := by
        simp [send_response,make_space,full,writing]
      rw [sent]
      refine ⟨⟨opened,room,by simp [writing],?_,fun _ => flag⟩,rfl,.displaced res now rfl empty full rfl rfl rfl⟩
      simp [flying]
    · have sent : send_response (some res) now s =
          ({ s with response_queue := s.response_queue ++ [res] },[.answered (some res)]) := by
        simp [send_response,make_space,full,writing]
      rw [sent]
      refine ⟨⟨opened,room,by simp [writing],?_,fun _ => flag⟩,rfl,.queued res now rfl empty (by omega) rfl rfl rfl⟩
      simp [flying]

/-- The write of the last response in the queue ends: the session reads on or ends. -/
theorem advances_last {s s' : HttpServerSession} {out : List Event} {res q : Response} {now : Int}
    (opened : s.socket_open = true) (room : 1 ≤ sizeT s.max_response_queue_size)
    (flag : s.current_write_op_completed = false) (queue : s.response_queue = [q]) (writes : s.writes = [res])
    (taken : step s (.written none now) = some (s',out)) : Advances s s' (.written now) out := by
  let idle : HttpServerSession :=
    { s with
      writes := []
      current_write_op_completed := true
      waits := cancelWaits s.waits
      response_queue := []
      write_in_progress := false }
  have handled : on_write res.keep_alive none now { s with writes := [] } =
      if res.keep_alive then do_read now idle else do_close idle := by
    simp [on_write,flag,write_done,queue,idle]
  simp only [step,writes,Option.some.injEq] at taken
  rw [handled] at taken
  by_cases persistent : res.keep_alive = true
  · simp only [persistent,if_true] at taken
    obtain ⟨rfl,rfl⟩ := Prod.mk.inj taken
    exact ⟨⟨opened,room,rfl,rfl,fun some_left => absurd rfl some_left⟩,rfl,
      .last res q _ now rfl queue rfl rfl rfl (by simp [do_read,Aside])⟩
  · simp only [persistent,if_true,if_false,do_close,Bool.false_eq_true] at taken
    split at taken
    · obtain ⟨rfl,rfl⟩ := Prod.mk.inj taken
      exact ⟨⟨opened,room,rfl,rfl,fun some_left => absurd rfl some_left⟩,rfl,
        .last res q _ now rfl queue rfl rfl rfl (by simp [Aside])⟩
    · obtain ⟨rfl,rfl⟩ := Prod.mk.inj taken
      exact ⟨⟨opened,room,rfl,rfl,fun some_left => absurd rfl some_left⟩,rfl,
        .last res q _ now rfl queue rfl rfl rfl (by simp [Aside])⟩

theorem advances_written {s s' : HttpServerSession} {out : List Event} (shape : Shape s) {now : Int}
    (taken : step s (.written none now) = some (s',out)) : Advances s s' (.written now) out := by
  obtain ⟨opened,room,busy,one,underway⟩ := shape
  cases pending : s.writes with
  | nil => simp [step,pending] at taken
  | cons res writes =>
    have queued : s.response_queue ≠ [] := by
      intro empty
      simp [pending,empty] at one
    have alone : writes = [] := by
      rw [pending,if_neg queued,List.length_cons] at one
      exact List.length_eq_zero_iff.mp (by omega)
    subst alone
    have flag := underway queued
    cases queue : s.response_queue with
    | nil => exact absurd queue queued
    | cons q rest =>
      cases rest with
      | nil => exact advances_last opened room flag queue pending taken
      | cons r rest =>
        let popped : HttpServerSession :=
          { s with
            writes := []
            current_write_op_completed := true
            waits := cancelWaits s.waits
            response_queue := r :: rest }
        have handled : on_write res.keep_alive none now { s with writes := [] } = do_write popped := by
          simp [on_write,flag,write_done,queue,popped]
        simp only [step,pending,Option.some.injEq] at taken
        rw [handled,do_write_cons (s := popped) rfl opened] at taken
        obtain ⟨rfl,rfl⟩ := Prod.mk.inj taken
        exact ⟨⟨opened,room,rfl,rfl,fun _ => rfl⟩,rfl,.next res q r rest now rfl queue rfl rfl rfl⟩

theorem advances_step {s s' : HttpServerSession} {out : List Event} {a : QueueAction} (shape : Shape s)
    (taken : queueStep s a = some (s',out)) : Advances s s' a out := by
  cases a with
  | send res now =>
    have sent := Option.some.inj taken
    have advanced := advances_send shape res now
    rw [sent] at advanced
    exact advanced
  | written now => exact advances_written shape taken

theorem ledger_append (log out : List Event) : ledger (log ++ out) = out.foldl Ledger.note (ledger log) := by
  simp [ledger]

/-- Events that say nothing of responses change nothing. -/
theorem foldl_note_aside {more : List Event} (aside : ∀ e ∈ more, Aside e) (l : Ledger) :
    more.foldl Ledger.note l = l ∧ answers more = [] := by
  induction more with
  | nil => exact ⟨rfl,rfl⟩
  | cons e rest ih =>
    obtain ⟨same,none_answered⟩ := ih (fun d member => aside d (by simp [member]))
    rcases aside e (by simp) with ⟨now,rfl⟩ | rfl | rfl
    · exact ⟨same,by simpa using none_answered⟩
    · exact ⟨same,by simpa using none_answered⟩
    · exact ⟨same,by simpa using none_answered⟩

theorem overflow_not_mem_aside {more : List Event} (aside : ∀ e ∈ more, Aside e) : Event.overflow ∉ more := by
  intro member
  rcases aside _ member with ⟨now,impossible⟩ | impossible | impossible
  all_goals cases impossible

theorem map_getElem_append {numbers : List Nat} {responses queue : List Response} (more : List Response)
    (mirrored : numbers.map (fun n => responses[n]?) = queue.map some) :
    numbers.map (fun n => (responses ++ more)[n]?) = queue.map some := by
  rw [← mirrored]
  apply List.map_congr_left
  intro n member
  have present : responses[n]? ∈ queue.map some := by
    rw [← mirrored]
    exact List.mem_map_of_mem member
  obtain ⟨res,-,found⟩ := List.mem_map.mp present
  rw [← found,List.getElem?_append_left]
  · exact found.symm
  · exact (List.getElem?_eq_some_iff.mp found.symm).1

theorem mirrors_step {s s' : HttpServerSession} {log out : List Event} {a : QueueAction} (mirrors : Mirrors s log)
    (moves : Moves s s' a out) : Mirrors s' (log ++ out) := by
  obtain ⟨numbered,queue,current⟩ := mirrors
  have queue_later := fun more => map_getElem_append more queue
  have current_later := fun more => map_getElem_append more current
  cases moves with
  | first res now _ empty queued writing reported =>
    have nothing : (ledger log).queue = [] := by simpa [empty] using queue
    subst reported
    refine ⟨?_,?_,?_⟩
    · simp [ledger_append,Ledger.note,numbered]
    · simp [ledger_append,Ledger.note,numbered,nothing,queued]
    · simp [ledger_append,Ledger.note,numbered,nothing,writing]
  | queued res now _ busy space pushed same reported =>
    subst reported
    refine ⟨?_,?_,?_⟩
    · simp [ledger_append,Ledger.note,numbered]
    · simp [ledger_append,Ledger.note,numbered,pushed,queue_later]
    · simp [ledger_append,Ledger.note,same,current_later]
  | displaced res now _ busy full pushed same reported =>
    obtain ⟨q,rest,queued⟩ := List.exists_cons_of_ne_nil busy
    obtain ⟨n,numbers,head,-,tail⟩ := List.map_eq_cons_iff.mp (queue.trans (by rw [queued]; rfl))
    have tail_later := map_getElem_append [res] tail
    subst reported
    refine ⟨?_,?_,?_⟩
    · simp [ledger_append,Ledger.note,numbered]
    · simp [ledger_append,Ledger.note,numbered,head,pushed,queued,tail_later]
    · simp [ledger_append,Ledger.note,same,current_later]
  | next res q r rest now _ queued popped writing reported =>
    obtain ⟨n,numbers,head,-,tail⟩ := List.map_eq_cons_iff.mp (queue.trans (by rw [queued]; rfl))
    obtain ⟨k,others,second,found,-⟩ := List.map_eq_cons_iff.mp (tail.trans (by rfl))
    subst reported
    refine ⟨?_,?_,?_⟩
    · simp [ledger_append,Ledger.note,numbered]
    · simp [ledger_append,Ledger.note,head,popped,tail]
    · simp [ledger_append,Ledger.note,head,second,writing,found]
  | last res q more now _ queued popped ended reported aside =>
    obtain ⟨n,numbers,head,-,tail⟩ := List.map_eq_cons_iff.mp (queue.trans (by rw [queued]; rfl))
    have nothing : numbers = [] := by simpa using tail
    subst reported
    have noted := fun l => (foldl_note_aside aside l).1
    have unanswered := (foldl_note_aside aside (ledger log)).2
    refine ⟨?_,?_,?_⟩
    · simp [ledger_append,Ledger.note,noted,unanswered,numbered]
    · simp [ledger_append,Ledger.note,noted,head,nothing,popped]
    · simp [ledger_append,Ledger.note,noted,ended]

/-- Without an overflow the responses stay in line: those written, then those in the
    queue, whose first one is being written. -/
structure InLine (l : Ledger) : Prop where
  current : l.current = l.queue.head?
  kept : l.discarded = []
  removed : ∀ c ∈ l.completed, c.2 = c.1
  line : l.written ++ l.queue = List.range l.next

/-- A response was discarded while it was being written. -/
def Torn (l : Ledger) : Prop := ∃ d ∈ l.discarded, d.2 = some d.1

theorem InLine.faithful {l : Ledger} (inLine : InLine l) : l.Faithful := by
  refine ⟨by simp [inLine.kept],inLine.removed,?_,?_⟩
  · have sorted : (l.written ++ l.queue).Pairwise (· < ·) := by
      rw [inLine.line]
      exact List.pairwise_lt_range
    exact (List.pairwise_append.mp sorted).1
  · rw [inLine.kept,List.map_nil,List.append_nil,inLine.line]

theorem Torn.not_faithful {l : Ledger} (torn : Torn l) : ¬ l.Faithful := by
  obtain ⟨d,member,same⟩ := torn
  exact fun faithful => faithful.apart d member same

theorem Torn.foldl_note {l : Ledger} (torn : Torn l) (out : List Event) : Torn (out.foldl Ledger.note l) := by
  induction out generalizing l with
  | nil => exact torn
  | cons e rest ih =>
    apply ih
    obtain ⟨d,member,same⟩ := torn
    refine ⟨d,?_,same⟩
    unfold Ledger.note
    split <;> simp [member]

/-- A response joins the line. -/
theorem InLine.push {l : Ledger} (inLine : InLine l) :
    InLine ⟨l.next + 1,l.queue ++ [l.next],(l.queue ++ [l.next]).head?,l.discarded,l.completed⟩ := by
  refine ⟨rfl,inLine.kept,inLine.removed,?_⟩
  show l.written ++ (l.queue ++ [l.next]) = List.range (l.next + 1)
  rw [List.range_succ,← inLine.line,List.append_assoc]

/-- The first response in the line is written and leaves it. -/
theorem InLine.pop {l : Ledger} (inLine : InLine l) {n : Nat} {numbers : List Nat} (head : l.queue = n :: numbers) :
    InLine ⟨l.next,numbers,numbers.head?,l.discarded,l.completed ++ [(some n,some n)]⟩ := by
  refine ⟨rfl,inLine.kept,?_,?_⟩
  · intro c member
    rcases List.mem_append.mp member with old | new
    · exact inLine.removed c old
    · rw [List.mem_singleton.mp new]
  · have line := inLine.line
    rw [head] at line
    have longer : Ledger.written ⟨l.next,numbers,numbers.head?,l.discarded,l.completed ++ [(some n,some n)]⟩ =
        l.written ++ [n] := by
      simp [Ledger.written]
    rw [longer]
    simpa using line

/-- A step without an overflow keeps the line. -/
theorem inLine_step {s s' : HttpServerSession} {log out : List Event} {a : QueueAction} (mirrors : Mirrors s log)
    (inLine : InLine (ledger log)) (moves : Moves s s' a out) (kept : Event.overflow ∉ out) :
    InLine (ledger (log ++ out)) := by
  have queue := mirrors.queue
  have current := inLine.current
  cases moves with
  | first res now _ empty queued writing reported =>
    rw [reported,ledger_append]
    exact inLine.push
  | queued res now _ busy space pushed same reported =>
    obtain ⟨q,rest,queued⟩ := List.exists_cons_of_ne_nil busy
    obtain ⟨n,numbers,head,-,-⟩ := List.map_eq_cons_iff.mp (queue.trans (by rw [queued]; rfl))
    have first_stays : (ledger log).current = ((ledger log).queue ++ [(ledger log).next]).head? := by
      simp [current,head]
    have after : ledger (log ++ out) =
        ⟨(ledger log).next + 1,(ledger log).queue ++ [(ledger log).next],(ledger log).current,
          (ledger log).discarded,(ledger log).completed⟩ := by
      rw [reported,ledger_append]
      rfl
    rw [after,first_stays]
    exact inLine.push
  | displaced res now _ busy full pushed same reported => simp [reported] at kept
  | next res q r rest now _ queued popped writing reported =>
    obtain ⟨n,numbers,head,-,-⟩ := List.map_eq_cons_iff.mp (queue.trans (by rw [queued]; rfl))
    have written_n : (ledger log).current = some n := by rw [current,head]; rfl
    have after : ledger (log ++ out) =
        ⟨(ledger log).next,numbers,numbers.head?,(ledger log).discarded,
          (ledger log).completed ++ [(some n,some n)]⟩ := by
      rw [reported,ledger_append]
      simp [Ledger.note,written_n,head]
    rw [after]
    exact inLine.pop head
  | last res q more now _ queued popped ended reported aside =>
    obtain ⟨n,numbers,head,-,tail⟩ := List.map_eq_cons_iff.mp (queue.trans (by rw [queued]; rfl))
    have nothing : numbers = [] := by simpa using tail
    have written_n : (ledger log).current = some n := by rw [current,head]; rfl
    have after : ledger (log ++ out) =
        ⟨(ledger log).next,numbers,numbers.head?,(ledger log).discarded,
          (ledger log).completed ++ [(some n,some n)]⟩ := by
      rw [reported,ledger_append,List.foldl_cons,(foldl_note_aside aside _).1]
      simp [Ledger.note,written_n,head,nothing]
    rw [after]
    exact inLine.pop head

/-- The first overflow discards the response that is being written. -/
theorem torn_step {s s' : HttpServerSession} {log out : List Event} {a : QueueAction} (mirrors : Mirrors s log)
    (inLine : InLine (ledger log)) (moves : Moves s s' a out) (lost : Event.overflow ∈ out) :
    Torn (ledger (log ++ out)) := by
  cases moves with
  | first res now _ empty queued writing reported => simp [reported] at lost
  | queued res now _ busy space pushed same reported => simp [reported] at lost
  | displaced res now _ busy full pushed same reported =>
    obtain ⟨q,rest,queued⟩ := List.exists_cons_of_ne_nil busy
    obtain ⟨n,numbers,head,-,-⟩ := List.map_eq_cons_iff.mp (mirrors.queue.trans (by rw [queued]; rfl))
    have written_n : (ledger log).current = some n := by rw [inLine.current,head]; rfl
    refine ⟨(n,some n),?_,rfl⟩
    rw [reported,ledger_append]
    simp [Ledger.note,head,written_n]
  | next res q r rest now _ queued popped writing reported => simp [reported] at lost
  | last res q more now _ queued popped ended reported aside =>
    simp [reported,overflow_not_mem_aside aside] at lost

/-- The invariant of the queue, for the limit `m`. -/
structure Queued (m : Int32) (s : HttpServerSession) (log : List Event) : Prop where
  shape : Shape s
  limit : s.max_response_queue_size = m
  mirrors : Mirrors s log
  kept : Event.overflow ∉ log → InLine (ledger log)
  lost : Event.overflow ∈ log → Torn (ledger log)

theorem queued_step {m : Int32} {s s' : HttpServerSession} {log out : List Event} {a : QueueAction}
    (queued : Queued m s log) (taken : queueStep s a = some (s',out)) : Queued m s' (log ++ out) := by
  obtain ⟨shape,limit,mirrors,kept,lost⟩ := queued
  obtain ⟨shape',same,moves⟩ := advances_step shape taken
  refine ⟨shape',same.trans limit,mirrors_step mirrors moves,?_,?_⟩
  · intro none_lost
    simp only [List.mem_append,not_or] at none_lost
    exact inLine_step mirrors (kept none_lost.1) moves none_lost.2
  · intro member
    by_cases before : Event.overflow ∈ log
    · rw [ledger_append]
      exact (lost before).foldl_note out
    · have now_lost : Event.overflow ∈ out := (List.mem_append.mp member).resolve_left before
      exact torn_step mirrors (kept before) moves now_lost

theorem queued_run {backendify_service : Bool} {m : Int32} (positive : 1 ≤ m) {actions : List QueueAction}
    {s : HttpServerSession} {log : List Event} (run : Runs.Run queueStep (new backendify_service m) actions s log) :
    Queued m s log := by
  refine run.invariant (Queued m) ?_ (fun _ _ _ _ _ queued taken => queued_step queued taken)
  exact ⟨⟨rfl,sizeT_pos positive,rfl,rfl,fun some_left => absurd rfl some_left⟩,rfl,⟨rfl,rfl,rfl⟩,
    fun _ => ⟨rfl,rfl,by simp [ledger],rfl⟩,fun lost => by cases lost⟩

theorem lt_sizeT_iff {m : Int32} (positive : 1 ≤ m) (n : Nat) : n < sizeT m ↔ (n : Int) < m.toInt := by
  have low : (1 : Int32).toInt ≤ m.toInt := Int32.le_iff_toInt_le.mp positive
  have high := m.toInt_lt
  have one : (1 : Int32).toInt = 1 := by decide
  unfold sizeT
  omega

/-- A step overflows exactly when it sends a response to a full queue. -/
theorem Moves.overflow_iff {s s' : HttpServerSession} {a : QueueAction} {out : List Event} (moves : Moves s s' a out)
    (room : 1 ≤ sizeT s.max_response_queue_size) :
    Event.overflow ∉ out ↔
      ∀ res now, a = .send res now → s.response_queue.length < sizeT s.max_response_queue_size := by
  cases moves with
  | first res now sent empty queued writing reported =>
    refine iff_of_true (by simp [reported]) ?_
    intro _ _ _
    simp only [empty,List.length_nil]
    omega
  | queued res now sent busy space pushed same reported =>
    exact iff_of_true (by simp [reported]) (fun _ _ _ => space)
  | displaced res now sent busy full pushed same reported =>
    refine iff_of_false (by simp [reported]) ?_
    intro space
    have := space res now sent
    omega
  | next res q r rest now sent queued popped writing reported =>
    refine iff_of_true (by simp [reported]) ?_
    rintro _ _ rfl
    cases sent
  | last res q more now sent queued popped ended reported aside =>
    refine iff_of_true (by simp [reported,overflow_not_mem_aside aside]) ?_
    rintro _ _ rfl
    cases sent

/-- The queue overflows in a run exactly when one of its responses finds it full. -/
theorem overflow_iff {backendify_service : Bool} {m : Int32} (positive : 1 ≤ m) {actions : List QueueAction}
    {s : HttpServerSession} {log : List Event} (run : Runs.Run queueStep (new backendify_service m) actions s log) :
    Event.overflow ∉ log ↔
      ∀ t before res now, Runs.Takes queueStep (new backendify_service m) actions t before (.send res now) →
        (t.response_queue.length : Int) < m.toInt := by
  induction run with
  | start =>
    refine iff_of_true (by simp) ?_
    rintro t before res now ⟨first,after,split,-⟩
    simp at split
  | @next acts s s' log out a earlier taken ih =>
    have queued := queued_run positive earlier
    have moves := (advances_step queued.shape taken).moves
    have here := moves.overflow_iff queued.shape.room
    rw [queued.limit,lt_sizeT_iff positive] at here
    rw [List.mem_append,not_or,ih,here]
    constructor
    · rintro ⟨before_this,this_one⟩ t before res now takes
      rcases earlier.takes_snoc.mp takes with old | ⟨sent,rfl,rfl⟩
      · exact before_this t before res now old
      · exact this_one res now sent.symm
    · intro all
      refine ⟨fun t before res now takes => all t before res now (earlier.takes_snoc.mpr (.inl takes)),?_⟩
      rintro res now rfl
      exact all s log res now (earlier.takes_snoc.mpr (.inr ⟨rfl,rfl,rfl⟩))

/-- The ledger follows the session's queue, and in a run of arriving responses and
    successful writes it is faithful exactly when no response finds the queue full:
    the one that gives way is the one being written. -/
theorem queue_faithful_iff (backendify_service : Bool) (m : Int32) (positive : 1 ≤ m) (actions : List QueueAction)
    (s : HttpServerSession) (log : List Event) (run : Runs.Run queueStep (new backendify_service m) actions s log) :
    Mirrors s log ∧
    ((ledger log).Faithful ↔
      ∀ t before res now, Runs.Takes queueStep (new backendify_service m) actions t before (.send res now) →
        (t.response_queue.length : Int) < m.toInt) := by
  have queued := queued_run positive run
  refine ⟨queued.mirrors,?_⟩
  rw [← overflow_iff positive run]
  constructor
  · intro faithful lost
    exact (queued.lost lost).not_faithful faithful
  · intro kept
    exact (queued.kept kept).faithful

/-- Two responses of which the second arrives while the first is being written. -/
def twoResponses : List QueueAction := [.send Response.empty 0,.send Response.empty 1,.written 2]

theorem queue_faithful_iff_two : ∃ s log, Runs.Run queueStep (new true 2) twoResponses s log ∧
    (ledger log).Faithful := by
  have run : Runs.Run queueStep (new true 2) twoResponses _ _ := Runs.Run.of_isSome (by decide +kernel)
  have space := (overflow_iff (by decide) run).mp (by decide +kernel)
  exact ⟨_,_,run,(queue_faithful_iff true 2 (by decide) twoResponses _ _ run).2.mpr space⟩

/-- With room for one response, the first is discarded while it is being written, and
    the second is removed in its place and never written. -/
theorem displaced_response_lost : ∃ s log, Runs.Run queueStep (new true 1) twoResponses s log ∧
    (ledger log).discarded = [(0,some 0)] ∧ (ledger log).completed = [(some 0,some 1)] ∧ s.response_queue = [] ∧
    s.writes = [] ∧ ¬ (ledger log).Faithful := by
  have run : Runs.Run queueStep (new true 1) twoResponses _ _ := Runs.Run.of_isSome (by decide +kernel)
  refine ⟨_,_,run,by decide +kernel,by decide +kernel,by decide +kernel,by decide +kernel,?_⟩
  intro faithful
  have discarded : ((0,some 0) : Nat × Option Nat) ∈ (ledger
      ((Runs.exec queueStep (new true 1) twoResponses).getD (new true 1,[])).2).discarded := by decide +kernel
  exact faithful.apart _ discarded rfl

end Facade.HttpServerSession
