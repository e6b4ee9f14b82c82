import Facade.UDPSender

/-!
Runs of a sender: any calls of `send` and `flush`, steps of the batching thread
between them, and the destructor.

No line that is not empty is lost or sent twice before the end, and without `flush`
the lines keep their order (`lines_conserved`); while it batches, a datagram holds
whole messages that follow each other, and is longer than the batch size by one
message at most (`datagram_sizes`). The thread left to itself sends all there
is (`drains`), but the destructor waits for no more than what the thread has
taken (`destructor_ends`): what was queued after that is never sent
(`lost_at_exit`).
-/
namespace Facade.Sending
open Strings UDPSender Runs

/-- The lines of some batches that are not empty. -/
def lines (batches : List Bytes) : List Bytes := batches.flatMap (Batching.lines separator)

theorem lines_append (first second : List Bytes) : lines (first ++ second) = lines first ++ lines second :=
  List.flatMap_append

/-- The messages that `send` took since the thread last took the queue. -/
def leftOver (log : List Event) : List Bytes :=
  log.foldl (fun left e => match e with | .accepted message => left ++ [message] | .took => [] | _ => left) []

theorem leftOver_snoc (log : List Event) (e : Event) : leftOver (log ++ [e]) =
    match e with | .accepted message => leftOver log ++ [message] | .took => [] | _ => leftOver log := by
  simp [leftOver]

/-- A host with a numeric address. -/
def localNetwork : Network := ⟨none,fun _ => some 0x7f000001,fun _ => .error 0⟩

/-- Batches of eight bytes for it. -/
def localSender : UDPSender := .new localNetwork (lit "127.0.0.1") 8125 8 1000

def metricA : Bytes := lit "a:1|c"
def metricB : Bytes := lit "b:1|c"
def metricC : Bytes := lit "c:1|c"

/-! ### The object -/

/-- An object as the constructor leaves it. -/
structure Fresh (s : UDPSender) : Prop where
  queue : s.m_batchingMessageQueue = []
  exit : s.m_mustExit = false
  thread : s.m_batchingThread = true → s.m_socket = true

theorem initializeSocket_keeps (net : Network) (s : UDPSender) :
    (initializeSocket net s).1.m_batchingMessageQueue = s.m_batchingMessageQueue ∧
      (initializeSocket net s).1.m_mustExit = s.m_mustExit ∧
      (initializeSocket net s).1.m_batchsize = s.m_batchsize ∧
      (initializeSocket net s).1.m_batchingThread = s.m_batchingThread ∧
      (initializeSocket net s).1.m_socket = (initializeSocket net s).2 := by
  unfold initializeSocket
  split
  · exact ⟨rfl,rfl,rfl,rfl,rfl⟩
  · split
    · exact ⟨rfl,rfl,rfl,rfl,rfl⟩
    · split <;> exact ⟨rfl,rfl,rfl,rfl,rfl⟩

theorem new_fresh (net : Network) (host : Bytes) (port : UInt16) (batchsize sendInterval : UInt64) :
    Fresh (.new net host port batchsize sendInterval) ∧
      (UDPSender.new net host port batchsize sendInterval).m_batchsize = batchsize := by
  unfold UDPSender.new
  simp only
  split
  · exact ⟨⟨rfl,rfl,by simp⟩,rfl⟩
  · have keeps := initializeSocket_keeps net
      { m_host := host, m_port := port, m_batchsize := batchsize, m_sendInterval := sendInterval }
    split
    · rename_i s found
      rw [found] at keeps
      obtain ⟨queue,exit,size,thread,_⟩ := keeps
      simp only at thread
      exact ⟨⟨queue,exit,by simp [thread]⟩,size⟩
    · rename_i s found
      rw [found] at keeps
      obtain ⟨queue,exit,size,_,valid⟩ := keeps
      split
      · exact ⟨⟨queue,exit,fun _ => valid⟩,size⟩
      · exact ⟨⟨queue,exit,fun _ => valid⟩,size⟩

/-- What holds of an object constructed as `s`, whatever has been called. -/
structure Sound (s : UDPSender) (d : Sending) : Prop where
  batchsize : d.sender.m_batchsize = s.m_batchsize
  socket : d.sender.m_socket = s.m_socket
  server : d.sender.m_server = s.m_server
  thread : d.sender.m_batchingThread = true → s.m_batchingThread = true
  running : s.m_batchingThread = true → d.life = .alive ∨ d.life = .joining → d.sender.m_batchingThread = true
  idle : s.m_batchingThread = false → d.worker = .looking
  alive : d.life = .alive → d.sender.m_mustExit = false ∧ d.worker ≠ .returned
  joining : d.life = .joining → d.sender.m_mustExit = true ∧ d.flushing = false
  gone : d.life = .gone → s.m_batchingThread = true → d.worker = .returned

theorem Sound.start {s : UDPSender} (fresh : Fresh s) : Sound s (start s) :=
  ⟨rfl,rfl,rfl,id,fun running _ => running,fun _ => rfl,fun _ => ⟨fresh.exit,by simp [Sending.start]⟩,
    by simp [Sending.start],by simp [Sending.start]⟩

theorem Sound.step {s : UDPSender} {d d' : Sending} {a : Action} {out : List Event} (fresh : Fresh s)
    (sound : Sound s d) (moves : Moves d a d' out) : Sound s d' := by
  obtain ⟨batchsize,socket,server,thread,running,idle,alive,joining,gone⟩ := sound
  cases moves with
  | queued | direct | locked | unlocked | flushed =>
    exact ⟨batchsize,socket,server,thread,running,idle,alive,by simp_all,gone⟩
  | refused => exact ⟨batchsize,socket,server,thread,by simp,idle,by simp,by simp,by simp⟩
  | looked err has life stands =>
    refine ⟨batchsize,socket,server,thread,running,fun none => ?_,fun now => ?_,joining,fun ended => ?_⟩
    · rw [thread has] at none
      cases none
    · simp [(alive now).1]
    · rcases life with now | now <;> rw [now] at ended <;> cases ended
  | took err has life stands =>
    refine ⟨batchsize,socket,server,thread,running,fun none => ?_,fun now => ?_,joining,fun ended => ?_⟩
    · rw [thread has] at none
      cases none
    · exact ⟨(alive now).1,by simp⟩
    · rcases life with now | now <;> rw [now] at ended <;> cases ended
  | delivered front rest err text has life stands =>
    refine ⟨batchsize,socket,server,thread,running,fun none => ?_,fun now => ?_,joining,fun ended => ?_⟩
    · rw [thread has] at none
      cases none
    · exact ⟨(alive now).1,by simp⟩
    · rcases life with now | now <;> rw [now] at ended <;> cases ended
  | rested err has life stands =>
    refine ⟨batchsize,socket,server,thread,running,fun none => ?_,fun now => ?_,joining,fun ended => ?_⟩
    · rw [thread has] at none
      cases none
    · exact ⟨(alive now).1,by simp⟩
    · rcases life with now | now <;> rw [now] at ended <;> cases ended
  | woke err has life stands =>
    refine ⟨batchsize,socket,server,thread,running,fun _ => rfl,fun now => ?_,joining,fun ended => ?_⟩
    · exact ⟨(alive now).1,by simp⟩
    · rcases life with now | now <;> rw [now] at ended <;> cases ended
  | destroyed now _ closed =>
    refine ⟨batchsize,socket,server,thread,by simp,idle,by simp,by simp,fun _ has => ?_⟩
    rcases closed with closed | none
    · rw [socket,fresh.thread has] at closed
      cases closed
    · rw [running has (.inl now)] at none
      cases none
  | ending now free valid has =>
    exact ⟨batchsize,socket,server,thread,fun _ _ => has,idle,by simp,fun _ => ⟨rfl,free⟩,by simp⟩
  | joined now returned => exact ⟨batchsize,socket,server,by simp,by simp,idle,by simp,by simp,fun _ _ => returned⟩

theorem sound_run {s : UDPSender} (fresh : Fresh s) {acts : List Action} {d : Sending} {log : List Event}
    (run : Run step (start s) acts d log) : Sound s d :=
  run.invariant (fun d _ => Sound s d) (.start fresh) fun _ _ _ _ _ sound taken => sound.step fresh (step_moves taken)

/-- Only `flush` holds the mutex from one step to the next. -/
theorem unflushed_run {s : UDPSender} {acts : List Action} {d : Sending} {log : List Event}
    (run : Run step (start s) acts d log) (unflushed : Action.flush ∉ acts) : d.flushing = false := by
  induction run with
  | start => rfl
  | @next acts d d' log out a _ taken ih =>
    have before : d.flushing = false := ih fun member => unflushed (List.mem_append_left [a] member)
    cases step_moves taken with
    | locked => simp at unflushed
    | _ => simp [before]

/-! ### The way of the messages -/

/-- The way of the messages so far, where `r` relates the batches that have left
    the queue to the messages in them. -/
def Flowing (r : List Bytes → List Bytes → Prop) (d : Sending) (log : List Event) : Prop :=
  Batching.Flow r separator d.sender.m_batchsize.toNat (accepted log) (datagrams log) d.staged
    d.sender.m_batchingMessageQueue

theorem Flowing.start {r : List Bytes → List Bytes → Prop} (nothing : r [] []) {s : UDPSender} (fresh : Fresh s) :
    Flowing r (start s) [] := by
  show Batching.Flow r separator s.m_batchsize.toNat [] [] [] s.m_batchingMessageQueue
  rw [fresh.queue]
  exact .start nothing

theorem Flowing.step {r : List Bytes → List Bytes → Prop} {d d' : Sending} {log out : List Event} {a : Action}
    (flowing : Flowing r d log) (moves : Moves d a d' out) (batching : d.sender.m_batchsize ≠ 0)
    (add : ∀ a b c, r a b → r (a ++ c) (b ++ c))
    (insert : d.flushing = true → ∀ batch b, r (datagrams log ++ d.staged) b →
      r (datagrams log ++ batch :: d.staged) (b ++ [batch])) : Flowing r d' (log ++ out) := by
  unfold Flowing at flowing ⊢
  cases moves with
  | queued message => simpa [accepted,datagrams,staged] using Batching.Flow.push flowing message
  | direct message err text _ none => exact absurd none batching
  | took err _ _ stands =>
    have nothing : d.staged = [] := by simp [staged,stands]
    rw [nothing] at flowing
    simpa [accepted,datagrams,staged] using Batching.Flow.swap add flowing
  | delivered front rest err text _ _ stands =>
    have taken : d.staged = front :: rest := by simp [staged,stands]
    rw [taken] at flowing
    simpa [accepted,datagrams,staged] using Batching.Flow.deliver flowing
  | flushed front rest err text _ holding queue =>
    rw [queue] at flowing
    simpa [accepted,datagrams,staged] using Batching.Flow.take (insert holding front) flowing
  | looked err _ _ stands =>
    have same : staged { d with worker := if d.sender.m_mustExit then .returned else .swapping } = d.staged := by
      cases d.sender.m_mustExit <;> simp [staged,stands]
    simpa [accepted,datagrams,same] using flowing
  | rested err _ _ stands | woke err _ _ stands => simpa [accepted,datagrams,staged,stands] using flowing
  | refused | locked | unlocked | destroyed | ending | joined => simpa [accepted,datagrams,staged] using flowing

section
variable {net : Network} {host : Bytes} {port : UInt16} {batchsize sendInterval : UInt64} {acts : List Action}
variable {d : Sending} {log : List Event}

theorem flowing_perm (run : Run step (start (.new net host port batchsize sendInterval)) acts d log)
    (batching : batchsize ≠ 0) : d.sender.m_batchsize = batchsize ∧ Flowing List.Perm d log := by
  obtain ⟨fresh,size⟩ := new_fresh net host port batchsize sendInterval
  refine run.invariant (fun d log => d.sender.m_batchsize = batchsize ∧ Flowing List.Perm d log)
    ⟨size,.start .nil fresh⟩ ?_
  rintro d log a d' out ⟨same,flowing⟩ taken
  have moves := step_moves taken
  refine ⟨?_,flowing.step moves (by rw [same]; exact batching) (fun a b c perm => perm.append_right c) ?_⟩
  · cases moves <;> exact same
  · intro _ batch b perm
    exact (List.perm_middle.trans (perm.cons batch)).trans (List.perm_append_singleton batch b).symm

theorem flowing_eq (run : Run step (start (.new net host port batchsize sendInterval)) acts d log)
    (batching : batchsize ≠ 0) (unflushed : Action.flush ∉ acts) : Flowing Eq d log := by
  obtain ⟨fresh,size⟩ := new_fresh net host port batchsize sendInterval
  induction run with
  | start => exact .start rfl fresh
  | @next acts d d' log out a earlier taken ih =>
    have none : Action.flush ∉ acts := fun member => unflushed (List.mem_append_left [a] member)
    have free : d.flushing = false := unflushed_run earlier none
    have same : d.sender.m_batchsize ≠ 0 := by
      rw [(sound_run fresh earlier).batchsize,size]
      exact batching
    refine (ih none).step (step_moves taken) same (fun _ _ c same => congrArg (· ++ c) same) fun holding => ?_
    rw [free] at holding
    cases holding

/-- A sender that does not batch sends each message at once. -/
theorem unbatched_run (run : Run step (start (.new net host port 0 sendInterval)) acts d log) :
    datagrams log = accepted log ∧ d.staged = [] ∧ d.sender.m_batchingMessageQueue = [] := by
  obtain ⟨fresh,size⟩ := new_fresh net host port 0 sendInterval
  have idle : (UDPSender.new net host port 0 sendInterval).m_batchingThread = false := by
    unfold UDPSender.new
    simp only
    split
    · rfl
    · have keeps := initializeSocket_keeps net
        { m_host := host, m_port := port, m_batchsize := 0, m_sendInterval := sendInterval }
      split
      all_goals
        rename_i s found
        rw [found] at keeps
        obtain ⟨_,_,size,thread,_⟩ := keeps
        simp only at size thread
        simp [size,thread]
  induction run with
  | start => exact ⟨rfl,rfl,fresh.queue⟩
  | @next acts d d' log out a earlier taken ih =>
    have sound := sound_run fresh earlier
    obtain ⟨sent,nothing,empty⟩ := ih
    rw [datagrams_append,accepted_append,sent]
    cases step_moves taken with
    | queued message err _ some_size => exact absurd (sound.batchsize.trans size) some_size
    | refused message err _ some_size => exact absurd (sound.batchsize.trans size) some_size
    | direct => exact ⟨rfl,nothing,empty⟩
    | looked err has | took err has | delivered front rest err text has | rested err has | woke err has =>
      rw [sound.thread has] at idle
      cases idle
    | flushed front rest err text _ _ queue =>
      rw [empty] at queue
      cases queue
    | locked | unlocked | destroyed | ending | joined => exact ⟨rfl,nothing,empty⟩

/-- While nobody flushes, the lines that were sent, those that the thread has
    taken and those that are queued are the lines of the messages, in their order. -/
theorem lines_in_order (run : Run step (start (.new net host port batchsize sendInterval)) acts d log)
    (unflushed : Action.flush ∉ acts) :
    lines (datagrams log ++ d.staged ++ d.sender.m_batchingMessageQueue) = lines (accepted log) := by
  by_cases batching : batchsize = 0
  · subst batching
    obtain ⟨sent,nothing,empty⟩ := unbatched_run run
    rw [sent,nothing,empty,List.append_nil,List.append_nil]
  · exact (flowing_eq run batching unflushed).lines

/-- Whoever flushes, they are the same lines. -/
theorem lines_kept (run : Run step (start (.new net host port batchsize sendInterval)) acts d log) :
    (lines (datagrams log ++ d.staged ++ d.sender.m_batchingMessageQueue)).Perm (lines (accepted log)) := by
  by_cases batching : batchsize = 0
  · subst batching
    obtain ⟨sent,nothing,empty⟩ := unbatched_run run
    rw [sent,nothing,empty,List.append_nil,List.append_nil]
  · exact (flowing_perm run batching).2.lines_perm

/-- Whatever the batch size and the messages, no line is lost and none is sent
    twice; and the lines keep their order unless somebody flushes. -/
theorem lines_conserved (run : Run step (start (.new net host port batchsize sendInterval)) acts d log) :
    (lines (datagrams log ++ d.staged ++ d.sender.m_batchingMessageQueue)).Perm (lines (accepted log)) ∧
      (Action.flush ∉ acts →
        lines (datagrams log ++ d.staged ++ d.sender.m_batchingMessageQueue) = lines (accepted log)) :=
  ⟨lines_kept run,lines_in_order run⟩

/-- A `flush` overtakes the thread, which had taken the messages before. -/
def overtaken : List Action :=
  [.thread none,.send metricA none,.thread none,.send metricB none,.flush,.flushNext none,.flushNext none,.thread none]

theorem lines_conserved_overtaken : ∃ d log, Run step (start localSender) overtaken d log ∧
    datagrams log = [metricB,metricA] ∧
    (lines (datagrams log ++ d.staged ++ d.sender.m_batchingMessageQueue)).Perm (lines (accepted log)) := by
  have executed : (exec step (start localSender) overtaken).isSome = true := by decide +kernel
  have run := Run.of_isSome executed
  exact ⟨_,_,run,by decide +kernel,(lines_conserved run).1⟩

/-- Two messages in a batch, which is sent while a third one is queued. -/
def twoTaken : List Action :=
  [.thread none,.send metricA none,.send metricB none,.thread none,.send metricC none,.thread none]

/-- A datagram holds messages that follow each other, and was not longer than
    the batch size before the last of them. All queued batches but the last are
    longer than the batch size. -/
theorem datagram_sizes (run : Run step (start (.new net host port batchsize sendInterval)) acts d log)
    (batching : batchsize ≠ 0) :
    (∀ b ∈ datagrams log, ∃ before message, before ++ [message] <:+: accepted log ∧
      b = Batching.text separator (before ++ [message]) ∧
      (Batching.text separator before).length ≤ batchsize.toNat ∧
      b.length ≤ batchsize.toNat + 1 + message.length) ∧
    ∀ b ∈ d.sender.m_batchingMessageQueue.dropLast, batchsize.toNat < b.length := by
  obtain ⟨size,past,present,perm,whole,grouped,flat⟩ := flowing_perm run batching
  rw [size] at whole grouped
  refine ⟨?_,fun b member => grouped.closed_batch member⟩
  intro b sent
  obtain ⟨g,member,rfl⟩ := List.mem_map.mp (perm.subset (List.mem_append_left _ sent))
  obtain ⟨some_message,fits⟩ := whole g member
  obtain ⟨before,message,rfl⟩ := (List.eq_nil_or_concat g).resolve_left some_message
  rw [List.concat_eq_append] at member fits ⊢
  rw [List.dropLast_concat] at fits
  refine ⟨before,message,?_,rfl,fits,?_⟩
  · rw [← flat]
    obtain ⟨first,last,split⟩ := List.append_of_mem (List.mem_append_left present member)
    exact ⟨first.flatten,last.flatten,by rw [split]; simp⟩
  · rw [Batching.text_snoc]
    have bound := Batching.length_extend_le separator (Batching.text separator before) message
    omega

/-- The batch of two messages is longer than the batch size. -/
theorem datagram_sizes_twoTaken : ∃ d log, Run step (start localSender) twoTaken d log ∧
    ∀ b ∈ datagrams log, ∃ before message, before ++ [message] <:+: accepted log ∧
      b = Batching.text separator (before ++ [message]) ∧ (Batching.text separator before).length ≤ 8 ∧
      b.length ≤ 8 + 1 + message.length := by
  have executed : (exec step (start localSender) twoTaken).isSome = true := by decide +kernel
  have run := Run.of_isSome executed
  exact ⟨_,_,run,(datagram_sizes run (by decide)).1⟩

/-! ### What is lost at the end -/

/-- What is queued are the messages since the thread last took the queue. -/
theorem queue_leftOver (run : Run step (start (.new net host port batchsize sendInterval)) acts d log)
    (batching : batchsize ≠ 0) (unflushed : Action.flush ∉ acts) :
    ∃ groups, Batching.Groups separator d.sender.m_batchsize.toNat groups d.sender.m_batchingMessageQueue ∧
      groups.flatten = leftOver log := by
  obtain ⟨fresh,size⟩ := new_fresh net host port batchsize sendInterval
  induction run with
  | start =>
    refine ⟨[],?_,rfl⟩
    show Batching.Groups _ _ [] (UDPSender.new net host port batchsize sendInterval).m_batchingMessageQueue
    rw [fresh.queue]
    exact .nil
  | @next acts d d' log out a earlier taken ih =>
    have none : Action.flush ∉ acts := fun member => unflushed (List.mem_append_left [a] member)
    have free : d.flushing = false := unflushed_run earlier none
    obtain ⟨groups,grouped,flat⟩ := ih none
    cases step_moves taken with
    | queued message =>
      obtain ⟨groups',grouped',flat'⟩ := grouped.push message
      exact ⟨groups',grouped',by rw [flat',flat,leftOver_snoc]⟩
    | direct message err text _ zero =>
      rw [(sound_run fresh earlier).batchsize,size] at zero
      exact absurd zero batching
    | took => exact ⟨[],.nil,by simp [leftOver_snoc]⟩
    | delivered | refused => exact ⟨groups,grouped,by rw [leftOver_snoc]; exact flat⟩
    | flushed front rest err text _ holding =>
      rw [free] at holding
      cases holding
    | looked | rested | woke | locked | unlocked | destroyed | ending | joined =>
      exact ⟨groups,grouped,by rw [List.append_nil]; exact flat⟩

/-- Without a thread nothing is sent. -/
theorem datagrams_of_idle (run : Run step (start (.new net host port batchsize sendInterval)) acts d log)
    (batching : batchsize ≠ 0) (unflushed : Action.flush ∉ acts)
    (idle : (UDPSender.new net host port batchsize sendInterval).m_batchingThread = false) : datagrams log = [] := by
  obtain ⟨fresh,size⟩ := new_fresh net host port batchsize sendInterval
  induction run with
  | start => rfl
  | @next acts d d' log out a earlier taken ih =>
    have none : Action.flush ∉ acts := fun member => unflushed (List.mem_append_left [a] member)
    have sound := sound_run fresh earlier
    rw [datagrams_append,ih none]
    cases step_moves taken with
    | direct message err text _ zero =>
      rw [sound.batchsize,size] at zero
      exact absurd zero batching
    | delivered front rest err text has =>
      rw [sound.thread has] at idle
      cases idle
    | flushed front rest err text _ holding =>
      rw [unflushed_run earlier none] at holding
      cases holding
    | _ => rfl

/-- Once the object is gone, the lines that were sent are those of the messages
    before the thread last took the queue, and the others are never sent: all of
    them, where there is no thread. -/
theorem lost_at_exit (run : Run step (start (.new net host port batchsize sendInterval)) acts d log)
    (batching : batchsize ≠ 0) (unflushed : Action.flush ∉ acts) (gone : d.life = .gone) :
    lines (datagrams log) ++ lines (leftOver log) = lines (accepted log) ∧
      ((UDPSender.new net host port batchsize sendInterval).m_batchingThread = false →
        datagrams log = [] ∧ lines (leftOver log) = lines (accepted log)) := by
  have sound := sound_run (new_fresh net host port batchsize sendInterval).1 run
  have nothing : d.staged = [] := by
    cases has : (UDPSender.new net host port batchsize sendInterval).m_batchingThread with
    | true => simp [staged,sound.gone gone has]
    | false => simp [staged,sound.idle has]
  obtain ⟨groups,grouped,flat⟩ := queue_leftOver run batching unflushed
  have queued : lines d.sender.m_batchingMessageQueue = lines (leftOver log) := by
    rw [← flat,grouped.texts]
    exact Batching.flatMap_lines_map_text groups
  have kept := lines_in_order run unflushed
  rw [nothing,List.append_nil,lines_append,queued] at kept
  refine ⟨kept,fun idle => ?_⟩
  have none := datagrams_of_idle run batching unflushed idle
  rw [none] at kept
  exact ⟨none,kept⟩

/-- The destructor comes while a message is queued. -/
def cutShort : List Action := twoTaken ++ [.destroy,.thread none,.thread none,.thread none,.join]

theorem lost_at_exit_cutShort : ∃ d log, Run step (start localSender) cutShort d log ∧ leftOver log = [metricC] ∧
    lines (datagrams log) ++ lines (leftOver log) = lines (accepted log) := by
  have executed : (exec step (start localSender) cutShort).isSome = true := by decide +kernel
  have run := Run.of_isSome executed
  exact ⟨_,_,run,by decide +kernel,
    (lost_at_exit run (by decide) (by decide) (by decide +kernel)).1⟩

end

/-! ### The thread left to itself -/

/-- A number of steps of the thread, whatever the network answers, send these
    batches and lead to such a state. -/
def Sends (d : Sending) (n : Nat) (batches : List Bytes) (Ends : Sending → Prop) : Prop :=
  ∀ errs : List (Option Int), errs.length = n → ∃ d' out, exec step d (errs.map .thread) = some (d',out) ∧
    datagrams out = batches ∧ Ends d'

section
variable {Ends : Sending → Prop}

theorem Sends.nil {d : Sending} (ended : Ends d) : Sends d 0 [] Ends := by
  intro errs none
  rw [List.length_eq_zero_iff] at none
  subst none
  exact ⟨d,[],rfl,rfl,ended⟩

theorem Sends.cons {d : Sending} {n : Nat} (first : List Bytes) {rest : List Bytes}
    (stepped : ∀ err, ∃ d' out, step d (.thread err) = some (d',out) ∧ datagrams out = first ∧ Sends d' n rest Ends) :
    Sends d (n + 1) (first ++ rest) Ends := by
  intro errs length
  cases errs with
  | nil => cases length
  | cons err errs =>
    obtain ⟨d',out,taken,told,later⟩ := stepped err
    obtain ⟨last,log,executed,said,ended⟩ := later errs (by simpa using length)
    refine ⟨last,out ++ log,?_,by rw [datagrams_append,told,said],ended⟩
    simp only [List.map_cons,exec,taken,executed,Option.map_some]

/-- The thread may take a step. -/
structure Ready (d : Sending) : Prop where
  thread : d.sender.m_batchingThread = true
  life : d.life = .alive ∨ d.life = .joining
  free : d.flushing = false

theorem Ready.step {d : Sending} (ready : Ready d) (err : Option Int) : step d (.thread err) = d.runThread err :=
  if_pos ⟨ready.thread,ready.life⟩

/-- A state that differs in where the thread stands and in the error text. -/
structure Alike (d d' : Sending) : Prop where
  queue : d'.sender.m_batchingMessageQueue = d.sender.m_batchingMessageQueue
  exit : d'.sender.m_mustExit = d.sender.m_mustExit
  life : d'.life = d.life
  ready : Ready d'

theorem Alike.trans {d e f : Sending} (first : Alike d e) (second : Alike e f) : Alike d f :=
  ⟨second.queue.trans first.queue,second.exit.trans first.exit,second.life.trans first.life,second.ready⟩

/-- A step that sends nothing. -/
theorem Sends.idle {d d' : Sending} {n : Nat} {batches : List Bytes} (ready : Ready d)
    (taken : ∀ err, d.runThread err = some (d',[])) (later : Sends d' n batches Ends) :
    Sends d (n + 1) batches Ends :=
  Sends.cons [] fun err => ⟨d',[],(ready.step err).trans (taken err),rfl,later⟩

theorem sends_sending {d : Sending} {n : Nat} {batches rest : List Bytes} (ready : Ready d)
    (stands : d.worker = .sending batches)
    (later : ∀ d', Alike d d' → d'.worker = .sending [] → Sends d' n rest Ends) :
    Sends d (n + batches.length) (batches ++ rest) Ends := by
  induction batches generalizing d with
  | nil => exact later d ⟨rfl,rfl,rfl,ready⟩ stands
  | cons front batches ih =>
    refine Sends.cons [front] fun err => ?_
    obtain ⟨text,same⟩ := sendToDaemon_eq d.sender err
    have alike : Alike d { d with sender := sendToDaemon d.sender err, worker := .sending batches } := by
      rw [same]
      exact ⟨rfl,rfl,rfl,ready.thread,ready.life,ready.free⟩
    refine ⟨_,[.sendto d.sender.m_server front err],?_,rfl,
      ih alike.ready rfl fun d' further => later d' (alike.trans further)⟩
    rw [ready.step]
    simp only [runThread,stands]

/-- From sleep to the next look at whether it must exit. -/
theorem sends_sleeping {d : Sending} {n : Nat} {batches : List Bytes} (ready : Ready d) (stands : d.worker = .sleeping)
    (later : Sends { d with worker := .looking } n batches Ends) : Sends d (n + 1) batches Ends :=
  .idle ready (fun err => by simp only [runThread,stands]) later

/-- To the look from where all has been sent. -/
theorem sends_rested {d : Sending} {n : Nat} {batches : List Bytes} (ready : Ready d) (stands : d.worker = .sending [])
    (later : Sends { d with worker := .looking } n batches Ends) : Sends d (n + 2) batches Ends := by
  have sleeps : Sends { d with worker := .sleeping } (n + 1) batches Ends :=
    sends_sleeping ⟨ready.thread,ready.life,ready.free⟩ rfl later
  exact .idle ready (fun err => by simp only [runThread,stands]) sleeps

theorem sends_swapping {d : Sending} {n : Nat} {rest : List Bytes} (ready : Ready d) (stands : d.worker = .swapping)
    (later : ∀ d', d'.sender.m_batchingMessageQueue = [] → d'.sender.m_mustExit = d.sender.m_mustExit →
      d'.life = d.life → Ready d' → d'.worker = .sending [] → Sends d' n rest Ends) :
    Sends d (n + d.sender.m_batchingMessageQueue.length + 1) (d.sender.m_batchingMessageQueue ++ rest) Ends := by
  refine Sends.cons [] fun err => ?_
  have taken : step d (.thread err) = some ({ d with
      sender := { d.sender with m_batchingMessageQueue := [] }
      worker := .sending d.sender.m_batchingMessageQueue },[.took]) := by
    rw [ready.step]
    simp only [runThread,stands,ready.free,Bool.false_eq_true,↓reduceIte]
  refine ⟨_,_,taken,rfl,sends_sending ⟨ready.thread,ready.life,ready.free⟩ rfl fun d' alike rested => ?_⟩
  exact later d' alike.queue alike.exit alike.life alike.ready rested

end

/-- Nothing is left to send. -/
def Emptied (d : Sending) : Prop := d.staged = [] ∧ d.sender.m_batchingMessageQueue = []

theorem sends_taken {d : Sending} (ready : Ready d) (stands : d.worker = .swapping) :
    Sends d (d.sender.m_batchingMessageQueue.length + 1) d.sender.m_batchingMessageQueue Emptied := by
  have sends : Sends d (0 + d.sender.m_batchingMessageQueue.length + 1) (d.sender.m_batchingMessageQueue ++ [])
      Emptied := sends_swapping ready stands fun d' queue _ _ _ rested => .nil ⟨by simp [staged,rested],queue⟩
  simpa using sends

theorem sends_looking {d : Sending} (ready : Ready d) (stands : d.worker = .looking)
    (stays : d.sender.m_mustExit = false) :
    Sends d (d.sender.m_batchingMessageQueue.length + 2) d.sender.m_batchingMessageQueue Emptied := by
  have taken : Sends { d with worker := .swapping } (d.sender.m_batchingMessageQueue.length + 1)
      d.sender.m_batchingMessageQueue Emptied := sends_taken ⟨ready.thread,ready.life,ready.free⟩ rfl
  exact .idle ready (fun err => by simp [runThread,stands,stays]) taken

section
variable {net : Network} {host : Bytes} {port : UInt16} {batchsize sendInterval : UInt64} {acts : List Action}
variable {d : Sending} {log : List Event}

/-- While the object lives and nobody flushes, so many steps of the thread send
    all that it has taken and then all that is queued, in this order. -/
theorem drains (run : Run step (start (.new net host port batchsize sendInterval)) acts d log)
    (thread : (UDPSender.new net host port batchsize sendInterval).m_batchingThread = true) (alive : d.life = .alive)
    (free : d.flushing = false) :
    ∃ n ≤ d.staged.length + d.sender.m_batchingMessageQueue.length + 4,
      Sends d n (d.staged ++ d.sender.m_batchingMessageQueue) Emptied := by
  have sound := sound_run (new_fresh net host port batchsize sendInterval).1 run
  have ready : Ready d := ⟨sound.running thread (.inl alive),.inl alive,free⟩
  obtain ⟨stays,unreturned⟩ := sound.alive alive
  have looks : Sends { d with worker := .looking } (d.sender.m_batchingMessageQueue.length + 2)
      d.sender.m_batchingMessageQueue Emptied := sends_looking ⟨ready.thread,ready.life,ready.free⟩ rfl stays
  cases stands : d.worker with
  | looking =>
    refine ⟨d.sender.m_batchingMessageQueue.length + 2,by omega,?_⟩
    simpa [staged,stands] using sends_looking ready stands stays
  | swapping =>
    refine ⟨d.sender.m_batchingMessageQueue.length + 1,by omega,?_⟩
    simpa [staged,stands] using sends_taken ready stands
  | sleeping =>
    refine ⟨d.sender.m_batchingMessageQueue.length + 3,by omega,?_⟩
    simpa [staged,stands] using sends_sleeping ready stands looks
  | returned => exact absurd stands unreturned
  | sending batches =>
    have taken : d.staged = batches := by simp [staged,stands]
    rw [taken]
    refine ⟨d.sender.m_batchingMessageQueue.length + 4 + batches.length,by omega,
      sends_sending ready stands fun d' alike rested => ?_⟩
    have again := sends_looking (d := { d' with worker := .looking })
      ⟨alike.ready.thread,alike.ready.life,alike.ready.free⟩ rfl (alike.exit.trans stays)
    simp only [alike.queue] at again
    exact sends_rested alike.ready rested again

/-- From a batch half sent and a message queued. -/
theorem drains_twoTaken : ∃ d log, Run step (start localSender) twoTaken d log ∧ ∃ n ≤ 5,
    Sends d n (d.staged ++ d.sender.m_batchingMessageQueue) Emptied := by
  have executed : (exec step (start localSender) twoTaken).isSome = true := by decide +kernel
  have run := Run.of_isSome executed
  obtain ⟨n,bound,sends⟩ := drains run (by decide +kernel) (by decide +kernel) (by decide +kernel)
  exact ⟨_,_,run,n,le_trans bound (by decide +kernel),sends⟩

/-- The thread has returned, and the destructor waits for it. -/
def Returned (d : Sending) : Prop := d.worker = .returned ∧ d.life = .joining

theorem sends_exit {d : Sending} (ready : Ready d) (stands : d.worker = .looking)
    (exits : d.sender.m_mustExit = true) (joining : d.life = .joining) : Sends d 1 [] Returned := by
  have ended : Sends { d with worker := .returned } 0 [] Returned := .nil ⟨rfl,joining⟩
  exact .idle ready (fun err => by simp only [runThread,stands,exits,↓reduceIte]) ended

theorem sends_rest_exit {d : Sending} (ready : Ready d) (stands : d.worker = .sending [])
    (exits : d.sender.m_mustExit = true) (joining : d.life = .joining) : Sends d 3 [] Returned :=
  sends_rested ready stands (sends_exit ⟨ready.thread,ready.life,ready.free⟩ rfl exits joining)

/-- The destructor waits for so many steps of the thread, which sends what it has
    taken, and what is queued only where it is about to take it. -/
theorem destructor_ends (run : Run step (start (.new net host port batchsize sendInterval)) acts d log)
    (thread : (UDPSender.new net host port batchsize sendInterval).m_batchingThread = true) (joining : d.life = .joining) :
    ∃ n, ∀ errs : List (Option Int), errs.length = n → ∃ d' out,
      exec step d (errs.map .thread ++ [.join]) = some (d',out) ∧ d'.life = .gone ∧
        datagrams out = d.staged ++ if d.worker = .swapping then d.sender.m_batchingMessageQueue else [] := by
  have sound := sound_run (new_fresh net host port batchsize sendInterval).1 run
  obtain ⟨exits,free⟩ := sound.joining joining
  have ready : Ready d := ⟨sound.running thread (.inr joining),.inr joining,free⟩
  have sends : ∃ n, Sends d n (d.staged ++ if d.worker = .swapping then d.sender.m_batchingMessageQueue else [])
      Returned := by
    cases stands : d.worker with
    | looking => exact ⟨1,by simpa [staged,stands] using sends_exit ready stands exits joining⟩
    | swapping =>
      have sends : Sends d (3 + d.sender.m_batchingMessageQueue.length + 1) (d.sender.m_batchingMessageQueue ++ [])
          Returned := sends_swapping ready stands fun d' _ exit life ready rested =>
        sends_rest_exit ready rested (exit.trans exits) (life.trans joining)
      exact ⟨_,by simpa [staged,stands] using sends⟩
    | sleeping =>
      have looks : Sends { d with worker := .looking } 1 [] Returned :=
        sends_exit ⟨ready.thread,ready.life,ready.free⟩ rfl exits joining
      exact ⟨2,by simpa [staged,stands] using sends_sleeping ready stands looks⟩
    | returned =>
      have ended : Sends d 0 [] Returned := .nil ⟨stands,joining⟩
      exact ⟨0,by simpa [staged,stands] using ended⟩
    | sending batches =>
      have sends : Sends d (3 + batches.length) (batches ++ []) Returned :=
        sends_sending ready stands fun d' alike rested =>
          sends_rest_exit alike.ready rested (alike.exit.trans exits) (alike.life.trans joining)
      exact ⟨_,by simpa [staged,stands] using sends⟩
  obtain ⟨n,sends⟩ := sends
  refine ⟨n,fun errs length => ?_⟩
  obtain ⟨d',out,executed,told,returned,ended⟩ := sends errs length
  have joined : step d' .join =
      some ({ d' with sender := { d'.sender with m_batchingThread := false }, life := .gone },[]) :=
    if_pos ⟨ended,returned⟩
  exact ⟨_,_,exec_snoc executed joined,rfl,by rw [List.append_nil,told]⟩

/-- The destructor waits while a message is queued, which is not sent. -/
theorem destructor_ends_twoTaken : ∃ d log, Run step (start localSender) (twoTaken ++ [.destroy]) d log ∧
    d.sender.m_batchingMessageQueue = [metricC] ∧ ∃ n, ∀ errs : List (Option Int), errs.length = n → ∃ d' out,
      exec step d (errs.map .thread ++ [.join]) = some (d',out) ∧ d'.life = .gone ∧ datagrams out = [] := by
  have executed : (exec step (start localSender) (twoTaken ++ [.destroy])).isSome = true := by decide +kernel
  have run := Run.of_isSome executed
  obtain ⟨n,ends⟩ := destructor_ends run (by decide +kernel) (by decide +kernel)
  refine ⟨_,_,run,by decide +kernel,n,fun errs length => ?_⟩
  obtain ⟨d',out,taken,gone,told⟩ := ends errs length
  exact ⟨d',out,taken,gone,told.trans (by decide +kernel)⟩

/-! ### The end of the process -/

/-- The process is terminated exactly at the first message, and where no batch of
    the size configured can be reserved. -/
theorem terminated_iff (run : Run step (start (.new net host port batchsize sendInterval)) acts d log) :
    d.life = .terminated ↔
      batchsize ≠ 0 ∧ batchsize + 256 > max_size ∧ ∃ message err, Action.send message err ∈ acts := by
  obtain ⟨fresh,size⟩ := new_fresh net host port batchsize sendInterval
  -- nothing can be queued before the process ends
  suffices whole : (batchsize ≠ 0 ∧ batchsize + 256 > max_size → d.sender.m_batchingMessageQueue = []) ∧
      (d.life = .terminated ↔
        batchsize ≠ 0 ∧ batchsize + 256 > max_size ∧ ∃ message err, Action.send message err ∈ acts) from whole.2
  induction run with
  | start => exact ⟨fun _ => fresh.queue,by simp [start]⟩
  | @next acts d d' log out a earlier taken ih =>
    have same : d.sender.m_batchsize = batchsize := (sound_run fresh earlier).batchsize.trans size
    obtain ⟨empty,ended⟩ := ih
    cases step_moves taken with
    | queued message err alive some_size free fits =>
      rw [same] at some_size fits
      rw [alive] at ended
      have short : ¬ batchsize + 256 > max_size := fun long =>
        absurd (fits (empty ⟨some_size,long⟩)) (UInt64.not_le.mpr long)
      exact ⟨fun long => absurd long.2 short,by simp [alive,short]⟩
    | refused message err alive some_size long =>
      rw [same] at some_size long
      exact ⟨empty,by simpa [some_size,long] using ⟨message,err,.inr ⟨rfl,rfl⟩⟩⟩
    | direct message err text alive zero =>
      rw [same] at zero
      exact ⟨empty,by simp [alive,zero]⟩
    | took => exact ⟨fun _ => rfl,by simpa using ended⟩
    | flushed front rest err text alive _ queue =>
      refine ⟨fun long => ?_,by simpa using ended⟩
      rw [empty long] at queue
      cases queue
    | looked | delivered | rested | woke | locked | unlocked => exact ⟨empty,by simpa using ended⟩
    | destroyed alive | ending alive =>
      rw [alive] at ended
      exact ⟨empty,by simpa using ended⟩
    | joined joining =>
      rw [joining] at ended
      exact ⟨empty,by simpa using ended⟩

end

end Facade.Sending
