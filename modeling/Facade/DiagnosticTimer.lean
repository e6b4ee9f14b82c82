import Mathlib.Data.List.Nodup
import Facade.ServerSession

/-!
The diagnostic timer of a session. Each write arms a wait of its own, but one flag
tells all of their handlers whether the write is over, and the next write resets it.

`stale_timer_iff` says in which runs the timer closes the socket only during the
write it was armed for.
-/
namespace Facade.HttpServerSession
open Strings Http

/-- The operations in flight, the waits on the timer left out. -/
def inFlight (s : HttpServerSession) : Nat := s.reads + s.serving + s.writes.length

/-- The `write`-th write was started and its handler has not run. -/
def InProgress (s : HttpServerSession) (write : Nat) : Prop :=
  s.writes_started ≤ write + s.writes.length ∧ write < s.writes_started

instance (s : HttpServerSession) (write : Nat) : Decidable (s.InProgress write) := inferInstanceAs (Decidable (_ ∧ _))

/-- The wait armed for a write has expired with its handler still to run, while a
    later write is under way on an open socket. -/
structure Stale (s : HttpServerSession) (write : Nat) : Prop where
  expired : Wait.mk write .expired ∈ s.waits
  later : write + 1 < s.writes_started
  underway : s.current_write_op_completed = false
  opened : s.socket_open = true

/-- The waits belong to different writes that were started. -/
structure Armed (s : HttpServerSession) : Prop where
  started : ∀ write ∈ s.waits.map Wait.write, write < s.writes_started
  distinct : (s.waits.map Wait.write).Nodup

/-- While the flag is down, the last write that was started is in flight. -/
structure Timed (s : HttpServerSession) : Prop extends Armed s where
  busy : s.current_write_op_completed = false → s.writes_started = 0 ∨ s.writes ≠ []

/-- A handler that ran with `n` operations in flight leaves at most one more. -/
structure Leaves (n : Nat) (t : HttpServerSession) : Prop extends Timed t where
  one : t.inFlight ≤ n + 1

theorem cancelWaits_write (waits : List Wait) : (cancelWaits waits).map Wait.write = waits.map Wait.write := by
  unfold cancelWaits
  rw [List.map_map]
  apply List.map_congr_left
  intro w _
  simp only [Function.comp_apply]
  split <;> rfl

theorem expireWait_write (write : Nat) (waits : List Wait) :
    (expireWait write waits).map Wait.write = waits.map Wait.write := by
  unfold expireWait
  rw [List.map_map]
  apply List.map_congr_left
  intro w _
  simp only [Function.comp_apply]
  split <;> rfl

section
variable {s t : HttpServerSession}

/-- A change that leaves the waits with their writes. -/
theorem Armed.frame (armed : Armed s) (waits : t.waits.map Wait.write = s.waits.map Wait.write)
    (count : t.writes_started = s.writes_started) : Armed t := by
  refine ⟨?_,?_⟩
  · rw [waits,count]
    exact armed.started
  · rw [waits]
    exact armed.distinct

theorem leaves_do_close (armed : Armed s) : Leaves s.inFlight (do_close s).1 := by
  unfold do_close
  simp only
  split
  · exact ⟨⟨armed.frame (cancelWaits_write _) rfl,by simp⟩,Nat.le_succ _⟩
  · exact ⟨⟨armed.frame (cancelWaits_write _) rfl,by simp⟩,Nat.le_succ _⟩

theorem leaves_do_read (timed : Timed s) (now : Int) : Leaves s.inFlight (do_read now s).1 := by
  refine ⟨⟨timed.toArmed.frame rfl rfl,timed.busy⟩,?_⟩
  simp only [do_read,inFlight]
  omega

theorem leaves_do_write (timed : Timed s) : Leaves s.inFlight (do_write s).1 := by
  unfold do_write
  split
  · exact ⟨⟨timed.toArmed.frame rfl rfl,timed.busy⟩,Nat.le_succ _⟩
  · rename_i res rest queued
    simp only
    split
    · refine ⟨⟨⟨?_,?_⟩,?_⟩,?_⟩
      · simp only [List.map_append,cancelWaits_write]
        intro write member
        rcases List.mem_append.mp member with old | new
        · have earlier := timed.started write old
          omega
        · have this_one : write = s.writes_started := by simpa using new
          omega
      · simp only [List.map_append,cancelWaits_write]
        refine List.nodup_append.mpr ⟨timed.distinct,by simp,?_⟩
        intro write old fresh new
        have earlier := timed.started write old
        have this_one : fresh = s.writes_started := by simpa using new
        omega
      · exact fun _ => .inr (by simp)
      · simp only [inFlight,List.length_append,List.length_singleton]
        omega
    · have closed : Armed { s with response_queue := [], write_in_progress := false } := timed.toArmed.frame rfl rfl
      exact leaves_do_close closed

theorem Timed.frame (timed : Timed s) (waits : t.waits = s.waits) (count : t.writes_started = s.writes_started)
    (flag : t.current_write_op_completed = s.current_write_op_completed) (writes : t.writes = s.writes) : Timed t := by
  refine ⟨timed.toArmed.frame (by rw [waits]) count,?_⟩
  rw [flag,count,writes]
  exact timed.busy

theorem leaves_send_response (timed : Timed s) (opt_res : Option Response) (now : Int) :
    Leaves s.inFlight (send_response opt_res now s).1 := by
  unfold send_response
  cases opt_res with
  | none =>
    simp only
    split
    · exact ⟨timed,Nat.le_succ _⟩
    · split
      · exact leaves_do_read timed now
      · exact leaves_do_close timed.toArmed
  | some res =>
    simp only
    have space : Timed (make_space s).1 ∧ (make_space s).1.inFlight = s.inFlight := by
      unfold make_space
      split
      · exact ⟨timed.frame rfl rfl rfl rfl,rfl⟩
      · exact ⟨timed,rfl⟩
    obtain ⟨kept,same⟩ := space
    rw [← same]
    have queued : Timed { (make_space s).1 with response_queue := (make_space s).1.response_queue ++ [res] } :=
      kept.frame rfl rfl rfl rfl
    split
    · exact ⟨queued,Nat.le_succ _⟩
    · exact leaves_do_write queued

theorem leaves_handle_request (timed : Timed s) (req : Request) (now : Int) :
    Leaves s.inFlight (handle_request req now s).1 := by
  unfold handle_request
  split
  · split
    · refine ⟨timed.frame rfl rfl rfl rfl,?_⟩
      simp only [inFlight]
      omega
    · split
      · exact leaves_send_response timed _ now
      · exact leaves_send_response timed _ now
  · exact leaves_send_response timed _ now

theorem leaves_on_read (timed : Timed s) (result : Except ErrorCode Request) (now : Int) :
    Leaves s.inFlight (on_read result now s).1 := by
  cases result with
  | error ec => exact leaves_do_close timed.toArmed
  | ok req =>
    have read : Timed { s with req := req } := timed.frame rfl rfl rfl rfl
    exact leaves_handle_request read req now

theorem leaves_write_done (timed : Timed s) (keep_alive : Bool) (now : Int) :
    Leaves s.inFlight (write_done keep_alive now s).1 := by
  unfold write_done
  simp only
  split
  · have popped : Timed { s with response_queue := s.response_queue.tail } := timed.frame rfl rfl rfl rfl
    exact leaves_do_write popped
  · have idle : Timed { s with response_queue := s.response_queue.tail, write_in_progress := false } :=
      timed.frame rfl rfl rfl rfl
    split
    · exact leaves_do_read idle now
    · exact leaves_do_close idle.toArmed

/-- The flag is set before anything else, so that the write that is over need not
    be in flight. -/
theorem leaves_on_write (armed : Armed s) (keep_alive : Bool) (ec : Option ErrorCode) (now : Int) :
    Leaves s.inFlight (on_write keep_alive ec now s).1 := by
  have marked : Timed { s with current_write_op_completed := true, waits := cancelWaits s.waits } :=
    ⟨armed.frame (cancelWaits_write _) rfl,by simp⟩
  unfold on_write
  simp only
  split
  · exact leaves_do_close marked.toArmed
  · cases ec with
    | some e =>
      have cleared : Armed { s with
          current_write_op_completed := true, waits := cancelWaits s.waits, response_queue := [],
          write_in_progress := false } := marked.toArmed.frame rfl rfl
      exact leaves_do_close cleared
    | none => exact leaves_write_done marked keep_alive now

end

/-- A wait whose handler runs is one of the waits. -/
theorem Armed.erase {s : HttpServerSession} (armed : Armed s) (w : Wait) : Armed { s with waits := s.waits.erase w } := by
  have fewer : ((s.waits.erase w).map Wait.write).Sublist (s.waits.map Wait.write) := List.erase_sublist.map _
  exact ⟨fun write member => armed.started write (fewer.subset member),armed.distinct.sublist fewer⟩

/-- The waits are told apart by their writes. -/
theorem Armed.find_wait {s : HttpServerSession} (armed : Armed s) {w w' : Wait} {write : Nat} (inside : w ∈ s.waits)
    (for_write : w.write = write)
    (found : s.waits.find? (fun w => w.write = write ∧ w.status ≠ .waiting) = some w') : w' = w := by
  have about := List.find?_some found
  simp only [ne_eq,Bool.decide_and,decide_not,Bool.and_eq_true,decide_eq_true_eq] at about
  exact List.inj_on_of_nodup_map armed.distinct (List.mem_of_find?_eq_some found) inside (by rw [about.1,for_write])

/-- The invariant of a session: one operation in flight at most. -/
structure OneAtATime (s : HttpServerSession) : Prop extends Timed s where
  single : s.inFlight ≤ 1

theorem Leaves.one_at_a_time {n : Nat} {t : HttpServerSession} (left : Leaves n t) (none_else : n = 0) :
    OneAtATime t := ⟨left.toTimed,by have := left.one; omega⟩

theorem oneAtATime_step {s s' : HttpServerSession} {out : List Event} {a : Action} (one : OneAtATime s)
    (taken : step s a = some (s',out)) : OneAtATime s' := by
  have single := one.single
  have timed := one.toTimed
  unfold inFlight at single
  cases a with
  | read result now =>
    cases pending : s.reads with
    | zero => simp [step,pending] at taken
    | succ reads =>
      simp only [step,pending,Option.some.injEq] at taken
      obtain ⟨rfl,rfl⟩ := Prod.mk.inj taken
      have read : Timed { s with reads := reads } := timed.frame rfl rfl rfl rfl
      exact (leaves_on_read read result now).one_at_a_time (by simp only [inFlight]; omega)
  | answer opt_res now =>
    cases pending : s.serving with
    | zero => simp [step,pending] at taken
    | succ serving =>
      simp only [step,pending,Option.some.injEq] at taken
      obtain ⟨rfl,rfl⟩ := Prod.mk.inj taken
      have served : Timed { s with serving := serving } := timed.frame rfl rfl rfl rfl
      exact (leaves_send_response served opt_res now).one_at_a_time (by simp only [inFlight]; omega)
  | written ec now =>
    cases pending : s.writes with
    | nil => simp [step,pending] at taken
    | cons res writes =>
      simp only [step,pending,Option.some.injEq] at taken
      obtain ⟨rfl,rfl⟩ := Prod.mk.inj taken
      have ended : Armed { s with writes := writes } := timed.toArmed.frame rfl rfl
      rw [pending,List.length_cons] at single
      exact (leaves_on_write ended res.keep_alive ec now).one_at_a_time (by simp only [inFlight]; omega)
  | stop =>
    simp only [step,Option.some.injEq] at taken
    obtain ⟨rfl,rfl⟩ := Prod.mk.inj taken
    exact ⟨⟨timed.toArmed.frame (cancelWaits_write _) rfl,by simp [stop]⟩,one.single⟩
  | expire write =>
    simp only [step,Option.some.injEq] at taken
    obtain ⟨rfl,rfl⟩ := Prod.mk.inj taken
    exact ⟨⟨timed.toArmed.frame (expireWait_write _ _) rfl,timed.busy⟩,one.single⟩
  | timer write =>
    simp only [step] at taken
    split at taken
    · cases taken
    · rename_i w found
      have after := congrArg Prod.fst (Option.some.inj taken)
      rw [on_diagnostic_timer_fst] at after
      subst after
      exact ⟨⟨(timed.toArmed.erase w).frame rfl rfl,timed.busy⟩,one.single⟩

theorem oneAtATime_started (backendify_service : Bool) (max_response_queue_size : Int32) (stopped : Bool) (now : Int) :
    OneAtATime (started backendify_service max_response_queue_size stopped now) := by
  cases stopped
  · exact ⟨⟨⟨by simp [started,new,do_read],by simp [started,new,do_read]⟩,fun _ => .inl rfl⟩,Nat.le_refl 1⟩
  · exact ⟨⟨⟨by simp [started,new,do_read,stop,cancelWaits],by simp [started,new,do_read,stop,cancelWaits]⟩,
      fun _ => .inl rfl⟩,Nat.le_refl 1⟩

theorem oneAtATime_run {backendify_service : Bool} {max_response_queue_size : Int32} {stopped : Bool} {now : Int}
    {actions : List Action} {s : HttpServerSession} {log : List Event}
    (run : Runs.Run step (started backendify_service max_response_queue_size stopped now) actions s log) :
    OneAtATime s :=
  run.invariant (fun s _ => OneAtATime s) (oneAtATime_started _ _ _ _) fun _ _ _ _ _ one taken => oneAtATime_step one taken

/-- The handler of a wait closes the socket exactly when the wait has expired, the
    flag is down and the socket is open. -/
theorem timer_closes_iff {s : HttpServerSession} (armed : Armed s) (write : Nat) :
    (∃ s' out, step s (.timer write) = some (s',out) ∧ s.socket_open = true ∧ s'.socket_open = false) ↔
      Wait.mk write .expired ∈ s.waits ∧ s.current_write_op_completed = false ∧ s.socket_open = true := by
  simp only [step]
  constructor
  · rintro ⟨s',out,taken,opened,closed⟩
    split at taken
    · cases taken
    · rename_i w found
      have after := congrArg Prod.fst (Option.some.inj taken)
      rw [on_diagnostic_timer_fst] at after
      subst after
      have inside := List.mem_of_find?_eq_some found
      have about := List.find?_some found
      simp only [ne_eq,Bool.decide_and,decide_not,Bool.and_eq_true,decide_eq_true_eq] at about
      simp only [opened,Bool.true_and,Bool.or_eq_false_iff,Option.isSome_eq_false_iff,Option.isNone_iff_eq_none] at closed
      obtain ⟨underway,ended⟩ := closed
      have expired : w.status = .expired := by
        by_contra cancelled
        simp [cancelled] at ended
      have this_wait : w = ⟨write,.expired⟩ := by
        obtain ⟨id,status⟩ := w
        simp only at about expired
        rw [about.1,expired]
      exact ⟨this_wait ▸ inside,underway,opened⟩
  · rintro ⟨inside,underway,opened⟩
    cases found : s.waits.find? (fun w => w.write = write ∧ w.status ≠ .waiting) with
    | none =>
      have absent := List.find?_eq_none.mp found _ inside
      simp at absent
    | some w =>
      have same := armed.find_wait inside rfl found
      subst same
      simp only [if_true]
      cases handled : on_diagnostic_timer write none { s with waits := s.waits.erase ⟨write,.expired⟩ } with
      | mk s' out =>
        have after := congrArg Prod.fst handled
        rw [on_diagnostic_timer_fst] at after
        subst after
        exact ⟨_,out,rfl,opened,by simp [underway]⟩

/-- In a run of a session the diagnostic timer closes the socket only while the write
    it was armed for is in progress, exactly when no handler of a wait that expired
    during an earlier write runs while a later one is under way. -/
theorem stale_timer_iff (backendify_service : Bool) (max_response_queue_size : Int32) (stopped : Bool) (now : Int)
    (actions : List Action) :
    (∀ s log write s' out,
      Runs.Takes step (started backendify_service max_response_queue_size stopped now) actions s log (.timer write) →
      step s (.timer write) = some (s',out) → s.socket_open = true → s'.socket_open = false → s.InProgress write) ↔
    (∀ s log write,
      Runs.Takes step (started backendify_service max_response_queue_size stopped now) actions s log (.timer write) →
      ¬ Stale s write) := by
  constructor
  · intro punctual s log write takes stale
    obtain ⟨before,run⟩ := takes.run
    have one := oneAtATime_run run
    obtain ⟨s',out,taken,opened,closed⟩ :=
      (timer_closes_iff one.toArmed write).mpr ⟨stale.expired,stale.underway,stale.opened⟩
    have progress := (punctual s log write s' out takes taken opened closed).1
    have later := stale.later
    have single := one.single
    unfold inFlight at single
    omega
  · intro fresh s log write s' out takes taken opened closed
    obtain ⟨before,run⟩ := takes.run
    have one := oneAtATime_run run
    obtain ⟨expired,underway,_⟩ := (timer_closes_iff one.toArmed write).mp ⟨s',out,taken,opened,closed⟩
    have started : write < s.writes_started := one.started write (List.mem_map_of_mem expired)
    have last : ¬ write + 1 < s.writes_started := fun later => fresh s log write takes ⟨expired,later,underway,opened⟩
    have flying : s.writes ≠ [] := by
      rcases one.busy underway with unstarted | flying
      · omega
      · exact flying
    have length := List.length_pos_iff.mpr flying
    exact ⟨by omega,started⟩

/-- A client that sends two requests: the timer of the first write expires just before
    its handler runs, and is handled during the second write. -/
def statusRequest : Request := { Request.empty with target := lit "/status" }

def lateTimer : List Action :=
  [.read (.ok statusRequest) 1,.expire 0,.written none 2,.read (.ok statusRequest) 3,.timer 0]

theorem late_timer_closes : ∃ s log s' out,
    Runs.Takes step (started true 10 false 0) lateTimer s log (.timer 0) ∧ step s (.timer 0) = some (s',out) ∧
      s.socket_open = true ∧ s'.socket_open = false ∧ ¬ s.InProgress 0 := by
  have run : Runs.Run step (started true 10 false 0) lateTimer.dropLast _ _ := Runs.Run.of_isSome (by decide +kernel)
  have takes := (⟨_,[],rfl,run⟩ : Runs.Takes step (started true 10 false 0) lateTimer _ _ (.timer 0))
  have closes := (timer_closes_iff (oneAtATime_run run).toArmed 0).mpr (by decide +kernel)
  obtain ⟨s',out,taken,opened,closed⟩ := closes
  exact ⟨_,_,s',out,takes,taken,opened,closed,by decide +kernel⟩

end Facade.HttpServerSession
