import Facade.Http
import Facade.Runs

/-!
`BeastHttpServer` of src/core/BeastHttpServer.hpp and .cpp: one accept in flight at
a time, and a session for each connection. Cancelling the acceptor ends an accept
that is still waiting with `operation_aborted`; one that had ended keeps its result,
and an accept on a closed acceptor ends with another error at once.

`stop_quiet_iff` says when nothing happens any more after `stop`.
-/
namespace Facade
open Http

/-- An accept that was started and whose handler has not run. -/
inductive Accept
  | waiting
  | ended (ec : Option ErrorCode)
deriving DecidableEq,Repr

/-- The server. Sessions are named in the order of their creation. -/
structure BeastHttpServer where
  acceptor_open : Bool
  accept : Option Accept
  active_sessions : List Nat
  /-- The number of sessions created so far. -/
  created : Nat
  /-- The sessions that have not called back `on_session_finish`. -/
  unfinished : List Nat
deriving DecidableEq,Repr

namespace BeastHttpServer

/-- What an observer of the server sees. -/
inductive Event
  | accepting
  | created (session : Nat)
  | running (session : Nat)
  | stopping (session : Nat)
deriving DecidableEq,Repr

/-- The constructor, whose acceptor listens. -/
def new : BeastHttpServer := ⟨true,none,[],0,[]⟩

/-- `net::error::bad_descriptor`, the result of an accept on a closed acceptor. -/
def bad_descriptor : ErrorCode := .other 9

def do_accept (s : BeastHttpServer) : BeastHttpServer × List Event :=
  ({ s with accept := some (if s.acceptor_open then .waiting else .ended (some bad_descriptor)) },[.accepting])

def run (s : BeastHttpServer) : BeastHttpServer × List Event := do_accept s

def stop (s : BeastHttpServer) : BeastHttpServer × List Event :=
  -- `acceptor_.cancel()`
  let accept := if s.accept = some .waiting then some (.ended (some .operation_aborted)) else s.accept
  ({ s with accept := accept, acceptor_open := false, active_sessions := [] },s.active_sessions.map .stopping)

def on_accept (ec : Option ErrorCode) (s : BeastHttpServer) : BeastHttpServer × List Event :=
  match ec with
  | some e => if e ≠ .operation_aborted then do_accept s else (s,[])
  | none =>
    let session := s.created
    let s := { s with
      created := session + 1, active_sessions := session :: s.active_sessions, unfinished := session :: s.unfinished }
    let (s,out) := do_accept s
    (s,.created session :: .running session :: out)

def on_session_finish (session : Nat) (s : BeastHttpServer) : BeastHttpServer × List Event :=
  ({ s with active_sessions := s.active_sessions.erase session },[])

/-- What can happen to a server: the accept in flight ends, its handler runs, a
    session finishes, `stop` is called. -/
inductive Action
  | ends (ec : Option ErrorCode)
  | accepted
  | finish (session : Nat)
  | stop
deriving DecidableEq,Repr

def step (s : BeastHttpServer) : Action → Option (BeastHttpServer × List Event)
  | .ends ec => if s.accept = some .waiting then some ({ s with accept := some (.ended ec) },[]) else none
  | .accepted =>
    match s.accept with
    | some (.ended ec) => some (on_accept ec { s with accept := none })
    | _ => none
  | .finish session =>
    if session ∈ s.unfinished then
      some (on_session_finish session { s with unfinished := s.unfinished.erase session })
    else none
  | .stop => some (stop s)

/-- The server as `run` leaves it. -/
def launched : BeastHttpServer := (run new).1

/-- From a state on, no session is active, created or run, and no accept is started. -/
def StaysQuiet (s : BeastHttpServer) : Prop :=
  ∀ actions t log, Runs.Run step s actions t log →
    t.active_sessions = [] ∧ ∀ e ∈ log, e ≠ .accepting ∧ ∀ session, e ≠ .created session ∧ e ≠ .running session

/-- No handler of an accept is due that does more than return. -/
structure Idle (s : BeastHttpServer) : Prop where
  empty : s.active_sessions = []
  aborted : ∀ a, s.accept = some a → a = .ended (some .operation_aborted)

theorem idle_step {s s' : BeastHttpServer} {a : Action} {out : List Event} (idle : Idle s)
    (taken : step s a = some (s',out)) : Idle s' ∧ out = [] := by
  cases a with
  | ends ec =>
    simp only [step,Option.ite_none_right_eq_some] at taken
    obtain ⟨waiting,-⟩ := taken
    cases idle.aborted _ waiting
  | accepted =>
    simp only [step] at taken
    split at taken
    · rename_i ec ended
      have abort := idle.aborted _ ended
      rw [Accept.ended.injEq] at abort
      subst abort
      simp only [on_accept,ne_eq,not_true_eq_false,if_false,Option.some.injEq,Prod.mk.injEq] at taken
      obtain ⟨rfl,rfl⟩ := taken
      exact ⟨⟨idle.empty,by simp⟩,rfl⟩
    · cases taken
  | finish session =>
    simp only [step,on_session_finish,Option.ite_none_right_eq_some,Option.some.injEq,Prod.mk.injEq] at taken
    obtain ⟨-,rfl,rfl⟩ := taken
    exact ⟨⟨by simp [idle.empty],idle.aborted⟩,rfl⟩
  | stop =>
    simp only [step,stop,Option.some.injEq,Prod.mk.injEq] at taken
    obtain ⟨rfl,rfl⟩ := taken
    refine ⟨⟨rfl,?_⟩,by simp [idle.empty]⟩
    intro a pending
    simp only at pending
    split at pending
    · rename_i waiting
      cases idle.aborted _ waiting
    · exact idle.aborted a pending

theorem idle_stays_quiet {s : BeastHttpServer} (idle : Idle s) : StaysQuiet s := by
  intro actions t log run
  have kept : Idle t ∧ log = [] := by
    refine run.invariant (fun t log => Idle t ∧ log = []) ⟨idle,rfl⟩ ?_
    rintro u log a u' out ⟨calm,rfl⟩ taken
    obtain ⟨calm',rfl⟩ := idle_step calm taken
    exact ⟨calm',rfl⟩
  obtain ⟨calm,rfl⟩ := kept
  exact ⟨calm.empty,by simp⟩

/-- An accept that ended otherwise than by an abort makes noise when it is handled. -/
theorem not_quiet {s : BeastHttpServer} {ec : Option ErrorCode} (ended : s.accept = some (.ended ec))
    (other : ec ≠ some .operation_aborted) : ¬ StaysQuiet s := by
  intro quiet
  have taken : step s .accepted = some (on_accept ec { s with accept := none }) := by simp [step,ended]
  have silent := (quiet _ _ _ (Runs.Run.next .start taken)).2 .accepting
  cases ec with
  | none => simp [do_accept] at silent
  | some e =>
    have unaborted : e ≠ .operation_aborted := fun same => other (by rw [same])
    simp [do_accept,unaborted] at silent

/-- After `stop` nothing happens any more exactly when no accept had ended, other than
    by an abort, with its handler still to run. -/
theorem stop_quiet_iff (s : BeastHttpServer) :
    StaysQuiet (stop s).1 ↔ ∀ ec, s.accept = some (.ended ec) → ec = some .operation_aborted := by
  constructor
  · intro quiet ec ended
    by_contra other
    have kept : (stop s).1.accept = some (.ended ec) := by simp [stop,ended]
    exact not_quiet kept other quiet
  · intro aborted
    apply idle_stays_quiet
    refine ⟨rfl,?_⟩
    intro a pending
    simp only [stop] at pending
    split at pending
    · simpa using pending.symm
    · rename_i settled
      cases a with
      | waiting => exact absurd pending settled
      | ended ec => rw [aborted ec pending]

/-- A server whose accept has succeeded, with the handler still to run. -/
def acceptedServer : BeastHttpServer := ⟨true,some (.ended none),[],0,[]⟩

/-- When `stop` comes then, the handler creates a session, runs it and starts another
    accept. -/
theorem accepted_before_stop : Runs.Run step launched [.ends none] acceptedServer [] ∧
    (∃ t, Runs.Run step (stop acceptedServer).1 [.accepted] t [.created 0,.running 0,.accepting] ∧
      t.active_sessions = [0]) ∧
    ¬ StaysQuiet (stop acceptedServer).1 := by
  have kept : (stop acceptedServer).1.accept = some (.ended none) := rfl
  exact ⟨Runs.Run.of_exec rfl,⟨_,Runs.Run.of_exec rfl,rfl⟩,not_quiet kept (by decide)⟩

end BeastHttpServer
end Facade
