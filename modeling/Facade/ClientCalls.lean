import Mathlib.Data.Finset.Basic
import Mathlib.Data.Finset.Lattice.Lemmas
import Mathlib.Data.Finset.Range
import Mathlib.Data.Finset.SDiff
import Facade.ClientSession

/-!
The backend calls of `Backendify` (src/core/Backendify.cpp): `callBackendApi`
starts a session for a call and puts it into `active_client_sessions_`, the
handler it passes as `on_complete_` is to take it out again, and
`cancel_active_backend_calls` cancels all that are in. A session is named by
the number of sessions made before it.
-/
namespace Facade
open Strings Http

/-- `BACKEND_PATH`. -/
def BACKEND_PATH : Bytes := lit "/companies/"

/-- A session with the `weak_ptr` that its `on_complete_` captured. -/
structure ClientCall where
  session : AsyncHttpClientSession
  session_to_remove_on_complete : Option Nat
deriving DecidableEq,Repr

structure ClientCalls where
  calls : List ClientCall
  active_client_sessions : Finset Nat
  /-- Callbacks posted to the `io_context` with an error. -/
  posted : List ErrorCode
deriving DecidableEq

namespace ClientCalls

def empty : ClientCalls := ⟨[],∅,[]⟩

inductive Event
  | started (id : Nat)
  | session (id : Nat) (event : AsyncHttpClientSession.Event)
  | callback (res : Response) (ec : Option ErrorCode)
deriving DecidableEq,Repr

/-- The time allowed for a call, in milliseconds. -/
def timeout_ms (config : AppConfig) : Int :=
  (config.connection_timeout_in_microseconds.toInt + config.read_request_timeout_in_microseconds.toInt).tdiv 1000 + 200

def callBackendApi (config : AppConfig) (backendUrlInfo : Option BackendUrlInfo) (company_id : Bytes)
    (p : ClientCalls) : ClientCalls × List Event :=
  match backendUrlInfo with
  | none => ({ p with posted := p.posted ++ [.invalid_argument] },[])
  | some info =>
    if info.is_https then ({ p with posted := p.posted ++ [.operation_not_supported] },[])
    else
      let target_path := BACKEND_PATH ++ company_id
      let (session,out) := AsyncHttpClientSession.run (.new info target_path (timeout_ms config))
      let id := p.calls.length
      -- The lambda captures a default-constructed `weak_ptr`.
      ({ p with
         calls := p.calls ++ [⟨session,none⟩]
         active_client_sessions := insert id p.active_client_sessions },
        .started id :: out.map (.session id))

/-- The `on_complete_` handler: `lock()` finds the session only through a
    `weak_ptr` that was set. -/
def on_complete (call : ClientCall) (res : Response) (ec : Option ErrorCode) (p : ClientCalls) :
    ClientCalls × List Event :=
  let p := match call.session_to_remove_on_complete with
    | some id => { p with active_client_sessions := p.active_client_sessions.erase id }
    | none => p
  (p,[.callback res ec])

/-- What `Backendify` sees of the events of a session. -/
def relay (call : ClientCall) (id : Nat) :
    List AsyncHttpClientSession.Event → ClientCalls → ClientCalls × List Event
  | [],p => (p,[])
  | .completed res ec :: rest,p =>
    let (p,out) := on_complete call res ec p
    let (p,later) := relay call id rest p
    (p,.session id (.completed res ec) :: out ++ later)
  | e :: rest,p =>
    let (p,later) := relay call id rest p
    (p,.session id e :: later)

/-- An action of the session `id`, and what it leads to. -/
def advance (id : Nat) (a : AsyncHttpClientSession.Action) (p : ClientCalls) :
    Option (ClientCalls × List Event) := do
  let call ← p.calls[id]?
  let (session,out) ← AsyncHttpClientSession.step call.session a
  some (relay call id out { p with calls := p.calls.set id { call with session := session } })

/-- The loop of `cancel_active_backend_calls`. -/
def cancelAll : List Nat → ClientCalls → Option (ClientCalls × List Event)
  | [],p => some (p,[])
  | id :: rest,p => do
    let (p,out) ← advance id .cancel p
    let (p,later) ← cancelAll rest p
    some (p,out ++ later)

/-- What can happen: a call starts, something happens to the session of a call,
    a posted callback runs, or the active calls are cancelled, in the order in
    which the hash table lists them: all at once, or one by one with other things
    between them. -/
inductive Action
  | callBackendApi (backendUrlInfo : Option BackendUrlInfo) (company_id : Bytes)
  | session (id : Nat) (a : AsyncHttpClientSession.Action)
  | runPosted
  | cancel_active_backend_calls (order : List Nat)
  | cancel (id : Nat)
deriving DecidableEq,Repr

def step (config : AppConfig) (p : ClientCalls) : Action → Option (ClientCalls × List Event)
  | .callBackendApi backendUrlInfo company_id => some (callBackendApi config backendUrlInfo company_id p)
  | .session id a => if a = .cancel then none else advance id a p
  | .runPosted =>
    match p.posted with
    | [] => none
    | ec :: rest => some ({ p with posted := rest },[.callback .empty (some ec)])
  | .cancel_active_backend_calls order =>
    if order.Nodup ∧ order.toFinset = p.active_client_sessions then cancelAll order p else none
  | .cancel id => advance id .cancel p

/-! ### The record of a run -/

/-- The session that an event starts. -/
def Event.start : Event → Finset Nat
  | .started id => {id}
  | _ => ∅

/-- The session whose `on_complete_` an event reports. -/
def Event.completion : Event → Finset Nat
  | .session id (.completed _ _) => {id}
  | _ => ∅

def started (log : List Event) : Finset Nat := log.foldr (fun e ids => e.start ∪ ids) ∅
def completed (log : List Event) : Finset Nat := log.foldr (fun e ids => e.completion ∪ ids) ∅

section
variable (e : Event) (log more : List Event)

@[simp] theorem started_nil : started [] = ∅ := rfl
@[simp] theorem started_cons : started (e :: log) = e.start ∪ started log := rfl
@[simp] theorem started_append : started (log ++ more) = started log ∪ started more := by
  induction log with
  | nil => simp
  | cons e rest ih => simp [ih,Finset.union_assoc]

@[simp] theorem completed_nil : completed [] = ∅ := rfl
@[simp] theorem completed_cons : completed (e :: log) = e.completion ∪ completed log := rfl
@[simp] theorem completed_append : completed (log ++ more) = completed log ∪ completed more := by
  induction log with
  | nil => simp
  | cons e rest ih => simp [ih,Finset.union_assoc]

end

/-! ### What a run keeps -/

/-- Every session started is still in the set, completed or not: no handler
    holds a `weak_ptr` that was set. -/
structure Kept (p : ClientCalls) (log : List Event) : Prop where
  unset : ∀ call ∈ p.calls, call.session_to_remove_on_complete = none
  active : p.active_client_sessions = started log
  ids : started log = Finset.range p.calls.length
  ends : completed log ⊆ started log

/-- A handler without a session to remove leaves the set alone. -/
theorem relay_spec {call : ClientCall} (unset : call.session_to_remove_on_complete = none) (id : Nat)
    (events : List AsyncHttpClientSession.Event) (p : ClientCalls) :
    (relay call id events p).1 = p ∧ started (relay call id events p).2 = ∅ ∧
      ∀ other ∈ completed (relay call id events p).2, other = id := by
  induction events with
  | nil => simp [relay]
  | cons e rest ih =>
    obtain ⟨same,noStart,ends⟩ := ih
    cases e with
    | completed res ec =>
      have handled : on_complete call res ec p = (p,[.callback res ec]) := by simp [on_complete,unset]
      refine ⟨?_,?_,?_⟩
      · simpa [relay,handled] using same
      · simpa [relay,handled,Event.start] using noStart
      · intro other member
        simp only [relay,handled,completed_cons,Event.completion,Finset.mem_union,
          Finset.mem_singleton,Finset.notMem_empty,false_or,List.cons_append,List.nil_append] at member
        rcases member with rfl | later
        · rfl
        · exact ends other later
    | started phase =>
      refine ⟨by simpa [relay] using same,by simpa [relay,Event.start] using noStart,?_⟩
      simpa [relay,Event.completion] using ends
    | closed =>
      refine ⟨by simpa [relay] using same,by simpa [relay,Event.start] using noStart,?_⟩
      simpa [relay,Event.completion] using ends

theorem kept_advance {p p' : ClientCalls} {log out : List Event} {id : Nat} {a : AsyncHttpClientSession.Action}
    (kept : Kept p log) (taken : advance id a p = some (p',out)) :
    Kept p' (log ++ out) ∧ p'.active_client_sessions = p.active_client_sessions := by
  simp only [advance,Option.bind_eq_bind,Option.bind_eq_some_iff] at taken
  obtain ⟨call,found,⟨session,events⟩,stepped,last⟩ := taken
  obtain ⟨inside,_⟩ := List.getElem?_eq_some_iff.mp found
  have unset := kept.unset call (List.mem_of_getElem? found)
  simp only [Option.some.injEq] at last
  obtain ⟨same,noStart,ends⟩ := relay_spec unset id events
    { p with calls := p.calls.set id { call with session := session } }
  rw [last] at same noStart ends
  simp only at same noStart ends
  subst same
  have known : id ∈ started log := by
    rw [kept.ids]
    exact Finset.mem_range.mpr inside
  refine ⟨⟨?_,?_,?_,?_⟩,rfl⟩
  · intro other member
    rcases List.mem_or_eq_of_mem_set member with old | rfl
    · exact kept.unset other old
    · exact unset
  · simpa [noStart] using kept.active
  · simpa [noStart] using kept.ids
  · rw [completed_append,started_append,noStart,Finset.union_empty]
    intro other member
    rcases Finset.mem_union.mp member with old | new
    · exact kept.ends old
    · rw [ends other new]
      exact known

theorem kept_cancelAll {order : List Nat} {p p' : ClientCalls} {log out : List Event} (kept : Kept p log)
    (taken : cancelAll order p = some (p',out)) : Kept p' (log ++ out) := by
  induction order generalizing p log out with
  | nil =>
    simp only [cancelAll,Option.some.injEq,Prod.mk.injEq] at taken
    obtain ⟨rfl,rfl⟩ := taken
    simpa using kept
  | cons id rest ih =>
    simp only [cancelAll,Option.bind_eq_bind,Option.bind_eq_some_iff,Option.some.injEq,Prod.mk.injEq] at taken
    obtain ⟨⟨q,first⟩,cancelled,⟨q',later⟩,others,rfl,rfl⟩ := taken
    have next := ih (kept_advance kept cancelled).1 others
    simpa using next

theorem kept_callBackendApi {p : ClientCalls} {log : List Event} (kept : Kept p log) (config : AppConfig)
    (backendUrlInfo : Option BackendUrlInfo) (company_id : Bytes) :
    Kept (callBackendApi config backendUrlInfo company_id p).1
      (log ++ (callBackendApi config backendUrlInfo company_id p).2) := by
  have quiet : ∀ posted, Kept { p with posted := posted } (log ++ []) := by
    intro posted
    rw [List.append_nil]
    exact ⟨kept.unset,kept.active,kept.ids,kept.ends⟩
  unfold callBackendApi
  cases backendUrlInfo with
  | none => exact quiet _
  | some info =>
    simp only
    split
    · exact quiet _
    · obtain ⟨unset,active,ids,ends⟩ := kept
      have fresh : ∀ out : List Event, started out = {p.calls.length} → completed out = ∅ →
          ∀ session, Kept ⟨p.calls ++ [⟨session,none⟩],insert p.calls.length p.active_client_sessions,p.posted⟩
            (log ++ out) := by
        intro out starts silent session
        refine ⟨?_,?_,?_,?_⟩
        · intro call member
          rcases List.mem_append.mp member with old | new
          · exact unset call old
          · rw [List.mem_singleton.mp new]
        · rw [started_append,starts,active,Finset.insert_eq,Finset.union_comm]
        · rw [started_append,starts,ids,List.length_append,List.length_singleton,Finset.range_add_one,
            Finset.insert_eq,Finset.union_comm]
        · rw [started_append,completed_append,silent,Finset.union_empty]
          exact ends.trans Finset.subset_union_left
      exact fresh _ rfl rfl _

theorem kept_step {config : AppConfig} {p p' : ClientCalls} {log out : List Event} {a : Action} (kept : Kept p log)
    (taken : step config p a = some (p',out)) : Kept p' (log ++ out) := by
  cases a with
  | callBackendApi backendUrlInfo company_id =>
    simp only [step,Option.some.injEq] at taken
    have called := kept_callBackendApi kept config backendUrlInfo company_id
    rwa [taken] at called
  | session id action =>
    simp only [step] at taken
    split at taken
    · cases taken
    · exact (kept_advance kept taken).1
  | runPosted =>
    simp only [step] at taken
    split at taken
    · cases taken
    · simp only [Option.some.injEq,Prod.mk.injEq] at taken
      obtain ⟨rfl,rfl⟩ := taken
      refine ⟨kept.unset,?_,?_,?_⟩
      · simpa [Event.start] using kept.active
      · simpa [Event.start] using kept.ids
      · simpa [Event.start,Event.completion] using kept.ends
  | cancel_active_backend_calls order =>
    simp only [step] at taken
    split at taken
    · exact kept_cancelAll kept taken
    · cases taken
  | cancel id => exact (kept_advance kept taken).1

theorem kept_run {config : AppConfig} {actions : List Action} {p : ClientCalls} {log : List Event}
    (run : Runs.Run (step config) empty actions p log) : Kept p log := by
  refine run.invariant Kept ⟨by simp [empty],rfl,rfl,by simp⟩ ?_
  intro s log a s' out kept taken
  exact kept_step kept taken

/-- After every run the set holds every session ever started, so it holds
    exactly those whose call has not completed as long as none has. -/
theorem active_iff_none_completed (config : AppConfig) (actions : List Action) (p : ClientCalls) (log : List Event)
    (run : Runs.Run (step config) empty actions p log) :
    p.active_client_sessions = started log \ completed log ↔ completed log = ∅ := by
  have kept := kept_run run
  rw [kept.active]
  constructor
  · intro same
    refine Finset.eq_empty_of_forall_notMem ?_
    intro id member
    have outstanding : id ∈ started log \ completed log := by
      rw [← same]
      exact kept.ends member
    exact (Finset.mem_sdiff.mp outstanding).2 member
  · intro none_completed
    rw [none_completed,Finset.sdiff_empty]

/-- A call whose name resolution fails. -/
def unresolvable : List Action :=
  [.callBackendApi (some AsyncHttpClientSession.usBackend) (lit "1"),
    .session 0 (.resolved (some (.other 1)))]

theorem active_iff_none_completed_started : ∃ p log,
    Runs.Run (step {}) empty (unresolvable.take 1) p log ∧ p.active_client_sessions = {0} ∧
      p.active_client_sessions = started log \ completed log := by
  have executed : (Runs.exec (step {}) empty (unresolvable.take 1)).isSome = true := by decide
  have run := Runs.Run.of_isSome executed
  refine ⟨_,_,run,by decide,?_⟩
  exact (active_iff_none_completed {} _ _ _ run).mpr (by decide)

/-- The completed call stays in the set. -/
theorem active_after_completion : ∃ p log, Runs.Run (step {}) empty unresolvable p log ∧
    started log \ completed log = ∅ ∧ p.active_client_sessions ≠ started log \ completed log := by
  have executed : (Runs.exec (step {}) empty unresolvable).isSome = true := by decide
  exact ⟨_,_,Runs.Run.of_isSome executed,by decide,by decide⟩

end ClientCalls
end Facade
