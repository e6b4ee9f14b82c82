import Facade.ClientSession

/-!
The completion of a backend call. Here an operation in flight may end with any
result at any time: one that had ended when `cancel` closed the socket keeps the
result it had. `completes_once` says that `on_complete_` is called at most once in
any order of the phases, the timer and `cancel`, and when.
-/
namespace Facade.AsyncHttpClientSession
open Strings Http

/-- The handler of the operation in flight runs, whatever its result. -/
def deliverAny (phase : Phase) (handler : AsyncHttpClientSession → AsyncHttpClientSession × List Event)
    (s : AsyncHttpClientSession) : Option (AsyncHttpClientSession × List Event) :=
  if s.pending = some phase then some (handler { s with pending := none, aborted := false }) else none

/-- The session with any result of each phase. -/
def stepAny (s : AsyncHttpClientSession) : Action → Option (AsyncHttpClientSession × List Event)
  | .resolved ec => deliverAny .resolve (on_resolve ec) s
  | .connected ec => deliverAny .connect (on_connect ec) s
  | .written ec => deliverAny .write (on_write ec) s
  | .received res ec => deliverAny .read (on_read res ec) s
  | a => step s a

/-- The phase that an action ends fails, or it is the last one. -/
def Ends : Action → Prop
  | .resolved ec => ec ≠ none
  | .connected ec => ec ≠ none
  | .written ec => ec ≠ none
  | .received _ _ => True
  | _ => False

instance : DecidablePred Ends
  | .resolved _ => inferInstanceAs (Decidable (_ ≠ _))
  | .connected _ => inferInstanceAs (Decidable (_ ≠ _))
  | .written _ => inferInstanceAs (Decidable (_ ≠ _))
  | .received _ _ => inferInstanceAs (Decidable True)
  | .cancel => inferInstanceAs (Decidable False)
  | .expire => inferInstanceAs (Decidable False)
  | .timeout => inferInstanceAs (Decidable False)

def isStart : Event → Bool
  | .started _ => true
  | _ => false

variable {s s' : AsyncHttpClientSession} {a : Action} {out : List Event}

/-- A step of the session is one of these. -/
theorem stepAny_of_step {r : AsyncHttpClientSession × List Event} (taken : step s a = some r) :
    stepAny s a = some r := by
  have result : ∀ {phase ec handler}, deliver phase ec handler s = some r → deliverAny phase handler s = some r := by
    intro phase ec handler delivered
    unfold deliver at delivered
    split at delivered
    · rename_i ready
      simpa [deliverAny,ready.1] using delivered
    · cases delivered
  cases a with
  | resolved ec => exact result taken
  | connected ec => exact result taken
  | written ec => exact result taken
  | received res ec => exact result taken
  | cancel => exact taken
  | expire => exact taken
  | timeout => exact taken

/-- What a step does: it leaves the operation in flight alone, it starts the next
    one, or it completes the call. -/
inductive Progress (s s' : AsyncHttpClientSession) (a : Action) (out : List Event) : Prop
  | aside : ¬ Ends a → s'.pending = s.pending → (∀ e ∈ out, e = .closed) → Progress s s' a out
  | onward (phase next : Phase) : ¬ Ends a → s.pending = some phase → s'.pending = some next →
      out = [.started next] → Progress s s' a out
  | done (phase : Phase) (res : Response) (ec : Option ErrorCode) : Ends a → s.pending = some phase →
      s'.pending = none → out = [.completed res ec] → Progress s s' a out

theorem deliverAny_eq_some {phase : Phase} {handler : AsyncHttpClientSession → AsyncHttpClientSession × List Event}
    (delivered : deliverAny phase handler s = some (s',out)) :
    s.pending = some phase ∧ handler { s with pending := none, aborted := false } = (s',out) := by
  unfold deliverAny at delivered
  split at delivered
  · rename_i ready
    exact ⟨ready,Option.some.inj delivered⟩
  · cases delivered

/-- The result of a phase that another one follows. -/
inductive Followed : Action → Phase → Phase → Option ErrorCode → Prop
  | resolved (ec : Option ErrorCode) : Followed (.resolved ec) .resolve .connect ec
  | connected (ec : Option ErrorCode) : Followed (.connected ec) .connect .write ec
  | written (ec : Option ErrorCode) : Followed (.written ec) .write .read ec

/-- What the handlers of these phases have in common: an error completes the call,
    and without one the next phase starts. -/
def passOn (next : Phase) (ec : Option ErrorCode) (s : AsyncHttpClientSession) : AsyncHttpClientSession × List Event :=
  match ec with
  | some e => complete .empty (some e) s
  | none => begin next s

section
variable {phase next : Phase} {ec : Option ErrorCode}

theorem Followed.stepAny_eq (followed : Followed a phase next ec) (s : AsyncHttpClientSession) :
    stepAny s a = deliverAny phase (passOn next ec) s := by
  cases followed <;> cases ec <;> rfl

theorem Followed.ends (followed : Followed a phase next ec) : Ends a ↔ ec ≠ none := by
  cases followed <;> rfl

theorem Followed.taken (followed : Followed a phase next ec) (taken : stepAny s a = some (s',out)) :
    s.pending = some phase ∧
      ((∃ e, ec = some e ∧ s'.pending = none ∧ out = [.completed .empty (some e)]) ∨
        (ec = none ∧ s'.pending = some next ∧ out = [.started next])) := by
  rw [followed.stepAny_eq] at taken
  obtain ⟨ready,handled⟩ := deliverAny_eq_some taken
  refine ⟨ready,?_⟩
  cases ec with
  | some e =>
    cases handled
    exact .inl ⟨e,rfl,rfl,rfl⟩
  | none =>
    cases handled
    exact .inr ⟨rfl,rfl,rfl⟩

theorem Followed.progress (followed : Followed a phase next ec) (taken : stepAny s a = some (s',out)) :
    Progress s s' a out := by
  obtain ⟨ready,⟨e,rfl,ended,reported⟩ | ⟨rfl,started,reported⟩⟩ := followed.taken taken
  · exact .done phase .empty (some e) (followed.ends.mpr (by simp)) ready ended reported
  · exact .onward phase next (by simp [followed.ends]) ready started reported

end

theorem stepAny_progress (taken : stepAny s a = some (s',out)) : Progress s s' a out := by
  cases a with
  | resolved ec => exact (Followed.resolved ec).progress taken
  | connected ec => exact (Followed.connected ec).progress taken
  | written ec => exact (Followed.written ec).progress taken
  | received res ec =>
    obtain ⟨ready,handled⟩ := deliverAny_eq_some taken
    simp only [on_read,complete,Prod.mk.injEq] at handled
    obtain ⟨rfl,rfl⟩ := handled
    refine .done .read _ _ trivial ready ?_ rfl
    unfold cancelTimer
    split <;> rfl
  | cancel =>
    simp only [stepAny,step,cancel,close,Option.some.injEq,Prod.mk.injEq] at taken
    obtain ⟨rfl,rfl⟩ := taken
    refine .aside id ?_ (by simp)
    unfold cancelTimer
    split <;> rfl
  | expire =>
    simp only [stepAny,step,Option.ite_none_right_eq_some,Option.some.injEq,Prod.mk.injEq] at taken
    obtain ⟨-,rfl,rfl⟩ := taken
    exact .aside id rfl (by simp)
  | timeout =>
    -- the wait ends without an error or with `operation_aborted`, which the handler ignores
    simp only [stepAny,step,Option.map_eq_some_iff] at taken
    obtain ⟨ec,ended,handled⟩ := taken
    have ignored : ¬ (ec ≠ none ∧ ec ≠ some .operation_aborted) := by
      cases timer : s.timer <;> simp_all [waitResult]
    simp only [on_timeout,ignored,if_false,Prod.mk.injEq] at handled
    obtain ⟨rfl,rfl⟩ := handled
    exact .aside id rfl (by simp)

/-- An operation is in flight until the call completes; then the call has completed
    once, and nothing is reported any more but closings of the socket. -/
structure Tally (s : AsyncHttpClientSession) (log : List Event) : Prop where
  count : (log.filter isCompletion).length = if s.pending = none then 1 else 0
  final : log.Pairwise fun e later => isCompletion e = true → later = .closed

theorem Tally.silent {log : List Event} (tally : Tally s log) {phase : Phase} (running : s.pending = some phase) :
    ∀ e ∈ log, ¬ isCompletion e = true := by
  have none_yet := tally.count
  simp only [running,reduceCtorEq,if_false,List.length_eq_zero_iff] at none_yet
  exact List.filter_eq_nil_iff.mp none_yet

theorem tally_step {log : List Event} (tally : Tally s log) (taken : stepAny s a = some (s',out)) :
    Tally s' (log ++ out) := by
  cases stepAny_progress taken with
  | aside _ same closings =>
    have quiet : ∀ e ∈ out, ¬ isCompletion e = true := by
      intro e member
      rw [closings e member]
      simp [isCompletion]
    constructor
    · rw [List.filter_append,List.filter_eq_nil_iff.mpr quiet,List.append_nil,same]
      exact tally.count
    · refine List.pairwise_append.mpr ⟨tally.final,?_,fun e _ later member _ => closings later member⟩
      exact List.Pairwise.imp_of_mem (fun first _ _ completes => absurd completes (quiet _ first))
        (List.pairwise_of_forall (fun _ _ => trivial))
  | onward phase next _ running started reported =>
    have silent := tally.silent running
    subst reported
    constructor
    · rw [List.filter_append,List.filter_eq_nil_iff.mpr silent,started]
      rfl
    · refine List.pairwise_append.mpr ⟨tally.final,List.pairwise_singleton _ _,?_⟩
      exact fun e member _ _ completes => absurd completes (silent e member)
  | done phase res ec _ running ended reported =>
    have silent := tally.silent running
    subst reported
    constructor
    · rw [List.filter_append,List.filter_eq_nil_iff.mpr silent,ended]
      rfl
    · refine List.pairwise_append.mpr ⟨tally.final,List.pairwise_singleton _ _,?_⟩
      exact fun e member _ _ completes => absurd completes (silent e member)

theorem tally_run {backendInfo : BackendUrlInfo} {target_path : Bytes} {timeout : Int} {actions : List Action}
    {log : List Event} (run : Runs.Run stepAny (launched backendInfo target_path timeout) actions s log) : Tally s log :=
  run.invariant Tally ⟨rfl,List.Pairwise.nil⟩ fun _ _ _ _ _ tally taken => tally_step tally taken

/-- In any run of a session `on_complete_` is called at most once, by the step in
    which a phase fails or the read ends and by no other, and no phase is started
    after that. -/
theorem completes_once (backendInfo : BackendUrlInfo) (target_path : Bytes) (timeout : Int) (actions : List Action)
    (s : AsyncHttpClientSession) (log : List Event)
    (run : Runs.Run stepAny (launched backendInfo target_path timeout) actions s log) :
    (log.filter isCompletion).length ≤ 1 ∧
    (∀ t before a t' out, Runs.Takes stepAny (launched backendInfo target_path timeout) actions t before a →
      stepAny t a = some (t',out) → (Ends a ↔ ∃ res ec, Event.completed res ec ∈ out)) ∧
    log.Pairwise (fun e later => isCompletion e = true → isStart later = false) := by
  have tally := tally_run run
  refine ⟨?_,?_,?_⟩
  · rw [tally.count]
    split <;> omega
  · intro t before a t' out _ taken
    cases stepAny_progress taken with
    | aside going _ closings =>
      refine ⟨fun ends => absurd ends going,?_⟩
      rintro ⟨res,ec,member⟩
      cases closings _ member
    | onward phase next going _ _ reported =>
      refine ⟨fun ends => absurd ends going,?_⟩
      rintro ⟨res,ec,member⟩
      simp [reported] at member
    | done phase res ec ends _ _ reported => exact ⟨fun _ => ⟨res,ec,by simp [reported]⟩,fun _ => ends⟩
  · refine tally.final.imp ?_
    intro e later closed completes
    rw [closed completes]
    rfl

/-- The timer expires and `cancel` is called while the connection is refused. -/
def refusedCall : List Action :=
  [.resolved none,.expire,.cancel,.connected (some .connection_refused),.timeout,.cancel]

theorem completes_once_refused : ∃ s log,
    Runs.Run stepAny (launched usBackend (lit "/companies/1") 275) refusedCall s log ∧
      (log.filter isCompletion).length ≤ 1 := by
  have run : Runs.Run stepAny (launched usBackend (lit "/companies/1") 275) refusedCall _ _ :=
    Runs.Run.of_isSome (by decide +kernel)
  exact ⟨_,_,run,(completes_once usBackend (lit "/companies/1") 275 refusedCall _ _ run).1⟩

end Facade.AsyncHttpClientSession
