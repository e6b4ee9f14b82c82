import Facade.ProgramAnswers

/-!
The end of the program. Once a signal has come, its handler takes its steps one by one
while other threads run handlers, and nothing holds it up (`signal_progress`). It closes
every session that was in flight when it listed them, and what an aborted operation ends
may still be answered; but from `ioc.stop()` on nothing is (`nothing_after_stop`).
-/
namespace Facade.Program
open Strings Http Backendify
open HttpServerSession (dialogue)

variable {cache : CacheInterface} {config : AppConfig} {library : JsonLibrary}

/-! ### Without handlers -/

/-- Without handlers nothing is told and no call completes. -/
theorem stopped_step {p p' : Program cache} {a : Action} {log out : List Event} (whole : Whole config library p log)
    (stopped : p.signal_handler = .stopped) (taken : Taken config library p a p' out) :
    out = [] ∧ p'.signal_handler = .stopped ∧ p'.owners = p.owners := by
  have idle : ¬ Running p := fun running => running.1 stopped
  cases taken with
  | alone a frontend told _ running stepped =>
    have unhandled : a.isHandler = false := by
      cases handler : a.isHandler with
      | true => exact absurd (running handler) idle
      | false => rfl
    obtain ⟨rfl,_⟩ := Frontend.unhandled_step stepped unhandled
    exact ⟨rfl,stopped,rfl⟩
  | calling a frontend told client req call _ running => exact absurd running idle
  | stopping _ _ _ stands | listing _ stands | cancelling _ _ _ _ _ stands | halting _ stands =>
    rw [stopped] at stands
    cases stands
  | working a owner b m now backends out handles running stepped =>
    obtain ⟨id,rfl⟩ : ∃ id, b = .session id .expire := by
      by_contra other
      exact idle (running fun id same => other ⟨id,same⟩)
    simp only [ClientCalls.step,reduceCtorEq,if_false,ClientCalls.advance,AsyncHttpClientSession.step,
      Option.bind_eq_bind,Option.bind_eq_some_iff,Option.ite_none_right_eq_some,Option.some.injEq,Prod.exists,
      Prod.mk.injEq] at stepped
    obtain ⟨call,_,s,_,⟨_,_,rfl⟩,_,rfl⟩ := stepped
    exact ⟨rfl,stopped,rfl⟩
  | completing a owner b m now backends out res ec frontend told handles running stepped called =>
    obtain ⟨_,reports,_⟩ := whole.owned.calledBack whole.kept.unset handles stepped called
    refine absurd (running fun id expires => ?_) idle
    subst expires
    cases reports with
    | session _ _ _ _ completes => cases completes

theorem stopped_run {actions later : List Action} {p q : Program cache} {log seen : List Event}
    (run : Runs.Run (step config library) (start cache config) actions p log) (stopped : p.signal_handler = .stopped)
    (rest : Runs.Run (step config library) p later q seen) :
    seen = [] ∧ q.signal_handler = .stopped ∧ q.owners = p.owners := by
  induction rest with
  | start => exact ⟨rfl,stopped,rfl⟩
  | @next before s s' heard out a earlier taken ih =>
    obtain ⟨rfl,still,same⟩ := ih
    obtain ⟨rfl,last,kept⟩ := stopped_step (whole_run (run.append_exec earlier.exec)) still (step_taken taken)
    exact ⟨rfl,last,kept.trans same⟩

/-! ### The steps of the signal handler -/

/-- The signal handler has listed these sessions, and each of them is closed or still to
    be cancelled. -/
structure Cancels (order : List Nat) (p : Program cache) (heard : List Event) : Prop where
  listed : p.signal_handler ≠ .waiting ∧ p.signal_handler ≠ .stopping
  closed : ∀ id ∈ order, id ∈ p.signal_handler.toCancel ∨ Event.backend (.session id .closed) ∈ heard

theorem Cancels.step {order : List Nat} {p p' : Program cache} {a : Action} {heard out : List Event}
    (cancels : Cancels order p heard) (taken : Taken config library p a p' out) : Cancels order p' (heard ++ out) := by
  obtain ⟨listed,closed⟩ := cancels
  have still : Cancels order p (heard ++ out) :=
    ⟨listed,fun id member => (closed id member).imp_right (List.mem_append_left out)⟩
  cases taken with
  | alone | calling | working | completing => exact ⟨still.listed,still.closed⟩
  | stopping _ _ _ stands => exact absurd stands listed.1
  | listing _ stands => exact absurd stands listed.2
  | halting _ stands =>
    rw [stands] at closed
    exact ⟨by simp,fun id member => .inr (by simpa [SignalHandler.toCancel] using closed id member)⟩
  | cancelling _ first rest backends told stands cancelled =>
    rw [stands] at closed
    refine ⟨by simp,fun id member => ?_⟩
    rcases closed id member with later | before
    · rcases List.mem_cons.mp later with rfl | last
      · exact .inr (by simpa using .inr (ClientCalls.cancel_closes cancelled))
      · exact .inl last
    · exact .inr (List.mem_append_left _ before)

/-- What was in flight is in flight still, or it has completed. -/
theorem inFlight_step {p p' : Program cache} {a : Action} {log out : List Event} (whole : Whole config library p log)
    (taken : Taken config library p a p' out) {id : Nat} (flying : p.backends.InFlight id) :
    p'.backends.InFlight id ∨ ∃ res ec, Event.backend (.session id (.completed res ec)) ∈ out := by
  cases taken with
  | alone | stopping | listing | halting => exact .inl flying
  | calling a frontend told client req call =>
    left
    cases secure : call.backend.is_https with
    | true =>
      rw [ClientCalls.callBackendApi_https secure]
      exact flying
    | false =>
      rw [ClientCalls.callBackendApi_plain secure]
      exact (ClientCalls.inFlight_append _ (by simp [AsyncHttpClientSession.launched,AsyncHttpClientSession.run,
        AsyncHttpClientSession.begin]) _ _ id).mpr (.inl flying)
  | working a owner b m now backends out handles _ stepped silent =>
    exact .inl (((steady_working whole.kept handles stepped silent).inFlight id).mpr flying)
  | cancelling order first rest backends out _ cancelled =>
    exact .inl (((steady_cancelled whole.kept cancelled).inFlight id).mpr flying)
  | completing a owner b m now backends out res ec frontend told handles _ stepped called =>
    obtain ⟨_,_,_,sessions,_⟩ := whole.owned.calledBack whole.kept.unset handles stepped called
    by_cases own : owner = .session id
    · right
      subst own
      cases handles with
      | session _ b m now =>
        simp only [ClientCalls.step] at stepped
        split at stepped
        · cases stepped
        · cases ClientCalls.advance_advanced whole.kept.unset stepped with
          | going _ _ _ _ _ _ _ _ silent => rw [silent] at called; cases called
          | done call s res' ec' => exact ⟨res',ec',by simp⟩
    · exact .inl ((sessions id).mpr ⟨flying,own⟩)

/-- From the list to `ioc.stop()`. -/
theorem cancelled_run {actions between : List Action} {p s : Program cache} {log heard : List Event} {order : List Nat}
    (run : Runs.Run (step config library) (start cache config) actions p log) (begun : Cancels order p [])
    (cancels : Runs.Run (step config library) p between s heard) :
    Cancels order s heard ∧ ∀ id, p.backends.InFlight id →
      s.backends.InFlight id ∨ ∃ res ec, Event.backend (.session id (.completed res ec)) ∈ heard := by
  induction cancels with
  | start => exact ⟨begun,fun id flying => .inl flying⟩
  | @next before s s' heard out a earlier taken ih =>
    obtain ⟨cancels,kept⟩ := ih
    have moved := step_taken taken
    refine ⟨cancels.step moved,fun id flying => ?_⟩
    rcases kept id flying with still | ⟨res,ec,completed⟩
    · rcases inFlight_step (whole_run (run.append_exec earlier.exec)) moved still with yet | ⟨res,ec,completed⟩
      · exact .inl yet
      · exact .inr ⟨res,ec,List.mem_append_right heard completed⟩
    · exact .inr ⟨res,ec,List.mem_append_left out completed⟩

/-- The sessions that are listed are sessions that there are. -/
theorem known_run {actions : List Action} {p : Program cache} {log : List Event}
    (run : Runs.Run (step config library) (start cache config) actions p log) :
    ∀ id ∈ p.signal_handler.toCancel, id < p.backends.calls.length := by
  induction run with
  | start => intro id member; cases member
  | @next acts p p' log out a earlier taken ih =>
    have whole := whole_run earlier
    have moved := step_taken taken
    have grows : ∀ id, id < p.backends.calls.length → id < p'.backends.calls.length := by
      intro id inside
      obtain ⟨c',there,_⟩ := grows_step whole moved id _ (List.getElem?_eq_getElem inside)
      exact (List.getElem?_eq_some_iff.mp there).1
    intro id member
    cases moved with
    | alone | calling | working | completing => exact grows id (ih id member)
    | stopping | halting => cases member
    | listing order _ _ all =>
      have active : id ∈ p.backends.active_client_sessions := all ▸ List.mem_toFinset.mpr member
      rwa [whole.kept.active,whole.kept.ids,Finset.mem_range] at active
    | cancelling order first rest backends out stands =>
      refine grows id (ih id ?_)
      rw [stands]
      exact List.mem_cons_of_mem first member

/-- Once a signal has come, nothing holds up its handler before it has called `ioc.stop()`. -/
theorem signal_progress {actions : List Action} {p : Program cache} {log : List Event}
    (run : Runs.Run (step config library) (start cache config) actions p log) (begun : p.signal_handler ≠ .waiting)
    (goes : p.signal_handler ≠ .stopped) : ∃ order, (step config library p (.signal order)).isSome = true := by
  have known := known_run run
  cases stands : p.signal_handler with
  | waiting => exact absurd stands begun
  | stopped => exact absurd stands goes
  | stopping =>
    refine ⟨p.backends.active_client_sessions.toList,?_⟩
    simp [step,handleSignal,stands,Finset.nodup_toList]
  | cancelling sessions_to_cancel_vec =>
    refine ⟨[],?_⟩
    cases sessions_to_cancel_vec with
    | nil => simp [step,handleSignal,stands]
    | cons id rest =>
      have inside : id < p.backends.calls.length := known id (by simp [stands,SignalHandler.toCancel])
      simp [step,handleSignal,stands,ClientCalls.step,ClientCalls.advance,inside,AsyncHttpClientSession.step]

/-- A signal has come, and the server is stopped. -/
def stoppingProgram : Program .everlasting × List Event :=
  (Runs.exec (step usConfig Service.namedLibrary) (start .everlasting usConfig) (asking ++ [.signal []])).getD
    (start .everlasting usConfig,[])

def listedProgram : Program .everlasting × List Event :=
  (step usConfig Service.namedLibrary stoppingProgram.1 (.signal [0])).getD (stoppingProgram.1,[])

/-- Between the cancellation and `ioc.stop()` another thread may run what was aborted, and
    the request is answered. -/
example : ((Runs.exec (step usConfig Service.namedLibrary) stoppingProgram.1
    [.signal [0],.signal [],.session 0 (.resolved (some .operation_aborted)) epoch 0,.signal []]).map fun r =>
      (r.1.signal_handler,Frontend.waitingRequests r.1.frontend.clients)) = some (.stopped,0) := by
  decide +kernel

end Facade.Program
