import Mathlib.Tactic.Common

/-!
Runs of a machine that takes one action at a time. A step is refused (`none`)
when the machine is not waiting for that action; otherwise it leads to one
state and reports what an observer sees of it. `Run` collects the actions and
the reports of a whole run, oldest first, and `Takes` names the steps a run is
made of, so that a property of every step of a run can be stated.
-/
namespace Facade.Runs
universe u v w

variable {State : Type u} {Action : Type v} {Event : Type w}
variable (step : State → Action → Option (State × List Event)) (start : State)

/-- Taking the actions in order from `start` ends in the state, having reported
    the log. -/
inductive Run : List Action → State → List Event → Prop
  | start : Run [] start []
  | next {acts : List Action} {s s' : State} {log out : List Event} {a : Action} :
      Run acts s log → step s a = some (s',out) → Run (acts ++ [a]) s' (log ++ out)

/-- The run of `acts` takes the action `a` in state `s`, with `log` reported
    before it. -/
def Takes (acts : List Action) (s : State) (log : List Event) (a : Action) : Prop :=
  ∃ before after, acts = before ++ a :: after ∧ Run step start before s log

/-- The actions taken in order, or nothing when one of them is refused. -/
def exec : State → List Action → Option (State × List Event)
  | s, [] => some (s,[])
  | s, a :: rest =>
    match step s a with
    | none => none
    | some (s',out) => (exec s' rest).map fun (last,log) => (last,out ++ log)

variable {step} {start}

/-- What holds at the start and is kept by every step holds after every run. -/
theorem Run.invariant (Inv : State → List Event → Prop) (base : Inv start [])
    (keeps : ∀ s log a s' out, Inv s log → step s a = some (s',out) → Inv s' (log ++ out))
    {acts : List Action} {s : State} {log : List Event} (run : Run step start acts s log) : Inv s log := by
  induction run with
  | start => exact base
  | next _ taken ih => exact keeps _ _ _ _ _ ih taken

theorem Run.append_exec {acts rest : List Action} {s last : State} {log more : List Event}
    (run : Run step start acts s log) (executed : exec step s rest = some (last,more)) :
    Run step start (acts ++ rest) last (log ++ more) := by
  induction rest generalizing acts s log more with
  | nil =>
    simp only [exec,Option.some.injEq,Prod.mk.injEq] at executed
    obtain ⟨rfl,rfl⟩ := executed
    simpa using run
  | cons a rest ih =>
    simp only [exec] at executed
    split at executed
    · cases executed
    · rename_i s' out taken
      simp only [Option.map_eq_some_iff,Prod.mk.injEq,Prod.exists] at executed
      obtain ⟨_,tail,later,rfl,rfl⟩ := executed
      have longer := ih (run.next taken) later
      simpa [List.append_assoc] using longer

/-- Execution is a run: the way to exhibit a concrete one. -/
theorem Run.of_exec {acts : List Action} {s : State} {log : List Event}
    (executed : exec step start acts = some (s,log)) : Run step start acts s log := by
  simpa using Run.append_exec Run.start executed

/-- The run of a list of actions that are all taken. -/
theorem Run.of_isSome {acts : List Action} (executed : (exec step start acts).isSome = true) :
    Run step start acts ((exec step start acts).getD (start,[])).1 ((exec step start acts).getD (start,[])).2 := by
  obtain ⟨last,found⟩ := Option.isSome_iff_exists.mp executed
  rw [found]
  exact Run.of_exec found

theorem exec_snoc {acts : List Action} {s t t' : State} {log out : List Event} {a : Action}
    (executed : exec step s acts = some (t,log)) (taken : step t a = some (t',out)) :
    exec step s (acts ++ [a]) = some (t',log ++ out) := by
  induction acts generalizing s log with
  | nil =>
    simp only [exec,Option.some.injEq,Prod.mk.injEq] at executed
    obtain ⟨rfl,rfl⟩ := executed
    simp [exec,taken]
  | cons b rest ih =>
    simp only [exec] at executed
    simp only [List.cons_append,exec]
    split at executed
    · cases executed
    · rename_i s' first stepped
      simp only [Option.map_eq_some_iff,Prod.mk.injEq,Prod.exists] at executed
      obtain ⟨_,tail,later,rfl,rfl⟩ := executed
      simp [ih later]

/-- A machine has one run for a list of actions, the one execution finds. -/
theorem Run.exec {acts : List Action} {s : State} {log : List Event} (run : Run step start acts s log) :
    exec step start acts = some (s,log) := by
  induction run with
  | start => rfl
  | next _ taken ih => exact exec_snoc ih taken

/-- The part of a run before one of its steps, as a run of its own. -/
theorem Takes.run {acts : List Action} {s : State} {log : List Event} {a : Action}
    (takes : Takes step start acts s log a) : ∃ before, Run step start before s log := by
  obtain ⟨before,_,_,run⟩ := takes
  exact ⟨before,run⟩

theorem Takes.mem {acts : List Action} {s : State} {log : List Event} {a : Action}
    (takes : Takes step start acts s log a) : a ∈ acts := by
  obtain ⟨before,after,rfl,_⟩ := takes
  simp

theorem Takes.append {acts : List Action} {s : State} {log : List Event} {a : Action}
    (takes : Takes step start acts s log a) (more : List Action) : Takes step start (acts ++ more) s log a := by
  obtain ⟨before,after,rfl,run⟩ := takes
  exact ⟨before,after ++ more,by simp,run⟩

/-- The steps of a run with one more step. -/
theorem Run.takes_snoc {acts : List Action} {s t : State} {log before : List Event} {a b : Action}
    (run : Run step start acts s log) :
    Takes step start (acts ++ [a]) t before b ↔ Takes step start acts t before b ∨ (b = a ∧ t = s ∧ before = log) := by
  constructor
  · rintro ⟨first,after,split,earlier⟩
    rcases List.eq_nil_or_concat after with rfl | ⟨rest,last,rfl⟩
    · obtain ⟨rfl,last⟩ := List.append_inj' split rfl
      have same := run.exec
      rw [earlier.exec,Option.some.injEq,Prod.mk.injEq] at same
      exact .inr ⟨(List.cons.inj last).1.symm,same.1,same.2⟩
    · have whole : acts ++ [a] = (first ++ b :: rest) ++ [last] := by simpa using split
      exact .inl ⟨first,rest,(List.append_inj' whole rfl).1,earlier⟩
  · rintro (earlier | ⟨rfl,rfl,rfl⟩)
    · exact earlier.append [a]
    · exact ⟨acts,[],rfl,run⟩

/-- Every event of a run was reported by one of its steps. -/
theorem Run.reported {acts : List Action} {s : State} {log : List Event} (run : Run step start acts s log) :
    ∀ e ∈ log, ∃ t before a t' out, Takes step start acts t before a ∧ step t a = some (t',out) ∧ e ∈ out := by
  induction run with
  | start => intro e member; cases member
  | @next acts s s' log out a earlier taken ih =>
    intro e member
    rcases List.mem_append.mp member with old | new
    · obtain ⟨t,before,b,t',out',⟨first,after,split,run⟩,stepped,reported⟩ := ih e old
      exact ⟨t,before,b,t',out',⟨first,after ++ [a],by simp [split],run⟩,stepped,reported⟩
    · exact ⟨s,log,a,s',out,⟨acts,[],rfl,earlier⟩,taken,new⟩

end Facade.Runs
