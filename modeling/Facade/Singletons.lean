import Facade.Ownership
import Facade.Runs

/-!
The singletons of src/logging/ConsoleLogger.cpp, src/metrics/StatsDClient.cpp and
src/metrics/DummyStatsDClient.cpp. The static `instance` holds the object from the first
call of `getInstance` until the static objects are destroyed, after `main`. What
`getInstance` returns is a `shared_ptr` made of `instance.get()`, except in
`DummyStatsDClient`, where it is a copy of `instance`.

So the logger and the client are deleted once for each call and once more
(`deleted_for_each_call`), and the dummy is deleted once (`dummy_deleted_once`). When an
exception leaves the body of `main` after the logger was made, `main` reports it through
a logger that is deleted already (`reported_after_deletion`).
-/
namespace Facade
open Ownership (Move deletions Safe)

/-- The object of a singleton, and whether the static objects were destroyed. -/
structure Singleton where
  /-- The blocks of its handles; the first is that of `instance`. -/
  blocks : List Nat
  destroyed : Bool
deriving DecidableEq,Repr

namespace Singleton

/-- What can happen: `getInstance` is called, the program does something with the handles
    that it was given, or the static objects are destroyed. -/
inductive Action
  | getInstance
  | handle (m : Move)
  | exit
deriving DecidableEq,Repr

def start : Singleton := ⟨[],false⟩

/-- `getInstance`, which makes the handle that it returns by `returned`. The object is made
    by the first call. -/
def getInstance (returned : Move) (s : Singleton) : Option (Singleton × List Ownership.Event) :=
  let blocks := if s.blocks = [] then [1] else s.blocks
  (Ownership.step blocks returned).map fun (blocks,out) => ({ s with blocks := blocks },out)

/-- The block of the handle that a move takes. -/
def blockOf : Move → Option Nat
  | .adopt => none
  | .copy b => some b
  | .release b => some b
  | .use b => some b

/-- The handles of a block that the program holds: one of the first is `instance`. -/
def held (s : Singleton) (block : Nat) : Nat :=
  s.blocks.getD block 0 - if block = 0 ∧ s.destroyed = false then 1 else 0

def step (returned : Move) (s : Singleton) : Action → Option (Singleton × List Ownership.Event)
  | .getInstance => if s.destroyed then none else getInstance returned s
  | .handle m =>
    match blockOf m with
    | none => none
    | some block =>
      if s.held block = 0 then none
      else (Ownership.step s.blocks m).map fun (blocks,out) => ({ s with blocks := blocks },out)
  | .exit =>
    if s.destroyed then none
    else if s.blocks = [] then some ({ s with destroyed := true },[])
    else (Ownership.step s.blocks (.release 0)).map fun (blocks,out) => (⟨blocks,true⟩,out)

/-- Everything that a step can do. -/
inductive Taken (returned : Move) (s : Singleton) : Action → Singleton → List Ownership.Event → Prop
  | called (blocks : List Nat) (out : List Ownership.Event) : s.destroyed = false →
      Ownership.Moves (if s.blocks = [] then [1] else s.blocks) returned blocks out →
      Taken returned s .getInstance { s with blocks := blocks } out
  | handled (m : Move) (block : Nat) (blocks : List Nat) (out : List Ownership.Event) : blockOf m = some block →
      s.held block ≠ 0 → Ownership.Moves s.blocks m blocks out →
      Taken returned s (.handle m) { s with blocks := blocks } out
  | unused : s.blocks = [] → Taken returned s .exit { s with destroyed := true } []
  | exited (blocks : List Nat) (out : List Ownership.Event) : s.destroyed = false → s.blocks ≠ [] →
      Ownership.Moves s.blocks (.release 0) blocks out → Taken returned s .exit ⟨blocks,true⟩ out

theorem step_taken {returned : Move} {s s' : Singleton} {a : Action} {out : List Ownership.Event}
    (taken : step returned s a = some (s',out)) : Taken returned s a s' out := by
  cases a with
  | getInstance =>
    simp only [step,getInstance,Option.ite_none_left_eq_some,Bool.not_eq_true,Option.map_eq_some_iff,Prod.mk.injEq,
      Prod.exists] at taken
    obtain ⟨running,blocks,told,moved,rfl,rfl⟩ := taken
    exact .called blocks told running (Ownership.step_moves moved)
  | handle m =>
    simp only [step] at taken
    split at taken
    · cases taken
    · rename_i block uses
      simp only [Option.ite_none_left_eq_some,Option.map_eq_some_iff,Prod.mk.injEq,Prod.exists] at taken
      obtain ⟨ours,blocks,told,moved,rfl,rfl⟩ := taken
      exact .handled m block blocks told uses ours (Ownership.step_moves moved)
  | exit =>
    simp only [step,Option.ite_none_left_eq_some,Bool.not_eq_true] at taken
    obtain ⟨running,taken⟩ := taken
    split at taken
    · rename_i empty
      cases taken
      exact .unused empty
    · rename_i made
      simp only [Option.map_eq_some_iff,Prod.mk.injEq,Prod.exists] at taken
      obtain ⟨blocks,told,moved,rfl,rfl⟩ := taken
      exact .exited blocks told running made (Ownership.step_moves moved)

/-- A move of a handle of a later block leaves the first one alone. -/
theorem moves_cons {first block : Nat} {rest blocks : List Nat} {m : Move} {out : List Ownership.Event}
    (uses : blockOf m = some (block + 1)) (moves : Ownership.Moves (first :: rest) m blocks out) :
    ∃ rest', blocks = first :: rest' ∧ rest'.length = rest.length := by
  cases moves with
  | adopted => cases uses
  | copied b n => cases uses; exact ⟨_,rfl,List.length_set⟩
  | released b n => cases uses; exact ⟨_,rfl,List.length_set⟩
  | last b => cases uses; exact ⟨_,rfl,List.length_set⟩
  | used b n => exact ⟨rest,rfl,rfl⟩

/-! ### Handles of their own -/

/-- The blocks after some calls of a `getInstance` that makes each handle of the raw pointer. -/
inductive Adopted (s : Singleton) (calls : Nat) : Prop
  | empty : s.blocks = [] → calls = 0 → Adopted s calls
  | made (rest : List Nat) : s.blocks = (if s.destroyed then 0 else 1) :: rest → rest.length = calls → 0 < calls →
      Adopted s calls

theorem Adopted.not_first {s : Singleton} {calls : Nat} (adopted : Adopted s calls) : s.held 0 = 0 := by
  cases adopted with
  | empty empty => simp [held,empty]
  | made rest blocks => cases gone : s.destroyed <;> simp [held,blocks,gone]

theorem adopted_step {s s' : Singleton} {a : Action} {log out : List Ownership.Event} {actions : List Action}
    (adopted : Adopted s (actions.count .getInstance)) (counted : deletions log = s.blocks.count 0)
    (taken : Taken .adopt s a s' out) :
    Adopted s' ((actions ++ [a]).count .getInstance) ∧ deletions (log ++ out) = s'.blocks.count 0 := by
  cases taken with
  | called blocks out running moves =>
    cases moves
    cases adopted with
    | empty empty none_before =>
      simp only [empty,if_true] at counted ⊢
      refine ⟨.made [1] (by simp [running]) (by simp [none_before]) (by simp),?_⟩
      simpa using counted
    | made rest made length =>
      have some_ : s.blocks ≠ [] := by simp [made]
      simp only [some_,if_false]
      refine ⟨.made (rest ++ [1]) (by simp [made]) (by simp [length]) (by simp),?_⟩
      simpa using counted
  | handled m block blocks out uses ours moves =>
    refine ⟨?_,Ownership.deletions_step counted moves⟩
    have calls : (actions ++ [Action.handle m]).count .getInstance = actions.count .getInstance := by
      simp [List.count_append]
    rw [calls]
    cases adopted with
    | empty empty => simp [held,empty] at ours
    | made rest made length some_ =>
      obtain ⟨later,rfl⟩ : ∃ later, block = later + 1 := by
        cases block with
        | zero => exact absurd (Adopted.made rest made length some_).not_first ours
        | succ later => exact ⟨later,rfl⟩
      rw [made] at moves
      obtain ⟨rest',rfl,same⟩ := moves_cons uses moves
      exact .made rest' rfl (same.trans length) some_
  | unused empty =>
    refine ⟨?_,by simpa using counted⟩
    cases adopted with
    | empty _ none_before => exact .empty empty (by simp [none_before])
    | made rest made => simp [made] at empty
  | exited blocks out running some_ moves =>
    refine ⟨?_,Ownership.deletions_step counted moves⟩
    have calls : (actions ++ [Action.exit]).count .getInstance = actions.count .getInstance := by
      simp [List.count_append]
    rw [calls]
    cases adopted with
    | empty empty => exact absurd empty some_
    | made rest made length positive =>
      simp only [running,Bool.false_eq_true,if_false] at made
      rw [made] at moves
      cases moves with
      | released _ n held => simp at held
      | last _ held => exact .made rest (by simp) length positive

end Singleton

/-- `ConsoleLogger::getInstance` and `StatsDClient::getInstance`. -/
def ConsoleLogger.step := Singleton.step .adopt
def StatsDClient.step := Singleton.step .adopt

/-- `DummyStatsDClient::getInstance`. -/
def DummyStatsDClient.step := Singleton.step (.copy 0)

namespace Singleton

theorem adopted_run {actions : List Action} {s : Singleton} {log : List Ownership.Event}
    (run : Runs.Run (step .adopt) start actions s log) :
    Adopted s (actions.count .getInstance) ∧ deletions log = s.blocks.count 0 := by
  induction run with
  | start => exact ⟨.empty rfl rfl,rfl⟩
  | next _ taken ih => exact adopted_step ih.1 ih.2 (step_taken taken)

/-- The program holds no handle. -/
def Released (s : Singleton) : Prop := ∀ block, s.held block = 0

/-- Without handles every block but that of `instance` is empty. -/
theorem Adopted.released {s : Singleton} {calls : Nat} (adopted : Adopted s calls) (released : Released s)
    (called : 0 < calls) : s.blocks = (if s.destroyed then 0 else 1) :: List.replicate calls 0 := by
  cases adopted with
  | empty _ none_before => omega
  | made rest made length =>
    rw [made,List.cons.injEq]
    refine ⟨rfl,List.eq_replicate_iff.mpr ⟨length,?_⟩⟩
    intro n member
    obtain ⟨later,found⟩ := List.mem_iff_getElem?.mp member
    have nothing := released (later + 1)
    simpa [held,made,found] using nothing

/-- The logger or the client of a run of `main`, which hands on a copy. -/
def logged : List Action :=
  [.getInstance,.handle (.use 1),.handle (.copy 1),.handle (.use 1),.handle (.release 1),.handle (.release 1)]

/-- An exception leaves the body of `main`: its handler asks for the logger, reports through
    it and lets the handle go; then `main` returns. -/
def reporting (block : Nat) : List Action := [.getInstance,.handle (.use block),.handle (.release block),.exit]

theorem reporting_first : Runs.exec (step .adopt) start (reporting 1) =
    some (⟨[0,0],true⟩,[.used,.deleted,.deleted]) := rfl

theorem reporting_again (rest : List Nat) : Runs.exec (step .adopt) ⟨1 :: rest,false⟩ (reporting (rest.length + 1)) =
    some (⟨0 :: (rest ++ [0]),true⟩,[.used,.deleted,.deleted]) := by
  simp [Runs.exec,reporting,step,getInstance,Ownership.step,held,blockOf]

/-- When the handles of the body of `main` are gone, its exception handler uses the logger and
    deletes it twice more. It had been deleted before if and only if the body had made it. -/
theorem reported_after_deletion (actions : List Action) (s : Singleton) (log : List Ownership.Event)
    (run : Runs.Run ConsoleLogger.step start actions s log) (released : Released s) (running : s.destroyed = false) :
    (Ownership.Event.deleted ∈ log ↔ Action.getInstance ∈ actions) ∧
    ∃ block t, Runs.Run ConsoleLogger.step start (actions ++ reporting block) t (log ++ [.used,.deleted,.deleted]) := by
  obtain ⟨adopted,counted⟩ := adopted_run run
  obtain ⟨blocks,destroyed⟩ := s
  simp only at running counted
  subst running
  constructor
  · rw [← List.count_pos_iff,← List.count_pos_iff]
    show 0 < deletions log ↔ _
    cases adopted with
    | empty empty none_before =>
      simp only at empty
      simp [counted,empty,none_before]
    | made rest made length called =>
      have shape := (Adopted.made rest made length called).released released called
      simp only [Bool.false_eq_true,if_false] at shape
      simp [counted,shape]
  · cases adopted with
    | empty empty none_before =>
      simp only at empty
      subst empty
      exact ⟨1,_,run.append_exec reporting_first⟩
    | made rest made =>
      simp only [Bool.false_eq_true,if_false] at made
      subst made
      exact ⟨rest.length + 1,_,run.append_exec (reporting_again rest)⟩

/-- The `io_context` cannot be made: the exception comes after the logger was made and
    before there are other threads. -/
theorem reported_after_deletion_logged : ∃ s log block t,
    Runs.Run ConsoleLogger.step start logged s log ∧ Ownership.Event.deleted ∈ log ∧
    Runs.Run ConsoleLogger.step start (logged ++ reporting block) t (log ++ [.used,.deleted,.deleted]) := by
  have run : Runs.Run ConsoleLogger.step start logged ⟨[1,0],false⟩ [.used,.used,.deleted] := Runs.Run.of_exec rfl
  have released : Released ⟨[1,0],false⟩ := by
    rintro (_ | _ | block)
    · rfl
    · rfl
    · simp [held]
  obtain ⟨before,block,t,after⟩ := reported_after_deletion _ _ _ run released rfl
  exact ⟨_,_,block,t,run,before.mpr (by decide),after⟩

/-! ### Copies of one handle -/

/-- The dummy has one block. -/
structure Shared (actions : List Action) (s : Singleton) (log : List Ownership.Event) : Prop where
  alone : Ownership.Alone s.blocks log
  counted : deletions log = s.blocks.count 0
  uncalled : s.blocks = [] → Action.getInstance ∉ actions

theorem shared_step {s s' : Singleton} {a : Action} {log out : List Ownership.Event} {actions : List Action}
    (shared : Shared actions s log) (taken : Taken (.copy 0) s a s' out) : Shared (actions ++ [a]) s' (log ++ out) := by
  obtain ⟨alone,counted,uncalled⟩ := shared
  cases taken with
  | called blocks out running moves =>
    have present : Ownership.Alone (if s.blocks = [] then [1] else s.blocks) log ∧
        deletions log = (if s.blocks = [] then [1] else s.blocks).count 0 := by
      by_cases empty : s.blocks = []
      · rw [empty] at counted
        have undeleted : Ownership.Event.deleted ∉ log := List.count_eq_zero.mp counted
        simp only [empty,if_true]
        exact ⟨⟨by simp,alone.safe,fun _ _ => undeleted⟩,counted⟩
      · simp only [empty,if_false]
        exact ⟨alone,counted⟩
    refine ⟨Ownership.one_block_safe present.1 moves (by simp),Ownership.deletions_step present.2 moves,?_⟩
    have made : (if s.blocks = [] then [1] else s.blocks) ≠ [] := by
      split
      · simp
      · assumption
    exact fun empty => absurd empty (moves.ne_nil made)
  | handled m block blocks out uses ours moves =>
    have copies : m ≠ .adopt := by
      rintro rfl
      cases uses
    refine ⟨Ownership.one_block_safe alone moves copies,Ownership.deletions_step counted moves,?_⟩
    intro empty
    have earlier : s.blocks = [] := by
      by_contra made
      exact moves.ne_nil made empty
    simpa using uncalled earlier
  | unused empty => exact ⟨by simpa using alone,by simpa using counted,by simpa using uncalled⟩
  | exited blocks out running some_ moves =>
    refine ⟨Ownership.one_block_safe alone moves (by simp),Ownership.deletions_step counted moves,?_⟩
    exact fun empty => absurd empty (moves.ne_nil some_)

/-- The dummy is deleted at most once, not while the program holds a handle, and nothing
    happens to it after that; when the static objects are destroyed and no handle is left, it
    has been deleted once. -/
theorem dummy_deleted_once (actions : List Action) (s : Singleton) (log : List Ownership.Event)
    (run : Runs.Run DummyStatsDClient.step start actions s log) :
    Safe log ∧ deletions log ≤ 1 ∧ (s.held 0 ≠ 0 → Ownership.Event.deleted ∉ log) ∧
    (s.destroyed = true → Released s → Action.getInstance ∈ actions → deletions log = 1) := by
  have shared : Shared actions s log := by
    induction run with
    | start => exact ⟨⟨by simp [start],List.Pairwise.nil,by simp⟩,rfl,by simp⟩
    | next _ taken ih => exact shared_step ih (step_taken taken)
  obtain ⟨⟨single,safe,alive⟩,counted,uncalled⟩ := shared
  refine ⟨safe,?_,?_,?_⟩
  · rw [counted]
    exact Nat.le_trans List.count_le_length single
  · intro ours
    cases first : s.blocks[0]? with
    | none => simp [held,first] at ours
    | some n =>
      cases n with
      | zero => simp [held,first] at ours
      | succ n => exact alive n first
  · intro gone released called
    have made : s.blocks ≠ [] := fun empty => uncalled empty called
    have one : s.blocks.length = 1 := by
      have some_ := List.length_pos_iff.mpr made
      omega
    obtain ⟨n,only⟩ := List.length_eq_one_iff.mp one
    have empty : n = 0 := by simpa [held,only,gone] using released 0
    rw [counted,only,empty]
    rfl

/-- The dummy of a run of `main`, which hands on a copy. -/
def counting : List Action :=
  [.getInstance,.handle (.copy 0),.handle (.use 0),.handle (.release 0),.handle (.release 0),.exit]

theorem dummy_deleted_once_counting : ∃ s log,
    Runs.Run DummyStatsDClient.step start counting s log ∧ Safe log ∧ deletions log = 1 := by
  have run : Runs.Run DummyStatsDClient.step start counting ⟨[0],true⟩ [.used,.deleted] := Runs.Run.of_exec rfl
  have released : Released ⟨[0],true⟩ := by
    rintro (_ | block)
    · rfl
    · simp [held]
  obtain ⟨safe,_,_,once⟩ := dummy_deleted_once _ _ _ run
  exact ⟨_,_,run,safe,once rfl released (by decide)⟩

end Singleton
end Facade
