import Mathlib.Data.List.Basic

/-!
An object that several owners share. A control block counts the handles that were
copied from one another; a handle that is made of the raw pointer has a block of its
own. The last handle of a block deletes the object, whatever the other blocks hold.

So the deletions are the blocks that hold nothing any more (`deletions_step`), and an
object with one block is deleted once and not used after it (`one_block_safe`).
-/
namespace Facade.Ownership

/-- What can happen: a handle is made of the raw pointer, or copied from one of a block;
    a handle of a block goes, or the object is used through one. -/
inductive Move
  | adopt
  | copy (block : Nat)
  | release (block : Nat)
  | use (block : Nat)
deriving DecidableEq,Repr

inductive Event
  | used
  | deleted
deriving DecidableEq,Repr

/-- The number of handles of each block after a move, and what happens to the object. -/
def step (blocks : List Nat) : Move → Option (List Nat × List Event)
  | .adopt => some (blocks ++ [1],[])
  | .copy b =>
    match blocks[b]? with
    | some (n + 1) => some (blocks.set b (n + 2),[])
    | _ => none
  | .release b =>
    match blocks[b]? with
    | some (n + 1) => some (blocks.set b n,if n = 0 then [.deleted] else [])
    | _ => none
  | .use b =>
    match blocks[b]? with
    | some (_ + 1) => some (blocks,[.used])
    | _ => none

def deletions (log : List Event) : Nat := log.count .deleted

/-- Nothing happens to the object once it is deleted. -/
def Safe (log : List Event) : Prop := log.Pairwise fun e _ => e ≠ .deleted

/-- Everything that a move can do. -/
inductive Moves (blocks : List Nat) : Move → List Nat → List Event → Prop
  | adopted : Moves blocks .adopt (blocks ++ [1]) []
  | copied (b n : Nat) : blocks[b]? = some (n + 1) → Moves blocks (.copy b) (blocks.set b (n + 2)) []
  | released (b n : Nat) : blocks[b]? = some (n + 2) → Moves blocks (.release b) (blocks.set b (n + 1)) []
  | last (b : Nat) : blocks[b]? = some 1 → Moves blocks (.release b) (blocks.set b 0) [.deleted]
  | used (b n : Nat) : blocks[b]? = some (n + 1) → Moves blocks (.use b) blocks [.used]

theorem step_moves {blocks blocks' : List Nat} {m : Move} {out : List Event}
    (taken : step blocks m = some (blocks',out)) : Moves blocks m blocks' out := by
  cases m with
  | adopt =>
    cases taken
    exact .adopted
  | copy b =>
    simp only [step] at taken
    split at taken
    · rename_i n held
      cases taken
      exact .copied b n held
    · cases taken
  | release b =>
    simp only [step] at taken
    split at taken
    · rename_i n held
      cases taken
      cases n with
      | zero => exact .last b held
      | succ n => exact .released b n held
    · cases taken
  | use b =>
    simp only [step] at taken
    split at taken
    · rename_i n held
      cases taken
      exact .used b n held
    · cases taken

/-- A block stays, also when it is empty. -/
theorem Moves.ne_nil {blocks blocks' : List Nat} {m : Move} {out : List Event} (moves : Moves blocks m blocks' out)
    (made : blocks ≠ []) : blocks' ≠ [] := by
  cases moves with
  | adopted => simp
  | copied => simpa using made
  | released => simpa using made
  | last => simpa using made
  | used => exact made

/-- How many blocks are empty after one of them changes. -/
theorem count_set {blocks : List Nat} {b n : Nat} (held : blocks[b]? = some (n + 1)) (k : Nat) :
    (blocks.set b k).count 0 = blocks.count 0 + if k = 0 then 1 else 0 := by
  obtain ⟨inside,value⟩ := List.getElem?_eq_some_iff.mp held
  rw [List.count_set inside,value]
  simp

/-- The object is deleted once for each block that holds no handle any more. -/
theorem deletions_step {blocks blocks' : List Nat} {m : Move} {log out : List Event}
    (counted : deletions log = blocks.count 0) (moves : Moves blocks m blocks' out) :
    deletions (log ++ out) = blocks'.count 0 := by
  unfold deletions at counted ⊢
  rw [List.count_append,counted]
  cases moves with
  | adopted => simp
  | copied b n held => simp [count_set held]
  | released b n held => simp [count_set held]
  | last b held => simp [count_set held]
  | used b n held => simp

/-- With one block, the object is there as long as a handle is. -/
structure Alone (blocks : List Nat) (log : List Event) : Prop where
  single : blocks.length ≤ 1
  safe : Safe log
  alive : ∀ n, blocks[0]? = some (n + 1) → Event.deleted ∉ log

/-- Handles that are copied from one another share one block. -/
theorem one_block_safe {blocks blocks' : List Nat} {m : Move} {log out : List Event} (alone : Alone blocks log)
    (moves : Moves blocks m blocks' out) (copies : m ≠ .adopt) : Alone blocks' (log ++ out) := by
  obtain ⟨single,safe,alive⟩ := alone
  have first {b n : Nat} (held : blocks[b]? = some (n + 1)) : b = 0 := by
    have inside := (List.getElem?_eq_some_iff.mp held).1
    omega
  -- a handle is left before the move, so that nothing was deleted
  have until_ {b n : Nat} (held : blocks[b]? = some (n + 1)) (e : Event) : Safe (log ++ [e]) := by
    have present := alive n (first held ▸ held)
    refine List.pairwise_append.mpr ⟨safe,List.pairwise_singleton _ e,?_⟩
    intro earlier member _ _ same
    exact present (same ▸ member)
  cases moves with
  | adopted => exact absurd rfl copies
  | copied b n held =>
    rw [List.append_nil]
    exact ⟨by rwa [List.length_set],safe,fun _ _ => alive n (first held ▸ held)⟩
  | released b n held =>
    rw [List.append_nil]
    exact ⟨by rwa [List.length_set],safe,fun _ _ => alive (n + 1) (first held ▸ held)⟩
  | last b held =>
    refine ⟨by rwa [List.length_set],until_ held .deleted,?_⟩
    intro n still
    have inside := (List.getElem?_eq_some_iff.mp held).1
    obtain rfl := first held
    simp [inside] at still
  | used b n held =>
    refine ⟨single,until_ held .used,?_⟩
    intro k still
    have present := alive k still
    simpa using present

end Facade.Ownership
