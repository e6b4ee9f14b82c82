import Mathlib.Data.List.Basic
import Mathlib.Data.List.Induction

/-!
Ordered maps, as `std::map` is: a list of bindings in the order of their keys.
Assigning to a key replaces its binding or adds one at the key's place.
-/
namespace Facade

/-- The bindings of a map, in the order of their keys. -/
abbrev OrderedMap (K V : Type) := List (K × V)

namespace OrderedMap
variable {K V : Type} [DecidableEq K] [LT K] [DecidableLT K]

/-- `m[key] = value`. -/
def assign (key : K) (value : V) : OrderedMap K V → OrderedMap K V
  | [] => [(key,value)]
  | (k,v) :: rest =>
    if key = k then (key,value) :: rest
    else if key < k then (key,value) :: (k,v) :: rest
    else (k,v) :: assign key value rest

/-- `m.find(key)`. -/
def find (key : K) : OrderedMap K V → Option V
  | [] => none
  | (k,v) :: rest => if key = k then some v else find key rest

/-- `m.erase(key)`. -/
def erase (key : K) (m : OrderedMap K V) : OrderedMap K V := m.filter fun b => b.1 ≠ key

omit [LT K] [DecidableLT K] in
@[simp] theorem find_nil (key : K) : find key ([] : OrderedMap K V) = none := rfl

theorem find_assign_self (key : K) (value : V) (m : OrderedMap K V) : find key (assign key value m) = some value := by
  induction m with
  | nil => simp [assign,find]
  | cons binding rest ih =>
    obtain ⟨k,v⟩ := binding
    unfold assign
    split
    · simp [find]
    · rename_i differs
      split
      · simp [find]
      · simp [find,differs,ih]

theorem find_assign_ne {key other : K} (differs : other ≠ key) (value : V) (m : OrderedMap K V) :
    find other (assign key value m) = find other m := by
  induction m with
  | nil => simp [assign,find,differs]
  | cons binding rest ih =>
    obtain ⟨k,v⟩ := binding
    unfold assign
    split
    · rename_i same
      subst same
      simp [find,differs]
    · split
      · simp [find,differs]
      · simp [find,ih]

omit [LT K] [DecidableLT K] in
theorem find_erase_self (key : K) (m : OrderedMap K V) : find key (erase key m) = none := by
  induction m with
  | nil => rfl
  | cons binding rest ih =>
    obtain ⟨k,v⟩ := binding
    unfold erase at ih ⊢
    by_cases same : k = key
    · simpa [same] using ih
    · simpa [same,find,Ne.symm same] using ih

omit [LT K] [DecidableLT K] in
theorem find_erase_ne {key other : K} (differs : other ≠ key) (m : OrderedMap K V) :
    find other (erase key m) = find other m := by
  induction m with
  | nil => rfl
  | cons binding rest ih =>
    obtain ⟨k,v⟩ := binding
    unfold erase at ih ⊢
    by_cases same : k = key
    · subst same
      simpa [find,differs] using ih
    · rw [List.filter_cons_of_pos (by simpa using same)]
      simp only [find,ih]

/-- A predicate on bindings that an assignment keeps. -/
theorem forall_assign {P : K × V → Prop} {key : K} {value : V} {m : OrderedMap K V} (new : P (key,value))
    (old : ∀ b ∈ m, P b) : ∀ b ∈ assign key value m, P b := by
  induction m with
  | nil => simpa [assign] using new
  | cons binding rest ih =>
    obtain ⟨k,v⟩ := binding
    have later := ih (fun b member => old b (by simp [member]))
    have here := old (k,v) (by simp)
    unfold assign
    split
    · intro b member
      rcases List.mem_cons.mp member with rfl | tail
      · exact new
      · exact old b (by simp [tail])
    · split
      · intro b member
        rcases List.mem_cons.mp member with rfl | tail
        · exact new
        · exact old b tail
      · intro b member
        rcases List.mem_cons.mp member with rfl | tail
        · exact here
        · exact later b tail

omit [LT K] [DecidableLT K] in
theorem mem_of_find {key : K} {value : V} {m : OrderedMap K V} (found : find key m = some value) :
    (key,value) ∈ m := by
  induction m with
  | nil => cases found
  | cons binding rest ih =>
    obtain ⟨k,v⟩ := binding
    simp only [find] at found
    split at found
    · rename_i same
      subst same
      simp only [Option.some.injEq] at found
      simp [found]
    · simp [ih found]

/-- The map that a list of assignments, made from left to right, leaves. -/
def ofBindings (bindings : List (K × V)) : OrderedMap K V := bindings.foldl (fun m b => assign b.1 b.2 m) []

/-- The value of the last binding of a name. -/
def lastValue (key : K) : List (K × V) → Option V
  | [] => none
  | (k,v) :: rest => (lastValue key rest).or (if key = k then some v else none)

theorem find_foldl_assign (key : K) (bindings : List (K × V)) (m : OrderedMap K V) :
    find key (bindings.foldl (fun m b => assign b.1 b.2 m) m) = (lastValue key bindings).or (find key m) := by
  induction bindings generalizing m with
  | nil => simp [lastValue]
  | cons binding rest ih =>
    obtain ⟨k,v⟩ := binding
    rw [List.foldl_cons,ih]
    by_cases same : key = k
    · subst same
      simp [lastValue,find_assign_self]
    · simp [lastValue,find_assign_ne same,same]

theorem find_ofBindings (key : K) (bindings : List (K × V)) :
    find key (ofBindings bindings) = lastValue key bindings := by
  simp [ofBindings,find_foldl_assign]

omit [LT K] [DecidableLT K] in
theorem lastValue_eq_none {key : K} {bindings : List (K × V)} (absent : ∀ b ∈ bindings, b.1 ≠ key) :
    lastValue key bindings = none := by
  induction bindings with
  | nil => rfl
  | cons binding rest ih =>
    obtain ⟨k,v⟩ := binding
    have differs : key ≠ k := (absent (k,v) (by simp)).symm
    have later := ih (fun b member => absent b (by simp [member]))
    simp [lastValue,later,differs]

omit [LT K] [DecidableLT K] in
theorem lastValue_of_mem {key : K} {value : V} {bindings : List (K × V)} (member : (key,value) ∈ bindings) :
    ∃ last, lastValue key bindings = some last := by
  induction bindings with
  | nil => cases member
  | cons binding rest ih =>
    rcases List.mem_cons.mp member with rfl | later
    · cases found : lastValue key rest with
      | none => exact ⟨value,by simp [lastValue,found]⟩
      | some last => exact ⟨last,by simp [lastValue,found]⟩
    · obtain ⟨last,found⟩ := ih later
      exact ⟨last,by simp [lastValue,found]⟩

omit [LT K] [DecidableLT K] in
theorem lastValue_append (key : K) (left right : List (K × V)) :
    lastValue key (left ++ right) = (lastValue key right).or (lastValue key left) := by
  induction left with
  | nil => simp [lastValue]
  | cons binding rest ih =>
    obtain ⟨k,v⟩ := binding
    simp only [List.cons_append,lastValue,ih,Option.or_assoc]

/-- Bindings in the order of their keys, no key twice. -/
def Sorted (m : OrderedMap K V) : Prop := m.Pairwise (fun a b => a.1 < b.1)

section Order
set_option linter.unusedSectionVars false
variable [Std.Irrefl (fun a b : K => a < b)] [Std.Trichotomous (fun a b : K => a < b)]
  [Trans (fun a b : K => a < b) (fun a b : K => a < b) (fun a b : K => a < b)]

theorem sorted_assign (key : K) (value : V) {m : OrderedMap K V} (sorted : Sorted m) :
    Sorted (assign key value m) := by
  induction m with
  | nil => simp [assign,Sorted]
  | cons binding rest ih =>
    obtain ⟨k,v⟩ := binding
    obtain ⟨first,others⟩ := List.pairwise_cons.mp sorted
    unfold assign
    split
    · rename_i same
      subst same
      exact List.pairwise_cons.mpr ⟨first,others⟩
    · rename_i differs
      split
      · rename_i before
        refine List.pairwise_cons.mpr ⟨?_,sorted⟩
        intro b member
        rcases List.mem_cons.mp member with rfl | tail
        · exact before
        · exact Trans.trans before (first b tail)
      · rename_i notBefore
        have after : k < key := by
          by_contra notAfter
          exact differs (Std.Trichotomous.trichotomous _ _ notBefore notAfter)
        refine List.pairwise_cons.mpr ⟨?_,ih others⟩
        exact forall_assign after first

theorem sorted_ofBindings (bindings : List (K × V)) : Sorted (ofBindings bindings) := by
  unfold ofBindings
  suffices kept : ∀ m : OrderedMap K V, Sorted m → Sorted (bindings.foldl (fun m b => assign b.1 b.2 m) m) by
    exact kept [] List.Pairwise.nil
  induction bindings with
  | nil => exact fun m sorted => sorted
  | cons binding rest ih => exact fun m sorted => ih _ (sorted_assign _ _ sorted)

theorem find_head {key : K} {value : V} {rest : OrderedMap K V} (sorted : Sorted ((key,value) :: rest)) :
    find key rest = none := by
  cases found : find key rest with
  | none => rfl
  | some other =>
    have after := (List.pairwise_cons.mp sorted).1 _ (mem_of_find found)
    exact absurd after (Std.Irrefl.irrefl key)

theorem find_of_mem {key : K} {value : V} {m : OrderedMap K V} (sorted : Sorted m) (member : (key,value) ∈ m) :
    find key m = some value := by
  induction m with
  | nil => cases member
  | cons binding rest ih =>
    obtain ⟨first,others⟩ := List.pairwise_cons.mp sorted
    rcases List.mem_cons.mp member with rfl | later
    · simp [find]
    · have differs : key ≠ binding.1 := by
        intro same
        have after := first _ later
        rw [← same] at after
        exact Std.Irrefl.irrefl key after
      rw [find,if_neg differs]
      exact ih others later

/-- Of the bindings made from a map, the one made from the greatest key is the
    last for its name. -/
theorem lastValue_filterMap {K' V' : Type} [DecidableEq K'] {make : K × V → Option (K' × V')} {m : OrderedMap K V}
    (sorted : Sorted m) {name : K'} {value : V'} :
    lastValue name (m.filterMap make) = some value ↔
      ∃ b ∈ m, make b = some (name,value) ∧ ∀ b' ∈ m, (∃ other, make b' = some (name,other)) → ¬ b.1 < b'.1 := by
  induction m using List.reverseRecOn with
  | nil => simp [lastValue]
  | append_singleton rest b ih =>
    obtain ⟨others,_,before⟩ := List.pairwise_append.mp sorted
    have earlier : ∀ b' ∈ rest, b'.1 < b.1 := fun b' member => before b' member b (by simp)
    rw [List.filterMap_append,lastValue_append]
    by_cases made : ∃ last, make b = some (name,last)
    · -- the greatest key makes a binding for the name
      obtain ⟨last,made⟩ := made
      have here : lastValue name ([b].filterMap make) = some last := by simp [made,lastValue]
      rw [here,Option.some_or,Option.some.injEq]
      constructor
      · rintro rfl
        refine ⟨b,by simp,made,?_⟩
        intro b' member _ after
        rcases List.mem_append.mp member with old | new
        · exact Std.Irrefl.irrefl b.1 (Trans.trans after (earlier b' old))
        · rw [List.mem_singleton.mp new] at after
          exact Std.Irrefl.irrefl b.1 after
      · rintro ⟨b',member,made',greatest⟩
        rcases List.mem_append.mp member with old | new
        · exact absurd (earlier b' old) (greatest b (by simp) ⟨last,made⟩)
        · rw [List.mem_singleton.mp new,made] at made'
          cases made'
          rfl
    · have nothing : lastValue name ([b].filterMap make) = none := by
        refine lastValue_eq_none ?_
        intro binding member same
        obtain ⟨_,isB,made'⟩ := List.mem_filterMap.mp member
        rw [List.mem_singleton.mp isB] at made'
        exact made ⟨binding.2,by rw [made',← same]⟩
      rw [nothing,Option.none_or,ih others]
      constructor
      · rintro ⟨b',member,made',greatest⟩
        refine ⟨b',by simp [member],made',?_⟩
        intro b'' inside other
        rcases List.mem_append.mp inside with old | new
        · exact greatest b'' old other
        · rw [List.mem_singleton.mp new] at other
          exact absurd other made
      · rintro ⟨b',member,made',greatest⟩
        rcases List.mem_append.mp member with old | new
        · exact ⟨b',old,made',fun b'' inside => greatest b'' (by simp [inside])⟩
        · rw [List.mem_singleton.mp new] at made'
          exact absurd ⟨value,made'⟩ made

/-- Two maps with the same bindings are the same list. -/
theorem eq_of_find {m n : OrderedMap K V} (left : Sorted m) (right : Sorted n)
    (same : ∀ key, find key m = find key n) : m = n := by
  induction m generalizing n with
  | nil =>
    cases n with
    | nil => rfl
    | cons binding rest =>
      have missing := same binding.1
      simp [find] at missing
  | cons binding rest ih =>
    obtain ⟨k,v⟩ := binding
    cases n with
    | nil =>
      have missing := same k
      simp [find] at missing
    | cons other others =>
      obtain ⟨k',v'⟩ := other
      have keys : k = k' := by
        by_contra differs
        have there : (k,v) ∈ others := by
          have found : find k ((k',v') :: others) = some v := by simpa [find] using (same k).symm
          simpa [differs] using mem_of_find found
        have here : (k',v') ∈ rest := by
          have found : find k' ((k,v) :: rest) = some v' := by simpa [find] using same k'
          simpa [Ne.symm differs] using mem_of_find found
        have less : k < k' := (List.pairwise_cons.mp left).1 _ here
        have more : k' < k := (List.pairwise_cons.mp right).1 _ there
        exact Std.Irrefl.irrefl k (Trans.trans less more)
      subst keys
      have values : v = v' := by simpa [find] using same k
      subst values
      have tails : ∀ key, find key rest = find key others := by
        intro key
        by_cases first : key = k
        · subst first
          rw [find_head left,find_head right]
        · simpa [find,first] using same key
      rw [ih (List.pairwise_cons.mp left).2 (List.pairwise_cons.mp right).2 tails]

end Order
end OrderedMap
end Facade
