import Facade.Strings

/-!
Regular expressions as a backtracking matcher takes them: the ways to match a
text are listed in the order in which they are tried, each with what its groups
captured and what it leaves. A match of the whole text is the first that leaves
nothing.
-/
namespace Facade
open Strings

/-- Repetition is that of a single byte class, tried longest first. -/
inductive Regex
  | byte (allowed : UInt8 → Bool)
  | plus (allowed : UInt8 → Bool)
  | seq (first second : Regex)
  | alt (first second : Regex)
  | opt (inner : Regex)
  | group (number : Nat) (inner : Regex)
  | atEnd

namespace Regex

/-- The captures of a match, by the numbers of their groups. -/
abbrev Captures := List (Nat × Bytes)

def literal (text : Bytes) : Regex :=
  match text with
  | [] => .opt (.byte fun _ => false)
  | [c] => .byte (· == c)
  | c :: rest => .seq (.byte (· == c)) (literal rest)

/-- The ways to match a prefix of a text. -/
def matches_ : Regex → Bytes → List (Captures × Bytes)
  | .byte allowed,s =>
    match s with
    | [] => []
    | c :: rest => if allowed c then [([],rest)] else []
  | .plus allowed,s =>
    (List.range (s.takeWhile allowed).length).reverse.map fun k => ([],s.drop (k + 1))
  | .seq first second,s =>
    (matches_ first s).flatMap fun (captures,rest) =>
      (matches_ second rest).map fun (more,left) => (captures ++ more,left)
  | .alt first second,s => matches_ first s ++ matches_ second s
  | .opt inner,s => matches_ inner s ++ [([],s)]
  | .group number inner,s =>
    (matches_ inner s).map fun (captures,rest) => ((number,s.take (s.length - rest.length)) :: captures,rest)
  | .atEnd,s => if s = [] then [([],[])] else []

theorem matches_byte_nil (allowed : UInt8 → Bool) : matches_ (.byte allowed) [] = [] := rfl

theorem matches_byte_cons (allowed : UInt8 → Bool) (c : UInt8) (rest : Bytes) :
    matches_ (.byte allowed) (c :: rest) = if allowed c then [([],rest)] else [] := rfl

theorem matches_plus (allowed : UInt8 → Bool) (s : Bytes) : matches_ (.plus allowed) s =
    (List.range (s.takeWhile allowed).length).reverse.map fun k => ([],s.drop (k + 1)) := rfl

theorem matches_seq (first second : Regex) (s : Bytes) : matches_ (.seq first second) s =
    (matches_ first s).flatMap fun (captures,rest) =>
      (matches_ second rest).map fun (more,left) => (captures ++ more,left) := rfl

theorem matches_alt (first second : Regex) (s : Bytes) :
    matches_ (.alt first second) s = matches_ first s ++ matches_ second s := rfl

theorem matches_opt (inner : Regex) (s : Bytes) : matches_ (.opt inner) s = matches_ inner s ++ [([],s)] := rfl

theorem matches_group (number : Nat) (inner : Regex) (s : Bytes) : matches_ (.group number inner) s =
    (matches_ inner s).map fun (captures,rest) => ((number,s.take (s.length - rest.length)) :: captures,rest) := rfl

theorem matches_atEnd (s : Bytes) : matches_ .atEnd s = if s = [] then [([],[])] else [] := rfl

/-- `std::regex_match`: the captures of the first match of the whole text. -/
def regex_match (regex : Regex) (s : Bytes) : Option Captures :=
  ((matches_ regex s).find? fun (_,rest) => rest.isEmpty).map Prod.fst

/-! ### What matches -/

section
variable {captures : Captures} {s rest : Bytes} {allowed : UInt8 → Bool}

theorem mem_byte : (captures,rest) ∈ matches_ (.byte allowed) s ↔
    captures = [] ∧ ∃ c, allowed c = true ∧ s = c :: rest := by
  cases s with
  | nil => simp [matches_byte_nil]
  | cons c later =>
    by_cases here : allowed c = true
    · simp only [matches_byte_cons,here,if_true,List.mem_singleton,Prod.mk.injEq,List.cons.injEq]
      constructor
      · rintro ⟨rfl,rfl⟩
        exact ⟨rfl,c,here,rfl,rfl⟩
      · rintro ⟨rfl,_,_,rfl,rfl⟩
        exact ⟨rfl,rfl⟩
    · simp only [matches_byte_cons,here,Bool.false_eq_true,if_false,List.not_mem_nil,false_iff]
      rintro ⟨_,_,other,same⟩
      cases same
      exact here other

theorem mem_plus : (captures,rest) ∈ matches_ (.plus allowed) s ↔
    captures = [] ∧ ∃ taken, taken ≠ [] ∧ (∀ c ∈ taken, allowed c = true) ∧ s = taken ++ rest := by
  simp only [matches_plus,List.mem_map,List.mem_reverse,List.mem_range,Prod.mk.injEq]
  constructor
  · rintro ⟨k,bound,rfl,rfl⟩
    have taken : s.take (k + 1) = (s.takeWhile allowed).take (k + 1) := by
      conv => lhs; rw [← List.takeWhile_append_dropWhile (p := allowed) (l := s)]
      exact List.take_append_of_le_length (by omega)
    refine ⟨rfl,s.take (k + 1),?_,?_,(List.take_append_drop _ _).symm⟩
    · intro empty
      have length := congrArg List.length empty
      rw [taken,List.length_take,List.length_nil] at length
      omega
    · intro c member
      rw [taken] at member
      exact List.all_eq_true.mp List.all_takeWhile c (List.mem_of_mem_take member)
  · rintro ⟨rfl,taken,nonempty,all,rfl⟩
    have positive := List.length_pos_iff.mpr nonempty
    refine ⟨taken.length - 1,?_,rfl,?_⟩
    · rw [List.takeWhile_append_of_pos all,List.length_append]
      omega
    · rw [Nat.sub_add_cancel positive,List.drop_left]

theorem mem_seq {first second : Regex} : (captures,rest) ∈ matches_ (.seq first second) s ↔
    ∃ before middle after, (before,middle) ∈ matches_ first s ∧ (after,rest) ∈ matches_ second middle ∧
      captures = before ++ after := by
  simp only [matches_seq,List.mem_flatMap,List.mem_map,Prod.exists,Prod.mk.injEq]
  constructor
  · rintro ⟨before,middle,left,after,_,right,rfl,rfl⟩
    exact ⟨before,middle,after,left,right,rfl⟩
  · rintro ⟨before,middle,after,left,right,rfl⟩
    exact ⟨before,middle,left,after,rest,right,rfl,rfl⟩

theorem mem_alt {first second : Regex} : (captures,rest) ∈ matches_ (.alt first second) s ↔
    (captures,rest) ∈ matches_ first s ∨ (captures,rest) ∈ matches_ second s := by
  simp only [matches_alt,List.mem_append]

theorem mem_opt {inner : Regex} : (captures,rest) ∈ matches_ (.opt inner) s ↔
    (captures,rest) ∈ matches_ inner s ∨ captures = [] ∧ s = rest := by
  simp only [matches_opt,List.mem_append,List.mem_singleton,Prod.mk.injEq]
  exact or_congr_right (and_congr_right fun _ => eq_comm)

theorem mem_atEnd : (captures,rest) ∈ matches_ .atEnd s ↔ captures = [] ∧ s = [] ∧ rest = [] := by
  by_cases ended : s = []
  · simp [matches_atEnd,ended]
  · simp [matches_atEnd,ended]

theorem mem_literal (text : Bytes) : (captures,rest) ∈ matches_ (literal text) s ↔ captures = [] ∧ s = text ++ rest := by
  induction text generalizing s captures with
  | nil =>
    rw [literal,mem_opt,mem_byte]
    simp
  | cons c later ih =>
    cases later with
    | nil =>
      rw [literal,mem_byte]
      simp
    | cons d others =>
      have unfolded : literal (c :: d :: others) = .seq (.byte (· == c)) (literal (d :: others)) := by simp [literal]
      rw [unfolded,mem_seq]
      simp only [mem_byte,ih,beq_iff_eq]
      constructor
      · rintro ⟨_,_,_,⟨rfl,_,rfl,rfl⟩,⟨rfl,rfl⟩,rfl⟩
        exact ⟨rfl,rfl⟩
      · rintro ⟨rfl,rfl⟩
        exact ⟨[],_,[],⟨rfl,c,rfl,rfl⟩,⟨rfl,rfl⟩,rfl⟩

/-- What a match leaves is the end of the text. -/
theorem suffix_of_mem {regex : Regex} (matched : (captures,rest) ∈ matches_ regex s) : ∃ taken, s = taken ++ rest := by
  induction regex generalizing captures s rest with
  | byte allowed =>
    obtain ⟨_,c,_,rfl⟩ := mem_byte.mp matched
    exact ⟨[c],rfl⟩
  | plus allowed =>
    obtain ⟨_,taken,_,_,rfl⟩ := mem_plus.mp matched
    exact ⟨taken,rfl⟩
  | seq first second left right =>
    obtain ⟨_,middle,_,one,two,_⟩ := mem_seq.mp matched
    obtain ⟨taken,rfl⟩ := left one
    obtain ⟨more,rfl⟩ := right two
    exact ⟨taken ++ more,(List.append_assoc ..).symm⟩
  | alt first second left right =>
    rcases mem_alt.mp matched with one | two
    · exact left one
    · exact right two
  | opt inner ih =>
    rcases mem_opt.mp matched with one | ⟨_,rfl⟩
    · exact ih one
    · exact ⟨[],rfl⟩
  | group number inner ih =>
    simp only [matches_group,List.mem_map,Prod.exists,Prod.mk.injEq] at matched
    obtain ⟨_,_,one,_,rfl⟩ := matched
    exact ih one
  | atEnd =>
    obtain ⟨_,rfl,rfl⟩ := mem_atEnd.mp matched
    exact ⟨[],rfl⟩

theorem mem_group {number : Nat} {inner : Regex} : (captures,rest) ∈ matches_ (.group number inner) s ↔
    ∃ taken inside, s = taken ++ rest ∧ (inside,rest) ∈ matches_ inner s ∧ captures = (number,taken) :: inside := by
  have read : ∀ taken : Bytes, (taken ++ rest).take ((taken ++ rest).length - rest.length) = taken := by
    intro taken
    rw [List.length_append,Nat.add_sub_cancel,List.take_left]
  simp only [matches_group,List.mem_map,Prod.exists,Prod.mk.injEq]
  constructor
  · rintro ⟨inside,_,one,rfl,rfl⟩
    obtain ⟨taken,rfl⟩ := suffix_of_mem one
    exact ⟨taken,inside,rfl,one,by rw [read]⟩
  · rintro ⟨taken,inside,rfl,one,rfl⟩
    exact ⟨inside,rest,one,by rw [read],rfl⟩

/-- Where the text can be matched in one way only, that is the match found. -/
theorem regex_match_of_unique {regex : Regex} (matched : (captures,[]) ∈ matches_ regex s)
    (unique : ∀ other, (other,[]) ∈ matches_ regex s → other = captures) : regex_match regex s = some captures := by
  unfold regex_match
  cases found : (matches_ regex s).find? fun (_,rest) => rest.isEmpty with
  | none =>
    have refused := List.find?_eq_none.mp found _ matched
    simp at refused
  | some first =>
    obtain ⟨other,left⟩ := first
    have ended : left = [] := by simpa using List.find?_some found
    subst ended
    rw [Option.map_some,unique other (List.mem_of_find?_eq_some found)]

theorem regex_match_some {regex : Regex} (found : regex_match regex s = some captures) :
    (captures,[]) ∈ matches_ regex s := by
  obtain ⟨⟨other,left⟩,first,rfl⟩ := Option.map_eq_some_iff.mp found
  have ended : left = [] := by simpa using List.find?_some first
  subst ended
  exact List.mem_of_find?_eq_some first

end
end Regex
end Facade
