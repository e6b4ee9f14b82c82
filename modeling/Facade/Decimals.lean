import Facade.Streams
import Mathlib.Data.Nat.Digits.Defs

/-!
The decimal form of an integer, as `std::to_string` and `operator<<` write it.
The digits read back as the number they were written for (`decimal_digits`), and
with their sign as the integer (`takeSign_to_string`).
-/
namespace Facade.Decimals
open Strings Streams

/-- The digits of a number, the highest first. -/
def digits (n : Nat) : Bytes := if n = 0 then [48] else (Nat.digits 10 n).reverse.map digit

/-- `std::to_string` of an integer. -/
def to_string (n : Int) : Bytes := if n < 0 then 45 :: digits n.natAbs else digits n.natAbs

theorem decimal_snoc (row : Bytes) (c : UInt8) : IStream.decimal (row ++ [c]) = 10 * IStream.decimal row + digitVal c := by
  simp [IStream.decimal]

/-- A row of digits has the value of the digits it was made from. -/
theorem decimal_map_digit {row : List Nat} (small : ∀ d ∈ row, d < 10) :
    IStream.decimal (row.reverse.map digit) = Nat.ofDigits 10 row := by
  induction row with
  | nil => rfl
  | cons d row ih =>
    have here : d < 10 := small d List.mem_cons_self
    rw [List.reverse_cons,List.map_append,List.map_singleton,decimal_snoc,digitVal_digit here,
      ih fun e member => small e (List.mem_cons_of_mem d member),Nat.ofDigits_cons]
    omega

theorem decimal_digits (n : Nat) : IStream.decimal (digits n) = n := by
  unfold digits
  split
  · rename_i zero
    subst zero
    rfl
  · rw [decimal_map_digit fun d member => Nat.digits_lt_base (by decide) member,Nat.ofDigits_digits]

theorem digits_isDigit (n : Nat) : ∀ c ∈ digits n, isDigit c = true := by
  unfold digits
  split
  · simp [isDigit]
  · intro c member
    obtain ⟨d,inside,rfl⟩ := List.mem_map.mp member
    exact digit_isDigit (Nat.digits_lt_base (by decide) (List.mem_reverse.mp inside))

theorem digits_ne_nil (n : Nat) : digits n ≠ [] := by
  unfold digits
  split
  · simp
  · rename_i positive
    simpa [Nat.digits_ne_nil_iff_ne_zero] using positive

/-- Only digits and the minus sign are written. -/
theorem to_string_chars {n : Int} {c : UInt8} (member : c ∈ to_string n) : c = 45 ∨ isDigit c = true := by
  unfold to_string at member
  split at member
  · rcases List.mem_cons.mp member with minus | inside
    · exact .inl minus
    · exact .inr (digits_isDigit _ c inside)
  · exact .inr (digits_isDigit _ c member)

theorem takeSign_digits (n : Nat) (rest : Bytes) : IStream.takeSign (digits n ++ rest) = (1,digits n ++ rest) := by
  cases form : digits n with
  | nil => exact absurd form (digits_ne_nil n)
  | cons c row =>
    have digit : isDigit c = true := digits_isDigit n c (by rw [form]; exact List.mem_cons_self)
    have minus : c ≠ 45 := by
      rintro rfl
      cases digit
    have plus : c ≠ 43 := by
      rintro rfl
      cases digit
    unfold IStream.takeSign
    split
    · rename_i start
      exact absurd (List.cons.inj start).1 minus
    · rename_i start
      exact absurd (List.cons.inj start).1 plus
    · rfl

/-- The sign and the digits read back as the number. -/
theorem takeSign_to_string (n : Int) : ∃ sign row, IStream.takeSign (to_string n) = (sign,row) ∧
    (∀ c ∈ row, isDigit c = true) ∧ row ≠ [] ∧ sign * IStream.decimal row = n := by
  unfold to_string
  split
  · refine ⟨-1,digits n.natAbs,rfl,digits_isDigit _,digits_ne_nil _,?_⟩
    rw [decimal_digits]
    omega
  · refine ⟨1,digits n.natAbs,?_,digits_isDigit _,digits_ne_nil _,?_⟩
    · simpa using takeSign_digits n.natAbs []
    · rw [decimal_digits]
      omega

end Facade.Decimals
