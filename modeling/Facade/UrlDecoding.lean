import Mathlib.Data.List.Infix
import Facade.EncodedQuery

/-!
`Utils::urlDecode` beside a decoder that reads a text as escapes and bytes
(`pieces`): a '%' with two hexadecimal digits stands for the byte they denote, a '+'
for a space, and every other byte for itself.

The stream that reads the two bytes after a '%' takes more than two digits for a
number: one digit and whatever follows it, or one digit after a blank or a sign
(`getHex_cases`). Both bytes are then passed over, so the decoders agree exactly on
the texts without such an escape (`urlDecode_faithful_iff`).
-/
namespace Facade.Query
open Strings Streams

def isHex (c : UInt8) : Bool := (hexVal c).isSome

/-- An escape, or a byte that is not part of one. -/
inductive Piece
  | escape (h l : UInt8)
  | byte (c : UInt8)
deriving DecidableEq,Repr

/-- The bytes of a piece. -/
def Piece.text : Piece → Bytes
  | .escape h l => [37,h,l]
  | .byte c => [c]

/-- The byte that a piece stands for. -/
def Piece.denotes : Piece → UInt8
  | .escape h l => UInt8.ofNat (16 * (hexVal h).getD 0 + (hexVal l).getD 0)
  | .byte c => if c = 43 then 32 else c

/-- A text as pieces, from left to right. -/
def pieces : Bytes → List Piece
  | [] => []
  | c :: a :: b :: rest =>
    if c = 37 ∧ isHex a ∧ isHex b then .escape a b :: pieces rest else .byte c :: pieces (a :: b :: rest)
  | c :: rest => .byte c :: pieces rest

/-- The text is decoded piece by piece, and every byte of it is in a piece. -/
structure Faithful (s : Bytes) : Prop where
  decoded : urlDecode s = (pieces s).map Piece.denotes
  whole : (pieces s).flatMap Piece.text = s

/-- Two bytes that are read as a number without being two digits: a blank or a sign
    before a digit, or a digit before something else, unless both are the prefix of a
    hexadecimal number. -/
def Misread (a b : UInt8) : Prop :=
  (isSpace a = true ∨ a = 43 ∨ a = 45) ∧ isHex b = true ∨
    isHex a = true ∧ isHex b = false ∧ ¬ (a = 48 ∧ (b = 120 ∨ b = 88))

instance (a b : UInt8) : Decidable (Misread a b) := inferInstanceAs (Decidable (_ ∨ _))

/-- No '%' of the text is followed by two bytes that are misread. -/
def WellEscaped (s : Bytes) : Prop := ∀ a b, [37,a,b] <:+: s → ¬ Misread a b

theorem pieces_text (s : Bytes) : (pieces s).flatMap Piece.text = s := by
  fun_induction pieces s with
  | case1 => rfl
  | case2 c a b rest digits ih => simp [Piece.text,ih,digits.1]
  | case3 c a b rest other ih => simp [Piece.text,ih]
  | case4 c rest short ih => simp [Piece.text,ih]

/-! ### The two bytes after a '%' -/

/-- A blank before the number is skipped. -/
theorem getHex_blank {a : UInt8} (blank : isSpace a = true) (b : UInt8) :
    (IStream.ofBytes [a,b]).getHex.1 = (hexVal b).map Int.ofNat := by
  have single : ∀ b : UInt8, (IStream.ofBytes [b]).getHex.1 = (hexVal b).map Int.ofNat := forall_byte (by decide +kernel)
  rw [← single b]
  simp [IStream.getHex,IStream.sentry,IStream.ofBytes,IStream.good,blank]

theorem getHex_sign {a : UInt8} (sign : a = 43 ∨ a = 45) (b : UInt8) :
    (IStream.ofBytes [a,b]).getHex.1 = (hexVal b).map fun n : Nat => if a = 45 then -(n : Int) else n := by
  have both : ∀ b : UInt8, ((IStream.ofBytes [43,b]).getHex.1 = (hexVal b).map fun n : Nat => (n : Int)) ∧
      (IStream.ofBytes [45,b]).getHex.1 = (hexVal b).map fun n : Nat => -(n : Int) :=
    forall_byte (by decide +kernel)
  rcases sign with rfl | rfl
  · exact (both b).1
  · exact (both b).2

/-- A single digit before a byte that is none. -/
theorem getHex_digit {a b : UInt8} {n : Nat} (digit : hexVal a = some n) (other : isHex b = false)
    (bare : ¬ (a = 48 ∧ (b = 120 ∨ b = 88))) : (IStream.ofBytes [a,b]).getHex.1 = some (n : Int) := by
  obtain ⟨visible,plus,minus,-⟩ := hexVal_visible (by simp [digit] : (hexVal a).isSome = true)
  have unsigned := IStream.takeSign_unsigned plus minus [b]
  have noPrefix := IStream.skipPrefix_bare bare []
  have small := hexVal_lt digit
  have fits : -2147483648 ≤ (n : Int) ∧ (n : Int) ≤ 2147483647 := by omega
  simp only [isHex] at other
  simp [IStream.getHex,IStream.sentry,IStream.ofBytes,IStream.good,visible,unsigned,noPrefix,digit,other,
    IStream.hexadecimal,fits]

/-- No number starts with any other byte, nor with the prefix alone. -/
theorem getHex_other {a b : UInt8} (visible : isSpace a = false) (plus : a ≠ 43) (minus : a ≠ 45)
    (other : isHex a = false ∨ (a = 48 ∧ (b = 120 ∨ b = 88))) : (IStream.ofBytes [a,b]).getHex.1 = none := by
  rcases other with noDigit | ⟨rfl,rfl | rfl⟩
  · have zero : a ≠ 48 := by
      rintro rfl
      revert noDigit
      decide
    have unsigned := IStream.takeSign_unsigned plus minus [b]
    have noPrefix := IStream.skipPrefix_bare (by simp [zero] : ¬ (a = 48 ∧ (b = 120 ∨ b = 88))) []
    simp only [isHex] at noDigit
    simp [IStream.getHex,IStream.sentry,IStream.ofBytes,IStream.good,visible,unsigned,noPrefix,noDigit]
  · decide
  · decide

/-- What the two bytes after a '%' are read as: the byte that two digits denote, a
    number of one digit where they are misread, and otherwise nothing. -/
theorem getHex_cases (a b : UInt8) :
    (isHex a = true ∧ isHex b = true ∧
      ((IStream.ofBytes [a,b]).getHex.1.map toChar = some (Piece.denotes (.escape a b)))) ∨
    (¬ (isHex a = true ∧ isHex b = true) ∧ Misread a b ∧
      ∃ value, (IStream.ofBytes [a,b]).getHex.1 = some value ∧ -16 < value ∧ value < 16) ∨
    (¬ (isHex a = true ∧ isHex b = true) ∧ ¬ Misread a b ∧ (IStream.ofBytes [a,b]).getHex.1 = none) := by
  by_cases before : isSpace a = true ∨ a = 43 ∨ a = 45
  · -- a digit is neither a blank nor a sign
    have noDigit : isHex a = false := by
      by_contra digit
      have isDigit : isHex a = true := by simpa using digit
      obtain ⟨visible,plus,minus,-⟩ := hexVal_visible isDigit
      simp [visible,plus,minus] at before
    have read : (IStream.ofBytes [a,b]).getHex.1 = (hexVal b).map Int.ofNat ∨
        (IStream.ofBytes [a,b]).getHex.1 = (hexVal b).map fun n : Nat => if a = 45 then -(n : Int) else n := by
      rcases before with blank | sign
      · exact .inl (getHex_blank blank b)
      · exact .inr (getHex_sign sign b)
    cases second : hexVal b with
    | none =>
      refine .inr (.inr ⟨by simp [noDigit],?_,?_⟩)
      · have noDigit' : isHex b = false := by simp [isHex,second]
        simp [Misread,noDigit,noDigit']
      · simpa [second] using read
    | some n =>
      have small := hexVal_lt second
      refine .inr (.inl ⟨by simp [noDigit],.inl ⟨before,by simp [isHex,second]⟩,?_⟩)
      rw [second] at read
      rcases read with value | value
      · exact ⟨n,value,by omega,by omega⟩
      · refine ⟨if a = 45 then -(n : Int) else n,value,?_⟩
        split <;> omega
  · obtain ⟨visible,plus,minus⟩ : isSpace a = false ∧ a ≠ 43 ∧ a ≠ 45 := by simpa [not_or] using before
    have unread : isHex a = false ∨ (a = 48 ∧ (b = 120 ∨ b = 88)) → ¬ (isHex a = true ∧ isHex b = true) ∧
        ¬ Misread a b ∧ (IStream.ofBytes [a,b]).getHex.1 = none := by
      intro other
      have noHex : isHex 120 = false ∧ isHex 88 = false := by decide
      refine ⟨?_,?_,getHex_other visible plus minus other⟩
      · rcases other with noDigit | ⟨-,rfl | rfl⟩
        · simp [noDigit]
        · simp [noHex.1]
        · simp [noHex.2]
      · rintro (⟨blank,-⟩ | ⟨digit,-,bare⟩)
        · exact before blank
        · rcases other with noDigit | isPrefix
          · simp [noDigit] at digit
          · exact bare isPrefix
    cases first : hexVal a with
    | none => exact .inr (.inr (unread (.inl (by simp [isHex,first]))))
    | some hi =>
      have digit : isHex a = true := by simp [isHex,first]
      cases second : hexVal b with
      | some lo =>
        refine .inl ⟨digit,by simp [isHex,second],?_⟩
        have bounds := And.intro (hexVal_lt first) (hexVal_lt second)
        rw [getHex_digits first second]
        simp only [Option.map_some,toChar,Piece.denotes,first,second,Option.getD_some,Option.some.injEq]
        congr 1
        omega
      | none =>
        have other : isHex b = false := by simp [isHex,second]
        by_cases bare : a = 48 ∧ (b = 120 ∨ b = 88)
        · exact .inr (.inr (unread (.inr bare)))
        · have small := hexVal_lt first
          refine .inr (.inl ⟨by simp [other],.inr ⟨digit,other,bare⟩,hi,getHex_digit first other bare,?_,?_⟩)
          · omega
          · omega

/-! ### Whole texts -/

theorem wellEscaped_cons (c : UInt8) (rest : Bytes) : WellEscaped (c :: rest) ↔
    (∀ a b more, c = 37 → rest = a :: b :: more → ¬ Misread a b) ∧ WellEscaped rest := by
  simp only [WellEscaped,List.infix_cons_iff]
  constructor
  · intro clean
    refine ⟨?_,fun a b later => clean a b (.inr later)⟩
    rintro a b more rfl rfl
    exact clean a b (.inl ⟨more,rfl⟩)
  · rintro ⟨first,later⟩ a b (⟨more,same⟩ | inside)
    · obtain ⟨rfl,rfl⟩ : 37 = c ∧ a :: b :: more = rest := by simpa using same
      exact first a b more rfl rfl
    · exact later a b inside

theorem wellEscaped_percent (a b : UInt8) (rest : Bytes) :
    WellEscaped (37 :: a :: b :: rest) ↔ ¬ Misread a b ∧ WellEscaped (a :: b :: rest) := by
  rw [wellEscaped_cons]
  refine and_congr_left fun _ => ⟨fun clean => clean a b rest rfl rfl,?_⟩
  rintro fine x y more - cut
  obtain ⟨rfl,rfl,rfl⟩ : a = x ∧ b = y ∧ rest = more := by simpa using cut
  exact fine

/-- Digits of an escape start no other one. -/
theorem wellEscaped_digits {a b : UInt8} (digits : isHex a = true ∧ isHex b = true) (rest : Bytes) :
    WellEscaped (37 :: a :: b :: rest) ↔ WellEscaped rest := by
  obtain ⟨first,second⟩ := digits
  obtain ⟨visible,plus,minus,percent⟩ := hexVal_visible first
  have percent' := (hexVal_visible second).2.2.2
  have read : ¬ Misread a b := by simp [Misread,visible,plus,minus,second]
  rw [wellEscaped_percent,wellEscaped_cons,wellEscaped_cons]
  simp [percent,percent',read]

/-- A text this short has no room for an escape. -/
theorem urlDecode_short (c : UInt8) {rest : Bytes} (short : ∀ a b more, rest = a :: b :: more → False) :
    urlDecode (c :: rest) = Piece.denotes (.byte c) :: urlDecode rest := by
  cases rest with
  | nil => rfl
  | cons a more =>
    cases more with
    | nil => rfl
    | cons b more => exact (short a b more rfl).elim

/-- A number of one digit, or one below zero, is no '%'. -/
theorem toChar_small {value : Int} (least : -16 < value) (most : value < 16) : toChar value ≠ 37 := by
  intro same
  have number : (value % 256).toNat % 256 = 37 := congrArg UInt8.toNat same
  omega

/-- The decoders agree exactly on the texts in which nothing after a '%' is misread. -/
theorem decoded_iff (s : Bytes) : urlDecode s = (pieces s).map Piece.denotes ↔ WellEscaped s := by
  fun_induction pieces s with
  | case1 => simp [urlDecode,WellEscaped]
  | case2 c a b rest digits ih =>
    obtain ⟨rfl,digits⟩ := digits
    rw [wellEscaped_digits digits,← ih,urlDecode_percent]
    rcases getHex_cases a b with ⟨-,-,read⟩ | ⟨none,-⟩ | ⟨none,-⟩
    · obtain ⟨value,number,denoted⟩ := Option.map_eq_some_iff.mp read
      simp [number,denoted]
    · exact absurd digits none
    · exact absurd digits none
  | case3 c a b rest other ih =>
    by_cases percent : c = 37
    · subst percent
      rw [wellEscaped_percent,← ih,urlDecode_percent]
      rcases getHex_cases a b with ⟨first,second,-⟩ | ⟨-,misread,value,number,least,most⟩ | ⟨-,fine,number⟩
      · exact absurd ⟨rfl,first,second⟩ other
      · -- what is misread is no '%', which the other decoder copies
        simp [number,misread,Piece.denotes,toChar_small least most]
      · simp [number,fine,Piece.denotes]
    · rw [wellEscaped_cons,← ih,urlDecode_cons percent]
      simp [percent,Piece.denotes]
  | case4 c rest short ih =>
    rw [wellEscaped_cons,← ih,urlDecode_short c short,List.map_cons,List.cons.injEq]
    refine and_congr_left fun _ => iff_of_true rfl ?_
    rintro a b more - cut
    exact (short a b more cut).elim

/-- The text is decoded as the pieces say exactly when no '%' is followed by a blank or
    a sign and a digit, or by one digit only. -/
theorem urlDecode_faithful_iff (s : Bytes) : Faithful s ↔ WellEscaped s :=
  ⟨fun faithful => (decoded_iff s).mp faithful.decoded,fun clean => ⟨(decoded_iff s).mpr clean,pieces_text s⟩⟩

/-- A digit and the byte after it are read as one byte, so that two ids become one. -/
theorem single_digit_read : urlDecode (lit "%4g") = [4] ∧ ¬ Faithful (lit "%4g") ∧
    param (lit "id") (parseQuery (lit "id=%4g")) = param (lit "id") (parseQuery (lit "id=%04")) := by
  refine ⟨by decide +kernel,?_,by decide +kernel⟩
  rintro ⟨decoded,-⟩
  revert decoded
  decide +kernel

end Facade.Query
