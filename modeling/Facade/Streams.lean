import Facade.Strings

/-!
`std::istringstream`: the bytes not yet extracted and the two error bits.
Formatted extraction skips leading white space unless told otherwise, refuses a
stream that is not good, and reports the end of the text by `eof` and a failed
extraction by `fail`. Integers are read as `std::num_get` reads them in the "C"
locale.
-/
namespace Facade.Streams
open Strings

structure IStream where
  rest : Bytes
  eof : Bool
  fail : Bool
deriving DecidableEq,Repr

namespace IStream

def ofBytes (text : Bytes) : IStream := ⟨text,false,false⟩

def good (s : IStream) : Bool := !s.eof && !s.fail

/-- `clear()`. -/
def clear (s : IStream) : IStream := { s with eof := false, fail := false }

/-- The sentry of an extraction: whether it may go on, and the stream with the
    white space skipped. -/
def sentry (skipws : Bool) (s : IStream) : Bool × IStream :=
  if s.good then
    let rest := if skipws then s.rest.dropWhile isSpace else s.rest
    if skipws && rest.isEmpty then (false,⟨rest,true,true⟩) else (true,{ s with rest := rest })
  else (false,{ s with fail := true })

/-- `peek()`, with `none` for the end-of-file value. -/
def peek (s : IStream) : Option UInt8 × IStream :=
  match sentry false s with
  | (false,s) => (none,s)
  | (true,s) =>
    match s.rest with
    | [] => (none,{ s with eof := true })
    | c :: _ => (some c,s)

/-- `>> char`. -/
def getChar (s : IStream) : Option UInt8 × IStream :=
  match sentry true s with
  | (false,s) => (none,s)
  | (true,s) =>
    match s.rest with
    | [] => (none,{ s with eof := true, fail := true })
    | c :: rest => (some c,{ s with rest := rest })

/-- `>> std::string`: the bytes up to the next white space. -/
def getWord (s : IStream) : Bytes × IStream :=
  match sentry true s with
  | (false,s) => ([],s)
  | (true,s) =>
    let word := s.rest.takeWhile fun c => !isSpace c
    let rest := s.rest.dropWhile fun c => !isSpace c
    (word,{ s with rest := rest, eof := rest.isEmpty, fail := word.isEmpty })

/-- The sign of a number, and what follows it. -/
def takeSign : Bytes → Int × Bytes
  | 45 :: rest => (-1,rest)
  | 43 :: rest => (1,rest)
  | rest => (1,rest)

/-- The value of a row of decimal digits. -/
def decimal (digits : Bytes) : Nat := digits.foldl (fun n c => 10 * n + digitVal c) 0

/-- `>> int` in base ten: a value that is no `int` fails, though its digits are
    gone. -/
def getInt (s : IStream) : Option Int × IStream :=
  match sentry true s with
  | (false,s) => (none,s)
  | (true,s) =>
    let (sign,rest) := takeSign s.rest
    let digits := rest.takeWhile isDigit
    let left := rest.dropWhile isDigit
    let value := sign * decimal digits
    let fits := digits ≠ [] ∧ -2147483648 ≤ value ∧ value ≤ 2147483647
    (if fits then some value else none,⟨left,left.isEmpty,!decide fits⟩)

/-- The digits of a number in base sixteen, after the prefix "0x" if there is
    one. -/
def skipPrefix : Bytes → Bytes
  | 48 :: 120 :: rest => rest
  | 48 :: 88 :: rest => rest
  | rest => rest

/-- The value of a row of hexadecimal digits. -/
def hexadecimal (digits : Bytes) : Nat := digits.foldl (fun n c => 16 * n + (hexVal c).getD 0) 0

/-- `>> std::hex >> int`. -/
def getHex (s : IStream) : Option Int × IStream :=
  match sentry true s with
  | (false,s) => (none,s)
  | (true,s) =>
    let (sign,rest) := takeSign s.rest
    let rest := skipPrefix rest
    let digits := rest.takeWhile fun c => (hexVal c).isSome
    let left := rest.dropWhile fun c => (hexVal c).isSome
    let value := sign * hexadecimal digits
    let fits := digits ≠ [] ∧ -2147483648 ≤ value ∧ value ≤ 2147483647
    (if fits then some value else none,⟨left,left.isEmpty,!decide fits⟩)

/-! ### Extraction from a good stream -/

theorem peek_cons (c : UInt8) (rest : Bytes) : peek ⟨c :: rest,false,false⟩ = (some c,⟨c :: rest,false,false⟩) := rfl

theorem getChar_cons {c : UInt8} (visible : isSpace c = false) (rest : Bytes) :
    getChar ⟨c :: rest,false,false⟩ = (some c,⟨rest,false,false⟩) := by
  simp [getChar,sentry,good,visible]

theorem getWord_nil : getWord ⟨[],false,false⟩ = ([],⟨[],true,true⟩) := rfl

theorem isDigit_not_space {c : UInt8} (isDig : isDigit c = true) : isSpace c = false := by
  have all : ∀ c : UInt8, isDigit c = true → isSpace c = false := forall_byte (by decide +kernel)
  exact all c isDig

theorem takeSign_unsigned {c : UInt8} (plus : c ≠ 43) (minus : c ≠ 45) (rest : Bytes) :
    takeSign (c :: rest) = (1,c :: rest) := by
  unfold takeSign
  split
  · simp_all
  · simp_all
  · rfl

theorem takeSign_digit {c : UInt8} (isDig : isDigit c = true) (rest : Bytes) :
    takeSign (c :: rest) = (1,c :: rest) := by
  have all : ∀ c : UInt8, isDigit c = true → c ≠ 43 ∧ c ≠ 45 := forall_byte (by decide +kernel)
  obtain ⟨plus,minus⟩ := all c isDig
  exact takeSign_unsigned plus minus rest

theorem skipPrefix_bare {a b : UInt8} (bare : ¬ (a = 48 ∧ (b = 120 ∨ b = 88))) (rest : Bytes) :
    skipPrefix (a :: b :: rest) = a :: b :: rest := by
  unfold skipPrefix
  split
  · simp_all
  · simp_all
  · rfl

/-- A row of digits is taken off a stream as a whole, whether its value is an
    `int` or not. -/
theorem getInt_row {digits rest : Bytes} (some_digit : digits ≠ []) (all : ∀ c ∈ digits, isDigit c = true)
    (stops : ∀ c ∈ rest.head?, isDigit c = false) :
    (getInt ⟨digits ++ rest,false,false⟩).2 = ⟨rest,rest.isEmpty,decide (2147483647 < decimal digits)⟩ := by
  obtain ⟨d,more,rfl⟩ := List.exists_cons_of_ne_nil some_digit
  have first : isDigit d = true := all d (by simp)
  have ends : rest.takeWhile isDigit = [] ∧ rest.dropWhile isDigit = rest := by
    cases rest with
    | nil => exact ⟨rfl,rfl⟩
    | cons c others =>
      have other : isDigit c = false := stops c (by simp)
      simp [other]
  have taken : (d :: more ++ rest).takeWhile isDigit = d :: more := by
    rw [List.takeWhile_append_of_pos all,ends.1,List.append_nil]
  have left : (d :: more ++ rest).dropWhile isDigit = rest := by
    rw [List.dropWhile_append_of_pos all,ends.2]
  have ready : sentry true ⟨d :: more ++ rest,false,false⟩ = (true,⟨d :: more ++ rest,false,false⟩) := by
    simp [sentry,good,isDigit_not_space first]
  simp only [getInt,ready]
  rw [List.cons_append,takeSign_digit first,← List.cons_append,taken,left]
  simp only [IStream.mk.injEq,true_and]
  have fits : (d :: more ≠ [] ∧ -2147483648 ≤ 1 * (decimal (d :: more) : Int) ∧
      1 * (decimal (d :: more) : Int) ≤ 2147483647) ↔ ¬ 2147483647 < decimal (d :: more) := by
    constructor
    · rintro ⟨_,_,high⟩
      omega
    · intro low
      exact ⟨some_digit,by omega,by omega⟩
  simp only [fits,decide_not,Bool.not_not]

theorem getInt_digits {digits rest : Bytes} (some_digit : digits ≠ []) (all : ∀ c ∈ digits, isDigit c = true)
    {c : UInt8} (stops : isDigit c = false) :
    (getInt ⟨digits ++ c :: rest,false,false⟩).2 = ⟨c :: rest,false,decide (2147483647 < decimal digits)⟩ :=
  getInt_row some_digit all (by simpa using stops)

end IStream

/-! ### Lines -/

/-- The lines of a text that a line feed ends, and what is left after the last. -/
def splitLines : Bytes → List Bytes × Bytes
  | [] => ([],[])
  | c :: rest =>
    match splitLines rest with
    | (lines,tail) =>
      if c = 10 then ([] :: lines,tail)
      else
        match lines with
        | [] => ([],c :: tail)
        | line :: later => ((c :: line) :: later,tail)

/-- What `std::getline` gives until it fails. -/
def getlines (text : Bytes) : List Bytes :=
  let (lines,tail) := splitLines text
  if tail = [] then lines else lines ++ [tail]

def joinLines (lines : List Bytes) (tail : Bytes) : Bytes := lines.flatMap (· ++ [10]) ++ tail

/-- The text without some of its lines. -/
def deleteLines (deleted : Bytes → Bool) (text : Bytes) : Bytes :=
  let (lines,tail) := splitLines text
  joinLines (lines.filter fun line => !deleted line) (if deleted tail then [] else tail)

theorem splitLines_plain (text : Bytes) : (∀ line ∈ (splitLines text).1, 10 ∉ line) ∧ 10 ∉ (splitLines text).2 := by
  induction text with
  | nil => simp [splitLines]
  | cons c rest ih =>
    obtain ⟨lines,tail⟩ := ih
    rw [splitLines]
    by_cases feed : c = 10
    · simp only [feed,if_true]
      refine ⟨?_,tail⟩
      intro line member
      rcases List.mem_cons.mp member with rfl | later
      · simp
      · exact lines line later
    · simp only [feed,if_false]
      cases found : (splitLines rest).1 with
      | nil => exact ⟨by simp,by simp [Ne.symm feed,tail]⟩
      | cons first later =>
        rw [found] at lines
        refine ⟨?_,tail⟩
        intro line member
        rcases List.mem_cons.mp member with rfl | others
        · simp [Ne.symm feed,lines first (by simp)]
        · exact lines line (by simp [others])

theorem splitLines_line {line : Bytes} (plain : 10 ∉ line) (rest : Bytes) :
    splitLines (line ++ 10 :: rest) = (line :: (splitLines rest).1,(splitLines rest).2) := by
  induction line with
  | nil => simp [splitLines]
  | cons c others ih =>
    have feed : c ≠ 10 := fun same => plain (by simp [same])
    rw [List.cons_append,splitLines,ih fun member => plain (by simp [member])]
    simp [feed]

theorem splitLines_tail {tail : Bytes} (plain : 10 ∉ tail) : splitLines tail = ([],tail) := by
  induction tail with
  | nil => rfl
  | cons c others ih =>
    have feed : c ≠ 10 := fun same => plain (by simp [same])
    rw [splitLines,ih fun member => plain (by simp [member])]
    simp [feed]

theorem splitLines_joinLines {lines : List Bytes} {tail : Bytes} (plain : ∀ line ∈ lines, 10 ∉ line) (last : 10 ∉ tail) :
    splitLines (joinLines lines tail) = (lines,tail) := by
  induction lines with
  | nil => simpa [joinLines] using splitLines_tail last
  | cons line others ih =>
    have rest := ih fun other member => plain other (by simp [member])
    have split : joinLines (line :: others) tail = line ++ 10 :: joinLines others tail := by simp [joinLines]
    rw [split,splitLines_line (plain line (by simp)),rest]

/-- The lines that are left are those not deleted; empty lines are among the
    deleted ones. -/
theorem getlines_deleteLines {deleted : Bytes → Bool} (blank : deleted [] = true) (text : Bytes) :
    getlines (deleteLines deleted text) = (getlines text).filter fun line => !deleted line := by
  obtain ⟨lines,tail⟩ := splitLines_plain text
  have kept : ∀ line ∈ (splitLines text).1.filter (fun line => !deleted line), 10 ∉ line :=
    fun line member => lines line (List.mem_of_mem_filter member)
  have last : 10 ∉ (if deleted (splitLines text).2 then [] else (splitLines text).2) := by
    split
    · simp
    · exact tail
  rw [deleteLines,getlines,splitLines_joinLines kept last,getlines]
  by_cases gone : deleted (splitLines text).2 = true
  · by_cases ended : (splitLines text).2 = []
    · simp [ended]
    · simp [gone,ended]
  · have nonempty : (splitLines text).2 ≠ [] := by
      intro empty
      rw [empty] at gone
      exact gone blank
    simp [gone,nonempty]

end Facade.Streams
