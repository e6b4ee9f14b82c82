import Mathlib.Data.List.Basic

/-!
Byte strings: the values of `std::string`, the character classes of the "C"
locale, well-formed UTF-8, and percent-encoding as RFC 3986 defines it.
-/
namespace Facade.Strings

/-- A string of bytes; a byte stands for one `char`. -/
abbrev Bytes := List UInt8

/-- The bytes of an ASCII literal. -/
def lit (s : String) : Bytes := s.toList.map fun c => UInt8.ofNat c.toNat

/-! ### Character classes of the "C" locale -/

/-- `isspace`: blank, tab, line feed, vertical tab, form feed, carriage return. -/
def isSpace (c : UInt8) : Bool := c == 32 || (9 ≤ c && c ≤ 13)
def isDigit (c : UInt8) : Bool := 48 ≤ c && c ≤ 57
def isUpper (c : UInt8) : Bool := 65 ≤ c && c ≤ 90
def isLower (c : UInt8) : Bool := 97 ≤ c && c ≤ 122
def isAlpha (c : UInt8) : Bool := isUpper c || isLower c
def toUpper (c : UInt8) : UInt8 := if isLower c then c - 32 else c
def toLower (c : UInt8) : UInt8 := if isUpper c then c + 32 else c

/-- The value of a decimal digit. -/
def digitVal (c : UInt8) : Nat := c.toNat - 48

/-- The value of a hexadecimal digit of either case. -/
def hexVal (c : UInt8) : Option Nat :=
  if isDigit c then some (c.toNat - 48)
  else if 97 ≤ c && c ≤ 102 then some (c.toNat - 87)
  else if 65 ≤ c && c ≤ 70 then some (c.toNat - 55)
  else none

/-- The decimal digit of a value below ten. -/
def digit (n : Nat) : UInt8 := UInt8.ofNat (48 + n)

theorem forall_byte {P : UInt8 → Prop} [DecidablePred P] (all : ∀ n : Fin 256, P (UInt8.ofNat n.val)) (c : UInt8) :
    P c := by
  have here := all ⟨c.toNat,c.toNat_lt⟩
  simpa using here

theorem isUpper_toUpper {c : UInt8} (alpha : isAlpha c = true) : isUpper (toUpper c) = true := by
  have all : ∀ c : UInt8, isAlpha c = true → isUpper (toUpper c) = true := forall_byte (by decide +kernel)
  exact all c alpha

theorem digit_isDigit {n : Nat} (small : n < 10) : isDigit (digit n) = true := by
  have all : ∀ n : Fin 10, isDigit (digit n.val) = true := by decide
  exact all ⟨n,small⟩

theorem digitVal_digit {n : Nat} (small : n < 10) : digitVal (digit n) = n := by
  have all : ∀ n : Fin 10, digitVal (digit n.val) = n.val := by decide
  exact all ⟨n,small⟩

theorem hexVal_lt {c : UInt8} {n : Nat} (hex : hexVal c = some n) : n < 16 := by
  have all : ∀ c : UInt8, (hexVal c).getD 0 < 16 := forall_byte (by decide +kernel)
  simpa [hex] using all c

/-- A hexadecimal digit is no blank, no sign and no '%'. -/
theorem hexVal_visible {c : UInt8} (hex : (hexVal c).isSome = true) :
    isSpace c = false ∧ c ≠ 43 ∧ c ≠ 45 ∧ c ≠ 37 := by
  have all : ∀ c : UInt8, (hexVal c).isSome = true → isSpace c = false ∧ c ≠ 43 ∧ c ≠ 45 ∧ c ≠ 37 :=
    forall_byte (by decide +kernel)
  exact all c hex

/-! ### UTF-8 -/

/-- A continuation byte. -/
def isTail (c : UInt8) : Bool := 0x80 ≤ c && c ≤ 0xBF

/-- Well-formed UTF-8, with the byte ranges of the Unicode standard: no
    overlong forms, no surrogates, nothing above U+10FFFF. -/
def utf8Valid : Bytes → Bool
  | [] => true
  | a :: rest =>
    if a < 0x80 then utf8Valid rest
    else if 0xC2 ≤ a && a ≤ 0xDF then
      match rest with
      | b :: rest => isTail b && utf8Valid rest
      | [] => false
    else if 0xE0 ≤ a && a ≤ 0xEF then
      match rest with
      | b :: c :: rest =>
        (if a == 0xE0 then 0xA0 ≤ b && b ≤ 0xBF else if a == 0xED then 0x80 ≤ b && b ≤ 0x9F else isTail b) &&
          isTail c && utf8Valid rest
      | _ => false
    else if 0xF0 ≤ a && a ≤ 0xF4 then
      match rest with
      | b :: c :: d :: rest =>
        (if a == 0xF0 then 0x90 ≤ b && b ≤ 0xBF else if a == 0xF4 then 0x80 ≤ b && b ≤ 0x8F else isTail b) &&
          isTail c && isTail d && utf8Valid rest
      | _ => false
    else false

/-! ### Percent-encoding -/

/-- The characters RFC 3986 allows in a path segment, escapes apart:
    unreserved characters, sub-delimiters, ':' and '@'. -/
def isSegmentChar (c : UInt8) : Bool :=
  isAlpha c || isDigit c || c ∈ lit "-._~!$&'()*+,;=:@"

/-- `segment = *pchar`: allowed characters and escapes `%XX`. -/
def isSegment : Bytes → Bool
  | [] => true
  | c :: rest =>
    if c = 37 then
      match rest with
      | h :: l :: rest => (hexVal h).isSome && (hexVal l).isSome && isSegment rest
      | _ => false
    else isSegmentChar c && isSegment rest

/-- The bytes a segment stands for: each `%XX` is the byte it denotes. -/
def pctDecode : Bytes → Bytes
  | [] => []
  | c :: rest =>
    if c = 37 then
      match rest with
      | h :: l :: more =>
        match hexVal h, hexVal l with
        | some hi, some lo => UInt8.ofNat (16 * hi + lo) :: pctDecode more
        | _, _ => c :: pctDecode (h :: l :: more)
      | short => c :: short
    else c :: pctDecode rest

theorem isSegmentChar_ne_percent {c : UInt8} (allowed : isSegmentChar c = true) : c ≠ 37 := by
  rintro rfl
  revert allowed
  decide

theorem isSegment_cons {c : UInt8} (plain : c ≠ 37) (rest : Bytes) :
    isSegment (c :: rest) = (isSegmentChar c && isSegment rest) := by
  match rest with
  | [] => simp [isSegment,plain]
  | [_] => simp [isSegment,plain]
  | _ :: _ :: _ => simp [isSegment,plain]

theorem pctDecode_cons {c : UInt8} (plain : c ≠ 37) (rest : Bytes) :
    pctDecode (c :: rest) = c :: pctDecode rest := by
  match rest with
  | [] => simp [pctDecode,plain]
  | [_] => simp [pctDecode,plain]
  | _ :: _ :: _ => simp [pctDecode,plain]

/-- Decoding never lengthens a string. -/
theorem pctDecode_length_le : ∀ s : Bytes, (pctDecode s).length ≤ s.length
  | [] => by simp [pctDecode]
  | [c] => by by_cases escape : c = 37 <;> simp [pctDecode,escape]
  | [c,d] => by
    have tail := pctDecode_length_le [d]
    by_cases escape : c = 37
    · simp [pctDecode,escape]
    · simpa [pctDecode_cons escape] using tail
  | c :: h :: l :: more => by
    have tail := pctDecode_length_le (h :: l :: more)
    have inner := pctDecode_length_le more
    by_cases escape : c = 37
    · simp only [pctDecode,escape,↓reduceIte]
      split
      · simp only [List.length_cons]; omega
      · simpa using tail
    · simpa [pctDecode_cons escape] using tail

/-- A segment that decodes to itself holds no escape. -/
theorem isSegment_fixed {s : Bytes} (segment : isSegment s = true) (fixed : pctDecode s = s) :
    ∀ c ∈ s, isSegmentChar c = true := by
  induction s with
  | nil => simp
  | cons c rest ih =>
    by_cases escape : c = 37
    · match rest, segment, fixed with
      | [], segment, _ => simp [isSegment,escape] at segment
      | [_], segment, _ => simp [isSegment,escape] at segment
      | h :: l :: more, segment, fixed =>
        simp only [isSegment,escape,↓reduceIte,Bool.and_eq_true,Option.isSome_iff_exists] at segment
        obtain ⟨⟨⟨hi,hiIs⟩,⟨lo,loIs⟩⟩,_⟩ := segment
        simp only [pctDecode,escape,↓reduceIte,hiIs,loIs,List.cons.injEq] at fixed
        -- An escape takes two bytes away, and nothing gives them back.
        have shorter := pctDecode_length_le more
        have sizes := congrArg List.length fixed.2
        simp only [List.length_cons] at sizes
        omega
    · rw [isSegment_cons escape,Bool.and_eq_true] at segment
      rw [pctDecode_cons escape,List.cons.injEq] at fixed
      intro b member
      rcases List.mem_cons.mp member with rfl | later
      · exact segment.1
      · exact ih segment.2 fixed.2 b later

theorem isSegment_of_chars {s : Bytes} (allowed : ∀ c ∈ s, isSegmentChar c = true) : isSegment s = true := by
  induction s with
  | nil => rfl
  | cons c rest ih =>
    have here := allowed c (by simp)
    have later := ih (fun b member => allowed b (by simp [member]))
    rw [isSegment_cons (isSegmentChar_ne_percent here),here,later,Bool.and_true]

theorem pctDecode_of_chars {s : Bytes} (allowed : ∀ c ∈ s, isSegmentChar c = true) : pctDecode s = s := by
  induction s with
  | nil => rfl
  | cons c rest ih =>
    have here := allowed c (by simp)
    rw [pctDecode_cons (isSegmentChar_ne_percent here),ih (fun b member => allowed b (by simp [member]))]

/-! ### Joining with a separator -/

/-- Two strings joined at a separator that the second one does not hold can be
    told apart again. -/
theorem join_injective {sep : UInt8} {a b a' b' : Bytes} (free : sep ∉ b) (free' : sep ∉ b')
    (same : a ++ sep :: b = a' ++ sep :: b') : a = a' ∧ b = b' := by
  rcases List.append_eq_append_iff.mp same with ⟨middle,left,right⟩ | ⟨middle,left,right⟩
  · cases middle with
    | nil => simp at left right; exact ⟨left.symm,right⟩
    | cons c middle =>
      simp only [List.cons_append,List.cons.injEq] at right
      exact absurd (by simp [right.2]) free
  · cases middle with
    | nil => simp at left right; exact ⟨left,right.symm⟩
    | cons c middle =>
      simp only [List.cons_append,List.cons.injEq] at right
      exact absurd (by simp [right.2]) free'

end Facade.Strings
