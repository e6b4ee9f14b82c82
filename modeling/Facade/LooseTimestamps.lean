import Mathlib.Data.List.TakeWhile
import Facade.Timestamps

/-!
The texts that `Utils::isUTCTimeInFuture` accepts. `Spelled` is the grammar that
`std::get_time` reads a format by, `Loose` adds what stands around the fields, and
`Unfinished` are the texts that end before the 'Z', for which the byte found in
`suffix` decides. `isUTCTimeInFuture_accepts` says that these are all.
-/
namespace Facade.Timestamps
open Strings Streams Calendar

/-! ### Numbers -/

/-- The text is a row of at most `width` digits whose value is in the range. -/
structure Numeral (low high width : Nat) (text : Bytes) (value : Nat) : Prop where
  some_digit : text ≠ []
  digits : ∀ c ∈ text, isDigit c = true
  short : text.length ≤ width
  denotes : IStream.decimal text = value
  least : low ≤ value
  most : value ≤ high

/-- What follows a number is not a digit. -/
def Stops (left : Bytes) : Prop := ∀ c ∈ left.head?, isDigit c = false

/-- The value of digits that follow others of value `n`. -/
def decimalFrom (n : Nat) (digits : Bytes) : Nat := digits.foldl (fun n c => 10 * n + digitVal c) n

theorem decimalFrom_zero (digits : Bytes) : decimalFrom 0 digits = IStream.decimal digits := rfl

theorem le_decimalFrom (n : Nat) (digits : Bytes) : n ≤ decimalFrom n digits := by
  induction digits generalizing n with
  | nil => exact Nat.le_refl n
  | cons c rest ih =>
    have later := ih (10 * n + digitVal c)
    show n ≤ decimalFrom (10 * n + digitVal c) rest
    omega

/-- What the loop took are digits, and it took none that led above the bound. -/
theorem scanNum_sound {max len taken value taken' value' : Nat} {s left : Bytes}
    (scanned : scanNum max len taken value s = (taken',value',left)) (bound : value' ≤ max) :
    ∃ text, s = text ++ left ∧ (∀ c ∈ text, isDigit c = true) ∧ text.length ≤ len ∧ taken' = taken + text.length ∧
      value' = decimalFrom value text := by
  induction len generalizing taken value s with
  | zero =>
    simp only [scanNum,Prod.mk.injEq] at scanned
    obtain ⟨rfl,rfl,rfl⟩ := scanned
    exact ⟨[],rfl,by simp,by simp,by simp,rfl⟩
  | succ len ih =>
    cases s with
    | nil =>
      simp only [scanNum,Prod.mk.injEq] at scanned
      obtain ⟨rfl,rfl,rfl⟩ := scanned
      exact ⟨[],rfl,by simp,by simp,by simp,rfl⟩
    | cons c rest =>
      simp only [scanNum] at scanned
      by_cases isDig : isDigit c = true
      · rw [if_pos isDig] at scanned
        by_cases above : max < value * 10 + digitVal c
        · rw [if_pos above] at scanned
          simp only [Prod.mk.injEq] at scanned
          omega
        · rw [if_neg above] at scanned
          obtain ⟨text,rfl,digits,short,count,total⟩ := ih scanned
          refine ⟨c :: text,rfl,?_,by simpa using short,by simp only [List.length_cons]; omega,?_⟩
          · intro d member
            rcases List.mem_cons.mp member with rfl | later
            · exact isDig
            · exact digits d later
          · rw [total,Nat.mul_comm value 10]
            rfl
      · rw [if_neg isDig] at scanned
        simp only [Prod.mk.injEq] at scanned
        obtain ⟨rfl,rfl,rfl⟩ := scanned
        exact ⟨[],rfl,by simp,by simp,by simp,rfl⟩

/-- Digits within the bounds are all taken. -/
theorem scanNum_complete {max len : Nat} (taken value : Nat) {text left : Bytes}
    (digits : ∀ c ∈ text, isDigit c = true) (short : text.length ≤ len) (bound : decimalFrom value text ≤ max)
    (stops : Stops left) :
    scanNum max len taken value (text ++ left) = (taken + text.length,decimalFrom value text,left) := by
  induction text generalizing len taken value with
  | nil =>
    cases len with
    | zero => rfl
    | succ len =>
      cases left with
      | nil => rfl
      | cons c rest =>
        have other : isDigit c = false := stops c (by simp)
        simp [scanNum,other,decimalFrom]
  | cons c rest ih =>
    cases len with
    | zero => simp at short
    | succ len =>
      have isDig : isDigit c = true := digits c (by simp)
      have grows := le_decimalFrom (10 * value + digitVal c) rest
      have total : decimalFrom value (c :: rest) = decimalFrom (10 * value + digitVal c) rest := rfl
      have inside : ¬ max < 10 * value + digitVal c := by omega
      have later := ih (taken + 1) (10 * value + digitVal c) (fun d member => digits d (by simp [member]))
        (by simpa using short) (by omega)
      rw [List.cons_append,scanNum,if_pos isDig,Nat.mul_comm value 10]
      simp only [inside,if_false,later,total,List.length_cons,Prod.mk.injEq,and_true]
      omega

theorem extractNum_sound {low high width value : Nat} {s left : Bytes}
    (read : extractNum low high width s = (some value,left)) :
    ∃ text, s = text ++ left ∧ Numeral low high width text value := by
  simp only [extractNum,Prod.mk.injEq,Option.ite_none_right_eq_some,Option.some.injEq] at read
  obtain ⟨⟨⟨some_taken,atLeast,atMost⟩,same⟩,rest⟩ := read
  obtain ⟨text,cut,digits,short,count,total⟩ :=
    scanNum_sound (rfl : scanNum high width 0 0 s = (_,_,_)) atMost
  refine ⟨text,by rw [← rest]; exact cut,?_,digits,short,?_,by omega,by omega⟩
  · rintro rfl
    simp only [List.length_nil,Nat.add_zero] at count
    exact some_taken count
  · rw [← same,total,decimalFrom_zero]

theorem extractNum_complete {low high width value : Nat} {text left : Bytes}
    (numeral : Numeral low high width text value) (stops : Stops left) :
    extractNum low high width (text ++ left) = (some value,left) := by
  have bound : decimalFrom 0 text ≤ high := by
    rw [decimalFrom_zero,numeral.denotes]
    exact numeral.most
  have scanned := scanNum_complete 0 0 numeral.digits numeral.short bound stops
  rw [decimalFrom_zero,numeral.denotes] at scanned
  have taken : text.length ≠ 0 := by simpa using numeral.some_digit
  simp [extractNum,scanned,taken,numeral.least,numeral.most]

/-! ### Fields and formats -/

/-- A conversion reads this text as this value. One blank may precede a day. -/
def Conversion.Spells : Conversion → Bytes → Nat → Prop
  | .Y,text,value => Numeral 0 9999 4 text value
  | .m,text,value => Numeral 1 12 2 text value
  | .d,text,value => Numeral 1 31 2 text value ∨
      ∃ blank digits, isSpace blank = true ∧ text = blank :: digits ∧ Numeral 1 31 2 digits value
  | .H,text,value => Numeral 0 23 2 text value
  | .M,text,value => Numeral 0 59 2 text value
  | .S,text,value => Numeral 0 60 2 text value

/-- The text is read by a format, which takes the time from `tm` to `tm'`. A letter
    of the format stands for either case. -/
inductive Spelled : List Directive → Tm → Bytes → Tm → Prop
  | done (tm : Tm) : Spelled [] tm [] tm
  | literal {b c : UInt8} {format : List Directive} {tm tm' : Tm} {rest : Bytes} :
      toLower b = toLower c ∨ toUpper b = toUpper c → Spelled format tm rest tm' →
      Spelled (.literal c :: format) tm (b :: rest) tm'
  | convert {field : Conversion} {format : List Directive} {tm tm' : Tm} {text rest : Bytes} {value : Nat} :
      field.Spells text value → Spelled format (field.store value tm) rest tm' →
      Spelled (.convert field :: format) tm (text ++ rest) tm'

theorem Conversion.Spells.head {field : Conversion} {text : Bytes} {value : Nat} (spells : field.Spells text value) :
    ∃ c rest, text = c :: rest := by
  have numeral : ∀ {low high width}, Numeral low high width text value → ∃ c rest, text = c :: rest :=
    fun n => List.exists_cons_of_ne_nil n.some_digit
  cases field with
  | d =>
    rcases spells with digits | ⟨blank,digits,-,rfl,-⟩
    · exact numeral digits
    · exact ⟨blank,digits,rfl⟩
  | Y => exact numeral spells
  | m => exact numeral spells
  | H => exact numeral spells
  | M => exact numeral spells
  | S => exact numeral spells

theorem extract_sound {field : Conversion} {s left : Bytes} {value : Nat} (read : field.extract s = (some value,left)) :
    ∃ text, s = text ++ left ∧ field.Spells text value := by
  cases field with
  | d =>
    cases s with
    | nil =>
      have empty : extractNum 1 31 2 [] = (some value,left) := read
      obtain ⟨text,cut,numeral⟩ := extractNum_sound empty
      exact ⟨text,cut,.inl numeral⟩
    | cons c rest =>
      simp only [Conversion.extract] at read
      split at read
      · rename_i blank
        obtain ⟨text,rfl,numeral⟩ := extractNum_sound read
        exact ⟨c :: text,rfl,.inr ⟨c,text,blank,rfl,numeral⟩⟩
      · obtain ⟨text,cut,numeral⟩ := extractNum_sound read
        exact ⟨text,cut,.inl numeral⟩
  | Y => exact extractNum_sound read
  | m => exact extractNum_sound read
  | H => exact extractNum_sound read
  | M => exact extractNum_sound read
  | S => exact extractNum_sound read

theorem extract_complete {field : Conversion} {text left : Bytes} {value : Nat} (spells : field.Spells text value)
    (stops : Stops left) : field.extract (text ++ left) = (some value,left) := by
  cases field with
  | d =>
    rcases spells with numeral | ⟨blank,digits,isBlank,rfl,numeral⟩
    · obtain ⟨c,rest,rfl⟩ := List.exists_cons_of_ne_nil numeral.some_digit
      have visible : isSpace c = false := IStream.isDigit_not_space (numeral.digits c (by simp))
      have read := extractNum_complete numeral stops
      simpa [Conversion.extract,visible] using read
    · have read := extractNum_complete numeral stops
      simpa [Conversion.extract,isBlank] using read
  | Y => exact extractNum_complete spells stops
  | m => exact extractNum_complete spells stops
  | H => exact extractNum_complete spells stops
  | M => exact extractNum_complete spells stops
  | S => exact extractNum_complete spells stops

/-- The last directive is a conversion. -/
def EndsInField (format : List Directive) : Prop := ∃ before field, format = before ++ [.convert field]

theorem EndsInField.tail {directive : Directive} {format : List Directive} (ends : EndsInField (directive :: format)) :
    (∃ field, directive = .convert field ∧ format = []) ∨ EndsInField format := by
  obtain ⟨before,field,cut⟩ := ends
  cases before with
  | nil => exact .inl ⟨field,List.cons.inj cut⟩
  | cons first others => exact .inr ⟨others,field,(List.cons.inj cut).2⟩

/-- Where `std::get_time` does not fail, it has read the format, or a part of it at
    whose last field the text ends. -/
theorem getFormat_sound {format : List Directive} {tm tm' : Tm} {s : Bytes} {ss : IStream}
    (read : getFormat format tm s = (tm',ss)) (works : ss.fail = false) :
    ∃ part text, part <+: format ∧ Spelled part tm text tm' ∧ s = text ++ ss.rest ∧
      (part = format ∧ ss.eof = false ∨ EndsInField part ∧ ss.rest = [] ∧ ss.eof = true) := by
  induction format generalizing tm s with
  | nil =>
    simp only [getFormat,Prod.mk.injEq] at read
    obtain ⟨rfl,rfl⟩ := read
    exact ⟨[],[],List.prefix_refl _,.done _,rfl,.inl ⟨rfl,rfl⟩⟩
  | cons directive format ih =>
    cases s with
    | nil =>
      simp only [getFormat,Prod.mk.injEq] at read
      obtain ⟨rfl,rfl⟩ := read
      cases works
    | cons b rest =>
      cases directive with
      | literal c =>
        simp only [getFormat] at read
        split at read
        · rename_i same
          obtain ⟨part,text,initial,spelled,rfl,ends⟩ := ih read
          refine ⟨.literal c :: part,b :: text,by simpa using initial,.literal same spelled,rfl,?_⟩
          rcases ends with ⟨rfl,open_⟩ | ⟨⟨before,field,rfl⟩,ends⟩
          · exact .inl ⟨rfl,open_⟩
          · exact .inr ⟨⟨.literal c :: before,field,rfl⟩,ends⟩
        · simp only [Prod.mk.injEq] at read
          obtain ⟨rfl,rfl⟩ := read
          cases works
      | convert field =>
        simp only [getFormat] at read
        split at read
        · simp only [Prod.mk.injEq] at read
          obtain ⟨rfl,rfl⟩ := read
          cases works
        · rename_i value extracted
          obtain ⟨text,cut,spells⟩ := extract_sound extracted
          simp only [Prod.mk.injEq] at read
          obtain ⟨rfl,rfl⟩ := read
          have whole : Spelled [.convert field] tm (text ++ []) (field.store value tm) := .convert spells (.done _)
          exact ⟨[.convert field],text ++ [],by simp,whole,by simpa using cut,.inr ⟨⟨[],field,rfl⟩,rfl,rfl⟩⟩
        · rename_i value left extracted
          obtain ⟨text,cut,spells⟩ := extract_sound extracted
          obtain ⟨part,more,initial,spelled,rfl,ends⟩ := ih read
          refine ⟨.convert field :: part,text ++ more,by simpa using initial,.convert spells spelled,by simpa using cut,?_⟩
          rcases ends with ⟨rfl,open_⟩ | ⟨⟨before,other,rfl⟩,ends⟩
          · exact .inl ⟨rfl,open_⟩
          · exact .inr ⟨⟨.convert field :: before,other,rfl⟩,ends⟩

/-- Every field is followed by a character that is no digit, or by nothing. -/
def Separated : List Directive → Prop
  | [] => True
  | .literal c :: format => (∀ b, toLower b = toLower c ∨ toUpper b = toUpper c → isDigit b = false) ∧ Separated format
  | [.convert _] => True
  | .convert _ :: .literal c :: format => Separated (.literal c :: format)
  | .convert _ :: .convert _ :: _ => False

theorem separated_tail {directive : Directive} {format : List Directive} (separated : Separated (directive :: format)) :
    Separated format := by
  cases directive with
  | literal c => exact separated.2
  | convert field =>
    match format, separated with
    | [],_ => trivial
    | .literal _ :: _,after => exact after

/-- No digit follows a field. -/
theorem Spelled.stops {field : Conversion} {part later : List Directive} {tm tm' : Tm} {rest left : Bytes}
    (spelled : Spelled part tm rest tm') (separated : Separated (.convert field :: (part ++ later))) (stops : Stops left) :
    Stops (rest ++ left) := by
  cases spelled with
  | done => exact stops
  | literal same _ =>
    intro c first
    simp only [List.cons_append,List.head?_cons,Option.mem_def,Option.some.injEq] at first
    subst first
    exact separated.1 _ same
  | convert _ _ => exact separated.elim

/-- A whole format is read, and what follows is left. -/
theorem getFormat_whole {format : List Directive} {tm tm' : Tm} {text left : Bytes} (spelled : Spelled format tm text tm')
    (separated : Separated format) (some_left : left ≠ []) (stops : Stops left) :
    getFormat format tm (text ++ left) = (tm',⟨left,false,false⟩) := by
  induction spelled with
  | done tm => rfl
  | literal same _ ih =>
    rw [List.cons_append]
    simp only [getFormat,same,if_true]
    exact ih (separated_tail separated)
  | @convert field format tm tm' text rest value spells spelled ih =>
    have whole : Separated (.convert field :: (format ++ [])) := by simpa using separated
    have after : Stops (rest ++ left) := spelled.stops whole stops
    have read := extract_complete spells after
    have later := ih (separated_tail separated)
    obtain ⟨c,more,rfl⟩ := spells.head
    obtain ⟨d,others,following⟩ : ∃ d others, rest ++ left = d :: others :=
      List.exists_cons_of_ne_nil (by simp [some_left])
    rw [List.append_assoc]
    simp only [List.cons_append] at read ⊢
    simp only [getFormat,read]
    rw [following] at later ⊢
    exact later

/-- A text that ends with a field of the format is read, and the stream is at its
    end. -/
theorem getFormat_part {part later : List Directive} {tm tm' : Tm} {text : Bytes} (spelled : Spelled part tm text tm')
    (separated : Separated (part ++ later)) (ends : EndsInField part) :
    getFormat (part ++ later) tm text = (tm',⟨[],true,false⟩) := by
  induction spelled with
  | done tm =>
    obtain ⟨before,field,impossible⟩ := ends
    simp at impossible
  | @literal b c format tm tm' rest same spelled ih =>
    rcases ends.tail with ⟨field,impossible,-⟩ | inner
    · cases impossible
    · simp only [List.cons_append,getFormat,same,if_true]
      exact ih (separated_tail separated) inner
  | @convert field format tm tm' text rest value spells spelled ih =>
    have after : Stops (rest ++ []) := spelled.stops separated (by simp [Stops])
    have read := extract_complete spells after
    rw [List.append_nil] at read
    obtain ⟨c,more,rfl⟩ := spells.head
    simp only [List.cons_append] at read ⊢
    simp only [getFormat,read]
    cases spelled with
    | done => rfl
    | literal _ _ =>
      rcases ends.tail with ⟨field,-,impossible⟩ | inner
      · cases impossible
      · exact ih (separated_tail separated) inner
    | convert _ _ => exact separated.elim

theorem separated_TIME_FORMAT : Separated TIME_FORMAT := by
  have hyphen : ∀ b : UInt8, toLower b = toLower 45 ∨ toUpper b = toUpper 45 → isDigit b = false :=
    forall_byte (by decide +kernel)
  have letter : ∀ b : UInt8, toLower b = toLower 84 ∨ toUpper b = toUpper 84 → isDigit b = false :=
    forall_byte (by decide +kernel)
  have colon : ∀ b : UInt8, toLower b = toLower 58 ∨ toUpper b = toUpper 58 → isDigit b = false :=
    forall_byte (by decide +kernel)
  exact ⟨hyphen,hyphen,letter,colon,colon,trivial⟩

/-! ### What stands around the fields -/

def Blank (text : Bytes) : Prop := ∀ c ∈ text, isSpace c = true

/-- Nothing, or a point and any number of digits. -/
def Fraction (text : Bytes) : Prop := text = [] ∨ ∃ digits, (∀ c ∈ digits, isDigit c = true) ∧ text = 46 :: digits

/-- The stream waits before this text: it is good, or it met the end, where nothing
    is left. -/
def Waiting (rest : Bytes) (ss : IStream) : Prop :=
  ss = ⟨rest,false,false⟩ ∨ rest = [] ∧ ss.rest = [] ∧ ss.eof = true

theorem stops_dropWhile (rest : Bytes) : Stops (rest.dropWhile isDigit) := by
  intro c first
  have head := List.head?_dropWhile_not isDigit rest
  rw [Option.mem_def] at first
  simpa [first] using head

/-- The loop over the digits of the fraction, with the repair after it. -/
theorem skipDigits_waiting (rounds : Nat) (rest : Bytes) :
    Waiting (rest.dropWhile isDigit)
      (if (skipDigits (rounds + 2) ⟨rest,false,false⟩).fail && !(skipDigits (rounds + 2) ⟨rest,false,false⟩).eof
       then (skipDigits (rounds + 2) ⟨rest,false,false⟩).clear else skipDigits (rounds + 2) ⟨rest,false,false⟩) := by
  cases rest with
  | nil => exact .inr ⟨rfl,rfl,rfl⟩
  | cons c more =>
    by_cases isDig : isDigit c = true
    · have all : ∀ d ∈ (c :: more).takeWhile isDigit, isDigit d = true := List.all_eq_true.mp List.all_takeWhile
      have some_digit : (c :: more).takeWhile isDigit ≠ [] := by simp [isDig]
      have taken := IStream.getInt_row some_digit all (stops_dropWhile (c :: more))
      rw [List.takeWhile_append_dropWhile] at taken
      have round : skipDigits (rounds + 2) ⟨c :: more,false,false⟩ =
          skipDigits (rounds + 1) (IStream.getInt ⟨c :: more,false,false⟩).2 := by
        simp only [skipDigits,IStream.peek_cons,isDig,if_true]
      rw [round,taken]
      -- The first round took all digits: what is peeked at now ends the loop.
      cases left : (c :: more).dropWhile isDigit with
      | nil => exact .inr ⟨rfl,rfl,rfl⟩
      | cons d others =>
        have other : isDigit d = false := stops_dropWhile (c :: more) d (by simp [left])
        apply Or.inl
        by_cases long : 2147483647 < IStream.decimal ((c :: more).takeWhile isDigit)
        · simp only [long,decide_true]
          rfl
        · simp only [long,decide_false,List.isEmpty_cons,skipDigits,IStream.peek_cons,other,Bool.false_eq_true,if_false,
            Bool.false_and]
    · have other : isDigit c = false := by simpa using isDig
      apply Or.inl
      simp [skipDigits,IStream.peek_cons,other]

/-- What is left once the fraction is skipped. -/
def afterFraction : Bytes → Bytes
  | 46 :: rest => rest.dropWhile isDigit
  | s => s

theorem skipFraction_waiting {left : Bytes} {ss : IStream} (waiting : Waiting left ss) :
    Waiting (afterFraction left) (skipFraction ss) := by
  rcases waiting with rfl | ⟨rfl,empty,ended⟩
  · cases left with
    | nil => exact .inr ⟨rfl,rfl,rfl⟩
    | cons c rest =>
      by_cases point : c = 46
      · subst point
        have visible : isSpace 46 = false := by decide
        have opened : skipFraction ⟨46 :: rest,false,false⟩ =
            (let ss := skipDigits (rest.length + 2) ⟨rest,false,false⟩
             if ss.fail && !ss.eof then ss.clear else ss) := by
          simp only [skipFraction,IStream.peek_cons,IStream.getChar_cons visible]
          rfl
        rw [opened]
        exact skipDigits_waiting rest.length rest
      · have same : afterFraction (c :: rest) = c :: rest := by
          unfold afterFraction
          split
          · rename_i first
            exact absurd (List.cons.inj first).1 point
          · rfl
        rw [same]
        apply Or.inl
        unfold skipFraction
        rw [IStream.peek_cons]
        split
        · rename_i first
          simp only [Prod.mk.injEq,Option.some.injEq] at first
          exact absurd first.1 point
        · rename_i first
          simp only [Prod.mk.injEq] at first
          exact first.2.symm
  · have closed : skipFraction ss = { ss with fail := true } := by
      have peeked : ss.peek = (none,{ ss with fail := true }) := by
        simp [IStream.peek,IStream.sentry,IStream.good,ended]
      simp only [skipFraction,peeked]
    rw [closed]
    exact .inr ⟨rfl,empty,ended⟩

/-- The texts accepted whatever is in `suffix`: blanks may stand before the fields
    and around the 'Z', the fields need not have all their digits, and the date need
    not exist. -/
inductive Loose : Bytes → Tm → Prop
  | mk {lead fields fraction gap trail : Bytes} {tm : Tm} : Blank lead → Spelled TIME_FORMAT ⟨0,0,0,0,0,0⟩ fields tm →
      Fraction fraction → Blank gap → Blank trail → Loose (lead ++ (fields ++ (fraction ++ (gap ++ 90 :: trail)))) tm

/-- The texts that end before the 'Z': with blanks after the seconds or the fraction,
    or with any of the fields. -/
inductive Unfinished : Bytes → Tm → Prop
  | late {lead fields fraction gap : Bytes} {tm : Tm} : Blank lead → Spelled TIME_FORMAT ⟨0,0,0,0,0,0⟩ fields tm →
      Fraction fraction → Blank gap → Unfinished (lead ++ (fields ++ (fraction ++ gap))) tm
  | early {lead fields : Bytes} {part : List Directive} {tm : Tm} : Blank lead → part <+: TIME_FORMAT →
      EndsInField part → Spelled part ⟨0,0,0,0,0,0⟩ fields tm → Unfinished (lead ++ fields) tm

/-- The check for the 'Z' finds it after blanks, or finds nothing but blanks while
    `suffix` happens to hold a 'Z'. -/
theorem checkSuffix_ok_iff {text rest : Bytes} {suffix : UInt8} {ss ss' : IStream} (waiting : Waiting rest ss) :
    checkSuffix text suffix ss = .ok ss' ↔
      (∃ trail, rest.dropWhile isSpace = 90 :: trail ∧ ss' = ⟨trail,false,false⟩) ∨
      rest.dropWhile isSpace = [] ∧ suffix = 90 ∧ ss' = ⟨[],true,true⟩ := by
  have nothing : ss.getChar = (none,⟨[],true,true⟩) →
      (checkSuffix text suffix ss = .ok ss' ↔ suffix = 90 ∧ ss' = ⟨[],true,true⟩) := by
    intro ended
    by_cases zulu : suffix = 90
    · have passed : checkSuffix text suffix ss = .ok ⟨[],true,true⟩ := by simp [checkSuffix,ended,zulu]
      rw [passed,Except.ok.injEq]
      exact ⟨fun same => ⟨zulu,same.symm⟩,fun same => same.2.symm⟩
    · simp [checkSuffix,ended,zulu]
  rcases waiting with rfl | ⟨rfl,empty,ended⟩
  · cases visible : rest.dropWhile isSpace with
    | nil =>
      have ended : IStream.getChar ⟨rest,false,false⟩ = (none,⟨[],true,true⟩) := by
        simp [IStream.getChar,IStream.sentry,IStream.good,visible]
      simp [nothing ended]
    | cons c trail =>
      have found : IStream.getChar ⟨rest,false,false⟩ = (some c,⟨trail,false,false⟩) := by
        simp [IStream.getChar,IStream.sentry,IStream.good,visible]
      by_cases zulu : c = 90
      · have passed : checkSuffix text suffix ⟨rest,false,false⟩ = .ok ⟨trail,false,false⟩ := by
          simp [checkSuffix,found,zulu]
        rw [passed,Except.ok.injEq]
        constructor
        · rintro rfl
          exact .inl ⟨trail,by rw [zulu],rfl⟩
        · rintro (⟨other,same,rfl⟩ | ⟨impossible,-⟩)
          · rw [(List.cons.inj same).2]
          · cases impossible
      · simp [checkSuffix,found,zulu]
  · have closed : ss.getChar = (none,⟨[],true,true⟩) := by
      simp [IStream.getChar,IStream.sentry,IStream.good,ended,empty]
    simp [nothing closed]

theorem dropWhile_isSpace_eq_nil (text : Bytes) : text.dropWhile isSpace = [] ↔ Blank text := by
  simp [List.dropWhile_eq_nil_iff,Blank]

/-- No word is left exactly before blanks. -/
theorem getWord_none_iff (trail : Bytes) :
    ((IStream.getWord ⟨trail,false,false⟩).2.fail = true ∨ (IStream.getWord ⟨trail,false,false⟩).1 = []) ↔ Blank trail := by
  rw [← dropWhile_isSpace_eq_nil]
  cases visible : trail.dropWhile isSpace with
  | nil => simp [IStream.getWord,IStream.sentry,IStream.good,visible]
  | cons c rest =>
    have other : isSpace c = false := by
      have head := List.head?_dropWhile_not isSpace trail
      simpa [visible] using head
    simp [IStream.getWord,IStream.sentry,IStream.good,visible,other]

theorem dropWhile_blank_append {lead rest : Bytes} (blank : Blank lead) (visible : ∀ c ∈ rest.head?, isSpace c = false) :
    (lead ++ rest).dropWhile isSpace = rest := by
  rw [List.dropWhile_append_of_pos blank]
  cases rest with
  | nil => rfl
  | cons c more => simp [visible c (by simp)]

/-- A text is a run of blanks and what follows it. -/
theorem exists_blank_append (text : Bytes) :
    ∃ lead, Blank lead ∧ text = lead ++ text.dropWhile isSpace :=
  ⟨text.takeWhile isSpace,List.all_eq_true.mp List.all_takeWhile,(List.takeWhile_append_dropWhile).symm⟩

theorem exists_fraction_append (left : Bytes) : ∃ fraction, Fraction fraction ∧ left = fraction ++ afterFraction left := by
  unfold afterFraction
  split
  · rename_i rest
    refine ⟨46 :: rest.takeWhile isDigit,.inr ⟨_,List.all_eq_true.mp List.all_takeWhile,rfl⟩,?_⟩
    rw [List.cons_append,List.takeWhile_append_dropWhile]
  · exact ⟨[],.inl rfl,rfl⟩

theorem afterFraction_append {fraction rest : Bytes} (isFraction : Fraction fraction) (stops : Stops rest)
    (point : ∀ c ∈ rest.head?, c ≠ 46) : afterFraction (fraction ++ rest) = rest := by
  rcases isFraction with rfl | ⟨digits,all,rfl⟩
  · cases rest with
    | nil => rfl
    | cons c more =>
      have other : c ≠ 46 := point c (by simp)
      unfold afterFraction
      split
      · rename_i first
        exact absurd (List.cons.inj first).1 other
      · rfl
  · show (digits ++ rest).dropWhile isDigit = rest
    rw [List.dropWhile_append_of_pos all]
    cases rest with
    | nil => rfl
    | cons c more => simp [stops c (by simp)]

/-! ### The texts accepted -/

/-- A part of the format that is not empty starts with the year. -/
theorem Spelled.visible {part : List Directive} {tm tm' : Tm} {fields : Bytes} (spelled : Spelled part tm fields tm')
    (initial : part <+: TIME_FORMAT) (some_field : part ≠ []) : ∃ c rest, fields = c :: rest ∧ isDigit c = true := by
  cases spelled with
  | done => exact absurd rfl some_field
  | literal _ _ =>
    have first := List.prefix_iff_eq_take.mp initial
    simp [TIME_FORMAT] at first
  | convert spells _ =>
    have first := List.prefix_iff_eq_take.mp initial
    simp only [TIME_FORMAT,List.length_cons,List.take_succ_cons,List.cons.injEq,Directive.convert.injEq] at first
    obtain ⟨rfl,-⟩ := first
    obtain ⟨c,rest,rfl⟩ := List.exists_cons_of_ne_nil (Numeral.some_digit spells)
    exact ⟨c,rest ++ _,rfl,Numeral.digits spells c (by simp)⟩

/-- The fields are read after blanks. -/
theorem broken_blank {lead fields : Bytes} (blank : Blank lead) (visible : ∃ c rest, fields = c :: rest ∧ isDigit c = true) :
    broken (lead ++ fields) = getFormat TIME_FORMAT ⟨0,0,0,0,0,0⟩ fields := by
  obtain ⟨c,rest,rfl,isDig⟩ := visible
  have skipped : (lead ++ c :: rest).dropWhile isSpace = c :: rest :=
    dropWhile_blank_append blank (by simpa using IStream.isDigit_not_space isDig)
  simp [broken,get_time,IStream.sentry,IStream.ofBytes,IStream.good,skipped]

/-- What is read without failure: the fields of the whole format and what follows
    them, or some of them and nothing more. -/
theorem broken_sound {s : Bytes} (works : (broken s).2.fail = false) :
    ∃ lead fields left, s = lead ++ (fields ++ left) ∧ Blank lead ∧ Waiting left (broken s).2 ∧
      (Spelled TIME_FORMAT ⟨0,0,0,0,0,0⟩ fields (broken s).1 ∨
        left = [] ∧ ∃ part, part <+: TIME_FORMAT ∧ EndsInField part ∧ Spelled part ⟨0,0,0,0,0,0⟩ fields (broken s).1) := by
  obtain ⟨lead,blank,cut⟩ := exists_blank_append s
  cases visible : s.dropWhile isSpace with
  | nil =>
    simp [broken,get_time,IStream.sentry,IStream.ofBytes,IStream.good,visible] at works
  | cons c rest =>
    have read : broken s = getFormat TIME_FORMAT ⟨0,0,0,0,0,0⟩ (c :: rest) := by
      simp [broken,get_time,IStream.sentry,IStream.ofBytes,IStream.good,visible]
    cases result : broken s with
    | mk tm ss =>
      rw [result] at read works
      obtain ⟨part,fields,initial,spelled,whole,ends⟩ := getFormat_sound read.symm works
      rw [visible,whole] at cut
      refine ⟨lead,fields,ss.rest,cut,blank,?_⟩
      rcases ends with ⟨rfl,open_⟩ | ⟨inField,empty,ended⟩
      · refine ⟨.inl ?_,.inl spelled⟩
        show ss = ⟨ss.rest,false,false⟩
        cases ss
        simp only [IStream.mk.injEq,true_and]
        exact ⟨open_,works⟩
      · exact ⟨.inr ⟨empty,empty,ended⟩,.inr ⟨empty,part,initial,inField,spelled⟩⟩

/-- What follows the fields of a text that is accepted begins with no digit. -/
theorem stops_tail {fraction gap tail : Bytes} (isFraction : Fraction fraction) (blank : Blank gap)
    (stops : Stops tail) : Stops (fraction ++ (gap ++ tail)) := by
  have notDigit : ∀ c : UInt8, isSpace c = true → isDigit c = false := forall_byte (by decide +kernel)
  have afterBlank : Stops (gap ++ tail) := by
    cases gap with
    | nil => exact stops
    | cons c rest =>
      intro d first
      simp only [List.cons_append,List.head?_cons,Option.mem_def,Option.some.injEq] at first
      subst first
      exact notDigit _ (blank _ (by simp))
  rcases isFraction with rfl | ⟨digits,-,rfl⟩
  · exact afterBlank
  · intro d first
    simp only [List.cons_append,List.head?_cons,Option.mem_def,Option.some.injEq] at first
    subst first
    decide

/-- The fields, then a fraction and blanks: the stream waits before what follows. -/
theorem broken_tail {lead fields fraction gap tail : Bytes} {tm : Tm} (blank : Blank lead)
    (spelled : Spelled TIME_FORMAT ⟨0,0,0,0,0,0⟩ fields tm) (isFraction : Fraction fraction) (gapBlank : Blank gap)
    (stops : Stops tail) (point : ∀ c ∈ (gap ++ tail).head?, c ≠ 46) :
    (broken (lead ++ (fields ++ (fraction ++ (gap ++ tail))))).1 = tm ∧
    (broken (lead ++ (fields ++ (fraction ++ (gap ++ tail))))).2.fail = false ∧
    Waiting (gap ++ tail) (skipFraction (broken (lead ++ (fields ++ (fraction ++ (gap ++ tail))))).2) := by
  have visible := spelled.visible (List.prefix_refl _) (by simp [TIME_FORMAT])
  have after := stops_tail isFraction gapBlank stops
  have noDigits : Stops (gap ++ tail) := stops_tail (.inl rfl) gapBlank stops
  have skipped := afterFraction_append isFraction noDigits point
  obtain ⟨c,rest,first,isDig⟩ := visible
  have read := broken_blank blank (⟨c,rest ++ (fraction ++ (gap ++ tail)),by rw [first]; rfl,isDig⟩ :
    ∃ d more, fields ++ (fraction ++ (gap ++ tail)) = d :: more ∧ isDigit d = true)
  rw [read]
  by_cases empty : fraction ++ (gap ++ tail) = []
  · have whole : getFormat (TIME_FORMAT ++ []) ⟨0,0,0,0,0,0⟩ fields = (tm,⟨[],true,false⟩) :=
      getFormat_part spelled separated_TIME_FORMAT ⟨TIME_FORMAT.dropLast,.S,rfl⟩
    rw [List.append_nil] at whole
    rw [empty,List.append_nil,whole]
    refine ⟨rfl,rfl,?_⟩
    rw [← skipped,empty]
    exact skipFraction_waiting (.inr ⟨rfl,rfl,rfl⟩)
  · rw [getFormat_whole spelled separated_TIME_FORMAT empty after]
    refine ⟨rfl,rfl,?_⟩
    have waits := skipFraction_waiting (.inl rfl : Waiting (fraction ++ (gap ++ tail)) ⟨_,false,false⟩)
    rwa [skipped] at waits

/-- The texts that are accepted while `suffix` holds this byte: those of the grammar,
    unless they denote the second before the epoch. -/
def Accepted (suffix : UInt8) (s : Bytes) : Prop :=
  ∃ tm, (Loose s tm ∨ suffix = 90 ∧ Unfinished s tm) ∧ timegm tm ≠ -1

theorem point_blank {gap tail : Bytes} (blank : Blank gap) (point : ∀ c ∈ tail.head?, c ≠ 46) :
    ∀ c ∈ (gap ++ tail).head?, c ≠ 46 := by
  have notPoint : ∀ c : UInt8, isSpace c = true → c ≠ 46 := forall_byte (by decide +kernel)
  cases gap with
  | nil => exact point
  | cons b rest =>
    intro c first
    simp only [List.cons_append,List.head?_cons,Option.mem_def,Option.some.injEq] at first
    subst first
    exact notPoint _ (blank _ (by simp))

theorem accepted_of_ok {suffix : UInt8} {now : Int} {s : Bytes} {future : Bool}
    (accepted : isUTCTimeInFuture suffix now s = .ok future) : Accepted suffix s := by
  rw [isUTCTimeInFuture_ok_iff] at accepted
  obtain ⟨works,⟨ss,checked,noWord⟩,sentinel,-⟩ := accepted
  obtain ⟨lead,fields,left,cut,blank,waiting,read⟩ := broken_sound works
  obtain ⟨fraction,isFraction,split⟩ := exists_fraction_append left
  obtain ⟨tm,time⟩ : ∃ tm, tm = (broken s).1 := ⟨_,rfl⟩
  rw [← time] at read sentinel
  refine ⟨tm,?_,sentinel⟩
  rcases (checkSuffix_ok_iff (skipFraction_waiting waiting)).mp checked with ⟨trail,zulu,rfl⟩ | ⟨none_left,isZ,-⟩
  · have trailing := (getWord_none_iff trail).mp noWord
    obtain ⟨gap,gapBlank,rest⟩ := exists_blank_append (afterFraction left)
    rcases read with spelled | ⟨rfl,-⟩
    · apply Or.inl
      rw [zulu] at rest
      rw [cut,split,rest]
      exact .mk blank spelled isFraction gapBlank trailing
    · cases zulu
  · refine .inr ⟨isZ,?_⟩
    have gapBlank := (dropWhile_isSpace_eq_nil _).mp none_left
    rw [cut]
    rcases read with spelled | ⟨rfl,part,initial,inField,spelled⟩
    · rw [split]
      exact .late blank spelled isFraction gapBlank
    · rw [List.append_nil]
      exact .early blank initial inField spelled

theorem ok_of_accepted {suffix : UInt8} {s : Bytes} (accepted : Accepted suffix s) (now : Int) :
    ∃ future, isUTCTimeInFuture suffix now s = .ok future := by
  obtain ⟨tm,grammar,sentinel⟩ := accepted
  have passed : (broken s).1 = tm → (broken s).2.fail = false →
      (∃ ss, checkSuffix s suffix (skipFraction (broken s).2) = .ok ss ∧ (ss.getWord.2.fail = true ∨ ss.getWord.1 = [])) →
      ∃ future, isUTCTimeInFuture suffix now s = .ok future := by
    rintro rfl works checks
    exact ⟨_,(isUTCTimeInFuture_ok_iff suffix now s _).mpr ⟨works,checks,sentinel,rfl⟩⟩
  have atEnd : ∃ ss : IStream, ss = ⟨[],true,true⟩ ∧ (ss.getWord.2.fail = true ∨ ss.getWord.1 = []) :=
    ⟨_,rfl,.inl rfl⟩
  rcases grammar with ⟨blank,spelled,isFraction,gapBlank,trailing⟩ | ⟨isZ,unfinished⟩
  · rename_i lead fields fraction gap trail
    have zulu : ∀ c ∈ (90 :: trail).head?, isDigit c = false ∧ c ≠ 46 ∧ isSpace c = false := by
      intro c first
      simp only [List.head?_cons,Option.mem_def,Option.some.injEq] at first
      subst first
      decide
    obtain ⟨time,works,waiting⟩ := broken_tail blank spelled isFraction gapBlank (fun c first => (zulu c first).1)
      (point_blank gapBlank fun c first => (zulu c first).2.1)
    have visible := dropWhile_blank_append gapBlank (fun c first => (zulu c first).2.2)
    exact passed time works ⟨_,(checkSuffix_ok_iff waiting).mpr (.inl ⟨trail,visible,rfl⟩),(getWord_none_iff trail).mpr trailing⟩
  · obtain ⟨ss,rfl,noWord⟩ := atEnd
    cases unfinished with
    | @late lead fields fraction gap tm blank spelled isFraction gapBlank =>
      have ends : Stops [] := by simp [Stops]
      obtain ⟨time,works,waiting⟩ := broken_tail blank spelled isFraction gapBlank ends (point_blank gapBlank (by simp))
      rw [List.append_nil] at time works waiting
      have none_left := (dropWhile_isSpace_eq_nil gap).mpr gapBlank
      exact passed time works ⟨_,(checkSuffix_ok_iff waiting).mpr (.inr ⟨none_left,isZ,rfl⟩),noWord⟩
    | @early lead fields part tm blank initial inField spelled =>
      obtain ⟨later,whole⟩ := initial
      have some_field : part ≠ [] := by
        rintro rfl
        obtain ⟨before,field,impossible⟩ := inField
        simp at impossible
      have read := broken_blank blank (spelled.visible ⟨later,whole⟩ some_field)
      have ended := getFormat_part spelled (whole ▸ separated_TIME_FORMAT) inField
      rw [whole] at ended
      rw [ended] at read
      have waiting : Waiting [] (skipFraction (broken (lead ++ fields)).2) := by
        rw [read]
        exact skipFraction_waiting (.inr ⟨rfl,rfl,rfl⟩)
      exact passed (by rw [read]) (by rw [read]) ⟨_,(checkSuffix_ok_iff waiting).mpr (.inr ⟨rfl,isZ,rfl⟩),noWord⟩

/-- `isUTCTimeInFuture` accepts the texts of the grammar and no others. -/
theorem isUTCTimeInFuture_accepts (suffix : UInt8) (now : Int) (s : Bytes) :
    (∃ future, isUTCTimeInFuture suffix now s = .ok future) ↔ Accepted suffix s :=
  ⟨fun ⟨_,accepted⟩ => accepted_of_ok accepted,fun accepted => ok_of_accepted accepted now⟩

/-- The text is a timestamp as the format demands it, of an instant that exists. -/
def WellFormed (s : Bytes) : Prop := ∃ st : Stamp, s = st.text

/-- A text that is no timestamp is rejected unless it is in the grammar of those that
    are accepted. -/
theorem malformed_rejected_iff (suffix : UInt8) (now : Int) (s : Bytes) :
    (¬ WellFormed s → ∃ what, isUTCTimeInFuture suffix now s = .error what) ↔ WellFormed s ∨ ¬ Accepted suffix s := by
  have accepts := isUTCTimeInFuture_accepts suffix now s
  constructor
  · intro rejects
    by_cases wellFormed : WellFormed s
    · exact .inl wellFormed
    · obtain ⟨what,rejected⟩ := rejects wellFormed
      refine .inr fun accepted => ?_
      obtain ⟨future,answered⟩ := accepts.mpr accepted
      rw [rejected] at answered
      cases answered
  · rintro (wellFormed | outside) malformed
    · exact absurd wellFormed malformed
    · cases answered : isUTCTimeInFuture suffix now s with
      | error what => exact ⟨what,rfl⟩
      | ok future => exact absurd (accepts.mp ⟨future,answered⟩) outside

/-- A day that does not exist, and a blank at the end. -/
def thirtiethOfFebruary : Bytes := lit "2024-02-30T12:00:00Z"
def trailingBlank : Bytes := lit "2024-02-28T12:00:00Z "

theorem malformed_accepted :
    (¬ WellFormed thirtiethOfFebruary ∧ isUTCTimeInFuture 0 1700000000000000000 thirtiethOfFebruary = .ok true) ∧
    ¬ WellFormed trailingBlank ∧ isUTCTimeInFuture 0 1700000000000000000 trailingBlank = .ok true := by
  refine ⟨⟨?_,by decide +kernel⟩,?_,by decide +kernel⟩
  · rintro ⟨st,same⟩
    have read := broken_text st
    rw [← same] at read
    have fields : st.tm = ⟨0,0,12,30,1,124⟩ := (congrArg Prod.fst read).symm.trans (by decide +kernel)
    have month : st.month = 2 := by
      have mon := congrArg Tm.tm_mon fields
      simp only [Stamp.tm] at mon
      omega
    have day : st.day = 30 := by
      have mday := congrArg Tm.tm_mday fields
      simp only [Stamp.tm] at mday
      omega
    have lasts := st.day_le
    rw [month,day] at lasts
    have february : daysIn st.year 2 = if isLeap st.year then 29 else 28 := rfl
    rw [february] at lasts
    split at lasts <;> omega
  · rintro ⟨st,same⟩
    have zulu : st.ending.getLast? = some 90 := by
      unfold Stamp.ending
      split
      · rfl
      · rw [List.getLast?_append]
        rfl
    have ends : st.text.getLast? = some 90 := by
      rw [Stamp.text,List.getLast?_append,zulu]
      rfl
    rw [← same] at ends
    revert ends
    decide +kernel

end Facade.Timestamps
