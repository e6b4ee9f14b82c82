import Mathlib.Algebra.Group.Int.Defs
import Mathlib.Algebra.Group.Nat.Defs
import Facade.Calendar
import Facade.Streams

/-!
`Utils::isUTCTimeInFuture` of src/utils/Utils.hpp, with `std::get_time` as the
C++ library reads the format of `Constants::TIME_FORMAT`. A stream that ends
with a field is not failed, only at its end. `char suffix` is not initialised:
when nothing can be extracted into it, it holds whatever byte was there, which
is a parameter here.

`isUTCTimeInFuture_stamp` says what the function makes of a well-formed
timestamp (`Stamp`).
-/
namespace Facade.Timestamps
open Strings Streams Calendar

/-- A conversion of `std::get_time`. -/
inductive Conversion
  | Y
  | m
  | d
  | H
  | M
  | S
deriving DecidableEq,Repr

inductive Directive
  | literal (c : UInt8)
  | convert (field : Conversion)
deriving DecidableEq,Repr

/-- `Constants::TIME_FORMAT`: "%Y-%m-%dT%H:%M:%S". -/
def TIME_FORMAT : List Directive :=
  [.convert .Y,.literal 45,.convert .m,.literal 45,.convert .d,.literal 84,.convert .H,.literal 58,.convert .M,
    .literal 58,.convert .S]

/-- The loop of `_M_extract_num`: up to `len` digits, given up at the first that
    takes the value above `max`. Returns the number of digits taken, the value
    and what is left. -/
def scanNum (max : Nat) : Nat → Nat → Nat → Bytes → Nat × Nat × Bytes
  | 0,taken,value,rest => (taken,value,rest)
  | _ + 1,taken,value,[] => (taken,value,[])
  | len + 1,taken,value,c :: rest =>
    if isDigit c then
      let value := value * 10 + digitVal c
      if max < value then (taken,value,c :: rest) else scanNum max len (taken + 1) value rest
    else (taken,value,c :: rest)

/-- `_M_extract_num`. -/
def extractNum (min max len : Nat) (s : Bytes) : Option Nat × Bytes :=
  let (taken,value,rest) := scanNum max len 0 0 s
  (if taken ≠ 0 ∧ min ≤ value ∧ value ≤ max then some value else none,rest)

/-- The number a conversion reads; `%d` skips one blank before it. -/
def Conversion.extract : Conversion → Bytes → Option Nat × Bytes
  | .Y,s => extractNum 0 9999 4 s
  | .m,s => extractNum 1 12 2 s
  | .d,s =>
    match s with
    | c :: rest => if isSpace c then extractNum 1 31 2 rest else extractNum 1 31 2 (c :: rest)
    | [] => extractNum 1 31 2 []
  | .H,s => extractNum 0 23 2 s
  | .M,s => extractNum 0 59 2 s
  | .S,s => extractNum 0 60 2 s

def Conversion.store (value : Nat) (tm : Tm) : Conversion → Tm
  | .Y => { tm with tm_year := (value : Int) - 1900 }
  | .m => { tm with tm_mon := (value : Int) - 1 }
  | .d => { tm with tm_mday := value }
  | .H => { tm with tm_hour := value }
  | .M => { tm with tm_min := value }
  | .S => { tm with tm_sec := value }

/-- The loop of `std::time_get::get`: the stream it leaves and what it stored. -/
def getFormat : List Directive → Tm → Bytes → Tm × IStream
  | [],tm,s => (tm,⟨s,false,false⟩)
  | _ :: _,tm,[] => (tm,⟨[],true,true⟩)
  | .literal c :: format,tm,b :: rest =>
    if toLower b = toLower c ∨ toUpper b = toUpper c then getFormat format tm rest
    else (tm,⟨b :: rest,false,true⟩)
  | .convert field :: format,tm,b :: rest =>
    match field.extract (b :: rest) with
    | (none,left) => (tm,⟨left,left.isEmpty,true⟩)
    | (some value,[]) => (field.store value tm,⟨[],true,false⟩)
    | (some value,left) => getFormat format (field.store value tm) left

/-- `ss >> std::get_time(&tm, format)`. -/
def get_time (format : List Directive) (tm : Tm) (ss : IStream) : Tm × IStream :=
  match ss.sentry true with
  | (false,ss) => (tm,ss)
  | (true,ss) => getFormat format tm ss.rest

/-- `while (ss.peek() >= '0' && ss.peek() <= '9') ss >> digit;`, every round of
    which takes a digit or fails the stream. -/
def skipDigits : Nat → IStream → IStream
  | 0,ss => ss
  | rounds + 1,ss =>
    match ss.peek with
    | (some c,ss) => if isDigit c then skipDigits rounds ss.getInt.2 else ss
    | (none,ss) => ss

/-- The optional fraction of a second is skipped. -/
def skipFraction (ss : IStream) : IStream :=
  match ss.peek with
  | (some 46,ss) =>
    let ss := skipDigits (ss.rest.length + 1) ss.getChar.2
    if ss.fail && !ss.eof then ss.clear else ss
  | (_,ss) => ss

/-- The check for the trailing 'Z'; `suffix` is the byte found uninitialised. -/
def checkSuffix (active_until_str : Bytes) (suffix : UInt8) (ss : IStream) : Except Bytes IStream :=
  let (read,ss) := ss.getChar
  let suffix := read.getD suffix
  if ss.fail || suffix ≠ 90 then
    if ss.eof && suffix ≠ 90 && ss.fail then
      .error (lit "Timestamp missing required 'Z' (UTC indicator): '" ++ active_until_str ++ lit "'")
    else if suffix ≠ 90 then
      .error (lit "Unsupported timestamp format or extra characters (expected 'Z'): '" ++ active_until_str ++ lit "'")
    else if ss.fail && !ss.eof then
      .error (lit "Failed reading character after time (expected 'Z'): '" ++ active_until_str ++ lit "'")
    else .ok ss
  else .ok ss

/-- Reduction to a signed 64-bit count. -/
def wrap64 (n : Int) : Int := n.bmod (2 ^ 64)

/-- `system_clock::from_time_t`, in nanoseconds. -/
def from_time_t (t : Int) : Int := wrap64 (t * 1000000000)

def conversionFailed (active_until_str : Bytes) : Bytes :=
  lit "Failed to convert parsed UTC time to time_t (invalid input or missing timegm/mkgmtime?) for: '" ++
    active_until_str ++ lit "'"

/-- `isUTCTimeInFuture`, at `now` in nanoseconds since the epoch. A successful
    `timegm` leaves `errno` at 0, so that a result of -1 is taken for a failure. -/
def isUTCTimeInFuture (suffix : UInt8) (now : Int) (active_until_str : Bytes) : Except Bytes Bool := do
  let (tm,ss) := get_time TIME_FORMAT ⟨0,0,0,0,0,0⟩ (.ofBytes active_until_str)
  if ss.fail then .error (lit "Failed to parse date/time part: '" ++ active_until_str ++ lit "'")
  else
    let ss ← checkSuffix active_until_str suffix (skipFraction ss)
    let (remaining,ss) := ss.getWord
    if !ss.fail && !remaining.isEmpty then
      .error (lit "Unexpected characters after 'Z': '" ++ remaining ++ lit "' in '" ++ active_until_str ++ lit "'")
    else
      let active_until_time_t := timegm tm
      if active_until_time_t = -1 then .error (conversionFailed active_until_str)
      else .ok (decide (from_time_t active_until_time_t > now))

/-- The broken-down time that is read from a text, and the stream after it. -/
def broken (s : Bytes) : Tm × IStream := get_time TIME_FORMAT ⟨0,0,0,0,0,0⟩ (.ofBytes s)

/-- A text is accepted when all its checks are passed, and the answer depends on the
    broken-down time alone. -/
theorem isUTCTimeInFuture_ok_iff (suffix : UInt8) (now : Int) (s : Bytes) (future : Bool) :
    isUTCTimeInFuture suffix now s = .ok future ↔
      (broken s).2.fail = false ∧
      (∃ ss, checkSuffix s suffix (skipFraction (broken s).2) = .ok ss ∧ (ss.getWord.2.fail = true ∨ ss.getWord.1 = [])) ∧
      timegm (broken s).1 ≠ -1 ∧ future = decide (from_time_t (timegm (broken s).1) > now) := by
  unfold isUTCTimeInFuture broken
  obtain ⟨tm,ss⟩ := get_time TIME_FORMAT ⟨0,0,0,0,0,0⟩ (.ofBytes s)
  by_cases fails : ss.fail = true
  · simp [fails]
  · simp only [fails,Bool.false_eq_true,if_false]
    cases checkSuffix s suffix (skipFraction ss) with
    | error what => simp [Bind.bind,Except.bind]
    | ok rest =>
      simp only [Bind.bind,Except.bind,Except.ok.injEq,exists_eq_left']
      by_cases trailing : rest.getWord.2.fail = true ∨ rest.getWord.1 = []
      · have none_left : (!rest.getWord.2.fail && !rest.getWord.1.isEmpty) = false := by
          rcases trailing with failed | empty
          · simp [failed]
          · simp [empty]
        simp only [none_left,Bool.false_eq_true,if_false,trailing,true_and]
        by_cases sentinel : timegm tm = -1
        · simp [sentinel]
        · simp [sentinel,eq_comm]
      · have some_left : (!rest.getWord.2.fail && !rest.getWord.1.isEmpty) = true := by
          rw [not_or] at trailing
          simpa using trailing
        simp [some_left,trailing]

/-! ### Well-formed timestamps -/

/-- Two and four decimal digits. -/
def two (n : Nat) : Bytes := [digit (n / 10),digit (n % 10)]
def four (n : Nat) : Bytes := [digit (n / 1000),digit (n / 100 % 10),digit (n / 10 % 10),digit (n % 10)]

/-- A timestamp "YYYY-MM-DDTHH:MM:SS[.digits]Z" of an instant that exists. -/
structure Stamp where
  year : Nat
  month : Nat
  day : Nat
  hour : Nat
  minute : Nat
  second : Nat
  /-- The digits of the fraction, none when there is no fraction. -/
  fraction : Bytes
  year_le : year ≤ 9999
  month_pos : 1 ≤ month
  month_le : month ≤ 12
  day_pos : 1 ≤ day
  day_le : day ≤ daysIn year month
  hour_le : hour ≤ 23
  minute_le : minute ≤ 59
  second_le : second ≤ 59
  digits : ∀ c ∈ fraction, isDigit c = true

namespace Stamp

/-- What follows the seconds. -/
def ending (st : Stamp) : Bytes := if st.fraction = [] then [90] else 46 :: st.fraction ++ [90]

def text (st : Stamp) : Bytes :=
  four st.year ++ 45 :: two st.month ++ 45 :: two st.day ++ 84 :: two st.hour ++ 58 :: two st.minute ++
    58 :: two st.second ++ st.ending

/-- The instant in whole seconds since the epoch. -/
def seconds (st : Stamp) : Int :=
  dayNumber st.year (st.month - 1) st.day * 86400 + st.hour * 3600 + st.minute * 60 + st.second

/-- The instant, fraction included, is later than `now`, in nanoseconds since
    the epoch: both sides are multiplied by the denominator of the fraction. -/
def After (st : Stamp) (now : Int) : Prop :=
  now * 10 ^ st.fraction.length <
    (st.seconds * 10 ^ st.fraction.length + IStream.decimal st.fraction) * 1000000000

instance (st : Stamp) (now : Int) : Decidable (st.After now) := inferInstanceAs (Decidable (_ < _))

/-- The fields that `std::get_time` finds. -/
def tm (st : Stamp) : Tm :=
  ⟨st.second,st.minute,st.hour,st.day,(st.month : Int) - 1,(st.year : Int) - 1900⟩

theorem day_le_31 (st : Stamp) : st.day ≤ 31 := by
  have bound := st.day_le
  unfold daysIn at bound
  split at bound
  · split at bound <;> omega
  all_goals omega

theorem timegm_tm (st : Stamp) : timegm st.tm = st.seconds := by
  have low := st.month_pos
  have high := st.month_le
  have month : (((st.month : Int) - 1) % 12).toNat = st.month - 1 := by omega
  have carry : ((st.month : Int) - 1) / 12 = 0 := by omega
  have year : 1900 + ((st.year : Int) - 1900) + 0 = st.year := by omega
  unfold timegm seconds tm
  simp only [month,carry,year]

end Stamp

/-! ### Reading a well-formed timestamp -/

theorem extractNum_two {min max n : Nat} (small : n < 100) (low : min ≤ n) (high : n ≤ max) (rest : Bytes) :
    extractNum min max 2 (two n ++ rest) = (some n,rest) := by
  have tens : n / 10 < 10 := by omega
  have units : n % 10 < 10 := by omega
  have first : ¬ max < n / 10 := by omega
  have whole : n / 10 * 10 + n % 10 = n := by omega
  have second : ¬ max < n := by omega
  simp [extractNum,two,scanNum,digit_isDigit tens,digit_isDigit units,digitVal_digit tens,digitVal_digit units,
    first,whole,second,low,high]

theorem extractNum_four {n : Nat} (high : n ≤ 9999) (rest : Bytes) :
    extractNum 0 9999 4 (four n ++ rest) = (some n,rest) := by
  have a : n / 1000 < 10 := by omega
  have b : n / 100 % 10 < 10 := by omega
  have c : n / 10 % 10 < 10 := by omega
  have d : n % 10 < 10 := by omega
  have ab : n / 1000 * 10 + n / 100 % 10 = n / 100 := by omega
  have abc : n / 100 * 10 + n / 10 % 10 = n / 10 := by omega
  have abcd : n / 10 * 10 + n % 10 = n := by omega
  have bounds : ¬ 9999 < n / 1000 ∧ ¬ 9999 < n / 100 ∧ ¬ 9999 < n / 10 ∧ ¬ 9999 < n := by omega
  simp [extractNum,four,scanNum,digit_isDigit,digitVal_digit,a,b,c,d,ab,abc,abcd,bounds,high]

theorem getFormat_literal (c : UInt8) (format : List Directive) (tm : Tm) (rest : Bytes) :
    getFormat (.literal c :: format) tm (c :: rest) = getFormat format tm rest := by
  simp [getFormat]

theorem getFormat_convert {field : Conversion} {text : Bytes} {value : Nat}
    (reads : ∀ rest, field.extract (text ++ rest) = (some value,rest)) (format : List Directive) (tm : Tm) (c : UInt8)
    (left : Bytes) :
    getFormat (.convert field :: format) tm (text ++ c :: left) =
      getFormat format (field.store value tm) (c :: left) := by
  have read := reads (c :: left)
  cases whole : text ++ c :: left with
  | nil => simp at whole
  | cons b rest =>
    rw [whole] at read
    simp [getFormat,read]

theorem ending_cons (st : Stamp) : ∃ c rest, st.ending = c :: rest := by
  unfold Stamp.ending
  split
  · exact ⟨_,_,rfl⟩
  · exact ⟨_,_,rfl⟩

theorem extract_day {n : Nat} (low : 1 ≤ n) (high : n ≤ 31) (rest : Bytes) :
    Conversion.extract .d (two n ++ rest) = (some n,rest) := by
  have tens : isSpace (digit (n / 10)) = false := IStream.isDigit_not_space (digit_isDigit (by omega))
  have read := extractNum_two (by omega) low high rest
  simp only [two,List.cons_append,List.nil_append] at read ⊢
  simp only [Conversion.extract,tens,Bool.false_eq_true,↓reduceIte,read]

/-- Every field of a well-formed timestamp is read back. -/
theorem getFormat_stamp (st : Stamp) :
    getFormat TIME_FORMAT ⟨0,0,0,0,0,0⟩ st.text = (st.tm,⟨st.ending,false,false⟩) := by
  have monthLe := st.month_le
  have hourLe := st.hour_le
  have minuteLe := st.minute_le
  have secondLe := st.second_le
  have year : ∀ rest, Conversion.extract .Y (four st.year ++ rest) = (some st.year,rest) :=
    extractNum_four st.year_le
  have month : ∀ rest, Conversion.extract .m (two st.month ++ rest) = (some st.month,rest) :=
    extractNum_two (by omega) st.month_pos st.month_le
  have day : ∀ rest, Conversion.extract .d (two st.day ++ rest) = (some st.day,rest) :=
    extract_day st.day_pos st.day_le_31
  have hour : ∀ rest, Conversion.extract .H (two st.hour ++ rest) = (some st.hour,rest) :=
    extractNum_two (by omega) (by omega) st.hour_le
  have minute : ∀ rest, Conversion.extract .M (two st.minute ++ rest) = (some st.minute,rest) :=
    extractNum_two (by omega) (by omega) st.minute_le
  have second : ∀ rest, Conversion.extract .S (two st.second ++ rest) = (some st.second,rest) :=
    extractNum_two (by omega) (by omega) (by omega)
  obtain ⟨c,rest,ends⟩ := ending_cons st
  simp only [TIME_FORMAT,Stamp.text,List.append_assoc,List.cons_append]
  rw [getFormat_convert year,getFormat_literal,getFormat_convert month,getFormat_literal,getFormat_convert day,
    getFormat_literal,getFormat_convert hour,getFormat_literal,getFormat_convert minute,getFormat_literal,ends,
    getFormat_convert second]
  rfl

/-- The fraction is skipped, however long it is. -/
theorem skipFraction_ending (st : Stamp) : skipFraction ⟨st.ending,false,false⟩ = ⟨[90],false,false⟩ := by
  unfold Stamp.ending
  split
  · rfl
  · rename_i some_digit
    have point : isSpace 46 = false := by decide
    have stops : isDigit 90 = false := by decide
    have taken := (IStream.getInt_digits some_digit st.digits stops : (IStream.getInt ⟨st.fraction ++ 90 :: [],false,false⟩).2 = _)
    obtain ⟨d,more,cut⟩ := List.exists_cons_of_ne_nil some_digit
    have first : isDigit d = true := st.digits d (by simp [cut])
    have peeked : IStream.peek ⟨st.fraction ++ [90],false,false⟩ = (some d,⟨st.fraction ++ [90],false,false⟩) := by
      rw [cut]; rfl
    have opened : skipFraction ⟨46 :: st.fraction ++ [90],false,false⟩ =
        (let ss := skipDigits ((46 :: st.fraction ++ [90]).length + 1) ⟨st.fraction ++ [90],false,false⟩
         if ss.fail && !ss.eof then ss.clear else ss) := by
      simp only [skipFraction,List.cons_append,IStream.peek_cons,IStream.getChar_cons point]
    -- The first round takes all digits; the second one ends the loop.
    have round : skipDigits ((46 :: st.fraction ++ [90]).length + 1) ⟨st.fraction ++ [90],false,false⟩ =
        skipDigits ((st.fraction ++ [90]).length + 1)
          ⟨[90],false,decide (2147483647 < IStream.decimal st.fraction)⟩ := by
      rw [List.cons_append,List.length_cons]
      simp only [skipDigits,peeked,first,↓reduceIte,taken]
    rw [opened,round]
    by_cases long : 2147483647 < IStream.decimal st.fraction
    · simp only [long,decide_true]
      rfl
    · simp only [long,decide_false]
      rfl

/-- A text is that of one instant only. -/
theorem after_of_text {st st' : Stamp} (same : st.text = st'.text) :
    st.seconds = st'.seconds ∧ st.fraction = st'.fraction := by
  have read := getFormat_stamp st
  rw [same,getFormat_stamp st',Prod.mk.injEq,IStream.mk.injEq] at read
  obtain ⟨fields,ends,_⟩ := read
  refine ⟨by rw [← st.timegm_tm,← st'.timegm_tm,fields],?_⟩
  unfold Stamp.ending at ends
  split at ends <;> split at ends
  all_goals simp_all

theorem broken_text (st : Stamp) : broken st.text = (st.tm,⟨st.ending,false,false⟩) := by
  have visible : st.text.dropWhile isSpace = st.text ∧ st.text.isEmpty = false := by
    have first : isSpace (digit (st.year / 1000)) = false :=
      IStream.isDigit_not_space (digit_isDigit (by have := st.year_le; omega))
    simp [Stamp.text,four,first]
  have ready : IStream.sentry true (.ofBytes st.text) = (true,⟨st.text,false,false⟩) := by
    simp [IStream.sentry,IStream.ofBytes,IStream.good,visible]
  simp only [broken,get_time,ready,getFormat_stamp]

/-- A well-formed timestamp is accepted, unless it denotes the second before
    the epoch, and compared with the clock at whole seconds. -/
theorem isUTCTimeInFuture_stamp (suffix : UInt8) (now : Int) (st : Stamp) :
    isUTCTimeInFuture suffix now st.text =
      if st.seconds = -1 then .error (conversionFailed st.text)
      else .ok (decide (from_time_t st.seconds > now)) := by
  have read : get_time TIME_FORMAT ⟨0,0,0,0,0,0⟩ (.ofBytes st.text) = (st.tm,⟨st.ending,false,false⟩) := broken_text st
  have last : checkSuffix st.text suffix ⟨[90],false,false⟩ = .ok ⟨[],false,false⟩ := rfl
  unfold isUTCTimeInFuture
  simp only [read,Bool.false_eq_true,↓reduceIte,skipFraction_ending,last]
  simp [Bind.bind,Except.bind,IStream.getWord_nil,Stamp.timegm_tm]

theorem from_time_t_eq {t : Int} (low : -2 ^ 63 ≤ t * 1000000000) (high : t * 1000000000 < 2 ^ 63) :
    from_time_t t = t * 1000000000 := by
  unfold from_time_t wrap64
  rw [Int.bmod_eq_of_le]
  · omega
  · omega

/-- An instant is not before its whole seconds. -/
theorem later_of_seconds {seconds now : Int} (later : seconds * 1000000000 > now) (fraction : Bytes) :
    now * 10 ^ fraction.length < (seconds * 10 ^ fraction.length + IStream.decimal fraction) * 1000000000 := by
  have scale : (0 : Int) < 10 ^ fraction.length := Int.pow_pos (by decide)
  calc now * 10 ^ fraction.length
      < seconds * 1000000000 * 10 ^ fraction.length := by
        exact Int.mul_lt_mul_of_pos_right later scale
    _ ≤ (seconds * 10 ^ fraction.length + IStream.decimal fraction) * 1000000000 := by
        have some_more : (0 : Int) ≤ IStream.decimal fraction := Int.natCast_nonneg _
        have regroup : seconds * 1000000000 * 10 ^ fraction.length = seconds * 10 ^ fraction.length * 1000000000 := by
          ac_rfl
        rw [regroup]
        omega

/-- At whole seconds a timestamp is later than the clock exactly when its
    instant is, except while the clock is between the two. -/
theorem after_iff_seconds (st : Stamp) {now : Int} (between : ¬ (st.seconds * 1000000000 ≤ now ∧ st.After now)) :
    st.seconds * 1000000000 > now ↔ st.After now := by
  constructor
  · exact fun later => later_of_seconds later st.fraction
  · intro after
    by_contra notLater
    exact between ⟨by omega,after⟩

/-- Nanoseconds since the epoch of a timestamp, at whole seconds. -/
def Stamp.nanoseconds (st : Stamp) : Int := st.seconds * 1000000000

/-- The 64 bits of the clock do not change how the timestamp compares with `now`: it
    fits, or what is left of it modulo 2^64 is on the same side of `now`. -/
def Stamp.Comparable (st : Stamp) (now : Int) : Prop :=
  (-2 ^ 63 ≤ st.nanoseconds ∧ st.nanoseconds < 2 ^ 63) ∨
  (2 ^ 63 ≤ st.nanoseconds ∧ now < st.nanoseconds.bmod (2 ^ 64)) ∨
  (st.nanoseconds < -2 ^ 63 ∧ st.nanoseconds.bmod (2 ^ 64) ≤ now)

instance (st : Stamp) (now : Int) : Decidable (st.Comparable now) := inferInstanceAs (Decidable (_ ∨ _))

theorem from_time_t_side (st : Stamp) {now : Int} (low : -2 ^ 63 ≤ now) (high : now < 2 ^ 63) :
    (from_time_t st.seconds > now ↔ st.nanoseconds > now) ↔ st.Comparable now := by
  have wrapped : from_time_t st.seconds = st.nanoseconds.bmod (2 ^ 64) := rfl
  by_cases above : 2 ^ 63 ≤ st.nanoseconds
  · -- later than any time the clock can show
    have later : st.nanoseconds > now := by omega
    have notBelow : ¬ st.nanoseconds < -2 ^ 63 := by omega
    have notInside : ¬ st.nanoseconds < 2 ^ 63 := by omega
    simp only [wrapped,later,iff_true,Stamp.Comparable,above,notBelow,notInside,and_false,false_and,true_and,
      false_or,or_false]
  · by_cases below : st.nanoseconds < -2 ^ 63
    · have earlier : ¬ st.nanoseconds > now := by omega
      have notInside : ¬ -2 ^ 63 ≤ st.nanoseconds := by omega
      simp only [wrapped,earlier,iff_false,Stamp.Comparable,above,below,notInside,false_and,true_and,false_or]
      omega
    · have inside : -2 ^ 63 ≤ st.nanoseconds ∧ st.nanoseconds < 2 ^ 63 := by omega
      have exactly : from_time_t st.seconds = st.nanoseconds := from_time_t_eq inside.1 inside.2
      simp only [exactly,Stamp.Comparable,inside,and_self,true_or]

/-- A well-formed timestamp is rightly compared with the clock exactly when it is
    not the second before the epoch and the 64 bits of the clock do no harm. -/
theorem isUTCTimeInFuture_iff (suffix : UInt8) (now : Int64) (st : Stamp) :
    isUTCTimeInFuture suffix now.toInt st.text = .ok (decide (st.nanoseconds > now.toInt)) ↔
      st.seconds ≠ -1 ∧ st.Comparable now.toInt := by
  have low : -2 ^ 63 ≤ now.toInt := now.le_toInt
  have high : now.toInt < 2 ^ 63 := now.toInt_lt
  rw [isUTCTimeInFuture_stamp,← from_time_t_side st low high]
  by_cases sentinel : st.seconds = -1
  · simp [sentinel]
  · simp [sentinel]

/-- A timestamp from its fields, which are checked together. -/
def Stamp.ofFields (year month day hour minute second : Nat) (fraction : Bytes)
    (valid : (year ≤ 9999 ∧ 1 ≤ month ∧ month ≤ 12 ∧ 1 ≤ day ∧ day ≤ daysIn year month) ∧
      (hour ≤ 23 ∧ minute ≤ 59 ∧ second ≤ 59) ∧ fraction.all isDigit = true) : Stamp where
  year := year
  month := month
  day := day
  hour := hour
  minute := minute
  second := second
  fraction := fraction
  year_le := valid.1.1
  month_pos := valid.1.2.1
  month_le := valid.1.2.2.1
  day_pos := valid.1.2.2.2.1
  day_le := valid.1.2.2.2.2
  hour_le := valid.2.1.1
  minute_le := valid.2.1.2.1
  second_le := valid.2.1.2.2
  digits := List.all_eq_true.mp valid.2.2

/-- "9999-12-31T23:59:59Z" and "1969-12-31T23:59:59Z". -/
def endOfCalendar : Stamp := .ofFields 9999 12 31 23 59 59 [] (by decide)
def beforeEpoch : Stamp := .ofFields 1969 12 31 23 59 59 [] (by decide)

/-- In 2023 the end of the calendar is taken for the past, and the second before the
    epoch for a failed conversion. -/
theorem far_stamp_past :
    (endOfCalendar.nanoseconds > (1700000000000000000 : Int64).toInt ∧
      isUTCTimeInFuture 0 (1700000000000000000 : Int64).toInt endOfCalendar.text = .ok false) ∧
    isUTCTimeInFuture 0 (1700000000000000000 : Int64).toInt beforeEpoch.text = .error (conversionFailed beforeEpoch.text) := by
  decide +kernel

end Facade.Timestamps
