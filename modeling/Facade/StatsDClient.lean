import Facade.AppConfig
import Facade.UDPSenderRuns
import Mathlib.Data.List.TakeWhile

/-!
`StatsDClient` of src/metrics/StatsDClient.cpp, which writes each metric as a line
for its `UDPSender`, and `initializeStatsDClient` of src/main.cpp, which gives the
client for an environment.

A server that takes a line apart finds the call it was written for
(`read_message`). `real_iff` says for which values of the environment there is a
`StatsDClient`, and `first_metric_ends_process_iff` when the first metric ends the
process.
-/
namespace Facade.StatsD
open Strings Decimals Streams

/-! ### Lines -/

/-- The calls of `IStatsDClient` but `gauge`, which writes a `double`. -/
inductive Metric
  | increment (key : Bytes) (value : Int32)
  | decrement (key : Bytes) (value : Int32)
  | timing (key : Bytes) (value : Int64)
  | set (key value : Bytes)
deriving DecidableEq,Repr

/-- What all of them write. -/
def line (key value kind : Bytes) : Bytes := key ++ 58 :: (value ++ 124 :: kind)

def increment (key : Bytes) (value : Int32) : Bytes := line key (to_string value.toInt) (lit "c")
def decrement (key : Bytes) (value : Int32) : Bytes := increment key (-value)
def timing (key : Bytes) (value : Int64) : Bytes := line key (to_string value.toInt) (lit "ms")
def set (key value : Bytes) : Bytes := line key value (lit "s")

/-- The message of a call. -/
def message : Metric → Bytes
  | .increment key value => increment key value
  | .decrement key value => decrement key value
  | .timing key value => timing key value
  | .set key value => set key value

/-- What a line tells a server. -/
inductive Reading
  | counter (key : Bytes) (value : Int)
  | timer (key : Bytes) (value : Int)
  | element (key value : Bytes)
deriving DecidableEq,Repr

/-- A whole number with an optional sign. -/
def number (text : Bytes) : Option Int :=
  let (sign,row) := IStream.takeSign text
  if row ≠ [] ∧ row.all isDigit then some (sign * IStream.decimal row) else none

/-- How a server takes a line apart: the key before the first colon, the value
    before the bar after it, and the kind of the metric. -/
def read (text : Bytes) : Option Reading :=
  let key := text.takeWhile (· ≠ 58)
  let rest := (text.dropWhile (· ≠ 58)).drop 1
  let value := rest.takeWhile (· ≠ 124)
  let kind := rest.dropWhile (· ≠ 124)
  if kind = lit "|c" then (number value).map (.counter key)
  else if kind = lit "|ms" then (number value).map (.timer key)
  else if kind = lit "|s" then some (.element key value)
  else none

/-- What a call means. A counter that is decremented counts the negated value; the
    negation of the least `int`, which C++ leaves undefined, wraps. -/
def means : Metric → Reading
  | .increment key value => .counter key value.toInt
  | .decrement key value => .counter key (-value).toInt
  | .timing key value => .timer key value.toInt
  | .set key value => .element key value

/-- The separators of a line occur nowhere else in it. -/
def Plain : Metric → Prop
  | .increment key _ | .decrement key _ | .timing key _ => 58 ∉ key
  | .set key value => 58 ∉ key ∧ 124 ∉ value

theorem takeWhile_separator {c : UInt8} {before : Bytes} (free : c ∉ before) (rest : Bytes) :
    (before ++ c :: rest).takeWhile (· ≠ c) = before ∧ (before ++ c :: rest).dropWhile (· ≠ c) = c :: rest := by
  have all : ∀ b ∈ before, (decide (b ≠ c)) = true := by
    intro b member
    rw [decide_eq_true_eq]
    rintro rfl
    exact free member
  constructor
  · rw [List.takeWhile_append_of_pos all]
    simp
  · rw [List.dropWhile_append_of_pos all]
    simp

theorem number_to_string (n : Int) : number (to_string n) = some n := by
  obtain ⟨sign,row,split,digits,some_digit,value⟩ := takeSign_to_string n
  unfold number
  simp only [split]
  rw [if_pos ⟨some_digit,List.all_eq_true.mpr digits⟩,value]

theorem bar_notMem_to_string (n : Int) : (124 : UInt8) ∉ to_string n := by
  intro member
  rcases to_string_chars member with minus | digit
  · cases minus
  · cases digit

/-- A line comes apart at its separators. -/
theorem read_line {key value : Bytes} (plain : 58 ∉ key) (free : 124 ∉ value) (kind : Bytes) : read (line key value kind) =
    if kind = lit "c" then (number value).map (.counter key)
    else if kind = lit "ms" then (number value).map (.timer key)
    else if kind = lit "s" then some (.element key value)
    else none := by
  obtain ⟨first,rest⟩ := takeWhile_separator plain (value ++ 124 :: kind)
  obtain ⟨second,last⟩ := takeWhile_separator free kind
  unfold read line
  simp only [first,rest,List.drop_succ_cons,List.drop_zero,second,last]
  have bar : ∀ text : Bytes, (124 :: kind = 124 :: text) ↔ kind = text := fun text => by simp
  rw [show lit "|c" = 124 :: lit "c" from rfl,show lit "|ms" = 124 :: lit "ms" from rfl,
    show lit "|s" = 124 :: lit "s" from rfl]
  simp only [bar]

/-- A server reads from the message of a call what the call means. -/
theorem read_message {m : Metric} (plain : Plain m) : read (message m) = some (means m) := by
  have timer : lit "ms" ≠ lit "c" := by decide
  have element : lit "s" ≠ lit "c" ∧ lit "s" ≠ lit "ms" := by decide
  cases m with
  | increment key value =>
    simp only [message,increment,means]
    rw [read_line plain (bar_notMem_to_string _),if_pos rfl,number_to_string,Option.map_some]
  | decrement key value =>
    simp only [message,decrement,increment,means]
    rw [read_line plain (bar_notMem_to_string _),if_pos rfl,number_to_string,Option.map_some]
  | timing key value =>
    simp only [message,timing,means]
    rw [read_line plain (bar_notMem_to_string _),if_neg timer,if_pos rfl,number_to_string,Option.map_some]
  | set key value =>
    simp only [message,set,means]
    rw [read_line plain.1 plain.2,if_neg element.1,if_neg element.2,if_pos rfl]

theorem read_message_decrement : read (message (.decrement (lit "jobs") 3)) = some (.counter (lit "jobs") (-3)) :=
  read_message (m := .decrement (lit "jobs") 3) (show 58 ∉ lit "jobs" by decide)

/-! ### The client -/

/-- `std::stoi`: white space, a sign and digits, and whatever follows. -/
def stoi (text : Bytes) : Option Int32 :=
  let (sign,rest) := IStream.takeSign (text.dropWhile isSpace)
  let digits := rest.takeWhile isDigit
  let value : Int := sign * IStream.decimal digits
  if digits ≠ [] ∧ -2147483648 ≤ value ∧ value ≤ 2147483647 then some (Int32.ofInt value) else none

/-- The host that is called "localhost" has a numeric address. -/
def hostOf (host : Bytes) : Bytes := if host = lit "localhost" then lit "127.0.0.1" else host

/-- The sender of the constructor, or the text of what it throws. -/
def new (net : Network) (config : AppConfig) (statsd_address : Bytes) : Except Bytes UDPSender :=
  if 58 ∉ statsd_address then .error (lit "STATSD_SERVER must be in the format <host>:<port>")
  else
    let host_ := hostOf (statsd_address.takeWhile (· ≠ 58))
    match stoi ((statsd_address.dropWhile (· ≠ 58)).drop 1) with
    | none => .error (lit "Invalid port in STATSD_SERVER: stoi")
    | some port =>
      .ok (.new net host_ (UInt16.ofInt port.toInt) (UInt64.ofInt config.metrics_batch_size.toInt)
        (UInt64.ofInt config.metrics_send_interval_in_millis.toInt))

/-- The client of the service. -/
inductive Client
  | real (udp_sender_ : UDPSender)
  | dummy
deriving DecidableEq,Repr

/-- `initializeStatsDClient`, for a value of the variable STATSD_SERVER. -/
def initializeStatsDClient (net : Network) (config : AppConfig) (STATSD_SERVER : Option Bytes) : Client :=
  let statsd_server_endpoint := STATSD_SERVER.getD []
  if statsd_server_endpoint = [] then .dummy
  else
    match new net config statsd_server_endpoint with
    | .ok udp_sender_ => .real udp_sender_
    | .error _ => .dummy

/-- The text of an `int`, and what follows it. -/
structure PortText where
  spaces : Bytes
  sign : Bytes
  digits : Bytes
  rest : Bytes

namespace PortText

def text (p : PortText) : Bytes := p.spaces ++ (p.sign ++ (p.digits ++ p.rest))

def value (p : PortText) : Int :=
  if p.sign = lit "-" then -IStream.decimal p.digits else IStream.decimal p.digits

def Signed (sign : Bytes) : Prop := sign = [] ∨ sign = lit "+" ∨ sign = lit "-"

/-- White space, perhaps a sign, and a row of digits with no digit after it, whose
    value is an `int`. -/
structure Valid (p : PortText) : Prop where
  blank : ∀ c ∈ p.spaces, isSpace c = true
  signed : Signed p.sign
  row : ∀ c ∈ p.digits, isDigit c = true
  some_digit : p.digits ≠ []
  ended : ∀ c, p.rest.head? = some c → isDigit c = false
  small : -2147483648 ≤ p.value ∧ p.value ≤ 2147483647

end PortText

theorem takeWhile_row {p : UInt8 → Bool} {row rest : Bytes} (all : ∀ c ∈ row, p c = true)
    (ended : ∀ c, rest.head? = some c → p c = false) :
    (row ++ rest).takeWhile p = row ∧ (row ++ rest).dropWhile p = rest := by
  rw [List.takeWhile_append_of_pos all,List.dropWhile_append_of_pos all]
  cases rest with
  | nil => simp
  | cons c rest => simp [ended c rfl]

theorem head?_dropWhile {p : UInt8 → Bool} {text : Bytes} {c : UInt8} (first : (text.dropWhile p).head? = some c) :
    p c = false := by
  have stops := List.head?_dropWhile_not p text
  rw [first] at stops
  simpa using stops

/-- A sign is the first byte, where it is one. -/
theorem takeSign_split (text : Bytes) : ∃ sign rest, text = sign ++ rest ∧ PortText.Signed sign ∧
    IStream.takeSign text = (if sign = lit "-" then -1 else 1,rest) := by
  unfold IStream.takeSign
  split
  · exact ⟨lit "-",_,rfl,.inr (.inr rfl),rfl⟩
  · exact ⟨lit "+",_,rfl,.inr (.inl rfl),rfl⟩
  · exact ⟨[],_,rfl,.inl rfl,rfl⟩

theorem takeSign_append {sign : Bytes} (signed : PortText.Signed sign) {c : UInt8} (digit : isDigit c = true)
    (rest : Bytes) : IStream.takeSign (sign ++ c :: rest) = (if sign = lit "-" then -1 else 1,c :: rest) := by
  rcases signed with rfl | rfl | rfl
  · have plain : c ≠ 45 ∧ c ≠ 43 := by
      constructor
      · rintro rfl
        cases digit
      · rintro rfl
        cases digit
    show IStream.takeSign (c :: rest) = (1,c :: rest)
    unfold IStream.takeSign
    split
    · rename_i start
      exact absurd (List.cons.inj start).1 plain.1
    · rename_i start
      exact absurd (List.cons.inj start).1 plain.2
    · rfl
  · rfl
  · rfl

theorem isSpace_of_sign {sign : Bytes} (signed : PortText.Signed sign) {c d : UInt8} (digit : isDigit c = true)
    {rest : Bytes} (first : (sign ++ c :: rest).head? = some d) : isSpace d = false := by
  rcases signed with rfl | rfl | rfl
  · have same : c = d := by simpa using first
    subst same
    revert digit
    exact forall_byte (P := fun c => isDigit c = true → isSpace c = false) (by decide +kernel) c
  · have same : (43 : UInt8) = d := by simpa [lit] using first
    subst same
    rfl
  · have same : (45 : UInt8) = d := by simpa [lit] using first
    subst same
    rfl

theorem signed_value (p : PortText) : (if p.sign = lit "-" then (-1 : Int) else 1) * IStream.decimal p.digits = p.value := by
  unfold PortText.value
  split
  · rw [Int.neg_one_mul]
  · rw [Int.one_mul]

theorem stoi_eq_some {text : Bytes} {n : Int32} :
    stoi text = some n ↔ ∃ p : PortText, p.Valid ∧ text = p.text ∧ n = Int32.ofInt p.value := by
  constructor
  · intro found
    obtain ⟨sign,after,split,signed,taken⟩ := takeSign_split (text.dropWhile isSpace)
    have value := signed_value ⟨text.takeWhile isSpace,sign,after.takeWhile isDigit,after.dropWhile isDigit⟩
    unfold stoi at found
    simp only [taken] at found value
    rw [value] at found
    split at found
    · rename_i fits
      cases found
      refine ⟨_,⟨fun c => List.mem_takeWhile_imp,signed,fun c => List.mem_takeWhile_imp,fits.1,
        fun c => head?_dropWhile,fits.2⟩,?_,rfl⟩
      simp only [PortText.text]
      rw [List.takeWhile_append_dropWhile,← split,List.takeWhile_append_dropWhile]
    · cases found
  · rintro ⟨p,valid,rfl,rfl⟩
    obtain ⟨c,row,form⟩ := List.exists_cons_of_ne_nil valid.some_digit
    have digit : isDigit c = true := valid.row c (by rw [form]; exact List.mem_cons_self)
    have spaced : (p.text).dropWhile isSpace = p.sign ++ (p.digits ++ p.rest) := by
      refine (takeWhile_row valid.blank fun d first => ?_).2
      rw [form,List.cons_append] at first
      exact isSpace_of_sign valid.signed digit first
    obtain ⟨digits,_⟩ := takeWhile_row valid.row valid.ended
    have taken : IStream.takeSign (p.sign ++ (p.digits ++ p.rest)) =
        (if p.sign = lit "-" then -1 else 1,p.digits ++ p.rest) := by
      rw [form,List.cons_append]
      exact takeSign_append valid.signed digit _
    unfold stoi
    simp only [spaced,taken,digits]
    rw [signed_value,if_pos ⟨valid.some_digit,valid.small⟩]

theorem new_ok_iff {net : Network} {config : AppConfig} {statsd_address : Bytes} {s : UDPSender} :
    new net config statsd_address = .ok s ↔ ∃ host, ∃ p : PortText, p.Valid ∧ 58 ∉ host ∧
      statsd_address = host ++ 58 :: p.text ∧
      s = .new net (hostOf host) (UInt16.ofInt p.value) (UInt64.ofInt config.metrics_batch_size.toInt)
        (UInt64.ofInt config.metrics_send_interval_in_millis.toInt) := by
  have port {p : PortText} (valid : p.Valid) : (Int32.ofInt p.value).toInt = p.value := by
    obtain ⟨low,high⟩ := valid.small
    exact Int32.toInt_ofInt_of_le (by simpa using low) (by omega)
  unfold new
  constructor
  · intro created
    split at created
    · cases created
    · rename_i colon
      simp only at created
      split at created
      · cases created
      · rename_i n found
        cases created
        obtain ⟨p,valid,text,rfl⟩ := stoi_eq_some.mp found
        refine ⟨statsd_address.takeWhile (· ≠ 58),p,valid,?_,?_,by rw [port valid]⟩
        · intro member
          simpa using List.mem_takeWhile_imp member
        · rw [← text]
          have rest : statsd_address.dropWhile (· ≠ 58) = 58 :: (statsd_address.dropWhile (· ≠ 58)).drop 1 := by
            cases after : statsd_address.dropWhile (· ≠ 58) with
            | nil =>
              have none := List.dropWhile_eq_nil_iff.mp after 58 (by simpa using colon)
              simp at none
            | cons c later =>
              have first : (statsd_address.dropWhile (· ≠ 58)).head? = some c := by rw [after]; rfl
              have stops := head?_dropWhile first
              have same : c = 58 := by simpa using stops
              rw [same]
              rfl
          rw [← rest,List.takeWhile_append_dropWhile]
  · rintro ⟨host,p,valid,plain,rfl,rfl⟩
    obtain ⟨first,after⟩ := takeWhile_separator plain p.text
    have found : stoi p.text = some (Int32.ofInt p.value) := stoi_eq_some.mpr ⟨p,valid,rfl,rfl⟩
    rw [if_neg (by simp)]
    simp only [first,after,List.drop_succ_cons,List.drop_zero,found,port valid]

/-- There is a `StatsDClient` exactly where the variable is a host and an `int`,
    with a colon between and anything after them, whether or not its sender gets a
    socket; the port is what `uint16_t` keeps of the `int`. -/
theorem real_iff {net : Network} {config : AppConfig} {STATSD_SERVER : Option Bytes} {s : UDPSender} :
    initializeStatsDClient net config STATSD_SERVER = .real s ↔ ∃ host, ∃ p : PortText, p.Valid ∧ 58 ∉ host ∧
      STATSD_SERVER = some (host ++ 58 :: p.text) ∧
      s = .new net (hostOf host) (UInt16.ofInt p.value) (UInt64.ofInt config.metrics_batch_size.toInt)
        (UInt64.ofInt config.metrics_send_interval_in_millis.toInt) := by
  unfold initializeStatsDClient
  cases STATSD_SERVER with
  | none => simp
  | some statsd_server_endpoint =>
    simp only [Option.getD_some,Option.some.injEq]
    rw [← new_ok_iff]
    split
    · rename_i empty
      subst empty
      simp [new]
    · cases created : new net config statsd_server_endpoint with
      | ok t => simp
      | error text => simp

/-! ### The size of a batch -/

/-- A size that is configured below -256 is one that no batch can have, and only
    such a size is. -/
theorem configured_long_iff (n : Int32) : UInt64.ofInt n.toInt ≠ 0 ∧ UInt64.ofInt n.toInt + 256 > UDPSender.max_size ↔
    n.toInt < -256 := by
  have low : -2147483648 ≤ n.toInt := Int32.le_toInt n
  have high : n.toInt ≤ 2147483647 := Int32.toInt_le n
  have value : (UInt64.ofInt n.toInt).toNat = (n.toInt % 18446744073709551616).toNat := by
    have small := Int.emod_lt_of_pos n.toInt (show (0 : Int) < 18446744073709551616 by decide)
    simpa [UInt64.ofInt] using small
  have sum : (UInt64.ofInt n.toInt + 256).toNat =
      ((n.toInt % 18446744073709551616).toNat + 256) % 18446744073709551616 := by
    rw [UInt64.toNat_add,value]
    rfl
  rw [gt_iff_lt,UInt64.lt_iff_toNat_lt,sum,Ne,← UInt64.toNat_inj,value]
  show ¬ (n.toInt % 18446744073709551616).toNat = 0 ∧ 9223372036854775807 < _ ↔ _
  omega

/-- The first metric ends the process exactly where the size of a batch is
    configured below -256. -/
theorem first_metric_ends_process_iff {net : Network} {config : AppConfig} {STATSD_SERVER : Option Bytes} {s : UDPSender}
    (real : initializeStatsDClient net config STATSD_SERVER = .real s) {acts : List Sending.Action} {d : Sending}
    {log : List Sending.Event} (run : Runs.Run Sending.step (Sending.start s) acts d log) :
    d.life = .terminated ↔
      config.metrics_batch_size.toInt < -256 ∧ ∃ message err, Sending.Action.send message err ∈ acts := by
  obtain ⟨host,p,_,_,_,rfl⟩ := real_iff.mp real
  rw [Sending.terminated_iff run,← and_assoc,configured_long_iff]

/-- Batches of -300 bytes. -/
def negativeConfig : AppConfig := { metrics_batch_size := -300 }

def negativeSender : UDPSender := .new Sending.localNetwork (lit "127.0.0.1") 8125 (UInt64.ofInt (-300)) 1000

theorem first_metric_ends_process_negative : ∃ d log,
    Runs.Run Sending.step (Sending.start negativeSender) [.send Sending.metricA none] d log ∧ d.life = .terminated := by
  have real : initializeStatsDClient Sending.localNetwork negativeConfig (some (lit "localhost:8125")) =
      .real negativeSender := by decide +kernel
  have executed : (Runs.exec Sending.step (Sending.start negativeSender) [.send Sending.metricA none]).isSome = true := by
    decide +kernel
  have run := Runs.Run.of_isSome executed
  refine ⟨_,_,run,(first_metric_ends_process_iff real run).mpr ⟨by decide,Sending.metricA,none,by decide +kernel⟩⟩

end Facade.StatsD
