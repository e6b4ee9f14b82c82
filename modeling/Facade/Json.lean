import Facade.OrderedMap
import Facade.Strings

/-!
JSON as the program uses it. The library (nlohmann) is a parameter: it parses a
text or throws, and it writes an object or throws, when one of its strings is
not UTF-8 (`JsonLibrary`). Only what the program looks at is kept of a value: a
text, a truth value, or that it is something else.

`tabled` is a library that parses the texts of a given table and writes objects
as `dump(4)` does; no two objects are written alike (`render_injective`).
-/
namespace Facade
open Strings

inductive JsonValue
  | string (text : Bytes)
  | boolean (value : Bool)
  | other
deriving DecidableEq,Repr

/-- The members of an object, in the order of their keys. -/
abbrev JsonObject := OrderedMap Bytes JsonValue

inductive Json
  | object (members : JsonObject)
  | other
deriving DecidableEq,Repr

/-- The text of a value is UTF-8. -/
def JsonValue.valid : JsonValue → Bool
  | .string text => utf8Valid text
  | _ => true

/-- The value is one that the program writes. -/
def JsonValue.plain : JsonValue → Bool
  | .other => false
  | _ => true

namespace JsonObject

/-- Every string of the object is UTF-8. -/
def valid (o : JsonObject) : Bool := o.all fun b => utf8Valid b.1 && b.2.valid

/-- All members are strings or truth values. -/
def plain (o : JsonObject) : Bool := o.all fun b => b.2.plain

end JsonObject

structure JsonLibrary where
  /-- `json::parse`, or nothing when it throws. -/
  parse : Bytes → Option Json
  /-- `dump(4)`, or nothing when it throws. -/
  dump : JsonObject → Option Bytes
  /-- The parser accepts UTF-8 only. -/
  parse_valid : ∀ text members, parse text = some (.object members) → JsonObject.valid members = true
  /-- An object is written exactly when its strings are UTF-8. -/
  dump_isSome : ∀ o, JsonObject.plain o = true → ((dump o).isSome = true ↔ JsonObject.valid o = true)
  /-- What was written tells which object it was. -/
  dump_injective : ∀ o o' text, JsonObject.plain o = true → JsonObject.plain o' = true →
    dump o = some text → dump o' = some text → o = o'

/-! ### The text of an object -/

namespace JsonText

/-- A hexadecimal digit, in lower case. -/
def hexDigit (n : Nat) : UInt8 := UInt8.ofNat (if n < 10 then 48 + n else 87 + n)

/-- A byte inside a string: quotation marks, backslashes and control characters
    are escaped. -/
def escape (c : UInt8) : Bytes :=
  if c = 8 then lit "\\b"
  else if c = 9 then lit "\\t"
  else if c = 10 then lit "\\n"
  else if c = 12 then lit "\\f"
  else if c = 13 then lit "\\r"
  else if c = 34 then lit "\\\""
  else if c = 92 then lit "\\\\"
  else if c < 32 then lit "\\u00" ++ [hexDigit (c.toNat / 16),hexDigit (c.toNat % 16)]
  else [c]

def quote (text : Bytes) : Bytes := 34 :: (text.flatMap escape ++ [34])

def renderValue : JsonValue → Bytes
  | .string text => quote text
  | .boolean true => lit "true"
  | .boolean false => lit "false"
  | .other => []

def renderMember (b : Bytes × JsonValue) : Bytes := lit "\n    " ++ quote b.1 ++ lit ": " ++ renderValue b.2

/-- The members after the first, and the end of the object. -/
def renderRest : JsonObject → Bytes
  | [] => lit "\n\x7d"
  | b :: rest => 44 :: (renderMember b ++ renderRest rest)

/-- The text of an object, one member on a line. -/
def render : JsonObject → Bytes
  | [] => lit "\x7b\x7d"
  | b :: rest => 123 :: (renderMember b ++ renderRest rest)

/-- The first byte of a string's contents, and what follows it. -/
def unescape : Bytes → Option (UInt8 × Bytes)
  | 92 :: 98 :: rest => some (8,rest)
  | 92 :: 116 :: rest => some (9,rest)
  | 92 :: 110 :: rest => some (10,rest)
  | 92 :: 102 :: rest => some (12,rest)
  | 92 :: 114 :: rest => some (13,rest)
  | 92 :: 34 :: rest => some (34,rest)
  | 92 :: 92 :: rest => some (92,rest)
  | 92 :: 117 :: _ :: _ :: h :: l :: rest =>
    some (UInt8.ofNat (16 * (hexVal h).getD 0 + (hexVal l).getD 0),rest)
  | 92 :: _ => none
  | c :: rest => some (c,rest)
  | [] => none

theorem unescape_plain {c : UInt8} (plain : c ≠ 92) (rest : Bytes) : unescape (c :: rest) = some (c,rest) := by
  unfold unescape
  split <;> simp_all

theorem unescape_escape (c : UInt8) (rest : Bytes) : unescape (escape c ++ rest) = some (c,rest) := by
  have control : ∀ c : UInt8, c < 32 → UInt8.ofNat (16 * (hexVal (hexDigit (c.toNat / 16))).getD 0 +
      (hexVal (hexDigit (c.toNat % 16))).getD 0) = c := forall_byte (by decide +kernel)
  unfold escape
  split_ifs with b t n f r q s low
  · subst b; rfl
  · subst t; rfl
  · subst n; rfl
  · subst f; rfl
  · subst r; rfl
  · subst q; rfl
  · subst s; rfl
  · show some (UInt8.ofNat _,rest) = some (c,rest)
    rw [control c low]
  · exact unescape_plain s rest

theorem escape_cons (c : UInt8) : ∃ first rest, escape c = first :: rest ∧ first ≠ 34 := by
  unfold escape
  split_ifs with b t n f r q
  any_goals exact ⟨92,_,rfl,by decide⟩
  exact ⟨c,[],rfl,q⟩

theorem contents_injective {s s' rest rest' : Bytes}
    (same : s.flatMap escape ++ 34 :: rest = s'.flatMap escape ++ 34 :: rest') : s = s' ∧ rest = rest' := by
  induction s generalizing s' with
  | nil =>
    cases s' with
    | nil => simpa using same
    | cons c more =>
      obtain ⟨first,others,opens,differs⟩ := escape_cons c
      simp only [List.flatMap_nil,List.nil_append,List.flatMap_cons,opens,List.cons_append,List.cons.injEq] at same
      exact absurd same.1.symm differs
  | cons c more ih =>
    cases s' with
    | nil =>
      obtain ⟨first,others,opens,differs⟩ := escape_cons c
      simp only [List.flatMap_nil,List.nil_append,List.flatMap_cons,opens,List.cons_append,List.cons.injEq] at same
      exact absurd same.1 differs
    | cons c' more' =>
      simp only [List.flatMap_cons,List.append_assoc] at same
      have first := congrArg unescape same
      rw [unescape_escape,unescape_escape,Option.some.injEq,Prod.mk.injEq] at first
      obtain ⟨rfl,later⟩ := first
      obtain ⟨rfl,ends⟩ := ih later
      exact ⟨rfl,ends⟩

theorem quote_injective {s s' rest rest' : Bytes} (same : quote s ++ rest = quote s' ++ rest') :
    s = s' ∧ rest = rest' := by
  simp only [quote,List.cons_append,List.append_assoc,List.nil_append,List.cons.injEq,true_and] at same
  exact contents_injective same

theorem renderValue_injective {v v' : JsonValue} (plain : v.plain = true) (plain' : v'.plain = true)
    {rest rest' : Bytes} (same : renderValue v ++ rest = renderValue v' ++ rest') : v = v' ∧ rest = rest' := by
  match v, v' with
  | .string s, .string s' =>
    obtain ⟨rfl,ends⟩ := quote_injective same
    exact ⟨rfl,ends⟩
  | .boolean true, .boolean true => exact ⟨rfl,by simpa [renderValue] using same⟩
  | .boolean false, .boolean false => exact ⟨rfl,by simpa [renderValue] using same⟩
  | .boolean true, .boolean false => simp [renderValue,lit] at same
  | .boolean false, .boolean true => simp [renderValue,lit] at same
  | .string s, .boolean true => simp [renderValue,quote,lit] at same
  | .string s, .boolean false => simp [renderValue,quote,lit] at same
  | .boolean true, .string s => simp [renderValue,quote,lit] at same
  | .boolean false, .string s => simp [renderValue,quote,lit] at same

theorem renderMember_injective {b b' : Bytes × JsonValue} (plain : b.2.plain = true) (plain' : b'.2.plain = true)
    {rest rest' : Bytes} (same : renderMember b ++ rest = renderMember b' ++ rest') : b = b' ∧ rest = rest' := by
  obtain ⟨key,value⟩ := b
  obtain ⟨key',value'⟩ := b'
  simp only [renderMember,List.append_assoc,List.append_cancel_left_eq] at same
  obtain ⟨rfl,after⟩ := quote_injective same
  rw [List.append_cancel_left_eq] at after
  obtain ⟨rfl,ends⟩ := renderValue_injective plain plain' after
  exact ⟨rfl,ends⟩

theorem renderRest_injective {o o' : JsonObject} (plain : o.plain = true) (plain' : JsonObject.plain o' = true)
    (same : renderRest o = renderRest o') : o = o' := by
  induction o generalizing o' with
  | nil =>
    cases o' with
    | nil => rfl
    | cons b' rest' => simp [renderRest,lit] at same
  | cons b rest ih =>
    cases o' with
    | nil => simp [renderRest,lit] at same
    | cons b' rest' =>
      simp only [JsonObject.plain,List.all_cons,Bool.and_eq_true] at plain plain'
      simp only [renderRest,List.cons.injEq,true_and] at same
      obtain ⟨rfl,ends⟩ := renderMember_injective plain.1 plain'.1 same
      rw [ih plain.2 plain'.2 ends]

theorem render_injective {o o' : JsonObject} (plain : o.plain = true) (plain' : JsonObject.plain o' = true)
    (same : render o = render o') : o = o' := by
  cases o with
  | nil =>
    cases o' with
    | nil => rfl
    | cons b' rest' => simp [render,renderMember,lit] at same
  | cons b rest =>
    cases o' with
    | nil => simp [render,renderMember,lit] at same
    | cons b' rest' =>
      simp only [JsonObject.plain,List.all_cons,Bool.and_eq_true] at plain plain'
      simp only [render,List.cons.injEq,true_and] at same
      obtain ⟨rfl,ends⟩ := renderMember_injective plain.1 plain'.1 same
      rw [renderRest_injective plain.2 plain'.2 ends]

/-- A string is written without a NUL. -/
theorem zero_notMem_quote (text : Bytes) : 0 ∉ quote text := by
  have escaped : ∀ c : UInt8, 0 ∉ escape c := forall_byte (by decide +kernel)
  simp [quote,escaped]

theorem zero_notMem_renderMember (b : Bytes × JsonValue) : 0 ∉ renderMember b := by
  have blanks : 0 ∉ lit "\n    " ∧ 0 ∉ lit ": " := by decide +kernel
  have value : 0 ∉ renderValue b.2 := by
    cases b.2 with
    | string text => exact zero_notMem_quote text
    | boolean truth => cases truth <;> decide +kernel
    | other => simp [renderValue]
  simp [renderMember,blanks,value,zero_notMem_quote b.1]

theorem zero_notMem_renderRest (o : JsonObject) : 0 ∉ renderRest o := by
  induction o with
  | nil => decide
  | cons b rest ih => simp [renderRest,zero_notMem_renderMember b,ih]

/-- Neither is an object. -/
theorem zero_notMem_render (o : JsonObject) : 0 ∉ render o := by
  cases o with
  | nil => decide
  | cons b rest => simp [render,zero_notMem_renderMember b,zero_notMem_renderRest rest]

end JsonText

/-- The library that parses the texts of a table. -/
def JsonLibrary.tabled (table : List (Bytes × JsonObject)) : JsonLibrary where
  parse text := ((table.lookup text).filter JsonObject.valid).map .object
  dump o := if JsonObject.valid o then some (JsonText.render o) else none
  parse_valid := by
    intro text members parsed
    simp only [Option.map_eq_some_iff,Option.filter_eq_some_iff,Json.object.injEq,exists_eq_right] at parsed
    exact parsed.2
  dump_isSome := by
    intro o _
    by_cases valid : JsonObject.valid o = true <;> simp [valid]
  dump_injective := by
    intro o o' text plain plain' written written'
    simp only [Option.ite_none_right_eq_some,Option.some.injEq] at written written'
    exact JsonText.render_injective plain plain' (written.2.trans written'.2.symm)

end Facade
