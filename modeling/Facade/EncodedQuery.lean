import Mathlib.Data.List.Forall2
import Facade.Backendify
import Facade.FormQuery

/-!
Queries as a client encodes them: every byte of a name or value that is not
unreserved is written `%XX`, and the pairs are joined with '=' and '&'.

`encoded_query_params` says that `processCompanyRequest` finds in such a query the
pairs that were put in.
-/
namespace Facade.Query
open Strings Streams Http

/-- The unreserved characters of RFC 3986. -/
def isUnreserved (c : UInt8) : Bool := isAlpha c || isDigit c || c ∈ lit "-._~"

/-- The hexadecimal digit of a value below sixteen. -/
def hexDigit (n : Nat) : UInt8 := UInt8.ofNat (if n < 10 then 48 + n else 55 + n)

/-- The text is a percent-encoding of the bytes; the hexadecimal digits may be of
    either case. -/
inductive Encodes : Bytes → Bytes → Prop
  | nil : Encodes [] []
  | plain {c : UInt8} {s text : Bytes} : isUnreserved c = true → Encodes s text → Encodes (c :: s) (c :: text)
  | escape {c h l : UInt8} {hi lo : Nat} {s text : Bytes} : isUnreserved c = false → hexVal h = some hi →
      hexVal l = some lo → c.toNat = 16 * hi + lo → Encodes s text → Encodes (c :: s) (37 :: h :: l :: text)

/-- The encoding with digits in upper case. -/
def percentEncode : Bytes → Bytes
  | [] => []
  | c :: rest =>
    if isUnreserved c then c :: percentEncode rest
    else 37 :: hexDigit (c.toNat / 16) :: hexDigit (c.toNat % 16) :: percentEncode rest

/-- The text is an encoding of the pair. -/
def EncodesPair (pair : Bytes × Bytes) (text : Bytes) : Prop :=
  ∃ key value, Encodes pair.1 key ∧ Encodes pair.2 value ∧ text = key ++ 61 :: value

/-- The query is an encoding of the pairs. -/
def EncodesPairs (pairs : List (Bytes × Bytes)) (query : Bytes) : Prop :=
  ∃ texts, List.Forall₂ EncodesPair pairs texts ∧ query = [38].intercalate texts

theorem encodes_percentEncode (s : Bytes) : Encodes s (percentEncode s) := by
  have digits : ∀ c : UInt8, hexVal (hexDigit (c.toNat / 16)) = some (c.toNat / 16) ∧
      hexVal (hexDigit (c.toNat % 16)) = some (c.toNat % 16) := forall_byte (by decide +kernel)
  induction s with
  | nil => exact .nil
  | cons c rest ih =>
    unfold percentEncode
    split
    · rename_i unreserved
      exact .plain unreserved ih
    · rename_i reserved
      exact .escape (by simpa using reserved) (digits c).1 (digits c).2 (by omega) ih

theorem getHex_digits {h l : UInt8} {hi lo : Nat} (high : hexVal h = some hi) (low : hexVal l = some lo) :
    (IStream.ofBytes [h,l]).getHex.1 = some ((16 * hi + lo : Nat) : Int) := by
  obtain ⟨visible,plus,minus,-⟩ := hexVal_visible (by simp [high] : (hexVal h).isSome = true)
  have second : ∀ c : UInt8, (hexVal c).isSome = true → c ≠ 120 ∧ c ≠ 88 := forall_byte (by decide +kernel)
  obtain ⟨lower,upper⟩ := second l (by simp [low])
  have unsigned := IStream.takeSign_unsigned plus minus [l]
  have bare := IStream.skipPrefix_bare (by simp [lower,upper] : ¬ (h = 48 ∧ (l = 120 ∨ l = 88))) []
  have value : IStream.hexadecimal [h,l] = 16 * hi + lo := by simp [IStream.hexadecimal,high,low]
  have bounds := And.intro (hexVal_lt high) (hexVal_lt low)
  have fits : -2147483648 ≤ ((16 * hi + lo : Nat) : Int) ∧ ((16 * hi + lo : Nat) : Int) ≤ 2147483647 := by omega
  simp only [IStream.getHex,IStream.sentry,IStream.ofBytes,IStream.good,visible,List.dropWhile_cons,List.isEmpty_cons,
    unsigned,bare,List.takeWhile_cons,List.takeWhile_nil,high,low,Option.isSome_some,value,Bool.false_eq_true,
    Bool.not_false,Bool.and_self,Bool.and_false,if_true,if_false,ne_eq,reduceCtorEq,not_false_eq_true,true_and,one_mul]
  rw [if_pos fits]

theorem toChar_toNat (c : UInt8) : toChar (c.toNat : Int) = c := by
  have all : ∀ c : UInt8, toChar (c.toNat : Int) = c := forall_byte (by decide +kernel)
  exact all c

theorem isUnreserved_plain {c : UInt8} (unreserved : isUnreserved c = true) : c ≠ 37 ∧ c ≠ 43 ∧ c ≠ 38 ∧ c ≠ 61 := by
  have all : ∀ c : UInt8, isUnreserved c = true → c ≠ 37 ∧ c ≠ 43 ∧ c ≠ 38 ∧ c ≠ 61 := forall_byte (by decide +kernel)
  exact all c unreserved

theorem hexVal_plain {c : UInt8} {n : Nat} (hex : hexVal c = some n) : c ≠ 38 ∧ c ≠ 61 := by
  have all : ∀ c : UInt8, (hexVal c).isSome = true → c ≠ 38 ∧ c ≠ 61 := forall_byte (by decide +kernel)
  exact all c (by simp [hex])

theorem urlDecode_plain {c : UInt8} (percent : c ≠ 37) (plus : c ≠ 43) (rest : Bytes) :
    urlDecode (c :: rest) = c :: urlDecode rest := by
  rw [urlDecode_cons percent,if_neg plus]

/-- Decoding undoes any encoding. -/
theorem Encodes.urlDecode {s text : Bytes} (encodes : Encodes s text) : urlDecode text = s := by
  induction encodes with
  | nil => rfl
  | plain unreserved _ ih =>
    obtain ⟨percent,plus,-,-⟩ := isUnreserved_plain unreserved
    rw [urlDecode_plain percent plus,ih]
  | @escape c h l hi lo s text _ high low value _ ih =>
    rw [urlDecode_percent,getHex_digits high low,← value]
    simp only [toChar_toNat,ih]

/-- No separator is left in an encoding. -/
theorem Encodes.plain_text {s text : Bytes} (encodes : Encodes s text) : 38 ∉ text ∧ 61 ∉ text := by
  induction encodes with
  | nil => simp
  | plain unreserved _ ih =>
    obtain ⟨-,-,ampersand,equals⟩ := isUnreserved_plain unreserved
    simp [ih,Ne.symm ampersand,Ne.symm equals]
  | escape _ high low _ _ ih =>
    have first := hexVal_plain high
    have second := hexVal_plain low
    simp [ih,Ne.symm first.1,Ne.symm first.2,Ne.symm second.1,Ne.symm second.2]

theorem Encodes.ne_nil {s text : Bytes} (encodes : Encodes s text) (filled : s ≠ []) : text ≠ [] := by
  cases encodes with
  | nil => exact absurd rfl filled
  | plain _ _ => simp
  | escape _ _ _ _ _ => simp

/-- The loop reads an encoded pair back, in the last place or before it. -/
theorem EncodesPair.asLoop {pair : Bytes × Bytes} {text : Bytes} (encodes : EncodesPair pair text)
    (filled : pair.1 ≠ [] ∧ pair.2 ≠ []) (last : Bool) : (Segment.mk last text).asLoop = some pair := by
  obtain ⟨key,value,encodesKey,encodesValue,rfl⟩ := encodes
  have pieces : (key ++ 61 :: value).splitOn 61 = [key,value] := by
    have free : ∀ piece ∈ [key,value], 61 ∉ piece := by simp [encodesKey.plain_text.2,encodesValue.plain_text.2]
    simpa using List.splitOn_intercalate 61 free (by simp)
  have some_value := encodesValue.ne_nil filled.2
  simp only [Segment.asLoop,pieces,List.reverse_cons,List.reverse_nil,List.nil_append,List.cons_append,some_value,
    and_false,if_false,encodesKey.urlDecode,encodesValue.urlDecode,named,filled.1]

theorem filterMap_placed {pairs : List (Bytes × Bytes)} {texts : List Bytes}
    (encodes : List.Forall₂ EncodesPair pairs texts) (filled : ∀ pair ∈ pairs, pair.1 ≠ [] ∧ pair.2 ≠ []) :
    (placed texts).filterMap Segment.asLoop = pairs := by
  induction encodes with
  | nil => rfl
  | @cons pair text pairs texts here later ih =>
    have rest := ih (fun p member => filled p (by simp [member]))
    have first := here.asLoop (filled pair (by simp))
    cases later with
    | nil => simp [placed,first]
    | cons _ _ => simp [placed,first,rest]

theorem no_ampersand {pairs : List (Bytes × Bytes)} {texts : List Bytes}
    (encodes : List.Forall₂ EncodesPair pairs texts) : ∀ text ∈ texts, 38 ∉ text := by
  induction encodes with
  | nil => simp
  | cons here _ ih =>
    obtain ⟨key,value,encodesKey,encodesValue,rfl⟩ := here
    intro text member
    rcases List.mem_cons.mp member with rfl | later
    · simp [encodesKey.plain_text.1,encodesValue.plain_text.1]
    · exact ih text later

/-- The loop binds the pairs that were encoded, in their order. -/
theorem parseQuery_encoded {pairs : List (Bytes × Bytes)} {query : Bytes} (encodes : EncodesPairs pairs query)
    (filled : ∀ pair ∈ pairs, pair.1 ≠ [] ∧ pair.2 ≠ []) : parseQuery query = OrderedMap.ofBindings pairs := by
  obtain ⟨texts,each,rfl⟩ := encodes
  rw [parseQuery_eq,segments]
  by_cases empty : texts = []
  · subst empty
    cases each
    rfl
  · rw [List.splitOn_intercalate 38 (no_ampersand each) empty,filterMap_placed each filled]

/-- The query of a target is what follows its first '?'. -/
theorem queryOf_company (query : Bytes) : queryOf (lit "/company?" ++ query) = query := by
  have path : lit "/company?" = lit "/company" ++ [63] := by decide +kernel
  have free : ∀ c ∈ lit "/company", (c != 63) = true := by decide +kernel
  rw [path,queryOf,List.append_assoc,List.dropWhile_append_of_pos free]
  simp

/-- The parameters found in an encoded query are the pairs that were encoded, each
    name with the value of its last pair; so an id of any bytes is found as it was
    sent, wherever it stands among the parameters. -/
theorem encoded_query_params (pairs : List (Bytes × Bytes)) (query : Bytes) (req : Request)
    (filled : ∀ pair ∈ pairs, pair.1 ≠ [] ∧ pair.2 ≠ []) (encodes : EncodesPairs pairs query)
    (target : req.target = lit "/company?" ++ query) :
    (∀ key, (parseQuery (queryOf req.target)).find key = OrderedMap.lastValue key pairs) ∧
    (∀ id before after, pairs = before ++ (lit "id",id) :: after → (∀ pair ∈ after, pair.1 ≠ lit "id") →
      Backendify.idOf req = id) := by
  have found : ∀ key, (parseQuery (queryOf req.target)).find key = OrderedMap.lastValue key pairs := by
    intro key
    rw [target,queryOf_company,parseQuery_encoded encodes filled,OrderedMap.find_ofBindings]
  refine ⟨found,?_⟩
  rintro id before after rfl last
  have value : OrderedMap.lastValue (lit "id") (before ++ (lit "id",id) :: after) = some id := by
    rw [OrderedMap.lastValue_append,OrderedMap.lastValue,OrderedMap.lastValue_eq_none last]
    simp
  rw [Backendify.idOf,param,found,value,Option.getD_some]

/-- A company request for the id "a/b&=%" with the country first, and the target a
    client makes of it. -/
def slashedPairs : List (Bytes × Bytes) := [(lit "country_iso",lit "us"),(lit "id",lit "a/b&=%")]
def slashedTarget : Bytes := lit "/company?country_iso=us&id=a%2Fb%26%3D%25"

theorem encoded_query_params_slashed : Backendify.idOf ⟨11,.get,slashedTarget,false,false⟩ = lit "a/b&=%" := by
  have encodes : EncodesPairs slashedPairs (slashedTarget.drop 9) := by
    refine ⟨slashedPairs.map fun p => percentEncode p.1 ++ 61 :: percentEncode p.2,?_,by decide +kernel⟩
    have each : ∀ p : Bytes × Bytes, EncodesPair p (percentEncode p.1 ++ 61 :: percentEncode p.2) :=
      fun p => ⟨_,_,encodes_percentEncode p.1,encodes_percentEncode p.2,rfl⟩
    exact .cons (each _) (.cons (each _) .nil)
  exact (encoded_query_params slashedPairs (slashedTarget.drop 9) ⟨11,.get,slashedTarget,false,false⟩ (by decide +kernel)
    encodes (by decide +kernel)).2 _ [(lit "country_iso",lit "us")] [] rfl (by simp)

end Facade.Query
