import Facade.OrderedMap
import Facade.Streams

/-!
The query of a `/company` request: `Utils::urlDecode` of src/utils/Utils.hpp and
the loop of `Backendify::processCompanyRequest` that collects the parameters.
-/
namespace Facade.Query
open Strings Streams

/-- `static_cast<char>(value)`. -/
def toChar (value : Int) : UInt8 := UInt8.ofNat (value % 256).toNat

/-- `Utils::urlDecode`: the two bytes after a '%' are read as a hexadecimal
    number by a stream of their own. -/
def urlDecode : Bytes → Bytes
  | [] => []
  | c :: a :: b :: rest =>
    if c = 37 then
      match (IStream.ofBytes [a,b]).getHex.1 with
      | some value => toChar value :: urlDecode rest
      | none => 37 :: urlDecode (a :: b :: rest)
    else if c = 43 then 32 :: urlDecode (a :: b :: rest)
    else c :: urlDecode (a :: b :: rest)
  | c :: rest => (if c = 43 then 32 else c) :: urlDecode rest

theorem urlDecode_cons {c : UInt8} (percent : c ≠ 37) (rest : Bytes) :
    urlDecode (c :: rest) = (if c = 43 then 32 else c) :: urlDecode rest := by
  match rest with
  | [] => rfl
  | [a] => rfl
  | a :: b :: more =>
    rw [urlDecode.eq_2,if_neg percent]
    split <;> rfl

theorem urlDecode_percent (a b : UInt8) (rest : Bytes) : urlDecode (37 :: a :: b :: rest) =
    match (IStream.ofBytes [a,b]).getHex.1 with
    | some value => toChar value :: urlDecode rest
    | none => 37 :: urlDecode (a :: b :: rest) :=
  (urlDecode.eq_2 37 a b rest).trans (if_pos rfl)

abbrev Params := OrderedMap Bytes Bytes

/-- The variables of the loop over the query. -/
structure Parser where
  params : Params
  current_param : Bytes
  key : Bytes
  value : Bytes
  parsing_key : Bool
deriving DecidableEq,Repr

namespace Parser

def start : Parser := ⟨[],[],[],[],true⟩

/-- `if (!key.empty()) params[key] = value;`. -/
def store (p : Parser) : Params := if p.key = [] then p.params else p.params.assign p.key p.value

/-- The body of the loop. -/
def next (p : Parser) (c : UInt8) : Parser :=
  if c = 61 then { p with key := urlDecode p.current_param, current_param := [], parsing_key := false }
  else if c = 38 then
    let p := { p with value := urlDecode p.current_param }
    ⟨p.store,[],[],[],true⟩
  else { p with current_param := p.current_param ++ [c] }

/-- What follows the loop. -/
def finish (p : Parser) : Params :=
  if p.current_param = [] then p.params
  else if p.parsing_key then store { p with key := urlDecode p.current_param }
  else store { p with value := urlDecode p.current_param }

end Parser

/-- The parameters of a query. -/
def parseQuery (query : Bytes) : Params := (query.foldl Parser.next .start).finish

/-- `params.count(key) ? params.at(key) : ""`. -/
def param (key : Bytes) (params : Params) : Bytes := (params.find key).getD []

example : param (lit "id") (parseQuery (lit "id=a%2Fb&country_iso=us")) = lit "a/b" := by decide +kernel

end Facade.Query
