import Facade.Strings

/-!
What the program uses of Boost.Beast and Boost.Asio: the fields of requests and
responses that it reads or sets, when a message keeps its connection alive, and
the error codes of asynchronous operations.
-/
namespace Facade.Http
open Strings

/-- The `error_code` of an operation that failed; success is the absence of one. -/
inductive ErrorCode
  | end_of_stream
  | operation_aborted
  | timed_out
  | connection_refused
  | not_connected
  | invalid_argument
  | operation_not_supported
  | other (value : Nat)
deriving DecidableEq,Repr

inductive Verb
  | get
  | other
deriving DecidableEq,Repr

/-- A request, with its `Connection` field given by the two tokens Beast looks
    for in it. -/
structure Request where
  version : Nat
  method : Verb
  target : Bytes
  connection_close : Bool
  connection_keep_alive : Bool
deriving DecidableEq,Repr

namespace Request

/-- `req_ = {}`. -/
def empty : Request := ⟨11,.get,[],false,false⟩

/-- `keep_alive()`: HTTP/1.1 connections persist unless closed, older ones only
    when asked for. -/
def keep_alive (r : Request) : Bool := if r.version < 11 then r.connection_keep_alive else !r.connection_close

/-- What is left of a request that was moved from: its fields and target are
    gone, its version and method stay. -/
def movedOut (r : Request) : Request :=
  { r with target := [], connection_close := false, connection_keep_alive := false }

end Request

/-- A response with a string body. `keep_alive` is the value `keep_alive()`
    returns, and `server` tells whether the `Server` field was set. -/
structure Response where
  version : Nat
  result : Nat
  keep_alive : Bool
  server : Bool
  content_type : Option Bytes
  body : Bytes
deriving DecidableEq,Repr

/-- A default-constructed response: HTTP/1.1, kept alive, status 200, no body. -/
def Response.empty : Response := ⟨11,200,true,false,none,[]⟩

/-- The path of a target: what precedes the first '?'. -/
def pathOf (target : Bytes) : Bytes := target.takeWhile (· != 63)

/-- What follows the first '?' of a target. -/
def queryOf (target : Bytes) : Bytes := (target.dropWhile (· != 63)).drop 1

end Facade.Http
