import Mathlib.Data.List.TakeWhile
import Facade.ClientCalls
import Facade.Query

/-!
The request that a backend call puts on the wire. `callBackendApi` appends the
company id to "/companies/" as it is, so the request addresses the company
exactly when the id needs no encoding (`target_addresses_iff`).
-/
namespace Facade
open Strings Http Query

namespace ClientRequest

/-- The request line. -/
def requestLine (target : Bytes) : Bytes := lit "GET " ++ target ++ lit " HTTP/1.1"

/-- The bytes that are sent: Beast writes the target as it is. -/
def serialise (user_agent : Bytes) (req : ClientRequest) : Bytes :=
  requestLine req.target ++ lit "\r\nHost: " ++ req.host ++ lit "\r\nUser-Agent: " ++ user_agent ++
    lit "\r\nAccept-Encoding: gzip, deflate\r\n\r\n"

/-- What a server reads as the request line: the bytes before the first CR or
    LF. -/
def firstLine (bytes : Bytes) : Bytes := bytes.takeWhile fun c => c ≠ 13 && c ≠ 10

/-- The resource a target addresses: its path, without query and fragment,
    decoded. -/
def resource (target : Bytes) : Bytes := pctDecode (target.takeWhile fun c => c ≠ 63 && c ≠ 35)

/-- The request is for the company with the id: its target is the path and one
    segment that stands for the id and brings no delimiter with it, the bytes
    sent begin with this request line, of three words, and no other resource is
    addressed than the one named by the id. -/
structure Addresses (user_agent : Bytes) (req : ClientRequest) (id : Bytes) : Prop where
  segment : ∃ segment, req.target = BACKEND_PATH ++ segment ∧ isSegment segment = true ∧ pctDecode segment = id ∧
    ∀ c ∈ segment, c ∉ lit " \r\n/?#"
  line : firstLine (serialise user_agent req) = requestLine req.target
  words : (firstLine (serialise user_agent req)).count 32 = 2
  names : resource req.target = BACKEND_PATH ++ id

theorem segmentChar_plain {c : UInt8} (allowed : isSegmentChar c = true) : c ∉ lit " \r\n/?#" := by
  have all : ∀ c : UInt8, isSegmentChar c = true → c ∉ lit " \r\n/?#" := forall_byte (by decide +kernel)
  exact all c allowed

/-- The bytes of a line are all before its end. -/
theorem firstLine_append {line : Bytes} (plain : ∀ c ∈ line, c ≠ 13 ∧ c ≠ 10) (rest : Bytes) :
    firstLine (line ++ lit "\r\n" ++ rest) = line := by
  have kept : ∀ c ∈ line, (decide (c ≠ 13) && decide (c ≠ 10)) = true := by
    intro c member
    simp [plain c member]
  rw [firstLine,List.append_assoc,List.takeWhile_append_of_pos kept]
  have stops : (lit "\r\n" ++ rest).takeWhile (fun c => decide (c ≠ 13) && decide (c ≠ 10)) = [] := by
    simp [lit]
  rw [stops,List.append_nil]

theorem serialise_eq (user_agent : Bytes) (req : ClientRequest) :
    serialise user_agent req = requestLine req.target ++ lit "\r\n" ++ (lit "Host: " ++ req.host ++
      lit "\r\nUser-Agent: " ++ user_agent ++ lit "\r\nAccept-Encoding: gzip, deflate\r\n\r\n") := by
  have split : lit "\r\nHost: " = lit "\r\n" ++ lit "Host: " := by decide
  simp only [serialise,split,List.append_assoc]

/-- An id of plain characters is a segment that stands for itself. -/
theorem addresses_plain (user_agent host : Bytes) {id : Bytes} (plain : ∀ c ∈ id, isSegmentChar c = true) :
    Addresses user_agent ⟨BACKEND_PATH ++ id,host⟩ id := by
  have apart : ∀ c ∈ id, c ∉ lit " \r\n/?#" := fun c member => segmentChar_plain (plain c member)
  have constant : ∀ c ∈ lit "GET " ++ BACKEND_PATH ++ lit " HTTP/1.1", c ≠ 13 ∧ c ≠ 10 := by
    have all : (lit "GET " ++ BACKEND_PATH ++ lit " HTTP/1.1").all (fun c => decide (c ≠ 13 ∧ c ≠ 10)) = true := by
      decide
    intro c member
    exact of_decide_eq_true (List.all_eq_true.mp all c member)
  have unbroken : ∀ c ∈ requestLine (BACKEND_PATH ++ id), c ≠ 13 ∧ c ≠ 10 := by
    intro c member
    simp only [requestLine,List.append_assoc,List.mem_append] at member
    rcases member with verb | path | inside | version
    · exact constant c (by simp [verb])
    · exact constant c (by simp [path])
    · have := apart c inside
      constructor
      · rintro rfl; exact this (by decide)
      · rintro rfl; exact this (by decide)
    · exact constant c (by simp [version])
  have line : firstLine (serialise user_agent ⟨BACKEND_PATH ++ id,host⟩) = requestLine (BACKEND_PATH ++ id) := by
    rw [serialise_eq]
    exact firstLine_append unbroken _
  have blanks : id.count 32 = 0 := by
    rw [List.count_eq_zero]
    intro member
    exact apart 32 member (by decide)
  refine ⟨⟨id,rfl,isSegment_of_chars plain,pctDecode_of_chars plain,apart⟩,line,?_,?_⟩
  · have fixed : (lit "GET ").count 32 = 1 ∧ BACKEND_PATH.count 32 = 0 ∧ (lit " HTTP/1.1").count 32 = 1 := by decide
    rw [line,requestLine]
    simp only [List.count_append,blanks,fixed]
  · have whole : ∀ c ∈ BACKEND_PATH ++ id, (decide (c ≠ 63) && decide (c ≠ 35)) = true := by
      intro c member
      rcases List.mem_append.mp member with path | inside
      · have all : BACKEND_PATH.all (fun c => decide (c ≠ 63) && decide (c ≠ 35)) = true := by decide
        exact List.all_eq_true.mp all c path
      · have := apart c inside
        have query : c ≠ 63 := by rintro rfl; exact this (by decide)
        have fragment : c ≠ 35 := by rintro rfl; exact this (by decide)
        simp [query,fragment]
    have kept : (BACKEND_PATH ++ id).takeWhile (fun c => decide (c ≠ 63) && decide (c ≠ 35)) = BACKEND_PATH ++ id := by
      rw [List.takeWhile_eq_self_iff]
      exact whole
    have decoded : pctDecode (BACKEND_PATH ++ id) = BACKEND_PATH ++ pctDecode id := by
      simp [BACKEND_PATH,lit,pctDecode_cons]
    rw [resource,kept,decoded,pctDecode_of_chars plain]

end ClientRequest

namespace ClientCalls
open ClientRequest

/-- The request of a backend call addresses the company with the id exactly
    when every byte of the id may stand in a path segment as it is. -/
theorem target_addresses_iff (config : AppConfig) (info : BackendUrlInfo) (supported : info.is_https = false)
    (company_id user_agent : Bytes) (p : ClientCalls) :
    ∃ call, (callBackendApi config (some info) company_id p).1.calls = p.calls ++ [call] ∧
      (Addresses user_agent call.session.req company_id ↔ ∀ c ∈ company_id, isSegmentChar c = true) := by
  let call : ClientCall :=
    ⟨(AsyncHttpClientSession.run (.new info (BACKEND_PATH ++ company_id) (timeout_ms config))).1,none⟩
  refine ⟨call,by simp [callBackendApi,supported,call],?_⟩
  have sent : call.session.req = ⟨BACKEND_PATH ++ company_id,info.backend_host⟩ := rfl
  rw [sent]
  constructor
  · intro addresses
    obtain ⟨segment,target,legal,decodes,_⟩ := addresses.segment
    have same : company_id = segment := by simpa using target
    subst same
    exact isSegment_fixed legal decodes
  · intro plain
    exact addresses_plain user_agent info.backend_host plain

theorem target_addresses_iff_plain : ∃ call,
    (callBackendApi {} (some AsyncHttpClientSession.usBackend) (lit "A-1") empty).1.calls = [call] ∧
      Addresses (lit "Boost.Beast/347") call.session.req (lit "A-1") := by
  obtain ⟨call,calls,addresses⟩ := target_addresses_iff {} AsyncHttpClientSession.usBackend rfl (lit "A-1")
    (lit "Boost.Beast/347") empty
  exact ⟨call,calls,addresses.mpr (List.all_eq_true.mp (by decide))⟩

/-- The id that a client names with an escaped slash. -/
def slashed : Bytes := param (lit "id") (parseQuery (lit "id=a%2Fb&country_iso=US"))

theorem slashed_not_addressed : slashed = lit "a/b" ∧ ∃ call,
    (callBackendApi {} (some AsyncHttpClientSession.usBackend) slashed empty).1.calls = [call] ∧
      ¬ Addresses (lit "Boost.Beast/347") call.session.req slashed := by
  have decoded : slashed = lit "a/b" := by decide +kernel
  refine ⟨decoded,_,rfl,?_⟩
  rw [decoded]
  intro addresses
  obtain ⟨segment,target,legal,_⟩ := addresses.segment
  have same : lit "a/b" = segment := List.append_cancel_left target
  rw [← same] at legal
  revert legal
  decide

end ClientCalls
end Facade
