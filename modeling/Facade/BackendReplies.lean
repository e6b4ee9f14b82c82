import Facade.Backendify

/-!
Replies that cannot be read. `parseBackendResponse` sets `parse_success` before it
reads the members of the body, and its handlers of exceptions do not take it back.

`unreadable_reply_iff` says for which of these replies the client gets a 502 and
nothing is cached.
-/
namespace Facade.Backendify
open Strings Http

/-- The members that are read with `value`, by the content type. -/
def neededFields (content_type : Bytes) : List Bytes :=
  if content_type = lit "application/x-company-v1" then [lit "cn",lit "created_on"]
  else if content_type = lit "application/x-company-v2" then [lit "company_name",lit "tin"]
  else []

/-- The content type is that of one of the two versions. -/
def Versioned (res : Response) : Prop :=
  res.content_type.getD [] = lit "application/x-company-v1" ∨ res.content_type.getD [] = lit "application/x-company-v2"

/-- The JSON value of the body, none for an empty body or for a text that is not JSON. -/
def bodyJson (library : JsonLibrary) (res : Response) : Option Json :=
  if res.body = [] then none else library.parse res.body

/-- The body is not a JSON object, or a needed member is there and not a string. -/
def Unreadable (library : JsonLibrary) (res : Response) : Prop :=
  ∀ members, bodyJson library res = some (.object members) →
    ∃ key ∈ neededFields (res.content_type.getD []), CompanyInfo.stringValue key members = none

/-- The flag depends on the content type and on the body being JSON, not on what
    its members are. -/
theorem parse_success_iff (library : JsonLibrary) (res : Response) (id : Bytes) :
    (CompanyInfo.parseBackendResponse library res { id := id }).parse_success = true ↔
      Versioned res ∧ (bodyJson library res).isSome = true := by
  unfold CompanyInfo.parseBackendResponse bodyJson Versioned
  by_cases empty : res.body = []
  · simp [empty]
  · simp only [empty,if_false]
    cases library.parse res.body with
    | none => simp
    | some json =>
      by_cases one : res.content_type.getD [] = lit "application/x-company-v1"
      · simp [one,CompanyInfo.parseV1_version]
      · by_cases two : res.content_type.getD [] = lit "application/x-company-v2"
        · have other : lit "application/x-company-v2" ≠ lit "application/x-company-v1" := by decide +kernel
          simp [two,other,CompanyInfo.parseV2_version]
        · simp [one,two]

variable {cache : CacheInterface} {config : AppConfig} {library : JsonLibrary}

/-- The handler on a reply that did not parse. -/
theorem on_backend_complete_unparsed {call : BackendCall} {res : Response} {ec : Option ErrorCode} {m : Moment}
    {store : cache.Store} {breaker : CircuitBreaker} (arrived : failed ec = false) (found : res.result = 200)
    (unparsed : (CompanyInfo.parseBackendResponse library res { id := call.id }).parse_success = false) :
    on_backend_complete cache config library call res ec m store breaker =
      (.ok (reply call.beast_res_cb 502 (errorBody (lit "Bad Gateway - Upstream Response Parse Error"))),store,breaker) := by
  have nothing : buildBody library call.id res m = none := by
    have built := buildBody_isSome library call.id res m
    rw [unparsed,Option.isSome_eq_false_iff,Option.isNone_iff_eq_none] at built
    exact built
  unfold on_backend_complete
  simp [arrived,found,nothing]

/-- What is asked of a reply with status 200 that cannot be read: it does not count
    as parsed, the client gets a 502, and the cache and the breaker stay as they are. -/
def Refuses (cache : CacheInterface) (config : AppConfig) (library : JsonLibrary) (call : BackendCall) (res : Response)
    (ec : Option ErrorCode) (m : Moment) (store : cache.Store) (breaker : CircuitBreaker) : Prop :=
  (CompanyInfo.parseBackendResponse library res { id := call.id }).parse_success = false ∧
  on_backend_complete cache config library call res ec m store breaker =
    (.ok (reply call.beast_res_cb 502 (errorBody (lit "Bad Gateway - Upstream Response Parse Error"))),store,breaker)

/-- A reply with status 200 that cannot be read is refused exactly when its content
    type is neither of the two, or its body is not JSON at all. -/
theorem unreadable_reply_iff (cache : CacheInterface) (config : AppConfig) (library : JsonLibrary) (call : BackendCall)
    (res : Response) (ec : Option ErrorCode) (m : Moment) (store : cache.Store) (breaker : CircuitBreaker)
    (arrived : failed ec = false) (found : res.result = 200) :
    (Unreadable library res → Refuses cache config library call res ec m store breaker) ↔
      ¬ (Versioned res ∧ (bodyJson library res).isSome = true ∧ Unreadable library res) := by
  have flag := parse_success_iff library res call.id
  constructor
  · rintro refused ⟨versioned,json,unreadable⟩
    have unparsed := (refused unreadable).1
    rw [flag.mpr ⟨versioned,json⟩] at unparsed
    cases unparsed
  · intro readable unreadable
    have unparsed : (CompanyInfo.parseBackendResponse library res { id := call.id }).parse_success = false := by
      by_contra parsed
      obtain ⟨versioned,json⟩ := flag.mp (by simpa using parsed)
      exact readable ⟨versioned,json,unreadable⟩
    exact ⟨unparsed,on_backend_complete_unparsed arrived found unparsed⟩

/-- A V1 reply that is not JSON. -/
def garbledReply : Response :=
  { Response.empty with content_type := some (lit "application/x-company-v1"), body := lit "oops" }

/-- A V1 reply whose name is a number. -/
def numberedReply : Response :=
  { Response.empty with content_type := some (lit "application/x-company-v1"), body := lit "\x7b\"cn\":7\x7d" }

def numberedLibrary : JsonLibrary := .tabled [(numberedReply.body,[(lit "cn",.other)])]

def companyCall : BackendCall :=
  ⟨prepared companyRequest,cacheKey (lit "1") (lit "US"),lit "1",⟨lit "http://us:9001",lit "us",9001,false⟩⟩

theorem unreadable_reply_iff_garbled :
    Refuses .everlasting usConfig numberedLibrary companyCall garbledReply none epoch [] ⟨[]⟩ := by
  have nothing : bodyJson numberedLibrary garbledReply = none := by decide +kernel
  refine (unreadable_reply_iff .everlasting usConfig numberedLibrary companyCall garbledReply none epoch [] ⟨[]⟩ rfl
    rfl).mpr ?_ ?_
  · rintro ⟨-,json,-⟩
    rw [nothing] at json
    cases json
  · intro members parsed
    rw [nothing] at parsed
    cases parsed

/-- The number is not read, and yet the client gets a 200 and a company without a
    name is cached. -/
theorem numbered_reply_cached :
    Unreadable numberedLibrary numberedReply ∧ numberedReply.result = 200 ∧
    (CompanyInfo.parseBackendResponse numberedLibrary numberedReply { id := lit "1" }).parse_success = true ∧
    on_backend_complete .everlasting usConfig numberedLibrary companyCall numberedReply none epoch [] ⟨[]⟩ =
      (.ok (reply companyCall.beast_res_cb 200 (JsonText.render (CompanyInfo.companyJson (lit "1") [] true none))),
        [(companyCall.cache_key,JsonText.render (CompanyInfo.companyJson (lit "1") [] true none))],⟨[]⟩) := by
  refine ⟨?_,rfl,by decide +kernel,?_⟩
  · intro members parsed
    have read : bodyJson numberedLibrary numberedReply = some (.object [(lit "cn",.other)]) := by decide +kernel
    rw [read,Option.some.injEq,Json.object.injEq] at parsed
    subst parsed
    exact ⟨lit "cn",by decide +kernel,by decide +kernel⟩
  · have built : buildBody numberedLibrary companyCall.id numberedReply epoch =
        some (.ok (JsonText.render (CompanyInfo.companyJson (lit "1") [] true none))) := by decide +kernel
    have arrived : failed none = false := rfl
    have found : numberedReply.result = 200 := rfl
    unfold on_backend_complete
    simp only [arrived,found,built,Bool.false_eq_true,if_false,if_true]
    rfl

end Facade.Backendify
