import Facade.Http
import Facade.Json
import Facade.Timestamps

/-!
From a backend's reply to the client's JSON: `CompanyInfo` of
src/models/CompanyInfo.hpp, and `parseBackendResponse`, `constructV1Json` and
`constructV2Json` of src/core/Backendify.cpp. `parseBackendResponse` catches
every exception, so that what it assigned before one stays.
-/
namespace Facade
open Strings Http Timestamps

structure CompanyInfo where
  id : Bytes
  name : Bytes := []
  version : Int := -1
  parse_success : Bool := false
  created_on : Option Bytes := none
  closed_on : Option Bytes := none
  tin : Option Bytes := none
  dissolved_on : Option Bytes := none
deriving DecidableEq,Repr

namespace CompanyInfo

/-- `bodyJson.value(key, "")`, or nothing when it throws: the member is there
    and is not a string. -/
def stringValue (key : Bytes) (members : JsonObject) : Option Bytes :=
  match members.find key with
  | none => some []
  | some (.string text) => some text
  | some _ => none

/-- The member when it is there and a string. -/
def stringMember (key : Bytes) (members : JsonObject) : Option Bytes :=
  match members.find key with
  | some (.string text) => some text
  | _ => none

/-- The V1 branch of `parseBackendResponse`. -/
def parseV1 (bodyJson : Json) (info : CompanyInfo) : CompanyInfo :=
  let info := { info with version := 1, parse_success := true }
  match bodyJson with
  | .other => info
  | .object members =>
    match stringValue (lit "cn") members with
    | none => info
    | some name =>
      let info := { info with name := name }
      match stringValue (lit "created_on") members with
      | none => info
      | some created_on =>
        let info := { info with created_on := some created_on }
        match stringMember (lit "closed_on") members with
        | some closed_on => { info with closed_on := some closed_on }
        | none => info

/-- The V2 branch of `parseBackendResponse`. -/
def parseV2 (bodyJson : Json) (info : CompanyInfo) : CompanyInfo :=
  let info := { info with version := 2, parse_success := true }
  match bodyJson with
  | .other => info
  | .object members =>
    match stringValue (lit "company_name") members with
    | none => info
    | some name =>
      let info := { info with name := name }
      match stringValue (lit "tin") members with
      | none => info
      | some tin =>
        let info := { info with tin := some tin }
        match stringMember (lit "dissolved_on") members with
        | some dissolved_on => { info with dissolved_on := some dissolved_on }
        | none => info

def parseBackendResponse (library : JsonLibrary) (beast_response : Response) (info : CompanyInfo) : CompanyInfo :=
  let contentType := beast_response.content_type.getD []
  if beast_response.body = [] then info
  else
    match library.parse beast_response.body with
    | none => info
    | some bodyJson =>
      if contentType = lit "application/x-company-v1" then parseV1 bodyJson info
      else if contentType = lit "application/x-company-v2" then parseV2 bodyJson info
      else info

/-- `date && !date->empty()`. -/
def given (date : Option Bytes) : Option Bytes := date.filter (· ≠ [])

/-- The members that both versions start with. -/
def basicJson (info : CompanyInfo) : JsonObject :=
  OrderedMap.assign (lit "active") (.boolean true) <|
  OrderedMap.assign (lit "name") (.string info.name) <|
  OrderedMap.assign (lit "id") (.string info.id) []

/-- The end of both versions: the closing date is reported, and a company is
    inactive once it is not in the future. -/
def closeJson (future : Bytes → Except Bytes Bool) (closing : Option Bytes) (o : JsonObject) :
    Except Bytes JsonObject :=
  match given closing with
  | none => .ok o
  | some date => do
    if ← future date then .ok (o.assign (lit "active_until") (.string date))
    else .ok ((o.assign (lit "active") (.boolean false)).assign (lit "active_until") (.string date))

/-- `constructV1Json`, at `now`; `suffix` gives the byte that each call of
    `isUTCTimeInFuture` finds uninitialised. -/
def constructV1Json (suffix : Nat → UInt8) (now : Int) (info : CompanyInfo) : Except Bytes JsonObject := do
  let o ← match given info.created_on with
    | none => .ok info.basicJson
    | some date => do
      if ← isUTCTimeInFuture (suffix 0) now date then
        .ok (info.basicJson.assign (lit "active") (.boolean false))
      else .ok info.basicJson
  closeJson (isUTCTimeInFuture (suffix 1) now) info.closed_on o

def constructV2Json (suffix : Nat → UInt8) (now : Int) (info : CompanyInfo) : Except Bytes JsonObject :=
  closeJson (isUTCTimeInFuture (suffix 0) now) info.dissolved_on info.basicJson

/-- The choice between the two in the completion handler; nothing is constructed
    for another version. -/
def constructJson (suffix : Nat → UInt8) (now : Int) (info : CompanyInfo) : Except Bytes JsonObject :=
  if info.version = 1 then constructV1Json suffix now info
  else if info.version = 2 then constructV2Json suffix now info
  else .ok []

/-! ### What is constructed -/

/-- The JSON object of a company, its members in the order of their keys. -/
def companyJson (id name : Bytes) (active : Bool) (active_until : Option Bytes) : JsonObject :=
  (lit "active",.boolean active) :: (active_until.map fun date => (lit "active_until",JsonValue.string date)).toList ++
    [(lit "id",.string id),(lit "name",.string name)]

/-- The date since which a V1 company exists. -/
def creation (info : CompanyInfo) : Option Bytes := if info.version = 1 then given info.created_on else none

/-- The date until which a company exists. -/
def closing (info : CompanyInfo) : Option Bytes :=
  if info.version = 1 then given info.closed_on else given info.dissolved_on

/-- Which call of `isUTCTimeInFuture` is made for the closing date. -/
def closingCall (info : CompanyInfo) : Nat := if info.version = 1 then 1 else 0

/-- A date is checked when there is one. -/
def check (suffix : UInt8) (now : Int) : Option Bytes → Except Bytes (Option Bool)
  | none => .ok none
  | some date => (isUTCTimeInFuture suffix now date).map some

theorem basicJson_eq (info : CompanyInfo) : info.basicJson = companyJson info.id info.name true none := rfl

theorem assign_active (id name : Bytes) (active active' : Bool) (active_until : Option Bytes) :
    OrderedMap.assign (lit "active") (.boolean active') (companyJson id name active active_until) =
      companyJson id name active' active_until := rfl

theorem assign_active_until (id name : Bytes) (active : Bool) (date : Bytes) :
    OrderedMap.assign (lit "active_until") (.string date) (companyJson id name active none) =
      companyJson id name active (some date) := rfl

theorem closeJson_eq (suffix : UInt8) (now : Int) (date : Option Bytes) (id name : Bytes) (active : Bool) :
    closeJson (isUTCTimeInFuture suffix now) date (companyJson id name active none) =
      (check suffix now (given date)).map fun future =>
        companyJson id name (active && future.getD true) (given date) := by
  unfold closeJson
  cases given date with
  | none => simp [check,Except.map]
  | some d =>
    simp only [check]
    cases isUTCTimeInFuture suffix now d with
    | error message => rfl
    | ok future =>
      cases future
      · simp only [Bind.bind,Except.bind,Except.map,Bool.false_eq_true,↓reduceIte,assign_active,
          assign_active_until,Option.getD_some,Bool.and_false]
      · simp only [Bind.bind,Except.bind,Except.map,↓reduceIte,assign_active_until,Option.getD_some,Bool.and_true]

/-- The creation date is checked, then the closing date; the company is active
    unless the first is in the future or the second is not. -/
theorem constructJson_eq (suffix : Nat → UInt8) (now : Int) {info : CompanyInfo}
    (version : info.version = 1 ∨ info.version = 2) :
    constructJson suffix now info =
      (check (suffix 0) now info.creation).bind fun unborn =>
        (check (suffix info.closingCall) now info.closing).map fun future =>
          companyJson info.id info.name (!unborn.getD false && future.getD true) info.closing := by
  rcases version with one | two
  · simp only [constructJson,one,↓reduceIte,constructV1Json,creation,closing,closingCall,basicJson_eq]
    cases given info.created_on with
    | none =>
      simp only [check,Bind.bind,Except.bind,closeJson_eq]
      rfl
    | some created =>
      simp only [check]
      cases isUTCTimeInFuture (suffix 0) now created with
      | error message => rfl
      | ok unborn =>
        cases unborn
        · simp only [Bind.bind,Except.bind,Except.map,Bool.false_eq_true,↓reduceIte,closeJson_eq]
          rfl
        · simp only [Bind.bind,Except.bind,Except.map,↓reduceIte,assign_active,closeJson_eq]
          rfl
  · have other : ¬ (2 : Int) = 1 := by decide
    simp only [constructJson,two,other,↓reduceIte,constructV2Json,creation,closing,closingCall,basicJson_eq,
      check,Except.bind,closeJson_eq]
    rfl

/-- The dates of a company are accepted by `isUTCTimeInFuture`. -/
def DatesAccepted (suffix : Nat → UInt8) (now : Int) (info : CompanyInfo) : Prop :=
  (∀ date, info.creation = some date → (isUTCTimeInFuture (suffix 0) now date).toOption.isSome = true) ∧
  (∀ date, info.closing = some date →
    (isUTCTimeInFuture (suffix info.closingCall) now date).toOption.isSome = true)

theorem check_isSome_iff (suffix : UInt8) (now : Int) (date : Option Bytes) :
    (check suffix now date).toOption.isSome = true ↔
      ∀ d, date = some d → (isUTCTimeInFuture suffix now d).toOption.isSome = true := by
  cases date with
  | none => simp [check,Except.toOption]
  | some d =>
    simp only [check,Option.some.injEq,forall_eq']
    cases isUTCTimeInFuture suffix now d <;> simp [Except.map,Except.toOption]

/-- Construction throws exactly on a date that is not accepted. -/
theorem constructJson_isSome_iff (suffix : Nat → UInt8) (now : Int) {info : CompanyInfo}
    (version : info.version = 1 ∨ info.version = 2) :
    (constructJson suffix now info).toOption.isSome = true ↔ DatesAccepted suffix now info := by
  rw [constructJson_eq suffix now version,DatesAccepted,← check_isSome_iff,← check_isSome_iff]
  cases check (suffix 0) now info.creation with
  | error message => simp [Except.bind,Except.toOption]
  | ok unborn =>
    cases check (suffix info.closingCall) now info.closing with
    | error message => simp [Except.bind,Except.map,Except.toOption]
    | ok future => simp [Except.bind,Except.map,Except.toOption]

/-- What is constructed is a company object with the id and the name. -/
theorem constructJson_shape {suffix : Nat → UInt8} {now : Int} {info : CompanyInfo} {o : JsonObject}
    (version : info.version = 1 ∨ info.version = 2) (constructed : constructJson suffix now info = .ok o) :
    ∃ active, o = companyJson info.id info.name active info.closing := by
  rw [constructJson_eq suffix now version] at constructed
  cases first : check (suffix 0) now info.creation with
  | error message => simp [first,Except.bind] at constructed
  | ok unborn =>
    cases second : check (suffix info.closingCall) now info.closing with
    | error message => simp [first,second,Except.bind,Except.map] at constructed
    | ok future =>
      simp only [first,second,Except.bind,Except.map,Except.ok.injEq] at constructed
      exact ⟨_,constructed.symm⟩

theorem companyJson_plain (id name : Bytes) (active : Bool) (date : Option Bytes) :
    JsonObject.plain (companyJson id name active date) = true := by
  cases date <;> rfl

theorem companyJson_valid (id name : Bytes) (active : Bool) (date : Option Bytes) :
    JsonObject.valid (companyJson id name active date) = true ↔
      utf8Valid id = true ∧ utf8Valid name = true ∧ ∀ d, date = some d → utf8Valid d = true := by
  have keys : utf8Valid (lit "active") = true ∧ utf8Valid (lit "active_until") = true ∧
      utf8Valid (lit "id") = true ∧ utf8Valid (lit "name") = true := by decide +kernel
  cases date with
  | none => simp [companyJson,JsonObject.valid,JsonValue.valid,keys]
  | some d =>
    simp only [companyJson,JsonObject.valid,JsonValue.valid,keys,Option.map_some,Option.toList_some,
      List.cons_append,List.nil_append,List.all_cons,List.all_nil,Bool.and_true,Bool.true_and,Bool.and_eq_true,
      Option.some.injEq,forall_eq']
    constructor
    · rintro ⟨date,id,name⟩
      exact ⟨id,name,date⟩
    · rintro ⟨id,name,date⟩
      exact ⟨date,id,name⟩

/-! ### What is parsed -/

/-- The strings taken from a reply are UTF-8. -/
structure Clean (info : CompanyInfo) : Prop where
  name : utf8Valid info.name = true
  created_on : ∀ date, info.created_on = some date → utf8Valid date = true
  closed_on : ∀ date, info.closed_on = some date → utf8Valid date = true
  dissolved_on : ∀ date, info.dissolved_on = some date → utf8Valid date = true

theorem find_valid {members : JsonObject} (valid : members.valid = true) {key text : Bytes}
    (found : members.find key = some (.string text)) : utf8Valid text = true := by
  have member := OrderedMap.mem_of_find found
  simp only [JsonObject.valid,List.all_eq_true,Bool.and_eq_true] at valid
  exact (valid _ member).2

theorem stringValue_valid {members : JsonObject} (valid : members.valid = true) {key text : Bytes}
    (found : stringValue key members = some text) : utf8Valid text = true := by
  unfold stringValue at found
  split at found
  · simp only [Option.some.injEq] at found
    subst found
    rfl
  · rename_i inner looked
    simp only [Option.some.injEq] at found
    subst found
    exact find_valid valid looked
  · cases found

theorem stringMember_valid {members : JsonObject} (valid : members.valid = true) {key text : Bytes}
    (found : stringMember key members = some text) : utf8Valid text = true := by
  unfold stringMember at found
  split at found
  · rename_i inner looked
    simp only [Option.some.injEq] at found
    subst found
    exact find_valid valid looked
  · cases found

theorem clean_parseV1 {bodyJson : Json} (valid : ∀ members, bodyJson = .object members → members.valid = true)
    (id : Bytes) : (parseV1 bodyJson { id := id }).Clean := by
  unfold parseV1
  cases bodyJson with
  | other => exact ⟨rfl,by simp,by simp,by simp⟩
  | object members =>
    have utf8 := valid members rfl
    simp only
    split
    · exact ⟨rfl,by simp,by simp,by simp⟩
    · rename_i name named
      have nameValid := stringValue_valid utf8 named
      split
      · exact ⟨nameValid,by simp,by simp,by simp⟩
      · rename_i created dated
        have createdValid := stringValue_valid utf8 dated
        split
        · rename_i closed ended
          have closedValid := stringMember_valid utf8 ended
          exact ⟨nameValid,by simpa using createdValid,by simpa using closedValid,by simp⟩
        · exact ⟨nameValid,by simpa using createdValid,by simp,by simp⟩

theorem clean_parseV2 {bodyJson : Json} (valid : ∀ members, bodyJson = .object members → members.valid = true)
    (id : Bytes) : (parseV2 bodyJson { id := id }).Clean := by
  unfold parseV2
  cases bodyJson with
  | other => exact ⟨rfl,by simp,by simp,by simp⟩
  | object members =>
    have utf8 := valid members rfl
    simp only
    split
    · exact ⟨rfl,by simp,by simp,by simp⟩
    · rename_i name named
      have nameValid := stringValue_valid utf8 named
      split
      · exact ⟨nameValid,by simp,by simp,by simp⟩
      · split
        · rename_i dissolved ended
          have dissolvedValid := stringMember_valid utf8 ended
          exact ⟨nameValid,by simp,by simp,by simpa using dissolvedValid⟩
        · exact ⟨nameValid,by simp,by simp,by simp⟩

/-- Both branches keep the id and set the version with `parse_success`, whatever they
    read then. -/
theorem parseV1_version (bodyJson : Json) (info : CompanyInfo) :
    (parseV1 bodyJson info).id = info.id ∧ (parseV1 bodyJson info).version = 1 ∧
      (parseV1 bodyJson info).parse_success = true := by
  unfold parseV1
  cases bodyJson with
  | other => exact ⟨rfl,rfl,rfl⟩
  | object members =>
    simp only
    split
    · exact ⟨rfl,rfl,rfl⟩
    · split
      · exact ⟨rfl,rfl,rfl⟩
      · split <;> exact ⟨rfl,rfl,rfl⟩

theorem parseV2_version (bodyJson : Json) (info : CompanyInfo) :
    (parseV2 bodyJson info).id = info.id ∧ (parseV2 bodyJson info).version = 2 ∧
      (parseV2 bodyJson info).parse_success = true := by
  unfold parseV2
  cases bodyJson with
  | other => exact ⟨rfl,rfl,rfl⟩
  | object members =>
    simp only
    split
    · exact ⟨rfl,rfl,rfl⟩
    · split
      · exact ⟨rfl,rfl,rfl⟩
      · split <;> exact ⟨rfl,rfl,rfl⟩

/-- A reply that parses leaves the id, sets the version to 1 or 2 and gives
    UTF-8 strings. -/
theorem parseBackendResponse_spec (library : JsonLibrary) (res : Response) (id : Bytes) :
    (parseBackendResponse library res { id := id }).id = id ∧
      (parseBackendResponse library res { id := id }).Clean ∧
      ((parseBackendResponse library res { id := id }).parse_success = true →
        (parseBackendResponse library res { id := id }).version = 1 ∨
        (parseBackendResponse library res { id := id }).version = 2) := by
  have untouched : Clean { id := id } := ⟨rfl,by simp,by simp,by simp⟩
  unfold parseBackendResponse
  simp only
  split
  · exact ⟨rfl,untouched,by simp⟩
  · split
    · exact ⟨rfl,untouched,by simp⟩
    · rename_i bodyJson parsed
      have valid : ∀ members, bodyJson = .object members → JsonObject.valid members = true := by
        rintro members rfl
        exact library.parse_valid _ _ parsed
      split
      · obtain ⟨sameId,version,-⟩ := parseV1_version bodyJson { id := id }
        exact ⟨sameId,clean_parseV1 valid id,fun _ => .inl version⟩
      · split
        · obtain ⟨sameId,version,-⟩ := parseV2_version bodyJson { id := id }
          exact ⟨sameId,clean_parseV2 valid id,fun _ => .inr version⟩
        · exact ⟨rfl,untouched,by simp⟩

/-- The closing date of clean info is UTF-8. -/
theorem Clean.closing {info : CompanyInfo} (clean : info.Clean) {date : Bytes} (found : info.closing = some date) :
    utf8Valid date = true := by
  unfold CompanyInfo.closing given at found
  split at found
  · exact clean.closed_on date (Option.filter_eq_some_iff.mp found).1
  · exact clean.dissolved_on date (Option.filter_eq_some_iff.mp found).1

end CompanyInfo
end Facade
