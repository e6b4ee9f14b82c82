import Facade.BackendReplies

/-!
One contract for two formats. A V1 and a V2 body name their members differently,
but both say a name, a closing date and, in V1, a date of creation (`Facts`). A date
names an instant (`instantOf`), which is in the future when it is later than the clock;
the program compares whole seconds, as nanoseconds in 64 bits.

`company_contract_iff` says which object is made of these, when its flag is right, and
when two bodies that say the same are answered alike.
-/
namespace Facade.Timestamps
open Strings Streams Calendar

/-! ### The instant that a date names -/

/-- An instant of time: whole seconds since the epoch, and the digits of the fraction of
    a second. -/
structure Instant where
  seconds : Int
  fraction : Bytes
deriving DecidableEq,Repr

namespace Instant

/-- The instant, fraction included, is later than `now`, in nanoseconds since the epoch:
    both sides are multiplied by the denominator of the fraction. -/
def After (t : Instant) (now : Int) : Prop :=
  now * 10 ^ t.fraction.length < (t.seconds * 10 ^ t.fraction.length + IStream.decimal t.fraction) * 1000000000

instance (t : Instant) (now : Int) : Decidable (t.After now) := inferInstanceAs (Decidable (_ < _))

/-- Nanoseconds since the epoch, at whole seconds. -/
def nanoseconds (t : Instant) : Int := t.seconds * 1000000000

/-- The 64 bits of the clock and the fraction that is dropped do not change how the instant
    compares with `now`: it fits and its fraction is not running, or what is left of it
    modulo 2^64 is on the same side of `now`. -/
def Comparable (t : Instant) (now : Int) : Prop :=
  (-2 ^ 63 ≤ t.nanoseconds ∧ t.nanoseconds < 2 ^ 63 ∧ ¬ (t.nanoseconds ≤ now ∧ t.After now)) ∨
  (2 ^ 63 ≤ t.nanoseconds ∧ now < t.nanoseconds.bmod (2 ^ 64)) ∨
  (t.nanoseconds < -2 ^ 63 ∧ (now < t.nanoseconds.bmod (2 ^ 64) ↔ t.After now))

instance (t : Instant) (now : Int) : Decidable (t.Comparable now) := inferInstanceAs (Decidable (_ ∨ _))

theorem comparable_iff (t : Instant) (now : Int64) :
    (from_time_t t.seconds > now.toInt ↔ t.After now.toInt) ↔ t.Comparable now.toInt := by
  have high : now.toInt < 2 ^ 63 := now.toInt_lt
  have wrapped : from_time_t t.seconds = t.nanoseconds.bmod (2 ^ 64) := rfl
  have later : t.nanoseconds > now.toInt → t.After now.toInt := fun later => later_of_seconds later t.fraction
  by_cases above : 2 ^ 63 ≤ t.nanoseconds
  · -- later than any time the clock can show
    have after : t.After now.toInt := later (by omega)
    have notBelow : ¬ t.nanoseconds < -2 ^ 63 := by omega
    have notInside : ¬ t.nanoseconds < 2 ^ 63 := by omega
    simp only [Comparable,wrapped,after,above,notBelow,notInside,gt_iff_lt,iff_true,true_and,false_and,and_false,
      false_or,or_false]
  · by_cases below : t.nanoseconds < -2 ^ 63
    · have notInside : ¬ -2 ^ 63 ≤ t.nanoseconds := by omega
      simp only [Comparable,wrapped,above,below,notInside,gt_iff_lt,true_and,false_and,false_or]
    · have inside : -2 ^ 63 ≤ t.nanoseconds ∧ t.nanoseconds < 2 ^ 63 := by omega
      have exactly : from_time_t t.seconds = t.nanoseconds := from_time_t_eq inside.1 inside.2
      simp only [Comparable,exactly,inside,above,below,false_and,or_false,true_and,not_and]
      constructor
      · intro same early after
        exact absurd (same.mpr after) (by omega)
      · intro whole
        refine ⟨later,fun after => ?_⟩
        by_contra early
        exact whole (by omega) after

end Instant

/-- The digits after the point. -/
def fractionOf : Bytes → Bytes
  | 46 :: rest => rest.takeWhile isDigit
  | _ => []

/-- The instant of the fields that are read. What the calendar does not have is carried
    over: the thirtieth of February is in March. -/
def instantOf (s : Bytes) : Instant := ⟨timegm (broken s).1,fractionOf (broken s).2.rest⟩

/-- A timestamp names its own instant. -/
theorem instantOf_text (st : Stamp) : instantOf st.text = ⟨st.seconds,st.fraction⟩ := by
  have digits : fractionOf st.ending = st.fraction := by
    unfold Stamp.ending
    split
    · rename_i none_given
      rw [none_given]
      rfl
    · have stops : (st.fraction ++ [90]).takeWhile isDigit = st.fraction := by
        rw [List.takeWhile_append_of_pos st.digits]
        simp [show isDigit 90 = false by decide]
      exact stops
  rw [instantOf,broken_text,Stamp.timegm_tm]
  simp only [digits]

theorem after_text (st : Stamp) (now : Int) : (instantOf st.text).After now ↔ st.After now := by
  rw [instantOf_text]
  rfl

/-- A text that is accepted is compared by the seconds of its instant. -/
theorem ok_iff_after {suffix : UInt8} {now : Int} {s : Bytes} {future : Bool}
    (answered : isUTCTimeInFuture suffix now s = .ok future) :
    future = true ↔ from_time_t (instantOf s).seconds > now := by
  obtain ⟨-,-,-,rfl⟩ := (isUTCTimeInFuture_ok_iff suffix now s future).mp answered
  exact decide_eq_true_iff

end Facade.Timestamps

namespace Facade.CompanyInfo
open Strings Http Timestamps

/-! ### What a body says -/

/-- What a body says of a company; a date that is empty is not given. -/
structure Facts where
  name : Bytes
  created : Option Bytes
  closing : Option Bytes
deriving DecidableEq,Repr

def factsV1 (members : JsonObject) : Facts where
  name := (stringMember (lit "cn") members).getD []
  created := given (stringMember (lit "created_on") members)
  closing := given (stringMember (lit "closed_on") members)

/-- A V2 body has no date of creation. -/
def factsV2 (members : JsonObject) : Facts where
  name := (stringMember (lit "company_name") members).getD []
  created := none
  closing := given (stringMember (lit "dissolved_on") members)

/-- The member is absent or a string. -/
def Textual (key : Bytes) (members : JsonObject) : Prop :=
  ∀ value, members.find key = some value → ∃ text, value = .string text

/-- The reply is of one of the two versions, its body is an object whose needed
    members are strings or absent, and this is what it says. -/
inductive Tells (library : JsonLibrary) (res : Response) : Facts → Prop
  | v1 {members : JsonObject} : res.content_type = some (lit "application/x-company-v1") →
      Backendify.bodyJson library res = some (.object members) → Textual (lit "cn") members →
      Textual (lit "created_on") members → Tells library res (factsV1 members)
  | v2 {members : JsonObject} : res.content_type = some (lit "application/x-company-v2") →
      Backendify.bodyJson library res = some (.object members) → Textual (lit "company_name") members →
      Textual (lit "tin") members → Tells library res (factsV2 members)

/-- The closing date, if there is one, is in the future. -/
def Open (now : Int) (facts : Facts) : Prop := ∀ date, facts.closing = some date → (instantOf date).After now

/-- There is a date of creation and it is in the future. -/
def Unborn (now : Int) (facts : Facts) : Prop := ∃ date, facts.created = some date ∧ (instantOf date).After now

/-- The company exists already and has not been closed. -/
def Active (now : Int) (facts : Facts) : Prop := Open now facts ∧ ¬ Unborn now facts

/-- A date, if there is one, compares rightly with the clock. -/
def Rightly (now : Int) (date : Option Bytes) : Prop := ∀ d, date = some d → (instantOf d).Comparable now

/-- Both dates compare rightly, or one that does settles the flag, or both do not and the
    errors cancel out. -/
def Judged (now : Int) (facts : Facts) : Prop :=
  (Rightly now facts.closing ∧ Rightly now facts.created) ∨
  (Rightly now facts.closing ∧ ¬ Open now facts) ∨
  (Rightly now facts.created ∧ Unborn now facts) ∨
  (¬ Rightly now facts.closing ∧ ¬ Rightly now facts.created ∧ (Open now facts ↔ Unborn now facts))

/-- The closing date is past and compares rightly, or it is in the future and does not. -/
def TakenForPast (now : Int) (facts : Facts) : Prop := ¬ (Open now facts ↔ Rightly now facts.closing)

theorem stringValue_textual {key : Bytes} {members : JsonObject} (textual : Textual key members) :
    stringValue key members = some ((stringMember key members).getD []) := by
  unfold stringValue stringMember
  cases found : members.find key with
  | none => rfl
  | some value =>
    obtain ⟨text,rfl⟩ := textual value found
    rfl

theorem given_getD (date : Option Bytes) : given (some (date.getD [])) = given date := by
  cases date with
  | none => rfl
  | some text => rfl

theorem given_none : given none = none := rfl

/-- What the parsed reply holds. -/
theorem Tells.info {library : JsonLibrary} {res : Response} {facts : Facts} (tells : Tells library res facts) (id : Bytes) :
    (parseBackendResponse library res { id := id }).id = id ∧
    ((parseBackendResponse library res { id := id }).version = 1 ∨
      (parseBackendResponse library res { id := id }).version = 2) ∧
    (parseBackendResponse library res { id := id }).name = facts.name ∧
    (parseBackendResponse library res { id := id }).creation = facts.created ∧
    (parseBackendResponse library res { id := id }).closing = facts.closing := by
  have parses : ∀ {members}, Backendify.bodyJson library res = some (.object members) →
      res.body ≠ [] ∧ library.parse res.body = some (.object members) := by
    intro members json
    unfold Backendify.bodyJson at json
    split at json
    · cases json
    · rename_i some_body
      exact ⟨some_body,json⟩
  cases tells with
  | @v1 members kind json name created =>
    obtain ⟨some_body,parsed⟩ := parses json
    have read : parseBackendResponse library res { id := id } = parseV1 (.object members) { id := id } := by
      simp [parseBackendResponse,some_body,parsed,kind]
    rw [read]
    simp only [parseV1,stringValue_textual name,stringValue_textual created]
    cases closed : stringMember (lit "closed_on") members with
    | none => simp [creation,closing,factsV1,given_getD,closed,given_none]
    | some date => simp [creation,closing,factsV1,given_getD,closed]
  | @v2 members kind json name tin =>
    obtain ⟨some_body,parsed⟩ := parses json
    have other : lit "application/x-company-v2" ≠ lit "application/x-company-v1" := by decide +kernel
    have read : parseBackendResponse library res { id := id } = parseV2 (.object members) { id := id } := by
      simp [parseBackendResponse,some_body,parsed,kind,other]
    rw [read]
    simp only [parseV2,stringValue_textual name,stringValue_textual tin]
    cases dissolved : stringMember (lit "dissolved_on") members with
    | none => simp [creation,closing,factsV2,dissolved,given_none]
    | some date => simp [creation,closing,factsV2,dissolved]

/-! ### The flag -/

/-- A check that is passed compares the seconds of the date, if there is one. -/
theorem check_later {suffix : UInt8} {now : Int} {date : Option Bytes} {future : Option Bool}
    (checked : check suffix now date = .ok future) :
    (future.getD true = true ↔ ∀ d, date = some d → from_time_t (instantOf d).seconds > now) ∧
    (future.getD false = true ↔ ∃ d, date = some d ∧ from_time_t (instantOf d).seconds > now) := by
  cases date with
  | none =>
    cases checked
    simp
  | some d =>
    simp only [check] at checked
    cases answered : isUTCTimeInFuture suffix now d with
    | error what => simp [answered,Except.map] at checked
    | ok later =>
      simp only [answered,Except.map,Except.ok.injEq] at checked
      subst checked
      simp [ok_iff_after answered]

/-- The comparison that is made of a date is right if it compares rightly, and not otherwise. -/
theorem rightly_iff (now : Int64) (date : Option Bytes) :
    (((∀ d, date = some d → from_time_t (instantOf d).seconds > now.toInt) ↔
      ∀ d, date = some d → (instantOf d).After now.toInt) ↔ Rightly now.toInt date) ∧
    (((∃ d, date = some d ∧ from_time_t (instantOf d).seconds > now.toInt) ↔
      ∃ d, date = some d ∧ (instantOf d).After now.toInt) ↔ Rightly now.toInt date) := by
  unfold Rightly
  cases date with
  | none => simp
  | some d =>
    have compared := (instantOf d).comparable_iff now
    simpa only [Option.some.injEq,forall_eq',exists_eq_left'] using And.intro compared compared

/-- What the comparison answers, by what is so and whether the comparison is right. -/
theorem comparison_swap {answer so right : Prop} (judged : (answer ↔ so) ↔ right) : answer ↔ (so ↔ right) := by
  by_cases holds : so
  · simpa [holds] using judged
  · by_cases answered : answer
    · simpa [holds,answered] using judged
    · simpa [holds,answered] using judged

/-- Two comparisons that make a flag, against the flag that is meant. -/
theorem flag_right_iff (stillOpen unborn closingRight createdRight : Prop) :
    (((stillOpen ↔ closingRight) ∧ ¬ (unborn ↔ createdRight)) ↔ stillOpen ∧ ¬ unborn) ↔
      (closingRight ∧ createdRight) ∨ (closingRight ∧ ¬ stillOpen) ∨ (createdRight ∧ unborn) ∨
        (¬ closingRight ∧ ¬ createdRight ∧ (stillOpen ↔ unborn)) := by
  by_cases closing : closingRight
  · by_cases created : createdRight
    · simp [closing,created]
    · by_cases still : stillOpen
      · simp [closing,created,still]
      · simp [closing,created,still]
  · by_cases created : createdRight
    · by_cases gone : unborn
      · simp [closing,created,gone]
      · by_cases still : stillOpen
        · simp [closing,created,gone,still]
        · simp [closing,created,gone,still]
    · by_cases still : stillOpen
      · simp [closing,created,still]
      · by_cases gone : unborn
        · simp [closing,created,gone,still]
        · simp [closing,created,gone,still]

/-- The object made of what a body says. -/
theorem Tells.object {library : JsonLibrary} {res : Response} {facts : Facts} (tells : Tells library res facts) (id : Bytes)
    {suffix : Nat → UInt8} {now : Int64}
    (accepted : DatesAccepted suffix now.toInt (parseBackendResponse library res { id := id })) :
    ∃ active, constructJson suffix now.toInt (parseBackendResponse library res { id := id }) =
      .ok (companyJson id facts.name active facts.closing) ∧
      (active = true ↔ (Open now.toInt facts ↔ Rightly now.toInt facts.closing) ∧
        ¬ (Unborn now.toInt facts ↔ Rightly now.toInt facts.created)) := by
  obtain ⟨sameId,version,name,created,closing⟩ := tells.info id
  generalize parseBackendResponse library res { id := id } = info at *
  unfold DatesAccepted at accepted
  rw [← check_isSome_iff,← check_isSome_iff] at accepted
  have object := constructJson_eq suffix now.toInt version
  rw [created,closing,name,sameId] at object
  rw [created,closing] at accepted
  cases first : check (suffix 0) now.toInt facts.created with
  | error what => simp [first,Except.toOption] at accepted
  | ok unborn =>
    cases second : check (suffix info.closingCall) now.toInt facts.closing with
    | error what => simp [second,Except.toOption] at accepted
    | ok future =>
      simp only [first,second,Except.bind,Except.map] at object
      refine ⟨_,object,?_⟩
      have unborn_read := comparison_swap ((rightly_iff now facts.created).2)
      have open_read := comparison_swap ((rightly_iff now facts.closing).1)
      rw [← (check_later first).2] at unborn_read
      rw [← (check_later second).1] at open_read
      rw [Bool.and_eq_true,Bool.not_eq_true',← Bool.not_eq_true,unborn_read,open_read]
      exact and_comm

theorem companyJson_active {id name : Bytes} {active active' : Bool} {active_until : Option Bytes}
    (same : companyJson id name active active_until = companyJson id name active' active_until) : active = active' := by
  simpa [companyJson] using same

/-- A readable body of either version is answered with an object that has the id, the
    name, the flag and, when it is given, the closing date; and the company is active
    unless it is closed or not yet created, if and only if the dates are judged rightly.
    Bodies that say the same name and closing date of companies that exist already are
    answered alike if and only if the closing date is taken for past, or the dates of
    creation compare both rightly or both wrongly. -/
theorem company_contract_iff (library : JsonLibrary) (id : Bytes) (now : Int64) :
    (∀ res facts suffix, Tells library res facts →
      DatesAccepted suffix now.toInt (parseBackendResponse library res { id := id }) →
      ((∃ active, constructJson suffix now.toInt (parseBackendResponse library res { id := id }) =
        .ok (companyJson id facts.name active facts.closing) ∧ (active = true ↔ Active now.toInt facts)) ↔
        Judged now.toInt facts)) ∧
    (∀ res res' facts facts' suffix suffix', Tells library res facts → Tells library res' facts' →
      DatesAccepted suffix now.toInt (parseBackendResponse library res { id := id }) →
      DatesAccepted suffix' now.toInt (parseBackendResponse library res' { id := id }) →
      facts.name = facts'.name → facts.closing = facts'.closing → ¬ Unborn now.toInt facts → ¬ Unborn now.toInt facts' →
      (constructJson suffix now.toInt (parseBackendResponse library res { id := id }) =
        constructJson suffix' now.toInt (parseBackendResponse library res' { id := id }) ↔
        TakenForPast now.toInt facts ∨ (Rightly now.toInt facts.created ↔ Rightly now.toInt facts'.created))) := by
  constructor
  · intro res facts suffix tells accepted
    obtain ⟨active,object,flag⟩ := tells.object id accepted
    have told : (∃ active, constructJson suffix now.toInt (parseBackendResponse library res { id := id }) =
        .ok (companyJson id facts.name active facts.closing) ∧ (active = true ↔ Active now.toInt facts)) ↔
        (active = true ↔ Active now.toInt facts) := by
      constructor
      · rintro ⟨active',object',flag'⟩
        rw [object,Except.ok.injEq] at object'
        rwa [companyJson_active object']
      · exact fun right => ⟨active,object,right⟩
    rw [told,flag]
    exact flag_right_iff _ _ _ _
  · intro res res' facts facts' suffix suffix' tells tells' accepted accepted' names closings created created'
    obtain ⟨active,object,flag⟩ := tells.object id accepted
    obtain ⟨active',object',flag'⟩ := tells'.object id accepted'
    have both_open : Open now.toInt facts ↔ Open now.toInt facts' := by rw [Open,Open,closings]
    have alike : constructJson suffix now.toInt (parseBackendResponse library res { id := id }) =
        constructJson suffix' now.toInt (parseBackendResponse library res' { id := id }) ↔
        (active = true ↔ active' = true) := by
      rw [object,object',names,closings,Except.ok.injEq,← Bool.eq_iff_iff]
      exact ⟨companyJson_active,fun same => by rw [same]⟩
    rw [alike,flag,flag',TakenForPast,closings,both_open]
    simp only [created,created',false_iff,not_not]
    exact and_congr_right_iff.trans (by rw [← imp_iff_not_or])

/-- A company that ends with the calendar, whatever its date of closing is taken for. -/
def farReply : Response :=
  { Response.empty with
    content_type := some (lit "application/x-company-v2")
    body := lit "\x7b\"company_name\":\"A\",\"dissolved_on\":\"9999-12-31T23:59:59Z\"\x7d" }

def farMembers : JsonObject := [(lit "company_name",.string (lit "A")),(lit "dissolved_on",.string endOfCalendar.text)]

def farLibrary : JsonLibrary := .tabled [(farReply.body,farMembers)]

theorem textual_of_find {key : Bytes} {members : JsonObject}
    (text : members.find key = none ∨ ∃ content, members.find key = some (.string content)) : Textual key members := by
  rcases text with missing | ⟨content,there⟩
  · intro value found
    rw [missing] at found
    cases found
  · intro value found
    rw [there,Option.some.injEq] at found
    exact ⟨content,found.symm⟩

/-- In 2023 such a company is active, and the object says that it is not. -/
theorem far_closing_inactive :
    Tells farLibrary farReply (factsV2 farMembers) ∧
    DatesAccepted (fun _ => 0) (1700000000000000000 : Int64).toInt
      (parseBackendResponse farLibrary farReply { id := lit "1" }) ∧
    Active (1700000000000000000 : Int64).toInt (factsV2 farMembers) ∧
    constructJson (fun _ => 0) (1700000000000000000 : Int64).toInt
      (parseBackendResponse farLibrary farReply { id := lit "1" }) =
        .ok (companyJson (lit "1") (lit "A") false (some endOfCalendar.text)) := by
  refine ⟨.v2 rfl (by decide +kernel) (textual_of_find (.inr ⟨lit "A",by decide +kernel⟩))
      (textual_of_find (.inl (by decide +kernel))),?_,⟨?_,?_⟩,by decide +kernel⟩
  · exact (constructJson_isSome_iff _ _ (.inr (by decide +kernel))).mp (by decide +kernel)
  · intro date given_date
    obtain rfl : endOfCalendar.text = date := Option.some.inj given_date
    exact (after_text endOfCalendar _).mpr (by decide +kernel)
  · rintro ⟨date,impossible,_⟩
    cases impossible

/-- A company that both formats report: "A", closed at the end of 2099. -/
def reportV1 : Response :=
  { Response.empty with
    content_type := some (lit "application/x-company-v1")
    body := lit "\x7b\"cn\":\"A\",\"closed_on\":\"2099-12-31T23:59:59Z\"\x7d" }

def reportV2 : Response :=
  { Response.empty with
    content_type := some (lit "application/x-company-v2")
    body := lit "\x7b\"company_name\":\"A\",\"dissolved_on\":\"2099-12-31T23:59:59Z\"\x7d" }

def membersV1 : JsonObject := [(lit "closed_on",.string (lit "2099-12-31T23:59:59Z")),(lit "cn",.string (lit "A"))]
def membersV2 : JsonObject :=
  [(lit "company_name",.string (lit "A")),(lit "dissolved_on",.string (lit "2099-12-31T23:59:59Z"))]

def reportLibrary : JsonLibrary := .tabled [(reportV1.body,membersV1),(reportV2.body,membersV2)]

theorem company_contract_iff_reports :
    (∃ active, constructJson (fun _ => 0) (0 : Int64).toInt (parseBackendResponse reportLibrary reportV1 { id := lit "1" }) =
        .ok (companyJson (lit "1") (lit "A") active (some (lit "2099-12-31T23:59:59Z"))) ∧
        (active = true ↔ Active (0 : Int64).toInt (factsV1 membersV1))) ∧
      constructJson (fun _ => 0) (0 : Int64).toInt (parseBackendResponse reportLibrary reportV1 { id := lit "1" }) =
        constructJson (fun _ => 0) (0 : Int64).toInt (parseBackendResponse reportLibrary reportV2 { id := lit "1" }) := by
  have tells : Tells reportLibrary reportV1 (factsV1 membersV1) :=
    .v1 rfl (by decide +kernel) (textual_of_find (.inr ⟨lit "A",by decide +kernel⟩))
      (textual_of_find (.inl (by decide +kernel)))
  have tells' : Tells reportLibrary reportV2 (factsV2 membersV2) :=
    .v2 rfl (by decide +kernel) (textual_of_find (.inr ⟨lit "A",by decide +kernel⟩))
      (textual_of_find (.inl (by decide +kernel)))
  have accepted : DatesAccepted (fun _ => 0) (0 : Int64).toInt
      (parseBackendResponse reportLibrary reportV1 { id := lit "1" }) :=
    (constructJson_isSome_iff _ _ (.inl (by decide +kernel))).mp (by decide +kernel)
  have accepted' : DatesAccepted (fun _ => 0) (0 : Int64).toInt
      (parseBackendResponse reportLibrary reportV2 { id := lit "1" }) :=
    (constructJson_isSome_iff _ _ (.inr (by decide +kernel))).mp (by decide +kernel)
  have closing : Rightly (0 : Int64).toInt (factsV1 membersV1).closing := by
    rintro date ⟨⟩
    decide +kernel
  have created : Rightly (0 : Int64).toInt (factsV1 membersV1).created := by
    rintro date ⟨⟩
  have created' : Rightly (0 : Int64).toInt (factsV2 membersV2).created := by
    rintro date ⟨⟩
  have contract := company_contract_iff reportLibrary (lit "1") 0
  refine ⟨(contract.1 reportV1 _ _ tells accepted).mpr (.inl ⟨closing,created⟩),?_⟩
  exact (contract.2 reportV1 reportV2 _ _ _ _ tells tells' accepted accepted' (by decide +kernel) (by decide +kernel)
    (by rintro ⟨date,impossible,_⟩; cases impossible) (by rintro ⟨date,impossible,_⟩; cases impossible)).mpr
    (.inr (iff_of_true created created'))

end Facade.CompanyInfo
