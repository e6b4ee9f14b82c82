import Facade.ServiceRuns

/-!
The flag "active" of a response, over whole runs of the service. It is computed
when the reply of the backend is handled and then served with the body from the
cache, so it tells the truth about the moment of the reply
(`buildBody_active`) and about the moment of the response only while the
company has neither started nor closed in between (`active_while_unchanged`).
-/
namespace Facade
open Strings Http Query Backendify Timestamps Streams

namespace Service

/-- The dates of a company are the given timestamps, or absent. -/
def Dated (info : CompanyInfo) (created closed : Option Stamp) : Prop :=
  info.creation = created.map Stamp.text ∧ info.closing = closed.map Stamp.text

/-- The company is active at a time: it has started and has not closed. -/
def ActiveAt (created closed : Option Stamp) (now : Int) : Prop :=
  (∀ st, closed = some st → st.After now) ∧ (∀ st, created = some st → ¬ st.After now)

/-- The instant fits into the 64 bits of the system clock. -/
def Representable (st : Stamp) : Prop := -2 ^ 63 ≤ st.seconds * 1000000000 ∧ st.seconds * 1000000000 < 2 ^ 63

/-- At `now` the fraction of the timestamp's second is running. -/
def FractionRuns (st : Stamp) (now : Int) : Prop := st.seconds * 1000000000 ≤ now ∧ st.After now

/-- The body says that the company is active. -/
def SaysActive (library : JsonLibrary) (body : Bytes) : Prop :=
  ∃ o, JsonObject.plain o = true ∧ library.dump o = some body ∧ o.find (lit "active") = some (.boolean true)

variable {cache : CacheInterface} {config : AppConfig} {library : JsonLibrary}

/-! ### The moment of the reply -/

/-- A timestamp that is accepted is compared at whole seconds. -/
theorem check_stamp {suffix : UInt8} {now : Int} {date : Option Stamp} {result : Option Bool}
    (checked : CompanyInfo.check suffix now (date.map Stamp.text) = .ok result) :
    result = date.map fun st => decide (from_time_t st.seconds > now) := by
  cases date with
  | none =>
    simp only [CompanyInfo.check,Option.map_none,Except.ok.injEq] at checked
    exact checked.symm
  | some st =>
    simp only [CompanyInfo.check,Option.map_some,isUTCTimeInFuture_stamp] at checked
    split at checked
    · cases checked
    · simp only [Except.map,Except.ok.injEq] at checked
      exact checked.symm

theorem inFuture_iff {st : Stamp} {now : Int} (fits : Representable st) (whole : ¬ FractionRuns st now) :
    from_time_t st.seconds > now ↔ st.After now := by
  rw [from_time_t_eq fits.1 fits.2]
  exact after_iff_seconds st whole

theorem find_active (id name : Bytes) (active : Bool) (active_until : Option Bytes) :
    OrderedMap.find (lit "active") (CompanyInfo.companyJson id name active active_until) =
      some (.boolean active) := rfl

/-- A body is written for one flag only. -/
theorem saysActive_iff {id name body : Bytes} {active : Bool} {active_until : Option Bytes}
    (wrote : library.dump (CompanyInfo.companyJson id name active active_until) = some body) :
    SaysActive library body ↔ active = true := by
  have plain := CompanyInfo.companyJson_plain id name active active_until
  constructor
  · rintro ⟨o,plain',wrote',flag⟩
    rw [library.dump_injective _ _ _ plain' plain wrote' wrote,find_active] at flag
    simpa using flag
  · rintro rfl
    exact ⟨_,plain,wrote,find_active id name true active_until⟩

/-- A body tells whether the company is active at the moment of the reply. -/
theorem buildBody_active {id body : Bytes} {res : Response} {m : Moment} {created closed : Option Stamp}
    (built : buildBody library id res m = some (.ok body))
    (dated : Dated (CompanyInfo.parseBackendResponse library res { id := id }) created closed)
    (fits : ∀ st, created = some st ∨ closed = some st → Representable st)
    (whole : ∀ st, created = some st ∨ closed = some st → ¬ FractionRuns st m.system) :
    SaysActive library body ↔ ActiveAt created closed m.system := by
  obtain ⟨o,parsed,constructed,wrote⟩ := buildBody_eq_ok built
  have version := (CompanyInfo.parseBackendResponse_spec library res id).2.2 parsed
  generalize CompanyInfo.parseBackendResponse library res { id := id } = info at *
  rw [CompanyInfo.constructJson_eq m.suffix m.system version,dated.1,dated.2] at constructed
  cases first : CompanyInfo.check (m.suffix 0) m.system (created.map Stamp.text) with
  | error what => simp [first,Except.bind] at constructed
  | ok unborn =>
    cases second : CompanyInfo.check (m.suffix info.closingCall) m.system (closed.map Stamp.text) with
    | error what => simp [first,second,Except.bind,Except.map] at constructed
    | ok future =>
      simp only [first,second,Except.bind,Except.map,Except.ok.injEq] at constructed
      subst constructed
      rw [saysActive_iff wrote,check_stamp first,check_stamp second,Bool.and_eq_true,and_comm]
      have later : ∀ st, created = some st ∨ closed = some st →
          (from_time_t st.seconds > m.system ↔ st.After m.system) :=
        fun st is => inFuture_iff (fits st is) (whole st is)
      refine and_congr ?_ ?_
      · cases closed with
        | none => simp
        | some st => simpa using later st (.inr rfl)
      · cases created with
        | none => simp
        | some st => simpa using not_congr (later st (.inl rfl))

/-! ### The moment of the response -/

/-- The body was built, at a time, from a reply on the record that has the given
    dates. -/
def BuiltAt (library : JsonLibrary) (log : List Event) (body : Bytes) (created closed : Option Stamp) (built : Int) :
    Prop :=
  ∃ backend id res m, Event.replied backend id res m ∈ log ∧ res.result = 200 ∧ m.system = built ∧
    buildBody library id res m = some (.ok body) ∧
    Dated (CompanyInfo.parseBackendResponse library res { id := id }) created closed

/-- Between the reply and the response the company neither starts nor closes;
    its dates fit into the clock, and at the reply no fraction of their seconds
    is running. -/
structure Unchanged (created closed : Option Stamp) (built now : Int) : Prop where
  fits : ∀ st, created = some st ∨ closed = some st → Representable st
  whole : ∀ st, created = some st ∨ closed = some st → ¬ FractionRuns st built
  status : ActiveAt created closed built ↔ ActiveAt created closed now

/-- Whatever is served was built from a reply on the record. -/
theorem served_built {s s' : Service cache} {a : Action} {log out : List Event}
    (traced : Traced cache config library s log) (taken : Taken cache config library s a s' out)
    {req : Request} {body : Bytes} {m : Moment} (served : served cache library s a = some (req,body,m)) :
    ∃ backend id, BuiltFrom library (log ++ out) backend id body := by
  cases taken with
  | hit req' received starts m' body' looked =>
    simp only [Service.served,looked,Option.map_some,Option.some.injEq,Prod.mk.injEq] at served
    obtain ⟨rfl,rfl,rfl⟩ := served
    obtain ⟨id,_,backend,_,_,built⟩ := traced.held _ _ (holds_of_lookup looked)
    exact ⟨backend,id,built.append⟩
  | answered req' received starts m' opt_res store missed _ stored =>
    simp [Service.served,missed] at served
  | calling req' received starts m' call store missed id key configured stored =>
    simp [Service.served,missed] at served
  | fetched position res ec m' req' call body' pending built =>
    simp only [Service.served,pending,built,Option.map_some,Option.some.injEq,Prod.mk.injEq] at served
    obtain ⟨rfl,rfl,rfl⟩ := served
    obtain ⟨found,wrote⟩ := fetched_eq_some built
    exact ⟨call.backend,call.id,res,m',by simp,found,wrote⟩
  | refused position res ec m' req' call breaker replied last pending nothing shape end_ =>
    simp [Service.served,pending,nothing] at served

/-- In a run in which no company starts or closes between a reply and the
    responses that its body is served in, every response with status 200 has a
    body built from a reply, and the body tells whether the company is active
    when it is sent. -/
theorem active_while_unchanged (cache : CacheInterface) (config : AppConfig) (library : JsonLibrary)
    (actions : List Action)
    (unchanged : ∀ s log a s' out, Runs.Takes (step cache config library) (start cache) actions s log a →
      step cache config library s a = some (s',out) →
      ∀ req body m, served cache library s a = some (req,body,m) →
      ∀ created closed built, BuiltAt library (log ++ out) body created closed built →
        Unchanged created closed built m.system) :
    ∀ s log a s' out, Runs.Takes (step cache config library) (start cache) actions s log a →
      step cache config library s a = some (s',out) →
      ∀ req r m, Event.sent req (some r) m ∈ out → r.result = 200 →
        (∃ backend id, BuiltFrom library (log ++ out) backend id r.body) ∧
        ∀ created closed built, BuiltAt library (log ++ out) r.body created closed built →
          (SaysActive library r.body ↔ ActiveAt created closed m.system) := by
  intro s log a s' out takes executed req r m sent found
  have taken := step_taken executed
  have serves := taken.served_of_sent sent found
  obtain ⟨before,run⟩ := takes.run
  refine ⟨served_built (traced_run run) taken serves,?_⟩
  intro created closed built source
  have steady := unchanged s log a s' out takes executed req r.body m serves created closed built source
  obtain ⟨backend,id,res,m',_,_,rfl,wrote,dated⟩ := source
  rw [buildBody_active wrote dated steady.fits steady.whole]
  exact steady.status

/-! ### A company that closes while its body is in the cache -/

/-- Every reply on the record of a run came with one of its completions. -/
theorem replied_of_run {actions : List Action} {s : Service cache} {log : List Event}
    (run : Runs.Run (step cache config library) (start cache) actions s log) {backend : BackendUrlInfo} {id : Bytes}
    {res : Response} {m : Moment} (replied : Event.replied backend id res m ∈ log) :
    ∃ position ec, Action.complete position res ec m ∈ actions := by
  obtain ⟨t,before,a,t',out,⟨first,after,split,_⟩,stepped,reported⟩ := run.reported _ replied
  have member : a ∈ actions := by simp [split]
  cases step_taken stepped with
  | hit req received starts m' body looked => simp at reported
  | answered req received starts m' opt_res store missed plain stored => simp at reported
  | calling req received starts m' call store missed id key configured stored => simp at reported
  | fetched position res' ec m' req call body pending built =>
    simp only [List.mem_cons,Event.replied.injEq,reduceCtorEq,List.not_mem_nil,or_false] at reported
    obtain ⟨_,_,rfl,rfl⟩ := reported
    exact ⟨position,ec,member⟩
  | refused position res' ec m' req call breaker replied last pending nothing shape end_ =>
    have notLast : Event.replied backend id res m ≠ last := by
      rcases end_ with ⟨r,rfl,_⟩ | ⟨e,rfl⟩
      · simp
      · simp
    rcases shape with rfl | rfl
    · simp [notLast] at reported
    · simp only [List.cons_append,List.nil_append,List.mem_cons,Event.replied.injEq,notLast,List.not_mem_nil,
        or_false] at reported
      obtain ⟨_,_,rfl,rfl⟩ := reported
      exact ⟨position,ec,member⟩

/-- A step serves at its own moment. -/
theorem served_moment {s : Service cache} {a : Action} {req : Request} {body : Bytes} {m : Moment}
    (serves : served cache library s a = some (req,body,m)) :
    (∃ received starts, a = .request req received starts m) ∨ ∃ position res ec, a = .complete position res ec m := by
  cases a with
  | request req' received starts m' =>
    simp only [served,Option.map_eq_some_iff,Prod.mk.injEq] at serves
    obtain ⟨_,_,rfl,_,rfl⟩ := serves
    exact .inl ⟨received,starts,rfl⟩
  | complete position res ec m' =>
    simp only [served] at serves
    split at serves
    · cases serves
    · simp only [Option.map_eq_some_iff,Prod.mk.injEq] at serves
      obtain ⟨_,_,_,_,rfl⟩ := serves
      exact .inr ⟨position,res,ec,rfl⟩

/-- The first second of the year 2030. -/
def newYear : Stamp :=
  { year := 2030, month := 1, day := 1, hour := 0, minute := 0, second := 0, fraction := []
    year_le := by decide, month_pos := by decide, month_le := by decide, day_pos := by decide, day_le := by decide,
    hour_le := by decide, minute_le := by decide, second_le := by decide, digits := List.forall_mem_nil _ }

/-- A moment some seconds after (or before) the new year. -/
def atNewYear (offset : Int) : Moment := ⟨0,(newYear.seconds + offset) * 1000000000,fun _ => 0⟩

/-- A V1 reply for a company that closes at the new year. -/
def closingReply : Response :=
  { Response.empty with
    content_type := some (lit "application/x-company-v1")
    body := lit "\x7b\"cn\":\"A\",\"closed_on\":\"2030-01-01T00:00:00Z\"\x7d" }

def closingLibrary : JsonLibrary :=
  .tabled [(closingReply.body,[(lit "closed_on",.string newYear.text),(lit "cn",.string (lit "A"))])]

/-- The company is fetched a minute before it closes, and asked for again. -/
def closingRun (offset : Int) : List Action :=
  [.request companyRequest 0 true (atNewYear (-61)),.complete 0 closingReply none (atNewYear (-60)),
    .request companyRequest 0 true (atNewYear offset)]

theorem closing_info (id : Bytes) :
    Dated (CompanyInfo.parseBackendResponse closingLibrary closingReply { id := id }) none (some newYear) := by
  have parsed : closingLibrary.parse closingReply.body =
      some (.object [(lit "closed_on",.string newYear.text),(lit "cn",.string (lit "A"))]) := by decide +kernel
  have body : closingReply.body ≠ [] := by decide
  have type : closingReply.content_type.getD [] = lit "application/x-company-v1" := rfl
  unfold CompanyInfo.parseBackendResponse
  simp only [body,parsed,type,↓reduceIte]
  exact ⟨rfl,rfl⟩

/-- The reply has one closing date, whatever id it is for. -/
theorem closing_dates {id : Bytes} {created closed : Option Stamp}
    (dated : Dated (CompanyInfo.parseBackendResponse closingLibrary closingReply { id := id }) created closed) :
    created = none ∧ ∃ st, closed = some st ∧ st.seconds = newYear.seconds ∧ ∀ now, st.After now ↔ newYear.After now := by
  have known := closing_info id
  obtain ⟨creation,closing⟩ := dated
  rw [known.1] at creation
  rw [known.2] at closing
  refine ⟨Option.map_eq_none_iff.mp creation.symm,?_⟩
  obtain ⟨st,is,same⟩ := Option.map_eq_some_iff.mp closing.symm
  obtain ⟨seconds,fraction⟩ := after_of_text same
  exact ⟨st,is,seconds,fun now => by simp only [Stamp.After,seconds,fraction]⟩

/-- A body that is built in the run is built a minute before the new year. -/
theorem closing_built {offset : Int} {s s' : Service .everlasting} {log out : List Event} {a : Action}
    (takes : Runs.Takes (step .everlasting usConfig closingLibrary) (start .everlasting) (closingRun offset) s log a)
    (executed : step .everlasting usConfig closingLibrary s a = some (s',out))
    {backend : BackendUrlInfo} {id : Bytes} {res : Response} {m : Moment}
    (replied : Event.replied backend id res m ∈ log ++ out) : res = closingReply ∧ m = atNewYear (-60) := by
  obtain ⟨before,after,split,run⟩ := takes
  obtain ⟨position,ec,member⟩ := replied_of_run (run.next executed) replied
  have listed : Action.complete position res ec m ∈ closingRun offset := by
    rw [split,List.append_cons]
    exact List.mem_append_left after member
  simp only [closingRun,List.mem_cons,reduceCtorEq,Action.complete.injEq,List.not_mem_nil,or_false,false_or] at listed
  exact ⟨listed.2.1,listed.2.2.2⟩

/-- The second request of the run is answered from the cache. -/
theorem closing_hit (offset : Int) : ∃ s log s' body,
    Runs.Takes (step .everlasting usConfig closingLibrary) (start .everlasting) (closingRun offset) s log
      (.request companyRequest 0 true (atNewYear offset)) ∧
    step .everlasting usConfig closingLibrary s (.request companyRequest 0 true (atNewYear offset)) =
      some (s',[.sent companyRequest (some (cachedResponse body)) (atNewYear offset)]) := by
  have executed : (Runs.exec (step .everlasting usConfig closingLibrary) (start .everlasting)
      [.request companyRequest 0 true (atNewYear (-61)),.complete 0 closingReply none (atNewYear (-60))]).isSome =
      true := by decide +kernel
  have answered : (lookup .everlasting (((Runs.exec (step .everlasting usConfig closingLibrary) (start .everlasting)
      [.request companyRequest 0 true (atNewYear (-61)),.complete 0 closingReply none (atNewYear (-60))]).getD
        (start .everlasting,[])).1).store companyRequest (atNewYear 0)).isSome = true := by decide +kernel
  obtain ⟨body,looked⟩ := Option.isSome_iff_exists.mp answered
  -- The cache does not look at the clock.
  have later : lookup .everlasting _ companyRequest (atNewYear offset) = some body := looked
  obtain ⟨s',hit⟩ := step_hit later 0 true
  exact ⟨_,_,s',body,⟨_,[],rfl,Runs.Run.of_isSome executed⟩,hit⟩

theorem closing_unchanged {created closed : Option Stamp} {id : Bytes} {now : Int}
    (dated : Dated (CompanyInfo.parseBackendResponse closingLibrary closingReply { id := id }) created closed)
    (before : newYear.After now) : Unchanged created closed (atNewYear (-60)).system now := by
  obtain ⟨rfl,st,rfl,seconds,after⟩ := closing_dates dated
  have fetched : newYear.After (atNewYear (-60)).system := by decide
  refine ⟨?_,?_,?_⟩
  · rintro st' (none_ | same)
    · cases none_
    · cases same
      unfold Representable
      rw [seconds]
      decide
  · rintro st' (none_ | same) ⟨started,_⟩
    · cases none_
    · cases same
      rw [seconds] at started
      revert started
      decide
  · simp [ActiveAt,after,fetched,before]

/-- Served half a minute before the closing, the body tells the truth. -/
theorem active_while_unchanged_open : ∃ s log s' body,
    Runs.Takes (step .everlasting usConfig closingLibrary) (start .everlasting) (closingRun (-30)) s log
      (.request companyRequest 0 true (atNewYear (-30))) ∧
    step .everlasting usConfig closingLibrary s (.request companyRequest 0 true (atNewYear (-30))) =
      some (s',[.sent companyRequest (some (cachedResponse body)) (atNewYear (-30))]) ∧
    ∃ backend id, BuiltFrom closingLibrary
      (log ++ [.sent companyRequest (some (cachedResponse body)) (atNewYear (-30))]) backend id body := by
  obtain ⟨s,log,s',body,takes,executed⟩ := closing_hit (-30)
  refine ⟨s,log,s',body,takes,executed,?_⟩
  refine (active_while_unchanged .everlasting usConfig closingLibrary (closingRun (-30)) ?_ s log _ s' _ takes executed
    companyRequest _ (atNewYear (-30)) (List.mem_singleton_self _) rfl).1
  intro s log a s' out takes executed req body m serves created closed built source
  obtain ⟨backend,id,res,m',replied,_,rfl,_,dated⟩ := source
  obtain ⟨rfl,rfl⟩ := closing_built takes executed replied
  refine closing_unchanged dated ?_
  have listed := takes.mem
  rcases served_moment serves with ⟨received,starts,rfl⟩ | ⟨position,res,ec,rfl⟩
  · simp only [closingRun,List.mem_cons,Action.request.injEq,reduceCtorEq,List.not_mem_nil,or_false,
      false_or] at listed
    rcases listed with ⟨_,_,_,rfl⟩ | ⟨_,_,_,rfl⟩ <;> decide
  · simp only [closingRun,List.mem_cons,Action.complete.injEq,reduceCtorEq,List.not_mem_nil,or_false,
      false_or] at listed
    obtain ⟨_,_,_,rfl⟩ := listed
    decide

/-- Served half a minute after the closing, the body still says active. -/
theorem closed_company_served_active : ¬ (∀ s log a s' out,
    Runs.Takes (step .everlasting usConfig closingLibrary) (start .everlasting) (closingRun 30) s log a →
    step .everlasting usConfig closingLibrary s a = some (s',out) →
    ∀ req r m, Event.sent req (some r) m ∈ out → r.result = 200 →
    ∀ created closed built, BuiltAt closingLibrary (log ++ out) r.body created closed built →
      (SaysActive closingLibrary r.body ↔ ActiveAt created closed m.system)) := by
  intro truthful
  obtain ⟨s,log,s',body,takes,executed⟩ := closing_hit 30
  obtain ⟨before,run⟩ := takes.run
  obtain ⟨backend,id,res,m,replied,found,wrote⟩ := served_built (traced_run run) (step_taken executed)
    ((step_taken executed).served_of_sent (List.mem_singleton_self _) rfl)
  obtain ⟨rfl,rfl⟩ := closing_built takes executed replied
  have dated := closing_info id
  have told := truthful s log _ s' _ takes executed companyRequest _ (atNewYear 30)
    (List.mem_singleton_self _) rfl none (some newYear) _ ⟨backend,id,closingReply,_,replied,found,rfl,wrote,dated⟩
  have unchanged : Unchanged none (some newYear) (atNewYear (-60)).system (atNewYear (-60)).system :=
    closing_unchanged dated (by decide)
  have fetched := buildBody_active wrote dated unchanged.fits unchanged.whole
  have active : ActiveAt none (some newYear) (atNewYear (-60)).system := by
    have open_ : newYear.After (atNewYear (-60)).system := by decide
    simp [ActiveAt,open_]
  have closed : newYear.After (atNewYear 30).system := (told.mp (fetched.mpr active)).1 newYear rfl
  revert closed
  decide

end Service
end Facade
