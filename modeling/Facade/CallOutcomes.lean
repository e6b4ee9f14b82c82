import Facade.BackendReplies
import Facade.ClientPhases

/-!
What the client is told of a backend call. `AsyncHttpClientSession` hands the result
of the call to `on_complete_`, with `end_of_stream` on a read turned into success, and
the completion handler of `Backendify` makes a status of it.

`outcome_classified_iff` says for which results the status is the documented one.
-/
namespace Facade.CallOutcomes
open Strings Http Backendify
open AsyncHttpClientSession (Action Event stepAny launched)

/-- The body parses as V1 or V2. -/
def Readable (library : JsonLibrary) (res : Response) : Prop := Versioned res ∧ ¬ Unreadable library res

/-- The documented status for a result: 504 when no complete response was received,
    404 and 200 as the backend answered, 502 for every other response. -/
inductive Documented (library : JsonLibrary) : Action → Nat → Prop
  | unresolved (e : ErrorCode) : Documented library (.resolved (some e)) 504
  | unconnected (e : ErrorCode) : Documented library (.connected (some e)) 504
  | unsent (e : ErrorCode) : Documented library (.written (some e)) 504
  | unread (res : Response) (e : ErrorCode) : Documented library (.received res (some e)) 504
  | missing (res : Response) : res.result = 404 → Documented library (.received res none) 404
  | found (res : Response) : res.result = 200 → Readable library res → Documented library (.received res none) 200
  | invalid (res : Response) : res.result ≠ 404 → ¬ (res.result = 200 ∧ Readable library res) →
      Documented library (.received res none) 502

/-- No failure is an `end_of_stream`, and a reply with status 200 that has the content
    type of a version and a JSON body can be read, written and dated. -/
def Classifiable (library : JsonLibrary) (id : Bytes) (m : Moment) : Action → Prop
  | .resolved (some e) => e ≠ .end_of_stream
  | .connected (some e) => e ≠ .end_of_stream
  | .written (some e) => e ≠ .end_of_stream
  | .received _ (some e) => e ≠ .end_of_stream
  | .received res none => res.result = 200 → Versioned res → (bodyJson library res).isSome = true →
      ¬ Unreadable library res ∧ utf8Valid id = true ∧
        CompanyInfo.DatesAccepted m.suffix m.system (CompanyInfo.parseBackendResponse library res { id := id })
  | _ => True

/-- What `on_complete_` is called with, by the result that completes the call. -/
inductive Completes : Action → Response → Option ErrorCode → Prop
  | resolve (e : ErrorCode) : Completes (.resolved (some e)) .empty (some e)
  | connect (e : ErrorCode) : Completes (.connected (some e)) .empty (some e)
  | write (e : ErrorCode) : Completes (.written (some e)) .empty (some e)
  | read (res : Response) (ec : Option ErrorCode) :
      Completes (.received res ec) res (if ec = some .end_of_stream then none else ec)

/-- A phase that another one follows completes the call with its error. -/
theorem completed_followed {s s' : AsyncHttpClientSession} {a : Action} {out : List Event} {phase next : Phase}
    {res : Response} {result ec : Option ErrorCode} (followed : AsyncHttpClientSession.Followed a phase next result)
    (taken : stepAny s a = some (s',out)) (completed : Event.completed res ec ∈ out) :
    ∃ e, result = some e ∧ res = .empty ∧ ec = some e := by
  obtain ⟨-,⟨e,rfl,-,reported⟩ | ⟨-,-,reported⟩⟩ := followed.taken taken
  · simp only [reported,List.mem_singleton,Event.completed.injEq] at completed
    exact ⟨e,rfl,completed⟩
  · simp [reported] at completed

theorem completes_of_step {s s' : AsyncHttpClientSession} {a : Action} {out : List Event} {res : Response}
    {ec : Option ErrorCode} (taken : stepAny s a = some (s',out)) (completed : Event.completed res ec ∈ out) :
    Completes a res ec := by
  cases a with
  | resolved result =>
    obtain ⟨e,rfl,rfl,rfl⟩ := completed_followed (.resolved result) taken completed
    exact .resolve e
  | connected result =>
    obtain ⟨e,rfl,rfl,rfl⟩ := completed_followed (.connected result) taken completed
    exact .connect e
  | written result =>
    obtain ⟨e,rfl,rfl,rfl⟩ := completed_followed (.written result) taken completed
    exact .write e
  | received response result =>
    obtain ⟨-,handled⟩ := AsyncHttpClientSession.deliverAny_eq_some taken
    cases handled
    simp only [List.mem_singleton,Event.completed.injEq] at completed
    obtain ⟨rfl,rfl⟩ := completed
    exact .read res result
  | cancel =>
    cases taken
    simp at completed
  | expire =>
    simp only [stepAny,AsyncHttpClientSession.step,Option.ite_none_right_eq_some,Option.some.injEq,Prod.mk.injEq] at taken
    obtain ⟨-,-,rfl⟩ := taken
    cases completed
  | timeout =>
    cases AsyncHttpClientSession.stepAny_progress taken with
    | aside _ _ closings => cases closings _ completed
    | onward phase next _ _ _ reported => simp [reported] at completed
    | done phase res ec ends _ _ _ => exact ends.elim

variable {cache : CacheInterface} {config : AppConfig} {library : JsonLibrary}

theorem sent_status {sent : Except Exception Response} {r : Response} (answered : sent = .ok r) (status : Nat) :
    (∃ r, sent = .ok r ∧ r.result = status) ↔ status = r.result := by
  subst answered
  constructor
  · rintro ⟨r',same,rfl⟩
    cases same
    rfl
  · rintro rfl
    exact ⟨r,rfl,rfl⟩

/-- The status sent for a response that the handler takes as received. -/
theorem received_status {call : BackendCall} {res : Response} {ec : Option ErrorCode} {m : Moment} {store : cache.Store}
    {breaker : CircuitBreaker} {status : Nat} (arrived : failed ec = false) :
    (∃ r, (on_backend_complete cache config library call res ec m store breaker).1 = .ok r ∧ r.result = status) ↔
      (res.result = 200 ∧ Versioned res ∧ (bodyJson library res).isSome = true ∧ utf8Valid call.id = true ∧
        CompanyInfo.DatesAccepted m.suffix m.system (CompanyInfo.parseBackendResponse library res { id := call.id }) ∧
        status = 200) ∨
      (res.result = 200 ∧ ¬ (Versioned res ∧ (bodyJson library res).isSome = true) ∧ status = 502) ∨
      (res.result = 404 ∧ status = 404) ∨ (res.result ≠ 200 ∧ res.result ≠ 404 ∧ status = 502) := by
  have parses := parse_success_iff library res call.id
  by_cases ok : res.result = 200
  · by_cases parsed : (CompanyInfo.parseBackendResponse library res { id := call.id }).parse_success = true
    · obtain ⟨versioned,json⟩ := parses.mp parsed
      have accepted : (∃ body, buildBody library call.id res m = some (.ok body)) ↔ _ := buildBody_ok_iff parsed
      have something := buildBody_isSome library call.id res m
      rw [parsed] at something
      obtain ⟨result,built⟩ := Option.isSome_iff_exists.mp something
      simp only [built,Option.some.injEq] at accepted
      cases result with
      | ok body =>
        have answered : (on_backend_complete cache config library call res ec m store breaker).1 =
            .ok (reply call.beast_res_cb 200 body) := by
          simp [on_backend_complete,arrived,ok,built]
        rw [sent_status answered]
        have dated := accepted.mp ⟨body,rfl⟩
        simp [ok,versioned,json,dated]
      | error e =>
        have thrown : (on_backend_complete cache config library call res ec m store breaker).1 = .error e := by
          simp [on_backend_complete,arrived,ok,built]
        constructor
        · rintro ⟨r,answered,-⟩
          rw [thrown] at answered
          cases answered
        · rintro (⟨-,-,-,utf8,dates,-⟩ | ⟨-,unread,-⟩ | ⟨wrong,-⟩ | ⟨other,-⟩)
          · obtain ⟨body,wrong⟩ := accepted.mpr ⟨utf8,dates⟩
            cases wrong
          · exact absurd ⟨versioned,json⟩ unread
          · omega
          · exact absurd ok other
    · have unread : ¬ (Versioned res ∧ (bodyJson library res).isSome = true) := fun read => parsed (parses.mpr read)
      have handled : on_backend_complete cache config library call res ec m store breaker = _ :=
        on_backend_complete_unparsed arrived ok (by simpa using parsed)
      rw [sent_status (by rw [handled])]
      simp only [ok,unread,ne_eq,true_and,not_true_eq_false,false_and,or_false,reply_result,not_false_eq_true]
      constructor
      · exact .inr ∘ .inl
      · rintro (⟨versioned,json,-⟩ | answered | ⟨wrong,-⟩)
        · exact absurd ⟨versioned,json⟩ unread
        · exact answered
        · omega
  · by_cases missing : res.result = 404
    · have answered : (on_backend_complete cache config library call res ec m store breaker).1 =
          .ok (reply call.beast_res_cb 404 (errorBody (lit "Not Found from backend"))) := by
        simp [on_backend_complete,arrived,missing]
      rw [sent_status answered]
      simp [missing]
    · have answered : ∃ r, (on_backend_complete cache config library call res ec m store breaker).1 = .ok r ∧
          r.result = 502 := by
        simp only [on_backend_complete,arrived,ok,missing,Bool.false_eq_true,if_false]
        split
        · exact ⟨_,rfl,rfl⟩
        · exact ⟨_,rfl,rfl⟩
      obtain ⟨r,answered,invalid⟩ := answered
      rw [sent_status answered]
      simp [ok,missing,invalid]

/-- A failure that the handler takes as one is answered with a 504. -/
theorem failed_status {call : BackendCall} {res : Response} {ec : Option ErrorCode} {m : Moment} {store : cache.Store}
    {breaker : CircuitBreaker} (fails : failed ec = true) :
    ∃ r, (on_backend_complete cache config library call res ec m store breaker).1 = .ok r ∧ r.result = 504 := by
  simp only [on_backend_complete,fails,if_true]
  exact ⟨_,rfl,rfl⟩

theorem failed_some {e : ErrorCode} : failed (some e) = true ↔ e ≠ .end_of_stream := by simp [failed]

/-- A reply that was received. -/
theorem received_documented {call : BackendCall} {res : Response} {m : Moment} {store : cache.Store}
    {breaker : CircuitBreaker} :
    (∃ r, (on_backend_complete cache config library call res none m store breaker).1 = .ok r ∧
      Documented library (.received res none) r.result) ↔ Classifiable library call.id m (.received res none) := by
  have status : ∀ n, (∃ r, (on_backend_complete cache config library call res none m store breaker).1 = .ok r ∧
      r.result = n) ↔ _ := fun n => received_status rfl
  constructor
  · rintro ⟨r,answered,documented⟩ ok versioned json
    rcases (status r.result).mp ⟨r,answered,rfl⟩ with ⟨-,-,-,utf8,dates,is200⟩ | ⟨-,unread,-⟩ | ⟨missing,-⟩ | ⟨other,-⟩
    · rw [is200] at documented
      cases documented with
      | found _ _ readable => exact ⟨readable.2,utf8,dates⟩
    · exact absurd ⟨versioned,json⟩ unread
    · omega
    · exact absurd ok other
  · intro classifiable
    by_cases missing : res.result = 404
    · obtain ⟨r,answered,is404⟩ := (status 404).mpr (.inr (.inr (.inl ⟨missing,rfl⟩)))
      exact ⟨r,answered,is404 ▸ .missing res missing⟩
    · by_cases ok : res.result = 200
      · by_cases read : Versioned res ∧ (bodyJson library res).isSome = true
        · obtain ⟨readable,utf8,dates⟩ := classifiable ok read.1 read.2
          obtain ⟨r,answered,is200⟩ := (status 200).mpr (.inl ⟨ok,read.1,read.2,utf8,dates,rfl⟩)
          exact ⟨r,answered,is200 ▸ .found res ok ⟨read.1,readable⟩⟩
        · obtain ⟨r,answered,is502⟩ := (status 502).mpr (.inr (.inl ⟨ok,read,rfl⟩))
          refine ⟨r,answered,is502 ▸ .invalid res missing ?_⟩
          rintro ⟨-,versioned,readable⟩
          apply read
          refine ⟨versioned,?_⟩
          -- a body that is not JSON is unreadable
          by_contra absent
          apply readable
          intro members json
          simp [json] at absent
      · obtain ⟨r,answered,is502⟩ := (status 502).mpr (.inr (.inr (.inr ⟨ok,missing,rfl⟩)))
        exact ⟨r,answered,is502 ▸ .invalid res missing fun found => ok found.1⟩

/-- A failure is answered with a 504 exactly when it is not `end_of_stream`. -/
theorem failure_documented {call : BackendCall} {res : Response} {e : ErrorCode} {ec : Option ErrorCode} {m : Moment}
    {store : cache.Store} {breaker : CircuitBreaker} {a : Action} (only : ∀ n, Documented library a n ↔ n = 504)
    (passed : failed ec = true ↔ e ≠ .end_of_stream) :
    (∃ r, (on_backend_complete cache config library call res ec m store breaker).1 = .ok r ∧
      Documented library a r.result) ↔ e ≠ .end_of_stream := by
  simp only [only]
  by_cases fails : failed ec = true
  · exact ⟨fun _ => passed.mp fails,fun _ => failed_status fails⟩
  · have arrived : failed ec = false := by simpa using fails
    rw [received_status arrived,← passed]
    simp [fails]

/-- The status sent for the result that completes a call is the documented one exactly
    when no failure was taken for the end of a stream and no reply with status 200
    parses in part only or has a date that is not accepted. -/
theorem outcome_classified_iff (cache : CacheInterface) (config : AppConfig) (library : JsonLibrary) (call : BackendCall)
    (m : Moment) (store : cache.Store) (breaker : CircuitBreaker) (s s' : AsyncHttpClientSession) (a : Action)
    (out : List Event) (res : Response) (ec : Option ErrorCode) (taken : stepAny s a = some (s',out))
    (completed : Event.completed res ec ∈ out) :
    (∃ r, (on_backend_complete cache config library call res ec m store breaker).1 = .ok r ∧
      Documented library a r.result) ↔ Classifiable library call.id m a := by
  cases completes_of_step taken completed with
  | resolve e =>
    refine failure_documented (fun n => ⟨?_,?_⟩) failed_some
    · rintro ⟨⟩
      rfl
    · rintro rfl
      exact .unresolved e
  | connect e =>
    refine failure_documented (fun n => ⟨?_,?_⟩) failed_some
    · rintro ⟨⟩
      rfl
    · rintro rfl
      exact .unconnected e
  | write e =>
    refine failure_documented (fun n => ⟨?_,?_⟩) failed_some
    · rintro ⟨⟩
      rfl
    · rintro rfl
      exact .unsent e
  | read _ result =>
    cases result with
    | none => exact received_documented
    | some e =>
      refine failure_documented (fun n => ⟨?_,?_⟩) ?_
      · rintro ⟨⟩
        rfl
      · rintro rfl
        exact .unread res e
      · by_cases ended : e = .end_of_stream
        · simp [ended,failed]
        · simp [ended,failed]

/-- The name of the backend is not found. -/
theorem outcome_classified_iff_unresolved :
    ∃ r, (on_backend_complete .everlasting usConfig (.tabled []) companyCall .empty (some (.other 1)) epoch [] ⟨[]⟩).1 =
      .ok r ∧ Documented (.tabled []) (.resolved (some (.other 1))) r.result :=
  (outcome_classified_iff .everlasting usConfig (.tabled []) companyCall epoch [] ⟨[]⟩
    (launched AsyncHttpClientSession.usBackend (lit "/companies/1") 275) _ (.resolved (some (.other 1))) _ .empty
    (some (.other 1)) rfl (by simp)).mpr
    (by simp [Classifiable])

/-- A backend that takes the request and closes the connection without a response. -/
def silentBackend : List Action := [.resolved none,.connected none,.written none,.received .empty (some .end_of_stream)]

/-- The client is told of a bad gateway, as if there had been a response. -/
theorem closed_connection_bad_gateway :
    (Runs.exec stepAny (launched AsyncHttpClientSession.usBackend (lit "/companies/1") 275) silentBackend).map Prod.snd =
      some [.started .connect,.started .write,.started .read,.completed .empty none] ∧
    (on_backend_complete .everlasting usConfig (.tabled []) companyCall .empty none epoch [] ⟨[]⟩).1 =
      .ok (reply companyCall.beast_res_cb 502 (errorBody (lit "Bad Gateway - Upstream Response Parse Error"))) ∧
    ¬ Documented (.tabled []) (.received .empty (some .end_of_stream)) 502 := by
  refine ⟨by decide +kernel,by decide +kernel,?_⟩
  rintro ⟨⟩

end Facade.CallOutcomes
