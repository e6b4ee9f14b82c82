import Facade.Connection

/-!
Requests that are refused because the SLA is missed. The service counts from
the time that the session has noted, which is the start of the read: the wait
for the request is counted too. `sla_refusals_late_iff` says for which runs
this makes no difference.
-/
namespace Facade
open Strings Http Backendify

namespace Backendify

/-- On a clock that does not go back, the SLA is missed once the whole
    microseconds exceed the slack. -/
theorem slaMissed_iff {config : AppConfig} {received now : Int} (forward : received ≤ now) :
    slaMissed config received now = true ↔ 1000 * (config.slack + 1) ≤ now - received := by
  unfold slaMissed
  rw [decide_eq_true_eq,Int.tdiv_eq_ediv_of_nonneg (by omega)]
  omega

end Backendify

namespace Connection
open HttpServerSession (Event since handed ForService Private)

section
variable (cache : CacheInterface)

/-- The request gets as far as the check of the SLA. -/
structure Checked (around : Surroundings cache) (req : Request) : Prop where
  id : idOf req ≠ []
  country : countryOf req ≠ []
  missed : (cache.get around.store (cacheKey (idOf req) (countryOf req)) around.m.steady).1 = none

end

/-- A request is dropped, or answered that the SLA was missed. -/
def Refused : Option Response → Prop
  | none => True
  | some res => res.result = 504 ∧ res.body = errorBody (lit "Gateway Timeout - SLA Exceeded")

variable {cache : CacheInterface} {config : AppConfig} {library : JsonLibrary}

/-! ### The check -/

/-- The service refuses the requests that miss the SLA when it checks it. -/
theorem processCompanyRequest_refused_iff {around : Surroundings cache} {req : Request} {received : Int} :
    (∃ opt_res,
      (processCompanyRequest cache config around.store around.breaker around.starts req received around.m).1 =
        .answered opt_res ∧ Refused opt_res) ↔
      Checked cache around req ∧ slaMissed config received around.m.steady = true := by
  have handled := processCompanyRequest_handled config around.store around.breaker around.starts req received around.m
  generalize (processCompanyRequest cache config around.store around.breaker around.starts req received around.m).1 =
    outcome at *
  -- an answer that is not a refusal is given for another reason
  have other : (∀ opt_res, outcome = .answered opt_res → ¬ Refused opt_res) →
      ¬ (Checked cache around req ∧ slaMissed config received around.m.steady = true) →
      ((∃ opt_res, outcome = .answered opt_res ∧ Refused opt_res) ↔
        Checked cache around req ∧ slaMissed config received around.m.steady = true) := by
    intro plain unchecked
    refine iff_of_false ?_ unchecked
    rintro ⟨opt_res,answered,refused⟩
    exact plain opt_res answered refused
  have inTime : slaMissed config received around.m.steady = false →
      ¬ (Checked cache around req ∧ slaMissed config received around.m.steady = true) := by
    rintro inTime ⟨_,late⟩
    rw [inTime] at late
    cases late
  cases handled with
  | incomplete missing =>
    refine other (by rintro _ ⟨⟩ ⟨result,_⟩; simp at result) ?_
    rintro ⟨checked,_⟩
    exact missing.elim checked.id checked.country
  | cached body _ _ got =>
    refine other (by rintro _ ⟨⟩ ⟨result,_⟩; simp [cachedResponse] at result) ?_
    rintro ⟨checked,_⟩
    exact absurd (got.symm.trans checked.missed) (by simp)
  | dropped uncached late =>
    exact iff_of_true ⟨none,rfl,trivial⟩ ⟨⟨uncached.id,uncached.country,uncached.missed⟩,late⟩
  | late uncached late =>
    exact iff_of_true ⟨_,rfl,rfl,rfl⟩ ⟨⟨uncached.id,uncached.country,uncached.missed⟩,late⟩
  | unconfigured _ early => exact other (by rintro _ ⟨⟩ ⟨result,_⟩; simp at result) (inTime early)
  | tripped _ _ early =>
    have text : errorBody (lit "Gateway Timeout - Circuit Breaker Active") ≠
        errorBody (lit "Gateway Timeout - SLA Exceeded") := by decide
    exact other (by rintro _ ⟨⟩ ⟨_,body⟩; exact text body) (inTime early)
  | thrown _ reaches => exact other (by rintro _ ⟨⟩ ⟨result,_⟩; simp at result) (inTime reaches.inTime)
  | called _ reaches => exact other (by simp) (inTime reaches.inTime)

/-- No answer of a backend call is a refusal. -/
theorem on_backend_complete_not_refused {call : BackendCall} {res r : Response} {ec : Option ErrorCode} {m : Moment}
    {store : cache.Store} {breaker : CircuitBreaker}
    (completed : (on_backend_complete cache config library call res ec m store breaker).1 = .ok r) :
    ¬ Refused (some r) := by
  obtain ⟨result,body,rfl,unreachable⟩ := on_backend_complete_reply completed
  rintro ⟨timedOut,text⟩
  have other : errorBody (lit "Gateway Timeout - Backend Unreachable") ≠
      errorBody (lit "Gateway Timeout - SLA Exceeded") := by decide
  exact other ((unreachable timedOut).symm.trans text)

/-! ### Refusals -/

theorem act_private {a : HttpServerSession.Action} {now : Int} {c c' : Connection} {out : List Event}
    (within : a.Within now) (other : (∀ result t, a ≠ .read result t) ∧ ∀ opt_res t, a ≠ .answer opt_res t)
    (taken : act a now c = some (c',out)) : Private out := by
  obtain ⟨session,stepped,_⟩ := act_eq_some.mp taken
  exact (HttpServerSession.apart_step within other stepped).own

theorem act_answer {opt_res : Option Response} {t now : Int} {c c' : Connection} {out : List Event}
    (taken : act (.answer opt_res t) now c = some (c',out)) (other : Option Response) :
    Event.answered other ∈ out ↔ other = opt_res := by
  obtain ⟨session,stepped,_⟩ := act_eq_some.mp taken
  simp only [HttpServerSession.step] at stepped
  split at stepped
  · cases stepped
  · rename_i serving pending
    rw [Option.some.injEq] at stepped
    obtain ⟨rest,sent,apart⟩ :=
      HttpServerSession.send_response_answers opt_res { c.session with serving := serving } (Int.le_refl t)
    rw [stepped] at sent
    simp only at sent
    simp [sent,apart.own.unanswered]

/-- The service refuses a request in the step that hands it over. -/
theorem serve_refused_iff {req : Request} {received now : Int} {around : Surroundings cache} {c c' : Connection}
    {out : List Event} (taken : serve cache config req received around now c = some (c',out)) :
    (∃ opt_res, Event.answered opt_res ∈ out ∧ Refused opt_res) ↔
      Checked cache around req ∧ slaMissed config received around.m.steady = true := by
  rw [← processCompanyRequest_refused_iff]
  unfold serve at taken
  split at taken
  · rename_i opt_res answered
    simp only [act_answer taken,answered,Outcome.answered.injEq]
    constructor
    · rintro ⟨_,rfl,refused⟩
      exact ⟨_,rfl,refused⟩
    · rintro ⟨_,rfl,refused⟩
      exact ⟨_,rfl,refused⟩
  · rename_i call calling
    simp only [Option.some.injEq,Prod.mk.injEq] at taken
    obtain ⟨_,rfl⟩ := taken
    simp [calling]

section
variable (cache config)

/-- A step reads a request for the service, which checks the SLA and finds that
    the limit has passed since the session started to read. -/
def Missed (first : Int) (c : Connection) (log : List Event) (a : Action cache) : Prop :=
  ∃ req arrived around now, a = .read (.ok req) arrived around now ∧ ForService c.session req ∧
    Checked cache around req ∧ 1000 * (config.slack + 1) ≤ around.m.steady - since first log

end

theorem read_refused_iff {first : Int} {c c' : Connection} {log out : List Event}
    {result : Except ErrorCode Request} {arrived now : Int} {around : Surroundings cache} (timed : Timed first c log)
    (taken : step cache config library c (.read result arrived around now) = some (c',out)) :
    (∃ opt_res, Event.answered opt_res ∈ out ∧ Refused opt_res) ↔
      Missed cache config first c log (.read result arrived around now) := by
  obtain ⟨forth,later,reads,_,done⟩ := step_read taken
  have nothing : (∀ req, result = .ok req → ¬ ForService c.session req) →
      ¬ Missed cache config first c log (.read result arrived around now) := by
    rintro unrouted ⟨req,_,_,_,same,routed,_⟩
    simp only [Action.read.injEq] at same
    exact unrouted req same.1 routed
  cases done with
  | failed ec =>
    refine iff_of_false ?_ (nothing (by simp))
    rintro ⟨opt_res,answered,_⟩
    exact (HttpServerSession.apart_do_close now _).own.unanswered opt_res answered
  | served req _ more routed served =>
    have forward : c.session.request_received_time ≤ around.m.steady := by
      have := timed.past
      omega
    have refused := serve_refused_iff served
    rw [slaMissed_iff forward,timed.noted] at refused
    simp only [List.cons_append,List.nil_append,List.mem_cons,reduceCtorEq,false_or,refused]
    constructor
    · rintro ⟨checked,late⟩
      exact ⟨req,arrived,around,now,rfl,routed,checked,late⟩
    · rintro ⟨_,_,_,_,same,_,checked,late⟩
      simp only [Action.read.injEq,Except.ok.injEq] at same
      obtain ⟨rfl,_,rfl,_⟩ := same
      exact ⟨checked,late⟩
  | own req res elsewhere own =>
    obtain ⟨rest,sent,apart⟩ := HttpServerSession.send_response_answers (some res)
      { c.session with reads := reads, req := req } (Int.le_refl arrived)
    refine iff_of_false ?_ (nothing ?_)
    · rw [sent]
      rintro ⟨opt_res,answered,refused⟩
      simp only [List.mem_cons,reduceCtorEq,false_or,Event.answered.injEq,apart.own.unanswered,or_false] at answered
      subst answered
      exact own.result_ne refused.1
    · rintro _ ⟨⟩
      exact elsewhere

/-- A step refuses a request exactly when the limit has passed since the
    session started to read. -/
theorem step_refused_iff {first : Int} {c c' : Connection} {log out : List Event} {a : Action cache}
    (timed : Timed first c log) (taken : step cache config library c a = some (c',out)) :
    (∃ opt_res, Event.answered opt_res ∈ out ∧ Refused opt_res) ↔ Missed cache config first c log a := by
  have unmissed : (∀ result arrived around now, a ≠ .read result arrived around now) →
      ¬ Missed cache config first c log a := by
    rintro other ⟨_,_,_,_,same,_⟩
    exact other _ _ _ _ same
  have quiet : Private out → ¬ ∃ opt_res, Event.answered opt_res ∈ out ∧ Refused opt_res := by
    rintro own ⟨opt_res,answered,_⟩
    exact own.unanswered opt_res answered
  cases a with
  | read result arrived around now => exact read_refused_iff timed taken
  | complete position res ec around now =>
    refine iff_of_false ?_ (unmissed (by simp))
    simp only [step] at taken
    split at taken
    · split at taken
      · cases taken
      · split at taken
        · rename_i r completed
          simp only [act_answer taken]
          rintro ⟨_,rfl,refused⟩
          exact on_backend_complete_not_refused completed refused
        · simp only [Option.some.injEq,Prod.mk.injEq] at taken
          obtain ⟨_,rfl⟩ := taken
          simp
    · cases taken
  | written ec now =>
    refine iff_of_false (quiet ?_) (unmissed (by simp))
    simp only [step] at taken
    split at taken
    · exact act_private (a := .written ec now) (Int.le_refl now) (by simp) taken
    · cases taken
  | stop => exact iff_of_false (quiet (act_private (a := .stop) trivial (by simp) taken)) (unmissed (by simp))
  | expire write =>
    exact iff_of_false (quiet (act_private (a := .expire write) trivial (by simp) taken)) (unmissed (by simp))
  | timer write =>
    exact iff_of_false (quiet (act_private (a := .timer write) trivial (by simp) taken)) (unmissed (by simp))

section
variable (cache config)

/-- More than the slack has passed, when the service looks at the clock, since
    the request was received. -/
def Overdue : Action cache → Prop
  | .read _ arrived around _ => 1000 * config.slack < around.m.steady - arrived
  | _ => False

/-- The wait for the request and its handling together stay below the limit, or
    the handling alone exceeds it. -/
def WaitHarmless (started arrived now : Int) : Prop :=
  (arrived - started) + (now - arrived) < 1000 * (config.slack + 1) ∨ 1000 * config.slack < now - arrived

end

/-- In a run, requests are dropped or answered with a missed SLA only when more
    than the slack has passed since they were received, exactly if for each
    request that gets to the check the wait for it was harmless. -/
theorem sla_refusals_late_iff (cache : CacheInterface) (config : AppConfig) (library : JsonLibrary)
    (backendify_service : Bool) (max_response_queue_size : Int32) (stopped : Bool) (first : Int)
    (actions : List (Action cache)) :
    (∀ c log a c' out,
      Runs.Takes (step cache config library) (opened backendify_service max_response_queue_size stopped first) actions
        c log a →
      step cache config library c a = some (c',out) →
      ∀ opt_res, Event.answered opt_res ∈ out → Refused opt_res → Overdue cache config a) ↔
    (∀ c log req arrived around now c' out,
      Runs.Takes (step cache config library) (opened backendify_service max_response_queue_size stopped first) actions
        c log (.read (.ok req) arrived around now) →
      step cache config library c (.read (.ok req) arrived around now) = some (c',out) →
      ForService c.session req → Checked cache around req →
      WaitHarmless config (since first log) arrived around.m.steady) := by
  constructor
  · intro late c log req arrived around now c' out takes taken routed checked
    by_cases missed : 1000 * (config.slack + 1) ≤ around.m.steady - since first log
    · obtain ⟨before,run⟩ := takes.run
      obtain ⟨opt_res,answered,refused⟩ := (step_refused_iff (timed_run run) taken).mpr
        ⟨req,arrived,around,now,rfl,routed,checked,missed⟩
      exact .inr (late c log _ c' out takes taken opt_res answered refused)
    · left
      omega
  · intro harmless c log a c' out takes taken opt_res answered refused
    obtain ⟨before,run⟩ := takes.run
    obtain ⟨req,arrived,around,now,rfl,routed,checked,missed⟩ :=
      (step_refused_iff (timed_run run) taken).mp ⟨opt_res,answered,refused⟩
    rcases harmless c log req arrived around now c' out takes taken routed checked with short | slow
    · omega
    · exact slow

/-! ### A request that comes after a pause -/

/-- The service at a time, with an empty cache. -/
def untroubled (steady : Int) : Surroundings .everlasting := ⟨[],⟨[]⟩,true,{ epoch with steady := steady }⟩

/-- A request, its response, and two seconds later a request for a company that
    the service looks at within a microsecond. -/
def pause : List (Action .everlasting) :=
  [.read (.ok { Request.empty with target := lit "/status" }) 1000 (untroubled 1000) 1000,.written none 2000,
    .read (.ok companyRequest) 2000000000 (untroubled 2000000500) 2000001000]

/-- The request is dropped, half a microsecond after it was received. -/
theorem prompt_request_dropped : ¬ (∀ c log a c' out,
    Runs.Takes (step .everlasting usConfig vagueLibrary) (opened true 8 false 0) pause c log a →
    step .everlasting usConfig vagueLibrary c a = some (c',out) →
    ∀ opt_res, Event.answered opt_res ∈ out → Refused opt_res → Overdue .everlasting usConfig a) := by
  intro late
  have executed : (Runs.exec (step .everlasting usConfig vagueLibrary) (opened true 8 false 0) (pause.take 2)).isSome =
      true := by decide +kernel
  have run := Runs.Run.of_isSome executed
  have dropped : ((step .everlasting usConfig vagueLibrary
      ((Runs.exec (step .everlasting usConfig vagueLibrary) (opened true 8 false 0) (pause.take 2)).getD
        (opened true 8 false 0,[])).1
      (.read (.ok companyRequest) 2000000000 (untroubled 2000000500) 2000001000)).map fun r =>
        decide (Event.answered none ∈ r.2)) = some true := by decide +kernel
  rw [Option.map_eq_some_iff] at dropped
  obtain ⟨⟨c',out⟩,taken,answered⟩ := dropped
  rw [decide_eq_true_eq] at answered
  have overdue := late _ _ _ c' out ⟨_,[],rfl,run⟩ taken none answered trivial
  have slack : usConfig.slack = 998800 := by decide
  simp only [Overdue,slack,untroubled] at overdue
  omega

end Connection
end Facade
