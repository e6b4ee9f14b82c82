import Facade.BackendUrls
import Facade.FrontendRuns

/-!
What every connection gets. The requests read on a connection are answered on it,
in their order and each by its own answer: `/status` and unknown resources by the
session, a company by what the service said of that request. A company that is
found was told by the backend of the request's country, whichever connection
caused it to be asked; only where the country holds a colon may it be another's
(`every_request_answered`).
-/
namespace Facade.Frontend
open Strings Http Backendify
open HttpServerSession (dialogue requests written OwnAnswer ForService)

/-- A request that the session hands to the service. -/
def Company (req : Request) : Prop := req.method = .get ∧ pathOf req.target = lit "/company"

/-- A response that reports an error. -/
def ErrorReply (res : Response) : Prop := res.result ≠ 200 ∧ ∃ text, res.body = errorBody text

/-- What may answer a request, `told` being what the service and the backends did. -/
inductive Fits (config : AppConfig) (library : JsonLibrary) (told : List Service.Event) (req : Request) :
    Option Response → Prop
  | own (res : Response) : ¬ Company req → OwnAnswer true req res → Fits config library told req (some res)
  | dropped (m : Moment) : Company req → .sent req none m ∈ told → config.drop_sla_timeout_requests = true →
      Fits config library told req none
  | refused (res : Response) (m : Moment) : Company req → .sent req (some res) m ∈ told → ErrorReply res →
      Fits config library told req (some res)
  | found (res : Response) (m : Moment) : Company req → .sent req (some res) m ∈ told → res.result = 200 →
      (58 ∉ countryOf req → Service.Genuine config library told req res.body) →
      Fits config library told req (some res)

variable {cache : CacheInterface} {config : AppConfig} {library : JsonLibrary}

/-! ### What the service answers -/

theorem Genuine.append {log more : List Service.Event} {req : Request} {body : Bytes}
    (genuine : Service.Genuine config library log req body) : Service.Genuine config library (log ++ more) req body := by
  obtain ⟨⟨backend,configured,built⟩,company⟩ := genuine
  exact ⟨⟨backend,configured,built.append⟩,company⟩

theorem Fits.append {told more : List Service.Event} {req : Request} {opt_res : Option Response}
    (fits : Fits config library told req opt_res) : Fits config library (told ++ more) req opt_res := by
  cases fits with
  | own res other own => exact .own res other own
  | dropped m company sent dropping => exact .dropped m company (List.mem_append_left more sent) dropping
  | refused res m company sent error => exact .refused res m company (List.mem_append_left more sent) error
  | found res m company sent ok genuine =>
    exact .found res m company (List.mem_append_left more sent) ok fun plain => Genuine.append (genuine plain)

/-- A request is dropped, or refused, or answered from the cache. -/
theorem answered_shape {store : cache.Store} {breaker : CircuitBreaker} {starts : Bool} {req : Request} {received : Int}
    {m : Moment} {opt_res : Option Response}
    (handled : Handled cache config store breaker starts req received m (.answered opt_res)) :
    (opt_res = none ∧ config.drop_sla_timeout_requests = true) ∨
      ∃ res, opt_res = some res ∧ (res.result = 200 ∨ ErrorReply res) := by
  cases handled with
  | incomplete => exact .inr ⟨_,rfl,.inr ⟨by simp,_,rfl⟩⟩
  | cached body => exact .inr ⟨_,rfl,.inl rfl⟩
  | dropped _ _ dropping => exact .inl ⟨rfl,dropping⟩
  | late => exact .inr ⟨_,rfl,.inr ⟨by simp,_,rfl⟩⟩
  | unconfigured => exact .inr ⟨_,rfl,.inr ⟨by simp,_,rfl⟩⟩
  | tripped => exact .inr ⟨_,rfl,.inr ⟨by simp,_,rfl⟩⟩
  | thrown => exact .inr ⟨_,rfl,.inr ⟨by simp,_,rfl⟩⟩

/-- A completed call answers with a company or an error. -/
theorem completed_shape {call : BackendCall} {res r : Response} {ec : Option ErrorCode} {m : Moment}
    {store : cache.Store} {breaker : CircuitBreaker}
    (completed : (on_backend_complete cache config library call res ec m store breaker).1 = .ok r) :
    r.result = 200 ∨ ErrorReply r := by
  have refusal : ∀ (result : Nat) (text : Bytes), result ≠ 200 →
      ErrorReply (reply call.beast_res_cb result (errorBody text)) := fun result text other => ⟨other,text,rfl⟩
  unfold on_backend_complete at completed
  simp only at completed
  split at completed
  · obtain rfl := Except.ok.inj completed
    exact .inr (refusal 504 _ (by decide))
  · split at completed
    · split at completed
      · obtain rfl := Except.ok.inj completed
        exact .inl rfl
      · cases completed
      · obtain rfl := Except.ok.inj completed
        exact .inr (refusal 502 _ (by decide))
    · split at completed
      · obtain rfl := Except.ok.inj completed
        exact .inr (refusal 404 _ (by decide))
      · split at completed
        · obtain rfl := Except.ok.inj completed
          exact .inr (refusal 502 _ (by decide))
        · obtain rfl := Except.ok.inj completed
          exact .inr (refusal 502 _ (by decide))

/-- What the service sends is a drop, an error, or the company of a cache or of a
    backend. -/
theorem sent_shape {s s' : Service cache} {a : Service.Action} {told : List Service.Event} {req : Request}
    {opt_res : Option Response} {m : Moment} (taken : Service.step cache config library s a = some (s',told))
    (sent : Service.Event.sent req opt_res m ∈ told) :
    (opt_res = none ∧ config.drop_sla_timeout_requests = true) ∨
      ∃ res, opt_res = some res ∧ (res.result = 200 ∨ ErrorReply res) := by
  cases a with
  | request req' received starts m' =>
    have handled := processCompanyRequest_handled config s.store s.breaker starts req' received m'
    simp only [Service.step] at taken
    split at taken
    · rename_i opt_res' store answered
      rw [answered] at handled
      simp only [Option.some.injEq,Prod.mk.injEq] at taken
      obtain ⟨_,rfl⟩ := taken
      obtain ⟨_,rfl,_⟩ := Service.Event.sent.inj (List.mem_singleton.mp sent)
      exact answered_shape handled
    · simp only [Option.some.injEq,Prod.mk.injEq] at taken
      obtain ⟨_,rfl⟩ := taken
      simp at sent
  | complete position res ec m' =>
    simp only [Service.step] at taken
    split at taken
    · cases taken
    · rename_i req' call pending
      split at taken
      · rename_i r store breaker completed
        simp only [Option.some.injEq,Prod.mk.injEq] at taken
        obtain ⟨_,rfl⟩ := taken
        have isLast : Service.Event.sent req opt_res m = .sent req' (some r) m' := by
          rcases List.mem_append.mp sent with early | last
          · split at early <;> simp at early
          · exact List.mem_singleton.mp last
        obtain ⟨_,rfl,_⟩ := Service.Event.sent.inj isLast
        exact .inr ⟨r,rfl,completed_shape (by rw [completed])⟩
      · simp only [Option.some.injEq,Prod.mk.injEq] at taken
        obtain ⟨_,rfl⟩ := taken
        rcases List.mem_append.mp sent with early | last
        · split at early <;> simp at early
        · simp at last

/-- The service answers a request as fits. -/
theorem sent_fits (countries : ∀ b ∈ config.country_backend_map, Configuration.IsCountry b.1) {s s' : Service cache}
    {a : Service.Action} {log told : List Service.Event} {req : Request} {opt_res : Option Response} {m : Moment}
    (traced : Service.Traced cache config library s log)
    (taken : Service.step cache config library s a = some (s',told)) (sent : Service.Event.sent req opt_res m ∈ told)
    (same : ∀ req' received starts m', a = .request req' received starts m' → req' = req) (company : Company req) :
    Fits config library (log ++ told) req opt_res := by
  have recorded : Service.Event.sent req opt_res m ∈ log ++ told := List.mem_append_right log sent
  rcases sent_shape taken sent with ⟨rfl,dropping⟩ | ⟨res,rfl,ok | error⟩
  · exact .dropped m company recorded dropping
  · refine .found res m company recorded ok fun plain => ?_
    have moved := Service.step_taken taken
    refine Service.served_genuine countries traced moved ?_ (moved.served_of_sent sent ok)
    intro req' received starts m' asked _
    rw [same req' received starts m' asked]
    exact plain
  · exact .refused res m company recorded error

/-! ### What the connections get -/

/-- Every answer so far fits its request. -/
def Fitted (config : AppConfig) (library : JsonLibrary) (log : List Event) : Prop :=
  ∀ id, ∀ p ∈ (dialogue (ofSession id log)).answered, Fits config library (ofService log) p.1 p.2

/-- One session may hear one more answer. -/
theorem Fitted.hear {log out : List Event} (fitted : Fitted config library log) {id : Nat} (only : Only id out)
    (heard : ∀ p ∈ (dialogue (ofSession id (log ++ out))).answered,
      p ∈ (dialogue (ofSession id log)).answered ∨ Fits config library (ofService (log ++ out)) p.1 p.2) :
    Fitted config library (log ++ out) := by
  intro j p member
  by_cases same : j = id
  · subst same
    rcases heard p member with old | fits
    · rw [ofService_append]
      exact (fitted j p old).append
    · exact fits
  · rw [ofSession_append,only j same,List.append_nil] at member
    rw [ofService_append]
    exact (fitted j p member).append

/-- The sessions hear nothing. -/
theorem Fitted.silent {log out : List Event} (fitted : Fitted config library log)
    (silent : ∀ id, ofSession id out = []) : Fitted config library (log ++ out) :=
  fitted.hear (fun j _ => silent j : Only 0 out) fun p member => by
    rw [ofSession_append,silent,List.append_nil] at member
    exact .inl member

theorem fitted_step (countries : ∀ b ∈ config.country_backend_map, Configuration.IsCountry b.1)
    (positive : 1 ≤ config.max_response_queue_size) {f f' : Frontend cache} {a : Action} {log out : List Event}
    (parts : Parts config library f log) (matched : Matched f log) (fitted : Fitted config library log)
    (taken : Taken config library f a f' out) : Fitted config library (log ++ out) := by
  obtain ⟨services,service⟩ := parts.service
  have traced := Service.traced_run service
  cases taken with
  | listening a b server' out => exact fitted.silent fun id => ofSession_server id out
  | accepting server' out => exact fitted.silent fun id => ofSession_server id out
  | stopping => exact fitted.silent fun id => ofSession_server id _
  | dispatching => exact fitted.silent fun id => rfl
  | moving a b id c s out _ found dispatched unanswered stepped =>
    have own : ofSession id (log ++ out.map (.session id)) = ofSession id log ++ out := by simp
    refine fitted.hear (only_session id out) ?_
    rw [own]
    have backed := ((parts.lived id c found).faithful positive dispatched).service
    intro p member
    cases parts.continues positive found dispatched stepped with
    | asks req now out _ idle heard => rw [heard] at member; exact .inl member
    | own req res now out other answer idle heard =>
      rw [heard,List.mem_append,List.mem_singleton] at member
      rcases member with old | rfl
      · exact .inl old
      · rw [backed] at answer
        exact .inr (.own res (fun company => other ⟨backed,company⟩) answer)
    | answers req opt_res now out => exact absurd rfl (unanswered opt_res now)
    | aside b out _ same => rw [same] at member; exact .inl member
  | answering id c result arrived s t out more req received starts m now service' opt_res found dispatched stepped handed
      entered calls answered =>
    have only := (only_session id out).append ((only_service id [.sent req opt_res m]).append (only_session id more))
    refine fitted.hear only ?_
    have own : ofSession id (log ++ (out.map (.session id) ++ ([Service.Event.sent req opt_res m].map .service ++
        more.map (.session id)))) = ofSession id log ++ out ++ more := by simp
    have told : ofService (log ++ (out.map (.session id) ++ ([Service.Event.sent req opt_res m].map .service ++
        more.map (.session id)))) = ofService log ++ [.sent req opt_res m] := by simp
    rw [own,told]
    obtain ⟨company,_,heard⟩ := (parts.continues positive found dispatched stepped).asked handed
    have lived := (parts.lived id c found).advance dispatched (exec_one stepped)
    have fits := sent_fits countries traced entered (List.mem_singleton_self _) (by rintro _ _ _ _ ⟨⟩; rfl) company.2
    obtain ⟨req',waiting,ended⟩ := (lived.continues positive rfl answered).ends
    rw [heard,Option.some.injEq] at waiting
    obtain rfl := waiting
    intro p member
    rw [ended,heard,List.mem_append,List.mem_singleton] at member
    rcases member with old | rfl
    · exact .inl old
    · exact .inr fits
  | calling id c result arrived s out req received starts m now service' call found dispatched stepped handed entered
      calls =>
    have own : ofSession id (log ++ (out.map (.session id) ++ [Service.Event.called req call.backend].map .service)) =
        ofSession id log ++ out := by simp
    refine fitted.hear ((only_session id out).append (only_service id [.called req call.backend])) ?_
    rw [own]
    obtain ⟨_,_,heard⟩ := (parts.continues positive found dispatched stepped).asked handed
    intro p member
    rw [heard] at member
    exact .inl member
  | completing position res ec m now id req call service' told opt_res f' out caller pending completed calls sent kept
      responded =>
    obtain ⟨c,s,heard,found,dispatched,waits,answered,rfl,rfl⟩ :=
      parts.completes positive matched caller pending responded
    have faithful := (parts.lived id c found).faithful positive dispatched
    refine fitted.hear ((only_service id told).append (only_session id heard)) ?_
    have own : ofSession id (log ++ (told.map .service ++ heard.map (.session id))) = ofSession id log ++ heard := by simp
    have record : ofService (log ++ (told.map .service ++ heard.map (.session id))) = ofService log ++ told := by simp
    rw [own,record]
    have company : Company req := (faithful.routed req waits).2
    have fits := sent_fits countries traced completed sent (by simp) company
    obtain ⟨req',waiting,ended⟩ := (parts.continues positive found dispatched answered).ends
    rw [waits,Option.some.injEq] at waiting
    obtain rfl := waiting
    intro p member
    rw [ended,List.mem_append,List.mem_singleton] at member
    rcases member with old | rfl
    · exact .inl old
    · exact .inr fits
  | losing position res ec m now id req call service' told e =>
    exact fitted.silent fun j => ofSession_service j _

theorem fitted_run (countries : ∀ b ∈ config.country_backend_map, Configuration.IsCountry b.1)
    (positive : 1 ≤ config.max_response_queue_size) {actions : List Action} {f : Frontend cache} {log : List Event}
    (run : Runs.Run (step config library) (start cache config) actions f log) : Fitted config library log := by
  have whole : (Parts config library f log ∧ Matched f log) ∧ Fitted config library log := by
    refine run.invariant (fun f log => (Parts config library f log ∧ Matched f log) ∧ Fitted config library log) ?_ ?_
    · refine ⟨coherent_run positive .start,?_⟩
      intro id p member
      cases member
    · rintro f log a f' out ⟨⟨parts,matched⟩,fitted⟩ taken
      have moved := (step_taken taken).1
      exact ⟨coherent_step positive parts matched moved,fitted_step countries positive parts matched fitted moved⟩
  exact whole.2

/-- In every run of the server, on every connection: the responses written are a prefix
    of the answers to the requests read, in their order, no request has more than one
    answer, at most the last one waits, and each answer is its own request's. -/
theorem every_request_answered (hardware_concurrency : UInt32) (files : Bytes → Option Bytes)
    (startupArguments : OrderedMap Bytes Bytes) (config : AppConfig)
    (loaded : Configuration.loadConfiguration hardware_concurrency files startupArguments = .ok config)
    (positive : 1 ≤ config.max_response_queue_size) (cache : CacheInterface) (library : JsonLibrary)
    (actions : List Action) (f : Frontend cache) (log : List Event)
    (run : Runs.Run (step config library) (start cache config) actions f log) (id : Nat) :
    written (ofSession id log) <+: (dialogue (ofSession id log)).answered.filterMap Prod.snd ∧
    requests (ofSession id log) =
      (dialogue (ofSession id log)).answered.map Prod.fst ++ (dialogue (ofSession id log)).pending.toList ∧
    ∀ p ∈ (dialogue (ofSession id log)).answered, Fits config library (ofService log) p.1 p.2 := by
  have countries : ∀ b ∈ config.country_backend_map, Configuration.IsCountry b.1 :=
    fun b member => (Configuration.loaded_callable loaded b member).country
  have fitted := fitted_run countries positive run id
  obtain ⟨parts,_⟩ := coherent_run positive run
  by_cases known : id < f.clients.length
  · cases (parts.lived id _ (List.getElem?_eq_getElem known)) with
    | waiting stopped undispatched still empty => rw [empty] at fitted ⊢; exact ⟨List.prefix_refl _,rfl,fitted⟩
    | running stopped first actions dispatched session =>
      have faithful := HttpServerSession.spoken_run positive session
      exact ⟨faithful.spoken.given ▸ faithful.orderly.delivered,faithful.spoken.asked,fitted⟩
  · rw [parts.strangers id (by omega)] at fitted ⊢
    exact ⟨List.prefix_refl _,rfl,fitted⟩

/-- Two connections ask for companies, and the backend calls complete in the other
    order. -/
def crossed : List Action :=
  let status : Request := { Request.empty with target := lit "/status" }
  let missing : Response := { Response.empty with result := 404 }
  [.ends none,.accepted,.ends none,.accepted,.run 0 0,.run 1 0,.read 0 (.ok status) 0 true epoch 0,.written 0 none 0,
    .read 0 (.ok companyRequest) 0 true epoch 0,.read 1 (.ok companyRequest) 0 true epoch 0,
    .complete 1 Service.namedReply none epoch 0,.written 1 none 0,.complete 0 missing none epoch 0,.written 0 none 0]

theorem every_request_answered_crossed : ∃ f log,
    Runs.Run (step ClientCalls.oneConfig Service.namedLibrary) (start .everlasting ClientCalls.oneConfig) crossed f log ∧
    (written (ofSession 0 log)).map (·.result) = [200,404] ∧ (written (ofSession 1 log)).map (·.result) = [200] ∧
    (∀ p ∈ (dialogue (ofSession 0 log)).answered,
      Fits ClientCalls.oneConfig Service.namedLibrary (ofService log) p.1 p.2) ∧
    ∀ p ∈ (dialogue (ofSession 1 log)).answered,
      Fits ClientCalls.oneConfig Service.namedLibrary (ofService log) p.1 p.2 := by
  have executed : (Runs.exec (step ClientCalls.oneConfig Service.namedLibrary)
      (start .everlasting ClientCalls.oneConfig) crossed).isSome = true := by decide +kernel
  have run := Runs.Run.of_isSome executed
  have answered := every_request_answered 2 (fun _ => none) ClientCalls.oneCountry ClientCalls.oneConfig rfl
    (by decide +kernel) .everlasting Service.namedLibrary crossed _ _ run
  exact ⟨_,_,run,by decide +kernel,by decide +kernel,(answered 0).2.2,(answered 1).2.2⟩

end Facade.Frontend
