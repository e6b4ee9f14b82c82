import Facade.Backendify
import Facade.Configuration
import Facade.Runs

/-!
Runs of the service: requests come in, backend calls complete in any order, and
the cache is all that requests share. Each request, and each completion, is one
step at one moment.

Whatever the order, a value in the cache was built from a backend's reply for
the id and the country of its key (`traced_run`). A key is the id and the
country joined by a colon, so it tells them apart only when the country holds
no colon, which no configured country does but a requested one may
(`served_genuine_iff`).
-/
namespace Facade
open Strings Http Query Backendify

/-- The shared state of the service, and the requests that wait for a backend. -/
structure Service (cache : CacheInterface) where
  store : cache.Store
  breaker : CircuitBreaker
  calls : List (Request × BackendCall)

namespace Service

inductive Action
  | request (req : Request) (request_received_time : Int) (starts : Bool) (m : Moment)
  | complete (position : Nat) (res : Response) (ec : Option ErrorCode) (m : Moment)

/-- What an observer sees: responses and dropped requests, backend calls, the
    replies of backends, and requests that are never answered. -/
inductive Event
  | sent (req : Request) (opt_res : Option Response) (m : Moment)
  | called (req : Request) (backend : BackendUrlInfo)
  | replied (backend : BackendUrlInfo) (id : Bytes) (res : Response) (m : Moment)
  | lost (req : Request) (e : Exception)

section
variable (cache : CacheInterface) (config : AppConfig) (library : JsonLibrary)

def start : Service cache := ⟨cache.empty,⟨[]⟩,[]⟩

def step (s : Service cache) : Action → Option (Service cache × List Event)
  | .request req request_received_time starts m =>
    match processCompanyRequest cache config s.store s.breaker starts req request_received_time m with
    | (.answered opt_res,store) => some ({ s with store := store },[.sent req opt_res m])
    | (.calling call,store) =>
      some ({ s with store := store, calls := s.calls ++ [(req,call)] },[.called req call.backend])
  | .complete position res ec m =>
    match s.calls[position]? with
    | none => none
    | some (req,call) =>
      let replied := if failed ec then [] else [Event.replied call.backend call.id res m]
      let calls := s.calls.eraseIdx position
      match on_backend_complete cache config library call res ec m s.store s.breaker with
      | (.ok r,store,breaker) => some (⟨store,breaker,calls⟩,replied ++ [.sent req (some r) m])
      | (.error e,store,breaker) => some (⟨store,breaker,calls⟩,replied ++ [.lost req e])

/-- What the cache answers to a request that looks into it. -/
def lookup (store : cache.Store) (req : Request) (m : Moment) : Option Bytes :=
  if idOf req = [] ∨ countryOf req = [] then none
  else (cache.get store (cacheKey (idOf req) (countryOf req)) m.steady).1

/-- The body that a completed call gives to the client. -/
def fetched (call : BackendCall) (res : Response) (ec : Option ErrorCode) (m : Moment) : Option Bytes :=
  if failed ec = false ∧ res.result = 200 then
    match buildBody library call.id res m with
    | some (.ok body) => some body
    | _ => none
  else none

/-- A reply on the record from which the body was built, for the id and from
    the backend. -/
def BuiltFrom (log : List Event) (backend : BackendUrlInfo) (id body : Bytes) : Prop :=
  ∃ res m, Event.replied backend id res m ∈ log ∧ res.result = 200 ∧ buildBody library id res m = some (.ok body)

/-- The pending calls are for what their requests asked, and what the cache
    holds was built from a reply for the id and the country of its key. -/
structure Traced (s : Service cache) (log : List Event) : Prop where
  calls : ∀ b ∈ s.calls, b.2.id = idOf b.1 ∧ b.2.cache_key = cacheKey (idOf b.1) (countryOf b.1) ∧
    config.country_backend_map.find (countryOf b.1) = some b.2.backend
  held : ∀ key body, cache.Holds s.store key body → ∃ id country_iso backend, key = cacheKey id country_iso ∧
    config.country_backend_map.find country_iso = some backend ∧ BuiltFrom library log backend id body

end

variable {cache : CacheInterface} {config : AppConfig} {library : JsonLibrary}

theorem BuiltFrom.append {log more : List Event} {backend : BackendUrlInfo} {id body : Bytes}
    (built : BuiltFrom library log backend id body) : BuiltFrom library (log ++ more) backend id body := by
  obtain ⟨res,m,replied,found,body⟩ := built
  exact ⟨res,m,List.mem_append_left more replied,found,body⟩

/-! ### One step -/

theorem lookup_eq_none {store : cache.Store} {req : Request} {m : Moment} (uncached : Uncached cache store req m) :
    lookup cache store req m = none := by
  unfold lookup
  rw [if_neg (not_or.mpr ⟨uncached.id,uncached.country⟩)]
  exact uncached.missed

/-- The cache answers a request, or it is not answered with 200 at once. -/
theorem processCompanyRequest_cases (config : AppConfig) (store : cache.Store) (breaker : CircuitBreaker)
    (starts : Bool) (req : Request) (request_received_time : Int) (m : Moment) :
    (∃ body, lookup cache store req m = some body ∧
      processCompanyRequest cache config store breaker starts req request_received_time m =
        (.answered (some (cachedResponse body)),
          (cache.get store (cacheKey (idOf req) (countryOf req)) m.steady).2)) ∨
    (lookup cache store req m = none ∧ ∃ outcome store',
      processCompanyRequest cache config store breaker starts req request_received_time m = (outcome,store') ∧
      (store' = store ∨ store' = (cache.get store (cacheKey (idOf req) (countryOf req)) m.steady).2) ∧
      (∀ r, outcome = .answered (some r) → r.result ≠ 200)) := by
  have handled := processCompanyRequest_handled config store breaker starts req request_received_time m
  have stored := processCompanyRequest_store config store breaker starts req request_received_time m
  generalize processCompanyRequest cache config store breaker starts req request_received_time m = result at *
  obtain ⟨outcome,store'⟩ := result
  simp only at handled stored
  have kept : store' = store ∨ store' = (cache.get store (cacheKey (idOf req) (countryOf req)) m.steady).2 := by
    split at stored
    · exact .inl stored
    · exact .inr stored
  -- a request that is not in the cache is not answered with 200 at once
  have missed : Uncached cache store req m → (∀ r, outcome = .answered (some r) → r.result ≠ 200) →
      lookup cache store req m = none ∧ ∃ outcome' store'', (outcome,store') = (outcome',store'') ∧
        (store'' = store ∨ store'' = (cache.get store (cacheKey (idOf req) (countryOf req)) m.steady).2) ∧
        (∀ r, outcome' = .answered (some r) → r.result ≠ 200) := by
    intro uncached plain
    exact ⟨lookup_eq_none uncached,outcome,store',rfl,kept,plain⟩
  cases handled with
  | incomplete missing =>
    refine .inr ⟨if_pos missing,_,store',rfl,kept,?_⟩
    rintro r ⟨⟩
    simp
  | cached body id country got =>
    have present : ¬ (idOf req = [] ∨ countryOf req = []) := not_or.mpr ⟨id,country⟩
    rw [if_neg present] at stored
    exact .inl ⟨body,by rw [lookup,if_neg present,got],by rw [stored]⟩
  | dropped uncached => exact .inr (missed uncached (by simp))
  | late uncached => exact .inr (missed uncached (by rintro r ⟨⟩; simp))
  | unconfigured uncached => exact .inr (missed uncached (by rintro r ⟨⟩; simp))
  | tripped backend uncached => exact .inr (missed uncached (by rintro r ⟨⟩; simp))
  | thrown backend reaches => exact .inr (missed reaches.uncached (by rintro r ⟨⟩; simp))
  | called backend reaches => exact .inr (missed reaches.uncached (by simp))

/-- A completed call gives a body to the client, which the cache takes up under
    the key of the call, or the client does not get a 200. -/
theorem on_backend_complete_cases (config : AppConfig) (library : JsonLibrary) (call : BackendCall) (res : Response)
    (ec : Option ErrorCode) (m : Moment) (store : cache.Store) (breaker : CircuitBreaker) :
    (∃ body, fetched library call res ec m = some body ∧
      on_backend_complete cache config library call res ec m store breaker =
        (.ok (reply call.beast_res_cb 200 body),cache.set store call.cache_key body (3600 * 24) m.steady,breaker)) ∨
    (fetched library call res ec m = none ∧ ∃ result breaker',
      on_backend_complete cache config library call res ec m store breaker = (result,store,breaker') ∧
      ∀ r, result = .ok r → r.result ≠ 200) := by
  unfold on_backend_complete fetched
  by_cases broken : failed ec = true
  · simp only [broken,↓reduceIte,Bool.true_eq_false,false_and]
    refine .inr ⟨trivial,_,_,rfl,?_⟩
    rintro r ⟨⟩
    simp
  · simp only [Bool.not_eq_true] at broken
    by_cases found : res.result = 200
    · simp only [broken,found,Bool.false_eq_true,↓reduceIte,and_self]
      cases built : buildBody library call.id res m with
      | none =>
        refine .inr ⟨rfl,_,_,rfl,?_⟩
        rintro r ⟨⟩
        simp
      | some result =>
        cases result with
        | ok body => exact .inl ⟨body,rfl,rfl⟩
        | error e =>
          refine .inr ⟨rfl,.error e,breaker,rfl,?_⟩
          intro r wrong
          cases wrong
    · simp only [broken,found,Bool.false_eq_true,↓reduceIte,and_false]
      refine .inr ⟨trivial,?_⟩
      split
      · exact ⟨_,_,rfl,by rintro r ⟨⟩; simp⟩
      · split
        · exact ⟨_,_,rfl,by rintro r ⟨⟩; simp⟩
        · exact ⟨_,_,rfl,by rintro r ⟨⟩; simp⟩

section
variable (cache config library)

/-- The body that a step gives to a client with status 200: the cache's, or the
    one built from the reply that completes a call. -/
def served (s : Service cache) : Action → Option (Request × Bytes × Moment)
  | .request req _ _ m => (lookup cache s.store req m).map fun body => (req,body,m)
  | .complete position res ec m =>
    match s.calls[position]? with
    | none => none
    | some (req,call) => (fetched library call res ec m).map fun body => (req,body,m)

/-- Everything a step can do. -/
inductive Taken (s : Service cache) : Action → Service cache → List Event → Prop
  | hit (req : Request) (request_received_time : Int) (starts : Bool) (m : Moment) (body : Bytes) :
      lookup cache s.store req m = some body →
      Taken s (.request req request_received_time starts m)
        { s with store := (cache.get s.store (cacheKey (idOf req) (countryOf req)) m.steady).2 }
        [.sent req (some (cachedResponse body)) m]
  | answered (req : Request) (request_received_time : Int) (starts : Bool) (m : Moment)
      (opt_res : Option Response) (store : cache.Store) :
      lookup cache s.store req m = none → (∀ r, opt_res = some r → r.result ≠ 200) →
      (store = s.store ∨ store = (cache.get s.store (cacheKey (idOf req) (countryOf req)) m.steady).2) →
      Taken s (.request req request_received_time starts m) { s with store := store } [.sent req opt_res m]
  | calling (req : Request) (request_received_time : Int) (starts : Bool) (m : Moment) (call : BackendCall)
      (store : cache.Store) :
      lookup cache s.store req m = none → call.id = idOf req →
      call.cache_key = cacheKey (idOf req) (countryOf req) →
      config.country_backend_map.find (countryOf req) = some call.backend →
      (store = s.store ∨ store = (cache.get s.store (cacheKey (idOf req) (countryOf req)) m.steady).2) →
      Taken s (.request req request_received_time starts m) { s with store := store, calls := s.calls ++ [(req,call)] }
        [.called req call.backend]
  | fetched (position : Nat) (res : Response) (ec : Option ErrorCode) (m : Moment) (req : Request)
      (call : BackendCall) (body : Bytes) :
      s.calls[position]? = some (req,call) → fetched library call res ec m = some body →
      Taken s (.complete position res ec m)
        ⟨cache.set s.store call.cache_key body (3600 * 24) m.steady,s.breaker,s.calls.eraseIdx position⟩
        [.replied call.backend call.id res m,.sent req (some (reply call.beast_res_cb 200 body)) m]
  | refused (position : Nat) (res : Response) (ec : Option ErrorCode) (m : Moment) (req : Request)
      (call : BackendCall) (breaker : CircuitBreaker) (replied : List Event) (last : Event) :
      s.calls[position]? = some (req,call) → fetched library call res ec m = none →
      (replied = [] ∨ replied = [.replied call.backend call.id res m]) →
      ((∃ r, last = .sent req (some r) m ∧ r.result ≠ 200) ∨ ∃ e, last = .lost req e) →
      Taken s (.complete position res ec m) ⟨s.store,breaker,s.calls.eraseIdx position⟩ (replied ++ [last])

end

theorem step_taken {s s' : Service cache} {a : Action} {out : List Event}
    (taken : step cache config library s a = some (s',out)) : Taken cache config library s a s' out := by
  cases a with
  | request req request_received_time starts m =>
    simp only [step] at taken
    rcases processCompanyRequest_cases config s.store s.breaker starts req request_received_time m with
      ⟨body,found,executed⟩ | ⟨missed,outcome,store,executed,stored,plain⟩
    · rw [executed] at taken
      simp only [Option.some.injEq,Prod.mk.injEq] at taken
      obtain ⟨rfl,rfl⟩ := taken
      exact .hit req request_received_time starts m body found
    · rw [executed] at taken
      cases outcome with
      | answered opt_res =>
        simp only [Option.some.injEq,Prod.mk.injEq] at taken
        obtain ⟨rfl,rfl⟩ := taken
        refine .answered req request_received_time starts m opt_res store missed ?_ stored
        rintro r rfl
        exact plain r rfl
      | calling call =>
        simp only [Option.some.injEq,Prod.mk.injEq] at taken
        obtain ⟨rfl,rfl⟩ := taken
        obtain ⟨_,_,id,key,reaches⟩ := calling_iff.mp (congrArg Prod.fst executed)
        exact .calling req request_received_time starts m call store missed id key reaches.configured stored
  | complete position res ec m =>
    simp only [step] at taken
    cases pending : s.calls[position]? with
    | none => simp [pending] at taken
    | some b =>
      obtain ⟨req,call⟩ := b
      simp only [pending] at taken
      rcases on_backend_complete_cases config library call res ec m s.store s.breaker with
        ⟨body,built,executed⟩ | ⟨nothing,result,breaker,executed,plain⟩
      · rw [executed] at taken
        have unbroken : failed ec = false := by
          by_contra broken
          simp [Service.fetched,broken] at built
        simp only [unbroken,Bool.false_eq_true,↓reduceIte,Option.some.injEq,Prod.mk.injEq] at taken
        obtain ⟨rfl,rfl⟩ := taken
        exact .fetched position res ec m req call body pending built
      · rw [executed] at taken
        have shape : (if failed ec = true then [] else [Event.replied call.backend call.id res m]) = [] ∨
            (if failed ec = true then [] else [Event.replied call.backend call.id res m]) =
              [.replied call.backend call.id res m] := by
          split
          · exact .inl rfl
          · exact .inr rfl
        cases result with
        | ok r =>
          simp only [Option.some.injEq,Prod.mk.injEq] at taken
          obtain ⟨rfl,rfl⟩ := taken
          exact .refused position res ec m req call breaker _ _ pending nothing shape (.inl ⟨r,rfl,plain r rfl⟩)
        | error e =>
          simp only [Option.some.injEq,Prod.mk.injEq] at taken
          obtain ⟨rfl,rfl⟩ := taken
          exact .refused position res ec m req call breaker _ _ pending nothing shape (.inr ⟨e,rfl⟩)

/-- A response with status 200 carries the body the step serves. -/
theorem Taken.served_of_sent {s s' : Service cache} {a : Action} {out : List Event}
    (taken : Taken cache config library s a s' out) {req : Request} {r : Response} {m : Moment}
    (sent : Event.sent req (some r) m ∈ out) (found : r.result = 200) :
    served cache library s a = some (req,r.body,m) := by
  cases taken with
  | hit req' received starts m' body looked =>
    simp only [List.mem_singleton,Event.sent.injEq,Option.some.injEq] at sent
    obtain ⟨rfl,rfl,rfl⟩ := sent
    simp [served,looked,cachedResponse]
  | answered req' received starts m' opt_res store missed plain stored =>
    simp only [List.mem_singleton,Event.sent.injEq] at sent
    obtain ⟨rfl,rfl,rfl⟩ := sent
    exact absurd found (plain r rfl)
  | calling req' received starts m' call store missed id key configured stored => simp at sent
  | fetched position res ec m' req' call body pending built =>
    simp only [List.mem_cons,reduceCtorEq,Event.sent.injEq,Option.some.injEq,List.not_mem_nil,or_false,
      false_or] at sent
    obtain ⟨rfl,rfl,rfl⟩ := sent
    simp [served,pending,built]
  | refused position res ec m' req' call breaker replied last pending nothing shape end_ =>
    have isLast : Event.sent req (some r) m = last := by
      rcases shape with rfl | rfl
      · simpa using sent
      · simpa using sent
    rcases end_ with ⟨r',rfl,plain⟩ | ⟨e,rfl⟩
    · simp only [Event.sent.injEq,Option.some.injEq] at isLast
      obtain ⟨_,rfl,_⟩ := isLast
      exact absurd found plain
    · cases isLast

/-! ### Whole runs -/

/-- What is fetched was built from a reply with status 200. -/
theorem fetched_eq_some {call : BackendCall} {res : Response} {ec : Option ErrorCode} {m : Moment} {body : Bytes}
    (built : fetched library call res ec m = some body) :
    res.result = 200 ∧ buildBody library call.id res m = some (.ok body) := by
  unfold fetched at built
  split at built
  · rename_i fine
    split at built
    · rename_i text wrote
      simp only [Option.some.injEq] at built
      subst built
      exact ⟨fine.2,wrote⟩
    · cases built
  · cases built

/-- The cache answers a request with what it holds for the request's key. -/
theorem holds_of_lookup {store : cache.Store} {req : Request} {m : Moment} {body : Bytes}
    (looked : lookup cache store req m = some body) :
    cache.Holds store (cacheKey (idOf req) (countryOf req)) body := by
  unfold lookup at looked
  split at looked
  · cases looked
  · exact cache.holds_of_get looked

/-- A look-up adds nothing to what the cache holds. -/
theorem holds_after_get {store store' : cache.Store} {k : Bytes} {now : Int}
    (stored : store' = store ∨ store' = (cache.get store k now).2) {key body : Bytes}
    (held : cache.Holds store' key body) : cache.Holds store key body := by
  rcases stored with rfl | rfl
  · exact held
  · exact cache.holds_get held

theorem traced_step {s s' : Service cache} {a : Action} {log out : List Event}
    (traced : Traced cache config library s log) (taken : Taken cache config library s a s' out) :
    Traced cache config library s' (log ++ out) := by
  have earlier : ∀ key body, cache.Holds s.store key body → ∃ id country_iso backend,
      key = cacheKey id country_iso ∧ config.country_backend_map.find country_iso = some backend ∧
      BuiltFrom library (log ++ out) backend id body := by
    intro key body held
    obtain ⟨id,country_iso,backend,split,configured,built⟩ := traced.held key body held
    exact ⟨id,country_iso,backend,split,configured,built.append⟩
  cases taken with
  | hit req received starts m body looked =>
    refine ⟨traced.calls,?_⟩
    intro key body held
    exact earlier key body (cache.holds_get held)
  | answered req received starts m opt_res store missed plain stored =>
    refine ⟨traced.calls,?_⟩
    intro key body held
    exact earlier key body (holds_after_get stored held)
  | calling req received starts m call store missed id key configured stored =>
    refine ⟨?_,?_⟩
    · intro b member
      rcases List.mem_append.mp member with old | new
      · exact traced.calls b old
      · rw [List.mem_singleton.mp new]
        exact ⟨id,key,configured⟩
    · intro key body held
      exact earlier key body (holds_after_get stored held)
  | fetched position res ec m req call body pending built =>
    obtain ⟨id,key,configured⟩ := traced.calls (req,call) (List.mem_of_getElem? pending)
    obtain ⟨found,wrote⟩ := fetched_eq_some built
    refine ⟨?_,?_⟩
    · intro b member
      exact traced.calls b (List.mem_of_mem_eraseIdx member)
    · intro key' body' held
      rcases cache.holds_set held with ⟨rfl,rfl⟩ | old
      · exact ⟨idOf req,countryOf req,call.backend,key,configured,res,m,by simp [← id],found,by rw [← id]; exact wrote⟩
      · exact earlier key' body' old
  | refused position res ec m req call breaker replied last pending nothing shape end_ =>
    refine ⟨?_,earlier⟩
    intro b member
    exact traced.calls b (List.mem_of_mem_eraseIdx member)

theorem traced_run {actions : List Action} {s : Service cache} {log : List Event}
    (run : Runs.Run (step cache config library) (start cache) actions s log) :
    Traced cache config library s log := by
  refine run.invariant (Traced cache config library) ⟨by simp [start],?_⟩ ?_
  · intro key body held
    exact absurd held (cache.holds_empty key body)
  · intro s log a s' out traced taken
    exact traced_step traced (step_taken taken)

/-- The body of a response with status 200 to the request was built from a
    successful reply, for the id of the request, of the backend configured for
    its country; and it is a company object with that id. -/
def Genuine (config : AppConfig) (library : JsonLibrary) (log : List Event) (req : Request) (body : Bytes) : Prop :=
  (∃ backend, config.country_backend_map.find (countryOf req) = some backend ∧
    BuiltFrom library log backend (idOf req) body) ∧
  ∃ name active active_until,
    library.dump (CompanyInfo.companyJson (idOf req) name active active_until) = some body

/-- A built body is a company object with the id. -/
theorem buildBody_company {id : Bytes} {res : Response} {m : Moment} {body : Bytes}
    (built : buildBody library id res m = some (.ok body)) :
    ∃ name active active_until, library.dump (CompanyInfo.companyJson id name active active_until) = some body := by
  obtain ⟨sameId,_,versioned⟩ := CompanyInfo.parseBackendResponse_spec library res id
  obtain ⟨o,parsed,constructed,wrote⟩ := buildBody_eq_ok built
  obtain ⟨active,rfl⟩ := CompanyInfo.constructJson_shape (versioned parsed) constructed
  rw [sameId] at wrote
  exact ⟨_,_,_,wrote⟩

theorem BuiltFrom.genuine {log : List Event} {req : Request} {backend : BackendUrlInfo} {body : Bytes}
    (configured : config.country_backend_map.find (countryOf req) = some backend)
    (built : BuiltFrom library log backend (idOf req) body) : Genuine config library log req body := by
  obtain ⟨res,m,replied,found,wrote⟩ := built
  exact ⟨⟨backend,configured,res,m,replied,found,wrote⟩,buildBody_company wrote⟩

/-- The countries of the command line hold no colon. -/
theorem colon_not_country {country_iso : Bytes} (code : Configuration.IsCountry country_iso) : 58 ∉ country_iso := by
  intro member
  have upper := code.2 58 member
  revert upper
  decide

/-- The key of a request whose country holds no colon is the key of that id and
    that country only. -/
theorem cacheKey_injective {id id' country_iso country_iso' : Bytes} (plain : 58 ∉ country_iso)
    (plain' : 58 ∉ country_iso') (same : cacheKey id country_iso = cacheKey id' country_iso') :
    id = id' ∧ country_iso = country_iso' := join_injective plain plain' same

/-- What a step serves to a request is genuine, unless the request's country
    holds a colon and the cache answers it. -/
theorem served_genuine {s s' : Service cache} {a : Action} {log out : List Event}
    (countries : ∀ b ∈ config.country_backend_map, Configuration.IsCountry b.1)
    (traced : Traced cache config library s log) (taken : Taken cache config library s a s' out)
    (plain : ∀ req received starts m, a = .request req received starts m → lookup cache s.store req m ≠ none →
      58 ∉ countryOf req)
    {req : Request} {body : Bytes} {m : Moment} (served : served cache library s a = some (req,body,m)) :
    Genuine config library (log ++ out) req body := by
  cases taken with
  | hit req' received starts m' body' looked =>
    simp only [Service.served,looked,Option.map_some,Option.some.injEq,Prod.mk.injEq] at served
    obtain ⟨rfl,rfl,rfl⟩ := served
    have unjoined := plain req' received starts m' rfl (by simp [looked])
    obtain ⟨id,country_iso,backend,split,configured,built⟩ := traced.held _ _ (holds_of_lookup looked)
    have code : Configuration.IsCountry country_iso := countries _ (OrderedMap.mem_of_find configured)
    obtain ⟨sameId,sameCountry⟩ := cacheKey_injective unjoined (colon_not_country code) split
    subst sameId
    rw [← sameCountry] at configured
    exact BuiltFrom.genuine configured built.append
  | answered req' received starts m' opt_res store missed _ stored =>
    simp [Service.served,missed] at served
  | calling req' received starts m' call store missed id key configured stored =>
    simp [Service.served,missed] at served
  | fetched position res ec m' req' call body' pending built =>
    simp only [Service.served,pending,built,Option.map_some,Option.some.injEq,Prod.mk.injEq] at served
    obtain ⟨rfl,rfl,rfl⟩ := served
    obtain ⟨id,key,configured⟩ := traced.calls (req',call) (List.mem_of_getElem? pending)
    obtain ⟨found,wrote⟩ := fetched_eq_some built
    exact BuiltFrom.genuine configured ⟨res,m',by simp [← id],found,by rw [← id]; exact wrote⟩
  | refused position res ec m' req' call breaker replied last pending nothing shape end_ =>
    simp [Service.served,pending,nothing] at served

/-- A request that the cache answers is answered with what it holds. -/
theorem step_hit {s : Service cache} {req : Request} {m : Moment} {body : Bytes}
    (looked : lookup cache s.store req m = some body) (request_received_time : Int) (starts : Bool) :
    ∃ s', step cache config library s (.request req request_received_time starts m) =
      some (s',[.sent req (some (cachedResponse body)) m]) := by
  rcases processCompanyRequest_cases config s.store s.breaker starts req request_received_time m with
    ⟨body',found,executed⟩ | ⟨missed,_⟩
  · rw [looked,Option.some.injEq] at found
    subst found
    exact ⟨_,by simp only [step,executed]; rfl⟩
  · rw [looked] at missed
    cases missed

/-- The configuration that a command line makes of other settings. -/
def configure (startupArguments : OrderedMap Bytes Bytes) (settings : AppConfig) : AppConfig :=
  Configuration.loadCountries startupArguments { settings with country_backend_map := [] }

/-- In a run from an empty cache all responses with status 200 are genuine
    exactly when the cache never answers a request whose country holds a
    colon. -/
theorem served_genuine_iff (cache : CacheInterface) (library : JsonLibrary)
    (startupArguments : OrderedMap Bytes Bytes) (settings : AppConfig) (actions : List Action) :
    (∀ s log a s' out,
      Runs.Takes (step cache (configure startupArguments settings) library) (start cache) actions s log a →
      step cache (configure startupArguments settings) library s a = some (s',out) →
      ∀ req r m, Event.sent req (some r) m ∈ out → r.result = 200 →
        Genuine (configure startupArguments settings) library (log ++ out) req r.body) ↔
    (∀ s log req request_received_time starts m,
      Runs.Takes (step cache (configure startupArguments settings) library) (start cache) actions s log
        (.request req request_received_time starts m) →
      ¬ (58 ∈ countryOf req ∧ lookup cache s.store req m ≠ none)) := by
  have countries : ∀ b ∈ (configure startupArguments settings).country_backend_map, Configuration.IsCountry b.1 := by
    refine Configuration.loadCountries_keys ?_ startupArguments
    intro b member
    cases member
  constructor
  · rintro genuine s log req received starts m takes ⟨colon,answered⟩
    obtain ⟨body,looked⟩ := Option.ne_none_iff_exists'.mp answered
    obtain ⟨s',executed⟩ := step_hit looked received starts
    obtain ⟨⟨backend,configured,_⟩,_⟩ := genuine s log _ s' _ takes executed req _ m
      (List.mem_singleton_self _) rfl
    exact colon_not_country (countries _ (OrderedMap.mem_of_find configured)) colon
  · intro plain s log a s' out takes executed req r m sent found
    obtain ⟨before,after,split,run⟩ := takes
    have taken := step_taken executed
    refine served_genuine countries (traced_run run) taken ?_ (taken.served_of_sent sent found)
    rintro req' received starts m' rfl answered colon
    exact plain s log req' received starts m' ⟨before,after,split,run⟩ ⟨colon,answered⟩

/-! ### A request answered from another company's entry -/

def usArguments : OrderedMap Bytes Bytes := [(lit "us",lit "http://us:9001")]

/-- The request for an id that holds a colon. -/
def colonId : Request := { Request.empty with target := lit "/company?id=a:B&country_iso=us" }

/-- The request for the id up to the colon, with the rest of it in the country. -/
def colonCountry : Request := { Request.empty with target := lit "/company?id=a&country_iso=b:us" }

def namedReply : Response :=
  { Response.empty with
    content_type := some (lit "application/x-company-v2")
    body := lit "\x7b\"company_name\":\"A\",\"tin\":\"7\"\x7d" }

def namedLibrary : JsonLibrary :=
  .tabled [(namedReply.body,[(lit "company_name",.string (lit "A")),(lit "tin",.string (lit "7"))])]

/-- The two requests have the same key; the second is for a country that no one
    configured, and it is answered with the company of the first. -/
theorem colon_request_served : ¬ (∀ s log a s' out,
    Runs.Takes (step .everlasting (configure usArguments {}) namedLibrary) (start .everlasting)
      [.request colonId 0 true epoch,.complete 0 namedReply none epoch,.request colonCountry 0 true epoch] s log a →
    step .everlasting (configure usArguments {}) namedLibrary s a = some (s',out) →
    ∀ req r m, Event.sent req (some r) m ∈ out → r.result = 200 →
      Genuine (configure usArguments {}) namedLibrary (log ++ out) req r.body) := by
  intro genuine
  have executed : (Runs.exec (step .everlasting (configure usArguments {}) namedLibrary) (start .everlasting)
      [.request colonId 0 true epoch,.complete 0 namedReply none epoch]).isSome = true := by decide +kernel
  have run := Runs.Run.of_isSome executed
  have answered : (lookup .everlasting (((Runs.exec (step .everlasting (configure usArguments {}) namedLibrary)
      (start .everlasting) [.request colonId 0 true epoch,.complete 0 namedReply none epoch]).getD
        (start .everlasting,[])).1).store colonCountry epoch).isSome = true := by decide +kernel
  obtain ⟨body,looked⟩ := Option.isSome_iff_exists.mp answered
  obtain ⟨s',hit⟩ := step_hit looked 0 true
  obtain ⟨⟨backend,configured,_⟩,_⟩ := genuine _ _ _ s' _ ⟨_,[],rfl,run⟩ hit colonCountry _ epoch
    (List.mem_singleton_self _) rfl
  have unconfigured : (configure usArguments {}).country_backend_map.find (countryOf colonCountry) = none := by
    decide +kernel
  rw [unconfigured] at configured
  cases configured

end Service
end Facade
