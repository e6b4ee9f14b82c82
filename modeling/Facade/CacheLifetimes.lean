import Facade.BreakerRuns
import Facade.IntegerSettings
import Facade.RedisCache

/-!
How long the service answers a request with a body it has cached. The completion
handler of src/core/Backendify.cpp gives `cache_->set` a lifetime of its own, a day,
so neither the lifetime that the cache in memory is constructed with nor that of the
Redis configuration is ever used (`lifetime_kept_iff`).

`Timed` is what a cache promises about time, whatever it is made of. The in-memory
cache keeps the promise (`timed_inMemory`), and so does a connected Redis cache
(`timed_redis`).
-/
namespace Facade
open Strings Http Query Backendify

/-- What a cache promises while it is up: an entry is answered for the time it was set
    for, to the same key; a look-up changes no later answer, and neither does storing
    under a key of another slot, but that the entry may have to leave for it. -/
structure CacheInterface.Timed (cache : CacheInterface) (slot : Bytes → Bytes) (Up : cache.Store → Prop) : Prop where
  up_get : ∀ {c key now}, Up c → Up (cache.get c key now).2
  up_set : ∀ {c key value ttl now}, Up c → Up (cache.set c key value ttl now)
  get_set : ∀ {c key value ttl t now}, Up c → 0 ∉ value → 0 < ttl →
    (cache.get (cache.set c key value ttl t) key now).1 = if now < t + ttl * 1000000000 then some value else none
  get_get : ∀ {c key key' t now}, Up c → t ≤ now → (cache.get (cache.get c key' t).2 key now).1 = (cache.get c key now).1
  get_set_sub : ∀ {c key key' value' ttl t now value}, Up c → slot key' ≠ slot key →
    (cache.get (cache.set c key' value' ttl t) key now).1 = some value → (cache.get c key now).1 = some value
  get_set_ne : ∀ {c key key' value' ttl t now value}, Up c → slot key' ≠ slot key →
    cache.Holds (cache.set c key' value' ttl t) key value →
    (cache.get (cache.set c key' value' ttl t) key now).1 = (cache.get c key now).1

namespace InMemoryCache
open Recency

/-- A sound cache answers with the value at the time of the look-up. -/
theorem Sound.get_eq {c : Sound} {s : Store Bytes Bytes Int} (r : Refines c.val s) (key : Bytes) (now : Int) :
    (c.get key now).1 = live key now s :=
  (get_refines r key now).1.trans (read_value r.nodup key now)

/-- The in-memory cache keeps its entries for their time, whatever its default is. -/
theorem timed_inMemory (default_ttl_seconds : Int) (max_size : Nat) :
    (interface default_ttl_seconds max_size).Timed id fun _ => True where
  up_get _ := trivial
  up_set _ := trivial
  get_set := by
    intro c key value ttl t now _ _ lasting
    obtain ⟨s,r⟩ := c.property
    have written := Sound.set_refines r key value ttl t
    show ((c.set key value ttl t).get key now).1 = _
    rw [Sound.get_eq written,write,live_cons,if_pos rfl,expiryOf,if_pos lasting]
  get_get := by
    intro c key key' t now _ order
    obtain ⟨s,r⟩ := c.property
    obtain ⟨-,r'⟩ := Sound.get_refines r key' t
    show (((c.get key' t).2).get key now).1 = (c.get key now).1
    rw [Sound.get_eq r',Sound.get_eq r,live_read r.nodup key' key order]
  get_set_sub := by
    intro c key key' value' ttl t now value _ apart answered
    obtain ⟨s,r⟩ := c.property
    have written := Sound.set_refines r key' value' ttl t
    change ((c.set key' value' ttl t).get key now).1 = some value at answered
    show (c.get key now).1 = some value
    rw [Sound.get_eq written] at answered
    rw [Sound.get_eq r,← answered]
    obtain ⟨e,found,-⟩ := Option.bind_eq_some_iff.mp answered
    exact (live_write_of_mem apart (mem_keys.mpr ⟨e,find_some found⟩) now).symm
  get_set_ne := by
    intro c key key' value' ttl t now value _ apart held
    obtain ⟨s,r⟩ := c.property
    have written := Sound.set_refines r key' value' ttl t
    obtain ⟨e,member,same,-⟩ := (holds_iff written key value).mp held
    show ((c.set key' value' ttl t).get key now).1 = (c.get key now).1
    rw [Sound.get_eq written,Sound.get_eq r]
    exact live_write_of_mem apart (mem_keys.mpr ⟨e,member,same⟩) now

end InMemoryCache

namespace RedisCache
open Twins

theorem get_set_apart {c : RedisCache} (connected : c.connected = true) {key key' : Bytes}
    (apart : cString key' ≠ cString key) (value' : Bytes) (ttl t now : Int) :
    ((c.set key' value' ttl t).2.get key now).1 = (c.get key now).1 := by
  rw [get_connected ((set_connection c key' value' ttl t).trans connected),set_connected connected,get_connected connected,
    visible_assign_ne (Ne.symm apart)]

/-- A connected Redis cache keeps its entries for their time; it tells keys apart up to
    their first NUL. -/
theorem timed_redis : interface.Timed cString fun c => c.connected = true where
  up_get := by
    intro c key now connected
    exact (get_connection c key now).trans connected
  up_set := by
    intro c key value ttl now connected
    exact (set_connection c key value ttl now).trans connected
  get_set := by
    intro c key value ttl t now connected whole lasting
    have uncut : cString value = value := List.takeWhile_eq_self_iff.mpr fun b inside => by
      simpa using fun nul : b = 0 => whole (nul ▸ inside)
    show ((c.set key value ttl t).2.get key now).1 = _
    rw [get_connected ((set_connection c key value ttl t).trans connected),set_connected connected,visible_assign_self,
      uncut,if_pos lasting]
    simp
  get_get := by
    intro c key key' t now connected _
    show (((c.get key' t).2).get key now).1 = (c.get key now).1
    rw [get_connected connected key']
  get_set_sub := by
    intro c key key' value' ttl t now value connected apart answered
    change ((c.set key' value' ttl t).2.get key now).1 = some value at answered
    rwa [get_set_apart connected apart] at answered
  get_set_ne := by
    intro c key key' value' ttl t now value connected apart _
    exact get_set_apart connected apart value' ttl t now

end RedisCache

namespace Service

/-- From `t` on the clock does not go back over the actions, nor until `now`. -/
def Ticking (t : Int) (actions : List Action) (now : Int) : Prop :=
  (t :: (actions.map fun a => a.moment.steady) ++ [now]).Pairwise (· ≤ ·)

section
variable (cache : CacheInterface) (config : AppConfig) (library : JsonLibrary)

/-- The request is answered from the cache with the body. -/
def Answers (s : Service cache) (req : Request) (m : Moment) (body : Bytes) : Prop :=
  ∀ request_received_time starts, ∃ s', step cache config library s (.request req request_received_time starts m) =
    some (s',[.sent req (some (cachedResponse body)) m])

/-- No call that completes in the run stores a body in the slot of the key. -/
def NotReplaced (slot : Bytes → Bytes) (key : Bytes) (s : Service cache) (actions : List Action) : Prop :=
  ∀ d log position res ec m req call,
    Runs.Takes (step cache config library) s actions d log (.complete position res ec m) →
    d.calls[position]? = some (req,call) → fetched library call res ec m ≠ none → slot call.cache_key ≠ slot key

/-- No call that completes in the run makes the cache give up the body. -/
def NotEvicted (key body : Bytes) (s : Service cache) (actions : List Action) : Prop :=
  ∀ d log position res ec m d' out,
    Runs.Takes (step cache config library) s actions d log (.complete position res ec m) →
    step cache config library d (.complete position res ec m) = some (d',out) →
    cache.Holds d.store key body → cache.Holds d'.store key body

/-- In every run on which nothing replaces it, the body cached at `t` for a request
    answers requests for the same company within so many seconds, unless it is evicted,
    and no request after that. -/
def LivesFor (slot : Bytes → Bytes) (ttl : Int) (s : Service cache) (req : Request) (body : Bytes) (t : Int) : Prop :=
  ∀ actions d log, Runs.Run (step cache config library) s actions d log →
    NotReplaced cache config library slot (cacheKey (idOf req) (countryOf req)) s actions →
    ∀ req' m, idOf req' = idOf req → countryOf req' = countryOf req → Ticking t actions m.steady →
      (NotEvicted cache config library (cacheKey (idOf req) (countryOf req)) body s actions →
        m.steady < t + ttl * 1000000000 → Answers cache config library d req' m body) ∧
      (t + ttl * 1000000000 ≤ m.steady → ¬ Answers cache config library d req' m body)

end

variable {cache : CacheInterface} {config : AppConfig} {library : JsonLibrary}

theorem Ticking.last {t now : Int} {actions : List Action} {a : Action} (ticking : Ticking t (actions ++ [a]) now) :
    Ticking t actions a.moment.steady ∧ Ticking t actions now ∧ a.moment.steady ≤ now := by
  unfold Ticking at *
  simp only [List.map_append,List.map_cons,List.map_nil] at ticking
  obtain ⟨before,-,after⟩ := List.pairwise_append.mp ticking
  refine ⟨by simpa using before,ticking.sublist ?_,after a.moment.steady (by simp) now (by simp)⟩
  exact (List.cons_sublist_cons.mpr (List.sublist_append_left _ _)).append_right _

theorem answers_iff {s : Service cache} {req : Request} {m : Moment} {body : Bytes} :
    Answers cache config library s req m body ↔ lookup cache s.store req m = some body := by
  constructor
  · intro answers
    obtain ⟨s',executed⟩ := answers 0 true
    have sent := (step_taken executed).served_of_sent (List.mem_singleton_self _) rfl
    obtain ⟨found,looked,same⟩ := Option.map_eq_some_iff.mp sent
    simp only [Prod.mk.injEq] at same
    rw [looked,same.2.1]
    rfl
  · intro looked request_received_time starts
    exact step_hit looked request_received_time starts

/-- What a step does to the cache: it looks up a key, a completed call stores its body
    for a day, or nothing. -/
theorem step_store {s s' : Service cache} {a : Action} {out : List Event}
    (taken : step cache config library s a = some (s',out)) :
    s'.store = s.store ∨ (∃ key, s'.store = (cache.get s.store key a.moment.steady).2) ∨
      ∃ position res ec m req call body, a = .complete position res ec m ∧ s.calls[position]? = some (req,call) ∧
        fetched library call res ec m = some body ∧
        s'.store = cache.set s.store call.cache_key body (3600 * 24) a.moment.steady := by
  have looked : ∀ {store : cache.Store} {key : Bytes} {now : Int}, store = s.store ∨ store = (cache.get s.store key now).2 →
      store = s.store ∨ (∃ key, store = (cache.get s.store key now).2) := by
    rintro store key now (same | got)
    · exact .inl same
    · exact .inr ⟨key,got⟩
  cases step_taken taken with
  | hit req received starts m body found => exact .inr (.inl ⟨_,rfl⟩)
  | answered req received starts m opt_res store missed plain stored =>
    rcases looked stored with same | got
    · exact .inl same
    · exact .inr (.inl got)
  | calling req received starts m call store missed id key configured stored =>
    rcases looked stored with same | got
    · exact .inl same
    · exact .inr (.inl got)
  | fetched position res ec m req call body pending built =>
    exact .inr (.inr ⟨position,res,ec,m,req,call,body,rfl,pending,built,rfl⟩)
  | refused position res ec m req call breaker replied last pending nothing shape end_ => exact .inl rfl

/-- What stays true of an entry while nothing replaces it: it is not answered from its
    deadline on and, while nothing evicts it, it is answered until then. -/
theorem entry_run {slot : Bytes → Bytes} {Up : cache.Store → Prop} (timed : cache.Timed slot Up) {s : Service cache}
    (up : Up s.store) {key body : Bytes} {t deadline : Int}
    (fresh : ∀ now, (cache.get s.store key now).1 = if now < deadline then some body else none) {actions : List Action}
    {d : Service cache} {log : List Event} (run : Runs.Run (step cache config library) s actions d log)
    (notReplaced : NotReplaced cache config library slot key s actions) :
    Up d.store ∧ ∀ now, Ticking t actions now → ((cache.get d.store key now).1 = some body → now < deadline) ∧
      (NotEvicted cache config library key body s actions → now < deadline → (cache.get d.store key now).1 = some body) := by
  induction run with
  | start =>
    refine ⟨up,fun now _ => ?_⟩
    rw [fresh now]
    exact ⟨fun answered => by by_contra late; simp [late] at answered,fun _ early => if_pos early⟩
  | @next acts d d' log out a run taken ih =>
    obtain ⟨running,before⟩ := ih fun d log position res ec m req call takes =>
      notReplaced d log position res ec m req call (takes.append [a])
    have here : Runs.Takes (step cache config library) s (acts ++ [a]) d log a := ⟨acts,[],rfl,run⟩
    have earlier : NotEvicted cache config library key body s (acts ++ [a]) →
        NotEvicted cache config library key body s acts := by
      intro kept d log position res ec m d' out takes
      exact kept d log position res ec m d' out (takes.append [a])
    rcases step_store taken with same | ⟨key',got⟩ | ⟨position,res,ec,m,req,call,body',rfl,pending,built,stored⟩
    · rw [same]
      refine ⟨running,fun now ticking => ?_⟩
      obtain ⟨-,past,-⟩ := ticking.last
      obtain ⟨ends,lasts⟩ := before now past
      exact ⟨ends,fun kept early => lasts (earlier kept) early⟩
    · rw [got]
      refine ⟨timed.up_get running,fun now ticking => ?_⟩
      obtain ⟨-,past,order⟩ := ticking.last
      obtain ⟨ends,lasts⟩ := before now past
      rw [timed.get_get running order]
      exact ⟨ends,fun kept early => lasts (earlier kept) early⟩
    · have apart : slot call.cache_key ≠ slot key :=
        notReplaced d log position res ec m req call here pending (by simp [built])
      rw [stored]
      refine ⟨timed.up_set running,fun now ticking => ?_⟩
      obtain ⟨then_,past,order⟩ := ticking.last
      obtain ⟨ends,lasts⟩ := before now past
      refine ⟨fun answered => ends (timed.get_set_sub running apart answered),fun kept early => ?_⟩
      -- at the time of the completion the entry was held, so it still is
      have held := cache.holds_of_get ((before m.steady then_).2 (earlier kept) (by
        show m.steady < deadline
        exact lt_of_le_of_lt order early))
      have stays := kept d log position res ec m d' out here taken held
      rw [stored] at stays
      rw [timed.get_set_ne running apart stays]
      exact lasts (earlier kept) early

/-- The body was just stored for the request, for a day, in a cache that keeps its
    promise. -/
structure JustCached (slot : Bytes → Bytes) (s : Service cache) (req : Request) (body : Bytes) (t : Int) : Prop where
  id : idOf req ≠ []
  country : countryOf req ≠ []
  whole : 0 ∉ body
  stored : ∃ Up store, cache.Timed slot Up ∧ Up store ∧
    s.store = cache.set store (cacheKey (idOf req) (countryOf req)) body (3600 * 24) t

section
variable {slot : Bytes → Bytes} {s : Service cache} {req : Request} {body : Bytes} {t : Int}

theorem JustCached.looks (cached : JustCached slot s req body t) {req' : Request} (sameId : idOf req' = idOf req)
    (sameCountry : countryOf req' = countryOf req) (d : Service cache) (m : Moment) :
    Answers cache config library d req' m body ↔
      (cache.get d.store (cacheKey (idOf req) (countryOf req)) m.steady).1 = some body := by
  rw [answers_iff,lookup,sameId,sameCountry,if_neg (not_or.mpr ⟨cached.id,cached.country⟩)]

/-- The cache answers with the body for a day. -/
theorem JustCached.get (cached : JustCached slot s req body t) (now : Int) :
    (cache.get s.store (cacheKey (idOf req) (countryOf req)) now).1 =
      if now < t + 3600 * 24 * 1000000000 then some body else none := by
  obtain ⟨Up,store,timed,up,stored⟩ := cached.stored
  rw [stored]
  exact timed.get_set up cached.whole (by decide)

theorem JustCached.answers_iff (cached : JustCached slot s req body t) (m : Moment) :
    Answers cache config library s req m body ↔ m.steady < t + 3600 * 24 * 1000000000 := by
  rw [cached.looks rfl rfl,cached.get]
  simp

/-- The lifetime of a body that was stored for a day is the given one exactly when that
    is a day. -/
theorem livesFor_iff (cached : JustCached slot s req body t) (ttl : Int) :
    LivesFor cache config library slot ttl s req body t ↔ ttl = 86400 := by
  constructor
  · intro lives
    have nothing : ∀ (d : Service cache) log a, ¬ Runs.Takes (step cache config library) s [] d log a :=
      fun d log a takes => List.not_mem_nil takes.mem
    -- the same request again, at any later time
    have again : ∀ now, t ≤ now →
        (now < t + ttl * 1000000000 → now < t + 3600 * 24 * 1000000000) ∧
        (t + ttl * 1000000000 ≤ now → ¬ now < t + 3600 * 24 * 1000000000) := by
      intro now order
      obtain ⟨early,late⟩ := lives [] s [] .start (fun d log position res ec m _ _ takes => absurd takes (nothing _ _ _))
        req ⟨now,0,fun _ => 0⟩ rfl rfl (by simp [Ticking,order])
      rw [cached.answers_iff] at early late
      exact ⟨early fun d log position res ec m _ _ takes => absurd takes (nothing _ _ _),late⟩
    have atEnd := (again (t + 3600 * 24 * 1000000000) (by omega)).1
    have longer := again (t + max ttl 0 * 1000000000) (by omega)
    omega
  · rintro rfl actions d log run notReplaced req' m sameId sameCountry ticking
    obtain ⟨Up,store,timed,up,stored⟩ := cached.stored
    have up' : Up s.store := by
      rw [stored]
      exact timed.up_set up
    obtain ⟨-,lifetime⟩ := entry_run timed up' (t := t) cached.get run notReplaced
    obtain ⟨ends,lasts⟩ := lifetime m.steady ticking
    rw [cached.looks sameId sameCountry]
    constructor
    · intro kept early
      exact lasts kept early
    · intro late answered
      have early := ends answered
      omega

end

/-- The pending calls store under the key of their requests, which have both parameters. -/
def Keyed (s : Service cache) : Prop :=
  ∀ b ∈ s.calls, b.2.cache_key = cacheKey (idOf b.1) (countryOf b.1) ∧ idOf b.1 ≠ [] ∧ countryOf b.1 ≠ []

theorem keyed_step {s s' : Service cache} {a : Action} {out : List Event} (keyed : Keyed s)
    (taken : step cache config library s a = some (s',out)) : Keyed s' := by
  cases a with
  | request req request_received_time starts m =>
    simp only [step] at taken
    split at taken
    · cases taken
      exact keyed
    · rename_i call store executed
      cases taken
      obtain ⟨-,-,-,key,reaches⟩ := calling_iff.mp (congrArg Prod.fst executed)
      intro b member
      rcases List.mem_append.mp member with old | new
      · exact keyed b old
      · rw [List.mem_singleton.mp new]
        exact ⟨key,reaches.id,reaches.country⟩
  | complete position res ec m =>
    have fewer : s'.calls = s.calls.eraseIdx position := by
      cases step_taken taken with
      | fetched => rfl
      | refused => rfl
    intro b member
    rw [fewer] at member
    exact keyed b (List.mem_of_mem_eraseIdx member)

end Service

/-! ### The cache that is configured -/

/-- A cache with its first state, by what it tells keys apart, and the lifetime that is
    configured for it, in seconds. -/
structure CacheInUse where
  cache : CacheInterface
  first : cache.Store
  slot : Bytes → Bytes
  ttl : Int

/-- The cache that `initializeCache` gives; `server` is what the Redis server holds
    when the service is started. -/
def cacheInUse (config : AppConfig) (connected : Bool) (server : RedisServer) : CacheInUse :=
  match Configuration.initializeCache config connected with
  | .redis => ⟨RedisCache.interface,⟨true,server⟩,cString,config.redis_ttl.toInt⟩
  | .inMemory c =>
    ⟨InMemoryCache.interface c.default_ttl_seconds c.max_size,
      (InMemoryCache.interface c.default_ttl_seconds c.max_size).empty,id,config.in_memory_cache_ttl.toInt⟩

/-- The service as it is started. -/
def CacheInUse.service (use : CacheInUse) : Service use.cache := ⟨use.first,⟨[]⟩,[]⟩

theorem cacheInUse_timed (config : AppConfig) (connected : Bool) (server : RedisServer) :
    ∃ Up, (cacheInUse config connected server).cache.Timed (cacheInUse config connected server).slot Up ∧
      Up (cacheInUse config connected server).first := by
  unfold cacheInUse
  cases Configuration.initializeCache config connected with
  | redis => exact ⟨_,RedisCache.timed_redis,rfl⟩
  | inMemory c => exact ⟨_,InMemoryCache.timed_inMemory _ _,trivial⟩

/-- The hours that the last usable line of a file gives the cache in use. -/
def lastHours (config : AppConfig) (connected : Bool) (files : Bytes → Option Bytes) : Option Int32 :=
  if config.use_redis && connected then
    Configuration.lastOf (fun | .redis_ttl hours => some hours | _ => none) (Configuration.settingsOf files)
  else Configuration.lastOf (fun | .in_memory_cache_ttl hours => some hours | _ => none) (Configuration.settingsOf files)

/-- A day is configured by 24 hours or by nothing, overflow apart. -/
theorem day_loaded_iff {hardware_concurrency : UInt32} {files : Bytes → Option Bytes}
    {startupArguments : OrderedMap Bytes Bytes} {config : AppConfig}
    (loaded : Configuration.loadConfiguration hardware_concurrency files startupArguments = .ok config)
    (connected : Bool) (server : RedisServer) : (cacheInUse config connected server).ttl = 86400 ↔
      ∀ n, lastHours config connected files = some n → n.toInt % 268435456 = 24 := by
  have seconds : ∀ last : Option Int32, ((last.map (· * 3600)).getD (3600 * 24)).toInt = 86400 ↔
      ∀ n, last = some n → n.toInt % 268435456 = 24 := by
    intro last
    cases last with
    | none => simp
    | some n => simpa using Configuration.day_hours_iff n
  obtain ⟨redis,memory⟩ := Configuration.loaded_hours loaded
  unfold cacheInUse lastHours Configuration.initializeCache
  by_cases shared : (config.use_redis && connected) = true
  · simp only [if_pos shared]
    rw [redis]
    exact seconds _
  · simp only [if_neg shared]
    rw [memory]
    exact seconds _

namespace Service

section
variable {connected : Bool} {server : RedisServer} {s s' : Service (cacheInUse config connected server).cache}
  {position : Nat} {res : Response} {ec : Option ErrorCode} {m : Moment} {req : Request}

theorem justCached_of_handled
    (escapes : ∀ o text, JsonObject.plain o = true → library.dump o = some text → 0 ∉ text) {actions : List Action}
    {log out : List Event} (run : Runs.Run (step (cacheInUse config connected server).cache config library)
      (cacheInUse config connected server).service actions s log)
    (handled : step (cacheInUse config connected server).cache config library s (.complete position res ec m) = some (s',out))
    {r : Response} (sent : Event.sent req (some r) m ∈ out) (success : r.result = 200) :
    JustCached (cacheInUse config connected server).slot s' req r.body m.steady := by
  obtain ⟨Up,timed,up⟩ := cacheInUse_timed config connected server
  generalize cacheInUse config connected server = use at *
  obtain ⟨running,keyed⟩ : Up s.store ∧ Keyed s := by
    refine run.invariant (fun s _ => Up s.store ∧ Keyed s) ⟨up,by simp [Keyed,CacheInUse.service]⟩ ?_
    rintro s log a s' out ⟨running,keyed⟩ taken
    refine ⟨?_,keyed_step keyed taken⟩
    rcases step_store taken with same | ⟨key,got⟩ | ⟨_,_,_,_,_,call,body,_,_,_,stored⟩
    · rwa [same]
    · rw [got]
      exact timed.up_get running
    · rw [stored]
      exact timed.up_set running
  have given := (step_taken handled).served_of_sent sent success
  cases step_taken handled with
  | refused _ _ _ _ req' call breaker replied last pending nothing shape end_ =>
    simp [served,pending,nothing] at given
  | fetched _ _ _ _ req' call body pending built =>
    simp only [served,pending,built,Option.map_some,Option.some.injEq,Prod.mk.injEq,and_true] at given
    obtain ⟨rfl,rfl⟩ := given
    obtain ⟨key,present⟩ := keyed (req',call) (List.mem_of_getElem? pending)
    obtain ⟨name,active,active_until,wrote⟩ := buildBody_company (fetched_eq_some built).2
    have whole := escapes _ _ (CompanyInfo.companyJson_plain call.id name active active_until) wrote
    exact ⟨present.1,present.2,whole,Up,s.store,timed,running,by rw [key]⟩

/-- A completion that serves a request answers it with a 200. -/
theorem handled_of_served {cache : CacheInterface} {s : Service cache} (config : AppConfig)
    (serves : (served cache library s (.complete position res ec m)).map Prod.fst = some req) :
    ∃ s' out r, step cache config library s (.complete position res ec m) = some (s',out) ∧
      Event.sent req (some r) m ∈ out ∧ r.result = 200 := by
  simp only [served] at serves
  cases pending : s.calls[position]? with
  | none => simp [pending] at serves
  | some b =>
    obtain ⟨req',call⟩ := b
    simp only [pending,Option.map_map,Option.map_eq_some_iff,Function.comp_apply] at serves
    obtain ⟨body,built,rfl⟩ := serves
    rcases on_backend_complete_cases config library call res ec m s.store s.breaker with
      ⟨text,-,executed⟩ | ⟨nothing,-⟩
    · have taken : step cache config library s (.complete position res ec m) =
          some (⟨cache.set s.store call.cache_key text (3600 * 24) m.steady,s.breaker,s.calls.eraseIdx position⟩,
            (if failed ec then [] else [.replied call.backend call.id res m]) ++
              [.sent req' (some (reply call.beast_res_cb 200 text)) m]) := by
        simp only [step,pending,executed]
      exact ⟨_,_,reply call.beast_res_cb 200 text,taken,by simp,rfl⟩
    · rw [built] at nothing
      cases nothing

end

/-- Whenever a call completes with a 200, the body lives in the cache for the configured
    time exactly when a day is configured. -/
theorem lifetime_kept_iff (config : AppConfig) (connected : Bool) (server : RedisServer) (library : JsonLibrary)
    (escapes : ∀ o text, JsonObject.plain o = true → library.dump o = some text → 0 ∉ text) {actions : List Action}
    {s s' : Service (cacheInUse config connected server).cache} {log out : List Event}
    (run : Runs.Run (step (cacheInUse config connected server).cache config library)
      (cacheInUse config connected server).service actions s log)
    {position : Nat} {res : Response} {ec : Option ErrorCode} {m : Moment}
    (handled : step (cacheInUse config connected server).cache config library s (.complete position res ec m) = some (s',out))
    {req : Request} {r : Response} (sent : Event.sent req (some r) m ∈ out) (success : r.result = 200) :
    LivesFor (cacheInUse config connected server).cache config library (cacheInUse config connected server).slot
        (cacheInUse config connected server).ttl s' req r.body m.steady ↔
      (cacheInUse config connected server).ttl = 86400 :=
  livesFor_iff (justCached_of_handled escapes run handled sent success) _

theorem tabled_escapes (table : List (Bytes × JsonObject)) (o : JsonObject) (text : Bytes)
    (wrote : (JsonLibrary.tabled table).dump o = some text) : 0 ∉ text := by
  simp only [JsonLibrary.tabled,Option.ite_none_right_eq_some,Option.some.injEq] at wrote
  rw [← wrote.2]
  exact JsonText.zero_notMem_render o

/-- A service is asked for a company for the first time, and its backend replies. -/
theorem first_handled (config : AppConfig) (connected : Bool)
    (serves : ((Runs.exec (step (cacheInUse config connected []).cache config namedLibrary)
      (cacheInUse config connected []).service [.request companyRequest 0 true epoch]).bind fun p =>
        (served (cacheInUse config connected []).cache namedLibrary p.1 (.complete 0 namedReply none epoch)).map
          Prod.fst) = some companyRequest) :
    ∃ s log s' out r, Runs.Run (step (cacheInUse config connected []).cache config namedLibrary)
        (cacheInUse config connected []).service [.request companyRequest 0 true epoch] s log ∧
      step (cacheInUse config connected []).cache config namedLibrary s (.complete 0 namedReply none epoch) =
        some (s',out) ∧
      Event.sent companyRequest (some r) epoch ∈ out ∧ r.result = 200 := by
  obtain ⟨⟨s,log⟩,executed,completes⟩ := Option.bind_eq_some_iff.mp serves
  obtain ⟨s',out,r,handled,sent,success⟩ := handled_of_served config completes
  exact ⟨s,log,s',out,r,Runs.Run.of_exec executed,handled,sent,success⟩

/-- The defaults, without a Redis server. -/
theorem lifetime_kept_iff_default : ∃ s log s' out r,
    Runs.Run (step (cacheInUse usConfig false []).cache usConfig namedLibrary) (cacheInUse usConfig false []).service
      [.request companyRequest 0 true epoch] s log ∧
    step (cacheInUse usConfig false []).cache usConfig namedLibrary s (.complete 0 namedReply none epoch) = some (s',out) ∧
    Event.sent companyRequest (some r) epoch ∈ out ∧
    LivesFor (cacheInUse usConfig false []).cache usConfig namedLibrary (cacheInUse usConfig false []).slot
      (cacheInUse usConfig false []).ttl s' companyRequest r.body 0 := by
  obtain ⟨s,log,s',out,r,run,handled,sent,success⟩ := first_handled usConfig false (by decide +kernel)
  have lives := (lifetime_kept_iff usConfig false [] namedLibrary (fun o text _ => tabled_escapes _ o text) run handled
    sent success).mpr (by decide)
  exact ⟨s,log,s',out,r,run,handled,sent,lives⟩

/-- A file that sets both lifetimes to an hour. -/
def hourly : Bytes → Option Bytes := Configuration.inCurrentDirectory (lit "redis_ttl=1\nin_memory_cache_ttl=1\n")

def hourlyConfig : AppConfig := (Configuration.loadConfiguration 2 hourly usArguments).toOption.getD {}

/-- Two hours later. -/
def laterOn : Moment := ⟨7200000000000,7200000000000,fun _ => 0⟩

/-- Either cache still answers two hours later, with a lifetime of an hour. -/
theorem hour_outlived : Configuration.loadConfiguration 2 hourly usArguments = .ok hourlyConfig ∧
    ∀ connected, (cacheInUse hourlyConfig connected []).ttl = 3600 ∧ ∃ s log s' out r,
      Runs.Run (step (cacheInUse hourlyConfig connected []).cache hourlyConfig namedLibrary)
        (cacheInUse hourlyConfig connected []).service [.request companyRequest 0 true epoch] s log ∧
      step (cacheInUse hourlyConfig connected []).cache hourlyConfig namedLibrary s (.complete 0 namedReply none epoch) =
        some (s',out) ∧ Event.sent companyRequest (some r) epoch ∈ out ∧ r.result = 200 ∧
      Answers (cacheInUse hourlyConfig connected []).cache hourlyConfig namedLibrary s' companyRequest laterOn r.body ∧
      ¬ LivesFor (cacheInUse hourlyConfig connected []).cache hourlyConfig namedLibrary
        (cacheInUse hourlyConfig connected []).slot (cacheInUse hourlyConfig connected []).ttl s' companyRequest r.body 0 := by
  have loads : (Configuration.loadConfiguration 2 hourly usArguments).isOk = true := by decide +kernel
  refine ⟨?_,fun connected => ?_⟩
  · unfold hourlyConfig
    cases loaded : Configuration.loadConfiguration 2 hourly usArguments with
    | ok config => rfl
    | error what =>
      rw [loaded] at loads
      cases loads
  · have hour : (cacheInUse hourlyConfig connected []).ttl = 3600 := by
      cases connected <;> decide +kernel
    obtain ⟨s,log,s',out,r,run,handled,sent,success⟩ := first_handled hourlyConfig connected
      (by cases connected <;> decide +kernel)
    have cached := justCached_of_handled (fun o text _ => tabled_escapes _ o text) run handled sent success
    refine ⟨hour,s,log,s',out,r,run,handled,sent,success,(cached.answers_iff laterOn).mpr (by decide),?_⟩
    intro lives
    have day := (livesFor_iff cached _).mp lives
    rw [hour] at day
    omega

end Service
end Facade
