import Mathlib.Data.List.TakeWhile
import Facade.CacheInterface
import Facade.InMemoryCache
import Facade.OrderedMap

/-!
`RedisCache` of src/cache/RedisCache.cpp, over a Redis server that is a map whose
entries expire: an entry is visible strictly before its expiry, and every command is
replied to without an error. A `%s` of a command is the text up to its first NUL.

`interface` puts it in the place of the service's cache, and `caches_agree` compares
it with `InMemoryCache`, call by call.
-/
namespace Facade
open Strings Recency

/-- A text as `%s` formats its `c_str()`. -/
def cString (text : Bytes) : Bytes := text.takeWhile (· ≠ 0)

inductive RedisCommand
  | SETEX (key : Bytes) (seconds : Int) (value : Bytes)
  | SET (key value : Bytes)
  | GET (key : Bytes)
  | DEL (key : Bytes)
  | EXISTS (key : Bytes)
  | FLUSHALL
deriving DecidableEq,Repr

inductive RedisReply
  | status
  | string (text : Bytes)
  | integer (n : Nat)
  | nil
  | error
deriving DecidableEq,Repr

/-- A value and the instant at which it expires, if it does. -/
structure RedisEntry where
  value : Bytes
  expiry : Option Int
deriving DecidableEq,Repr

abbrev RedisServer := OrderedMap Bytes RedisEntry

namespace RedisServer

/-- The value that is visible under a key. -/
def visible (key : Bytes) (now : Int) (server : RedisServer) : Option Bytes :=
  (server.find key).bind fun e => if e.expiry.all (now < ·) then some e.value else none

/-- The reply to a command, and the server after it. -/
def execute (now : Int) (server : RedisServer) : RedisCommand → RedisReply × RedisServer
  | .SETEX key seconds value => (.status,server.assign key ⟨value,some (now + seconds * 1000000000)⟩)
  | .SET key value => (.status,server.assign key ⟨value,none⟩)
  | .GET key =>
    match server.visible key now with
    | some text => (.string text,server)
    | none => (.nil,server)
  | .DEL key => (.integer (server.visible key now).isSome.toNat,server.erase key)
  | .EXISTS key => (.integer (server.visible key now).isSome.toNat,server)
  | .FLUSHALL => (.status,[])

end RedisServer

structure RedisCache where
  /-- Whether `redis_context_` is set. -/
  connected : Bool
  server : RedisServer
deriving DecidableEq,Repr

namespace RedisCache

/-- `redisCommand`, or a null reply without a connection. -/
def redisCommand (now : Int) (command : RedisCommand) (c : RedisCache) : Option RedisReply × RedisCache :=
  if c.connected then
    let (reply,server) := c.server.execute now command
    (some reply,{ c with server := server })
  else (none,c)

def set (key value : Bytes) (ttl now : Int) (c : RedisCache) : Bool × RedisCache :=
  let command := if ttl > 0 then RedisCommand.SETEX (cString key) ttl (cString value)
    else .SET (cString key) (cString value)
  let (reply,c) := redisCommand now command c
  (reply ≠ none ∧ reply ≠ some .error,c)

def get (key : Bytes) (now : Int) (c : RedisCache) : Option Bytes × RedisCache :=
  match redisCommand now (.GET (cString key)) c with
  | (some (.string text),c) => (some text,c)
  | (_,c) => (none,c)

/-- `reply->type == REDIS_REPLY_INTEGER && reply->integer > 0`. -/
def positive : Option RedisReply → Bool
  | some (.integer n) => 0 < n
  | _ => false

def remove (key : Bytes) (now : Int) (c : RedisCache) : Bool × RedisCache :=
  let (reply,c) := redisCommand now (.DEL (cString key)) c
  (positive reply,c)

def clear (now : Int) (c : RedisCache) : Bool × RedisCache :=
  let (reply,c) := redisCommand now .FLUSHALL c
  (reply ≠ none ∧ reply ≠ some .error,c)

def exists_ (key : Bytes) (now : Int) (c : RedisCache) : Bool × RedisCache :=
  let (reply,c) := redisCommand now (.EXISTS (cString key)) c
  (positive reply,c)

/-! ### In the place of the service's cache -/

/-- With a connection, the answer is what the server shows. -/
theorem get_connected {c : RedisCache} (connected : c.connected = true) (key : Bytes) (now : Int) :
    c.get key now = (c.server.visible (cString key) now,c) := by
  obtain ⟨_,server⟩ := c
  simp only at connected
  subst connected
  unfold get redisCommand
  simp only [if_true,RedisServer.execute]
  cases server.visible (cString key) now <;> simp

theorem set_connected {c : RedisCache} (connected : c.connected = true) (key value : Bytes) (ttl now : Int) :
    (c.set key value ttl now).2 = { c with
      server := c.server.assign (cString key) ⟨cString value,if ttl > 0 then some (now + ttl * 1000000000) else none⟩ } := by
  by_cases lasting : ttl > 0
  · simp [set,redisCommand,connected,lasting,RedisServer.execute]
  · simp [set,redisCommand,connected,lasting,RedisServer.execute]

theorem get_unconnected {c : RedisCache} (unconnected : c.connected = false) (key : Bytes) (now : Int) :
    c.get key now = (none,c) := by
  simp [get,redisCommand,unconnected]

theorem get_connection (c : RedisCache) (key : Bytes) (now : Int) : (c.get key now).2.connected = c.connected := by
  cases connection : c.connected with
  | true => rw [get_connected connection,connection]
  | false => rw [get_unconnected connection,connection]

theorem set_connection (c : RedisCache) (key value : Bytes) (ttl now : Int) :
    (c.set key value ttl now).2.connected = c.connected := by
  unfold set redisCommand
  simp only
  split <;> rfl

/-- A `RedisCache` is a cache. Without a connection it is an empty one, and with one
    it may answer anything that the server holds. -/
def interface : CacheInterface where
  Store := RedisCache
  empty := ⟨false,[]⟩
  get c key now := c.get key now
  set c key value ttl now := (c.set key value ttl now).2
  Holds c _ _ := c.connected = true
  holds_empty := by simp
  holds_of_get := by
    intro c key now value answered
    cases connection : c.connected with
    | true => rfl
    | false =>
      rw [get_unconnected connection] at answered
      cases answered
  holds_get := by
    intro c key now _ _ held
    rwa [get_connection] at held
  holds_set := by
    intro c key value ttl now _ _ held
    rw [set_connection] at held
    exact .inr held

end RedisCache

/-! ### Both caches -/

/-- A call of a method of the interface. -/
inductive CacheCall
  | set (key value : Bytes) (ttl : Int)
  | get (key : Bytes)
  | remove (key : Bytes)
  | clear
  | exists_ (key : Bytes)
deriving DecidableEq,Repr

namespace CacheCall
open InMemoryCache (Call Answer)

def keys : CacheCall → List Bytes
  | .set key _ _ => [key]
  | .get key => [key]
  | .remove key => [key]
  | .clear => []
  | .exists_ key => [key]

/-- The call of the cache in memory, all of whose readings of the clock are `now`. -/
def inMemory (now : Int) : CacheCall → Call
  | .set key value ttl => .set key value ttl now
  | .get key => .get key now now
  | .remove key => .remove key
  | .clear => .clear
  | .exists_ key => .exists_ key now now

def onRedis (now : Int) (c : RedisCache) : CacheCall → Answer × RedisCache
  | .set key value ttl => ((c.set key value ttl now).map .flag id)
  | .get key => (c.get key now).map .value id
  | .remove key => (c.remove key now).map .flag id
  | .clear => (c.clear now).map .flag id
  | .exists_ key => (c.exists_ key now).map .flag id

end CacheCall

/-- Two caches on which the same calls are made. -/
structure Twins where
  memory : InMemoryCache
  redis : RedisCache

namespace Twins
open InMemoryCache (Answer)

/-- A call on both, at one instant; on record are the two answers. -/
def step (t : Twins) (call : CacheCall × Int) : Option (Twins × List (Answer × Answer)) :=
  (InMemoryCache.step t.memory (call.1.inMemory call.2)).map fun (memory,log) =>
    let (answer,redis) := call.1.onRedis call.2 t.redis
    (⟨memory,redis⟩,log.map fun entry => (entry.2,answer))

def new (default_ttl_seconds : Int) (max_size : Nat) : Twins := ⟨.new default_ttl_seconds max_size,⟨true,[]⟩⟩

/-- What a call passes whole through a C string: the value, if it has one. -/
def Plain : CacheCall → Prop
  | .set _ value ttl => ttl > 0 ∧ cString value = value
  | _ => True

/-- At `now` the cache in memory holds no expired entry under the key. -/
def Unexpired (t : Twins) (key : Bytes) (now : Int) : Prop :=
  ∀ entry, t.memory.cache.lookup key = some entry → now < entry.expiry

/-- From `now` on both caches have the same values for the keys in use. -/
structure Agrees (used : Finset Bytes) (t : Twins) (s : Store Bytes Bytes Int) (now : Int) : Prop where
  refines : t.memory.Refines s
  room : used.card ≤ t.memory.max_size
  connected : t.redis.connected = true
  known : ∀ e ∈ s, e.key ∈ used
  same : ∀ key ∈ used, ∀ later, now ≤ later → live key later s = t.redis.server.visible (cString key) later

theorem visible_assign_self (key : Bytes) (e : RedisEntry) (server : RedisServer) (now : Int) :
    RedisServer.visible key now (server.assign key e) = if e.expiry.all (now < ·) then some e.value else none := by
  simp [RedisServer.visible,OrderedMap.find_assign_self]

theorem visible_assign_ne {key other : Bytes} (differs : other ≠ key) (e : RedisEntry) (server : RedisServer)
    (now : Int) : RedisServer.visible other now (server.assign key e) = RedisServer.visible other now server := by
  simp [RedisServer.visible,OrderedMap.find_assign_ne differs]

theorem visible_erase_self (key : Bytes) (server : RedisServer) (now : Int) :
    RedisServer.visible key now (server.erase key) = none := by
  simp [RedisServer.visible,OrderedMap.find_erase_self]

theorem visible_erase_ne {key other : Bytes} (differs : other ≠ key) (server : RedisServer) (now : Int) :
    RedisServer.visible other now (server.erase key) = RedisServer.visible other now server := by
  simp [RedisServer.visible,OrderedMap.find_erase_ne differs]

section
variable {used : Finset Bytes} {t : Twins} {s : Store Bytes Bytes Int} {now : Int}

/-- The keys in use stay apart as C strings. -/
def Apart (used : Finset Bytes) : Prop := ∀ key ∈ used, ∀ other ∈ used, cString other = cString key → other = key

theorem agrees_set (agrees : Agrees used t s now) (apart : Apart used) {key value : Bytes} {ttl : Int}
    (inUse : key ∈ used) (lasting : ttl > 0) (whole : cString value = value) :
    ∃ t' s' a, step t (.set key value ttl,now) = some (t',[(a,a)]) ∧ Agrees used t' s' now := by
  obtain ⟨refines,room,connected,known,same⟩ := agrees
  obtain ⟨c',executed,refines',size,-⟩ := InMemoryCache.refines_set refines key value ttl now
  have expiry : InMemoryCache.expiryOf t.memory.default_ttl_seconds ttl now = now + ttl * 1000000000 := by
    simp [InMemoryCache.expiryOf,lasting]
  rw [expiry] at refines'
  -- no key is evicted: those held and this one are among those in use
  have fits : key ∉ Recency.keys s → s.length < t.memory.max_size := by
    intro absent
    have fewer := length_lt_card refines.nodup absent known inUse
    omega
  have replied : t.redis.set key value ttl now =
      (true,⟨true,t.redis.server.assign (cString key) ⟨value,some (now + ttl * 1000000000)⟩⟩) := by
    simp [RedisCache.set,lasting,RedisCache.redisCommand,connected,RedisServer.execute,whole]
  refine ⟨⟨c',⟨true,t.redis.server.assign (cString key) ⟨value,some (now + ttl * 1000000000)⟩⟩⟩,_,.flag true,?_,
    ⟨refines',by rw [size]; exact room,rfl,?_,?_⟩⟩
  · simp only [step,CacheCall.inMemory,CacheCall.onRedis,InMemoryCache.step,executed,replied,Option.map_some]
    rfl
  · intro e member
    rcases mem_write member with rfl | older
    · exact inUse
    · exact known e older
  · intro other inside later order
    rw [live_write fits]
    by_cases this_key : key = other
    · subst this_key
      rw [if_pos rfl,visible_assign_self]
      simp
    · have differs : cString other ≠ cString key := fun equal => this_key (apart key inUse other inside equal).symm
      rw [if_neg this_key,visible_assign_ne differs]
      exact same other inside later order

theorem agrees_get (agrees : Agrees used t s now) {key : Bytes} (inUse : key ∈ used) :
    ∃ t' s' a, step t (.get key,now) = some (t',[(a,a)]) ∧ Agrees used t' s' now := by
  obtain ⟨refines,room,connected,known,same⟩ := agrees
  obtain ⟨c',executed,refines',size,-⟩ := InMemoryCache.refines_get refines key now now
  rw [read_value refines.nodup,same key inUse now le_rfl] at executed
  have replied : t.redis.get key now = (t.redis.server.visible (cString key) now,⟨true,t.redis.server⟩) := by
    rw [RedisCache.get_connected connected,← connected]
  refine ⟨⟨c',⟨true,t.redis.server⟩⟩,_,.value (t.redis.server.visible (cString key) now),?_,
    ⟨refines',by rw [size]; exact room,rfl,?_,?_⟩⟩
  · simp only [step,CacheCall.inMemory,CacheCall.onRedis,InMemoryCache.step,executed,replied,Option.map_some]
    rfl
  · exact fun e member => known e (mem_read member)
  · intro other inside later order
    rw [live_read refines.nodup key other order]
    exact same other inside later order

theorem agrees_remove (agrees : Agrees used t s now) (apart : Apart used) {key : Bytes} (inUse : key ∈ used)
    (unexpired : Unexpired t key now) :
    ∃ t' s' a, step t (.remove key,now) = some (t',[(a,a)]) ∧ Agrees used t' s' now := by
  obtain ⟨refines,room,connected,known,same⟩ := agrees
  obtain ⟨c',executed,refines',size,-⟩ := InMemoryCache.refines_remove refines key
  have counted : decide (key ∈ Recency.keys s) = (t.redis.server.visible (cString key) now).isSome := by
    rw [← same key inUse now le_rfl,live]
    cases found : find key s with
    | none => simp [find_none found]
    | some e =>
      have held : key ∈ Recency.keys s := mem_keys.mpr ⟨e,find_some found⟩
      have alive := unexpired (InMemoryCache.entryOf e) (by rw [refines.cache,found]; rfl)
      simp only [InMemoryCache.entryOf] at alive
      simp [held,alive]
  rw [counted] at executed
  have replied : t.redis.remove key now =
      ((t.redis.server.visible (cString key) now).isSome,⟨true,t.redis.server.erase (cString key)⟩) := by
    unfold RedisCache.remove RedisCache.redisCommand
    simp only [connected,if_true,RedisServer.execute,RedisCache.positive]
    cases t.redis.server.visible (cString key) now <;> simp
  refine ⟨⟨c',⟨true,t.redis.server.erase (cString key)⟩⟩,_,.flag (t.redis.server.visible (cString key) now).isSome,?_,
    ⟨refines',by rw [size]; exact room,rfl,fun e member => known e (mem_drop.mp member).1,?_⟩⟩
  · simp only [step,CacheCall.inMemory,CacheCall.onRedis,InMemoryCache.step,executed,replied,Option.map_some]
    rfl
  · intro other inside later order
    by_cases this_key : other = key
    · subst this_key
      rw [live_drop_self,visible_erase_self]
    · have differs : cString other ≠ cString key := fun equal => this_key (apart key inUse other inside equal)
      rw [live_drop_ne this_key,visible_erase_ne differs]
      exact same other inside later order

theorem agrees_clear (agrees : Agrees used t s now) :
    ∃ t' s' a, step t (.clear,now) = some (t',[(a,a)]) ∧ Agrees used t' s' now := by
  obtain ⟨refines,room,connected,known,same⟩ := agrees
  have replied : t.redis.clear now = (true,⟨true,[]⟩) := by
    simp [RedisCache.clear,RedisCache.redisCommand,connected,RedisServer.execute]
  refine ⟨⟨t.memory.clear.2,⟨true,[]⟩⟩,[],.flag true,?_,
    ⟨InMemoryCache.refines_clear _,room,rfl,by simp,fun key _ later _ => rfl⟩⟩
  simp only [step,CacheCall.inMemory,CacheCall.onRedis,InMemoryCache.step,replied,Option.map_some]
  rfl

theorem agrees_exists (agrees : Agrees used t s now) {key : Bytes} (inUse : key ∈ used) :
    ∃ t' s' a, step t (.exists_ key,now) = some (t',[(a,a)]) ∧ Agrees used t' s' now := by
  obtain ⟨refines,room,connected,known,same⟩ := agrees
  obtain ⟨c',executed,refines',size,-⟩ := InMemoryCache.refines_exists refines key now now
  have seen : (find key (sweep now s)).any (fun e => now < e.expiry) =
      (t.redis.server.visible (cString key) now).isSome := by
    rw [← same key inUse now le_rfl,← live_sweep refines.nodup key le_rfl,live]
    cases find key (sweep now s) with
    | none => rfl
    | some e => by_cases alive : now < e.expiry <;> simp [alive]
  rw [seen] at executed
  have replied : t.redis.exists_ key now =
      ((t.redis.server.visible (cString key) now).isSome,⟨true,t.redis.server⟩) := by
    unfold RedisCache.exists_ RedisCache.redisCommand
    simp only [connected,if_true,RedisServer.execute,RedisCache.positive]
    cases t.redis.server.visible (cString key) now <;> simp
  refine ⟨⟨c',⟨true,t.redis.server⟩⟩,_,.flag (t.redis.server.visible (cString key) now).isSome,?_,
    ⟨refines',by rw [size]; exact room,rfl,fun e member => known e (mem_sweep.mp member).1,?_⟩⟩
  · simp only [step,CacheCall.inMemory,CacheCall.onRedis,InMemoryCache.step,executed,replied,Option.map_some]
    rfl
  · intro other inside later order
    rw [live_sweep refines.nodup other order]
    exact same other inside later order

/-- A call on caches that agree is answered alike, and they agree after it. -/
theorem agrees_step (agrees : Agrees used t s now) (apart : Apart used) {call : CacheCall}
    (inUse : ∀ key ∈ call.keys, key ∈ used) (plain : Plain call)
    (unexpired : ∀ key, call = .remove key → Unexpired t key now) :
    ∃ t' s' a, step t (call,now) = some (t',[(a,a)]) ∧ Agrees used t' s' now := by
  cases call with
  | set key value ttl => exact agrees_set agrees apart (inUse key (by simp [CacheCall.keys])) plain.1 plain.2
  | get key => exact agrees_get agrees (inUse key (by simp [CacheCall.keys]))
  | remove key => exact agrees_remove agrees apart (inUse key (by simp [CacheCall.keys])) (unexpired key rfl)
  | clear => exact agrees_clear agrees
  | exists_ key => exact agrees_exists agrees (inUse key (by simp [CacheCall.keys]))

theorem Agrees.mono (agrees : Agrees used t s now) {later : Int} (order : now ≤ later) : Agrees used t s later :=
  { agrees with same := fun key inside latest after => agrees.same key inside latest (order.trans after) }

end

/-- The keys that a list of calls uses. -/
def keysUsed (calls : List (CacheCall × Int)) : Finset Bytes := (calls.flatMap fun call => call.1.keys).toFinset

/-- Every run of calls whose keys are among those in use. -/
theorem agrees_run {used : Finset Bytes} {default_ttl_seconds : Int} {max_size : Nat} (few : used.card ≤ max_size)
    (apart : Apart used) (calls : List (CacheCall × Int)) (inUse : ∀ call ∈ calls, ∀ key ∈ call.1.keys, key ∈ used)
    (clock : calls.Pairwise fun a b => a.2 ≤ b.2) (plain : ∀ call ∈ calls, Plain call.1)
    (unexpired : ∀ t log key now, Runs.Takes step (new default_ttl_seconds max_size) calls t log (.remove key,now) →
      Unexpired t key now) :
    ∃ t log, Runs.Run step (new default_ttl_seconds max_size) calls t log ∧ log.length = calls.length ∧
      (∀ answers ∈ log, answers.1 = answers.2) ∧ ∃ s, ∀ now, (∀ call ∈ calls, call.2 ≤ now) → Agrees used t s now := by
  induction calls using List.reverseRecOn with
  | nil =>
    exact ⟨_,_,.start,rfl,by simp,[],fun now _ =>
      ⟨InMemoryCache.refines_new _ _,few,rfl,by simp,fun key _ later _ => rfl⟩⟩
  | append_singleton calls call ih =>
    obtain ⟨earlier,-,order⟩ := List.pairwise_append.mp clock
    obtain ⟨t,log,run,paired,alike,s,agrees⟩ := ih (fun c member => inUse c (by simp [member])) earlier
      (fun c member => plain c (by simp [member])) (by
        intro t log key now takes
        exact unexpired t log key now (takes.append [call]))
    obtain ⟨call,now⟩ := call
    have past : ∀ c ∈ calls, c.2 ≤ now := fun c member => order c member (call,now) (by simp)
    obtain ⟨t',s',a,taken,agrees'⟩ := agrees_step (agrees now past) apart (inUse (call,now) (by simp))
      (plain (call,now) (by simp)) (by
        rintro key rfl
        exact unexpired t log key now (run.takes_snoc.mpr (.inr ⟨rfl,rfl,rfl⟩)))
    refine ⟨t',_,run.next taken,by simp [paired],?_,s',?_⟩
    · intro answers member
      rcases List.mem_append.mp member with old | new
      · exact alike answers old
      · rw [List.mem_singleton.mp new]
    · intro later after
      exact agrees'.mono (after (call,now) (by simp))

/-- On calls with a clock that does not go back, lasting entries and no more keys than
    the cache in memory has room for, both caches give the same answers when the keys
    differ before their first NUL, the values have no NUL, and no key is removed whose
    entry in memory has expired. -/
theorem caches_agree (default_ttl_seconds : Int) (max_size : Nat) (calls : List (CacheCall × Int))
    (clock : calls.Pairwise fun a b => a.2 ≤ b.2)
    (lasting : ∀ key value ttl now, (CacheCall.set key value ttl,now) ∈ calls → ttl > 0)
    (few : (keysUsed calls).card ≤ max_size)
    (apart : ∀ key ∈ keysUsed calls, ∀ other ∈ keysUsed calls, cString other = cString key → other = key)
    (whole : ∀ key value ttl now, (CacheCall.set key value ttl,now) ∈ calls → 0 ∉ value)
    (unexpired : ∀ t log key now, Runs.Takes step (new default_ttl_seconds max_size) calls t log (.remove key,now) →
      Unexpired t key now) :
    ∃ t log, Runs.Run step (new default_ttl_seconds max_size) calls t log ∧ log.length = calls.length ∧
      ∀ answers ∈ log, answers.1 = answers.2 := by
  have inUse : ∀ call ∈ calls, ∀ key ∈ call.1.keys, key ∈ keysUsed calls := by
    intro call member key inside
    exact List.mem_toFinset.mpr (List.mem_flatMap.mpr ⟨call,member,inside⟩)
  have plain : ∀ call ∈ calls, Plain call.1 := by
    rintro ⟨call,now⟩ member
    cases call with
    | set key value ttl =>
      have noNul := whole key value ttl now member
      refine ⟨lasting key value ttl now member,List.takeWhile_eq_self_iff.mpr ?_⟩
      intro c inside
      simpa using fun nul : c = 0 => noNul (nul ▸ inside)
    | get key => trivial
    | remove key => trivial
    | clear => trivial
    | exists_ key => trivial
  obtain ⟨t,log,run,paired,alike,-⟩ := agrees_run few apart calls inUse clock plain unexpired
  exact ⟨t,log,run,paired,alike⟩

/-- A company is cached, looked up and removed. -/
def ordinaryCalls : List (CacheCall × Int) :=
  [(.set (lit "1:US") (lit "one") 60,0),(.get (lit "1:US"),1),(.remove (lit "1:US"),2),(.exists_ (lit "1:US"),3)]

theorem caches_agree_ordinary : ∃ t log, Runs.Run step (new 3600 1) ordinaryCalls t log ∧
    log.length = ordinaryCalls.length ∧ ∀ answers ∈ log, answers.1 = answers.2 := by
  refine caches_agree 3600 1 ordinaryCalls (by decide) ?_ (by decide +kernel) (by decide +kernel) ?_ ?_
  · intro key value ttl now member
    obtain ⟨⟨-,-,rfl⟩,-⟩ : (key = lit "1:US" ∧ value = lit "one" ∧ ttl = 60) ∧ now = 0 := by
      simpa [ordinaryCalls] using member
    decide
  · intro key value ttl now member
    obtain ⟨⟨-,rfl,-⟩,-⟩ : (key = lit "1:US" ∧ value = lit "one" ∧ ttl = 60) ∧ now = 0 := by
      simpa [ordinaryCalls] using member
    decide
  · rintro t log key now ⟨before,after,split,run⟩
    have executed := run.exec
    have held : (Runs.exec step (new 3600 1) (ordinaryCalls.take 2)).map (fun r => r.1.memory.cache.lookup (lit "1:US")) =
        some (some ⟨lit "one",60000000000⟩) := by decide +kernel
    match before with
    | [] => simp [ordinaryCalls] at split
    | [a] => simp [ordinaryCalls] at split
    | [a,b] =>
      obtain ⟨rfl,rfl,⟨rfl,rfl⟩,-⟩ : _ = a ∧ _ = b ∧ (lit "1:US" = key ∧ 2 = now) ∧ _ := by
        simpa [ordinaryCalls] using split
      intro entry found
      change (Runs.exec step (new 3600 1) [_,_]).map _ = _ at held
      rw [executed,Option.map_some,Option.some.injEq,found,Option.some.injEq] at held
      rw [held]
      decide
    | a :: b :: c :: rest => cases rest <;> simp [ordinaryCalls] at split

/-- Keys and values with a NUL, as `urlDecode` makes them of "%00". -/
def nulCalls : List (CacheCall × Int) := [(.set [97,0,98] (lit "1") 60,0),(.get (lit "a"),1)]

/-- A key that is cut at its NUL is found under another key. -/
theorem nul_keys_merge : (keysUsed nulCalls).card ≤ 10 ∧ ∃ t log, Runs.Run step (new 3600 10) nulCalls t log ∧
    log = [(.flag true,.flag true),(.value none,.value (some (lit "1")))] ∧
    ¬ ∀ answers ∈ log, answers.1 = answers.2 := by
  refine ⟨by decide +kernel,_,_,Runs.Run.of_isSome (by decide +kernel),by decide +kernel,?_⟩
  intro alike
  have differ : ((InMemoryCache.Answer.value none,InMemoryCache.Answer.value (some (lit "1"))) : Answer × Answer) ∈
      ((Runs.exec step (new 3600 10) nulCalls).getD (new 3600 10,[])).2 := by decide +kernel
  cases alike _ differ

end Twins
end Facade
