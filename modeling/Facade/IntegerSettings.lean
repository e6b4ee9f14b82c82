import Facade.ConfigFile
import Facade.InMemoryCache

/-!
What becomes of the integers of the configuration file in src/main.cpp: the
lifetimes, which are multiplied, the port, which is cast to `unsigned short`,
and the size of the in-memory cache, which is converted to `size_t`. None of
them is checked on the way, so each is used at its value exactly in a range
that the file need not keep to (`used_as_given_iff`).
-/
namespace Facade.Configuration
open Strings Streams

/-- `static_cast<unsigned short>(config_.frontend_port)`, the port that is bound. -/
def portOfServer (config : AppConfig) : Nat := (config.frontend_port.toInt % 65536).toNat

/-- The conversion of an `int` to `size_t`. -/
def toSize (n : Int32) : Nat := (n.toInt % 18446744073709551616).toNat

/-- The cache of the service. -/
inductive ServiceCache
  | redis
  | inMemory (c : InMemoryCache)

/-- `initializeCache`, where `connected` is `redis_cache->isConnected()`. -/
def initializeCache (config : AppConfig) (connected : Bool) : ServiceCache :=
  if config.use_redis && connected then .redis
  else .inMemory (.new config.in_memory_cache_ttl.toInt (toSize config.in_memory_cache_max_size))

/-- The port itself or, where it is none, the default and not its remainder. -/
def PortKept (frontend_port : Int) (port : Nat) : Prop :=
  if 1 ≤ frontend_port ∧ frontend_port ≤ 65535 then (port : Int) = frontend_port
  else port = 9000 ∧ (port : Int) ≠ frontend_port % 65536

/-- The lines of the file that is read. -/
def linesOf (files : Bytes → Option Bytes) : List Bytes := (config_paths.findSome? files).elim [] getlines

/-- Every integer of the file is used at its mathematical value: the hours of
    every line become seconds, the port is kept, and the cache holds at most as
    many entries as it should, whatever is called. -/
structure UsedAsGiven (files : Bytes → Option Bytes) (config : AppConfig) : Prop where
  redis_ttl : ∀ line ∈ linesOf files, ∀ value n, keyValue line = some (lit "redis_ttl",value) →
    stringToInt value = some n → ∀ before, ∃ after, applyLine before line = .ok after ∧
      after.redis_ttl.toInt = 3600 * n.toInt
  in_memory_cache_ttl : ∀ line ∈ linesOf files, ∀ value n, keyValue line = some (lit "in_memory_cache_ttl",value) →
    stringToInt value = some n → ∀ before, ∃ after, applyLine before line = .ok after ∧
      after.in_memory_cache_ttl.toInt = 3600 * n.toInt
  port : PortKept config.frontend_port.toInt (portOfServer config)
  size : ∀ connected c, initializeCache config connected = .inMemory c →
    ∀ calls c' log, Runs.exec InMemoryCache.step c calls = some (c',log) →
      (c'.cache.keys.length : Int) ≤ max config.in_memory_cache_max_size.toInt 0

/-- The port and the size that the last usable lines give. -/
def lastPort (files : Bytes → Option Bytes) : Option Int32 :=
  lastOf (fun | .frontend_port n => some n | _ => none) (settingsOf files)
def lastSize (files : Bytes → Option Bytes) : Option Int32 :=
  lastOf (fun | .in_memory_cache_max_size n => some n | _ => none) (settingsOf files)

/-- The ranges in which the conversions keep a value: for every number of hours,
    and for the port and the size that count. -/
structure InRange (files : Bytes → Option Bytes) : Prop where
  hours : ∀ line ∈ linesOf files, ∀ key value n,
    keyValue line = some (key,value) → key = lit "redis_ttl" ∨ key = lit "in_memory_cache_ttl" →
    stringToInt value = some n → -596523 ≤ n.toInt ∧ n.toInt ≤ 596523
  port : ∀ n, lastPort files = some n → 1 ≤ n.toInt ∧ n.toInt ≤ 65535
  size : ∀ n, lastSize files = some n → 1 ≤ n.toInt

/-! ### The conversions -/

theorem hours_kept_iff (n : Int32) : (n * 3600).toInt = 3600 * n.toInt ↔ -596523 ≤ n.toInt ∧ n.toInt ≤ 596523 := by
  constructor
  · intro kept
    have low := (n * 3600).le_toInt
    have high := (n * 3600).toInt_lt
    rw [kept] at low high
    omega
  · rintro ⟨low,high⟩
    have factor : (3600 : Int32).toInt = 3600 := by decide
    rw [Int32.toInt_mul,factor,Int.mul_comm]
    exact Int.bmod_eq_of_le (by omega) (by omega)

/-- The products that overflow to a day are those of numbers that differ from 24 by a
    multiple of 2^28. -/
theorem day_hours_iff (n : Int32) : (n * 3600).toInt = 86400 ↔ n.toInt % 268435456 = 24 := by
  have factor : (3600 : Int32).toInt = 3600 := by decide
  rw [Int32.toInt_mul,factor,Int.bmod_def]
  split <;> omega

theorem portKept_iff (config : AppConfig) : PortKept config.frontend_port.toInt (portOfServer config) ↔
    1 ≤ config.frontend_port.toInt ∧ config.frontend_port.toInt ≤ 65535 := by
  unfold PortKept portOfServer
  by_cases valid : 1 ≤ config.frontend_port.toInt ∧ config.frontend_port.toInt ≤ 65535
  · rw [if_pos valid]
    omega
  · rw [if_neg valid]
    omega

theorem toSize_of_pos {n : Int32} (positive : 1 ≤ n.toInt) : (toSize n : Int) = n.toInt := by
  have high := n.toInt_lt
  unfold toSize
  omega

/-- An empty cache takes an entry, whatever its size is. -/
theorem one_entry (ttl : Int) (size : Nat) (key value : Bytes) : ∃ c' log,
    Runs.exec InMemoryCache.step (.new ttl size) [.set key value 0 0] = some (c',log) ∧ c'.cache.keys.length = 1 := by
  obtain ⟨c',written,r,_⟩ := InMemoryCache.refines_set (InMemoryCache.refines_new ttl size) key value 0 0
  refine ⟨c',[(.set key value 0 0,.flag true)],by simp [Runs.exec,InMemoryCache.step,written],?_⟩
  rw [InMemoryCache.length_keys r.nodup r.mem_cache]
  simp [Recency.write,Recency.keys]

/-- A cache of the size holds no more than it should exactly when the size is
    positive. -/
theorem size_kept_iff (ttl : Int) (n : Int32) :
    (∀ calls c' log, Runs.exec InMemoryCache.step (.new ttl (toSize n)) calls = some (c',log) →
      (c'.cache.keys.length : Int) ≤ max n.toInt 0) ↔ 1 ≤ n.toInt := by
  constructor
  · intro bounded
    obtain ⟨c',log,executed,one⟩ := one_entry ttl (toSize n) [] []
    have fits := bounded _ c' log executed
    rw [one] at fits
    omega
  · intro positive calls c' log executed
    obtain ⟨_,_,s,r,abstract⟩ := InMemoryCache.run_refines (Runs.Run.of_exec executed)
    have bound := Recency.length_run abstract
    have size := toSize_of_pos positive
    rw [InMemoryCache.length_keys r.nodup r.mem_cache]
    omega

/-! ### The settings that count -/

section
variable {files : Bytes → Option Bytes} {hardware_concurrency : UInt32} {startupArguments : OrderedMap Bytes Bytes}
  {config : AppConfig}

/-- The line of a key stores the integer as the key's setting does. -/
theorem applyLine_int {line key value : Bytes} {n : Int32} {setting : Int32 → Setting}
    (isLine : keyValue line = some (key,value)) (isInt : stringToInt value = some n) (other : key ≠ lit "log_level")
    (sets : settingFor key value = (stringToInt value).map setting) (before : AppConfig) :
    applyLine before line = .ok ((setting n).store before) := by
  unfold applyLine
  simp only [isLine]
  rw [applySetting_eq (fun level => absurd level other),sets,isInt]
  rfl

/-- The keys of hours are none of those compared before them. -/
theorem settingFor_hours (value : Bytes) :
    settingFor (lit "redis_ttl") value = (stringToInt value).map .redis_ttl ∧
      settingFor (lit "in_memory_cache_ttl") value = (stringToInt value).map .in_memory_cache_ttl := by
  have apart : ∀ key ∈ [lit "frontend_port",lit "redis_host",lit "redis_port",lit "log_level"],
      lit "redis_ttl" ≠ key ∧ lit "in_memory_cache_ttl" ≠ key := by decide +kernel
  have further : ∀ key ∈ [lit "redis_ttl",lit "metrics_batch_size",lit "metrics_send_interval",
      lit "in_memory_cache_max_size"], lit "in_memory_cache_ttl" ≠ key := by decide +kernel
  simp only [List.forall_mem_cons] at apart further
  obtain ⟨frontend,host,port,level,-⟩ := apart
  obtain ⟨redis,batch,interval,size,-⟩ := further
  unfold settingFor
  simp only [frontend,host,port,level,redis,batch,interval,size,if_true,if_false,and_self]

theorem loaded_settings (loaded : loadConfiguration hardware_concurrency files startupArguments = .ok config) :
    config.frontend_port = (lastPort files).getD 9000 ∧
      config.in_memory_cache_max_size = (lastSize files).getD 10000 := by
  rw [loadConfiguration_eq_ok (knownLevels_of_ok loaded),Except.ok.injEq] at loaded
  subst loaded
  exact ⟨rfl,rfl⟩

theorem loaded_hours (loaded : loadConfiguration hardware_concurrency files startupArguments = .ok config) :
    config.redis_ttl = ((lastOf (fun | .redis_ttl hours => some hours | _ => none) (settingsOf files)).map
        (· * 3600)).getD (3600 * 24) ∧
      config.in_memory_cache_ttl = ((lastOf (fun | .in_memory_cache_ttl hours => some hours | _ => none)
        (settingsOf files)).map (· * 3600)).getD (3600 * 24) := by
  rw [loadConfiguration_eq_ok (knownLevels_of_ok loaded),Except.ok.injEq] at loaded
  subst loaded
  rw [← lastOf_map,← lastOf_map]
  constructor
  · show (lastOf _ _).getD _ = _
    congr 2
    funext s
    cases s <;> rfl
  · show (lastOf _ _).getD _ = _
    congr 2
    funext s
    cases s <;> rfl

/-- What holds of the default holds of the setting that counts exactly when it
    holds of the last one in the file. -/
theorem getD_iff {P : Int32 → Prop} {default : Int32} (fine : P default) (last : Option Int32) :
    P (last.getD default) ↔ ∀ n, last = some n → P n := by
  cases last with
  | none => simpa using fine
  | some n => simp

/-- The hours of the file are kept exactly when they are all in range. -/
theorem hours_iff :
    ((∀ line ∈ linesOf files, ∀ value n, keyValue line = some (lit "redis_ttl",value) →
        stringToInt value = some n → ∀ before, ∃ after, applyLine before line = .ok after ∧
          after.redis_ttl.toInt = 3600 * n.toInt) ∧
      ∀ line ∈ linesOf files, ∀ value n, keyValue line = some (lit "in_memory_cache_ttl",value) →
        stringToInt value = some n → ∀ before, ∃ after, applyLine before line = .ok after ∧
          after.in_memory_cache_ttl.toInt = 3600 * n.toInt) ↔
    ∀ line ∈ linesOf files, ∀ key value n,
      keyValue line = some (key,value) → key = lit "redis_ttl" ∨ key = lit "in_memory_cache_ttl" →
      stringToInt value = some n → -596523 ≤ n.toInt ∧ n.toInt ≤ 596523 := by
  have apart : lit "redis_ttl" ≠ lit "log_level" ∧ lit "in_memory_cache_ttl" ≠ lit "log_level" := by decide +kernel
  constructor
  · rintro ⟨redis,memory⟩ line member key value n isLine (rfl | rfl) isInt
    · obtain ⟨after,applied,kept⟩ := redis line member value n isLine isInt {}
      rw [applyLine_int isLine isInt apart.1 (settingFor_hours value).1,Except.ok.injEq] at applied
      subst applied
      exact (hours_kept_iff n).mp kept
    · obtain ⟨after,applied,kept⟩ := memory line member value n isLine isInt {}
      rw [applyLine_int isLine isInt apart.2 (settingFor_hours value).2,Except.ok.injEq] at applied
      subst applied
      exact (hours_kept_iff n).mp kept
  · intro inRange
    constructor
    · intro line member value n isLine isInt before
      exact ⟨_,applyLine_int isLine isInt apart.1 (settingFor_hours value).1 before,
        (hours_kept_iff n).mpr (inRange line member _ value n isLine (.inl rfl) isInt)⟩
    · intro line member value n isLine isInt before
      exact ⟨_,applyLine_int isLine isInt apart.2 (settingFor_hours value).2 before,
        (hours_kept_iff n).mpr (inRange line member _ value n isLine (.inr rfl) isInt)⟩

theorem size_iff :
    (∀ connected c, initializeCache config connected = .inMemory c →
      ∀ calls c' log, Runs.exec InMemoryCache.step c calls = some (c',log) →
        (c'.cache.keys.length : Int) ≤ max config.in_memory_cache_max_size.toInt 0) ↔
    1 ≤ config.in_memory_cache_max_size.toInt := by
  rw [← size_kept_iff config.in_memory_cache_ttl.toInt]
  constructor
  · intro bounded
    refine bounded false _ ?_
    simp [initializeCache]
  · intro bounded connected c built
    unfold initializeCache at built
    split at built
    · cases built
    · cases built
      exact bounded

end

/-- Every integer of a file that is loaded is used at its value exactly when all
    are in the ranges that the conversions keep. -/
theorem used_as_given_iff {hardware_concurrency : UInt32} {files : Bytes → Option Bytes}
    {startupArguments : OrderedMap Bytes Bytes} {config : AppConfig}
    (loaded : loadConfiguration hardware_concurrency files startupArguments = .ok config) :
    UsedAsGiven files config ↔ InRange files := by
  obtain ⟨frontend,size⟩ := loaded_settings loaded
  have defaultPort : 1 ≤ (9000 : Int32).toInt ∧ (9000 : Int32).toInt ≤ 65535 := by decide
  have defaultSize : 1 ≤ (10000 : Int32).toInt := by decide
  have portCounts := getD_iff (P := fun n => 1 ≤ n.toInt ∧ n.toInt ≤ 65535) defaultPort (lastPort files)
  have sizeCounts := getD_iff (P := fun n => 1 ≤ n.toInt) defaultSize (lastSize files)
  rw [← frontend] at portCounts
  rw [← size] at sizeCounts
  constructor
  · intro used
    exact ⟨hours_iff.mp ⟨used.redis_ttl,used.in_memory_cache_ttl⟩,portCounts.mp ((portKept_iff config).mp used.port),
      sizeCounts.mp (size_iff.mp used.size)⟩
  · intro inRange
    obtain ⟨redis,memory⟩ := hours_iff.mpr inRange.hours
    exact ⟨redis,memory,(portKept_iff config).mpr (portCounts.mpr inRange.port),size_iff.mpr (sizeCounts.mpr inRange.size)⟩

/-- A file within the ranges. -/
def moderate : Bytes → Option Bytes := inCurrentDirectory (lit "redis_ttl=24\nfrontend_port=80\n")

theorem used_as_given_iff_moderate : ∃ config, loadConfiguration 2 moderate [] = .ok config ∧
    UsedAsGiven moderate config := by
  have loads : (loadConfiguration 2 moderate []).isOk = true := by decide +kernel
  have hours : ((linesOf moderate).all fun line => (keyValue line).all fun b => (stringToInt b.2).all fun n =>
      decide (-596523 ≤ n.toInt ∧ n.toInt ≤ 596523)) = true := by
    decide +kernel
  have port : lastPort moderate = some 80 := by decide +kernel
  have size : lastSize moderate = none := by decide +kernel
  cases loaded : loadConfiguration 2 moderate [] with
  | error what =>
    rw [loaded] at loads
    cases loads
  | ok config =>
    refine ⟨config,rfl,(used_as_given_iff loaded).mpr ⟨?_,?_,?_⟩⟩
    · intro line member key value n isLine _ isInt
      have kept := List.all_eq_true.mp hours line member
      rw [isLine,Option.all_some,isInt,Option.all_some] at kept
      exact of_decide_eq_true kept
    · intro n given
      rw [port] at given
      cases given
      decide
    · intro n given
      rw [size] at given
      cases given

/-- A file whose hours, port and size are all accepted and out of range. -/
def extreme : Bytes → Option Bytes :=
  inCurrentDirectory (lit "redis_ttl=596524\nfrontend_port=70000\nin_memory_cache_max_size=0\n")

/-- The lifetime is negative, port 4464 is bound, and the cache takes an entry. -/
theorem extreme_not_as_given : ∃ config c, loadConfiguration 2 extreme [] = .ok config ∧
    config.redis_ttl.toInt = -2147480896 ∧ portOfServer config = 4464 ∧ config.in_memory_cache_max_size.toInt = 0 ∧
    initializeCache config false = .inMemory c ∧
    (∃ c' log, Runs.exec InMemoryCache.step c [.set (lit "1:US") (lit "x") 0 0] = some (c',log) ∧
      c'.cache.keys.length = 1) ∧ ¬ UsedAsGiven extreme config := by
  have facts : (loadConfiguration 2 extreme []).toOption.map (fun config =>
      (config.frontend_port.toInt,config.redis_ttl.toInt,config.in_memory_cache_max_size.toInt)) =
        some (70000,-2147480896,0) := by
    decide +kernel
  cases loaded : loadConfiguration 2 extreme [] with
  | error what =>
    rw [loaded] at facts
    cases facts
  | ok config =>
    simp only [loaded,Except.toOption,Option.map_some,Option.some.injEq,Prod.mk.injEq] at facts
    obtain ⟨port,ttl,size⟩ := facts
    refine ⟨config,_,rfl,ttl,?_,size,if_neg (by simp),one_entry _ _ _ _,?_⟩
    · rw [portOfServer,port]
      omega
    · intro used
      have valid := (portKept_iff config).mp used.port
      rw [port] at valid
      omega

end Facade.Configuration
