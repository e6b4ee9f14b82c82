import Mathlib.Data.List.Induction
import Facade.Configuration

/-!
`Utils::loadConfiguration` (src/utils/Utils.hpp) as a whole: the settings of
the configuration file, line by line, then the countries of the command line
and what is deduced from both. The file is the first of `config_paths` that
opens. An exception is an `error` with its text.

A line either says nothing or makes one `Setting`, and of the settings for a
key the last one counts (`loadConfiguration_eq_ok`). The exception is a
`log_level` that is not one of the known ones: where the other keys warn and go
on, it throws (`loadConfiguration_ignores_iff`).
-/
namespace Facade.Configuration
open Strings Streams

/-- `find_first_not_of(" \t\n\r")` and `find_last_not_of` stop at other bytes. -/
def isBlank (c : UInt8) : Bool := (lit " \t\n\r").contains c

/-- A string of blanks only is returned as it is. -/
def trim (str : Bytes) : Bytes :=
  if str.all isBlank then str else ((str.dropWhile isBlank).reverse.dropWhile isBlank).reverse

/-- `std::stoi` of the whole string: white space, a sign and digits, in the
    range of `int`. -/
def stringToInt (str : Bytes) : Option Int32 :=
  let (sign,digits) := IStream.takeSign (str.dropWhile isSpace)
  if digits ≠ [] ∧ digits.all isDigit then
    let val : Int := sign * IStream.decimal digits
    if -2147483648 ≤ val ∧ val ≤ 2147483647 then some (Int32.ofInt val) else none
  else none

def stringToLogLevel (level : Bytes) : Except Bytes LogLevel :=
  if level = lit "DEBUG" then .ok .DEBUG
  else if level = lit "INFO" then .ok .INFO
  else if level = lit "WARNING" then .ok .WARN
  else if level = lit "CERROR" then .ok .CERROR
  else .error (lit "Invalid log level: " ++ level)

/-- The branch of a key with an integer value: it is stored, or there is a
    warning. -/
def applyInt (value : Bytes) (store : Int32 → AppConfig) (config : AppConfig) : AppConfig :=
  match stringToInt value with
  | some val => store val
  | none => config

/-- "Apply config file values". The lifetimes are given in hours. -/
def applySetting (config : AppConfig) (key value : Bytes) : Except Bytes AppConfig :=
  if key = lit "frontend_port" then .ok (applyInt value (fun val => { config with frontend_port := val }) config)
  else if key = lit "redis_host" then .ok { config with redis_host := value }
  else if key = lit "redis_port" then .ok (applyInt value (fun val => { config with redis_port := val }) config)
  else if key = lit "log_level" then do
    let log_level ← stringToLogLevel value
    .ok { config with log_level := log_level }
  else if key = lit "redis_ttl" then .ok (applyInt value (fun val => { config with redis_ttl := val * 3600 }) config)
  else if key = lit "metrics_batch_size" then
    .ok (applyInt value (fun val => { config with metrics_batch_size := val }) config)
  else if key = lit "metrics_send_interval" then
    .ok (applyInt value (fun val => { config with metrics_send_interval_in_millis := val }) config)
  else if key = lit "in_memory_cache_max_size" then
    .ok (applyInt value (fun val => { config with in_memory_cache_max_size := val }) config)
  else if key = lit "in_memory_cache_ttl" then
    .ok (applyInt value (fun val => { config with in_memory_cache_ttl := val * 3600 }) config)
  else if key = lit "use_redis" then .ok (applyInt value (fun val => { config with use_redis := val == 1 }) config)
  else .ok config

/-- The key and the value of a line: none for an empty line, for a comment, and
    without a '=' after a key. -/
def keyValue (line : Bytes) : Option (Bytes × Bytes) :=
  let line := trim line
  if line = [] ∨ line.head? = some 35 then none
  else
    match line.findIdx? (· = 61) with
    | some delimiterPos =>
      if delimiterPos > 0 then some (trim (line.take delimiterPos),trim (line.drop (delimiterPos + 1))) else none
    | none => none

def applyLine (config : AppConfig) (line : Bytes) : Except Bytes AppConfig :=
  match keyValue line with
  | some (key,value) => applySetting config key value
  | none => .ok config

def config_paths : List Bytes :=
  [lit "backendify.config",lit "../backendify.config",lit "/app/backendify.config",lit "../../backendify.config"]

/-- `files` gives the text of a file that opens. -/
def loadConfiguration (hardware_concurrency : UInt32) (files : Bytes → Option Bytes)
    (startupArguments : OrderedMap Bytes Bytes) : Except Bytes AppConfig := do
  let config ← match config_paths.findSome? files with
    | some text => (getlines text).foldlM applyLine {}
    | none => .ok {}
  .ok ((loadCountries startupArguments config).updateDeductions hardware_concurrency)

/-! ### What the lines say -/

/-- What a line that can be used sets. -/
inductive Setting
  | frontend_port (n : Int32)
  | redis_host (host : Bytes)
  | redis_port (n : Int32)
  | log_level (level : LogLevel)
  | redis_ttl (hours : Int32)
  | metrics_batch_size (n : Int32)
  | metrics_send_interval (n : Int32)
  | in_memory_cache_max_size (n : Int32)
  | in_memory_cache_ttl (hours : Int32)
  | use_redis (n : Int32)
deriving DecidableEq

/-- The known log levels. -/
def logLevels : List (Bytes × LogLevel) :=
  [(lit "DEBUG",.DEBUG),(lit "INFO",.INFO),(lit "WARNING",.WARN),(lit "CERROR",.CERROR)]

/-- The setting that a key with its value makes, unless the key is not known or
    the value is no integer, or no known level. -/
def settingFor (key value : Bytes) : Option Setting :=
  if key = lit "frontend_port" then (stringToInt value).map .frontend_port
  else if key = lit "redis_host" then some (.redis_host value)
  else if key = lit "redis_port" then (stringToInt value).map .redis_port
  else if key = lit "log_level" then (logLevels.lookup value).map .log_level
  else if key = lit "redis_ttl" then (stringToInt value).map .redis_ttl
  else if key = lit "metrics_batch_size" then (stringToInt value).map .metrics_batch_size
  else if key = lit "metrics_send_interval" then (stringToInt value).map .metrics_send_interval
  else if key = lit "in_memory_cache_max_size" then (stringToInt value).map .in_memory_cache_max_size
  else if key = lit "in_memory_cache_ttl" then (stringToInt value).map .in_memory_cache_ttl
  else if key = lit "use_redis" then (stringToInt value).map .use_redis
  else none

/-- The setting of a line, unless the line cannot be used. -/
def settingOf (line : Bytes) : Option Setting := (keyValue line).bind fun (key,value) => settingFor key value

/-- The value that the last setting of a kind gives. -/
def lastOf {α : Type} (pick : Setting → Option α) (settings : List Setting) : Option α :=
  (settings.filterMap pick).getLast?

/-- The configuration in which every key has the value of its last setting, and
    its default without one. -/
def settled (settings : List Setting) : AppConfig where
  frontend_port := (lastOf (fun | .frontend_port n => some n | _ => none) settings).getD 9000
  redis_host := (lastOf (fun | .redis_host host => some host | _ => none) settings).getD (lit "localhost")
  redis_port := (lastOf (fun | .redis_port n => some n | _ => none) settings).getD 6379
  log_level := (lastOf (fun | .log_level level => some level | _ => none) settings).getD .CERROR
  redis_ttl := (lastOf (fun | .redis_ttl hours => some (hours * 3600) | _ => none) settings).getD (3600 * 24)
  metrics_batch_size := (lastOf (fun | .metrics_batch_size n => some n | _ => none) settings).getD 100
  metrics_send_interval_in_millis :=
    (lastOf (fun | .metrics_send_interval n => some n | _ => none) settings).getD 1000
  in_memory_cache_max_size := (lastOf (fun | .in_memory_cache_max_size n => some n | _ => none) settings).getD 10000
  in_memory_cache_ttl :=
    (lastOf (fun | .in_memory_cache_ttl hours => some (hours * 3600) | _ => none) settings).getD (3600 * 24)
  use_redis := (lastOf (fun | .use_redis n => some (n == 1) | _ => none) settings).getD true

def Setting.store (config : AppConfig) : Setting → AppConfig
  | .frontend_port n => { config with frontend_port := n }
  | .redis_host host => { config with redis_host := host }
  | .redis_port n => { config with redis_port := n }
  | .log_level level => { config with log_level := level }
  | .redis_ttl hours => { config with redis_ttl := hours * 3600 }
  | .metrics_batch_size n => { config with metrics_batch_size := n }
  | .metrics_send_interval n => { config with metrics_send_interval_in_millis := n }
  | .in_memory_cache_max_size n => { config with in_memory_cache_max_size := n }
  | .in_memory_cache_ttl hours => { config with in_memory_cache_ttl := hours * 3600 }
  | .use_redis n => { config with use_redis := n == 1 }

theorem lastOf_map {α β : Type} (f : α → β) (pick : Setting → Option α) (settings : List Setting) :
    lastOf (fun s => (pick s).map f) settings = (lastOf pick settings).map f := by
  rw [lastOf,lastOf,← List.getLast?_map,List.map_filterMap]

theorem lastOf_snoc {α : Type} (pick : Setting → Option α) (settings : List Setting) (s : Setting) :
    lastOf pick (settings ++ [s]) = (pick s).or (lastOf pick settings) := by
  unfold lastOf
  cases picked : pick s with
  | none => simp [picked]
  | some a => simp [picked]

theorem settled_snoc (settings : List Setting) (s : Setting) : settled (settings ++ [s]) = s.store (settled settings) := by
  cases s <;> simp [settled,Setting.store,lastOf_snoc]

/-- A `log_level` line without a known level. -/
def BadLevel (line : Bytes) : Prop := ∃ value, keyValue line = some (lit "log_level",value) ∧ logLevels.lookup value = none

theorem stringToLogLevel_eq (level : Bytes) :
    stringToLogLevel level = match logLevels.lookup level with
      | some found => .ok found
      | none => .error (lit "Invalid log level: " ++ level) := by
  unfold stringToLogLevel
  split_ifs with debug info warning cerror
  · rw [debug]; rfl
  · rw [info]; rfl
  · rw [warning]; rfl
  · rw [cerror]; rfl
  · have unknown : logLevels.lookup level = none := by
      simp only [logLevels,List.lookup_cons,List.lookup_nil,beq_false_of_ne debug,beq_false_of_ne info,
        beq_false_of_ne warning,beq_false_of_ne cerror]
    rw [unknown]

theorem applyInt_eq (value : Bytes) (setting : Int32 → Setting) (config : AppConfig) :
    applyInt value (fun val => (setting val).store config) config =
      ((stringToInt value).map setting).elim config (Setting.store config) := by
  unfold applyInt
  cases stringToInt value <;> rfl

/-- A level that is known is set; one that is not is thrown. -/
theorem setLevel_eq (value : Bytes) (config : AppConfig) :
    (do let log_level ← stringToLogLevel value
        .ok { config with log_level := log_level } : Except Bytes AppConfig) =
      match logLevels.lookup value with
      | some level => .ok ((Setting.log_level level).store config)
      | none => .error (lit "Invalid log level: " ++ value) := by
  rw [stringToLogLevel_eq]
  cases logLevels.lookup value <;> rfl

/-- A key with its value does what the setting it makes does, or nothing. -/
theorem applySetting_eq {key value : Bytes} (known : key = lit "log_level" → logLevels.lookup value ≠ none)
    (config : AppConfig) :
    applySetting config key value = .ok ((settingFor key value).elim config (Setting.store config)) := by
  unfold applySetting settingFor
  by_cases frontend : key = lit "frontend_port"
  · rw [if_pos frontend,if_pos frontend]
    exact congrArg Except.ok (applyInt_eq value .frontend_port config)
  rw [if_neg frontend,if_neg frontend]
  by_cases host : key = lit "redis_host"
  · rw [if_pos host,if_pos host]
    rfl
  rw [if_neg host,if_neg host]
  by_cases port : key = lit "redis_port"
  · rw [if_pos port,if_pos port]
    exact congrArg Except.ok (applyInt_eq value .redis_port config)
  rw [if_neg port,if_neg port]
  by_cases level : key = lit "log_level"
  · obtain ⟨found,isLevel⟩ := Option.ne_none_iff_exists'.mp (known level)
    rw [if_pos level,if_pos level,setLevel_eq,isLevel]
    rfl
  rw [if_neg level,if_neg level]
  by_cases ttl : key = lit "redis_ttl"
  · rw [if_pos ttl,if_pos ttl]
    exact congrArg Except.ok (applyInt_eq value .redis_ttl config)
  rw [if_neg ttl,if_neg ttl]
  by_cases batch : key = lit "metrics_batch_size"
  · rw [if_pos batch,if_pos batch]
    exact congrArg Except.ok (applyInt_eq value .metrics_batch_size config)
  rw [if_neg batch,if_neg batch]
  by_cases interval : key = lit "metrics_send_interval"
  · rw [if_pos interval,if_pos interval]
    exact congrArg Except.ok (applyInt_eq value .metrics_send_interval config)
  rw [if_neg interval,if_neg interval]
  by_cases size : key = lit "in_memory_cache_max_size"
  · rw [if_pos size,if_pos size]
    exact congrArg Except.ok (applyInt_eq value .in_memory_cache_max_size config)
  rw [if_neg size,if_neg size]
  by_cases memory : key = lit "in_memory_cache_ttl"
  · rw [if_pos memory,if_pos memory]
    exact congrArg Except.ok (applyInt_eq value .in_memory_cache_ttl config)
  rw [if_neg memory,if_neg memory]
  by_cases redis : key = lit "use_redis"
  · rw [if_pos redis,if_pos redis]
    exact congrArg Except.ok (applyInt_eq value .use_redis config)
  rw [if_neg redis,if_neg redis]
  rfl

/-- The key of the level is none of those compared before it. -/
theorem level_apart : lit "log_level" ≠ lit "frontend_port" ∧ lit "log_level" ≠ lit "redis_host" ∧
    lit "log_level" ≠ lit "redis_port" := by decide +kernel

theorem applyLine_eq {line : Bytes} (known : ¬ BadLevel line) (config : AppConfig) :
    applyLine config line = .ok ((settingOf line).elim config (Setting.store config)) := by
  unfold applyLine settingOf
  cases found : keyValue line with
  | none => rfl
  | some pair =>
    obtain ⟨key,value⟩ := pair
    refine applySetting_eq ?_ config
    rintro rfl unknown
    exact known ⟨value,found,unknown⟩

theorem applyLine_badLevel {line : Bytes} (bad : BadLevel line) (config : AppConfig) :
    ∃ what, applyLine config line = .error what := by
  obtain ⟨value,found,unknown⟩ := bad
  obtain ⟨frontend,host,port⟩ := level_apart
  refine ⟨lit "Invalid log level: " ++ value,?_⟩
  unfold applyLine applySetting
  simp only [found,if_neg frontend,if_neg host,if_neg port,if_true,setLevel_eq,unknown]

theorem settingOf_badLevel {line : Bytes} (bad : BadLevel line) : settingOf line = none := by
  obtain ⟨value,found,unknown⟩ := bad
  obtain ⟨frontend,host,port⟩ := level_apart
  unfold settingOf settingFor
  simp only [found,Option.bind_some,if_neg frontend,if_neg host,if_neg port,if_true,unknown,Option.map_none]

/-- Reading the lines makes their settings, unless one has a bad level. -/
theorem foldlM_applyLine {lines : List Bytes} (known : ∀ line ∈ lines, ¬ BadLevel line) :
    lines.foldlM applyLine {} = .ok (settled (lines.filterMap settingOf)) := by
  induction lines using List.reverseRecOn with
  | nil => rfl
  | append_singleton lines line ih =>
    rw [List.foldlM_append,ih fun other member => known other (by simp [member])]
    show (applyLine _ line >>= fun config => .ok config) = _
    rw [applyLine_eq (known line (by simp)),List.filterMap_append]
    cases found : settingOf line with
    | none => simp [found,bind,Except.bind]
    | some setting => simp [found,settled_snoc,bind,Except.bind]

theorem foldlM_badLevel {lines : List Bytes} {line : Bytes} (member : line ∈ lines) (bad : BadLevel line)
    (config : AppConfig) : ∃ what, lines.foldlM applyLine config = .error what := by
  induction lines generalizing config with
  | nil => cases member
  | cons first rest ih =>
    rw [List.foldlM_cons]
    rcases List.mem_cons.mp member with rfl | later
    · obtain ⟨what,thrown⟩ := applyLine_badLevel bad config
      exact ⟨what,by rw [thrown]; rfl⟩
    · cases taken : applyLine config first with
      | error what => exact ⟨what,rfl⟩
      | ok config' => exact ih later config'

/-! ### The configuration loaded -/

/-- The settings of the file that is read, in the order of its lines. -/
def settingsOf (files : Bytes → Option Bytes) : List Setting :=
  match config_paths.findSome? files with
  | some text => (getlines text).filterMap settingOf
  | none => []

/-- No line of the file that is read gives `log_level` an unknown value. -/
def KnownLevels (files : Bytes → Option Bytes) : Prop :=
  ∀ text, config_paths.findSome? files = some text → ∀ line ∈ getlines text, ¬ BadLevel line

theorem loadConfiguration_eq_ok {files : Bytes → Option Bytes} (known : KnownLevels files)
    (hardware_concurrency : UInt32) (startupArguments : OrderedMap Bytes Bytes) :
    loadConfiguration hardware_concurrency files startupArguments =
      .ok ((loadCountries startupArguments (settled (settingsOf files))).updateDeductions hardware_concurrency) := by
  unfold loadConfiguration settingsOf
  cases found : config_paths.findSome? files with
  | none => rfl
  | some text =>
    simp only [foldlM_applyLine (known text found)]
    rfl

theorem loadConfiguration_error {files : Bytes → Option Bytes} (unknown : ¬ KnownLevels files)
    (hardware_concurrency : UInt32) (startupArguments : OrderedMap Bytes Bytes) :
    ∃ what, loadConfiguration hardware_concurrency files startupArguments = .error what := by
  simp only [KnownLevels,not_forall,not_not] at unknown
  obtain ⟨text,found,line,member,bad⟩ := unknown
  obtain ⟨what,thrown⟩ := foldlM_badLevel member bad {}
  refine ⟨what,?_⟩
  unfold loadConfiguration
  simp only [found,thrown]
  rfl

theorem knownLevels_of_ok {hardware_concurrency : UInt32} {files : Bytes → Option Bytes}
    {startupArguments : OrderedMap Bytes Bytes} {config : AppConfig}
    (loaded : loadConfiguration hardware_concurrency files startupArguments = .ok config) : KnownLevels files := by
  by_contra unknown
  obtain ⟨what,thrown⟩ := loadConfiguration_error unknown hardware_concurrency startupArguments
  rw [thrown] at loaded
  cases loaded

/-- The response queues have 6664 places for each core, and the product overflows only
    with more than 322251 of them. -/
theorem loaded_queue {hardware_concurrency : UInt32} {files : Bytes → Option Bytes}
    {startupArguments : OrderedMap Bytes Bytes} {config : AppConfig}
    (loaded : loadConfiguration hardware_concurrency files startupArguments = .ok config)
    (cores : hardware_concurrency.toNat ≤ 322251) :
    config.max_response_queue_size.toInt = 6664 * max 1 hardware_concurrency.toNat := by
  rw [loadConfiguration_eq_ok (knownLevels_of_ok loaded),Except.ok.injEq] at loaded
  subst loaded
  have factors : (2 : Int32).toUInt32 = 2 ∧ ((1000000 : Int32) / 1200).toUInt32 = 833 ∧ (4 : Int32).toUInt32 = 4 := by
    decide
  show ((if hardware_concurrency * (2 : Int32).toUInt32 = 0 then 2 else hardware_concurrency * (2 : Int32).toUInt32) *
    ((1000000 : Int32) / 1200).toUInt32 * (4 : Int32).toUInt32).toInt32.toInt = _
  rw [factors.1,factors.2.1,factors.2.2]
  have threads : (hardware_concurrency * 2).toNat = 2 * hardware_concurrency.toNat := by
    rw [UInt32.toNat_mul]
    show hardware_concurrency.toNat * 2 % 4294967296 = _
    omega
  by_cases none_ : hardware_concurrency * 2 = 0
  · rw [none_] at threads
    simp only [none_,if_true]
    have single : hardware_concurrency.toNat = 0 := by
      have zero : (0 : UInt32).toNat = 0 := rfl
      omega
    rw [single]
    decide
  · rw [if_neg none_]
    have some_ : hardware_concurrency.toNat ≠ 0 := by
      intro zero
      exact none_ (UInt32.toNat_inj.mp (by rw [threads,zero]; rfl))
    have product : (hardware_concurrency * 2 * 833 * 4).toNat = 6664 * hardware_concurrency.toNat := by
      rw [UInt32.toNat_mul,UInt32.toNat_mul,threads]
      show 2 * hardware_concurrency.toNat * 833 % 4294967296 * 4 % 4294967296 = _
      omega
    have signed (n : UInt32) : n.toInt32.toInt = (n.toNat : Int).bmod (2 ^ 32) := BitVec.toInt_eq_toNat_bmod n.toBitVec
    rw [signed,product,Int.bmod_eq_of_le (by omega) (by omega)]
    omega

theorem loaded_positive {hardware_concurrency : UInt32} {files : Bytes → Option Bytes}
    {startupArguments : OrderedMap Bytes Bytes} {config : AppConfig}
    (loaded : loadConfiguration hardware_concurrency files startupArguments = .ok config)
    (cores : hardware_concurrency.toNat ≤ 322251) : 1 ≤ config.max_response_queue_size := by
  have places := loaded_queue loaded cores
  rw [Int32.le_iff_toInt_le,places]
  show (1 : Int) ≤ _
  omega

/-- The line says nothing that can be used. -/
def unusable (line : Bytes) : Bool := (settingOf line).isNone

/-- The files with the lines that cannot be used deleted. -/
def withoutUnusable (files : Bytes → Option Bytes) (path : Bytes) : Option Bytes :=
  (files path).map (deleteLines unusable)

/-- The configuration is loaded, it is the one loaded without the lines that
    cannot be used, and every key has the value of its last usable line. -/
def IgnoresUnusable (hardware_concurrency : UInt32) (files : Bytes → Option Bytes)
    (startupArguments : OrderedMap Bytes Bytes) : Prop :=
  ∃ config, loadConfiguration hardware_concurrency files startupArguments = .ok config ∧
    loadConfiguration hardware_concurrency (withoutUnusable files) startupArguments = .ok config ∧
    config = (loadCountries startupArguments (settled (settingsOf files))).updateDeductions hardware_concurrency

theorem findSome?_withoutUnusable (files : Bytes → Option Bytes) :
    config_paths.findSome? (withoutUnusable files) = (config_paths.findSome? files).map (deleteLines unusable) := by
  rw [List.map_findSome?]
  rfl

theorem mem_getlines_withoutUnusable {text line : Bytes} (member : line ∈ getlines (deleteLines unusable text)) :
    line ∈ getlines text ∧ settingOf line ≠ none := by
  rw [getlines_deleteLines rfl,List.mem_filter] at member
  refine ⟨member.1,?_⟩
  intro useless
  simp [unusable,useless] at member

theorem settingsOf_withoutUnusable (files : Bytes → Option Bytes) :
    settingsOf (withoutUnusable files) = settingsOf files := by
  unfold settingsOf
  rw [findSome?_withoutUnusable]
  cases config_paths.findSome? files with
  | none => rfl
  | some text =>
    show (getlines (deleteLines unusable text)).filterMap settingOf = _
    rw [getlines_deleteLines rfl,List.filterMap_filter]
    congr 1
    funext line
    cases useful : settingOf line with
    | none => simp
    | some setting => simp [unusable,useful]

theorem knownLevels_withoutUnusable (files : Bytes → Option Bytes) : KnownLevels (withoutUnusable files) := by
  intro text found line member bad
  rw [findSome?_withoutUnusable,Option.map_eq_some_iff] at found
  obtain ⟨whole,_,rfl⟩ := found
  exact (mem_getlines_withoutUnusable member).2 (settingOf_badLevel bad)

/-- The lines that cannot be used have no effect, for every file and every
    command line, exactly when every `log_level` is a known one. -/
theorem loadConfiguration_ignores_iff (hardware_concurrency : UInt32) (files : Bytes → Option Bytes)
    (startupArguments : OrderedMap Bytes Bytes) :
    IgnoresUnusable hardware_concurrency files startupArguments ↔ KnownLevels files := by
  constructor
  · rintro ⟨config,loaded,_⟩
    exact knownLevels_of_ok loaded
  · intro known
    refine ⟨_,loadConfiguration_eq_ok known _ _,?_,rfl⟩
    rw [loadConfiguration_eq_ok (knownLevels_withoutUnusable files),settingsOf_withoutUnusable]

/-- A text as the file of the current directory. -/
def inCurrentDirectory (text : Bytes) (path : Bytes) : Option Bytes :=
  if path = lit "backendify.config" then some text else none

/-- The level that the comment of the file lists as available. -/
def setupLevel : Bytes → Option Bytes := inCurrentDirectory (lit "log_level=SETUP\n")

theorem setup_level_throws : loadConfiguration 2 setupLevel [] = .error (lit "Invalid log level: SETUP") ∧
    ¬ IgnoresUnusable 2 setupLevel [] := by
  have refused : (loadConfiguration 2 setupLevel []).isOk = false := by decide +kernel
  have text : (match loadConfiguration 2 setupLevel [] with
      | .error what => what
      | .ok _ => []) = lit "Invalid log level: SETUP" := by
    decide +kernel
  cases thrown : loadConfiguration 2 setupLevel [] with
  | ok config =>
    rw [thrown] at refused
    cases refused
  | error what =>
    simp only [thrown] at text
    refine ⟨by rw [text],?_⟩
    rintro ⟨config,loaded,_⟩
    rw [thrown] at loaded
    cases loaded

end Facade.Configuration
