import Facade.OrderedMap
import Facade.Strings

/-!
The configuration: src/config/AppConfig.hpp and src/models/BackendUrlInfo.hpp.
An `int` is an `Int32`.
-/
namespace Facade
open Strings

structure BackendUrlInfo where
  url : Bytes
  backend_host : Bytes
  backend_port : Int
  is_https : Bool
deriving DecidableEq,Repr

inductive LogLevel
  | DEBUG
  | INFO
  | WARN
  | CERROR
  | SETUP
deriving DecidableEq,Repr

/-- `AppConfig`, with the defaults its constructor sets. -/
structure AppConfig where
  /-- Keyed by country code in upper case. -/
  country_backend_map : OrderedMap Bytes BackendUrlInfo := []
  use_redis : Bool := true
  redis_host : Bytes := lit "localhost"
  redis_port : Int32 := 6379
  redis_ttl : Int32 := 3600 * 24
  in_memory_cache_ttl : Int32 := 3600 * 24
  in_memory_cache_max_size : Int32 := 10000
  frontend_port : Int32 := 9000
  number_of_threads_per_core : Int32 := 2
  num_io_threads : UInt32 := 2
  max_response_queue_size : Int32 := 100000
  queue_multiply_factor : Int32 := 4
  log_level : LogLevel := .CERROR
  metrics_batch_size : Int32 := 100
  metrics_send_interval_in_millis : Int32 := 1000
  server_sla_in_micros : Int32 := 1000000
  request_average_processing_time_in_micros : Int32 := 1200
  drop_sla_timeout_requests : Bool := true
  backend_servers_circuit_breaker_cool_off_duration_in_millis : Int32 := 10
  connection_timeout_in_microseconds : Int32 := 25000
  read_request_timeout_in_microseconds : Int32 := 50000

namespace AppConfig

/-- `updateDeductions` on a machine with the given `hardware_concurrency()`. -/
def updateDeductions (hardware_concurrency : UInt32) (config : AppConfig) : AppConfig :=
  let threads := hardware_concurrency * config.number_of_threads_per_core.toUInt32
  let num_io_threads := if threads = 0 then 2 else threads
  { config with
    num_io_threads := num_io_threads
    max_response_queue_size :=
      (num_io_threads * (config.server_sla_in_micros / config.request_average_processing_time_in_micros).toUInt32 *
        config.queue_multiply_factor.toUInt32).toInt32 }

/-- What is left of the SLA, in microseconds, once the average processing time
    is set aside. -/
def slack (config : AppConfig) : Int :=
  config.server_sla_in_micros.toInt - config.request_average_processing_time_in_micros.toInt

end AppConfig
end Facade
