import Facade.Metrics
import Mathlib.Algebra.Order.BigOperators.Group.List
import Mathlib.Data.List.Flatten

/-!
The service with its StatsD client. A step of the service sends the metric that it
increments before it answers; between the steps run the batching thread, `flush`
and the destructor of the `UDPSender`.

A server that adds up the counters in the lines it gets finds for each metric
what happened in the service: exactly, over all lines that were sent or are still
to be sent (`counters_add_up`), and never more, over those that arrived
(`never_overcounted`).
-/
namespace Facade
open Strings StatsD Backendify

namespace StatsD

/-- What a line adds to a counter. -/
def counted (key text : Bytes) : Int :=
  match read text with
  | some (.counter k value) => if k = key then value else 0
  | _ => 0

/-- What the lines add up to for a counter. -/
def total (key : Bytes) (texts : List Bytes) : Int := (texts.map (counted key)).sum

/-- The order of the lines does not matter. -/
theorem total_perm (key : Bytes) {first second : List Bytes} (perm : first.Perm second) :
    total key first = total key second :=
  (perm.map (counted key)).sum_eq

end StatsD

/-- The service and the sender of its StatsD client. -/
structure Monitored (cache : CacheInterface) where
  service : Service cache
  sender : Sending

namespace Monitored

/-- A step of the service, with the `errno` of a datagram that is sent at once, or
    a step of the sender that is no call of `send`. -/
inductive Action
  | service (a : Service.Action) (err : Option Int)
  | sender (a : Sending.Action)

inductive Event
  | service (e : Service.Event)
  | sender (e : Sending.Event)

section
variable (cache : CacheInterface) (config : AppConfig) (library : JsonLibrary) (parse_error : Bytes → Bool)

def start (udp_sender_ : UDPSender) : Monitored cache := ⟨Service.start cache,Sending.start udp_sender_⟩

/-- `increment` of a metric by the service, whose step goes on unless that ends
    the process. -/
def report (s : Monitored cache) (metric : MetricsDefinitions) (err : Option Int) (service : Service cache)
    (out : List Service.Event) : Option (Monitored cache × List Event) :=
  match Sending.step s.sender (.send (increment metric.key 1) err) with
  | none => none
  | some (sender,told) =>
    if sender.life = .terminated then some ({ s with sender := sender },told.map .sender)
    else some (⟨service,sender⟩,told.map .sender ++ out.map .service)

def step (s : Monitored cache) : Action → Option (Monitored cache × List Event)
  | .service a err =>
    if s.sender.life = .alive then
      match Service.step cache config library s.service a with
      | none => none
      | some (service,out) =>
        match Service.metricOf cache config library parse_error s.service a with
        | none => some ({ s with service := service },out.map .service)
        | some metric => report cache s metric err service out
    else none
  | .sender (.send ..) => none
  | .sender a => (Sending.step s.sender a).map fun r => ({ s with sender := r.1 },r.2.map .sender)

end

def ofService (log : List Event) : List Service.Event := log.filterMap fun | .service e => some e | _ => none
def ofSender (log : List Event) : List Sending.Event := log.filterMap fun | .sender e => some e | _ => none

/-- The actions of the service. -/
def served (acts : List Action) : List Service.Action := acts.filterMap fun | .service a _ => some a | _ => none

@[simp] theorem ofService_append (log more : List Event) : ofService (log ++ more) = ofService log ++ ofService more :=
  List.filterMap_append
@[simp] theorem ofSender_append (log more : List Event) : ofSender (log ++ more) = ofSender log ++ ofSender more :=
  List.filterMap_append
@[simp] theorem ofService_service (out : List Service.Event) : ofService (out.map .service) = out := by
  simp [ofService]
@[simp] theorem ofService_sender (out : List Sending.Event) : ofService (out.map .sender) = [] := by
  simp [ofService]
@[simp] theorem ofSender_sender (out : List Sending.Event) : ofSender (out.map .sender) = out := by
  simp [ofSender]
@[simp] theorem ofSender_service (out : List Service.Event) : ofSender (out.map .service) = [] := by
  simp [ofSender]

theorem served_service (acts : List Action) (a : Service.Action) (err : Option Int) :
    served (acts ++ [.service a err]) = served acts ++ [a] := by
  simp [served]

theorem served_sender (acts : List Action) (a : Sending.Action) : served (acts ++ [.sender a]) = served acts := by
  simp [served]

/-- The message of a metric. -/
def incrementOf (metric : MetricsDefinitions) : Bytes := increment metric.key 1

variable {cache : CacheInterface} {config : AppConfig} {library : JsonLibrary} {parse_error : Bytes → Bool}
variable {udp_sender_ : UDPSender}

/-- Everything a step can do, but for the order of what it reports. -/
inductive Taken (config : AppConfig) (library : JsonLibrary) (parse_error : Bytes → Bool) (s : Monitored cache) :
    Action → Monitored cache → List Event → Prop
  | quiet (a : Service.Action) (err : Option Int) (service : Service cache) (out : List Service.Event) :
      Service.step cache config library s.service a = some (service,out) →
      Service.metricOf cache config library parse_error s.service a = none →
      Taken config library parse_error s (.service a err) { s with service := service } (out.map .service)
  | reported (a : Service.Action) (err : Option Int) (service : Service cache) (out : List Service.Event)
      (metric : MetricsDefinitions) (sender : Sending) (told : List Sending.Event) :
      Service.step cache config library s.service a = some (service,out) →
      Service.metricOf cache config library parse_error s.service a = some metric →
      Sending.step s.sender (.send (incrementOf metric) err) = some (sender,told) → sender.life ≠ .terminated →
      Taken config library parse_error s (.service a err) ⟨service,sender⟩ (told.map .sender ++ out.map .service)
  | ended (a : Service.Action) (err : Option Int) (metric : MetricsDefinitions) (sender : Sending)
      (told : List Sending.Event) :
      Sending.step s.sender (.send (incrementOf metric) err) = some (sender,told) → sender.life = .terminated →
      Taken config library parse_error s (.service a err) { s with sender := sender } (told.map .sender)
  | sending (a : Sending.Action) (sender : Sending) (told : List Sending.Event) : (∀ m err, a ≠ .send m err) →
      Sending.step s.sender a = some (sender,told) →
      Taken config library parse_error s (.sender a) { s with sender := sender } (told.map .sender)

theorem step_taken {s s' : Monitored cache} {a : Action} {out : List Event}
    (taken : step cache config library parse_error s a = some (s',out)) :
    Taken config library parse_error s a s' out := by
  cases a with
  | service a err =>
    simp only [step,Option.ite_none_right_eq_some] at taken
    obtain ⟨_,taken⟩ := taken
    split at taken
    · cases taken
    · rename_i service told stepped
      split at taken
      · rename_i none
        cases taken
        exact .quiet a err service told stepped none
      · rename_i metric some_metric
        unfold report at taken
        split at taken
        · cases taken
        · rename_i sender heard sent
          split at taken
          · rename_i terminated
            cases taken
            exact .ended a err metric sender heard sent terminated
          · rename_i goes
            cases taken
            exact .reported a err service told metric sender heard stepped some_metric sent goes
  | sender a =>
    have mapped : (∀ m err, a ≠ .send m err) →
        (Sending.step s.sender a).map (fun r => (({ s with sender := r.1 } : Monitored cache),r.2.map Event.sender)) =
          some (s',out) → Taken config library parse_error s (.sender a) s' out := by
      intro no_send found
      obtain ⟨⟨sender,told⟩,stepped,same⟩ := Option.map_eq_some_iff.mp found
      cases same
      exact .sending a sender told no_send stepped
    cases a with
    | send m err => simp [step] at taken
    | thread err => exact mapped (by simp) taken
    | flush => exact mapped (by simp) taken
    | flushNext err => exact mapped (by simp) taken
    | destroy => exact mapped (by simp) taken
    | join => exact mapped (by simp) taken

/-! ### What the sender gets -/

theorem lives_of_step {d d' : Sending} {a : Sending.Action} {out : List Sending.Event}
    (stepped : Sending.step d a = some (d',out)) : d.life ≠ .terminated := by
  intro terminated
  cases Sending.step_moves stepped with
  | queued | refused | direct | locked | flushed | unlocked | destroyed | ending | joined => simp_all
  | looked err has life | took err has life | delivered front rest err text has life | rested err has life
  | woke err has life =>
    rw [terminated] at life
    rcases life with now | now <;> cases now

theorem accepted_send {d d' : Sending} {message : Bytes} {err : Option Int} {out : List Sending.Event}
    (stepped : Sending.step d (.send message err) = some (d',out)) (goes : d'.life ≠ .terminated) :
    Sending.accepted out = [message] := by
  cases Sending.step_moves stepped with
  | queued | direct => rfl
  | refused => exact absurd rfl goes

theorem accepted_other {d d' : Sending} {a : Sending.Action} {out : List Sending.Event}
    (stepped : Sending.step d a = some (d',out)) (other : ∀ m err, a ≠ .send m err) : Sending.accepted out = [] := by
  cases Sending.step_moves stepped with
  | queued m err | refused m err | direct m err => exact absurd rfl (other m err)
  | _ => rfl

/-- The sender is in a state of a run of its own. -/
theorem sender_run {acts : List Action} {s : Monitored cache} {log : List Event}
    (run : Runs.Run (step cache config library parse_error) (start cache udp_sender_) acts s log) :
    ∃ sends, Runs.Run Sending.step (Sending.start udp_sender_) sends s.sender (ofSender log) := by
  refine run.invariant (fun s log => ∃ sends, Runs.Run Sending.step (Sending.start udp_sender_) sends s.sender
    (ofSender log)) ⟨[],.start⟩ ?_
  rintro s log a s' out ⟨sends,earlier⟩ taken
  cases step_taken taken with
  | quiet => exact ⟨sends,by simpa using earlier⟩
  | reported a err service out metric sender told _ _ sent =>
    exact ⟨_,by simpa using earlier.next sent⟩
  | ended a err metric sender told sent => exact ⟨_,by simpa using earlier.next sent⟩
  | sending a sender told _ stepped => exact ⟨_,by simpa using earlier.next stepped⟩

/-- Until the process ends, the service is where its own run leads, and the sender
    got the metrics of that run in their order. -/
theorem service_run {acts : List Action} {s : Monitored cache} {log : List Event}
    (run : Runs.Run (step cache config library parse_error) (start cache udp_sender_) acts s log)
    (goes : s.sender.life ≠ .terminated) :
    Runs.Run (Service.step cache config library) (Service.start cache) (served acts) s.service (ofService log) ∧
      Sending.accepted (ofSender log) =
        (Service.metricsOf cache config library parse_error (Service.start cache) (served acts)).map incrementOf := by
  induction run with
  | start => exact ⟨.start,rfl⟩
  | @next acts s s' log out a earlier taken ih =>
    cases step_taken taken with
    | quiet a err service out stepped none =>
      obtain ⟨before,got⟩ := ih goes
      rw [served_service,ofService_append,ofService_service,ofSender_append,ofSender_service,List.append_nil]
      refine ⟨before.next stepped,?_⟩
      rw [Service.metricsOf_snoc a before,none,got]
      simp
    | reported a err service out metric sender told stepped some_metric sent goes =>
      obtain ⟨before,got⟩ := ih (lives_of_step sent)
      rw [served_service,ofService_append,ofService_append,ofService_sender,ofService_service,ofSender_append,
        ofSender_append,ofSender_sender,ofSender_service,List.nil_append,List.append_nil]
      refine ⟨before.next stepped,?_⟩
      rw [Service.metricsOf_snoc a before,some_metric,Sending.accepted_append,got,accepted_send sent goes]
      simp
    | ended a err metric sender told _ terminated => exact absurd terminated goes
    | sending a sender told other stepped =>
      obtain ⟨before,got⟩ := ih (lives_of_step stepped)
      rw [served_sender,ofService_append,ofService_sender,ofSender_append,ofSender_sender,List.append_nil]
      refine ⟨before,?_⟩
      rw [Sending.accepted_append,accepted_other stepped other,List.append_nil]
      exact got

/-! ### What the lines add up to -/

theorem incrementOf_ne_nil (metric : MetricsDefinitions) : incrementOf metric ≠ [] := by
  simp [incrementOf,increment,line]

theorem lines_incrementOf (metrics : List MetricsDefinitions) :
    Sending.lines (metrics.map incrementOf) = metrics.map incrementOf := by
  induction metrics with
  | nil => rfl
  | cons metric metrics ih =>
    have unbroken : UDPSender.separator ∉ incrementOf metric := by cases metric <;> decide +kernel
    rw [List.map_cons,show incrementOf metric :: metrics.map incrementOf =
      [incrementOf metric] ++ metrics.map incrementOf from rfl,Sending.lines_append,ih]
    simp [Sending.lines,Batching.lines,List.splitOn_eq_singleton unbroken,incrementOf_ne_nil metric]

theorem counted_incrementOf (metric other : MetricsDefinitions) :
    counted metric.key (incrementOf other) = if other = metric then 1 else 0 := by
  have plain : 58 ∉ other.key := by cases other <;> decide
  have found : read (incrementOf other) = some (.counter other.key 1) :=
    read_message (m := .increment other.key 1) plain
  simp only [counted,found]
  exact if_congr ⟨MetricsDefinitions.key_injective,congrArg _⟩ rfl rfl

theorem total_incrementOf (metric : MetricsDefinitions) (metrics : List MetricsDefinitions) :
    total metric.key (metrics.map incrementOf) = metrics.count metric := by
  induction metrics with
  | nil => rfl
  | cons other metrics ih =>
    have first : total metric.key ((other :: metrics).map incrementOf) =
        counted metric.key (incrementOf other) + total metric.key (metrics.map incrementOf) := by simp [total]
    rw [first,ih,counted_incrementOf,List.count_cons]
    by_cases same : other = metric
    · simp [same]
      omega
    · simp [same]

/-- How what lines add up to compares with what happened in the service. -/
structure AddUp (r : Int → Int → Prop) (library : JsonLibrary) (parse_error : Bytes → Bool) (texts : List Bytes)
    (acts : List Service.Action) (log : List Service.Event) : Prop where
  late : r (total MetricsDefinitions.REQUEST_TIMED_OUT.key texts) (log.countP Service.isLate)
  tripping : r (total MetricsDefinitions.CIRCUIT_BREAKER_LOGGED.key texts) (acts.countP Service.isTripping)
  unreadable : r (total MetricsDefinitions.JSON_ERROR.key texts) (log.countP (Service.isUnreadable library parse_error))
  unexpected : r (total MetricsDefinitions.CODE_EXCEPTION.key texts)
    (log.countP (Service.isUnexpected library parse_error))

section
variable {net : Network} {host : Bytes} {port : UInt16} {batchsize sendInterval : UInt64} {acts : List Action}
variable {s : Monitored cache} {log : List Event}

/-- All lines there are, sent or not, are the messages of the metrics. -/
theorem lines_perm (run : Runs.Run (step cache config library parse_error)
      (start cache (.new net host port batchsize sendInterval)) acts s log) (goes : s.sender.life ≠ .terminated) :
    (Sending.lines (Sending.datagrams (ofSender log) ++ s.sender.staged ++ s.sender.sender.m_batchingMessageQueue)).Perm
      ((Service.metricsOf cache config library parse_error (Service.start cache) (served acts)).map incrementOf) := by
  obtain ⟨sends,sending⟩ := sender_run run
  obtain ⟨_,got⟩ := service_run run goes
  have kept := Sending.lines_kept sending
  rw [got,lines_incrementOf] at kept
  exact kept

theorem total_run (run : Runs.Run (step cache config library parse_error)
      (start cache (.new net host port batchsize sendInterval)) acts s log) (goes : s.sender.life ≠ .terminated)
    (metric : MetricsDefinitions) :
    total metric.key
        (Sending.lines (Sending.datagrams (ofSender log) ++ s.sender.staged ++ s.sender.sender.m_batchingMessageQueue)) =
      (Service.metricsOf cache config library parse_error (Service.start cache) (served acts)).count metric :=
  (total_perm metric.key (lines_perm run goes)).trans (total_incrementOf metric _)

/-- Until the process ends, the lines that were sent or are still to be sent add
    up for each metric to what happened in the service, in every interleaving. -/
theorem counters_add_up (run : Runs.Run (step cache config library parse_error)
      (start cache (.new net host port batchsize sendInterval)) acts s log) (goes : s.sender.life ≠ .terminated) :
    AddUp Eq library parse_error
      (Sending.lines (Sending.datagrams (ofSender log) ++ s.sender.staged ++ s.sender.sender.m_batchingMessageQueue))
      (served acts) (ofService log) := by
  obtain ⟨late,tripping,unreadable,unexpected⟩ :=
    Service.counted_run (service_run run goes).1
  constructor
  · rw [total_run run goes,late]
  · rw [total_run run goes,tripping]
  · rw [total_run run goes,unreadable]
  · rw [total_run run goes,unexpected]

/-- A request that comes after three seconds. -/
def lateRequest : Service.Action := .request companyRequest 0 true ⟨3000000000,0,fun _ => 0⟩

/-- It is dropped, and the thread sends the metric. -/
def droppedOnce : List Action :=
  [.sender (.thread none),.service lateRequest none,.sender (.thread none),.sender (.thread none)]

theorem counters_add_up_droppedOnce : ∃ s log,
    Runs.Run (step .everlasting usConfig (.tabled []) fun _ => true) (start .everlasting Sending.localSender) droppedOnce
      s log ∧
    Sending.datagrams (ofSender log) = [lit "metric.5:1|c"] ∧
    AddUp Eq (.tabled []) (fun _ => true)
      (Sending.lines (Sending.datagrams (ofSender log) ++ s.sender.staged ++ s.sender.sender.m_batchingMessageQueue))
      (served droppedOnce) (ofService log) := by
  have executed : (Runs.exec (step .everlasting usConfig (.tabled []) fun _ => true)
      (start .everlasting Sending.localSender) droppedOnce).isSome = true := by decide +kernel
  have run := Runs.Run.of_isSome executed
  exact ⟨_,_,run,by decide +kernel,counters_add_up run (by decide +kernel)⟩

/-- The datagrams that did not fail. -/
def arrived (log : List Sending.Event) : List Bytes :=
  log.filterMap fun | .sendto _ message none => some message | _ => none

theorem arrived_sublist (log : List Sending.Event) : (arrived log).Sublist (Sending.datagrams log) := by
  induction log with
  | nil => exact .slnil
  | cons e log ih =>
    cases e with
    | accepted | took | terminated => simpa [arrived,Sending.datagrams] using ih
    | sendto m_server message err =>
      cases err with
      | none => simpa [arrived,Sending.datagrams] using ih
      | some errno => simpa [arrived,Sending.datagrams] using ih.cons message

/-- A server never counts more than what happened, whatever datagrams were lost. -/
theorem never_overcounted (run : Runs.Run (step cache config library parse_error)
      (start cache (.new net host port batchsize sendInterval)) acts s log) (goes : s.sender.life ≠ .terminated) :
    AddUp (· ≤ ·) library parse_error (Sending.lines (arrived (ofSender log))) (served acts) (ofService log) := by
  obtain ⟨late,tripping,unreadable,unexpected⟩ :=
    Service.counted_run (service_run run goes).1
  have perm := lines_perm run goes
  have totals := total_run run goes
  generalize everything : Sending.datagrams (ofSender log) ++ s.sender.staged ++
    s.sender.sender.m_batchingMessageQueue = batches at perm totals
  have part : (arrived (ofSender log)).Sublist batches := by
    rw [← everything,List.append_assoc]
    exact (arrived_sublist (ofSender log)).trans (List.sublist_append_left _ _)
  have below (metric : MetricsDefinitions) : total metric.key (Sending.lines (arrived (ofSender log))) ≤
      (Service.metricsOf cache config library parse_error (Service.start cache) (served acts)).count metric := by
    rw [← totals]
    -- no line counts less than zero
    refine ((part.flatMap _).map (counted metric.key)).sum_le_sum fun n member => ?_
    obtain ⟨text,inside,rfl⟩ := List.mem_map.mp member
    obtain ⟨other,_,rfl⟩ := List.mem_map.mp (perm.subset inside)
    rw [counted_incrementOf]
    split <;> decide
  constructor
  · exact late ▸ below .REQUEST_TIMED_OUT
  · exact tripping ▸ below .CIRCUIT_BREAKER_LOGGED
  · exact unreadable ▸ below .JSON_ERROR
  · exact unexpected ▸ below .CODE_EXCEPTION

/-- The datagram fails. -/
def droppedUnheard : List Action :=
  [.sender (.thread none),.service lateRequest none,.sender (.thread none),.sender (.thread (some 111))]

theorem never_overcounted_droppedUnheard : ∃ s log,
    Runs.Run (step .everlasting usConfig (.tabled []) fun _ => true) (start .everlasting Sending.localSender)
      droppedUnheard s log ∧
    arrived (ofSender log) = [] ∧ (ofService log).countP Service.isLate = 1 ∧
    AddUp (· ≤ ·) (.tabled []) (fun _ => true) (Sending.lines (arrived (ofSender log))) (served droppedUnheard)
      (ofService log) := by
  have executed : (Runs.exec (step .everlasting usConfig (.tabled []) fun _ => true)
      (start .everlasting Sending.localSender) droppedUnheard).isSome = true := by decide +kernel
  have run := Runs.Run.of_isSome executed
  exact ⟨_,_,run,by decide +kernel,by decide +kernel,never_overcounted run (by decide +kernel)⟩

end

end Monitored
end Facade
