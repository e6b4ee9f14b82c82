import Facade.Backendify
import Facade.SessionEvents

/-!
One connection and the service behind it. `processCompanyRequest` runs inside
the handler of the read, and what it answers at once is queued by that same
handler; a backend call completes in a later one. Handlers read the steady
clock, which never goes back.

A connection does with its session what a session does (`session_run`), so it
keeps what every session keeps.
-/
namespace Facade
open Strings Http Backendify

/-- What the service finds when a handler enters it: the cache and the breaker,
    which it shares with the other connections, whether a backend call can be
    started, and the readings of the clocks. -/
structure Surroundings (cache : CacheInterface) where
  store : cache.Store
  breaker : CircuitBreaker
  starts : Bool
  m : Moment

/-- A session, the backend calls made for its requests, and the last reading of
    the steady clock. -/
structure Connection where
  session : HttpServerSession
  calls : List BackendCall
  clock : Int

namespace Connection
open HttpServerSession (Event since handed ForService OwnAnswer)

section
variable (cache : CacheInterface) (config : AppConfig) (library : JsonLibrary)

/-- What can happen to a connection. `arrived` is the time of `on_read`, and
    `now` the reading at the end of a handler. -/
inductive Action
  | read (result : Except ErrorCode Request) (arrived : Int) (around : Surroundings cache) (now : Int)
  | complete (position : Nat) (res : Response) (ec : Option ErrorCode) (around : Surroundings cache) (now : Int)
  | written (ec : Option ErrorCode) (now : Int)
  | stop
  | expire (write : Nat)
  | timer (write : Nat)

/-- A step of the session. -/
def act (a : HttpServerSession.Action) (now : Int) (c : Connection) : Option (Connection × List Event) :=
  (HttpServerSession.step c.session a).map fun (session,out) => ({ c with session := session, clock := now },out)

/-- The service gets a request. -/
def serve (req : Request) (received : Int) (around : Surroundings cache) (now : Int) (c : Connection) :
    Option (Connection × List Event) :=
  match (processCompanyRequest cache config around.store around.breaker around.starts req received around.m).1 with
  | .answered opt_res => act (.answer opt_res now) now c
  | .calling call => some ({ c with calls := c.calls ++ [call] },[])

def step (c : Connection) : Action cache → Option (Connection × List Event)
  | .read result arrived around now =>
    if c.clock ≤ arrived ∧ arrived ≤ around.m.steady ∧ around.m.steady ≤ now then
      match act (.read result arrived) now c with
      | none => none
      | some (c,out) =>
        match handed out with
        | none => some (c,out)
        | some (req,received) =>
          (serve cache config req received around now c).map fun (c,more) => (c,out ++ more)
    else none
  | .complete position res ec around now =>
    if c.clock ≤ around.m.steady ∧ around.m.steady ≤ now then
      match c.calls[position]? with
      | none => none
      | some call =>
        let c := { c with calls := c.calls.eraseIdx position, clock := now }
        match (on_backend_complete cache config library call res ec around.m around.store around.breaker).1 with
        | .ok r => act (.answer (some r) now) now c
        | .error _ => some (c,[])
    else none
  | .written ec now => if c.clock ≤ now then act (.written ec now) now c else none
  | .stop => act .stop c.clock c
  | .expire write => act (.expire write) c.clock c
  | .timer write => act (.timer write) c.clock c

end

/-- A connection whose session starts its first read. -/
def opened (backendify_service : Bool) (max_response_queue_size : Int32) (stopped : Bool) (first : Int) : Connection :=
  ⟨.started backendify_service max_response_queue_size stopped first,[],first⟩

variable {cache : CacheInterface} {config : AppConfig} {library : JsonLibrary}

/-! ### One step -/

theorem act_eq_some {a : HttpServerSession.Action} {now : Int} {c c' : Connection} {out : List Event} :
    act a now c = some (c',out) ↔ ∃ session, HttpServerSession.step c.session a = some (session,out) ∧
      c' = { c with session := session, clock := now } := by
  simp only [act,Option.map_eq_some_iff,Prod.mk.injEq,Prod.exists]
  constructor
  · rintro ⟨session,_,taken,rfl,rfl⟩
    exact ⟨session,taken,rfl⟩
  · rintro ⟨session,taken,rfl⟩
    exact ⟨session,out,taken,rfl,rfl⟩

section
variable (cache config)

/-- Everything that the end of a read can do, `s` being the session without it:
    the session closes, or the service gets the request, or the session answers
    it itself. -/
inductive ReadDone (c : Connection) (s : HttpServerSession) (arrived : Int) (around : Surroundings cache) (now : Int) :
    Except ErrorCode Request → Connection → List Event → Prop
  | failed (ec : ErrorCode) :
      ReadDone c s arrived around now (.error ec) { c with session := (HttpServerSession.do_close s).1, clock := now }
        (HttpServerSession.do_close s).2
  | served (req : Request) (c' : Connection) (more : List Event) : ForService s req →
      serve cache config req s.request_received_time around now
        { c with session := { s with req := req.movedOut, serving := s.serving + 1 }, clock := now } = some (c',more) →
      ReadDone c s arrived around now (.ok req) c'
        ([.request req arrived,.company req s.request_received_time] ++ more)
  | own (req : Request) (res : Response) : ¬ ForService s req → OwnAnswer s.backendify_service req res →
      ReadDone c s arrived around now (.ok req)
        { c with session := (HttpServerSession.send_response (some res) arrived { s with req := req }).1, clock := now }
        (.request req arrived :: (HttpServerSession.send_response (some res) arrived { s with req := req }).2)

end

theorem step_read {c c' : Connection} {out : List Event} {result : Except ErrorCode Request} {arrived now : Int}
    {around : Surroundings cache}
    (taken : step cache config library c (.read result arrived around now) = some (c',out)) :
    c.clock ≤ arrived ∧ arrived ≤ around.m.steady ∧ ∃ reads, c.session.reads = reads + 1 ∧
      ReadDone cache config c { c.session with reads := reads } arrived around now result c' out := by
  simp only [step] at taken
  split at taken
  · rename_i order
    refine ⟨order.1,order.2.1,?_⟩
    cases read : act (.read result arrived) now c with
    | none => simp [read] at taken
    | some first =>
      obtain ⟨d,first⟩ := first
      simp only [read] at taken
      obtain ⟨session,stepped,rfl⟩ := act_eq_some.mp read
      simp only [HttpServerSession.step] at stepped
      split at stepped
      · cases stepped
      · rename_i reads pending
        refine ⟨reads,pending,?_⟩
        rw [Option.some.injEq] at stepped
        cases result with
        | error ec =>
          have closed : HttpServerSession.do_close { c.session with reads := reads } = (session,first) := stepped
          have apart := HttpServerSession.apart_do_close now { c.session with reads := reads }
          have done : ReadDone cache config c { c.session with reads := reads } arrived around now (.error ec) _ _ :=
            .failed ec
          rw [closed] at apart done
          simp only [apart.own.handed,Option.some.injEq,Prod.mk.injEq] at taken
          obtain ⟨rfl,rfl⟩ := taken
          exact done
        | ok req =>
          by_cases routed : ForService { c.session with reads := reads } req
          · rw [HttpServerSession.on_read_service routed] at stepped
            cases stepped
            simp only [handed,Option.map_eq_some_iff,Prod.mk.injEq,Prod.exists] at taken
            obtain ⟨_,more,served,rfl,rfl⟩ := taken
            exact .served req _ more routed served
          · obtain ⟨res,executed,own⟩ := HttpServerSession.handle_request_other
              (s := { c.session with reads := reads, req := req }) routed arrived
            obtain ⟨rest,sent,apart⟩ := HttpServerSession.send_response_answers (some res)
              { c.session with reads := reads, req := req } (Int.le_refl arrived)
            have done : ReadDone cache config c { c.session with reads := reads } arrived around now (.ok req) _ _ :=
              .own req res routed own
            simp only [HttpServerSession.on_read,executed,Prod.mk.injEq] at stepped
            obtain ⟨state,events⟩ := stepped
            have unhanded : handed first = none := by
              rw [← events,sent]
              exact apart.own.handed
            simp only [unhanded,Option.some.injEq,Prod.mk.injEq] at taken
            obtain ⟨rfl,rfl⟩ := taken
            rw [state,events] at done
            exact done
  · cases taken

/-- What the session's steps keep, and does not depend on the calls and on the
    passing of time, is kept by the connection. -/
theorem step_keeps (Inv : Connection → List Event → Prop)
    (acts : ∀ c log a now c' out, Inv c log → HttpServerSession.Action.Within now a → c.clock ≤ now →
      act a now c = some (c',out) → Inv c' (log ++ out))
    (passes : ∀ c log calls now, Inv c log → c.clock ≤ now → Inv { c with calls := calls, clock := now } log)
    {c c' : Connection} {log out : List Event} {a : Action cache} (inv : Inv c log)
    (taken : step cache config library c a = some (c',out)) : Inv c' (log ++ out) := by
  cases a with
  | read result arrived around now =>
    simp only [step] at taken
    split at taken
    · rename_i order
      split at taken
      · cases taken
      · rename_i c₁ out₁ read
        have inv₁ := acts c log (.read result arrived) now c₁ out₁ inv (Int.le_trans order.2.1 order.2.2) (by omega) read
        have clock : c₁.clock ≤ now := by
          obtain ⟨session,_,rfl⟩ := act_eq_some.mp read
          exact Int.le_refl now
        split at taken
        · simp only [Option.some.injEq,Prod.mk.injEq] at taken
          obtain ⟨rfl,rfl⟩ := taken
          exact inv₁
        · simp only [Option.map_eq_some_iff,Prod.mk.injEq,Prod.exists] at taken
          obtain ⟨_,more,served,rfl,rfl⟩ := taken
          rw [← List.append_assoc]
          unfold serve at served
          split at served
          · exact acts c₁ _ (.answer _ now) now _ more inv₁ (Int.le_refl now) clock served
          · simp only [Option.some.injEq,Prod.mk.injEq] at served
            obtain ⟨rfl,rfl⟩ := served
            simpa using passes c₁ (log ++ out₁) _ c₁.clock inv₁ (Int.le_refl _)
    · cases taken
  | complete position res ec around now =>
    simp only [step] at taken
    split at taken
    · rename_i order
      split at taken
      · cases taken
      · rename_i call pending
        have later := passes c log (c.calls.eraseIdx position) now inv (Int.le_trans order.1 order.2)
        split at taken
        · rename_i r completed
          exact acts _ log (.answer (some r) now) now c' out later (Int.le_refl now) (Int.le_refl now) taken
        · simp only [Option.some.injEq,Prod.mk.injEq] at taken
          obtain ⟨rfl,rfl⟩ := taken
          simpa using later
    · cases taken
  | written ec now =>
    simp only [step] at taken
    split at taken
    · rename_i forward
      exact acts c log (.written ec now) now c' out inv (Int.le_refl now) forward taken
    · cases taken
  | stop => exact acts c log .stop c.clock c' out inv trivial (Int.le_refl _) taken
  | expire write => exact acts c log (.expire write) c.clock c' out inv trivial (Int.le_refl _) taken
  | timer write => exact acts c log (.timer write) c.clock c' out inv trivial (Int.le_refl _) taken

/-- Whatever a connection does, its session makes a run of its own with the
    same events. -/
theorem session_run {backendify_service : Bool} {max_response_queue_size : Int32} {stopped : Bool} {first : Int}
    {actions : List (Action cache)} {c : Connection} {log : List Event}
    (run : Runs.Run (step cache config library) (opened backendify_service max_response_queue_size stopped first)
      actions c log) :
    ∃ acts, Runs.Run HttpServerSession.step
      (.started backendify_service max_response_queue_size stopped first) acts c.session log := by
  let Ran (c : Connection) (log : List Event) : Prop := ∃ acts, Runs.Run HttpServerSession.step
    (.started backendify_service max_response_queue_size stopped first) acts c.session log
  refine run.invariant Ran ⟨[],.start⟩ ?_
  intro c log a c' out ran taken
  refine step_keeps Ran ?_ ?_ ran taken
  · rintro c log a now c' out ⟨acts,ran⟩ _ _ taken
    obtain ⟨session,stepped,rfl⟩ := act_eq_some.mp taken
    exact ⟨_,ran.next stepped⟩
  · intro c log calls now ran _
    exact ran

/-- A connection delivers the answers of the service and of the session in
    their order, and discards none. -/
theorem connection_in_order {backendify_service : Bool} {max_response_queue_size : Int32} {stopped : Bool}
    {first : Int} (positive : 1 ≤ max_response_queue_size) {actions : List (Action cache)} {c : Connection}
    {log : List Event}
    (run : Runs.Run (step cache config library) (opened backendify_service max_response_queue_size stopped first)
      actions c log) :
    HttpServerSession.written log <+: HttpServerSession.answers log ∧ Event.overflow ∉ log := by
  obtain ⟨acts,ran⟩ := session_run run
  have orderly := HttpServerSession.orderly_run positive ran
  exact ⟨orderly.delivered,orderly.kept⟩

/-- The session has noted the start of the last read, in the past. -/
structure Timed (first : Int) (c : Connection) (log : List Event) : Prop where
  noted : c.session.request_received_time = since first log
  past : c.session.request_received_time ≤ c.clock

theorem timed_act {first now : Int} {c c' : Connection} {log out : List Event} {a : HttpServerSession.Action}
    (timed : Timed first c log) (within : a.Within now) (forward : c.clock ≤ now)
    (taken : act a now c = some (c',out)) : Timed first c' (log ++ out) := by
  obtain ⟨session,stepped,rfl⟩ := act_eq_some.mp taken
  obtain ⟨noted,past⟩ := HttpServerSession.noted_step within stepped
  refine ⟨?_,past (Int.le_trans timed.past forward)⟩
  rw [HttpServerSession.since_append,← timed.noted]
  exact noted

/-- In every run the noted time is that of the last start of a read. -/
theorem timed_run {backendify_service : Bool} {max_response_queue_size : Int32} {stopped : Bool} {first : Int}
    {actions : List (Action cache)} {c : Connection} {log : List Event}
    (run : Runs.Run (step cache config library) (opened backendify_service max_response_queue_size stopped first)
      actions c log) : Timed first c log := by
  refine run.invariant (Timed first) ?_ ?_
  · cases stopped
    · exact ⟨rfl,Int.le_refl first⟩
    · exact ⟨rfl,Int.le_refl first⟩
  · intro c log a c' out timed taken
    refine step_keeps (Timed first) ?_ ?_ timed taken
    · intro c log a now c' out timed within forward taken
      exact timed_act timed within forward taken
    · intro c log calls now timed forward
      exact ⟨timed.noted,Int.le_trans timed.past forward⟩

end Connection
end Facade
