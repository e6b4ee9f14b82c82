import Facade.ServerSession

/-!
What a session tells the service and what it notes of the clock. `since` is the
time that every run has noted, the start of the last read (`noted_step`), and
the events of a step are its own but for the request that it hands over and the
answer that it gets (`Private`).
-/
namespace Facade.HttpServerSession
open Strings Http

/-- The time of the last start of a read, `first` being the one before the log. -/
def since (first : Int) (log : List Event) : Int :=
  log.foldl (fun last e => match e with | .reading now => now | _ => last) first

theorem since_append (first : Int) (log more : List Event) : since first (log ++ more) = since (since first log) more := by
  simp [since]

/-- The request handed to the service, with the time noted for it. -/
def handed : List Event → Option (Request × Int)
  | [] => none
  | .company req received :: _ => some (req,received)
  | _ :: rest => handed rest

/-- The request is routed to `processCompanyRequest`. -/
def ForService (s : HttpServerSession) (req : Request) : Prop :=
  s.backendify_service = true ∧ req.method = .get ∧ pathOf req.target = lit "/company"

/-- A request for the service, or an answer to one. -/
def Event.concernsService : Event → Bool
  | .company _ _ => true
  | .answered _ => true
  | _ => false

/-- No event is a request for the service or an answer to one. -/
def Private (out : List Event) : Prop := ∀ e ∈ out, e.concernsService = false

theorem Private.unanswered {out : List Event} (own : Private out) (opt_res : Option Response) :
    Event.answered opt_res ∉ out := by
  intro member
  have concerned := own _ member
  simp [Event.concernsService] at concerned

theorem Private.handed {out : List Event} (own : Private out) : handed out = none := by
  induction out with
  | nil => rfl
  | cons e rest ih =>
    have later : HttpServerSession.handed rest = none := ih fun d member => own d (by simp [member])
    have first := own e (by simp)
    cases e with
    | company req received => simp [Event.concernsService] at first
    | _ => exact later

/-- The noted time, which was `before`, is that of the last start of a read, and
    not later than now. -/
def Noted (now before : Int) (r : HttpServerSession × List Event) : Prop :=
  r.1.request_received_time = since before r.2 ∧ (before ≤ now → r.1.request_received_time ≤ now)

/-- An event that starts no read may come first. -/
theorem Noted.cons {now before : Int} {s : HttpServerSession} {e : Event} {out : List Event}
    (noted : Noted now before (s,out)) (other : ∀ t, e ≠ .reading t) : Noted now before (s,e :: out) := by
  cases e with
  | reading t => exact absurd rfl (other t)
  | _ => exact noted

/-! ### The handlers -/

/-- What a handler does that leaves the service alone. -/
structure Apart (now before : Int) (r : HttpServerSession × List Event) : Prop where
  noted : Noted now before r
  own : Private r.2

theorem Apart.cons {now before : Int} {s : HttpServerSession} {out : List Event} (rest : Apart now before (s,out))
    (e : Event) (other : ∀ t, e ≠ .reading t) (own : e.concernsService = false) : Apart now before (s,e :: out) := by
  refine ⟨rest.noted.cons other,?_⟩
  intro d member
  rcases List.mem_cons.mp member with rfl | later
  · exact own
  · exact rest.own d later

theorem apart_silent (now : Int) (s : HttpServerSession) : Apart now s.request_received_time (s,[]) :=
  ⟨⟨rfl,id⟩,by simp [Private]⟩

theorem apart_do_read {now t : Int} (before : Int) (s : HttpServerSession) (past : t ≤ now) :
    Apart now before (do_read t s) :=
  ⟨⟨rfl,fun _ => past⟩,by simp [do_read,Private,Event.concernsService]⟩

theorem apart_do_close (now : Int) (s : HttpServerSession) : Apart now s.request_received_time (do_close s) := by
  unfold do_close
  simp only
  split
  · exact ⟨⟨rfl,id⟩,by simp [Private,Event.concernsService]⟩
  · exact ⟨⟨rfl,id⟩,by simp [Private,Event.concernsService]⟩

theorem apart_do_write (now : Int) (s : HttpServerSession) : Apart now s.request_received_time (do_write s) := by
  unfold do_write
  split
  · exact ⟨⟨rfl,id⟩,by simp [Private,Event.concernsService]⟩
  · simp only
    split
    · exact ⟨⟨rfl,id⟩,by simp [Private,Event.concernsService]⟩
    · exact apart_do_close now { s with write_in_progress := false, response_queue := [] }

/-- The session passes on the answer, and the rest is its own. -/
theorem send_response_answers {now t : Int} (opt_res : Option Response) (s : HttpServerSession) (past : t ≤ now) :
    ∃ rest, (send_response opt_res t s).2 = .answered opt_res :: rest ∧
      Apart now s.request_received_time ((send_response opt_res t s).1,rest) := by
  cases opt_res with
  | none =>
    unfold send_response
    simp only
    split
    · exact ⟨[],rfl,apart_silent now s⟩
    · split
      · exact ⟨_,rfl,apart_do_read s.request_received_time s past⟩
      · exact ⟨_,rfl,apart_do_close now s⟩
  | some res =>
    have queued : ∀ s : HttpServerSession,
        Apart now s.request_received_time (if s.write_in_progress then (s,[]) else do_write s) := by
      intro s
      split
      · exact apart_silent now s
      · exact apart_do_write now s
    unfold send_response make_space
    simp only
    split
    · have discarding := queued { s with response_queue := s.response_queue.tail ++ [res] }
      exact ⟨_,rfl,discarding.cons .overflow (by simp) rfl⟩
    · exact ⟨_,rfl,queued { s with response_queue := s.response_queue ++ [res] }⟩

theorem apart_write_done {now t : Int} (keep_alive : Bool) (s : HttpServerSession) (past : t ≤ now) :
    Apart now s.request_received_time (write_done keep_alive t s) := by
  have next : Apart now s.request_received_time
      (if s.response_queue.tail ≠ [] then do_write { s with response_queue := s.response_queue.tail }
      else
        let s := { s with response_queue := s.response_queue.tail, write_in_progress := false }
        if keep_alive then do_read t s else do_close s) := by
    split
    · exact apart_do_write now { s with response_queue := s.response_queue.tail }
    · simp only
      split
      · exact apart_do_read s.request_received_time _ past
      · exact apart_do_close now { s with response_queue := s.response_queue.tail, write_in_progress := false }
  unfold write_done
  by_cases empty : s.response_queue = []
  · simp only [empty,↓reduceIte] at next ⊢
    exact next.cons .emptyQueue (by simp) rfl
  · simp only [empty,↓reduceIte]
    exact next

theorem apart_on_write {now t : Int} (keep_alive : Bool) (ec : Option ErrorCode) (s : HttpServerSession)
    (past : t ≤ now) : Apart now s.request_received_time (on_write keep_alive ec t s) := by
  let acted : HttpServerSession := { s with current_write_op_completed := true, waits := cancelWaits s.waits }
  unfold on_write
  simp only
  split
  · exact apart_do_close now acted
  · cases ec with
    | some e => exact apart_do_close now { acted with response_queue := [], write_in_progress := false }
    | none => exact apart_write_done keep_alive acted past

/-- A request for the service is handed to it with the noted time. -/
theorem on_read_service {s : HttpServerSession} {req : Request} (routed : ForService s req) (t : Int) :
    on_read (.ok req) t s = ({ s with req := req.movedOut, serving := s.serving + 1 },
      [.request req t,.company req s.request_received_time]) := by
  obtain ⟨set,method,path⟩ := routed
  simp [on_read,handle_request,set,method,path]

/-- The answers that the session gives itself. -/
inductive OwnAnswer (backendify_service : Bool) (req : Request) : Response → Prop
  | status : backendify_service = true → req.method = .get → pathOf req.target = lit "/status" →
      OwnAnswer backendify_service req statusResponse
  | notFound : backendify_service = true → ¬ (req.method = .get ∧ pathOf req.target = lit "/status") →
      OwnAnswer backendify_service req (resourceNotFound req)
  | unavailable : backendify_service = false → OwnAnswer backendify_service req (serviceUnavailable req)

theorem handle_request_other {s : HttpServerSession} {req : Request} (elsewhere : ¬ ForService s req) (t : Int) :
    ∃ res, handle_request req t s = send_response (some res) t s ∧ OwnAnswer s.backendify_service req res := by
  unfold handle_request
  cases set : s.backendify_service with
  | true =>
    have unrouted : ¬ (req.method = .get ∧ pathOf req.target = lit "/company") := fun routed => elsewhere ⟨set,routed⟩
    simp only [↓reduceIte,unrouted]
    split
    · rename_i status
      exact ⟨_,rfl,.status rfl status.1 status.2⟩
    · rename_i other
      exact ⟨_,rfl,.notFound rfl other⟩
  | false =>
    simp only [Bool.false_eq_true,↓reduceIte]
    exact ⟨_,rfl,.unavailable rfl⟩

theorem OwnAnswer.result_ne {backendify_service : Bool} {req : Request} {res : Response}
    (own : OwnAnswer backendify_service req res) : res.result ≠ 504 := by
  cases own with
  | status => simp [statusResponse]
  | notFound => simp [resourceNotFound]
  | unavailable => simp [serviceUnavailable]

/-- Any other request is answered by the session itself. -/
theorem on_read_other {now t : Int} {s : HttpServerSession} {req : Request} (elsewhere : ¬ ForService s req)
    (past : t ≤ now) :
    ∃ res rest, (on_read (.ok req) t s).2 = .request req t :: .answered (some res) :: rest ∧
      Apart now s.request_received_time ((on_read (.ok req) t s).1,rest) := by
  obtain ⟨res,executed,_⟩ := handle_request_other (s := { s with req := req }) elsewhere t
  obtain ⟨rest,sent,apart⟩ := send_response_answers (some res) { s with req := req } past
  exact ⟨res,rest,by simp [on_read,executed,sent],by simpa [on_read,executed] using apart⟩

/-! ### One step -/

/-- The readings of an action are not later than now. -/
def Action.Within (now : Int) : Action → Prop
  | .read _ t => t ≤ now
  | .answer _ t => t ≤ now
  | .written _ t => t ≤ now
  | _ => True

/-- Writes, `stop()` and the timer leave the service alone. -/
theorem apart_step {now : Int} {s s' : HttpServerSession} {a : Action} {out : List Event} (within : a.Within now)
    (other : (∀ result t, a ≠ .read result t) ∧ ∀ opt_res t, a ≠ .answer opt_res t)
    (taken : step s a = some (s',out)) : Apart now s.request_received_time (s',out) := by
  cases a with
  | read result t => exact absurd rfl (other.1 result t)
  | answer opt_res t => exact absurd rfl (other.2 opt_res t)
  | written ec t =>
    simp only [step] at taken
    split at taken
    · cases taken
    · rename_i res writes pending
      simp only [Option.some.injEq,Prod.mk.injEq] at taken
      obtain ⟨rfl,rfl⟩ := taken
      have written := apart_on_write res.keep_alive ec { s with writes := writes } within
      split
      · exact written.cons (.wrote res) (by simp) rfl
      · exact written
  | stop =>
    simp only [step,Option.some.injEq,Prod.mk.injEq] at taken
    obtain ⟨rfl,rfl⟩ := taken
    exact apart_silent now s.stop
  | expire write =>
    simp only [step,Option.some.injEq,Prod.mk.injEq] at taken
    obtain ⟨rfl,rfl⟩ := taken
    exact apart_silent now { s with waits := expireWait write s.waits }
  | timer write =>
    simp only [step] at taken
    split at taken
    · cases taken
    · rename_i w found
      rw [Option.some.injEq] at taken
      rw [← taken]
      unfold on_diagnostic_timer
      split
      · exact apart_silent now { s with waits := s.waits.erase w }
      · split
        · exact apart_silent now { s with waits := s.waits.erase w }
        · exact ⟨⟨rfl,id⟩,by simp [Private,Event.concernsService]⟩

/-- Every step of a session notes the time when it starts a read. -/
theorem noted_step {now : Int} {s s' : HttpServerSession} {a : Action} {out : List Event} (within : a.Within now)
    (taken : step s a = some (s',out)) : Noted now s.request_received_time (s',out) := by
  cases a with
  | read result t =>
    simp only [step] at taken
    split at taken
    · cases taken
    · rename_i reads pending
      rw [Option.some.injEq] at taken
      cases result with
      | error ec =>
        rw [← taken]
        exact (apart_do_close now { s with reads := reads }).noted
      | ok req =>
        by_cases routed : ForService s req
        · rw [on_read_service (s := { s with reads := reads }) routed] at taken
          rw [← taken]
          exact ⟨rfl,id⟩
        · obtain ⟨res,rest,executed,⟨noted,_⟩⟩ :=
            on_read_other (s := { s with reads := reads }) routed within
          rw [taken] at executed noted
          simp only at executed noted
          rw [executed]
          exact Noted.cons (Noted.cons noted (by simp)) (by simp)
  | answer opt_res t =>
    simp only [step] at taken
    split at taken
    · cases taken
    · rename_i serving pending
      rw [Option.some.injEq] at taken
      obtain ⟨rest,sent,⟨noted,_⟩⟩ := send_response_answers opt_res { s with serving := serving } within
      rw [taken] at sent noted
      simp only at sent noted
      rw [sent]
      exact Noted.cons noted (by simp)
  | written ec t => exact (apart_step within (by simp) taken).noted
  | stop => exact (apart_step within (by simp) taken).noted
  | expire write => exact (apart_step within (by simp) taken).noted
  | timer write => exact (apart_step within (by simp) taken).noted

end Facade.HttpServerSession
