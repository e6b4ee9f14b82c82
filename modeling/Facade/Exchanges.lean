import Facade.SessionEvents

/-!
The requests of a session with their answers. `dialogue` pairs them as the log
tells: a request waits until the next answer, which is its own. In a run every
request but the one that the service still has is paired with one answer, in
order (`spoken_run`).
-/
namespace Facade.HttpServerSession
open Strings Http

/-- The request that waits for its answer, and the earlier ones with theirs. -/
structure Dialogue where
  pending : Option Request
  answered : List (Request × Option Response)

def Dialogue.hear (d : Dialogue) : Event → Dialogue
  | .request req _ => { d with pending := some req }
  | .answered opt_res =>
    match d.pending with
    | some req => ⟨none,d.answered ++ [(req,opt_res)]⟩
    | none => d
  | _ => d

def dialogue (log : List Event) : Dialogue := log.foldl Dialogue.hear ⟨none,[]⟩

/-- The request that an event reports to be read. -/
def Event.question : Event → List Request
  | .request req _ => [req]
  | _ => []

/-- The requests read. -/
def requests (log : List Event) : List Request := log.flatMap Event.question

/-- Whether an event is a request or an answer. -/
def Event.speaks : Event → Bool
  | .request _ _ => true
  | .answered _ => true
  | .company _ _ => true
  | _ => false

/-- No event is a request or an answer. -/
def Reticent (out : List Event) : Prop := ∀ e ∈ out, e.speaks = false

section
variable (log more : List Event) (req : Request) (opt_res : Option Response) (now : Int)

theorem dialogue_append : dialogue (log ++ more) = more.foldl Dialogue.hear (dialogue log) := by
  simp [dialogue]

@[simp] theorem requests_nil : requests [] = [] := rfl
@[simp] theorem requests_append : requests (log ++ more) = requests log ++ requests more := by simp [requests]

end

theorem Reticent.hear {out : List Event} (aside : Reticent out) (d : Dialogue) : out.foldl Dialogue.hear d = d := by
  induction out with
  | nil => rfl
  | cons e rest ih =>
    have first := aside e (by simp)
    have later := ih fun e member => aside e (by simp [member])
    cases e with
    | request req now => simp [Event.speaks] at first
    | answered opt_res => simp [Event.speaks] at first
    | company req received => simp [Event.speaks] at first
    | _ => exact later

theorem Reticent.silent {out : List Event} (aside : Reticent out) : answers out = [] ∧ requests out = [] := by
  induction out with
  | nil => simp
  | cons e rest ih =>
    have first := aside e (by simp)
    have later := ih fun e member => aside e (by simp [member])
    cases e with
    | request req now => simp [Event.speaks] at first
    | answered opt_res => simp [Event.speaks] at first
    | company req received => simp [Event.speaks] at first
    | _ => simpa [requests,Event.question] using later

theorem Reticent.private {out : List Event} (aside : Reticent out) : Private out := by
  intro e member
  have first := aside e member
  cases e with
  | company req received => simp [Event.speaks] at first
  | answered opt_res => simp [Event.speaks] at first
  | _ => rfl

/-! ### The handlers -/

/-- What every handler leaves as it is: the service and its request; and what it
    never undoes: the end of the socket and of the callback. -/
structure Keeps (s t : HttpServerSession) : Prop where
  service : t.backendify_service = s.backendify_service
  serving : t.serving = s.serving
  socket : t.socket_open = true → s.socket_open = true
  callback : t.on_finish_callback = true → s.on_finish_callback = true

theorem Keeps.trans {s t u : HttpServerSession} (first : Keeps s t) (second : Keeps t u) : Keeps s u :=
  ⟨second.service.trans first.service,second.serving.trans first.serving,
    fun opened => first.socket (second.socket opened),fun set => first.callback (second.callback set)⟩

/-- The handler tells the client nothing but what it writes to an open socket, and
    it uses up the callback only when it closes. -/
structure Modest (s : HttpServerSession) (r : HttpServerSession × List Event) : Prop where
  keeps : Keeps s r.1
  aside : Reticent r.2
  writes : ∀ res, Event.writing res ∈ r.2 → s.socket_open = true
  closes : r.1.on_finish_callback = s.on_finish_callback ∨ Event.closing ∈ r.2

theorem modest_do_read (now : Int) (s : HttpServerSession) : Modest s (do_read now s) :=
  ⟨⟨rfl,rfl,id,id⟩,by simp [do_read,Reticent,Event.speaks],by simp [do_read],.inl rfl⟩

theorem modest_do_close (s : HttpServerSession) : Modest s (do_close s) := by
  unfold do_close
  simp only
  split
  · exact ⟨⟨rfl,rfl,id,by simp⟩,by simp [Reticent,Event.speaks],by simp,.inr (by simp)⟩
  · exact ⟨⟨rfl,rfl,id,id⟩,by simp [Reticent,Event.speaks],by simp,.inl rfl⟩

/-- The queue and the flags of the write have no part in it. -/
theorem Modest.of_same {s t : HttpServerSession} {r : HttpServerSession × List Event} (modest : Modest t r)
    (keeps : Keeps s t) (callback : t.on_finish_callback = s.on_finish_callback) : Modest s r :=
  ⟨keeps.trans modest.keeps,modest.aside,fun res member => keeps.socket (modest.writes res member),
    callback ▸ modest.closes⟩

theorem Modest.cons {s t : HttpServerSession} {e : Event} {out : List Event} (modest : Modest s (t,out))
    (aside : e.speaks = false) (other : ∀ res, e ≠ .writing res) : Modest s (t,e :: out) := by
  refine ⟨modest.keeps,?_,?_,modest.closes.imp_right (List.mem_cons_of_mem e)⟩
  · intro d member
    rcases List.mem_cons.mp member with rfl | later
    · exact aside
    · exact modest.aside d later
  · intro res member
    rcases List.mem_cons.mp member with same | later
    · exact absurd same.symm (other res)
    · exact modest.writes res later

theorem modest_do_write (s : HttpServerSession) : Modest s (do_write s) := by
  unfold do_write
  split
  · exact ⟨⟨rfl,rfl,id,id⟩,by simp [Reticent,Event.speaks],by simp,.inl rfl⟩
  · simp only
    split
    · rename_i opened
      exact ⟨⟨rfl,rfl,id,id⟩,by simp [Reticent,Event.speaks],fun _ _ => opened,.inl rfl⟩
    · exact (modest_do_close _).of_same ⟨rfl,rfl,id,id⟩ rfl

theorem modest_send_response (opt_res : Option Response) (now : Int) (s : HttpServerSession) :
    ∃ rest, (send_response opt_res now s).2 = .answered opt_res :: rest ∧
      Modest s ((send_response opt_res now s).1,rest) := by
  cases opt_res with
  | none =>
    unfold send_response
    simp only
    split
    · exact ⟨[],rfl,⟨rfl,rfl,id,id⟩,by simp [Reticent],by simp,.inl rfl⟩
    · split
      · exact ⟨_,rfl,modest_do_read now s⟩
      · exact ⟨_,rfl,modest_do_close s⟩
  | some res =>
    have queued : ∀ t : HttpServerSession, Keeps s t → t.on_finish_callback = s.on_finish_callback →
        Modest s (if t.write_in_progress then (t,[]) else do_write t) := by
      intro t same callback
      split
      · exact ⟨same,by simp [Reticent],by simp,.inl callback⟩
      · exact (modest_do_write t).of_same same callback
    unfold send_response make_space
    simp only
    split
    · have discarding := queued { s with response_queue := s.response_queue.tail ++ [res] } ⟨rfl,rfl,id,id⟩ rfl
      exact ⟨_,rfl,discarding.cons rfl (by simp)⟩
    · exact ⟨_,rfl,queued { s with response_queue := s.response_queue ++ [res] } ⟨rfl,rfl,id,id⟩ rfl⟩

theorem modest_write_done (keep_alive : Bool) (now : Int) (s : HttpServerSession) :
    Modest s (write_done keep_alive now s) := by
  have next : Modest s
      (if s.response_queue.tail ≠ [] then do_write { s with response_queue := s.response_queue.tail }
      else
        let s := { s with response_queue := s.response_queue.tail, write_in_progress := false }
        if keep_alive then do_read now s else do_close s) := by
    split
    · exact (modest_do_write _).of_same ⟨rfl,rfl,id,id⟩ rfl
    · simp only
      split
      · exact (modest_do_read now _).of_same ⟨rfl,rfl,id,id⟩ rfl
      · exact (modest_do_close _).of_same ⟨rfl,rfl,id,id⟩ rfl
  unfold write_done
  by_cases empty : s.response_queue = []
  · simp only [empty,↓reduceIte] at next ⊢
    exact next.cons rfl (by simp)
  · simp only [empty,↓reduceIte]
    exact next

theorem modest_on_write (keep_alive : Bool) (ec : Option ErrorCode) (now : Int) (s : HttpServerSession) :
    Modest s (on_write keep_alive ec now s) := by
  unfold on_write
  simp only
  split
  · exact (modest_do_close _).of_same ⟨rfl,rfl,id,id⟩ rfl
  · cases ec with
    | some e => exact (modest_do_close _).of_same ⟨rfl,rfl,id,id⟩ rfl
    | none => exact (modest_write_done keep_alive now _).of_same ⟨rfl,rfl,id,id⟩ rfl

/-! ### One step -/

/-- What a step tells the client and to the service, and what it does to the
    number of requests that the service has. -/
inductive Utters (s : HttpServerSession) : Action → HttpServerSession → List Event → Prop
  | asks (req : Request) (now : Int) (s' : HttpServerSession) : ForService s req → 0 < s.reads →
      Modest { s with serving := s.serving + 1 } (s',[]) →
      Utters s (.read (.ok req) now) s' [.request req now,.company req s.request_received_time]
  | own (req : Request) (res : Response) (now : Int) (s' : HttpServerSession) (rest : List Event) :
      ¬ ForService s req → 0 < s.reads → OwnAnswer s.backendify_service req res → Modest s (s',rest) →
      Utters s (.read (.ok req) now) s' (.request req now :: .answered (some res) :: rest)
  | answers (opt_res : Option Response) (now : Int) (s' : HttpServerSession) (rest : List Event) : 0 < s.serving →
      Modest { s with serving := s.serving - 1 } (s',rest) →
      Utters s (.answer opt_res now) s' (.answered opt_res :: rest)
  | aside (a : Action) (s' : HttpServerSession) (out : List Event) : (∀ req now, a ≠ .read (.ok req) now) →
      (∀ opt_res now, a ≠ .answer opt_res now) → Modest s (s',out) → Utters s a s' out

theorem step_utters {s s' : HttpServerSession} {a : Action} {out : List Event} (taken : step s a = some (s',out)) :
    Utters s a s' out := by
  cases a with
  | read result now =>
    simp only [step] at taken
    split at taken
    · cases taken
    · rename_i reads pending
      rw [Option.some.injEq] at taken
      cases result with
      | error ec =>
        have closed := (modest_do_close { s with reads := reads }).of_same (s := s) ⟨rfl,rfl,id,id⟩ rfl
        rw [show do_close { s with reads := reads } = (s',out) from taken] at closed
        exact .aside _ _ _ (by simp) (by simp) closed
      | ok req =>
        by_cases routed : ForService s req
        · rw [on_read_service (s := { s with reads := reads }) routed] at taken
          obtain ⟨rfl,rfl⟩ := Prod.mk.inj taken
          exact .asks req now _ routed (by omega) ⟨⟨rfl,rfl,id,id⟩,by simp [Reticent],by simp,.inl rfl⟩
        · obtain ⟨res,executed,own⟩ := handle_request_other (s := { s with reads := reads, req := req }) routed now
          obtain ⟨rest,sent,modest⟩ := modest_send_response (some res) now { s with reads := reads, req := req }
          have read : on_read (.ok req) now { s with reads := reads } =
              ((send_response (some res) now { s with reads := reads, req := req }).1,
                .request req now :: .answered (some res) :: rest) := by
            simp [on_read,executed,sent]
          rw [read] at taken
          obtain ⟨rfl,rfl⟩ := Prod.mk.inj taken
          exact .own req res now _ rest routed (by omega) own (modest.of_same ⟨rfl,rfl,id,id⟩ rfl)
  | answer opt_res now =>
    simp only [step] at taken
    split at taken
    · cases taken
    · rename_i serving pending
      rw [Option.some.injEq] at taken
      obtain ⟨rest,sent,modest⟩ := modest_send_response opt_res now { s with serving := serving }
      have fewer : s.serving - 1 = serving := by omega
      rw [← fewer] at sent modest taken
      rw [taken] at sent modest
      simp only at sent
      subst sent
      exact .answers opt_res now s' rest (by omega) modest
  | written ec now =>
    simp only [step] at taken
    split at taken
    · cases taken
    · rename_i res writes pending
      simp only [Option.some.injEq,Prod.mk.injEq] at taken
      obtain ⟨rfl,rfl⟩ := taken
      have written := (modest_on_write res.keep_alive ec now { s with writes := writes }).of_same (s := s)
        ⟨rfl,rfl,id,id⟩ rfl
      refine .aside _ _ _ (by simp) (by simp) ?_
      split
      · exact written.cons rfl (by simp)
      · exact written
  | stop =>
    simp only [step,Option.some.injEq,Prod.mk.injEq] at taken
    obtain ⟨rfl,rfl⟩ := taken
    exact .aside _ _ _ (by simp) (by simp) ⟨⟨rfl,rfl,by simp [stop],id⟩,by simp [Reticent],by simp,.inl rfl⟩
  | expire write =>
    simp only [step,Option.some.injEq,Prod.mk.injEq] at taken
    obtain ⟨rfl,rfl⟩ := taken
    exact .aside _ _ _ (by simp) (by simp) ⟨⟨rfl,rfl,id,id⟩,by simp [Reticent],by simp,.inl rfl⟩
  | timer write =>
    simp only [step] at taken
    split at taken
    · cases taken
    · rename_i w found
      rw [Option.some.injEq] at taken
      have state := congrArg Prod.fst taken
      have events := congrArg Prod.snd taken
      rw [on_diagnostic_timer_fst] at state
      simp only at state events
      have silent : ∀ e ∈ out, e = Event.timerClosed write := by
        rw [← events]
        exact on_diagnostic_timer_snd _ _ _
      subst state
      refine .aside _ _ _ (by simp) (by simp) ⟨⟨rfl,rfl,fun opened => (Bool.and_eq_true_iff.mp opened).1,id⟩,?_,?_,.inl rfl⟩
      · intro e member
        rw [silent e member]
        rfl
      · intro res member
        cases silent _ member

/-- What no step changes or undoes. -/
structure Steady (s s' : HttpServerSession) (out : List Event) : Prop where
  service : s'.backendify_service = s.backendify_service
  socket : s'.socket_open = true → s.socket_open = true
  writes : ∀ res, Event.writing res ∈ out → s.socket_open = true
  callback : s'.on_finish_callback = true → s.on_finish_callback = true
  closes : s'.on_finish_callback = s.on_finish_callback ∨ Event.closing ∈ out

theorem Modest.steady {s t s' : HttpServerSession} {out : List Event} (modest : Modest t (s',out))
    (service : t.backendify_service = s.backendify_service) (socket : t.socket_open = s.socket_open)
    (callback : t.on_finish_callback = s.on_finish_callback) : Steady s s' out :=
  ⟨modest.keeps.service.trans service,fun opened => socket ▸ modest.keeps.socket opened,
    fun res member => socket ▸ modest.writes res member,fun set => callback ▸ modest.keeps.callback set,
    callback ▸ modest.closes⟩

/-- Requests and answers come on top. -/
theorem Steady.append {s s' : HttpServerSession} {rest : List Event} (steady : Steady s s' rest) (before : List Event)
    (silent : ∀ res, Event.writing res ∉ before) : Steady s s' (before ++ rest) := by
  refine ⟨steady.service,steady.socket,?_,steady.callback,steady.closes.imp_right (List.mem_append_right before)⟩
  intro res member
  rcases List.mem_append.mp member with first | later
  · exact absurd first (silent res)
  · exact steady.writes res later

theorem Utters.steady {s s' : HttpServerSession} {a : Action} {out : List Event} (uttered : Utters s a s' out) :
    Steady s s' out := by
  cases uttered with
  | asks req now s' _ _ modest =>
    have steady : Steady s s' [] := modest.steady rfl rfl rfl
    simpa using steady.append [.request req now,.company req s.request_received_time] (by simp)
  | own req res now s' rest _ _ _ modest =>
    have steady : Steady s s' rest := modest.steady rfl rfl rfl
    exact steady.append [.request req now,.answered (some res)] (by simp)
  | answers opt_res now s' rest _ modest =>
    have steady : Steady s s' rest := modest.steady rfl rfl rfl
    exact steady.append [.answered opt_res] (by simp)
  | aside a s' out _ _ modest => exact modest.steady rfl rfl rfl

/-! ### Whole runs -/

/-- Every request is paired with its answer but the one that the service has. -/
structure Spoken (s : HttpServerSession) (log : List Event) : Prop where
  waits : s.serving = (dialogue log).pending.toList.length
  asked : requests log = (dialogue log).answered.map Prod.fst ++ (dialogue log).pending.toList
  given : answers log = (dialogue log).answered.filterMap Prod.snd

/-- The request that waits is one for the service. -/
def Routed (s : HttpServerSession) (log : List Event) : Prop :=
  ∀ req, (dialogue log).pending = some req → ForService s req

theorem Keeps.forService {s t : HttpServerSession} (keeps : Keeps s t) {req : Request} :
    ForService t req ↔ ForService s req := by
  unfold ForService
  rw [keeps.service]

theorem Reticent.dialogue {out : List Event} (aside : Reticent out) (log : List Event) :
    dialogue (log ++ out) = dialogue log := by
  rw [dialogue_append,aside.hear]

/-- What the session tells aside changes nothing. -/
theorem Spoken.aside {s t : HttpServerSession} {log out : List Event} (spoken : Spoken s log)
    (modest : Modest s (t,out)) : Spoken t (log ++ out) := by
  have same := modest.aside.dialogue log
  obtain ⟨noAnswers,noRequests⟩ := modest.aside.silent
  refine ⟨?_,?_,?_⟩
  · rw [same]
    exact modest.keeps.serving.trans spoken.waits
  · rw [same,requests_append,noRequests,List.append_nil]
    exact spoken.asked
  · rw [same,answers_append,noAnswers,List.append_nil]
    exact spoken.given

theorem Spoken.none_waits {s : HttpServerSession} {log : List Event} (spoken : Spoken s log) (idle : s.serving = 0) :
    (dialogue log).pending = none := by
  have free := spoken.waits
  rw [idle] at free
  cases waiting : (dialogue log).pending with
  | none => rfl
  | some earlier => simp [waiting] at free

theorem Spoken.one_waits {s : HttpServerSession} {log : List Event} (spoken : Spoken s log) (busy : 0 < s.serving) :
    ∃ req, (dialogue log).pending = some req := by
  have owed := spoken.waits
  cases waiting : (dialogue log).pending with
  | none =>
    rw [waiting] at owed
    simp only [Option.toList_none,List.length_nil] at owed
    omega
  | some req => exact ⟨req,rfl⟩

/-- A request is read while none waits. -/
theorem Spoken.request {s : HttpServerSession} {log : List Event} (spoken : Spoken s log) (idle : s.serving = 0)
    (req : Request) (now : Int) :
    dialogue (log ++ [.request req now]) = ⟨some req,(dialogue log).answered⟩ ∧
      Spoken { s with serving := s.serving + 1 } (log ++ [.request req now]) := by
  have heard : dialogue (log ++ [.request req now]) = ⟨some req,(dialogue log).answered⟩ := by
    simp [dialogue_append,Dialogue.hear]
  refine ⟨heard,?_,?_,?_⟩
  · simp [heard,idle]
  · have asked := spoken.asked
    rw [spoken.none_waits idle,Option.toList_none,List.append_nil] at asked
    rw [heard,requests_append,asked]
    rfl
  · rw [heard,answers_append,spoken.given]
    exact List.append_nil _

/-- The request that waits is answered. -/
theorem Spoken.answer {s : HttpServerSession} {log : List Event} {req : Request} (spoken : Spoken s log)
    (waiting : (dialogue log).pending = some req) (opt_res : Option Response) :
    dialogue (log ++ [.answered opt_res]) = ⟨none,(dialogue log).answered ++ [(req,opt_res)]⟩ ∧
      Spoken { s with serving := s.serving - 1 } (log ++ [.answered opt_res]) := by
  have heard : dialogue (log ++ [.answered opt_res]) = ⟨none,(dialogue log).answered ++ [(req,opt_res)]⟩ := by
    simp [dialogue_append,Dialogue.hear,waiting]
  refine ⟨heard,?_,?_,?_⟩
  · have busy := spoken.waits
    rw [waiting,Option.toList_some,List.length_singleton] at busy
    simp [heard,busy]
  · have asked := spoken.asked
    rw [waiting] at asked
    rw [heard,requests_append,asked]
    simp [requests,Event.question]
  · rw [heard,answers_append,spoken.given]
    cases opt_res <;> simp

/-- How a step continues the dialogue. -/
inductive Continues (s : HttpServerSession) (log : List Event) : Action → List Event → Prop
  | asks (req : Request) (now : Int) (out : List Event) : ForService s req → (dialogue log).pending = none →
      dialogue (log ++ out) = ⟨some req,(dialogue log).answered⟩ → handed out = some (req,s.request_received_time) →
      Continues s log (.read (.ok req) now) out
  | own (req : Request) (res : Response) (now : Int) (out : List Event) : ¬ ForService s req →
      OwnAnswer s.backendify_service req res → (dialogue log).pending = none →
      dialogue (log ++ out) = ⟨none,(dialogue log).answered ++ [(req,some res)]⟩ → handed out = none →
      Continues s log (.read (.ok req) now) out
  | answers (req : Request) (opt_res : Option Response) (now : Int) (out : List Event) :
      (dialogue log).pending = some req →
      dialogue (log ++ out) = ⟨none,(dialogue log).answered ++ [(req,opt_res)]⟩ → handed out = none →
      Continues s log (.answer opt_res now) out
  | aside (a : Action) (out : List Event) : (∀ opt_res now, a ≠ .answer opt_res now) →
      dialogue (log ++ out) = dialogue log → handed out = none → Continues s log a out

/-- A step that hands a request to the service reads it while none is waiting. -/
theorem Continues.asked {s : HttpServerSession} {log out : List Event} {a : Action} {req : Request} {received : Int}
    (continues : Continues s log a out) (handing : handed out = some (req,received)) :
    ForService s req ∧ (dialogue log).pending = none ∧ dialogue (log ++ out) = ⟨some req,(dialogue log).answered⟩ := by
  cases continues with
  | asks req' now out company idle heard hands =>
    rw [handing,Option.some.injEq,Prod.mk.injEq] at hands
    obtain ⟨rfl,_⟩ := hands
    exact ⟨company,idle,heard⟩
  | own _ _ _ _ _ _ _ _ silent => rw [handing] at silent; cases silent
  | answers _ _ _ _ _ _ silent => rw [handing] at silent; cases silent
  | aside _ _ _ _ silent => rw [handing] at silent; cases silent

/-- The answer goes to the request that is waiting. -/
theorem Continues.ends {s : HttpServerSession} {log out : List Event} {opt_res : Option Response} {now : Int}
    (continues : Continues s log (.answer opt_res now) out) : ∃ req, (dialogue log).pending = some req ∧
      dialogue (log ++ out) = ⟨none,(dialogue log).answered ++ [(req,opt_res)]⟩ := by
  cases continues with
  | answers req _ _ _ waiting ended => exact ⟨req,waiting,ended⟩
  | aside _ _ unanswered => exact absurd rfl (unanswered opt_res now)

theorem spoken_step {s s' : HttpServerSession} {log out : List Event} {a : Action} (orderly : Orderly s log)
    (spoken : Spoken s log) (routed : Routed s log) (uttered : Utters s a s' out) :
    Spoken s' (log ++ out) ∧ Routed s' (log ++ out) ∧ Continues s log a out := by
  -- While a request is read the service has none.
  have idle : 0 < s.reads → s.serving = 0 := by
    intro reading
    by_cases closed : Event.closing ∈ log
    · exact (orderly.after closed).2.1
    · rcases orderly.before closed with ⟨_,none_served,_⟩ | ⟨none_read,_⟩ | ⟨_,none_read,_⟩
      · exact none_served
      · omega
      · omega
  cases uttered with
  | asks req now s' service reading modest =>
    obtain ⟨heard,later⟩ := spoken.request (idle reading) req now
    have same : dialogue (log ++ [.request req now,.company req s.request_received_time]) =
        ⟨some req,(dialogue log).answered⟩ := by simp [dialogue_append,Dialogue.hear]
    refine ⟨⟨?_,?_,?_⟩,?_,.asks req now _ service (spoken.none_waits (idle reading)) same rfl⟩
    · rw [same]
      have busy := modest.keeps.serving
      simp only [idle reading] at busy
      simpa using busy
    · have asked := later.asked
      rw [heard] at asked
      rw [same,← asked]
      simp [requests,Event.question]
    · have given := later.given
      rw [heard] at given
      rw [same,← given]
      simp
    · rw [Routed,same]
      rintro req' ⟨⟩
      exact modest.keeps.forService.mpr service
  | own req res now s' rest other reading own modest =>
    obtain ⟨heard,later⟩ := spoken.request (idle reading) req now
    obtain ⟨answered,done⟩ := later.answer (by rw [heard]) (some res)
    have back : ({ s with serving := s.serving + 1 - 1 } : HttpServerSession) = s := by simp
    simp only [back] at done
    have finished := done.aside modest
    have whole : log ++ [Event.request req now] ++ [.answered (some res)] ++ rest =
        log ++ (.request req now :: .answered (some res) :: rest) := by simp
    have same := modest.aside.dialogue (log ++ [.request req now] ++ [.answered (some res)])
    rw [answered,heard] at same
    rw [whole] at finished same
    refine ⟨finished,?_,
      .own req res now _ other own (spoken.none_waits (idle reading)) same
      modest.aside.private.handed⟩
    rw [Routed,same]
    simp
  | answers opt_res now s' rest busy modest =>
    obtain ⟨req,waiting⟩ := spoken.one_waits busy
    obtain ⟨answered,done⟩ := spoken.answer waiting opt_res
    have finished := done.aside modest
    have same := modest.aside.dialogue (log ++ [.answered opt_res])
    rw [answered] at same
    rw [List.append_assoc,List.singleton_append] at finished same
    refine ⟨finished,?_,.answers req opt_res now _ waiting same modest.aside.private.handed⟩
    rw [Routed,same]
    simp
  | aside a s' out _ silent modest =>
    have same := modest.aside.dialogue log
    refine ⟨spoken.aside modest,?_,.aside a out silent same modest.aside.private.handed⟩
    rw [Routed,same]
    exact fun req waiting => modest.keeps.forService.mpr (routed req waiting)

/-- What every run of a session keeps. -/
structure Faithful (backendify_service : Bool) (s : HttpServerSession) (log : List Event) : Prop where
  orderly : Orderly s log
  spoken : Spoken s log
  routed : Routed s log
  service : s.backendify_service = backendify_service
  finished : s.on_finish_callback = true ∨ Event.closing ∈ log

theorem spoken_run {backendify_service : Bool} {max_response_queue_size : Int32} {stopped : Bool} {now : Int}
    (positive : 1 ≤ max_response_queue_size) {actions : List Action} {s : HttpServerSession} {log : List Event}
    (run : Runs.Run step (started backendify_service max_response_queue_size stopped now) actions s log) :
    Faithful backendify_service s log := by
  refine run.invariant (Faithful backendify_service) ?_ ?_
  · refine ⟨orderly_started backendify_service positive stopped now,?_,by simp [Routed,dialogue],?_,.inl ?_⟩
    · cases stopped <;> exact ⟨rfl,rfl,rfl⟩
    · cases stopped <;> rfl
    · cases stopped <;> rfl
  · intro s log a s' out faithful taken
    have uttered := step_utters taken
    have steady := uttered.steady
    obtain ⟨spoken,routed,_⟩ := spoken_step faithful.orderly faithful.spoken faithful.routed uttered
    refine ⟨orderly_step faithful.orderly taken,spoken,routed,steady.service.trans faithful.service,?_⟩
    rcases faithful.finished with set | closed
    · rcases steady.closes with same | closing
      · exact .inl (same.trans set)
      · exact .inr (List.mem_append_right log closing)
    · exact .inr (List.mem_append_left out closed)

end Facade.HttpServerSession
