import Mathlib.Data.List.Induction

/-!
Queues that batch messages. A message goes to the end of the last batch, after a
separator, until that batch is longer than a limit; then a new one is opened.

A batch is the `text` of a group of messages, and is split at the separators
into the lines of the messages of the group (`lines_text`). A line is not empty:
an empty message at the start of a batch leaves no trace. `Groups` gives the
messages of each batch of a queue, and `Flow` follows the messages from the
queue through a buffer that swaps with it to the batches that have left.
-/
namespace Facade.Batching
universe u
variable {α : Type u}

/-! ### Batches -/

/-- A message at the end of a batch. -/
def extend (separator : α) (batch message : List α) : List α :=
  if batch.isEmpty then message else batch ++ separator :: message

/-- The batch of the messages of a group, one after the other. -/
def text (separator : α) (group : List (List α)) : List α := group.foldl (extend separator) []

@[simp] theorem extend_nil (separator : α) (message : List α) : extend separator [] message = message := rfl

theorem extend_of_ne_nil (separator : α) {batch : List α} (started : batch ≠ []) (message : List α) :
    extend separator batch message = batch ++ separator :: message := by
  simp [extend,started]

theorem length_extend_le (separator : α) (batch message : List α) :
    (extend separator batch message).length ≤ batch.length + 1 + message.length := by
  by_cases started : batch = []
  · subst started
    simp
  · rw [extend_of_ne_nil separator started,List.length_append,List.length_cons]
    omega

@[simp] theorem text_nil (separator : α) : text separator [] = [] := rfl

@[simp] theorem text_singleton (separator : α) (message : List α) : text separator [message] = message := rfl

theorem text_snoc (separator : α) (group : List (List α)) (message : List α) :
    text separator (group ++ [message]) = extend separator (text separator group) message := by
  simp [text]

section
variable [BEq α]

/-- The lines of a batch that are not empty. -/
def lines (separator : α) (batch : List α) : List (List α) :=
  (batch.splitOn separator).filter fun line => !line.isEmpty

@[simp] theorem lines_nil (separator : α) : lines separator [] = [] := rfl

theorem lines_extend [LawfulBEq α] (separator : α) (batch message : List α) :
    lines separator (extend separator batch message) = lines separator batch ++ lines separator message := by
  by_cases started : batch = []
  · subst started
    rfl
  · rw [extend_of_ne_nil separator started,lines,List.splitOn_append_cons_self,List.filter_append]
    rfl

/-- The lines of a batch are the lines of its messages. -/
theorem lines_text [LawfulBEq α] (separator : α) (group : List (List α)) :
    lines separator (text separator group) = group.flatMap (lines separator) := by
  induction group using List.reverseRecOn with
  | nil => rfl
  | append_singleton before message ih =>
    rw [text_snoc,lines_extend,ih,List.flatMap_append,List.flatMap_singleton]

end

/-! ### A queue of batches -/

/-- A message put in a queue of batches. -/
def push (separator : α) (limit : Nat) (queue : List (List α)) (message : List α) : List (List α) :=
  match queue.getLast? with
  | none => [message]
  | some back =>
    if limit < back.length then queue ++ [message] else queue.dropLast ++ [extend separator back message]

/-- Groups of messages of which each has one message at least, and was not
    longer than the limit before the last one. -/
def Whole (separator : α) (limit : Nat) (groups : List (List (List α))) : Prop :=
  ∀ g ∈ groups, g ≠ [] ∧ (text separator g.dropLast).length ≤ limit

/-- The messages of each batch of a queue. Only the last batch is not longer
    than the limit. -/
structure Groups (separator : α) (limit : Nat) (groups : List (List (List α))) (queue : List (List α)) : Prop where
  texts : queue = groups.map (text separator)
  whole : Whole separator limit groups
  closed : ∀ g ∈ groups.dropLast, limit < (text separator g).length

variable {separator : α} {limit : Nat}

theorem Whole.append {first second : List (List (List α))} (whole : Whole separator limit first)
    (also : Whole separator limit second) : Whole separator limit (first ++ second) := by
  intro g member
  rcases List.mem_append.mp member with old | new
  · exact whole g old
  · exact also g new

theorem Whole.singleton {group : List (List α)} (some_message : group ≠ [])
    (fits : (text separator group.dropLast).length ≤ limit) : Whole separator limit [group] := by
  intro g member
  rw [List.mem_singleton.mp member]
  exact ⟨some_message,fits⟩

/-- A batch is no longer than the limit and its last message. -/
theorem Whole.length_le {groups : List (List (List α))} (whole : Whole separator limit groups) {g : List (List α)}
    (member : g ∈ groups) : ∃ message ∈ g, (text separator g).length ≤ limit + 1 + message.length := by
  obtain ⟨some_message,fits⟩ := whole g member
  obtain ⟨before,message,rfl⟩ := (List.eq_nil_or_concat g).resolve_left some_message
  rw [List.concat_eq_append,List.dropLast_concat] at fits
  refine ⟨message,by simp,?_⟩
  rw [List.concat_eq_append,text_snoc]
  have bound := length_extend_le separator (text separator before) message
  omega

theorem Groups.nil : Groups separator limit [] [] := ⟨rfl,by simp [Whole],by simp⟩

/-- A message goes to the end of the last group, or to one of its own. -/
theorem Groups.push {groups : List (List (List α))} {queue : List (List α)}
    (grouped : Groups separator limit groups queue) (message : List α) :
    ∃ groups', Groups separator limit groups' (push separator limit queue message) ∧
      groups'.flatten = groups.flatten ++ [message] := by
  have alone : Whole separator limit [[message]] := .singleton (by simp) (by simp)
  obtain ⟨rfl,whole,closed⟩ := grouped
  rcases List.eq_nil_or_concat groups with rfl | ⟨before,last,rfl⟩
  · exact ⟨[[message]],⟨rfl,alone,by simp⟩,by simp⟩
  · simp only [List.concat_eq_append,List.dropLast_concat] at closed whole ⊢
    by_cases full : limit < (text separator last).length
    · refine ⟨before ++ [last] ++ [[message]],⟨?_,whole.append alone,?_⟩,by simp⟩
      · simp [Batching.push,full]
      · rw [List.dropLast_concat]
        intro g member
        rcases List.mem_append.mp member with old | new
        · exact closed g old
        · rw [List.mem_singleton.mp new]
          exact full
    · refine ⟨before ++ [last ++ [message]],⟨?_,?_,?_⟩,by simp⟩
      · simp [Batching.push,full,text_snoc]
      · refine Whole.append (fun g member => whole g (List.mem_append_left _ member)) (.singleton (by simp) ?_)
        rw [List.dropLast_concat]
        omega
      · rw [List.dropLast_concat]
        exact closed

/-- All batches of a queue but the last are longer than the limit. -/
theorem Groups.closed_batch {groups : List (List (List α))} {queue : List (List α)}
    (grouped : Groups separator limit groups queue) {b : List α} (member : b ∈ queue.dropLast) : limit < b.length := by
  rw [grouped.texts,← List.map_dropLast] at member
  obtain ⟨g,inside,rfl⟩ := List.mem_map.mp member
  exact grouped.closed g inside

/-! ### From the queue to the batches that have left -/

/-- What became of the messages accepted so far: the batches in `out` have left
    and those in `staged` were taken off the queue, and `r` relates them to the
    groups of the earlier messages; the later messages are in the queue. -/
def Flow (r : List (List α) → List (List α) → Prop) (separator : α) (limit : Nat) (accepted out staged queue : List (List α)) :
    Prop :=
  ∃ past present, r (out ++ staged) (past.map (text separator)) ∧ Whole separator limit past ∧
    Groups separator limit present queue ∧ (past ++ present).flatten = accepted

section
variable {r : List (List α) → List (List α) → Prop} {accepted out staged queue : List (List α)}

theorem Flow.start (nothing : r [] []) : Flow r separator limit [] [] [] [] :=
  ⟨[],[],nothing,by simp [Whole],.nil,rfl⟩

theorem Flow.push (flow : Flow r separator limit accepted out staged queue) (message : List α) :
    Flow r separator limit (accepted ++ [message]) out staged (push separator limit queue message) := by
  obtain ⟨past,present,related,whole,grouped,rfl⟩ := flow
  obtain ⟨present',grouped',flat⟩ := grouped.push message
  exact ⟨past,present',related,whole,grouped',by simp [flat]⟩

/-- The whole queue is taken once nothing taken before is left. -/
theorem Flow.swap (add : ∀ a b c, r a b → r (a ++ c) (b ++ c)) (flow : Flow r separator limit accepted out [] queue) :
    Flow r separator limit accepted out queue [] := by
  obtain ⟨past,present,related,whole,grouped,rfl⟩ := flow
  refine ⟨past ++ present,[],?_,whole.append grouped.whole,.nil,by simp⟩
  rw [List.append_nil] at related
  rw [List.map_append,← grouped.texts]
  exact add _ _ _ related

theorem Flow.deliver {batch : List α} (flow : Flow r separator limit accepted out (batch :: staged) queue) :
    Flow r separator limit accepted (out ++ [batch]) staged queue := by
  obtain ⟨past,present,related,rest⟩ := flow
  exact ⟨past,present,by simpa using related,rest⟩

/-- The first batch of the queue leaves at once. -/
theorem Flow.take {batch : List α} (insert : ∀ b, r (out ++ staged) b → r (out ++ batch :: staged) (b ++ [batch]))
    (flow : Flow r separator limit accepted out staged (batch :: queue)) :
    Flow r separator limit accepted (out ++ [batch]) staged queue := by
  obtain ⟨past,present,related,whole,⟨texts,wholePresent,closed⟩,rfl⟩ := flow
  cases present with
  | nil => cases texts
  | cons g present =>
    rw [List.map_cons,List.cons.injEq] at texts
    obtain ⟨rfl,rfl⟩ := texts
    refine ⟨past ++ [g],present,?_,whole.append fun h member => wholePresent h (by simp_all),
      ⟨rfl,fun h member => wholePresent h (List.mem_cons_of_mem g member),?_⟩,by simp⟩
    · simpa using insert _ related
    · intro h member
      cases present with
      | nil => cases member
      | cons h' present => exact closed h (List.mem_cons_of_mem g member)

end

section
variable [BEq α] [LawfulBEq α] {accepted out staged queue : List (List α)}

theorem flatMap_lines_map_text (groups : List (List (List α))) :
    (groups.map (text separator)).flatMap (lines separator) = groups.flatten.flatMap (lines separator) := by
  induction groups with
  | nil => rfl
  | cons g groups ih =>
    rw [List.map_cons,List.flatMap_cons,List.flatten_cons,List.flatMap_append,lines_text,ih]

/-- Where batches keep their order, so do lines: those that have left, those
    that were taken and those in the queue are the lines accepted. -/
theorem Flow.lines (flow : Flow Eq separator limit accepted out staged queue) :
    (out ++ staged ++ queue).flatMap (Batching.lines separator) = accepted.flatMap (Batching.lines separator) := by
  obtain ⟨past,present,same,whole,grouped,rfl⟩ := flow
  rw [same,grouped.texts,← List.map_append]
  exact flatMap_lines_map_text (past ++ present)

/-- In whatever order batches leave, no line is lost and none is there twice. -/
theorem Flow.lines_perm (flow : Flow List.Perm separator limit accepted out staged queue) :
    ((out ++ staged ++ queue).flatMap (Batching.lines separator)).Perm
      (accepted.flatMap (Batching.lines separator)) := by
  obtain ⟨past,present,same,whole,grouped,rfl⟩ := flow
  rw [← flatMap_lines_map_text (past ++ present),List.map_append,← grouped.texts]
  exact (same.append_right queue).flatMap_right _

end

end Facade.Batching
