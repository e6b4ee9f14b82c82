import Mathlib.Data.Finset.Card
import Mathlib.Data.List.Nodup
import Mathlib.Order.Lattice
import Mathlib.Tactic.Common
import Facade.Runs

/-!
Bounded stores with expiry that evict the least recently used entry, over any
keys, values and instants. A store lists its entries, the most recently used
one first. `lastWrite` and `touchedSince` read from the events of a run what
was last written under a key and which other keys were used since that key was
used; `tracks_run` says that a store is determined by them: it holds only what
was last written (`Tracks.sound`), and it holds every unexpired entry behind
fewer than `cap` other keys (`Tracks.retained`).
-/
namespace Facade.Recency
set_option linter.unusedSectionVars false
universe u v w

/-- A key with its value and the first instant at which it is expired. -/
structure Entry (K : Type u) (V : Type v) (T : Type w) where
  key : K
  value : V
  expiry : T
deriving DecidableEq

abbrev Store (K : Type u) (V : Type v) (T : Type w) := List (Entry K V T)

/-- What is done to a store. A read takes two instants: expired entries are
    swept at the first, and the entry found is checked again at the second. -/
inductive Op (K : Type u) (V : Type v) (T : Type w)
  | write (e : Entry K V T)
  | read (k : K) (first second : T)
  | remove (k : K)
  | clear
  | sweep (now : T)

/-- What a run leaves on record: writes, successful reads and removals. -/
inductive Event (K : Type u) (V : Type v) (T : Type w)
  | wrote (e : Entry K V T)
  | hit (k : K)
  | removed (k : K)
  | cleared

/-- Where a field tells the elements of a list apart, looking up an element's
    field finds that element. -/
theorem find?_of_nodup {α : Type u} {β : Type v} [DecidableEq β] {field : α → β} {l : List α}
    (nodup : (l.map field).Nodup) {x : α} (member : x ∈ l) : l.find? (fun y => field y = field x) = some x := by
  cases found : l.find? (fun y => field y = field x) with
  | none =>
    have differs := List.find?_eq_none.mp found x member
    simp at differs
  | some y =>
    have same : field y = field x := by simpa using List.find?_some found
    rw [List.inj_on_of_nodup_map nodup (List.mem_of_find?_eq_some found) member same]

section
variable {K : Type u} {V : Type v} {T : Type w} [DecidableEq K] [LinearOrder T]

def keys (s : Store K V T) : List K := s.map Entry.key
def drop (k : K) (s : Store K V T) : Store K V T := s.filter fun e => e.key ≠ k
def sweep (now : T) (s : Store K V T) : Store K V T := s.filter fun e => now < e.expiry
def find (k : K) (s : Store K V T) : Option (Entry K V T) := s.find? fun e => e.key = k

/-- A write takes the front. A new key first makes room for itself. -/
def write (cap : Nat) (e : Entry K V T) (s : Store K V T) : Store K V T :=
  e :: if e.key ∈ keys s then drop e.key s else s.take (cap - 1)

/-- A read that finds an unexpired entry moves it to the front. -/
def read (k : K) (first second : T) (s : Store K V T) : Option V × Store K V T :=
  match find k (sweep first s) with
  | some e =>
    if second < e.expiry then (some e.value,e :: drop k (sweep first s)) else (none,drop k (sweep first s))
  | none => (none,sweep first s)

/-- One operation: the store after it and what it puts on record. -/
def step (cap : Nat) (s : Store K V T) : Op K V T → Option (Store K V T × List (Event K V T))
  | .write e => some (write cap e s,[.wrote e])
  | .read k first second =>
    some ((read k first second s).2,if (read k first second s).1.isSome then [.hit k] else [])
  | .remove k => some (drop k s,[.removed k])
  | .clear => some ([],[.cleared])
  | .sweep now => some (sweep now s,[])

/-- The instants an operation reads. -/
def Op.readings : Op K V T → List T
  | .read _ first second => [first,second]
  | .sweep now => [now]
  | _ => []

/-! ### What the events say about a key -/

def noteWrite (k : K) (last : Option (V × T)) : Event K V T → Option (V × T)
  | .wrote e => if e.key = k then some (e.value,e.expiry) else last
  | .removed k' => if k' = k then none else last
  | .cleared => none
  | .hit _ => last

/-- The value and expiry last written under a key, unless the key was removed
    or the store cleared after that. -/
def lastWrite (k : K) (log : List (Event K V T)) : Option (V × T) := log.foldl (noteWrite k) none

def noteTouch (k : K) (others : Finset K) : Event K V T → Finset K
  | .wrote e => if e.key = k then ∅ else insert e.key others
  | .hit k' => if k' = k then ∅ else insert k' others
  | _ => others

/-- The other keys written or successfully read since the key itself was last
    written or successfully read. -/
def touchedSince (k : K) (log : List (Event K V T)) : Finset K := log.foldl (noteTouch k) ∅

@[simp] theorem lastWrite_nil (k : K) : lastWrite k ([] : List (Event K V T)) = none := rfl
@[simp] theorem touchedSince_nil (k : K) : touchedSince k ([] : List (Event K V T)) = ∅ := rfl
@[simp] theorem lastWrite_snoc (k : K) (log : List (Event K V T)) (e : Event K V T) :
    lastWrite k (log ++ [e]) = noteWrite k (lastWrite k log) e := by
  simp [lastWrite]
@[simp] theorem touchedSince_snoc (k : K) (log : List (Event K V T)) (e : Event K V T) :
    touchedSince k (log ++ [e]) = noteTouch k (touchedSince k log) e := by
  simp [touchedSince]

/-! ### Lists of entries -/

theorem mem_drop {k : K} {s : Store K V T} {e : Entry K V T} : e ∈ drop k s ↔ e ∈ s ∧ e.key ≠ k := by
  simp [drop]

theorem mem_sweep {now : T} {s : Store K V T} {e : Entry K V T} : e ∈ sweep now s ↔ e ∈ s ∧ now < e.expiry := by
  simp [sweep]

theorem mem_keys {s : Store K V T} {k : K} : k ∈ keys s ↔ ∃ e ∈ s, e.key = k := by
  simp [keys]

theorem keys_sublist {s t : Store K V T} (sub : s.Sublist t) : (keys s).Sublist (keys t) := sub.map _

theorem drop_sublist (k : K) (s : Store K V T) : (drop k s).Sublist s := List.filter_sublist
theorem sweep_sublist (now : T) (s : Store K V T) : (sweep now s).Sublist s := List.filter_sublist

theorem not_mem_keys_drop (k : K) (s : Store K V T) : k ∉ keys (drop k s) := by
  simp [keys,drop]

theorem drop_split {k : K} {front back : Store K V T} {e : Entry K V T} (other : e.key ≠ k) :
    drop k (front ++ e :: back) = drop k front ++ e :: drop k back := by
  simp [drop,other]

theorem sweep_split {now : T} {front back : Store K V T} {e : Entry K V T} (live : now < e.expiry) :
    sweep now (front ++ e :: back) = sweep now front ++ e :: sweep now back := by
  simp [sweep,live]

theorem find_some {k : K} {s : Store K V T} {e : Entry K V T} (found : find k s = some e) : e ∈ s ∧ e.key = k :=
  ⟨List.mem_of_find?_eq_some found,by simpa using List.find?_some found⟩

theorem find_none {k : K} {s : Store K V T} (absent : find k s = none) : k ∉ keys s := by
  simpa [find,keys] using absent

/-- With distinct keys, looking up the key of an entry finds that entry. -/
theorem find_of_mem {s : Store K V T} (nodup : (keys s).Nodup) {e : Entry K V T} (member : e ∈ s) :
    find e.key s = some e := find?_of_nodup nodup member

theorem find_drop_self {s : Store K V T} (k : K) : find k (drop k s) = none := by
  simp [find,drop]

theorem find_drop_ne {s : Store K V T} {k k' : K} (other : k' ≠ k) : find k' (drop k s) = find k' s := by
  simp only [find,drop,List.find?_filter]
  congr 1
  funext e
  by_cases same : e.key = k'
  · simp [same,other]
  · simp [same]

theorem find_sweep {s : Store K V T} (nodup : (keys s).Nodup) (k : K) (now : T) :
    find k (sweep now s) = (find k s).bind fun e => if now < e.expiry then some e else none := by
  have swept : (keys (sweep now s)).Nodup := nodup.sublist (keys_sublist (sweep_sublist now s))
  cases found : find k s with
  | none =>
    cases later : find k (sweep now s) with
    | none => rfl
    | some e =>
      obtain ⟨member,rfl⟩ := find_some later
      exact absurd (mem_keys.mpr ⟨e,(mem_sweep.mp member).1,rfl⟩) (find_none found)
  | some e =>
    obtain ⟨member,rfl⟩ := find_some found
    by_cases live : now < e.expiry
    · rw [find_of_mem swept (mem_sweep.mpr ⟨member,live⟩),Option.bind_some,if_pos live]
    · rw [Option.bind_some,if_neg live]
      cases later : find e.key (sweep now s) with
      | none => rfl
      | some f =>
        obtain ⟨inside,same⟩ := find_some later
        obtain ⟨there,alive⟩ := mem_sweep.mp inside
        rw [List.inj_on_of_nodup_map nodup there member same] at alive
        exact absurd alive live

theorem mem_read {k : K} {first second : T} {s : Store K V T} {e : Entry K V T}
    (member : e ∈ (read k first second s).2) : e ∈ s := by
  unfold Recency.read at member
  split at member
  · rename_i found looked
    split at member
    · rcases List.mem_cons.mp member with rfl | later
      · exact (mem_sweep.mp (find_some looked).1).1
      · exact (mem_sweep.mp (mem_drop.mp later).1).1
    · exact (mem_sweep.mp (mem_drop.mp member).1).1
  · exact (mem_sweep.mp member).1

theorem mem_of_read {k : K} {first second : T} {s : Store K V T} {v : V}
    (returned : (read k first second s).1 = some v) : ∃ e ∈ s, e.key = k ∧ e.value = v := by
  unfold Recency.read at returned
  split at returned
  · rename_i e looked
    split at returned
    · simp only [Option.some.injEq] at returned
      obtain ⟨member,same⟩ := find_some looked
      exact ⟨e,(mem_sweep.mp member).1,same,returned⟩
    · cases returned
  · cases returned

theorem mem_write {cap : Nat} {e e' : Entry K V T} {s : Store K V T}
    (member : e' ∈ write cap e s) : e' = e ∨ e' ∈ s := by
  unfold write at member
  rcases List.mem_cons.mp member with rfl | later
  · exact .inl rfl
  · split at later
    · exact .inr (mem_drop.mp later).1
    · exact .inr (List.mem_of_mem_take later)

/-- Distinct keys, with one more key, fit into any set that holds them all. -/
theorem length_lt_card {s : Store K V T} {k : K} {others : Finset K} (nodup : (keys s).Nodup) (new : k ∉ keys s)
    (all : ∀ e ∈ s, e.key ∈ others) (also : k ∈ others) : s.length < others.card := by
  have distinct : (k :: keys s).Nodup := List.nodup_cons.mpr ⟨new,nodup⟩
  have included : (k :: keys s).toFinset ⊆ others := by
    intro key member
    rcases List.mem_cons.mp (List.mem_toFinset.mp member) with rfl | later
    · exact also
    · obtain ⟨e,inside,rfl⟩ := mem_keys.mp later
      exact all e inside
  have bound := Finset.card_le_card included
  rw [List.toFinset_card_of_nodup distinct] at bound
  simpa [keys,Nat.succ_le_iff] using bound

/-! ### What a store keeps -/

/-- A store agrees with the events of its run, seen from the instant `now`:
    its entries are the last writes, and an unexpired last write with fewer
    than `cap` other keys used since stands behind these keys only. -/
structure Tracks (cap : Nat) (now : T) (s : Store K V T) (log : List (Event K V T)) : Prop where
  nodup : (keys s).Nodup
  sound : ∀ e ∈ s, lastWrite e.key log = some (e.value,e.expiry)
  retained : ∀ e : Entry K V T, lastWrite e.key log = some (e.value,e.expiry) → now < e.expiry →
    (touchedSince e.key log).card < cap →
    ∃ front back, s = front ++ e :: back ∧ ∀ f ∈ front, f.key ∈ touchedSince e.key log

theorem tracks_start {cap : Nat} {now : T} : Tracks cap now ([] : Store K V T) [] :=
  ⟨by simp [keys],by simp,by simp⟩

/-- An entry is settled by its key and the write under that key. -/
theorem entry_eq {e f : Entry K V T} {log : List (Event K V T)} (sameKey : e.key = f.key)
    (one : lastWrite e.key log = some (e.value,e.expiry)) (two : lastWrite f.key log = some (f.value,f.expiry)) :
    e = f := by
  rw [sameKey,two] at one
  cases e; cases f
  simp_all

theorem tracks_write {cap : Nat} {now : T} {s : Store K V T} {log : List (Event K V T)}
    (tracks : Tracks cap now s log) (w : Entry K V T) : Tracks cap now (write cap w s) (log ++ [.wrote w]) := by
  refine ⟨?_,?_,?_⟩
  · rw [write]
    split
    · exact List.nodup_cons.mpr ⟨not_mem_keys_drop _ _,(keys_sublist (drop_sublist _ _)).nodup tracks.nodup⟩
    · rename_i new
      have sub := keys_sublist (List.take_sublist (cap - 1) s)
      exact List.nodup_cons.mpr ⟨fun member => new (sub.mem member),sub.nodup tracks.nodup⟩
  · intro e member
    simp only [lastWrite_snoc,noteWrite]
    rw [write] at member
    rcases List.mem_cons.mp member with rfl | old
    · simp
    · have inside : e ∈ s ∧ w.key ≠ e.key := by
        split at old
        · exact ⟨(mem_drop.mp old).1,Ne.symm (mem_drop.mp old).2⟩
        · rename_i new
          have here := List.mem_of_mem_take old
          exact ⟨here,fun same => new (mem_keys.mpr ⟨e,here,same.symm⟩)⟩
      simpa [inside.2] using tracks.sound e inside.1
  · intro e written live few
    simp only [lastWrite_snoc,noteWrite] at written
    simp only [touchedSince_snoc,noteTouch] at few ⊢
    by_cases same : w.key = e.key
    · have isW : w = e := by
        cases w; cases e
        simp_all
      refine ⟨[],_,by rw [write,isW]; rfl,by simp⟩
    · simp only [same,↓reduceIte] at written few ⊢
      have fewer : (touchedSince e.key log).card < cap :=
        lt_of_le_of_lt (Finset.card_le_card (Finset.subset_insert _ _)) few
      obtain ⟨front,back,split_,inFront⟩ := tracks.retained e written live fewer
      have later : ∀ f ∈ front, f.key ∈ insert w.key (touchedSince e.key log) :=
        fun f member => Finset.mem_insert_of_mem (inFront f member)
      by_cases old : w.key ∈ keys s
      · refine ⟨w :: drop w.key front,drop w.key back,?_,?_⟩
        · rw [write,if_pos old,split_,drop_split (Ne.symm same)]
          rfl
        · intro f member
          rcases List.mem_cons.mp member with rfl | inside
          · exact Finset.mem_insert_self _ _
          · exact later f (mem_drop.mp inside).1
      · -- The new key makes room at the back; `e` is among the first `cap - 1`.
        have sub : (keys front).Sublist (keys s) := by
          rw [split_]
          exact keys_sublist (List.sublist_append_left _ _)
        have short : front.length < (insert w.key (touchedSince e.key log)).card :=
          length_lt_card (sub.nodup tracks.nodup) (fun member => old (sub.mem member)) later
            (Finset.mem_insert_self _ _)
        have kept : s.take (cap - 1) = front ++ e :: back.take (cap - 1 - front.length - 1) := by
          rw [split_,List.take_append,List.take_of_length_le (by omega)]
          congr 1
          obtain ⟨n,isSucc⟩ : ∃ n, cap - 1 - front.length = n + 1 := ⟨cap - 1 - front.length - 1,by omega⟩
          rw [isSucc,List.take_succ_cons]
          rfl
        refine ⟨w :: front,_,by rw [write,if_neg old,kept]; rfl,?_⟩
        intro f member
        rcases List.mem_cons.mp member with rfl | inside
        · exact Finset.mem_insert_self _ _
        · exact later f inside

theorem tracks_sweep {cap : Nat} {now first : T} {s : Store K V T} {log : List (Event K V T)} (past : first ≤ now)
    (tracks : Tracks cap now s log) : Tracks cap now (sweep first s) log := by
  have sub := sweep_sublist first s
  refine ⟨(keys_sublist sub).nodup tracks.nodup,?_,?_⟩
  · intro e member
    exact tracks.sound e (mem_sweep.mp member).1
  · intro e written live few
    obtain ⟨front,back,split_,inFront⟩ := tracks.retained e written live few
    refine ⟨sweep first front,sweep first back,?_,?_⟩
    · rw [split_,sweep_split (lt_of_le_of_lt past live)]
    · intro f member
      exact inFront f (mem_sweep.mp member).1

/-- Leaving a key out keeps the other keys' entries in place, whether the event
    put on record forgets the key or there is none because the entry expired. -/
theorem tracks_drop {cap : Nat} {now : T} {s : Store K V T} {log log' : List (Event K V T)} {k : K}
    (others : ∀ k', k' ≠ k → lastWrite k' log' = lastWrite k' log ∧ touchedSince k' log' = touchedSince k' log)
    (gone : ∀ v t, lastWrite k log' = some (v,t) → ¬ now < t) (tracks : Tracks cap now s log) :
    Tracks cap now (drop k s) log' := by
  have sub := drop_sublist k s
  refine ⟨(keys_sublist sub).nodup tracks.nodup,?_,?_⟩
  · intro e member
    obtain ⟨inside,other⟩ := mem_drop.mp member
    rw [(others e.key other).1]
    exact tracks.sound e inside
  · intro e written live few
    by_cases same : e.key = k
    · rw [same] at written
      exact absurd live (gone _ _ written)
    · rw [(others e.key same).1] at written
      rw [(others e.key same).2] at few ⊢
      obtain ⟨front,back,split_,inFront⟩ := tracks.retained e written live few
      refine ⟨drop k front,drop k back,by rw [split_,drop_split same],?_⟩
      intro f member
      exact inFront f (mem_drop.mp member).1

theorem tracks_hit {cap : Nat} {now : T} {s : Store K V T} {log : List (Event K V T)} {e : Entry K V T}
    (member : e ∈ s) (tracks : Tracks cap now s log) :
    Tracks cap now (e :: drop e.key s) (log ++ [.hit e.key]) := by
  have sub := drop_sublist e.key s
  refine ⟨List.nodup_cons.mpr ⟨not_mem_keys_drop _ _,(keys_sublist sub).nodup tracks.nodup⟩,?_,?_⟩
  · intro f inside
    simp only [lastWrite_snoc,noteWrite]
    rcases List.mem_cons.mp inside with rfl | old
    · exact tracks.sound f member
    · exact tracks.sound f (mem_drop.mp old).1
  · intro f written live few
    simp only [lastWrite_snoc,noteWrite] at written
    simp only [touchedSince_snoc,noteTouch] at few ⊢
    by_cases same : e.key = f.key
    · have isE : e = f := entry_eq same (tracks.sound e member) written
      exact ⟨[],_,by rw [isE]; rfl,by simp⟩
    · simp only [same,↓reduceIte] at few ⊢
      have fewer : (touchedSince f.key log).card < cap :=
        lt_of_le_of_lt (Finset.card_le_card (Finset.subset_insert _ _)) few
      obtain ⟨front,back,split_,inFront⟩ := tracks.retained f written live fewer
      refine ⟨e :: drop e.key front,drop e.key back,by rw [split_,drop_split (Ne.symm same)]; rfl,?_⟩
      intro g inside
      rcases List.mem_cons.mp inside with rfl | old
      · exact Finset.mem_insert_self _ _
      · exact Finset.mem_insert_of_mem (inFront g (mem_drop.mp old).1)

/-- One operation whose instants are not later than `now` keeps the store in
    agreement with its events. -/
theorem tracks_step {cap : Nat} {now : T} {s s' : Store K V T} {log out : List (Event K V T)} {op : Op K V T}
    (past : ∀ t ∈ op.readings, t ≤ now) (tracks : Tracks cap now s log)
    (taken : step cap s op = some (s',out)) : Tracks cap now s' (log ++ out) := by
  cases op with
  | write e =>
    simp only [step,Option.some.injEq,Prod.mk.injEq] at taken
    obtain ⟨rfl,rfl⟩ := taken
    exact tracks_write tracks e
  | read k first second =>
    simp only [step,Option.some.injEq,Prod.mk.injEq] at taken
    obtain ⟨rfl,rfl⟩ := taken
    have swept := tracks_sweep (past first (by simp [Op.readings])) tracks
    rw [read]
    cases found : find k (sweep first s) with
    | none => simpa using swept
    | some e =>
      obtain ⟨member,rfl⟩ := find_some found
      by_cases live : second < e.expiry
      · simpa [live] using tracks_hit member swept
      · simp only [live,↓reduceIte,Option.isSome_none,Bool.false_eq_true,List.append_nil]
        refine tracks_drop (fun _ _ => ⟨rfl,rfl⟩) ?_ swept
        intro v t written later
        rw [swept.sound e member] at written
        cases written
        exact live (lt_of_le_of_lt (past second (by simp [Op.readings])) later)
  | remove k =>
    simp only [step,Option.some.injEq,Prod.mk.injEq] at taken
    obtain ⟨rfl,rfl⟩ := taken
    refine tracks_drop ?_ ?_ tracks
    · intro k' other
      simp [noteWrite,noteTouch,Ne.symm other]
    · intro v t written
      simp [noteWrite] at written
  | clear =>
    simp only [step,Option.some.injEq,Prod.mk.injEq] at taken
    obtain ⟨rfl,rfl⟩ := taken
    refine ⟨by simp [keys],by simp,?_⟩
    intro e written
    simp [noteWrite] at written
  | sweep first =>
    simp only [step,Option.some.injEq,Prod.mk.injEq] at taken
    obtain ⟨rfl,rfl⟩ := taken
    simpa using tracks_sweep (past first (by simp [Op.readings])) tracks

/-- After every run whose instants are not later than `now`, the store agrees
    with the events of the run. -/
theorem tracks_run {cap : Nat} {now : T} {ops : List (Op K V T)} {s : Store K V T}
    {log : List (Event K V T)} (run : Runs.Run (step cap) [] ops s log)
    (past : ∀ op ∈ ops, ∀ t ∈ op.readings, t ≤ now) : Tracks cap now s log := by
  induction run with
  | start => exact tracks_start
  | next _ taken ih =>
    exact tracks_step (past _ (by simp)) (ih fun op member => past op (by simp [member])) taken

theorem length_drop_lt {k : K} {s : Store K V T} (member : k ∈ keys s) : (drop k s).length < s.length := by
  obtain ⟨e,inside,same⟩ := mem_keys.mp member
  exact List.length_filter_lt_length_iff_exists.mpr ⟨e,inside,by simpa using same⟩

/-- A read never adds an entry. -/
theorem length_read_le (k : K) (first second : T) (s : Store K V T) : (read k first second s).2.length ≤ s.length := by
  have swept := (sweep_sublist first s).length_le
  rw [read]
  split
  · rename_i e found
    have fewer := length_drop_lt (mem_keys.mpr ⟨e,find_some found⟩)
    split <;> simp only [List.length_cons] <;> omega
  · exact swept

/-- A store that starts empty never holds more than `cap` entries, or one. -/
theorem length_run {cap : Nat} {ops : List (Op K V T)} {s : Store K V T} {log : List (Event K V T)}
    (run : Runs.Run (step cap) [] ops s log) : s.length ≤ max cap 1 := by
  refine run.invariant (fun s _ => s.length ≤ max cap 1) (by simp) ?_
  intro s _ op s' out bound taken
  cases op with
  | write e =>
    cases taken
    rw [write]
    split
    · rename_i old
      have fewer := length_drop_lt old
      simp only [List.length_cons]
      omega
    · simp only [List.length_cons,List.length_take]
      omega
  | read k first second =>
    cases taken
    exact (length_read_le k first second s).trans bound
  | remove k =>
    cases taken
    exact (drop_sublist k s).length_le.trans bound
  | clear =>
    cases taken
    simp
  | sweep now =>
    cases taken
    exact (sweep_sublist now s).length_le.trans bound

/-- A read returns the value of the last write under the key, which has not
    expired at its second instant. -/
theorem read_sound {cap : Nat} {now : T} {s : Store K V T} {log : List (Event K V T)} {k : K} {first second : T}
    {v : V} (tracks : Tracks cap now s log) (returned : (read k first second s).1 = some v) :
    ∃ t, lastWrite k log = some (v,t) ∧ second < t := by
  rw [read] at returned
  split at returned
  · rename_i e found
    obtain ⟨member,rfl⟩ := find_some found
    split at returned
    · rename_i live
      cases returned
      exact ⟨e.expiry,tracks.sound e (mem_sweep.mp member).1,live⟩
    · cases returned
  · cases returned

/-- A read returns the last write under the key while it has not expired and
    fewer than `cap` other keys were used since the key was. -/
theorem read_retained {cap : Nat} {now : T} {s : Store K V T} {log : List (Event K V T)} {k : K} {first second : T}
    {v : V} {t : T} (tracks : Tracks cap now s log) (order : first ≤ second) (past : second ≤ now)
    (written : lastWrite k log = some (v,t)) (live : now < t) (few : (touchedSince k log).card < cap) :
    (read k first second s).1 = some v := by
  obtain ⟨front,back,split_,_⟩ := tracks.retained ⟨k,v,t⟩ written live few
  have swept := tracks_sweep (order.trans past) tracks
  have member : (⟨k,v,t⟩ : Entry K V T) ∈ sweep first s :=
    mem_sweep.mpr ⟨by simp [split_],lt_of_le_of_lt (order.trans past) live⟩
  have found := find_of_mem swept.nodup member
  simp only [read,found,lt_of_le_of_lt past live,↓reduceIte]

/-! ### The values at an instant -/

/-- The value under a key that has not expired at an instant. -/
def live (k : K) (now : T) (s : Store K V T) : Option V :=
  (find k s).bind fun e => if now < e.expiry then some e.value else none

theorem live_cons (k : K) (now : T) (e : Entry K V T) (s : Store K V T) :
    live k now (e :: s) = if e.key = k then (if now < e.expiry then some e.value else none) else live k now s := by
  by_cases same : e.key = k
  · simp [live,find,same]
  · simp [live,find,same]

theorem live_drop_self (k : K) (now : T) (s : Store K V T) : live k now (drop k s) = none := by
  simp [live,find_drop_self]

theorem live_drop_ne {k k' : K} (other : k' ≠ k) (now : T) (s : Store K V T) : live k' now (drop k s) = live k' now s := by
  simp [live,find_drop_ne other]

/-- What is swept is expired from then on. -/
theorem live_sweep {s : Store K V T} (nodup : (keys s).Nodup) (k : K) {now later : T} (order : now ≤ later) :
    live k later (sweep now s) = live k later s := by
  rw [live,live,find_sweep nodup]
  cases find k s with
  | none => rfl
  | some e =>
    by_cases before : now < e.expiry
    · simp [before]
    · have ended : ¬ later < e.expiry := fun alive => before (lt_of_le_of_lt order alive)
      simp only [Option.bind_some,if_neg before,if_neg ended,Option.bind_none]

/-- A write for which there is room leaves the other keys alone. -/
theorem live_write {cap : Nat} {e : Entry K V T} {s : Store K V T} (room : e.key ∉ keys s → s.length < cap) (k : K)
    (now : T) : live k now (write cap e s) =
      if e.key = k then (if now < e.expiry then some e.value else none) else live k now s := by
  rw [write,live_cons]
  by_cases same : e.key = k
  · simp [same]
  · simp only [same,if_false]
    split
    · exact live_drop_ne (Ne.symm same) now s
    · rename_i new
      have fits := room new
      rw [List.take_of_length_le (by omega)]

/-- A write leaves alone what it does not displace. -/
theorem live_write_of_mem {cap : Nat} {e : Entry K V T} {s : Store K V T} {k : K} (other : e.key ≠ k)
    (kept : k ∈ keys (write cap e s)) (now : T) : live k now (write cap e s) = live k now s := by
  rw [write,live_cons,if_neg other]
  split
  · exact live_drop_ne (Ne.symm other) now s
  · rename_i new
    obtain ⟨f,member,rfl⟩ := mem_keys.mp kept
    rw [write,if_neg new] at member
    have inside : f ∈ s.take (cap - 1) := (List.mem_cons.mp member).resolve_left fun same => other (by rw [same])
    -- the entry found among the first ones is the one found in all of them
    have early : (find f.key (s.take (cap - 1))).isSome = true := List.find?_isSome.mpr ⟨f,inside,by simp⟩
    have whole : find f.key s = (find f.key (s.take (cap - 1))).or (find f.key (s.drop (cap - 1))) := by
      rw [find,find,find,← List.find?_append,List.take_append_drop]
    obtain ⟨g,found⟩ := Option.isSome_iff_exists.mp early
    rw [live,live,whole,found,Option.some_or]

/-- A read at one instant returns the value at that instant. -/
theorem read_value {s : Store K V T} (nodup : (keys s).Nodup) (k : K) (now : T) : (read k now now s).1 = live k now s := by
  rw [← live_sweep nodup k le_rfl,read]
  cases found : find k (sweep now s) with
  | none => simp [live,found]
  | some e =>
    have alive := (mem_sweep.mp (find_some found).1).2
    simp [live,found,alive]

theorem live_read {s : Store K V T} (nodup : (keys s).Nodup) (k k' : K) {now later : T} (order : now ≤ later) :
    live k' later (read k now now s).2 = live k' later s := by
  rw [← live_sweep nodup k' order,read]
  cases found : find k (sweep now s) with
  | none => rfl
  | some e =>
    obtain ⟨member,rfl⟩ := find_some found
    have alive := (mem_sweep.mp member).2
    simp only [alive,if_true,live_cons]
    by_cases same : e.key = k'
    · subst same
      by_cases still : later < e.expiry
      · simp [live,found,still]
      · simp [live,found,still]
    · simp only [same,if_false]
      exact live_drop_ne (Ne.symm same) later _

/-! ### What a write displaces -/

/-- Of a full store, a new key displaces the last entry; a store with room
    keeps them all. -/
theorem displaced_iff {cap : Nat} {w e : Entry K V T} {s : Store K V T} (nodup : (keys s).Nodup)
    (fits : s.length ≤ cap) (positive : 1 ≤ cap) (new : w.key ∉ keys s) (held : e ∈ s) :
    e.key ∉ keys (write cap w s) ↔ s.length = cap ∧ s.getLast? = some e := by
  have other : e.key ≠ w.key := fun same => new (mem_keys.mpr ⟨e,held,same⟩)
  have kept : e.key ∈ keys (write cap w s) ↔ e ∈ s.take (cap - 1) := by
    rw [write,if_neg new]
    constructor
    · intro member
      obtain ⟨f,inside,same⟩ := mem_keys.mp member
      rcases List.mem_cons.mp inside with rfl | later
      · exact absurd same.symm other
      · rwa [← List.inj_on_of_nodup_map nodup (List.mem_of_mem_take later) held same]
    · intro member
      exact mem_keys.mpr ⟨e,List.mem_cons_of_mem _ member,rfl⟩
  rw [kept]
  by_cases full : s.length = cap
  · obtain ⟨init,last,rfl⟩ : ∃ init last, s = init ++ [last] := by
      rcases List.eq_nil_or_concat s with rfl | ⟨init,last,rfl⟩
      · cases held
      · exact ⟨init,last,List.concat_eq_append⟩
    have front : (init ++ [last]).take (cap - 1) = init := by
      rw [List.length_append,List.length_singleton] at full
      rw [List.take_append_of_le_length (by omega),List.take_of_length_le (by omega)]
    have distinct : last ∉ init := fun member =>
      List.disjoint_of_nodup_append (List.Nodup.of_map _ nodup) member (List.mem_singleton_self last)
    rw [front,List.getLast?_concat,Option.some.injEq]
    constructor
    · intro gone
      rcases List.mem_append.mp held with early | late
      · exact absurd early gone
      · exact ⟨full,(List.mem_singleton.mp late).symm⟩
    · rintro ⟨_,rfl⟩
      exact distinct
  · rw [List.take_of_length_le (by omega)]
    constructor
    · intro gone
      exact absurd held gone
    · intro both
      exact absurd both.1 full

/-- A full store whose last entry has not expired while another one has. -/
def Crowded (cap : Nat) (now : T) (s : Store K V T) : Prop :=
  s.length = cap ∧ (∃ e, s.getLast? = some e ∧ now < e.expiry) ∧ ∃ e ∈ s, e.expiry ≤ now

theorem length_sweep_lt_iff {now : T} {s : Store K V T} : (sweep now s).length < s.length ↔ ∃ e ∈ s, e.expiry ≤ now := by
  rw [sweep,List.length_filter_lt_length_iff_exists]
  simp

/-- Unexpired entries are displaced only for `cap` of them, unless the store is
    crowded. -/
theorem displaces_fairly_iff {cap : Nat} (now : T) {w : Entry K V T} {s : Store K V T} (nodup : (keys s).Nodup)
    (fits : s.length ≤ cap) (positive : 1 ≤ cap) (new : w.key ∉ keys s) :
    (∀ e ∈ s, now < e.expiry → e.key ∉ keys (write cap w s) → (sweep now s).length = cap) ↔ ¬ Crowded cap now s := by
  constructor
  · rintro fair ⟨full,⟨e,last,alive⟩,expired⟩
    have held := List.mem_of_getLast? last
    have all := fair e held alive ((displaced_iff nodup fits positive new held).mpr ⟨full,last⟩)
    have fewer := length_sweep_lt_iff.mpr expired
    omega
  · intro calm e held alive gone
    obtain ⟨full,last⟩ := (displaced_iff nodup fits positive new held).mp gone
    by_contra unequal
    have fewer : (sweep now s).length < s.length := by
      have bound := (sweep_sublist now s).length_le
      omega
    exact calm ⟨full,⟨e,last,alive⟩,length_sweep_lt_iff.mp fewer⟩

/-- Sweeping before the write makes no difference to the unexpired entries,
    unless the store is crowded. -/
theorem sweep_write_iff {cap : Nat} (now : T) {w : Entry K V T} {s : Store K V T} (nodup : (keys s).Nodup)
    (fits : s.length ≤ cap) (positive : 1 ≤ cap) (new : w.key ∉ keys s) :
    (∀ first, first ≤ now → ∀ e ∈ s, now < e.expiry →
      (e.key ∈ keys (write cap w (sweep first s)) ↔ e.key ∈ keys (write cap w s))) ↔ ¬ Crowded cap now s := by
  have sub := fun first => sweep_sublist first s
  have displacedAfter : ∀ first, ∀ e ∈ sweep first s, e.key ∉ keys (write cap w (sweep first s)) ↔
      (sweep first s).length = cap ∧ (sweep first s).getLast? = some e := fun first e inside =>
    displaced_iff ((keys_sublist (sub first)).nodup nodup) ((sub first).length_le.trans fits) positive
      (fun member => new ((keys_sublist (sub first)).mem member)) inside
  constructor
  · rintro neutral ⟨full,⟨e,last,alive⟩,expired⟩
    have held := List.mem_of_getLast? last
    have gone := (displaced_iff nodup fits positive new held).mpr ⟨full,last⟩
    have fewer := length_sweep_lt_iff.mpr expired
    have stays : ¬ e.key ∉ keys (write cap w (sweep now s)) := by
      rw [displacedAfter now e (mem_sweep.mpr ⟨held,alive⟩)]
      omega
    exact stays fun member => gone ((neutral now le_rfl e held alive).mp member)
  · intro calm first past e held alive
    have inside : e ∈ sweep first s := mem_sweep.mpr ⟨held,lt_of_le_of_lt past alive⟩
    refine not_iff_not.mp ?_
    rw [displacedAfter first e inside,displaced_iff nodup fits positive new held]
    have whole : (sweep first s).length = cap → sweep first s = s := by
      intro full
      exact (sub first).eq_of_length_le (by omega)
    constructor
    · intro both
      rwa [whole both.1] at both
    · rintro ⟨full,last⟩
      have same : sweep first s = s := by
        refine (sub first).eq_of_length_le ?_
        by_contra fewer
        obtain ⟨f,there,ended⟩ := length_sweep_lt_iff.mp (lt_of_not_ge fewer)
        exact calm ⟨full,⟨e,last,alive⟩,f,there,ended.trans past⟩
      rw [same]
      exact ⟨full,last⟩

end
end Facade.Recency
