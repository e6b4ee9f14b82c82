import Mathlib.Data.List.AList
import Facade.Recency
import Facade.Strings

/-!
`InMemoryCache` of src/cache/InMemoryCache.cpp, with its three structures: the
entries (`cache`), the recency list (`lru_list`) and the list iterator held for
every key (`lru_map`). An iterator is the identity of a list node, and using
one whose node is gone is undefined behaviour, which a method reports as
`none`. `Refines` ties the three structures to one store of `Facade.Recency`;
every method keeps it and behaves as the store's operation (`refines_step`),
so no method ever meets a dangling iterator.
-/
namespace Facade
open Strings Recency

structure CacheEntry where
  value : Bytes
  expiry : Int
deriving DecidableEq

/-- A node of `lru_list_`. Its identity is what a `std::list` iterator denotes. -/
structure Node where
  id : Nat
  key : Bytes
deriving DecidableEq

structure InMemoryCache where
  cache : AList fun _ : Bytes => CacheEntry
  lru_list : List Node
  lru_map : AList fun _ : Bytes => Nat
  /-- The identity of the next node to be allocated. -/
  next_node : Nat
  default_ttl_seconds : Int
  max_size : Nat

namespace InMemoryCache

/-- The constructor. -/
def new (default_ttl_seconds : Int) (max_size : Nat) : InMemoryCache :=
  ⟨∅,[],∅,0,default_ttl_seconds,max_size⟩

/-- `lru_list_.erase(it)`. -/
def listErase (nodes : List Node) (it : Nat) : Option (List Node) :=
  if nodes.any (·.id = it) then some (nodes.filter (·.id ≠ it)) else none

/-- `lru_list_.splice(lru_list_.begin(), lru_list_, it)`: the node itself moves
    to the front. -/
def listSplice (nodes : List Node) (it : Nat) : Option (List Node) :=
  (nodes.find? (·.id = it)).map fun node => node :: nodes.filter (·.id ≠ it)

/-- One round of the loop of `evictIfNeeded`. -/
def evictOldest (c : InMemoryCache) (oldest : Node) : InMemoryCache :=
  { c with
    lru_list := c.lru_list.dropLast
    lru_map := c.lru_map.erase oldest.key
    cache := c.cache.erase oldest.key }

/-- The loop of `evictIfNeeded`; every round takes one node off the list. -/
def evictLoop : Nat → InMemoryCache → InMemoryCache
  | 0, c => c
  | rounds + 1, c =>
    if c.max_size ≤ c.lru_map.keys.length then
      match c.lru_list.getLast? with
      | some oldest => evictLoop rounds (evictOldest c oldest)
      | none => c
    else c

def evictIfNeeded (c : InMemoryCache) : InMemoryCache := evictLoop c.lru_list.length c

/-- The body of the loop of `removeExpired` for an expired entry. -/
def removeEntry (c : InMemoryCache) (key : Bytes) : Option InMemoryCache := do
  let c ← match c.lru_map.lookup key with
    | some it => do
      let nodes ← listErase c.lru_list it
      some { c with lru_list := nodes, lru_map := c.lru_map.erase key }
    | none => some c
  some { c with cache := c.cache.erase key }

def removeExpired (c : InMemoryCache) (now : Int) : Option InMemoryCache :=
  c.cache.entries.foldlM (fun c e => if e.2.expiry ≤ now then removeEntry c e.1 else some c) c

/-- `steady_clock::now() + seconds(effective_ttl)`, in nanoseconds. -/
def expiryOf (default_ttl_seconds ttl now : Int) : Int :=
  now + (if ttl > 0 then ttl else default_ttl_seconds) * 1000000000

/-- The end of `set`: the entry is stored and its key takes the front. -/
def push (c : InMemoryCache) (key : Bytes) (entry : CacheEntry) : InMemoryCache :=
  { c with
    cache := c.cache.insert key entry
    lru_list := ⟨c.next_node,key⟩ :: c.lru_list
    lru_map := c.lru_map.insert key c.next_node
    next_node := c.next_node + 1 }

def set (c : InMemoryCache) (key value : Bytes) (ttl now : Int) : Option (Bool × InMemoryCache) := do
  let entry : CacheEntry := ⟨value,expiryOf c.default_ttl_seconds ttl now⟩
  let c ← match c.lru_map.lookup key with
    | some it => do
      let nodes ← listErase c.lru_list it
      some { c with lru_list := nodes }
    | none => some (evictIfNeeded c)
  some (true,push c key entry)

/-- `get` reads the clock twice: in `removeExpired` and for the entry found. -/
def get (c : InMemoryCache) (key : Bytes) (swept checked : Int) : Option (Option Bytes × InMemoryCache) := do
  let c ← removeExpired c swept
  match c.lru_map.lookup key with
  | some it =>
    match c.cache.lookup key with
    | some entry =>
      if entry.expiry > checked then do
        let nodes ← listSplice c.lru_list it
        some (some entry.value,{ c with lru_list := nodes })
      else do
        let nodes ← listErase c.lru_list it
        some (none,{ c with cache := c.cache.erase key, lru_list := nodes, lru_map := c.lru_map.erase key })
    | none => do
      let nodes ← listErase c.lru_list it
      some (none,{ c with lru_list := nodes, lru_map := c.lru_map.erase key })
  | none => some (none,c)

def remove (c : InMemoryCache) (key : Bytes) : Option (Bool × InMemoryCache) := do
  let (removed,c) ← match c.lru_map.lookup key with
    | some it => do
      let nodes ← listErase c.lru_list it
      some (true,{ c with lru_list := nodes, lru_map := c.lru_map.erase key })
    | none => some (false,c)
  match c.cache.lookup key with
  | some _ => some (true,{ c with cache := c.cache.erase key })
  | none => some (removed,c)

def clear (c : InMemoryCache) : Bool × InMemoryCache := (true,{ c with cache := ∅, lru_list := [], lru_map := ∅ })

/-- `exists`, with the same two readings of the clock as `get`. -/
def exists_ (c : InMemoryCache) (key : Bytes) (swept checked : Int) : Option (Bool × InMemoryCache) := do
  let c ← removeExpired c swept
  match c.cache.lookup key with
  | some entry => some (decide (entry.expiry > checked),c)
  | none => some (false,c)

/-! ### Calls -/

/-- A call of a public method, with the readings of the clock it makes. -/
inductive Call
  | set (key value : Bytes) (ttl now : Int)
  | get (key : Bytes) (swept checked : Int)
  | remove (key : Bytes)
  | clear
  | exists_ (key : Bytes) (swept checked : Int)
deriving DecidableEq

inductive Answer
  | flag (b : Bool)
  | value (v : Option Bytes)
deriving DecidableEq

/-- A call under the mutex, on record with its answer. -/
def step (c : InMemoryCache) (call : Call) : Option (InMemoryCache × List (Call × Answer)) :=
  match call with
  | .set key value ttl now => (c.set key value ttl now).map fun (b,c) => (c,[(call,.flag b)])
  | .get key swept checked => (c.get key swept checked).map fun (v,c) => (c,[(call,.value v)])
  | .remove key => (c.remove key).map fun (b,c) => (c,[(call,.flag b)])
  | .clear => some (c.clear.2,[(call,.flag c.clear.1)])
  | .exists_ key swept checked => (c.exists_ key swept checked).map fun (b,c) => (c,[(call,.flag b)])

def Call.readings : Call → List Int
  | .set _ _ _ now => [now]
  | .get _ swept checked => [swept,checked]
  | .exists_ _ swept checked => [swept,checked]
  | _ => []

/-! ### The three structures as one store -/

/-- The entries of the store, as `cache_` holds them. -/
def entryOf (e : Entry Bytes Bytes Int) : CacheEntry := ⟨e.value,e.expiry⟩

/-- The three structures hold the store: the list has its keys in order, on
    nodes of their own, `cache` has its entries, and `lru_map` has for every
    key the node that holds it. -/
structure Refines (c : InMemoryCache) (s : Store Bytes Bytes Int) : Prop where
  list : c.lru_list.map Node.key = keys s
  nodup : (keys s).Nodup
  nodes : (c.lru_list.map Node.id).Nodup
  fresh : ∀ node ∈ c.lru_list, node.id < c.next_node
  cache : ∀ k, c.cache.lookup k = (find k s).map entryOf
  map : ∀ k, c.lru_map.lookup k = (c.lru_list.find? (·.key = k)).map Node.id

theorem refines_new (default_ttl_seconds : Int) (max_size : Nat) : Refines (new default_ttl_seconds max_size) [] :=
  ⟨rfl,by simp [keys],by simp [new],by simp [new],by simp [new,find],by simp [new]⟩

section
variable {c : InMemoryCache} {s : Store Bytes Bytes Int}

theorem drop_of_not_mem {k : Bytes} (absent : k ∉ keys s) : drop k s = s := by
  refine List.filter_eq_self.mpr ?_
  intro e member
  simpa using fun same => absent (mem_keys.mpr ⟨e,member,same⟩)

theorem find_node_ne {nodes : List Node} {k k' : Bytes} (other : k' ≠ k) :
    (nodes.filter (·.key ≠ k)).find? (·.key = k') = nodes.find? (·.key = k') := by
  rw [List.find?_filter]
  congr 1
  funext node
  by_cases same : node.key = k'
  · simp [same,other]
  · simp [same]

theorem map_key_filter (nodes : List Node) (k : Bytes) :
    (nodes.filter (·.key ≠ k)).map Node.key = (nodes.map Node.key).filter (· ≠ k) := by
  rw [List.filter_map]
  rfl

theorem keys_drop (k : Bytes) : keys (drop k s) = (keys s).filter (· ≠ k) := by
  rw [keys,keys,List.filter_map]
  rfl

/-- The node an iterator of `lru_map` denotes. -/
theorem Refines.node (r : Refines c s) {k : Bytes} {it : Nat} (found : c.lru_map.lookup k = some it) :
    c.lru_list.find? (·.id = it) = some ⟨it,k⟩ ∧ ∀ node ∈ c.lru_list, node.id = it ↔ node.key = k := by
  rw [r.map k,Option.map_eq_some_iff] at found
  obtain ⟨⟨it',k'⟩,located,rfl⟩ := found
  have member := List.mem_of_find?_eq_some located
  have isKey : k' = k := by simpa using List.find?_some located
  subst isKey
  have keysDistinct : (c.lru_list.map Node.key).Nodup := by rw [r.list]; exact r.nodup
  have same : ∀ node ∈ c.lru_list, node.id = it' ↔ node.key = k' := by
    intro node inside
    constructor
    · intro equal
      rw [List.inj_on_of_nodup_map r.nodes inside member equal]
    · intro equal
      rw [List.inj_on_of_nodup_map keysDistinct inside member equal]
  exact ⟨find?_of_nodup r.nodes member,same⟩

theorem Refines.filter_eq (r : Refines c s) {k : Bytes} {it : Nat} (found : c.lru_map.lookup k = some it) :
    c.lru_list.filter (·.id ≠ it) = c.lru_list.filter (·.key ≠ k) := by
  refine List.filter_congr ?_
  intro node member
  simp [(r.node found).2 node member]

/-- Erasing at the iterator of a key is defined and takes out the key's node. -/
theorem Refines.erase (r : Refines c s) {k : Bytes} {it : Nat} (found : c.lru_map.lookup k = some it) :
    listErase c.lru_list it = some (c.lru_list.filter (·.key ≠ k)) := by
  have inside := List.mem_of_find?_eq_some (r.node found).1
  have here : c.lru_list.any (·.id = it) = true := List.any_eq_true.mpr ⟨_,inside,by simp⟩
  rw [listErase,if_pos here,r.filter_eq found]

theorem Refines.splice (r : Refines c s) {k : Bytes} {it : Nat} (found : c.lru_map.lookup k = some it) :
    listSplice c.lru_list it = some (⟨it,k⟩ :: c.lru_list.filter (·.key ≠ k)) := by
  rw [listSplice,(r.node found).1,r.filter_eq found]
  rfl

theorem Refines.mem_keys (r : Refines c s) {k : Bytes} {it : Nat} (found : c.lru_map.lookup k = some it) :
    k ∈ keys s := by
  have inside := List.mem_of_find?_eq_some (r.node found).1
  rw [← r.list]
  exact List.mem_map.mpr ⟨_,inside,rfl⟩

theorem Refines.not_mem_keys (r : Refines c s) {k : Bytes} (absent : c.lru_map.lookup k = none) : k ∉ keys s := by
  rw [r.map k,Option.map_eq_none_iff,List.find?_eq_none] at absent
  rw [← r.list]
  intro member
  obtain ⟨node,inside,same⟩ := List.mem_map.mp member
  exact absent node inside (by simpa using same)

theorem Refines.map_none (r : Refines c s) {k : Bytes} (absent : k ∉ keys s) : c.lru_map.lookup k = none := by
  cases found : c.lru_map.lookup k with
  | none => rfl
  | some it => exact absurd (r.mem_keys found) absent

theorem Refines.mem_lru_map (r : Refines c s) (k : Bytes) : k ∈ c.lru_map ↔ k ∈ keys s := by
  rw [← AList.lookup_isSome]
  cases found : c.lru_map.lookup k with
  | none => simpa using r.not_mem_keys found
  | some it => simpa using r.mem_keys found

theorem Refines.mem_cache (r : Refines c s) (k : Bytes) : k ∈ c.cache ↔ k ∈ keys s := by
  rw [← AList.lookup_isSome,r.cache k]
  cases found : find k s with
  | none => simpa using find_none found
  | some e => simpa using Recency.mem_keys.mpr ⟨e,find_some found⟩

/-- A map with the keys of the store has as many of them. -/
theorem length_keys {β : Type} {m : AList fun _ : Bytes => β} (nodup : (keys s).Nodup)
    (same : ∀ k, k ∈ m ↔ k ∈ keys s) : m.keys.length = s.length := by
  have perm : m.keys.Perm (keys s) := by
    refine (List.perm_ext_iff_of_nodup m.keys_nodup nodup).mpr ?_
    intro k
    rw [← AList.mem_keys,same]
  simpa [keys] using perm.length_eq

/-- The three structures hold the same keys, each once, every iterator denotes
    the node that holds its key, and there are at most `max_size` entries, or one. -/
structure Consistent (c : InMemoryCache) : Prop where
  distinct : (c.lru_list.map Node.key).Nodup
  sameKeys : ∀ k, k ∈ c.cache ↔ k ∈ c.lru_map
  listed : ∀ k, k ∈ c.lru_map ↔ k ∈ c.lru_list.map Node.key
  designates : ∀ k it, c.lru_map.lookup k = some it →
    ⟨it,k⟩ ∈ c.lru_list ∧ ∀ node ∈ c.lru_list, node.id = it → node = ⟨it,k⟩
  bounded : c.cache.keys.length ≤ max c.max_size 1

theorem Refines.consistent (r : Refines c s) (bounded : s.length ≤ max c.max_size 1) : Consistent c := by
  refine ⟨?_,?_,?_,?_,?_⟩
  · rw [r.list]
    exact r.nodup
  · intro k
    rw [r.mem_cache,r.mem_lru_map]
  · intro k
    rw [r.mem_lru_map,r.list]
  · intro k it found
    have member := List.mem_of_find?_eq_some (r.node found).1
    exact ⟨member,fun node inside same => List.inj_on_of_nodup_map r.nodes inside member same⟩
  · rw [length_keys r.nodup r.mem_cache]
    exact bounded

/-- A key leaves the three structures together. -/
theorem Refines.drop (r : Refines c s) (k : Bytes) :
    Refines { c with
      cache := c.cache.erase k
      lru_list := c.lru_list.filter (·.key ≠ k)
      lru_map := c.lru_map.erase k } (drop k s) := by
  refine ⟨?_,?_,?_,?_,?_,?_⟩
  · rw [map_key_filter,r.list,keys_drop]
  · exact (keys_sublist (drop_sublist k s)).nodup r.nodup
  · exact (List.filter_sublist.map _).nodup r.nodes
  · intro node member
    exact r.fresh node (List.mem_of_mem_filter member)
  · intro k'
    by_cases same : k' = k
    · subst same
      simp [find_drop_self]
    · rw [AList.lookup_erase_ne same,find_drop_ne same]
      exact r.cache k'
  · intro k'
    by_cases same : k' = k
    · subst same
      simp
    · rw [AList.lookup_erase_ne same,find_node_ne same]
      exact r.map k'

/-- A key that is not in the list takes its front. The two maps may still hold
    the key from before, as they do when `set` overwrites. -/
theorem refines_push {k : Bytes} {entry : CacheEntry} (list : c.lru_list.map Node.key = keys s)
    (nodup : (keys s).Nodup) (nodes : (c.lru_list.map Node.id).Nodup) (fresh : ∀ node ∈ c.lru_list, node.id < c.next_node)
    (new : k ∉ keys s) (cache : ∀ k', k' ≠ k → c.cache.lookup k' = (find k' s).map entryOf)
    (map : ∀ k', k' ≠ k → c.lru_map.lookup k' = (c.lru_list.find? (·.key = k')).map Node.id) :
    Refines (push c k entry) (⟨k,entry.value,entry.expiry⟩ :: s) := by
  refine ⟨?_,?_,?_,?_,?_,?_⟩
  · simp [push,keys,list]
  · exact List.nodup_cons.mpr ⟨new,nodup⟩
  · refine List.nodup_cons.mpr ⟨?_,nodes⟩
    intro member
    obtain ⟨node,inside,same⟩ := List.mem_map.mp member
    have old := fresh node inside
    simp only at same
    omega
  · intro node member
    rcases List.mem_cons.mp member with rfl | old
    · simp [push]
    · have bound := fresh node old
      simp only [push]
      omega
  · intro k'
    by_cases same : k' = k
    · subst same
      simp [push,find,entryOf]
    · have later : find k' (⟨k,entry.value,entry.expiry⟩ :: s) = find k' s := by
        simp [find,Ne.symm same]
      rw [push,AList.lookup_insert_ne same,later]
      exact cache k' same
  · intro k'
    by_cases same : k' = k
    · subst same
      simp [push]
    · have differs : ¬ k = k' := Ne.symm same
      simp only [push,AList.lookup_insert_ne same,List.find?_cons,differs,decide_false]
      exact map k' same

/-! ### The helpers -/

theorem drop_last {e : Entry Bytes Bytes Int} (nodup : (keys (s ++ [e])).Nodup) :
    drop e.key (s ++ [e]) = s := by
  have new : e.key ∉ keys s := by
    have distinct : (keys s ++ [e.key]).Nodup := by simpa [keys] using nodup
    exact fun member => (List.nodup_append.mp distinct).2.2 _ member _ (by simp) rfl
  have cut : drop e.key (s ++ [e]) = drop e.key s := by simp [Recency.drop]
  rw [cut,drop_of_not_mem new]

theorem filter_dropLast {nodes : List Node} {node : Node} (nodup : ((nodes ++ [node]).map Node.key).Nodup) :
    (nodes ++ [node]).filter (·.key ≠ node.key) = nodes := by
  have new : node.key ∉ nodes.map Node.key := by
    rw [List.map_append] at nodup
    exact fun member => (List.nodup_append.mp nodup).2.2 _ member _ (by simp) rfl
  rw [List.filter_append]
  have kept : nodes.filter (·.key ≠ node.key) = nodes := by
    refine List.filter_eq_self.mpr ?_
    intro other member
    simpa using fun same => new (List.mem_map.mpr ⟨other,member,same⟩)
  rw [kept]
  simp

/-- A round of the eviction loop takes the last entry out of the store. -/
theorem refines_evictOldest {e : Entry Bytes Bytes Int} (r : Refines c (s ++ [e])) :
    ∃ oldest, c.lru_list.getLast? = some oldest ∧ Refines (evictOldest c oldest) s := by
  have lastKey : c.lru_list.map Node.key = keys s ++ [e.key] := by rw [r.list]; simp [keys]
  obtain ⟨nodes,rest,split_,_,single⟩ := List.map_eq_append_iff.mp lastKey
  obtain ⟨node,none_,rfl,isKey,empty⟩ := List.map_eq_cons_iff.mp single
  cases List.map_eq_nil_iff.mp empty
  refine ⟨node,by rw [split_]; simp,?_⟩
  have keysDistinct : ((nodes ++ [node]).map Node.key).Nodup := by rw [← split_,r.list]; exact r.nodup
  have dropped := r.drop node.key
  rw [split_,filter_dropLast keysDistinct,isKey,drop_last r.nodup] at dropped
  simpa [evictOldest,split_,isKey] using dropped

theorem evictLoop_fields (rounds : Nat) (c : InMemoryCache) :
    (evictLoop rounds c).max_size = c.max_size ∧ (evictLoop rounds c).default_ttl_seconds = c.default_ttl_seconds := by
  induction rounds generalizing c with
  | zero => exact ⟨rfl,rfl⟩
  | succ rounds ih =>
    rw [evictLoop]
    split
    · split
      · exact ih _
      · exact ⟨rfl,rfl⟩
    · exact ⟨rfl,rfl⟩

theorem refines_evictLoop (r : Refines c s) : Refines (evictLoop s.length c) (s.take (c.max_size - 1)) := by
  induction s using List.reverseRecOn generalizing c with
  | nil => simpa [evictLoop] using r
  | append_singleton s e ih =>
    rw [List.length_append,List.length_singleton,evictLoop,length_keys r.nodup r.mem_lru_map]
    by_cases full : c.max_size ≤ (s ++ [e]).length
    · obtain ⟨oldest,last,smaller⟩ := refines_evictOldest r
      have rest := ih smaller
      have inside : c.max_size - 1 ≤ s.length := by
        simp only [List.length_append,List.length_singleton] at full
        omega
      rw [if_pos full,last,List.take_append_of_le_length inside]
      exact rest
    · have all : (s ++ [e]).take (c.max_size - 1) = s ++ [e] := List.take_of_length_le (by omega)
      rw [if_neg full,all]
      exact r

/-- Making room for a new key keeps all but one of the places filled. -/
theorem refines_evictIfNeeded (r : Refines c s) : Refines (evictIfNeeded c) (s.take (c.max_size - 1)) := by
  have sameLength : c.lru_list.length = s.length := by simpa [keys] using congrArg List.length r.list
  rw [evictIfNeeded,sameLength]
  exact refines_evictLoop r

theorem refines_removeEntry (r : Refines c s) (k : Bytes) :
    ∃ c', removeEntry c k = some c' ∧ Refines c' (drop k s) ∧ c'.max_size = c.max_size ∧
      c'.default_ttl_seconds = c.default_ttl_seconds := by
  cases found : c.lru_map.lookup k with
  | some it =>
    have erased := r.erase found
    exact ⟨_,by simp only [removeEntry,found,erased,bind,Option.bind],r.drop k,rfl,rfl⟩
  | none =>
    have absent := r.not_mem_keys found
    refine ⟨{ c with cache := c.cache.erase k },by simp [removeEntry,found],?_,rfl,rfl⟩
    rw [drop_of_not_mem absent]
    refine ⟨r.list,r.nodup,r.nodes,r.fresh,?_,r.map⟩
    intro k'
    by_cases same : k' = k
    · subst same
      have missing : find k' s = none := by
        cases here : find k' s with
        | none => rfl
        | some e => exact absurd (mem_keys.mpr ⟨e,find_some here⟩) absent
      simp [missing]
    · rw [← r.cache k']
      exact AList.lookup_erase_ne same

/-- What the loop of `removeExpired` does to the store, entry by entry. -/
def dropExpired (now : Int) (s : Store Bytes Bytes Int) (e : (_ : Bytes) × CacheEntry) : Store Bytes Bytes Int :=
  if e.2.expiry ≤ now then drop e.1 s else s

theorem refines_expiredLoop (now : Int) (es : List ((_ : Bytes) × CacheEntry)) (r : Refines c s) :
    ∃ c', es.foldlM (fun c e => if e.2.expiry ≤ now then removeEntry c e.1 else some c) c = some c' ∧
      Refines c' (es.foldl (dropExpired now) s) ∧ c'.max_size = c.max_size ∧
      c'.default_ttl_seconds = c.default_ttl_seconds := by
  induction es generalizing c s with
  | nil => exact ⟨c,rfl,r,rfl,rfl⟩
  | cons e rest ih =>
    rw [List.foldlM_cons,List.foldl_cons,dropExpired]
    split
    · obtain ⟨first,executed,dropped,size,ttl⟩ := refines_removeEntry r e.1
      obtain ⟨c',later,final,size',ttl'⟩ := ih dropped
      exact ⟨c',by rw [executed]; exact later,final,size'.trans size,ttl'.trans ttl⟩
    · exact ih r

theorem foldl_dropExpired (now : Int) (es : List ((_ : Bytes) × CacheEntry)) (s : Store Bytes Bytes Int) :
    es.foldl (dropExpired now) s = s.filter fun x => ∀ e ∈ es, e.1 = x.key → now < e.2.expiry := by
  induction es generalizing s with
  | nil => simp
  | cons e rest ih =>
    rw [List.foldl_cons,ih,dropExpired]
    split
    · rename_i old
      rw [Recency.drop,List.filter_filter]
      refine List.filter_congr ?_
      intro x _
      by_cases same : e.1 = x.key
      · simp [same,old]
      · simp [same,Ne.symm same]
    · rename_i live
      refine List.filter_congr ?_
      intro x _
      simp [lt_of_not_ge live]

/-- The sweep over `cache_` sweeps the store. -/
theorem refines_removeExpired (r : Refines c s) (now : Int) :
    ∃ c', removeExpired c now = some c' ∧ Refines c' (sweep now s) ∧ c'.max_size = c.max_size ∧
      c'.default_ttl_seconds = c.default_ttl_seconds := by
  obtain ⟨c',executed,final,size,ttl⟩ := refines_expiredLoop now c.cache.entries r
  refine ⟨c',executed,?_,size,ttl⟩
  rw [foldl_dropExpired] at final
  have same : (s.filter fun x => ∀ e ∈ c.cache.entries, e.1 = x.key → now < e.2.expiry) = sweep now s := by
    refine List.filter_congr ?_
    intro x member
    have stored : c.cache.lookup x.key = some (entryOf x) := by rw [r.cache,find_of_mem r.nodup member]; rfl
    have listed : (⟨x.key,entryOf x⟩ : (_ : Bytes) × CacheEntry) ∈ c.cache.entries := AList.mem_lookup_iff.mp stored
    rw [decide_eq_decide]
    constructor
    · intro all
      exact all _ listed rfl
    · rintro live ⟨k,entry⟩ inside rfl
      have isEntry := AList.mem_lookup_iff.mpr inside
      rw [Option.mem_def,stored,Option.some.injEq] at isEntry
      rw [← isEntry]
      exact live
  rwa [same] at final

/-! ### The methods -/

theorem refines_set (r : Refines c s) (key value : Bytes) (ttl now : Int) :
    ∃ c', c.set key value ttl now = some (true,c') ∧
      Refines c' (write c.max_size ⟨key,value,expiryOf c.default_ttl_seconds ttl now⟩ s) ∧
      c'.max_size = c.max_size ∧ c'.default_ttl_seconds = c.default_ttl_seconds := by
  cases found : c.lru_map.lookup key with
  | some it =>
    have dropped := r.drop key
    have executed : c.set key value ttl now =
        some (true,push { c with lru_list := c.lru_list.filter (·.key ≠ key) } key
          ⟨value,expiryOf c.default_ttl_seconds ttl now⟩) := by
      simp [set,found,r.erase found]
    refine ⟨_,executed,?_,rfl,rfl⟩
    rw [write,if_pos (r.mem_keys found)]
    refine refines_push dropped.list dropped.nodup dropped.nodes dropped.fresh (not_mem_keys_drop key s) ?_ ?_
    · intro k' other
      rw [find_drop_ne other]
      exact r.cache k'
    · intro k' other
      rw [find_node_ne other]
      exact r.map k'
  | none =>
    have room := refines_evictIfNeeded r
    have absent : key ∉ keys s := r.not_mem_keys found
    have absent' : key ∉ keys (s.take (c.max_size - 1)) :=
      fun member => absent ((keys_sublist (List.take_sublist _ s)).mem member)
    have executed : c.set key value ttl now =
        some (true,push (evictIfNeeded c) key ⟨value,expiryOf c.default_ttl_seconds ttl now⟩) := by
      simp [set,found]
    refine ⟨_,executed,?_,?_,?_⟩
    · rw [write,if_neg absent]
      exact refines_push room.list room.nodup room.nodes room.fresh absent' (fun k' _ => room.cache k')
        (fun k' _ => room.map k')
    · exact (evictLoop_fields c.lru_list.length c).1
    · exact (evictLoop_fields c.lru_list.length c).2

/-- The node of a hit moves to the front of the list. -/
theorem refines_touch (r : Refines c s) {e : Entry Bytes Bytes Int} (found : find e.key s = some e) {it : Nat}
    (located : c.lru_map.lookup e.key = some it) :
    Refines { c with lru_list := ⟨it,e.key⟩ :: c.lru_list.filter (·.key ≠ e.key) } (e :: drop e.key s) := by
  have dropped := r.drop e.key
  have node := List.mem_of_find?_eq_some (r.node located).1
  refine ⟨?_,?_,?_,?_,?_,?_⟩
  · simpa [keys] using dropped.list
  · exact List.nodup_cons.mpr ⟨not_mem_keys_drop _ _,dropped.nodup⟩
  · refine List.nodup_cons.mpr ⟨?_,dropped.nodes⟩
    intro member
    obtain ⟨other,inside,same⟩ := List.mem_map.mp member
    have isKey := ((r.node located).2 other (List.mem_of_mem_filter inside)).mp same
    exact absurd isKey (by simpa using List.of_mem_filter inside)
  · intro other member
    rcases List.mem_cons.mp member with rfl | old
    · exact r.fresh _ node
    · exact dropped.fresh other old
  · intro k'
    by_cases same : k' = e.key
    · subst same
      rw [r.cache,found]
      simp [find]
    · have later : find k' (e :: drop e.key s) = find k' s := by
        rw [← find_drop_ne (s := s) same]
        simp [find,Ne.symm same]
      rw [later]
      exact r.cache k'
  · intro k'
    by_cases same : k' = e.key
    · subst same
      simp [located]
    · rw [List.find?_cons_of_neg (by simpa using Ne.symm same),find_node_ne same]
      exact r.map k'

theorem refines_get (r : Refines c s) (key : Bytes) (swept checked : Int) :
    ∃ c', c.get key swept checked = some ((read key swept checked s).1,c') ∧
      Refines c' (read key swept checked s).2 ∧ c'.max_size = c.max_size ∧
      c'.default_ttl_seconds = c.default_ttl_seconds := by
  obtain ⟨c₁,executed,r₁,size,ttl⟩ := refines_removeExpired r swept
  rw [get,executed,Recency.read]
  cases found : find key (sweep swept s) with
  | none =>
    have absent : c₁.lru_map.lookup key = none := r₁.map_none (find_none found)
    exact ⟨c₁,by simp [absent],r₁,size,ttl⟩
  | some e =>
    obtain ⟨member,rfl⟩ := find_some found
    have stored : c₁.cache.lookup e.key = some (entryOf e) := by rw [r₁.cache,found]; rfl
    obtain ⟨it,located⟩ : ∃ it, c₁.lru_map.lookup e.key = some it := by
      cases here : c₁.lru_map.lookup e.key with
      | none => exact absurd (mem_keys.mpr ⟨e,member,rfl⟩) (r₁.not_mem_keys here)
      | some it => exact ⟨it,rfl⟩
    by_cases live : checked < e.expiry
    · refine ⟨{ c₁ with lru_list := ⟨it,e.key⟩ :: c₁.lru_list.filter (·.key ≠ e.key) },?_,?_,size,ttl⟩
      · simp [located,stored,live,r₁.splice located,entryOf]
      · simpa [live] using refines_touch r₁ found located
    · refine ⟨{ c₁ with
        cache := c₁.cache.erase e.key
        lru_list := c₁.lru_list.filter (·.key ≠ e.key)
        lru_map := c₁.lru_map.erase e.key },?_,?_,size,ttl⟩
      · simp [located,stored,live,r₁.erase located,entryOf]
      · simpa [live] using r₁.drop e.key

/-- `remove` reports whether the key was there, expired or not. -/
theorem refines_remove (r : Refines c s) (key : Bytes) :
    ∃ c', c.remove key = some (decide (key ∈ keys s),c') ∧ Refines c' (drop key s) ∧ c'.max_size = c.max_size ∧
      c'.default_ttl_seconds = c.default_ttl_seconds := by
  cases located : c.lru_map.lookup key with
  | some it =>
    have held := r.mem_keys located
    obtain ⟨e,member,rfl⟩ := mem_keys.mp held
    have stored : c.cache.lookup e.key = some (entryOf e) := by rw [r.cache,find_of_mem r.nodup member]; rfl
    exact ⟨_,by simp [remove,located,stored,r.erase located,held],r.drop e.key,rfl,rfl⟩
  | none =>
    have absent := r.not_mem_keys located
    have missing : c.cache.lookup key = none := by
      rw [r.cache,Option.map_eq_none_iff]
      cases here : find key s with
      | none => rfl
      | some e => exact absurd (mem_keys.mpr ⟨e,find_some here⟩) absent
    rw [drop_of_not_mem absent]
    exact ⟨c,by simp [remove,located,missing,absent],r,rfl,rfl⟩

theorem refines_clear (c : InMemoryCache) : Refines c.clear.2 [] :=
  ⟨rfl,by simp [keys],by simp [clear],by simp [clear],by simp [clear,find],by simp [clear]⟩

theorem refines_exists (r : Refines c s) (key : Bytes) (swept checked : Int) :
    ∃ c', c.exists_ key swept checked = some ((find key (sweep swept s)).any (fun e => checked < e.expiry),c') ∧
      Refines c' (sweep swept s) ∧ c'.max_size = c.max_size ∧ c'.default_ttl_seconds = c.default_ttl_seconds := by
  obtain ⟨c',executed,final,size,ttl⟩ := refines_removeExpired r swept
  have stored := final.cache key
  refine ⟨c',?_,final,size,ttl⟩
  cases here : find key (sweep swept s) with
  | some e => simp [exists_,executed,stored,here,entryOf]
  | none => simp [exists_,executed,stored,here]

/-! ### Runs -/

/-- The operation of the store that a call performs. -/
def opOf (default_ttl_seconds : Int) : Call → Op Bytes Bytes Int
  | .set key value ttl now => .write ⟨key,value,expiryOf default_ttl_seconds ttl now⟩
  | .get key swept checked => .read key swept checked
  | .remove key => .remove key
  | .clear => .clear
  | .exists_ _ swept _ => .sweep swept

/-- What a call and its answer say about the keys: a `set` writes, a `get` that
    returned a value hits, `remove` and `clear` forget. -/
def observe (default_ttl_seconds : Int) : Call × Answer → List (Event Bytes Bytes Int)
  | (.set key value ttl now,_) => [.wrote ⟨key,value,expiryOf default_ttl_seconds ttl now⟩]
  | (.get key _ _,.value (some _)) => [.hit key]
  | (.remove key,_) => [.removed key]
  | (.clear,_) => [.cleared]
  | _ => []

/-- Every call is defined on structures that hold a store, and does to them
    what its operation does to the store. -/
theorem refines_step (r : Refines c s) (call : Call) :
    ∃ c' answer s', step c call = some (c',[(call,answer)]) ∧
      Recency.step c.max_size s (opOf c.default_ttl_seconds call) =
        some (s',observe c.default_ttl_seconds (call,answer)) ∧
      Refines c' s' ∧ c'.max_size = c.max_size ∧ c'.default_ttl_seconds = c.default_ttl_seconds := by
  cases call with
  | set key value ttl now =>
    obtain ⟨c',executed,final,size,ttl'⟩ := refines_set r key value ttl now
    exact ⟨c',.flag true,_,by simp [step,executed],rfl,final,size,ttl'⟩
  | get key swept checked =>
    obtain ⟨c',executed,final,size,ttl⟩ := refines_get r key swept checked
    refine ⟨c',.value (read key swept checked s).1,_,by simp [step,executed],?_,final,size,ttl⟩
    cases hit : (read key swept checked s).1 <;> simp [opOf,Recency.step,observe,hit]
  | remove key =>
    obtain ⟨c',executed,final,size,ttl⟩ := refines_remove r key
    exact ⟨c',.flag (decide (key ∈ keys s)),_,by simp [step,executed],rfl,final,size,ttl⟩
  | clear => exact ⟨c.clear.2,_,[],rfl,rfl,refines_clear c,rfl,rfl⟩
  | exists_ key swept checked =>
    obtain ⟨c',executed,final,size,ttl⟩ := refines_exists r key swept checked
    exact ⟨c',.flag ((find key (sweep swept s)).any (fun e => checked < e.expiry)),_,by simp [step,executed],rfl,final,
      size,ttl⟩

end

section
variable {default_ttl_seconds : Int} {max_size : Nat}

/-- A cache starting empty never meets undefined behaviour. -/
theorem run_total (default_ttl_seconds : Int) (max_size : Nat) (calls : List Call) :
    ∃ c log, Runs.Run step (new default_ttl_seconds max_size) calls c log ∧ ∃ s, Refines c s := by
  induction calls using List.reverseRecOn with
  | nil => exact ⟨_,_,.start,[],refines_new _ _⟩
  | append_singleton calls call ih =>
    obtain ⟨c,log,run,s,r⟩ := ih
    obtain ⟨c',answer,s',taken,_,r',_⟩ := refines_step r call
    exact ⟨c',_,run.next taken,s',r'⟩

/-- Every run of the cache is a run of the store. -/
theorem run_refines {calls : List Call} {c : InMemoryCache} {log : List (Call × Answer)}
    (run : Runs.Run step (new default_ttl_seconds max_size) calls c log) :
    c.max_size = max_size ∧ c.default_ttl_seconds = default_ttl_seconds ∧ ∃ s, Refines c s ∧
      Runs.Run (Recency.step max_size) [] (calls.map (opOf default_ttl_seconds)) s
        (log.flatMap (observe default_ttl_seconds)) := by
  induction run with
  | start => exact ⟨rfl,rfl,[],refines_new _ _,.start⟩
  | @next calls c c' log out call _ taken ih =>
    obtain ⟨size,ttl,s,r,abstract⟩ := ih
    obtain ⟨c'',answer,s',taken',onStore,r',size',ttl'⟩ := refines_step r call
    rw [taken,Option.some.injEq,Prod.mk.injEq] at taken'
    obtain ⟨rfl,rfl⟩ := taken'
    rw [size,ttl] at onStore
    refine ⟨size'.trans size,ttl'.trans ttl,s',r',?_⟩
    simpa using abstract.next onStore

/-- Whatever is called, with whatever clock readings, every call is defined and
    leaves the three structures consistent. -/
theorem calls_consistent (default_ttl_seconds : Int) (max_size : Nat) (calls : List Call) :
    ∃ c log, Runs.exec step (new default_ttl_seconds max_size) calls = some (c,log) ∧ Consistent c ∧
      c.max_size = max_size := by
  obtain ⟨c,log,run,_⟩ := run_total default_ttl_seconds max_size calls
  obtain ⟨size,_,s,r,abstract⟩ := run_refines run
  refine ⟨c,log,run.exec,r.consistent ?_,size⟩
  rw [size]
  exact length_run abstract

end
end InMemoryCache
end Facade
