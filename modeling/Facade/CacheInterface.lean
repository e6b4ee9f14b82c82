import Facade.InMemoryCache
import Facade.OrderedMap

/-!
`CacheInterface` of src/interfaces/CacheInterface.hpp, as the service uses it: a
cache answers a key only with a value that was set for that key. A map that
never forgets is one (`everlasting`), and so is `InMemoryCache`
(`InMemoryCache.interface`), whose states are those that its methods reach.
-/
namespace Facade
open Strings

structure CacheInterface where
  Store : Type
  empty : Store
  /-- `get(key)` at a time. -/
  get : Store → Bytes → Int → Option Bytes × Store
  /-- `set(key, value, ttl)` at a time. -/
  set : Store → Bytes → Bytes → Int → Int → Store
  /-- The cache may answer the key with the value. -/
  Holds : Store → Bytes → Bytes → Prop
  holds_empty : ∀ k v, ¬ Holds empty k v
  holds_of_get : ∀ {c k now v}, (get c k now).1 = some v → Holds c k v
  holds_get : ∀ {c k now k' v'}, Holds (get c k now).2 k' v' → Holds c k' v'
  holds_set : ∀ {c k v ttl now k' v'}, Holds (set c k v ttl now) k' v' → (k' = k ∧ v' = v) ∨ Holds c k' v'

/-- A map without expiry and eviction. -/
def CacheInterface.everlasting : CacheInterface where
  Store := OrderedMap Bytes Bytes
  empty := []
  get c k _ := (c.find k,c)
  set c k v _ _ := c.assign k v
  Holds c k v := c.find k = some v
  holds_empty := by simp
  holds_of_get found := found
  holds_get held := held
  holds_set := by
    intro c k v ttl now k' v' held
    by_cases same : k' = k
    · subst same
      rw [OrderedMap.find_assign_self,Option.some.injEq] at held
      exact .inl ⟨rfl,held.symm⟩
    · rw [OrderedMap.find_assign_ne same] at held
      exact .inr held

namespace InMemoryCache
open Recency

/-- The states in which no iterator dangles. -/
abbrev Sound := { c : InMemoryCache // ∃ s, Refines c s }

theorem sound_get {c c' : InMemoryCache} {key : Bytes} {now : Int} {answer : Option Bytes}
    (sound : ∃ s, Refines c s) (got : c.get key now now = some (answer,c')) : ∃ s, Refines c' s := by
  obtain ⟨s,r⟩ := sound
  obtain ⟨c'',executed,r',_⟩ := refines_get r key now now
  rw [executed,Option.some.injEq,Prod.mk.injEq] at got
  obtain ⟨_,rfl⟩ := got
  exact ⟨_,r'⟩

theorem sound_set {c c' : InMemoryCache} {key value : Bytes} {ttl now : Int} {answer : Bool}
    (sound : ∃ s, Refines c s) (done : c.set key value ttl now = some (answer,c')) : ∃ s, Refines c' s := by
  obtain ⟨s,r⟩ := sound
  obtain ⟨c'',executed,r',_⟩ := refines_set r key value ttl now
  rw [executed,Option.some.injEq,Prod.mk.injEq] at done
  obtain ⟨_,rfl⟩ := done
  exact ⟨_,r'⟩

def Sound.get (c : Sound) (key : Bytes) (now : Int) : Option Bytes × Sound :=
  match got : c.val.get key now now with
  | some (answer,c') => (answer,⟨c',sound_get c.property got⟩)
  | none => (none,c)

def Sound.set (c : Sound) (key value : Bytes) (ttl now : Int) : Sound :=
  match done : c.val.set key value ttl now with
  | some (_,c') => ⟨c',sound_set c.property done⟩
  | none => c

/-- A sound cache is looked up and set as the store that it refines. -/
theorem Sound.get_refines {c : Sound} {s : Store Bytes Bytes Int} (r : Refines c.val s) (key : Bytes) (now : Int) :
    (c.get key now).1 = (read key now now s).1 ∧ Refines (c.get key now).2.val (read key now now s).2 := by
  obtain ⟨c',executed,r',_⟩ := refines_get r key now now
  unfold Sound.get
  split
  · rename_i answer c'' got
    rw [executed,Option.some.injEq,Prod.mk.injEq] at got
    obtain ⟨rfl,rfl⟩ := got
    exact ⟨rfl,r'⟩
  · rename_i refused
    rw [executed] at refused
    cases refused

theorem Sound.set_refines {c : Sound} {s : Store Bytes Bytes Int} (r : Refines c.val s) (key value : Bytes)
    (ttl now : Int) : Refines (c.set key value ttl now).val
      (write c.val.max_size ⟨key,value,expiryOf c.val.default_ttl_seconds ttl now⟩ s) := by
  obtain ⟨c',executed,r',_⟩ := refines_set r key value ttl now
  unfold Sound.set
  split
  · rename_i answer c'' done
    rw [executed,Option.some.injEq,Prod.mk.injEq] at done
    obtain ⟨_,rfl⟩ := done
    exact r'
  · rename_i refused
    rw [executed] at refused
    cases refused

/-- The entry held for a key. -/
def Sound.Holds (c : Sound) (key value : Bytes) : Prop := ∃ entry, c.val.cache.lookup key = some entry ∧ entry.value = value

theorem holds_iff {c : InMemoryCache} {s : Store Bytes Bytes Int} (r : Refines c s) (key value : Bytes) :
    (∃ entry, c.cache.lookup key = some entry ∧ entry.value = value) ↔
      ∃ e ∈ s, e.key = key ∧ e.value = value := by
  constructor
  · rintro ⟨entry,found,rfl⟩
    rw [r.cache,Option.map_eq_some_iff] at found
    obtain ⟨e,looked,rfl⟩ := found
    obtain ⟨member,same⟩ := find_some looked
    exact ⟨e,member,same,rfl⟩
  · rintro ⟨e,member,rfl,rfl⟩
    refine ⟨entryOf e,?_,rfl⟩
    rw [r.cache,find_of_mem r.nodup member]
    rfl

/-- The in-memory cache is a cache. -/
def interface (default_ttl_seconds : Int) (max_size : Nat) : CacheInterface where
  Store := Sound
  empty := ⟨new default_ttl_seconds max_size,[],refines_new default_ttl_seconds max_size⟩
  get := Sound.get
  set := Sound.set
  Holds := Sound.Holds
  holds_empty := by
    rintro k v ⟨entry,found,_⟩
    cases found
  holds_of_get := by
    rintro ⟨c,s,r⟩ k now v returned
    obtain ⟨answer,_⟩ := Sound.get_refines (c := ⟨c,s,r⟩) r k now
    exact (holds_iff r k v).mpr (mem_of_read (answer.symm.trans returned))
  holds_get := by
    rintro ⟨c,s,r⟩ k now k' v' held
    obtain ⟨_,r'⟩ := Sound.get_refines (c := ⟨c,s,r⟩) r k now
    obtain ⟨e,member,same,value⟩ := (holds_iff r' k' v').mp held
    exact (holds_iff r k' v').mpr ⟨e,mem_read member,same,value⟩
  holds_set := by
    rintro ⟨c,s,r⟩ k v ttl now k' v' held
    have r' := Sound.set_refines (c := ⟨c,s,r⟩) r k v ttl now
    obtain ⟨e,member,rfl,rfl⟩ := (holds_iff r' k' v').mp held
    rcases mem_write member with rfl | old
    · exact .inl ⟨rfl,rfl⟩
    · exact .inr ((holds_iff r e.key e.value).mpr ⟨e,old,rfl,rfl⟩)

end InMemoryCache
end Facade
