import Facade.InMemoryCache

/-!
Which entries `InMemoryCache::set` evicts. It makes room by recency alone and,
unlike `get` and `exists`, without taking the expired entries out first, so an
unexpired entry may have to leave while expired ones stay (`Crowded`). Nothing
else makes it evict an unexpired entry early (`set_spares_unexpired_iff`).
-/
namespace Facade.InMemoryCache
open Strings Recency

/-- The keys held whose entries have not expired. -/
def unexpired (c : InMemoryCache) (now : Int) : List Bytes :=
  c.cache.keys.filter fun k => (c.cache.lookup k).any fun entry => now < entry.expiry

/-- Setting the key evicts an unexpired entry only while `max_size_` unexpired
    ones are held, and calling `exists` for any key before it changes nothing
    about which unexpired keys stay. -/
structure SparesUnexpired (c : InMemoryCache) (key value : Bytes) (ttl now : Int) : Prop where
  evicts : ∃ c', c.set key value ttl now = some (true,c') ∧
    ∀ k ∈ unexpired c now, k ∉ c'.cache → (unexpired c now).length = c.max_size
  neutral : ∀ probe swept checked, swept ≤ now →
    ∃ c' answer purged c'', c.set key value ttl now = some (true,c') ∧
      c.exists_ probe swept checked = some (answer,purged) ∧ purged.set key value ttl now = some (true,c'') ∧
      ∀ k ∈ unexpired c now, k ∈ c''.cache ↔ k ∈ c'.cache

/-- The cache is full, its least recently used entry has not expired, and some
    other entry has. -/
def Crowded (c : InMemoryCache) (now : Int) : Prop :=
  c.max_size ≤ c.lru_map.keys.length ∧ (∃ oldest, c.lru_list.getLast? = some oldest ∧ oldest.key ∈ unexpired c now) ∧
    ∃ k ∈ c.cache, k ∉ unexpired c now

section
variable {c : InMemoryCache} {s : Store Bytes Bytes Int}

theorem Refines.mem_unexpired (r : Refines c s) (now : Int) {k : Bytes} :
    k ∈ unexpired c now ↔ ∃ e ∈ s, e.key = k ∧ now < e.expiry := by
  rw [unexpired,List.mem_filter,← AList.mem_keys,r.mem_cache,Recency.mem_keys]
  constructor
  · rintro ⟨⟨e,held,rfl⟩,alive⟩
    rw [r.cache,find_of_mem r.nodup held] at alive
    exact ⟨e,held,rfl,by simpa [entryOf] using alive⟩
  · rintro ⟨e,held,rfl,alive⟩
    refine ⟨⟨e,held,rfl⟩,?_⟩
    rw [r.cache,find_of_mem r.nodup held]
    simpa [entryOf] using alive

/-- As many keys are unexpired as a sweep of the store would leave. -/
theorem Refines.length_unexpired (r : Refines c s) (now : Int) : (unexpired c now).length = (sweep now s).length := by
  have distinct : (unexpired c now).Nodup := c.cache.keys_nodup.filter _
  have distinct' : (keys (sweep now s)).Nodup := (keys_sublist (sweep_sublist now s)).nodup r.nodup
  have perm : (unexpired c now).Perm (keys (sweep now s)) := by
    refine (List.perm_ext_iff_of_nodup distinct distinct').mpr ?_
    intro k
    rw [r.mem_unexpired,Recency.mem_keys]
    simp only [mem_sweep]
    constructor
    · rintro ⟨e,held,same,alive⟩
      exact ⟨e,⟨held,alive⟩,same⟩
    · rintro ⟨e,⟨held,alive⟩,same⟩
      exact ⟨e,held,same,alive⟩
  simpa [keys] using perm.length_eq

theorem Refines.crowded_iff (r : Refines c s) (fits : s.length ≤ c.max_size) (now : Int) :
    Crowded c now ↔ Recency.Crowded c.max_size now s := by
  have full : c.max_size ≤ c.lru_map.keys.length ↔ s.length = c.max_size := by
    rw [length_keys r.nodup r.mem_lru_map]
    omega
  have last : (∃ oldest, c.lru_list.getLast? = some oldest ∧ oldest.key ∈ unexpired c now) ↔
      ∃ e, s.getLast? = some e ∧ now < e.expiry := by
    have sameLast : c.lru_list.getLast?.map Node.key = s.getLast?.map Entry.key := by
      rw [← List.getLast?_map,← List.getLast?_map,r.list]
      rfl
    constructor
    · rintro ⟨oldest,atEnd,alive⟩
      obtain ⟨e,atEnd',same⟩ : ∃ e, s.getLast? = some e ∧ e.key = oldest.key := by
        rw [atEnd] at sameLast
        exact Option.map_eq_some_iff.mp sameLast.symm
      obtain ⟨f,held,same',alive'⟩ := (r.mem_unexpired now).mp alive
      rw [List.inj_on_of_nodup_map r.nodup held (List.mem_of_getLast? atEnd') (same'.trans same.symm)] at alive'
      exact ⟨e,atEnd',alive'⟩
    · rintro ⟨e,atEnd,alive⟩
      rw [atEnd] at sameLast
      obtain ⟨oldest,atEnd',same⟩ := Option.map_eq_some_iff.mp sameLast
      exact ⟨oldest,atEnd',(r.mem_unexpired now).mpr ⟨e,List.mem_of_getLast? atEnd,same.symm,alive⟩⟩
  have ended : (∃ k ∈ c.cache, k ∉ unexpired c now) ↔ ∃ e ∈ s, e.expiry ≤ now := by
    constructor
    · rintro ⟨k,held,dead⟩
      obtain ⟨e,inside,same⟩ := Recency.mem_keys.mp ((r.mem_cache k).mp held)
      exact ⟨e,inside,le_of_not_gt fun alive => dead ((r.mem_unexpired now).mpr ⟨e,inside,same,alive⟩)⟩
    · rintro ⟨e,inside,old⟩
      refine ⟨e.key,(r.mem_cache e.key).mpr (Recency.mem_keys.mpr ⟨e,inside,rfl⟩),?_⟩
      intro alive
      obtain ⟨f,there,same,alive'⟩ := (r.mem_unexpired now).mp alive
      rw [List.inj_on_of_nodup_map r.nodup there inside same] at alive'
      exact absurd alive' (not_lt_of_ge old)
  rw [Crowded,full,last,ended]
  rfl

/-- Whether a `set` of a new key spares the unexpired entries, in the store's terms. -/
theorem Refines.spares_iff (r : Refines c s) (fits : s.length ≤ c.max_size) (positive : 1 ≤ c.max_size) {key : Bytes}
    (absent : key ∉ keys s) (value : Bytes) (ttl now : Int) :
    SparesUnexpired c key value ttl now ↔ ¬ Recency.Crowded c.max_size now s := by
  obtain ⟨c',written,r',_⟩ := refines_set r key value ttl now
  have fair := displaces_fairly_iff (w := ⟨key,value,expiryOf c.default_ttl_seconds ttl now⟩) now r.nodup fits positive absent
  have sweeping := sweep_write_iff (w := ⟨key,value,expiryOf c.default_ttl_seconds ttl now⟩) now r.nodup fits positive absent
  constructor
  · intro spares
    refine fair.mp ?_
    intro e held alive gone
    obtain ⟨c₁,written₁,only⟩ := spares.evicts
    rw [written,Option.some.injEq,Prod.mk.injEq] at written₁
    obtain ⟨_,rfl⟩ := written₁
    rw [← r.length_unexpired]
    refine only e.key ((r.mem_unexpired now).mpr ⟨e,held,rfl,alive⟩) ?_
    rwa [r'.mem_cache]
  · intro calm
    refine ⟨⟨c',written,?_⟩,?_⟩
    · intro k alive gone
      obtain ⟨e,held,rfl,later⟩ := (r.mem_unexpired now).mp alive
      rw [r'.mem_cache] at gone
      rw [r.length_unexpired]
      exact fair.mpr calm e held later gone
    · intro probe swept checked past
      obtain ⟨purged,answered,swept',size,ttl'⟩ := refines_exists r probe swept checked
      obtain ⟨c'',written',r'',_⟩ := refines_set swept' key value ttl now
      refine ⟨c',_,purged,c'',written,answered,written',?_⟩
      intro k alive
      obtain ⟨e,held,rfl,later⟩ := (r.mem_unexpired now).mp alive
      rw [r'.mem_cache,r''.mem_cache,size,ttl']
      exact sweeping.mpr calm swept past e held later

end

/-- In every reachable state, a `set` of a key not held spares the unexpired
    entries exactly when the cache is not crowded. -/
theorem set_spares_unexpired_iff {default_ttl_seconds : Int} {max_size : Nat} (positive : 1 ≤ max_size)
    {calls : List Call} {c : InMemoryCache} {log : List (Call × Answer)}
    (run : Runs.Run step (new default_ttl_seconds max_size) calls c log) {key : Bytes} (absent : key ∉ c.cache)
    (value : Bytes) (ttl now : Int) : SparesUnexpired c key value ttl now ↔ ¬ Crowded c now := by
  obtain ⟨size,_,s,r,abstract⟩ := run_refines run
  have fits : s.length ≤ c.max_size := by
    have bound := length_run abstract
    omega
  rw [r.crowded_iff fits]
  exact r.spares_iff fits (by omega) (fun member => absent ((r.mem_cache key).mpr member)) value ttl now

/-- Room for two keys, both set for an hour: a third key evicts one of two
    unexpired entries, and no entry has expired. -/
def lasting : List Call := [.set (lit "a") (lit "1") 3600 0,.set (lit "b") (lit "2") 3600 0]

theorem set_spares_unexpired_iff_lasting : ∃ c log, Runs.exec step (new 3600 2) lasting = some (c,log) ∧
    SparesUnexpired c (lit "c") (lit "3") 60 2000000000 := by
  have run : Runs.Run step (new 3600 2) lasting _ _ := Runs.Run.of_exec rfl
  refine ⟨_,_,run.exec,?_⟩
  refine (set_spares_unexpired_iff (by decide : 1 ≤ 2) run (by decide) _ _ _).mpr ?_
  rintro ⟨_,_,k,held,ended⟩
  have all : ∀ k ∈ [lit "b",lit "a"], k ∈ unexpired ((Runs.exec step (new 3600 2) lasting).getD (new 0 0,[])).1 2000000000 := by
    decide
  exact ended (all k (AList.mem_keys.mp held))

/-- Room for two keys: `a` is set for an hour, then `b` for a second. -/
def outlived : List Call := [.set (lit "a") (lit "1") 3600 0,.set (lit "b") (lit "2") 1 0]

/-- Two seconds later `c` evicts `a`, though `b` has expired and only one entry
    has not; after `exists`, `a` stays. -/
theorem unexpired_evicted : ∃ c log c' answer purged c'', Runs.exec step (new 3600 2) outlived = some (c,log) ∧
    c.set (lit "c") (lit "3") 60 2000000000 = some (true,c') ∧
    c.exists_ (lit "c") 2000000000 2000000000 = some (answer,purged) ∧
    purged.set (lit "c") (lit "3") 60 2000000000 = some (true,c'') ∧
    lit "c" ∉ c.cache ∧ unexpired c 2000000000 = [lit "a"] ∧ c.max_size = 2 ∧ lit "a" ∉ c'.cache ∧
    lit "a" ∈ c''.cache ∧ ¬ SparesUnexpired c (lit "c") (lit "3") 60 2000000000 := by
  refine ⟨_,_,_,_,_,_,rfl,rfl,rfl,rfl,by decide,by decide,rfl,by decide,by decide,?_⟩
  intro spares
  obtain ⟨c',written,only⟩ := spares.evicts
  cases written
  exact absurd (only (lit "a") (by decide) (by decide)) (by decide)

end Facade.InMemoryCache
