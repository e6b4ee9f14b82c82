import Facade.InMemoryCache

/-!
What `InMemoryCache::get` returns, in terms of the calls made before it. The
record of a run (`history`) tells for a key which value was last set and not
removed since, when it expires, and which other keys were set or successfully
got since the key was (`Recency.lastWrite`, `Recency.touchedSince`).
-/
namespace Facade.InMemoryCache
open Strings Recency

/-- The writes, hits and removals on the record of a run. -/
def history (default_ttl_seconds : Int) (log : List (Call × Answer)) : List (Event Bytes Bytes Int) :=
  log.flatMap (observe default_ttl_seconds)

theorem readings_opOf (default_ttl_seconds : Int) (call : Call) :
    ∀ t ∈ (opOf default_ttl_seconds call).readings, t ∈ call.readings := by
  cases call <;> simp [opOf,Op.readings,Call.readings]

/-- A `get` with the clock not behind any earlier reading returns a value
    exactly as the history says: only the value last set, unexpired and not
    removed (soundness), and that value whenever fewer than `max_size` other
    keys were used since the key was (retention). -/
theorem get_by_history (default_ttl_seconds : Int) (max_size : Nat) (calls : List Call) (key : Bytes)
    (swept checked : Int) (ordered : (calls.flatMap Call.readings ++ [swept,checked]).Pairwise (· ≤ ·)) :
    ∃ c log answer c', Runs.exec step (new default_ttl_seconds max_size) calls = some (c,log) ∧
      c.get key swept checked = some (answer,c') ∧
      (∀ v, answer = some v →
        ∃ t, lastWrite key (history default_ttl_seconds log) = some (v,t) ∧ checked < t) ∧
      (∀ v t, lastWrite key (history default_ttl_seconds log) = some (v,t) → checked < t →
        (touchedSince key (history default_ttl_seconds log)).card < max_size → answer = some v) := by
  obtain ⟨c,log,run,_⟩ := run_total default_ttl_seconds max_size calls
  obtain ⟨size,_,s,r,abstract⟩ := run_refines run
  obtain ⟨c',executed,_⟩ := refines_get r key swept checked
  obtain ⟨_,last,earlier⟩ := List.pairwise_append.mp ordered
  have order : swept ≤ checked := by simpa using last
  have past : ∀ op ∈ calls.map (opOf default_ttl_seconds), ∀ t ∈ op.readings, t ≤ checked := by
    intro op member t inside
    obtain ⟨call,called,rfl⟩ := List.mem_map.mp member
    exact earlier t (List.mem_flatMap.mpr ⟨call,called,readings_opOf _ call t inside⟩) checked (by simp)
  have tracks := tracks_run abstract past
  refine ⟨c,log,(read key swept checked s).1,c',run.exec,executed,?_,?_⟩
  · intro v returned
    exact read_sound tracks returned
  · intro v t written live few
    exact read_retained tracks order le_rfl written live few

/-- With room for two keys: `a` is set, then `b`; a hit on `a` refreshes it, so
    that `c` evicts `b` and not `a`. -/
def refreshed : List Call :=
  [.set (lit "a") (lit "1") 60 0,.set (lit "b") (lit "2") 60 1,.get (lit "a") 2 2,.set (lit "c") (lit "3") 60 3]

theorem get_by_history_refreshed : ∃ c log answer c', Runs.exec step (new 3600 2) refreshed = some (c,log) ∧
    c.get (lit "a") 4 4 = some (answer,c') ∧ answer = some (lit "1") := by
  obtain ⟨c,log,answer,c',executed,got,_,retained⟩ := get_by_history 3600 2 refreshed (lit "a") 4 4 (by decide)
  have logIs : log = ((Runs.exec step (new 3600 2) refreshed).map Prod.snd).getD [] := by rw [executed]; rfl
  have written : lastWrite (lit "a") (history 3600 log) = some (lit "1",60000000000) := by rw [logIs]; decide
  have few : (touchedSince (lit "a") (history 3600 log)).card < 2 := by rw [logIs]; decide
  exact ⟨c,log,answer,c',executed,got,retained _ _ written (by decide) few⟩

end Facade.InMemoryCache
