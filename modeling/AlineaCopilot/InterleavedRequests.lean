import Mathlib.Logic.Function.Basic
import AlineaCopilot.TransitionRuns
open AlineaCopilot.TransitionRuns

namespace AlineaCopilot.InterleavedRequests

universe u v w
variable {σ : Type u} {π : Type v} {ι : Type w} {advance : σ → π → ι → Option (σ × π)}

-- Requests that share a store. Each stands somewhere in its own code; one step
-- takes one of them past its next call, whatever the others do meanwhile.
structure System (σ : Type u) (π : Type v) where
  store : σ
  threads : Nat → π

def System.goes (system : System σ π) (n : Nat) (store : σ) (thread : π) : System σ π :=
  ⟨store,Function.update system.threads n thread⟩

def step (advance : σ → π → ι → Option (σ × π)) (system : System σ π) (action : Nat × ι) : Option (System σ π) :=
  (advance system.store (system.threads action.1) action.2).map fun next => system.goes action.1 next.1 next.2

@[simp] theorem goes_store (system : System σ π) (n : Nat) (store : σ) (thread : π) :
    (system.goes n store thread).store = store := rfl

@[simp] theorem goes_same (system : System σ π) (n : Nat) (store : σ) (thread : π) :
    (system.goes n store thread).threads n = thread := Function.update_self ..

theorem goes_other {system : System σ π} {n m : Nat} {store : σ} {thread : π} (other : m ≠ n) :
    (system.goes n store thread).threads m = system.threads m := Function.update_of_ne other ..

theorem step_some {system next : System σ π} (taken : step advance system (n,input) = some next) :
    ∃ store thread, advance system.store (system.threads n) input = some (store,thread) ∧ next = system.goes n store thread := by
  obtain ⟨⟨store,thread⟩,moved,rfl⟩ := Option.map_eq_some_iff.mp taken
  exact ⟨store,thread,moved,rfl⟩

-- What holds of the store, and of every request against the store.
structure Sound (good : σ → Prop) (fits : σ → π → Prop) (system : System σ π) : Prop where
  good : good system.store
  fits : ∀ n, fits system.store (system.threads n)

-- A step keeps the store good and its own request fitting, and leaves no other
-- request behind.
theorem Sound.step {good : σ → Prop} {fits : σ → π → Prop} {system next : System σ π} (sound : Sound good fits system)
    (taken : step advance system (n,input) = some next)
    (own : ∀ store thread, advance system.store (system.threads n) input = some (store,thread) →
      good store ∧ fits store thread)
    (others : ∀ store thread m, advance system.store (system.threads n) input = some (store,thread) → m ≠ n →
      fits store (system.threads m)) : Sound good fits next := by
  obtain ⟨store,thread,moved,rfl⟩ := step_some taken
  refine ⟨(own store thread moved).1,fun m => ?_⟩
  by_cases same : m = n
  · subst same
    rw [goes_store,goes_same]
    exact (own store thread moved).2
  · rw [goes_store,goes_other same]
    exact others store thread m moved same

end AlineaCopilot.InterleavedRequests
