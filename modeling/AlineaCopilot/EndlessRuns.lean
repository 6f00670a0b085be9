import Mathlib.Data.Nat.Init
import Mathlib.Logic.Basic

namespace AlineaCopilot.EndlessRuns

variable {σ α : Type} {step : σ → α → Option σ} {states : Nat → σ} {actions : Nat → α}

-- A run that never ends, its states and what leads from one to the next.
def Endless (step : σ → α → Option σ) (states : Nat → σ) (actions : Nat → α) : Prop :=
  ∀ n, step (states n) (actions n) = some (states (n + 1))

-- From some point on.
def Finally (p : Nat → Prop) (start : Nat) : Prop := ∃ n, start ≤ n ∧ ∀ m, n ≤ m → p m

theorem Finally.later {p : Nat → Prop} {start next : Nat} (finally_ : Finally p next) (above : start ≤ next) : Finally p start := by
  obtain ⟨n,reached,holds⟩ := finally_
  exact ⟨n,Nat.le_trans above reached,holds⟩

theorem falls_below {rank : σ → Nat} {start : Nat} (keeps : ∀ n, start ≤ n → rank (states (n + 1)) ≤ rank (states n)) {n : Nat} (later : start ≤ n) :
    rank (states n) ≤ rank (states start) := by
  induction n, later using Nat.le_induction with
  | base => exact Nat.le_refl _
  | succ n later ih => exact Nat.le_trans (keeps n later) ih

-- What lowers a rank that nothing raises happens finitely often.
theorem finally_not {rank : σ → Nat} {bad : α → Prop} {start : Nat}
    (keeps : ∀ n, start ≤ n → rank (states (n + 1)) ≤ rank (states n))
    (falls : ∀ n, start ≤ n → bad (actions n) → rank (states (n + 1)) < rank (states n)) :
    Finally (fun n => ¬bad (actions n)) start := by
  generalize high : rank (states start) = height
  induction height using Nat.strongRecOn generalizing start with
  | _ height ih =>
    by_cases quiet : ∀ n, start ≤ n → ¬bad (actions n)
    · exact ⟨start,Nat.le_refl _,quiet⟩
    · obtain ⟨n,later,happens⟩ : ∃ n, start ≤ n ∧ bad (actions n) := by
        simpa only [not_forall,not_not,exists_prop] using quiet
      have above : start ≤ n + 1 := Nat.le_succ_of_le later
      have lower : rank (states (n + 1)) < height := high ▸ Nat.lt_of_lt_of_le (falls n later happens) (falls_below keeps later)
      refine (ih _ lower (fun m reached => keeps m (Nat.le_trans above reached)) (fun m reached => falls m (Nat.le_trans above reached)) rfl).later above

end AlineaCopilot.EndlessRuns
