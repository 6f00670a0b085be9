import Mathlib.Data.List.Infix

namespace AlineaCopilot.TransitionRuns

universe u v
variable {σ : Type u} {α : Type v} {step : σ → α → Option σ} {ok : σ → α → Prop}

-- Finite runs of a machine whose transition is a partial function: `none` is an
-- action that is not enabled. The newest action stands last, so an induction on
-- a run sees the state before and after one more action.
inductive Runs (step : σ → α → Option σ) : σ → List α → σ → Prop where
  | nil : Runs step s [] s
  | snoc : Runs step origin earlier middle → step middle action = some after →
      Runs step origin (earlier ++ [action]) after

-- Runs every step of which meets a condition on the state before it.
inductive RunsWhere (step : σ → α → Option σ) (ok : σ → α → Prop) : σ → List α → σ → Prop where
  | nil : RunsWhere step ok s [] s
  | snoc : RunsWhere step ok origin earlier middle → ok middle action →
      step middle action = some after → RunsWhere step ok origin (earlier ++ [action]) after

def exec (step : σ → α → Option σ) : σ → List α → Option σ
  | s,[] => some s
  | s,action :: rest => (step s action).bind (exec step · rest)

theorem Runs.append (left : Runs step origin earlier middle) (right : Runs step middle later after) :
    Runs step origin (earlier ++ later) after := by
  induction right with
  | nil => simpa using left
  | snoc prior enabled ih => simpa only [List.append_assoc] using Runs.snoc ih enabled

theorem Runs.single (enabled : step s action = some next) : Runs step s [action] next := by
  simpa using Runs.snoc (.nil (s := s)) enabled

theorem Runs.nil_inv (path : Runs step s [] next) : next = s := by
  generalize empty : ([] : List α) = actions at path
  cases path with
  | nil => rfl
  | snoc prior enabled => simp at empty

theorem Runs.snoc_inv (path : Runs step s (earlier ++ [action]) next) :
    ∃ middle, Runs step s earlier middle ∧ step middle action = some next := by
  generalize whole : earlier ++ [action] = actions at path
  cases path with
  | nil => simp at whole
  | snoc prior enabled =>
    obtain ⟨rfl,same⟩ := List.append_inj' whole rfl
    cases same
    exact ⟨_,prior,enabled⟩

theorem exec_snoc : exec step s (earlier ++ [action]) = (exec step s earlier).bind (step · action) := by
  induction earlier generalizing s with
  | nil => cases enabled : step s action <;> simp [exec,enabled]
  | cons head rest ih => cases enabled : step s head <;> simp [exec,enabled,ih]

theorem exec_exact : exec step s actions = some next ↔ Runs step s actions next := by
  induction actions using List.reverseRecOn generalizing next with
  | nil =>
    simp only [exec,Option.some.injEq]
    exact ⟨fun equal => equal ▸ .nil,fun path => path.nil_inv.symm⟩
  | append_singleton earlier action ih =>
    rw [exec_snoc,Option.bind_eq_some_iff]
    constructor
    · rintro ⟨middle,prior,enabled⟩
      exact .snoc (ih.mp prior) enabled
    · intro path
      obtain ⟨middle,prior,enabled⟩ := path.snoc_inv
      exact ⟨middle,ih.mpr prior,enabled⟩

theorem Runs.deterministic (one : Runs step s actions next) (two : Runs step s actions other) :
    next = other :=
  Option.some.inj ((exec_exact.mpr one).symm.trans (exec_exact.mpr two))

theorem RunsWhere.runs (path : RunsWhere step ok origin actions after) : Runs step origin actions after := by
  induction path with
  | nil => exact .nil
  | snoc prior allowed enabled ih => exact .snoc ih enabled

theorem RunsWhere.append (left : RunsWhere step ok origin earlier middle) (right : RunsWhere step ok middle later after) :
    RunsWhere step ok origin (earlier ++ later) after := by
  induction right with
  | nil => simpa using left
  | snoc prior allowed enabled ih => simpa only [List.append_assoc] using RunsWhere.snoc ih allowed enabled

theorem RunsWhere.cons (allowed : ok s action) (enabled : step s action = some middle)
    (rest : RunsWhere step ok middle later after) : RunsWhere step ok s (action :: later) after := by
  simpa using (RunsWhere.snoc .nil allowed enabled).append rest

theorem RunsWhere.of_runs (path : Runs step origin actions after) (allowed : ∀ s, ∀ action ∈ actions, ok s action) :
    RunsWhere step ok origin actions after := by
  induction path with
  | nil => exact .nil
  | snoc prior enabled ih =>
    refine .snoc (ih fun s action inside => allowed s action (List.mem_append_left _ inside)) ?_ enabled
    exact allowed _ _ (List.mem_append_right _ List.mem_cons_self)

theorem RunsWhere.and_actions {good : α → Prop} (path : RunsWhere step ok origin actions after)
    (each : ∀ action ∈ actions, good action) : RunsWhere step (fun s action => ok s action ∧ good action) origin actions after := by
  induction path with
  | nil => exact .nil
  | snoc prior allowed enabled ih =>
    refine .snoc (ih fun action inside => each action (List.mem_append_left _ inside)) ⟨allowed,?_⟩ enabled
    exact each _ (List.mem_append_right _ List.mem_cons_self)

-- From any point on its way a run goes on to its end.
theorem Runs.later (path : Runs step origin actions after) (inside : earlier <+: actions)
    (prior : Runs step origin earlier between) : ∃ rest, Runs step between rest after := by
  induction path with
  | nil =>
    cases List.prefix_nil.mp inside
    cases prior.nil_inv
    exact ⟨[],.nil⟩
  | @snoc before middle last after path enabled ih =>
    rcases List.prefix_concat_iff.mp inside with rfl | shorter
    · cases prior.deterministic (path.snoc enabled)
      exact ⟨[],.nil⟩
    · obtain ⟨rest,onward⟩ := ih shorter
      exact ⟨rest ++ [last],onward.snoc enabled⟩

-- What a run allows, it allows at each of its steps.
theorem RunsWhere.at_step (path : RunsWhere step ok origin actions after) (inside : earlier ++ [action] <+: actions)
    (prior : Runs step origin earlier between) : ok between action := by
  induction path with
  | nil => exact absurd (List.prefix_nil.mp inside) (by simp)
  | @snoc before middle last after path allowed enabled ih =>
    rcases List.prefix_concat_iff.mp inside with equal | shorter
    · obtain ⟨rfl,same⟩ := List.append_inj' equal rfl
      cases List.singleton_inj.mp same
      rwa [prior.deterministic path.runs]
    · exact ih shorter

-- A point on the way of a run splits it, conditions included.
theorem RunsWhere.later (path : RunsWhere step ok origin actions after) (inside : earlier <+: actions)
    (prior : Runs step origin earlier between) :
    RunsWhere step ok origin earlier between ∧ ∃ rest, actions = earlier ++ rest ∧ RunsWhere step ok between rest after := by
  induction path with
  | nil =>
    cases List.prefix_nil.mp inside
    cases prior.nil_inv
    exact ⟨.nil,[],rfl,.nil⟩
  | @snoc before middle last after path allowed enabled ih =>
    rcases List.prefix_concat_iff.mp inside with rfl | shorter
    · cases prior.deterministic (path.runs.snoc enabled)
      exact ⟨path.snoc allowed enabled,[],by simp,.nil⟩
    · obtain ⟨early,rest,rfl,onward⟩ := ih shorter
      exact ⟨early,rest ++ [last],by simp,onward.snoc allowed enabled⟩

theorem RunsWhere.reaches (path : RunsWhere step ok origin actions after) (inside : earlier <+: actions) :
    ∃ between, Runs step origin earlier between := by
  induction path with
  | nil =>
    cases List.prefix_nil.mp inside
    exact ⟨_,.nil⟩
  | snoc path allowed enabled ih =>
    rcases List.prefix_concat_iff.mp inside with rfl | shorter
    · exact ⟨_,path.runs.snoc enabled⟩
    · exact ih shorter

theorem Runs.invariant {invariant : σ → Prop} (start : invariant origin)
    (keeps : ∀ s action next, invariant s → step s action = some next → invariant next)
    (path : Runs step origin actions after) : invariant after := by
  induction path with
  | nil => exact start
  | snoc prior enabled ih => exact keeps _ _ _ ih enabled

theorem RunsWhere.invariant {invariant : σ → Prop} (start : invariant origin)
    (keeps : ∀ s action next, invariant s → ok s action → step s action = some next → invariant next)
    (path : RunsWhere step ok origin actions after) : invariant after := by
  induction path with
  | nil => exact start
  | snoc prior allowed enabled ih => exact keeps _ _ _ ih allowed enabled

-- Where the condition can be decided, such a run can be tried out.
def execWhere (step : σ → α → Option σ) (ok : σ → α → Prop) [∀ s action, Decidable (ok s action)] : σ → List α → Option σ
  | s,[] => some s
  | s,action :: rest => if ok s action then (step s action).bind (execWhere step ok · rest) else none

theorem execWhere_sound [∀ s action, Decidable (ok s action)] (ran : execWhere step ok s actions = some next) :
    RunsWhere step ok s actions next := by
  induction actions generalizing s with
  | nil =>
    cases ran
    exact .nil
  | cons action rest ih =>
    obtain ⟨allowed,ran⟩ := Option.ite_none_right_eq_some.mp ran
    obtain ⟨middle,enabled,onward⟩ := Option.bind_eq_some_iff.mp ran
    exact .cons allowed enabled (ih onward)

-- A property that every allowed step keeps and every other step breaks holds at
-- every point of a run exactly when the run takes allowed steps only. `sound`
-- is what every step keeps and the exchange may rest on.
theorem Runs.always_exact {sound holds : σ → Prop} (sound_start : sound origin) (start : holds origin)
    (keeps : ∀ s action next, sound s → step s action = some next → sound next)
    (exact : ∀ s action next, sound s → holds s → step s action = some next → (holds next ↔ ok s action))
    (path : Runs step origin actions after) :
    (∀ earlier between, earlier <+: actions → Runs step origin earlier between → holds between) ↔
      RunsWhere step ok origin actions after := by
  induction path with
  | nil =>
    refine ⟨fun _ => .nil,fun _ earlier between inside prior => ?_⟩
    cases List.prefix_nil.mp inside
    cases prior.nil_inv
    exact start
  | @snoc earlier middle action after prior enabled ih =>
    have sound_middle := prior.invariant sound_start keeps
    constructor
    · intro always
      have before := ih.mp fun first between inside =>
        always first between (inside.trans (List.prefix_append _ _))
      have here := always earlier middle (List.prefix_append _ _) prior
      have there := always _ after (List.prefix_refl _) (.snoc prior enabled)
      exact .snoc before ((exact _ _ _ sound_middle here enabled).mp there) enabled
    · intro allowed first between inside reached
      generalize whole : earlier ++ [action] = actions at allowed
      cases allowed with
      | nil => simp at whole
      | snoc before permitted taken =>
        obtain ⟨rfl,same⟩ := List.append_inj' whole rfl
        cases same
        cases prior.deterministic before.runs
        have always := ih.mpr before
        rcases List.prefix_concat_iff.mp inside with rfl | shorter
        · obtain ⟨last,early,late⟩ := reached.snoc_inv
          cases prior.deterministic early
          exact (exact _ _ _ sound_middle (always earlier middle (List.prefix_refl _) prior) late).mpr permitted
        · exact always first between shorter reached

end AlineaCopilot.TransitionRuns
