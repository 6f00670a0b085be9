import Mathlib.Algebra.Ring.Nat
import Mathlib.Data.List.Basic

namespace AlineaCopilot.StatefulPrograms

universe u
variable {σ ε ε' α β : Type u}

-- A program over a state that may stop with an error. What it wrote before the
-- error stays written.
abbrev Program (σ ε α : Type u) := ExceptT ε (StateM σ) α

def perform (program : Program σ ε α) (s : σ) : Except ε α × σ := program.run.run s

@[simp] theorem perform_pure (value : α) (s : σ) : perform (pure value : Program σ ε α) s = (.ok value,s) := rfl

@[simp] theorem perform_throw (error : ε) (s : σ) : perform (throw error : Program σ ε α) s = (.error error,s) := rfl

@[simp] theorem perform_get (s : σ) : perform (get : Program σ ε σ) s = (.ok s,s) := rfl

@[simp] theorem perform_set (s t : σ) : perform (set t : Program σ ε PUnit) s = (.ok ⟨⟩,t) := rfl

@[simp] theorem perform_modify (change : σ → σ) (s : σ) :
    perform (modify change : Program σ ε PUnit) s = (.ok ⟨⟩,change s) := rfl

@[simp] theorem perform_bind (program : Program σ ε α) (next : α → Program σ ε β) (s : σ) :
    perform (program >>= next) s = match perform program s with
      | (.ok value,t) => perform (next value) t
      | (.error error,t) => (.error error,t) := by
  show (ExceptT.run (program >>= next)).run s = _
  rw [ExceptT.run_bind]
  simp only [StateT.run_bind]
  unfold perform
  rcases program.run.run s with ⟨_ | _,_⟩ <;> rfl

def mapError (change : ε → ε') (program : Program σ ε α) : Program σ ε' α := ExceptT.adapt change program

@[simp] theorem perform_mapError (change : ε → ε') (program : Program σ ε α) (s : σ) :
    perform (mapError change program) s = ((perform program s).1.mapError change,(perform program s).2) := by
  unfold perform mapError ExceptT.adapt ExceptT.run
  simp only [ExceptT.mk,StateT.run_map]
  rfl

-- Run for what it does: whether it stopped early is not looked at.
def attempt (program : Program σ ε α) : Program σ ε' PUnit := ExceptT.lift (program.run *> pure ⟨⟩)

@[simp] theorem perform_attempt (program : Program σ ε α) (s : σ) :
    perform (attempt program : Program σ ε' PUnit) s = (.ok ⟨⟩,(perform program s).2) := by
  unfold perform attempt
  simp only [ExceptT.run_lift,StateT.run_map,StateT.run_seqRight]
  rfl

-- A fact about the state that the program keeps, whether it stops early or not.
def Keeps (invariant : σ → Prop) (program : Program σ ε α) : Prop :=
  ∀ s, invariant s → invariant (perform program s).2

-- From this state the program ends without an error, and with this outcome.
def Returns (program : Program σ ε α) (s : σ) (post : α → σ → Prop) : Prop :=
  ∃ value t, perform program s = (.ok value,t) ∧ post value t

section Keeps
variable {invariant : σ → Prop}

theorem Keeps.pure (value : α) : Keeps invariant (pure value : Program σ ε α) := fun _ holds => holds

theorem Keeps.throw (error : ε) : Keeps invariant (throw error : Program σ ε α) := fun _ holds => holds

-- The continuation may use where it starts from: the state the first program
-- ended in and the value it returned there.
theorem Keeps.bind_at {program : Program σ ε α} {next : α → Program σ ε β} (first : Keeps invariant program)
    (later : ∀ s value t, invariant s → perform program s = (.ok value,t) → invariant t →
      invariant (perform (next value) t).2) : Keeps invariant (program >>= next) := by
  intro s holds
  have middle := first s holds
  rw [perform_bind]
  cases outcome : perform program s with
  | mk result t =>
    rw [outcome] at middle
    cases result with
    | error error => exact middle
    | ok value => exact later s value t holds outcome middle

theorem Keeps.bind {program : Program σ ε α} {next : α → Program σ ε β} (first : Keeps invariant program)
    (later : ∀ value, Keeps invariant (next value)) : Keeps invariant (program >>= next) :=
  first.bind_at fun _ value t _ _ holds => later value t holds

theorem Keeps.read {next : σ → Program σ ε β} (later : ∀ s, invariant s → invariant (perform (next s) s).2) :
    Keeps invariant (get >>= next) := by
  intro s holds
  rw [perform_bind,perform_get]
  exact later s holds

theorem Keeps.forM {body : α → Program σ ε PUnit} {items : List α} (each : ∀ item ∈ items, Keeps invariant (body item)) :
    Keeps invariant (items.forM body) := by
  induction items with
  | nil => exact Keeps.pure _
  | cons item rest ih =>
    change Keeps invariant (body item >>= fun _ => rest.forM body)
    exact (each item List.mem_cons_self).bind fun _ => ih fun other member => each other (List.mem_cons_of_mem _ member)

theorem Keeps.mapM {body : α → Program σ ε β} {items : List α} (each : ∀ item ∈ items, Keeps invariant (body item)) :
    Keeps invariant (items.mapM body) := by
  induction items with
  | nil => exact Keeps.pure _
  | cons item rest ih =>
    rw [List.mapM_cons]
    refine (each item List.mem_cons_self).bind fun _ => ?_
    exact (ih fun other member => each other (List.mem_cons_of_mem _ member)).bind fun _ => Keeps.pure _

theorem Keeps.mapError {change : ε → ε'} {program : Program σ ε α} (keeps : Keeps invariant program) :
    Keeps invariant (mapError change program) := by
  intro s holds
  rw [perform_mapError]
  exact keeps s holds

end Keeps

theorem Returns.mono {program : Program σ ε α} {post weaker : α → σ → Prop} (returns : Returns program s post)
    (implies : ∀ value t, post value t → weaker value t) : Returns program s weaker := by
  obtain ⟨value,t,outcome,holds⟩ := returns
  exact ⟨value,t,outcome,implies value t holds⟩

theorem Returns.bind {program : Program σ ε α} {next : α → Program σ ε β} {middle : α → σ → Prop} {post : β → σ → Prop}
    (first : Returns program s middle) (later : ∀ value t, middle value t → Returns (next value) t post) :
    Returns (program >>= next) s post := by
  obtain ⟨value,t,outcome,holds⟩ := first
  obtain ⟨result,final,ended,shown⟩ := later value t holds
  exact ⟨result,final,by rw [perform_bind,outcome]; exact ended,shown⟩

-- A loop is read off the items it has passed: the invariant names them.
theorem Returns.forM {body : α → Program σ ε PUnit} {invariant : List α → σ → Prop} (items : List α)
    (start : invariant [] s)
    (each : ∀ earlier item rest t, items = earlier ++ item :: rest → invariant earlier t →
      Returns (body item) t fun _ next => invariant (earlier ++ [item]) next) :
    Returns (items.forM body) s fun _ t => invariant items t := by
  suffices ∀ rest earlier t, items = earlier ++ rest → invariant earlier t →
      Returns (rest.forM body) t fun _ next => invariant items next from this items [] s rfl start
  intro rest
  induction rest with
  | nil =>
    intro earlier t whole holds
    rw [List.append_nil] at whole
    exact ⟨_,t,rfl,whole ▸ holds⟩
  | cons item rest ih =>
    intro earlier t whole holds
    change Returns (body item >>= fun _ => rest.forM body) t _
    refine (each earlier item rest t whole holds).bind fun _ next shown => ?_
    exact ih (earlier ++ [item]) next (by rw [whole,List.append_assoc]; rfl) shown

end AlineaCopilot.StatefulPrograms
