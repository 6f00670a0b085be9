import Mathlib.Data.List.Induction

namespace AlineaCopilot.Reassembly

variable {n k last : Nat} {arrived arrivals earlier block : List Nat}

-- Something that comes in the parts 0, …, n - 1: how often it has been whole, and
-- what has arrived since.
structure Collected where
  rounds : Nat
  pending : List Nat

def whole (n : Nat) (arrived : List Nat) : Bool := (List.range n).all fun i => arrived.contains i

def arrive (n : Nat) (c : Collected) (i : Nat) : Collected :=
  if whole n (i :: c.pending) then ⟨c.rounds + 1,[]⟩ else ⟨c.rounds,i :: c.pending⟩

def collect (n : Nat) (arrivals : List Nat) : Collected := arrivals.foldl (arrive n) ⟨0,[]⟩

-- Every part has arrived, the last to arrive for the first time.
def Round (n : Nat) (arrivals : List Nat) : Prop :=
  ∃ earlier last, arrivals = earlier ++ [last] ∧ last ∉ earlier ∧ ∀ i < n, i ∈ arrivals

inductive Rounds (n : Nat) : Nat → List Nat → Prop where
  | nil : Rounds n 0 []
  | snoc {k : Nat} {earlier block : List Nat} : Rounds n k earlier → Round n block → Rounds n (k + 1) (earlier ++ block)

theorem whole_iff : whole n arrived = true ↔ ∀ i < n, i ∈ arrived := by
  rw [whole,List.all_eq_true]
  simp only [List.mem_range,List.contains_iff_mem]

theorem not_whole (missing : last < n) (absent : last ∉ arrived) : whole n arrived = false := by
  rw [Bool.eq_false_iff]
  intro all
  exact absent (whole_iff.mp all last missing)

theorem collect_snoc (n : Nat) (arrivals : List Nat) (i : Nat) : collect n (arrivals ++ [i]) = arrive n (collect n arrivals) i := by
  rw [collect,List.foldl_append]
  rfl

theorem fold_short (missing : last < n) (absent : last ∉ earlier) (k : Nat) (pending : List Nat) (fresh : last ∉ pending) :
    earlier.foldl (arrive n) ⟨k,pending⟩ = ⟨k,earlier.reverse ++ pending⟩ := by
  induction earlier generalizing pending with
  | nil => rfl
  | cons head rest ih =>
    rw [List.mem_cons,not_or] at absent
    have apart : last ∉ head :: pending := by
      rw [List.mem_cons,not_or]
      exact ⟨absent.1,fresh⟩
    rw [List.foldl_cons,arrive,not_whole missing apart,if_neg Bool.false_ne_true,ih absent.2 _ apart]
    simp

theorem fold_round (round : Round n block) (below : ∀ i ∈ block, i < n) (k : Nat) :
    block.foldl (arrive n) ⟨k,[]⟩ = ⟨k + 1,[]⟩ := by
  obtain ⟨earlier,last,rfl,fresh,all⟩ := round
  have missing := below last (List.mem_append_right _ List.mem_cons_self)
  rw [List.foldl_append,fold_short missing fresh k [] List.not_mem_nil,List.append_nil]
  have full : whole n (last :: earlier.reverse) = true := by
    rw [whole_iff]
    intro i inside
    simpa [or_comm] using all i inside
  rw [List.foldl_cons,arrive,full]
  rfl

theorem Rounds.collect (rounds : Rounds n k arrivals) (below : ∀ i ∈ arrivals, i < n) : collect n arrivals = ⟨k,[]⟩ := by
  induction rounds with
  | nil => rfl
  | snoc _ round ih =>
    rw [List.forall_mem_append] at below
    rw [Reassembly.collect,List.foldl_append]
    change List.foldl (arrive n) (Reassembly.collect n _) _ = _
    rw [ih below.1]
    exact fold_round round below.2 _

-- The arrivals are rounds and a beginning of the next one.
theorem collect_split (some_ : 0 < n) (arrivals : List Nat) : ∃ earlier block, arrivals = earlier ++ block ∧
    Rounds n (collect n arrivals).rounds earlier ∧ (collect n arrivals).pending = block.reverse ∧ whole n block = false := by
  induction arrivals using List.reverseRecOn with
  | nil => exact ⟨[],[],rfl,.nil,rfl,not_whole some_ List.not_mem_nil⟩
  | append_singleton arrivals i ih =>
    obtain ⟨earlier,block,split_,rounds,pending,open_⟩ := ih
    rw [collect_snoc,arrive]
    have same : whole n (i :: (collect n arrivals).pending) = whole n (block ++ [i]) := by
      rw [pending,Bool.eq_iff_iff,whole_iff,whole_iff]
      simp [or_comm]
    cases full : whole n (block ++ [i]) with
    | false =>
      rw [same,full,if_neg Bool.false_ne_true]
      refine ⟨earlier,block ++ [i],by rw [split_,List.append_assoc],rounds,?_,full⟩
      rw [pending,List.reverse_append]
      rfl
    | true =>
      rw [same,full,if_pos rfl]
      have all := whole_iff.mp full
      have round : Round n (block ++ [i]) := by
        refine ⟨block,i,rfl,fun inside => ?_,all⟩
        have before : whole n block = true := whole_iff.mpr fun j below => by
          rcases List.mem_append.mp (all j below) with there | there
          · exact there
          · exact List.mem_singleton.mp there ▸ inside
        rw [before] at open_
        cases open_
      exact ⟨earlier ++ (block ++ [i]),[],by rw [split_,List.append_nil,List.append_assoc],.snoc rounds round,rfl,
        not_whole some_ List.not_mem_nil⟩

theorem pending_nil_iff (some_ : 0 < n) (below : ∀ i ∈ arrivals, i < n) :
    (collect n arrivals).pending = [] ↔ ∃ k, Rounds n k arrivals := by
  constructor
  · intro none
    obtain ⟨earlier,block,split_,rounds,pending,_⟩ := collect_split some_ arrivals
    rw [none] at pending
    obtain rfl : block = [] := List.reverse_eq_nil_iff.mp pending.symm
    rw [List.append_nil] at split_
    subst split_
    exact ⟨_,rounds⟩
  · rintro ⟨k,rounds⟩
    rw [rounds.collect below]

theorem single_round_iff (some_ : 0 < n) (below : ∀ i ∈ arrivals, i < n) :
    (collect n arrivals).rounds = 1 ∧ (collect n arrivals).pending = [] ↔ Round n arrivals := by
  constructor
  · rintro ⟨one,none⟩
    obtain ⟨k,rounds⟩ := (pending_nil_iff some_ below).mp none
    have count := rounds.collect below
    rw [count] at one
    obtain rfl : k = 1 := one
    cases rounds with
    | snoc first round =>
      cases first
      exact round
  · intro round
    have rounds : Rounds n 1 ([] ++ arrivals) := .snoc .nil round
    have count := rounds.collect below
    exact ⟨congrArg Collected.rounds count,congrArg Collected.pending count⟩

theorem rounds_pos (some_ : 0 < n) (all : ∀ i < n, i ∈ arrivals) : 0 < (collect n arrivals).rounds := by
  obtain ⟨earlier,block,split_,rounds,_,open_⟩ := collect_split some_ arrivals
  refine Nat.pos_of_ne_zero fun none => ?_
  rw [none] at rounds
  cases rounds
  rw [List.nil_append] at split_
  subst split_
  rw [whole_iff.mpr all] at open_
  cases open_

end AlineaCopilot.Reassembly
