import Mathlib.Data.Fintype.Card
import Mathlib.Data.List.Perm.Basic
import Mathlib.Logic.Relation
import Mathlib.Order.WellFounded
import Mathlib.Data.Set.Finite.Basic

open Relation

namespace AlineaCopilot.TopologicalOrders
variable {α : Type} [DecidableEq α]

-- An edge leads from what comes first to what depends on it; an edge may be listed
-- more than once.
def Edge (edges : List (α × α)) (x y : α) : Prop := (x,y) ∈ edges

def dependents (edges : List (α × α)) (x : α) : List α := (edges.filter fun edge => edge.1 = x).map Prod.snd

def degree (edges : List (α × α)) (y : α) : Nat := edges.countP fun edge => edge.2 = y

-- The edges into a node whose sources have not been emitted.
def openEdges (edges : List (α × α)) (order : List α) (y : α) : Nat := edges.countP fun edge => edge.2 = y ∧ edge.1 ∉ order

-- The degrees after one node was emitted, and the nodes that this makes ready.
def relax (degrees : α → Nat) : List α → (α → Nat) × List α
  | [] => (degrees,[])
  | y :: rest =>
    let left := degrees y - 1
    let after := relax (Function.update degrees y left) rest
    (after.1,if left = 0 then y :: after.2 else after.2)

-- Kahn's loop: the order so far and what is still queued when the fuel is spent.
def kahn (sort : List α → List α) (edges : List (α × α)) : Nat → List α → (α → Nat) → List α → List α × List α
  | 0,queue,_,order => (order,queue)
  | _ + 1,[],_,order => (order,[])
  | fuel + 1,x :: queue,degrees,order =>
    let relaxed := relax degrees (dependents edges x)
    kahn sort edges fuel (queue ++ sort relaxed.2) relaxed.1 (order ++ [x])

-- Every node stands behind all that it depends on.
def Ordered (before : α → α → Prop) (order : List α) : Prop :=
  ∀ first y rest, order = first ++ y :: rest → ∀ x, before x y → x ∈ first

-- On a cycle, or depending on something that is.
def Downstream (before : α → α → Prop) (y : α) : Prop := ∃ c, TransGen before c c ∧ ReflTransGen before c y

section Relaxing
variable {degrees : α → Nat} {ys : List α} {y : α}

theorem relax_next (degrees : α → Nat) (y : α) (rest : List α) : relax degrees (y :: rest) =
    ((relax (Function.update degrees y (degrees y - 1)) rest).1,
      if degrees y - 1 = 0 then y :: (relax (Function.update degrees y (degrees y - 1)) rest).2
      else (relax (Function.update degrees y (degrees y - 1)) rest).2) := rfl

theorem relax_degrees (degrees : α → Nat) (ys : List α) (y : α) : (relax degrees ys).1 y = degrees y - ys.count y := by
  induction ys generalizing degrees with
  | nil => rfl
  | cons z rest ih =>
    rw [relax_next]
    show (relax _ rest).1 y = _
    by_cases same : y = z
    · subst same
      rw [ih,Function.update_self,List.count_cons_self]
      omega
    · rw [ih,Function.update_of_ne same,List.count_cons_of_ne (Ne.symm same)]

-- A node becomes ready when its last open edge is gone, and so once at most.
theorem relax_ready (enough : ∀ y, ys.count y ≤ degrees y) : (relax degrees ys).2.Nodup ∧
    ∀ y, y ∈ (relax degrees ys).2 ↔ y ∈ ys ∧ ys.count y = degrees y := by
  induction ys generalizing degrees with
  | nil => exact ⟨List.nodup_nil,fun y => iff_of_false List.not_mem_nil fun both => List.not_mem_nil both.1⟩
  | cons z rest ih =>
    have next : ∀ y, rest.count y ≤ Function.update degrees z (degrees z - 1) y := by
      intro y
      have before := enough y
      by_cases same : y = z
      · subst same
        rw [List.count_cons_self] at before
        rw [Function.update_self]
        omega
      · rw [List.count_cons_of_ne (Ne.symm same)] at before
        rwa [Function.update_of_ne same]
    obtain ⟨distinct,exact_⟩ := ih next
    have here := enough z
    rw [List.count_cons_self] at here
    have behind : ∀ y, y ≠ z → (y ∈ (relax (Function.update degrees z (degrees z - 1)) rest).2 ↔ y ∈ z :: rest ∧ (z :: rest).count y = degrees y) := by
      intro y other
      rw [exact_,Function.update_of_ne other,List.count_cons_of_ne (Ne.symm other),List.mem_cons]
      tauto
    rw [relax_next]
    show (if degrees z - 1 = 0 then _ else _ : List α).Nodup ∧ _
    by_cases last : degrees z - 1 = 0
    · have gone : z ∉ (relax (Function.update degrees z (degrees z - 1)) rest).2 := by
        rw [exact_]
        rintro ⟨inside,-⟩
        have some_ := List.count_pos_iff.mpr inside
        omega
      show _ ∧ ∀ y, y ∈ (if degrees z - 1 = 0 then _ else _ : List α) ↔ _
      rw [if_pos last]
      refine ⟨List.nodup_cons.mpr ⟨gone,distinct⟩,fun y => ?_⟩
      by_cases same : y = z
      · subst same
        refine iff_of_true List.mem_cons_self ⟨List.mem_cons_self,?_⟩
        rw [List.count_cons_self]
        omega
      · rw [List.mem_cons,← behind y same]
        exact or_iff_right same
    · show _ ∧ ∀ y, y ∈ (if degrees z - 1 = 0 then _ else _ : List α) ↔ _
      rw [if_neg last]
      refine ⟨distinct,fun y => ?_⟩
      by_cases same : y = z
      · subst same
        rw [exact_,Function.update_self,List.count_cons_self]
        constructor
        · rintro ⟨inside,all⟩
          exact ⟨List.mem_cons_self,by omega⟩
        · rintro ⟨-,all⟩
          have some_ : 0 < rest.count y := by omega
          exact ⟨List.count_pos_iff.mp some_,by omega⟩
      · exact behind y same

end Relaxing

section Emitting
variable {edges : List (α × α)} {order queue known : List α} {degrees : α → Nat} {x y : α}

theorem count_dependents (edges : List (α × α)) (x y : α) : (dependents edges x).count y = edges.countP fun edge => edge.2 = y ∧ edge.1 = x := by
  induction edges with
  | nil => rfl
  | cons edge rest ih =>
    unfold dependents at ih ⊢
    rw [List.filter_cons,List.countP_cons]
    by_cases out : edge.1 = x
    · rw [if_pos (decide_eq_true out),List.map_cons,List.count_cons,ih]
      by_cases same : edge.2 = y
      · rw [if_pos (beq_iff_eq.mpr same),if_pos (decide_eq_true ⟨same,out⟩)]
      · rw [if_neg (mt eq_of_beq same),if_neg (by simp [same])]
    · rw [if_neg (by simpa using out),ih,if_neg (by simp [out])]
      rfl

-- Emitting a node closes the edges out of it.
theorem openEdges_emit (fresh : x ∉ order) : openEdges edges order y = (dependents edges x).count y + openEdges edges (order ++ [x]) y := by
  rw [count_dependents]
  unfold openEdges
  induction edges with
  | nil => rfl
  | cons edge rest ih =>
    rw [List.countP_cons,List.countP_cons,List.countP_cons,ih]
    by_cases same : edge.2 = y
    · by_cases out : edge.1 = x
      · simp [same,out,fresh]
        omega
      · simp [same,out]
        omega
    · simp [same]

structure Kept (edges : List (α × α)) (known order queue : List α) (degrees : α → Nat) : Prop where
  distinct : (order ++ queue).Nodup
  listed : ∀ x ∈ order ++ queue, x ∈ known
  degrees : ∀ y, degrees y = openEdges edges order y
  ready : ∀ y ∈ known, y ∈ order ++ queue ↔ openEdges edges order y = 0
  ordered : Ordered (Edge edges) order

theorem openEdges_none : openEdges edges order y = 0 ↔ ∀ x, Edge edges x y → x ∈ order := by
  unfold openEdges Edge
  rw [List.countP_eq_zero]
  constructor
  · intro none x edge
    have closed := none (x,y) edge
    simpa using closed
  · rintro all ⟨x,z⟩ edge free_
    obtain ⟨rfl,out⟩ := of_decide_eq_true free_
    exact out (all x edge)

omit [DecidableEq α] in
theorem ordered_snoc {before : α → α → Prop} (ordered : Ordered before order) (closed : ∀ x, before x y → x ∈ order) :
    Ordered before (order ++ [y]) := by
  intro first z rest whole x edge
  rcases List.eq_nil_or_concat rest with rfl | ⟨rest,last,rfl⟩
  · obtain ⟨rfl,same⟩ := List.append_inj' whole rfl
    cases same
    exact closed x edge
  · rw [List.concat_eq_append,← List.cons_append,← List.append_assoc] at whole
    obtain ⟨rfl,-⟩ := List.append_inj' whole rfl
    exact ordered first z rest rfl x edge

theorem kept_step {sort : List α → List α} (permutes : ∀ ys, (sort ys).Perm ys) (targets : ∀ x y, Edge edges x y → y ∈ known)
    (kept : Kept edges known order (x :: queue) degrees) :
    Kept edges known (order ++ [x]) (queue ++ sort (relax degrees (dependents edges x)).2) (relax degrees (dependents edges x)).1 := by
  have fresh : x ∉ order := by
    intro inside
    exact (List.nodup_append.mp kept.distinct).2.2 x inside x List.mem_cons_self rfl
  have enough : ∀ y, (dependents edges x).count y ≤ degrees y := by
    intro y
    rw [kept.degrees,openEdges_emit fresh]
    exact Nat.le_add_right _ _
  obtain ⟨distinct,exact_⟩ := relax_ready enough
  have after : ∀ y, (relax degrees (dependents edges x)).1 y = openEdges edges (order ++ [x]) y := by
    intro y
    rw [relax_degrees,kept.degrees,openEdges_emit fresh]
    omega
  have became : ∀ y, y ∈ (relax degrees (dependents edges x)).2 ↔ Edge edges x y ∧ openEdges edges (order ++ [x]) y = 0 := by
    intro y
    have member : y ∈ dependents edges x ↔ Edge edges x y := by
      unfold dependents Edge
      simp
    rw [exact_,member,kept.degrees,openEdges_emit fresh]
    refine and_congr_right fun _ => ?_
    omega
  have inKnown : x ∈ known := kept.listed x (List.mem_append_right _ List.mem_cons_self)
  have before : ∀ y, y ∈ order ++ x :: queue → y ∉ (relax degrees (dependents edges x)).2 := by
    intro y there now
    obtain ⟨edge,-⟩ := (became y).mp now
    exact fresh (openEdges_none.mp ((kept.ready y (targets x y edge)).mp there) x edge)
  have sorted : ∀ y, y ∈ sort (relax degrees (dependents edges x)).2 ↔ y ∈ (relax degrees (dependents edges x)).2 := fun y => (permutes _).mem_iff
  have whole : (order ++ [x]) ++ (queue ++ sort (relax degrees (dependents edges x)).2) =
      (order ++ x :: queue) ++ sort (relax degrees (dependents edges x)).2 := by simp
  refine ⟨?_,?_,after,?_,?_⟩
  · rw [whole]
    refine List.nodup_append.mpr ⟨kept.distinct,(permutes _).nodup_iff.mpr distinct,?_⟩
    rintro y there z inside rfl
    exact before y there ((sorted y).mp inside)
  · rw [whole]
    intro y inside
    rcases List.mem_append.mp inside with there | now
    · exact kept.listed y there
    · exact targets x y ((became y).mp ((sorted y).mp now)).1
  · intro y there
    rw [whole,List.mem_append,sorted,became,kept.ready y there,openEdges_emit fresh]
    constructor
    · rintro (none | ⟨-,none⟩)
      · omega
      · exact none
    · intro none
      by_cases edge : Edge edges x y
      · exact .inr ⟨edge,none⟩
      · left
        have absent : (dependents edges x).count y = 0 := by
          rw [List.count_eq_zero]
          unfold dependents
          simpa [Edge] using edge
        omega
  · refine ordered_snoc kept.ordered (openEdges_none.mp ?_)
    exact (kept.ready x inKnown).mp (List.mem_append_right _ List.mem_cons_self)

-- Enough fuel, and the loop has emptied its queue.
theorem kahn_kept {sort : List α → List α} (permutes : ∀ ys, (sort ys).Perm ys) (targets : ∀ x y, Edge edges x y → y ∈ known)
    (kept : Kept edges known order queue degrees) {fuel : Nat} (enough : known.length < fuel + order.length) :
    ∃ emitted left, kahn sort edges fuel queue degrees order = (emitted,[]) ∧ Kept edges known emitted [] left := by
  induction fuel generalizing order queue degrees with
  | zero =>
    have short := (List.nodup_append.mp kept.distinct).1.subperm fun y inside => kept.listed y (List.mem_append_left _ inside)
    have bound := short.length_le
    omega
  | succ fuel ih =>
    cases queue with
    | nil => exact ⟨order,degrees,rfl,kept⟩
    | cons x queue =>
      refine ih (kept_step permutes targets kept) ?_
      rw [List.length_append,List.length_singleton]
      omega

end Emitting

section Cycles
variable {before : α → α → Prop} {order rest : List α} {x y : α}

-- An edge into the order comes from further left.
theorem ordered_edge (ordered : Ordered before order) (there : y ∈ order) (edge : before x y) :
    x ∈ order ∧ order.idxOf x < order.idxOf y := by
  obtain ⟨first,behind,rfl,absent⟩ := List.eq_append_cons_of_mem there
  have left := ordered first y behind rfl x edge
  refine ⟨List.mem_append_left _ left,?_⟩
  rw [List.idxOf_append_of_mem left,List.idxOf_append_of_notMem absent]
  exact Nat.lt_of_lt_of_le (List.idxOf_lt_length_of_mem left) (Nat.le_add_right _ _)

theorem ordered_path (ordered : Ordered before order) (there : y ∈ order) (path : TransGen before x y) :
    x ∈ order ∧ order.idxOf x < order.idxOf y := by
  induction path with
  | single edge => exact ordered_edge ordered there edge
  | tail prior edge ih =>
    obtain ⟨inside,left⟩ := ordered_edge ordered there edge
    obtain ⟨member,further⟩ := ih inside
    exact ⟨member,further.trans left⟩

theorem ordered_acyclic (ordered : Ordered before order) (there : y ∈ order) : ¬Downstream before y := by
  rintro ⟨c,cycle,onward⟩
  have inside : c ∈ order := by
    rcases reflTransGen_iff_eq_or_transGen.mp onward with same | path
    · rwa [← same]
    · exact (ordered_path ordered there path).1
  exact Nat.lt_irrefl _ (ordered_path ordered inside cycle).2

-- Where every node has a predecessor in a finite set, each stands behind a cycle.
theorem remaining_downstream (closed : ∀ y ∈ rest, ∃ x ∈ rest, before x y) (there : y ∈ rest) : Downstream before y := by
  refine Classical.byContradiction fun absent => ?_
  let Behind := { x : α // x ∈ rest ∧ ReflTransGen before x y }
  let leads : Behind → Behind → Prop := fun x z => TransGen before x.1 z.1
  have finite : Finite Behind := Finite.of_injective (fun x => (⟨x.1,x.2.1⟩ : { x // x ∈ rest })) fun _ _ same =>
    Subtype.ext (congrArg (fun x => x.1) same)
  have trans : IsTrans Behind leads := ⟨fun _ _ _ first second => first.trans second⟩
  have irreflexive : Std.Irrefl leads := ⟨fun x cycle => absent ⟨x.1,cycle,x.2.2⟩⟩
  obtain ⟨least,-,minimal⟩ := (Finite.wellFounded_of_trans_of_irrefl leads).has_min Set.univ ⟨⟨y,there,.refl⟩,trivial⟩
  obtain ⟨x,inside,edge⟩ := closed least.1 least.2.1
  exact minimal ⟨x,inside,.head edge least.2.2⟩ trivial (.single edge)

end Cycles

end AlineaCopilot.TopologicalOrders
