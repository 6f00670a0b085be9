import Mathlib.Data.List.Chain
import AlineaCopilot.TopologicalOrders

open Relation
open AlineaCopilot.TopologicalOrders

namespace AlineaCopilot.CycleSearch
variable {α : Type} [DecidableEq α]

-- What a depth-first search carries along; the stack is the path as a set.
structure Search (α : Type) where
  visited : List α
  onStack : List α
  path : List α
  cycles : List (List α)

def Search.empty : Search α := ⟨[],[],[],[]⟩

def Search.enter (s : Search α) (node : α) : Search α :=
  { s with visited := node :: s.visited,onStack := node :: s.onStack,path := s.path ++ [node] }

def Search.leave (s : Search α) (node : α) : Search α :=
  { s with path := s.path.dropLast,onStack := s.onStack.filter (· ≠ node) }

-- An arc back to the path: the path from there on, closed.
def Search.close (s : Search α) (next : α) : Search α :=
  if next ∈ s.path then { s with cycles := s.cycles ++ [s.path.drop (s.path.idxOf next) ++ [next]] } else s

def search (neighbors : α → List α) : Nat → α → Search α → Search α
  | 0,_,s => s
  | fuel + 1,node,s =>
    ((neighbors node).foldl (fun s next =>
      if next ∉ s.visited then search neighbors fuel next s
      else if next ∈ s.onStack then s.close next
      else s) (s.enter node)).leave node

def searchAll (neighbors : α → List α) (fuel : Nat) (nodes : List α) (s : Search α) : Search α :=
  nodes.foldl (fun s node => if node ∉ s.visited then search neighbors fuel node s else s) s

-- The step of the loop along the neighbors.
def look (neighbors : α → List α) (fuel : Nat) (s : Search α) (next : α) : Search α :=
  if next ∉ s.visited then search neighbors fuel next s
  else if next ∈ s.onStack then s.close next
  else s

theorem search_next (neighbors : α → List α) (fuel : Nat) (node : α) (s : Search α) :
    search neighbors (fuel + 1) node s = ((neighbors node).foldl (look neighbors fuel) (s.enter node)).leave node := rfl

def Arc (neighbors : α → List α) (x y : α) : Prop := y ∈ neighbors x

-- A path along the arcs that ends where it starts.
def ClosedPath (arc : α → α → Prop) (cycle : List α) : Prop :=
  ∃ first rest, cycle = first :: rest ++ [first] ∧ cycle.IsChain arc

omit [DecidableEq α] in
theorem closed_cycle {arc : α → α → Prop} {cycle : List α} (closed : ClosedPath arc cycle) : ∃ x ∈ cycle, TransGen arc x x := by
  obtain ⟨first,rest,rfl,chain⟩ := closed
  have along : ∀ {rest : List α} {x : α}, (x :: rest ++ [first]).IsChain arc → TransGen arc x first := by
    intro rest
    induction rest with
    | nil =>
      intro x chain
      exact .single (List.isChain_cons_cons.mp chain).1
    | cons y rest ih =>
      intro x chain
      obtain ⟨edge,onward⟩ := List.isChain_cons_cons.mp chain
      exact .head edge (ih onward)
  exact ⟨first,List.mem_cons_self,along chain⟩

section Invariant
variable {neighbors : α → List α} {involved done : List α} {s : Search α} {node : α}

-- `done` lists the nodes that have been left, in that order. As long as no cycle
-- was found, each of them stands behind its neighbors.
structure Kept (neighbors : α → List α) (involved done : List α) (s : Search α) : Prop where
  stack : ∀ x, x ∈ s.onStack ↔ x ∈ s.path
  visited : ∀ x, x ∈ s.visited ↔ x ∈ done ∨ x ∈ s.path
  within : ∀ x ∈ s.visited, x ∈ involved
  chain : s.path.IsChain (Arc neighbors)
  real : ∀ cycle ∈ s.cycles, ClosedPath (Arc neighbors) cycle ∧ ∀ x ∈ cycle, x ∈ involved
  finished : s.cycles = [] → Ordered (fun x y => Arc neighbors y x) done

def unvisited (involved : List α) (s : Search α) : Nat := (involved.filter (· ∉ s.visited)).length

theorem unvisited_enter (inside : node ∈ involved) (fresh : node ∉ s.visited) : unvisited involved (s.enter node) < unvisited involved s := by
  have smaller : (involved.filter (· ∉ (s.enter node).visited)).Sublist (involved.filter (· ∉ s.visited)) := by
    refine List.monotone_filter_right involved fun x outside => ?_
    have apart : x ∉ node :: s.visited := of_decide_eq_true outside
    exact decide_eq_true (not_or.mp (mt List.mem_cons.mpr apart)).2
  refine Nat.lt_of_le_of_ne smaller.length_le fun same => ?_
  have equal := smaller.eq_of_length same
  have there : node ∈ involved.filter (· ∉ s.visited) := List.mem_filter.mpr ⟨inside,decide_eq_true fresh⟩
  rw [← equal] at there
  exact of_decide_eq_true (List.mem_filter.mp there).2 List.mem_cons_self

-- What a search below a node leaves behind.
structure Searched (neighbors : α → List α) (involved done : List α) (s after : Search α) (more : List α) : Prop where
  kept : Kept neighbors involved (done ++ more) after
  path : after.path = s.path
  cycles : s.cycles <+: after.cycles

omit [DecidableEq α] in
theorem Searched.refl (kept : Kept neighbors involved done s) : Searched neighbors involved done s s [] :=
  ⟨by rwa [List.append_nil],rfl,List.prefix_refl _⟩

omit [DecidableEq α] in
theorem Searched.trans {middle after : Search α} {more further : List α} (first : Searched neighbors involved done s middle more)
    (second : Searched neighbors involved (done ++ more) middle after further) : Searched neighbors involved done s after (more ++ further) := by
  refine ⟨?_,second.path.trans first.path,first.cycles.trans second.cycles⟩
  rw [← List.append_assoc]
  exact second.kept

theorem Searched.unvisited_le {after : Search α} {more : List α} (kept : Kept neighbors involved done s)
    (searched : Searched neighbors involved done s after more) : unvisited involved after ≤ unvisited involved s := by
  refine (List.monotone_filter_right involved fun x outside => ?_).length_le
  refine decide_eq_true fun before => of_decide_eq_true outside ?_
  rw [searched.kept.visited,searched.path,List.mem_append]
  rcases (kept.visited x).mp before with left | there
  · exact .inl (.inl left)
  · exact .inr there

-- An arc from the end of the path back into it closes a real cycle.
theorem close_kept (kept : Kept neighbors involved done s) (inside : node ∈ s.path) (last : ∀ x ∈ s.path.getLast?, Arc neighbors x node) :
    Searched neighbors involved done s (s.close node) [] ∧ (s.close node).cycles ≠ [] := by
  have position := List.idxOf_lt_length_of_mem inside
  have cut : s.path.drop (s.path.idxOf node) = node :: s.path.drop (s.path.idxOf node + 1) := by
    rw [List.drop_eq_getElem_cons position,List.getElem_idxOf position]
  have closed : ClosedPath (Arc neighbors) (s.path.drop (s.path.idxOf node) ++ [node]) := by
    refine ⟨node,s.path.drop (s.path.idxOf node + 1),by rw [cut],?_⟩
    refine List.isChain_append.mpr ⟨kept.chain.drop _,List.isChain_singleton _,fun x final y first => ?_⟩
    rw [List.getLast?_drop,if_neg (Nat.not_le_of_lt position)] at final
    cases first
    exact last x final
  unfold Search.close
  rw [if_pos inside]
  have some_ : s.cycles ++ [s.path.drop (s.path.idxOf node) ++ [node]] ≠ [] := List.append_ne_nil_of_right_ne_nil _ (List.cons_ne_nil _ _)
  refine ⟨⟨⟨kept.stack,?_,kept.within,kept.chain,?_,fun none => absurd none some_⟩,rfl,List.prefix_append _ _⟩,some_⟩
  · rw [List.append_nil]
    exact kept.visited
  · intro cycle there
    rcases List.mem_append.mp there with before | now
    · exact kept.real cycle before
    · rw [List.mem_singleton.mp now]
      refine ⟨closed,fun x member => kept.within x ((kept.visited x).mpr (.inr ?_))⟩
      rcases List.mem_append.mp member with left | right
      · exact (List.drop_suffix _ _).subset left
      · rwa [List.mem_singleton.mp right]

omit [DecidableEq α] in
theorem enter_kept (kept : Kept neighbors involved done s) (inside : node ∈ involved) (last : ∀ x ∈ s.path.getLast?, Arc neighbors x node) :
    Kept neighbors involved done (s.enter node) := by
  refine ⟨fun x => ?_,fun x => ?_,fun x => ?_,?_,kept.real,kept.finished⟩
  · show x ∈ node :: s.onStack ↔ x ∈ s.path ++ [node]
    rw [List.mem_cons,List.mem_append,List.mem_singleton,kept.stack]
    exact or_comm
  · show x ∈ node :: s.visited ↔ x ∈ done ∨ x ∈ s.path ++ [node]
    rw [List.mem_cons,List.mem_append,List.mem_singleton,kept.visited]
    tauto
  · show x ∈ node :: s.visited → x ∈ involved
    rw [List.mem_cons]
    rintro (rfl | before)
    · exact inside
    · exact kept.within x before
  · refine List.isChain_append.mpr ⟨kept.chain,List.isChain_singleton _,fun x final y first => ?_⟩
    cases first
    exact last x final

theorem leave_kept {path : List α} (kept : Kept neighbors involved done s) (ends : s.path = path ++ [node]) (fresh : node ∉ path)
    (neighbors_done : s.cycles = [] → ∀ y ∈ neighbors node, y ∈ done) : Kept neighbors involved (done ++ [node]) (s.leave node) := by
  have path_ : (s.leave node).path = path := by
    show s.path.dropLast = path
    rw [ends,List.dropLast_concat]
  refine ⟨fun x => ?_,fun x => ?_,kept.within,?_,kept.real,fun none => ?_⟩
  · show x ∈ s.onStack.filter (· ≠ node) ↔ _
    rw [path_,List.mem_filter,kept.stack,ends,List.mem_append,List.mem_singleton]
    constructor
    · rintro ⟨there | rfl,apart⟩
      · exact there
      · exact absurd rfl (of_decide_eq_true apart)
    · exact fun there => ⟨.inl there,decide_eq_true fun same => fresh (same ▸ there)⟩
  · show x ∈ s.visited ↔ _
    rw [path_,kept.visited,ends,List.mem_append,List.mem_append,List.mem_singleton]
    tauto
  · rw [path_]
    have chain := kept.chain
    rw [ends] at chain
    exact (List.isChain_append.mp chain).1
  · exact ordered_snoc (kept.finished none) fun y arc => neighbors_done none y arc

-- The loop along the neighbors, given what each search below does.
theorem look_kept {fuel : Nat} {ys : List α}
    (each : ∀ {done s next}, Kept neighbors involved done s → next ∉ s.visited → next ∈ involved → unvisited involved s ≤ fuel →
      (∀ x ∈ s.path.getLast?, Arc neighbors x next) → ∃ more, Searched neighbors involved done s (search neighbors fuel next s) more ∧ next ∈ more)
    (kept : Kept neighbors involved done s) (arcs : ∀ y ∈ ys, y ∈ involved ∧ ∀ x ∈ s.path.getLast?, Arc neighbors x y)
    (enough : unvisited involved s ≤ fuel) : ∃ more, Searched neighbors involved done s (ys.foldl (look neighbors fuel) s) more ∧
      ((ys.foldl (look neighbors fuel) s).cycles = [] → ∀ y ∈ ys, y ∈ done ++ more) := by
  induction ys generalizing done s with
  | nil => exact ⟨[],.refl kept,fun _ _ inside => absurd inside List.not_mem_nil⟩
  | cons y ys ih =>
    obtain ⟨⟨within,arc⟩,others⟩ := List.forall_mem_cons.mp arcs
    have behind : ∀ {middle more}, Searched neighbors involved done s middle more →
        ∃ further, Searched neighbors involved done s (ys.foldl (look neighbors fuel) middle) (more ++ further) ∧
          ((ys.foldl (look neighbors fuel) middle).cycles = [] → middle.cycles = [] ∧ ∀ z ∈ ys, z ∈ done ++ (more ++ further)) := by
      intro middle more first
      obtain ⟨further,second,reached⟩ := ih first.kept (by rw [first.path]; exact others) ((first.unvisited_le kept).trans enough)
      refine ⟨further,first.trans second,fun none => ⟨?_,?_⟩⟩
      · have early := second.cycles
        rw [none] at early
        exact List.prefix_nil.mp early
      · rw [← List.append_assoc]
        exact reached none
    rw [List.foldl_cons]
    by_cases fresh : y ∉ s.visited
    · have step : look neighbors fuel s y = search neighbors fuel y s := if_pos fresh
      obtain ⟨more,first,left⟩ := each kept fresh within enough arc
      obtain ⟨further,searched,reached⟩ := behind first
      rw [step]
      refine ⟨more ++ further,searched,fun none => List.forall_mem_cons.mpr ⟨?_,(reached none).2⟩⟩
      exact List.mem_append_right _ (List.mem_append_left _ left)
    · by_cases stacked : y ∈ s.onStack
      · have step : look neighbors fuel s y = s.close y := (if_neg fresh).trans (if_pos stacked)
        obtain ⟨first,some_⟩ := close_kept kept ((kept.stack y).mp stacked) arc
        obtain ⟨further,searched,reached⟩ := behind first
        rw [step]
        exact ⟨[] ++ further,searched,fun none => absurd (reached none).1 some_⟩
      · have step : look neighbors fuel s y = s := (if_neg fresh).trans (if_neg stacked)
        obtain ⟨further,searched,reached⟩ := behind (.refl kept)
        rw [step]
        refine ⟨[] ++ further,searched,fun none => List.forall_mem_cons.mpr ⟨?_,(reached none).2⟩⟩
        have left := (kept.visited y).mp (not_not.mp fresh)
        rw [← kept.stack] at left
        exact List.mem_append_left _ (left.resolve_right stacked)

-- A search below a node that has not been visited, with as much fuel as there are
-- nodes left to visit.
theorem search_kept {fuel : Nat} (within : ∀ x ∈ involved, ∀ y ∈ neighbors x, y ∈ involved) (kept : Kept neighbors involved done s)
    (fresh : node ∉ s.visited) (inside : node ∈ involved) (enough : unvisited involved s ≤ fuel)
    (last : ∀ x ∈ s.path.getLast?, Arc neighbors x node) :
    ∃ more, Searched neighbors involved done s (search neighbors fuel node s) more ∧ node ∈ more := by
  induction fuel generalizing done s node with
  | zero =>
    have fewer := unvisited_enter inside fresh
    omega
  | succ fuel ih =>
    have fewer := unvisited_enter inside fresh
    have off : node ∉ s.path := fun there => fresh ((kept.visited node).mpr (.inr there))
    have entered := enter_kept kept inside last
    have top : ∀ x ∈ (s.enter node).path.getLast?, x = node := by
      intro x final
      change x ∈ (s.path ++ [node]).getLast? at final
      rw [List.getLast?_concat] at final
      cases final
      rfl
    obtain ⟨more,searched,reached⟩ := @look_kept α _ neighbors involved done (s.enter node) fuel (neighbors node)
      (fun kept fresh inside enough last => ih kept fresh inside enough last) entered
      (fun y there => ⟨within node inside y there,fun x final => by rw [top x final]; exact there⟩) (by omega)
    rw [search_next]
    refine ⟨more ++ [node],⟨?_,?_,searched.cycles⟩,List.mem_append_right _ List.mem_cons_self⟩
    · rw [← List.append_assoc]
      exact leave_kept searched.kept searched.path off reached
    · show List.dropLast _ = _
      rw [searched.path]
      exact List.dropLast_concat

omit [DecidableEq α] in
theorem empty_kept (neighbors : α → List α) (involved : List α) : Kept neighbors involved [] Search.empty :=
  ⟨fun _ => Iff.rfl,fun _ => iff_of_false List.not_mem_nil (by rintro (there | there) <;> cases there),
    fun _ there => absurd there List.not_mem_nil,List.isChain_nil,fun _ there => absurd there List.not_mem_nil,
    fun _ first y rest whole => absurd whole.symm (List.append_ne_nil_of_right_ne_nil _ (List.cons_ne_nil _ _))⟩

theorem searchAll_kept {fuel : Nat} {nodes : List α} (within : ∀ x ∈ involved, ∀ y ∈ neighbors x, y ∈ involved)
    (kept : Kept neighbors involved done s) (clear : s.path = []) (inside : ∀ x ∈ nodes, x ∈ involved) (enough : unvisited involved s ≤ fuel) :
    ∃ more, Searched neighbors involved done s (searchAll neighbors fuel nodes s) more ∧ ∀ x ∈ nodes, x ∈ done ++ more := by
  induction nodes generalizing done s with
  | nil => exact ⟨[],.refl kept,fun _ there => absurd there List.not_mem_nil⟩
  | cons node nodes ih =>
    obtain ⟨here,others⟩ := List.forall_mem_cons.mp inside
    have first : ∃ more, Searched neighbors involved done s (if node ∉ s.visited then search neighbors fuel node s else s) more ∧
        node ∈ done ++ more := by
      by_cases fresh : node ∉ s.visited
      · obtain ⟨more,searched,left⟩ := search_kept within kept fresh here enough (by rw [clear]; rintro _ ⟨⟩)
        rw [if_pos fresh]
        exact ⟨more,searched,List.mem_append_right _ left⟩
      · rw [if_neg fresh]
        have left := (kept.visited node).mp (not_not.mp fresh)
        rw [clear] at left
        exact ⟨[],.refl kept,List.mem_append_left _ (left.resolve_right List.not_mem_nil)⟩
    obtain ⟨more,searched,left⟩ := first
    obtain ⟨further,onward,rest⟩ := ih searched.kept (searched.path.trans clear) others ((searched.unvisited_le kept).trans enough)
    refine ⟨more ++ further,searched.trans onward,List.forall_mem_cons.mpr ⟨?_,?_⟩⟩
    · rw [← List.append_assoc]
      exact List.mem_append_left _ left
    · rw [← List.append_assoc]
      exact rest

-- Every cycle that is reported is real, and one is reported if there is any.
theorem searchAll_exact (within : ∀ x ∈ involved, ∀ y ∈ neighbors x, y ∈ involved) (nodes : List α) (same : ∀ x, x ∈ nodes ↔ x ∈ involved)
    {fuel : Nat} (enough : involved.length ≤ fuel) :
    (∀ cycle ∈ (searchAll neighbors fuel nodes Search.empty).cycles, ClosedPath (Arc neighbors) cycle ∧ ∀ x ∈ cycle, x ∈ involved) ∧
      ((searchAll neighbors fuel nodes Search.empty).cycles = [] ↔ ∀ x ∈ involved, ¬TransGen (Arc neighbors) x x) := by
  obtain ⟨more,searched,reached⟩ := searchAll_kept within (empty_kept neighbors involved) rfl (fun x there => (same x).mp there)
    ((List.length_filter_le _ _).trans enough)
  refine ⟨searched.kept.real,fun none x inside cycle => ?_,fun acyclic => ?_⟩
  · have ordered := searched.kept.finished none
    refine ordered_acyclic ordered (reached x ((same x).mpr inside)) ⟨x,?_,.refl⟩
    exact transGen_swap.mpr cycle
  · refine List.eq_nil_iff_forall_not_mem.mpr fun cycle there => ?_
    obtain ⟨closed,members⟩ := searched.kept.real cycle there
    obtain ⟨x,inside,path⟩ := closed_cycle closed
    exact acyclic x (members x inside) path

end Invariant

end AlineaCopilot.CycleSearch
