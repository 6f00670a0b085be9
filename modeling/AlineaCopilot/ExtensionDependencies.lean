import Mathlib.Data.List.Sort
import Mathlib.Data.String.Basic
import AlineaCopilot.CycleSearch

open Relation
open AlineaCopilot.TopologicalOrders AlineaCopilot.CycleSearch

namespace AlineaCopilot.ExtensionDependencies

-- `dependencies` is a map; the order of its keys decides nothing below.
structure ExtensionManifest where
  name : String
  version : String
  dependencies : List (String × String)
  distinct : (dependencies.map Prod.fst).Nodup

structure LoadedExtension where
  manifest : ExtensionManifest

-- The crate that reads versions and requirements.
structure Semver where
  Version : Type
  VersionReq : Type
  parseVersion : String → Option Version
  parseReq : String → Option VersionReq
  satisfies : VersionReq → Version → Bool

inductive DependencyIssue where
  | missing (extension dependency required : String)
  | versionMismatch (extension dependency required actual : String)
  | circular (cycle : List String)
deriving DecidableEq, Repr

structure DependencyValidationResult where
  valid : Bool
  issues : List DependencyIssue
  loadOrder : List String

def LoadedExtension.name (ext : LoadedExtension) : String := ext.manifest.name

def LoadedExtension.keys (ext : LoadedExtension) : List String := ext.manifest.dependencies.map Prod.fst

-- A later entry of a name takes the place of an earlier one in a map.
def lastEntry (extensions : List LoadedExtension) (name : String) : Option LoadedExtension :=
  extensions.reverse.find? fun ext => ext.name = name

def versions (extensions : List LoadedExtension) (name : String) : Option String :=
  (lastEntry extensions name).map fun ext => ext.manifest.version

def versionMatches (semver : Semver) (requirement actual : String) : Bool :=
  match semver.parseVersion actual with
  | none => false
  | some version =>
    -- A bare version is an exact one.
    let text := if requirement.toList.head?.any Char.isDigit then "=" ++ requirement else requirement
    match semver.parseReq text with
    | none => false
    | some req => semver.satisfies req version

def known (extensions : List LoadedExtension) : List String := (extensions.map LoadedExtension.name).dedup

def sortNames (names : List String) : List String := names.insertionSort (· ≤ ·)

-- The pairs that the two loops count, from a dependency to what depends on it.
def dependencyEdges (extensions : List LoadedExtension) : List (String × String) :=
  extensions.flatMap fun ext => (ext.keys.filter (· ∈ known extensions)).map fun dep => (dep,ext.name)

-- The node's dependencies among the involved ones.
def involvedDependencies (extensions : List LoadedExtension) (involved : List String) (name : String) : List String :=
  if name ∈ involved then
    match lastEntry extensions name with
    | some ext => sortNames (ext.keys.filter (· ∈ involved))
    | none => []
  else []

def findCycles (extensions : List LoadedExtension) (involved : List String) : List (List String) :=
  (searchAll (involvedDependencies extensions involved) involved.length (sortNames involved) Search.empty).cycles

-- Kahn's loop, emitting each known name once at most.
def emitted (extensions : List LoadedExtension) : List String :=
  let edges := dependencyEdges extensions
  let seeds := sortNames ((known extensions).filter fun name => degree edges name = 0)
  (kahn sortNames edges ((known extensions).length + 1) seeds (degree edges) []).1

def computeTopologicalOrder (extensions : List LoadedExtension) : List String × List (List String) :=
  let order := emitted extensions
  let remaining := (known extensions).filter (· ∉ order)
  let cycles := if remaining.isEmpty then [] else findCycles extensions remaining
  (order ++ sortNames remaining,cycles)

def topologicalSort (extensions : List LoadedExtension) : List String := (computeTopologicalOrder extensions).1

def dependencyIssues (semver : Semver) (extensions : List LoadedExtension) : List DependencyIssue :=
  extensions.flatMap fun ext => ext.manifest.dependencies.filterMap fun (dep,required) =>
    match versions extensions dep with
    | none => some (.missing ext.name dep required)
    | some actual => if versionMatches semver required actual then none else some (.versionMismatch ext.name dep required actual)

def validateDependencies (semver : Semver) (extensions : List LoadedExtension) : DependencyValidationResult :=
  let (loadOrder,cycles) := computeTopologicalOrder extensions
  let issues := dependencyIssues semver extensions ++ cycles.map .circular
  ⟨issues.isEmpty,issues,loadOrder⟩

-- What the graph of the extensions is, whatever the code computes.
def DependsOn (extensions : List LoadedExtension) (name dep : String) : Prop :=
  ∃ ext ∈ extensions, ext.name = name ∧ dep ∈ ext.keys ∧ dep ∈ extensions.map LoadedExtension.name

def Precedes (extensions : List LoadedExtension) (dep name : String) : Prop := DependsOn extensions name dep

def OnCommonCycle (extensions : List LoadedExtension) (x y : String) : Prop :=
  TransGen (Precedes extensions) x y ∧ TransGen (Precedes extensions) y x

def Cyclic (extensions : List LoadedExtension) : Prop := ∃ name, TransGen (Precedes extensions) name name

-- The graph where a name that is listed more than once has its last entry's dependencies.
def LastPrecedes (extensions : List LoadedExtension) (dep name : String) : Prop :=
  ∃ ext, lastEntry extensions name = some ext ∧ dep ∈ ext.keys ∧ dep ∈ extensions.map LoadedExtension.name

def Met (semver : Semver) (extensions : List LoadedExtension) : Prop :=
  ∀ ext ∈ extensions, ∀ dep required, (dep,required) ∈ ext.manifest.dependencies →
    ∃ actual, versions extensions dep = some actual ∧ versionMatches semver required actual = true

structure Sound (semver : Semver) (extensions : List LoadedExtension) : Prop where
  once : (topologicalSort extensions).Nodup
  all : ∀ name, name ∈ topologicalSort extensions ↔ name ∈ extensions.map LoadedExtension.name
  ordered : ∀ dep name, DependsOn extensions name dep → ¬OnCommonCycle extensions dep name →
    (topologicalSort extensions).idxOf dep < (topologicalSort extensions).idxOf name
  valid : (validateDependencies semver extensions).valid = true ↔ Met semver extensions ∧ ¬Cyclic extensions
  real : ∀ cycle, .circular cycle ∈ (validateDependencies semver extensions).issues → ClosedPath (DependsOn extensions) cycle
  reported : Cyclic extensions → ∃ cycle, .circular cycle ∈ (validateDependencies semver extensions).issues

-- Where the two slips do not show: behind a cycle the names happen to be in order,
-- and a cycle is still there when only the last entries of names are counted.
structure Fits (extensions : List LoadedExtension) : Prop where
  alphabetical : ∀ dep name, DependsOn extensions name dep → ¬OnCommonCycle extensions dep name →
    Downstream (Precedes extensions) dep → dep < name
  last : Cyclic extensions → ∃ name, TransGen (LastPrecedes extensions) name name

section Order
variable {extensions : List LoadedExtension} {name dep : String}

theorem mem_known : name ∈ known extensions ↔ name ∈ extensions.map LoadedExtension.name := List.mem_dedup

theorem edge_iff : Edge (dependencyEdges extensions) dep name ↔ Precedes extensions dep name := by
  unfold Edge dependencyEdges Precedes DependsOn
  simp only [List.mem_flatMap,List.mem_map,List.mem_filter,decide_eq_true_eq,Prod.mk.injEq]
  constructor
  · rintro ⟨ext,listed,key,⟨inside,there⟩,rfl,rfl⟩
    exact ⟨ext,listed,rfl,inside,by simpa using mem_known.mp there⟩
  · rintro ⟨ext,listed,rfl,inside,there⟩
    exact ⟨ext,listed,dep,⟨inside,mem_known.mpr (by simpa using there)⟩,rfl,rfl⟩

theorem edge_same (extensions : List LoadedExtension) : Edge (dependencyEdges extensions) = Precedes extensions :=
  funext fun _ => funext fun _ => propext edge_iff

theorem precedes_known (edge : Precedes extensions dep name) : dep ∈ known extensions ∧ name ∈ known extensions := by
  obtain ⟨ext,listed,rfl,-,there⟩ := edge
  exact ⟨mem_known.mpr there,mem_known.mpr (List.mem_map_of_mem listed)⟩

theorem sortNames_perm (names : List String) : (sortNames names).Perm names := List.perm_insertionSort _ _

theorem emitted_kept (extensions : List LoadedExtension) :
    ∃ left, TopologicalOrders.Kept (dependencyEdges extensions) (known extensions) (emitted extensions) [] left := by
  have start : TopologicalOrders.Kept (dependencyEdges extensions) (known extensions) []
      (sortNames ((known extensions).filter fun name => degree (dependencyEdges extensions) name = 0)) (degree (dependencyEdges extensions)) := by
    have degrees : ∀ name, degree (dependencyEdges extensions) name = openEdges (dependencyEdges extensions) [] name := by
      intro name
      unfold degree openEdges
      simp
    refine ⟨?_,fun name there => ?_,degrees,fun name there => ?_,?_⟩
    · exact (sortNames_perm _).nodup_iff.mpr ((List.nodup_dedup _).filter _)
    · exact (List.mem_filter.mp ((sortNames_perm _).mem_iff.mp there)).1
    · rw [List.nil_append,(sortNames_perm _).mem_iff,List.mem_filter,← degrees]
      simp [there]
    · exact fun first y rest whole => absurd whole.symm (List.append_ne_nil_of_right_ne_nil _ (List.cons_ne_nil _ _))
  obtain ⟨order,left,ran,kept⟩ := kahn_kept sortNames_perm (fun x y edge => (precedes_known (edge_iff.mp edge)).2) start
    (show (known extensions).length < (known extensions).length + 1 + 0 by omega)
  have same : emitted extensions = order := congrArg Prod.fst ran
  exact ⟨left,same ▸ kept⟩

theorem emitted_ordered (extensions : List LoadedExtension) : Ordered (Precedes extensions) (emitted extensions) := by
  obtain ⟨left,kept⟩ := emitted_kept extensions
  rw [← edge_same]
  exact kept.ordered

-- What Kahn's loop leaves over is what stands on or behind a cycle.
theorem emitted_iff (there : name ∈ known extensions) : name ∉ emitted extensions ↔ Downstream (Precedes extensions) name := by
  obtain ⟨left,kept⟩ := emitted_kept extensions
  constructor
  · intro absent
    have closed : ∀ y ∈ (known extensions).filter (· ∉ emitted extensions), ∃ x ∈ (known extensions).filter (· ∉ emitted extensions),
        Precedes extensions x y := by
      intro y inside
      obtain ⟨member,left_⟩ := List.mem_filter.mp inside
      have stuck : ¬openEdges (dependencyEdges extensions) (emitted extensions) y = 0 := by
        rw [← kept.ready y member,List.append_nil]
        exact of_decide_eq_true left_
      rw [openEdges_none] at stuck
      push Not at stuck
      obtain ⟨x,edge,gone⟩ := stuck
      rw [edge_iff] at edge
      exact ⟨x,List.mem_filter.mpr ⟨(precedes_known edge).1,decide_eq_true gone⟩,edge⟩
    exact remaining_downstream closed (List.mem_filter.mpr ⟨there,decide_eq_true absent⟩)
  · exact fun downstream inside => ordered_acyclic (emitted_ordered extensions) inside downstream

def remaining (extensions : List LoadedExtension) : List String := (known extensions).filter (· ∉ emitted extensions)

theorem mem_remaining : name ∈ remaining extensions ↔ name ∈ known extensions ∧ Downstream (Precedes extensions) name := by
  unfold remaining
  rw [List.mem_filter,decide_eq_true_eq]
  exact and_congr_right fun there => emitted_iff there

theorem sort_parts (extensions : List LoadedExtension) : topologicalSort extensions = emitted extensions ++ sortNames (remaining extensions) := rfl

theorem emitted_apart (inside : name ∈ sortNames (remaining extensions)) : name ∉ emitted extensions := by
  rw [(sortNames_perm _).mem_iff] at inside
  exact of_decide_eq_true (List.mem_filter.mp inside).2

theorem sort_nodup (extensions : List LoadedExtension) : (topologicalSort extensions).Nodup := by
  obtain ⟨left,kept⟩ := emitted_kept extensions
  have distinct := kept.distinct
  rw [List.append_nil] at distinct
  rw [sort_parts]
  refine List.nodup_append.mpr ⟨distinct,(sortNames_perm _).nodup_iff.mpr ((List.nodup_dedup _).filter _),?_⟩
  rintro x first y second rfl
  exact emitted_apart second first

theorem mem_sort : name ∈ topologicalSort extensions ↔ name ∈ known extensions := by
  obtain ⟨left,kept⟩ := emitted_kept extensions
  rw [sort_parts,List.mem_append,(sortNames_perm _).mem_iff]
  constructor
  · rintro (first | second)
    · exact kept.listed name (List.mem_append_left _ first)
    · exact (List.mem_filter.mp second).1
  · intro there
    by_cases first : name ∈ emitted extensions
    · exact .inl first
    · exact .inr (List.mem_filter.mpr ⟨there,decide_eq_true first⟩)

-- Two names of a sorted list stand as they are spelled.
theorem sorted_idxOf {names : List String} (sorted : names.Pairwise (· ≤ ·)) {x y : String}
    (left : x ∈ names) (right : y ∈ names) : names.idxOf x < names.idxOf y ↔ x < y := by
  have further : ∀ {x y}, x ∈ names → y ∈ names → names.idxOf x < names.idxOf y → x < y := by
    intro x y left right before
    have bound := List.idxOf_lt_length_of_mem right
    have smaller := List.pairwise_iff_getElem.mp sorted _ _ (before.trans bound) bound before
    rw [List.getElem_idxOf,List.getElem_idxOf] at smaller
    refine lt_of_le_of_ne smaller fun same => ?_
    rw [same] at before
    exact Nat.lt_irrefl _ before
  refine ⟨further left right,fun smaller => ?_⟩
  rcases Nat.lt_trichotomy (names.idxOf x) (names.idxOf y) with before | same | behind
  · exact before
  · rw [List.idxOf_inj left] at same
    rw [same] at smaller
    exact absurd smaller (lt_irrefl _)
  · exact absurd smaller (lt_asymm (further right left behind))

theorem remaining_position (left : dep ∈ remaining extensions) (right : name ∈ remaining extensions) :
    (topologicalSort extensions).idxOf dep < (topologicalSort extensions).idxOf name ↔ dep < name := by
  have inside := (sortNames_perm (remaining extensions)).mem_iff.mpr left
  have inside' := (sortNames_perm (remaining extensions)).mem_iff.mpr right
  rw [sort_parts,List.idxOf_append_of_notMem (emitted_apart inside),List.idxOf_append_of_notMem (emitted_apart inside'),Nat.add_lt_add_iff_left]
  exact sorted_idxOf (List.pairwise_insertionSort (· ≤ ·) _) inside inside'

-- Outside of what stands on or behind a cycle every edge is respected.
theorem edge_position (edge : Precedes extensions dep name) (smaller : Downstream (Precedes extensions) dep → dep < name) :
    (topologicalSort extensions).idxOf dep < (topologicalSort extensions).idxOf name := by
  obtain ⟨here,there⟩ := precedes_known edge
  by_cases emits : name ∈ emitted extensions
  · obtain ⟨inside,before⟩ := ordered_edge (emitted_ordered extensions) emits edge
    rwa [sort_parts,List.idxOf_append_of_mem inside,List.idxOf_append_of_mem emits]
  · by_cases early : dep ∈ emitted extensions
    · rw [sort_parts,List.idxOf_append_of_mem early,List.idxOf_append_of_notMem emits]
      exact Nat.lt_of_lt_of_le (List.idxOf_lt_length_of_mem early) (Nat.le_add_right _ _)
    · have downstream := (emitted_iff here).mp early
      have left : dep ∈ remaining extensions := List.mem_filter.mpr ⟨here,decide_eq_true early⟩
      have right : name ∈ remaining extensions := List.mem_filter.mpr ⟨there,decide_eq_true emits⟩
      exact (remaining_position left right).mpr (smaller downstream)

end Order

section Cycles
variable {extensions : List LoadedExtension} {semver : Semver} {name dep : String}

theorem lastEntry_listed {ext : LoadedExtension} (found : lastEntry extensions name = some ext) : ext ∈ extensions ∧ ext.name = name := by
  unfold lastEntry at found
  have named := List.find?_some found
  exact ⟨List.mem_reverse.mp (List.mem_of_find?_eq_some found),by simpa using named⟩

theorem lastPrecedes_precedes (edge : LastPrecedes extensions dep name) : Precedes extensions dep name := by
  obtain ⟨ext,found,key,there⟩ := edge
  obtain ⟨listed,named⟩ := lastEntry_listed found
  exact ⟨ext,listed,named,key,there⟩

theorem arc_iff {involved : List String} (within : ∀ x ∈ involved, x ∈ known extensions) :
    Arc (involvedDependencies extensions involved) name dep ↔ name ∈ involved ∧ dep ∈ involved ∧ LastPrecedes extensions dep name := by
  unfold Arc involvedDependencies LastPrecedes
  by_cases inside : name ∈ involved
  · rw [if_pos inside]
    cases found : lastEntry extensions name with
    | none => simp
    | some ext =>
      simp only [(sortNames_perm _).mem_iff,List.mem_filter,decide_eq_true_eq,Option.some.injEq]
      constructor
      · rintro ⟨key,there⟩
        exact ⟨inside,there,ext,rfl,key,mem_known.mp (within dep there)⟩
      · rintro ⟨-,there,_,rfl,key,-⟩
        exact ⟨key,there⟩
  · rw [if_neg inside]
    simp [inside]

theorem remaining_next (inside : dep ∈ remaining extensions) (edge : Precedes extensions dep name) : name ∈ remaining extensions := by
  obtain ⟨-,c,cycle,onward⟩ := mem_remaining.mp inside
  exact mem_remaining.mpr ⟨(precedes_known edge).2,c,cycle,onward.tail edge⟩

-- A cycle of the last entries lies among what Kahn's loop leaves over.
theorem last_cycle_remaining (cycle : TransGen (LastPrecedes extensions) name name) : name ∈ remaining extensions := by
  have whole : TransGen (Precedes extensions) name name := TransGen.mono (fun _ _ edge => lastPrecedes_precedes edge) _ _ cycle
  obtain ⟨y,-,edge⟩ := TransGen.tail'_iff.mp whole
  exact mem_remaining.mpr ⟨(precedes_known edge).2,name,whole,.refl⟩

theorem last_path_arcs (inside : dep ∈ remaining extensions) (path : TransGen (LastPrecedes extensions) dep name) :
    name ∈ remaining extensions ∧ TransGen (Arc (involvedDependencies extensions (remaining extensions))) name dep := by
  have within : ∀ x ∈ remaining extensions, x ∈ known extensions := fun x there => (List.mem_filter.mp there).1
  induction path with
  | single edge =>
    have there := remaining_next inside (lastPrecedes_precedes edge)
    exact ⟨there,.single ((arc_iff within).mpr ⟨there,inside,edge⟩)⟩
  | tail prior edge ih =>
    have there := remaining_next ih.1 (lastPrecedes_precedes edge)
    exact ⟨there,.head ((arc_iff within).mpr ⟨there,ih.1,edge⟩) ih.2⟩

theorem findCycles_exact (extensions : List LoadedExtension) :
    (∀ cycle ∈ findCycles extensions (remaining extensions), ClosedPath (DependsOn extensions) cycle) ∧
      (findCycles extensions (remaining extensions) = [] ↔ ¬∃ name, TransGen (LastPrecedes extensions) name name) := by
  have within : ∀ x ∈ remaining extensions, x ∈ known extensions := fun x inside => (List.mem_filter.mp inside).1
  have arcs : ∀ x y, Arc (involvedDependencies extensions (remaining extensions)) x y →
      x ∈ remaining extensions ∧ y ∈ remaining extensions ∧ LastPrecedes extensions y x := fun x y => (arc_iff within).mp
  obtain ⟨real,none⟩ := searchAll_exact (fun x _ y there => (arcs x y there).2.1) (sortNames (remaining extensions))
    (fun x => (sortNames_perm _).mem_iff) (Nat.le_refl (remaining extensions).length)
  refine ⟨fun cycle there => ?_,none.trans ⟨fun acyclic => ?_,fun acyclic x _ cycle => ?_⟩⟩
  · obtain ⟨⟨first,rest,whole,chain⟩,-⟩ := real cycle there
    exact ⟨first,rest,whole,chain.imp fun x y arc => lastPrecedes_precedes (arcs x y arc).2.2⟩
  · rintro ⟨name,cycle⟩
    have inside := last_cycle_remaining cycle
    exact acyclic name inside (last_path_arcs inside cycle).2
  · refine acyclic ⟨x,transGen_swap.mp ?_⟩
    exact TransGen.mono (fun y z arc => (arcs y z arc).2.2) _ _ cycle

theorem reported_cycles (semver : Semver) (extensions : List LoadedExtension) :
    (validateDependencies semver extensions).issues =
      dependencyIssues semver extensions ++ (findCycles extensions (remaining extensions)).map .circular := by
  have same : (computeTopologicalOrder extensions).2 = findCycles extensions (remaining extensions) := by
    show (if (remaining extensions).isEmpty then [] else _) = _
    split
    · rename_i empty
      rw [List.isEmpty_iff.mp empty]
      rfl
    · rfl
  show dependencyIssues semver extensions ++ ((computeTopologicalOrder extensions).2).map .circular = _
  rw [same]

theorem issues_met : dependencyIssues semver extensions = [] ↔ Met semver extensions := by
  unfold dependencyIssues Met
  rw [List.flatMap_eq_nil_iff]
  refine forall_congr' fun ext => imp_congr_right fun listed => ?_
  rw [List.filterMap_eq_nil_iff]
  constructor
  · intro none dep required inside
    have quiet := none (dep,required) inside
    simp only at quiet
    split at quiet
    · cases quiet
    · rename_i actual found
      split at quiet
      · exact ⟨actual,found,by assumption⟩
      · cases quiet
  · rintro met ⟨dep,required⟩ inside
    obtain ⟨actual,found,good⟩ := met dep required inside
    simp only [found,good,if_true]

theorem circular_reported {cycle : List String} : .circular cycle ∈ (validateDependencies semver extensions).issues ↔
    cycle ∈ findCycles extensions (remaining extensions) := by
  have apart : .circular cycle ∉ dependencyIssues semver extensions := by
    unfold dependencyIssues
    intro inside
    obtain ⟨ext,-,there⟩ := List.mem_flatMap.mp inside
    obtain ⟨⟨dep,required⟩,-,found⟩ := List.mem_filterMap.mp there
    simp only at found
    split at found
    · cases found
    · split at found <;> cases found
  rw [reported_cycles,List.mem_append,List.mem_map]
  constructor
  · rintro (inside | ⟨_,there,same⟩)
    · exact absurd inside apart
    · cases same
      exact there
  · exact fun there => .inr ⟨cycle,there,rfl⟩

end Cycles

theorem cyclic_of_last {extensions : List LoadedExtension} (last : ∃ name, TransGen (LastPrecedes extensions) name name) : Cyclic extensions := by
  obtain ⟨name,cycle⟩ := last
  exact ⟨name,TransGen.mono (fun _ _ edge => lastPrecedes_precedes edge) _ _ cycle⟩

-- Every list of extensions.
theorem load_order_iff (semver : Semver) (extensions : List LoadedExtension) : Sound semver extensions ↔ Fits extensions := by
  obtain ⟨real,none⟩ := findCycles_exact extensions
  constructor
  · intro sound
    constructor
    · intro dep name edge apart downstream
      have left : dep ∈ remaining extensions := mem_remaining.mpr ⟨(precedes_known edge).1,downstream⟩
      exact (remaining_position left (remaining_next left edge)).mp (sound.ordered dep name edge apart)
    · intro cyclic
      obtain ⟨cycle,there⟩ := sound.reported cyclic
      rw [circular_reported] at there
      refine Classical.byContradiction fun acyclic => ?_
      rw [none.mpr acyclic] at there
      cases there
  · intro fits
    have cycles : findCycles extensions (remaining extensions) = [] ↔ ¬Cyclic extensions :=
      none.trans (not_congr ⟨cyclic_of_last,fits.last⟩)
    refine ⟨sort_nodup extensions,fun name => mem_sort.trans mem_known,fun dep name edge apart => ?_,?_,fun cycle there => ?_,fun cyclic => ?_⟩
    · exact edge_position edge (fits.alphabetical dep name edge apart)
    · show (validateDependencies semver extensions).issues.isEmpty = true ↔ _
      rw [List.isEmpty_iff,reported_cycles,List.append_eq_nil_iff,List.map_eq_nil_iff,issues_met,cycles]
    · exact real cycle (circular_reported.mp there)
    · obtain ⟨cycle,there⟩ := List.exists_mem_of_ne_nil _ (mt cycles.mp (not_not.mpr cyclic))
      exact ⟨cycle,circular_reported.mpr there⟩

section Examples

def extension (name : String) (dependency : String) : LoadedExtension :=
  ⟨⟨name,"1.0.0",[(dependency,"^1.0.0")],List.nodup_singleton _⟩⟩

-- `x` and `y` form a cycle; `b` depends on it and `a` depends on `b`.
def behindCycle : List LoadedExtension := [extension "a" "b",extension "b" "x",extension "x" "y",extension "y" "x"]

-- As the crate takes the one version and the one requirement that occur.
def caretVersions : Semver := ⟨String,String,some,some,fun req version => req = "^" ++ version⟩

theorem dependent_comes_first : topologicalSort behindCycle = ["a","b","x","y"] ∧ ¬Sound caretVersions behindCycle := by
  have order : topologicalSort behindCycle = ["a","b","x","y"] := by decide +kernel
  refine ⟨order,fun sound => ?_⟩
  have edge : DependsOn behindCycle "a" "b" := ⟨extension "a" "b",List.mem_cons_self,rfl,by decide,by decide +kernel⟩
  have apart : ¬OnCommonCycle behindCycle "b" "a" := by
    rintro ⟨-,path⟩
    obtain ⟨y,⟨ext,listed,-,key,-⟩,-⟩ := TransGen.head'_iff.mp path
    revert key
    rcases (by simpa [behindCycle] using listed) with rfl | rfl | rfl | rfl <;> decide +kernel
  have before := sound.ordered "b" "a" edge apart
  rw [order] at before
  revert before
  decide +kernel

end Examples

end AlineaCopilot.ExtensionDependencies
