import Mathlib.Data.List.Induction
import AlineaCopilot.KeyedMaps

open AlineaCopilot.KeyedMaps

namespace AlineaCopilot.LinkedTrees

universe u v
variable {N : Type u} {C : Type v}

-- A path as the system walks it, one piece after another.
inductive Move (N : Type u) where
  | here
  | up
  | into (name : N)
deriving DecidableEq, Repr

inductive Node (N : Type u) (C : Type v) where
  | file (content : C)
  | dir
  | link (absolute : Bool) (target : List (Move N))
deriving DecidableEq, Repr

-- The names from the root down.
abbrev Place (N : Type u) := List N

variable [DecidableEq N]

-- Whatever is recorded lies in a directory. The root is always one and is not recorded.
structure Tree (N : Type u) (C : Type v) [DecidableEq N] where
  nodes : KeyedMap (Place N) (Node N C)
  rooted : nodes.lookup [] = none
  closed : ∀ place name, nodes.lookup (place ++ [name]) ≠ none → place = [] ∨ nodes.lookup place = some .dir

section Places
variable {tree : Tree N C} {place rest : Place N} {name : N}

def Tree.node (tree : Tree N C) (place : Place N) : Option (Node N C) := if place = [] then some .dir else tree.nodes.lookup place

def Tree.isDir (tree : Tree N C) (place : Place N) : Bool :=
  match tree.node place with
  | some .dir => true
  | _ => false

theorem isDir_iff : tree.isDir place = true ↔ tree.node place = some .dir := by
  rw [Tree.isDir]
  split
  · rename_i found
    exact ⟨fun _ => found,fun _ => rfl⟩
  · rename_i other
    refine ⟨fun claimed => ?_,fun found => (other found).elim⟩
    cases claimed

@[simp] theorem node_root : tree.node [] = some .dir := rfl

theorem node_deep (deep : place ≠ []) : tree.node place = tree.nodes.lookup place := if_neg deep

theorem node_inside (place : Place N) (name : N) : tree.node (place ++ [name]) = tree.nodes.lookup (place ++ [name]) := node_deep (by simp)

theorem node_parent (present : (tree.node (place ++ [name])).isSome) : tree.node place = some .dir := by
  rw [node_inside] at present
  rcases tree.closed place name (Option.isSome_iff_ne_none.mp present) with rfl | held
  · rfl
  · rw [Tree.node]
    split
    · rfl
    · exact held

theorem node_above (present : (tree.node (place ++ rest)).isSome) (more : rest ≠ []) : tree.node place = some .dir := by
  induction rest using List.reverseRecOn with
  | nil => exact absurd rfl more
  | append_singleton before last ih =>
    rw [← List.append_assoc] at present
    have parent := node_parent present
    by_cases none_between : before = []
    · rw [none_between,List.append_nil] at parent
      exact parent
    · exact ih (by rw [parent]; rfl) none_between

theorem node_dropLast (present : tree.node place = some .dir) : tree.node place.dropLast = some .dir := by
  rcases List.eq_nil_or_concat place with rfl | ⟨before,last,rfl⟩
  · rfl
  · rw [List.concat_eq_append] at present ⊢
    rw [List.dropLast_concat]
    exact node_parent (by rw [present]; rfl)

end Places

-- What is done with the last name of a path: a link there is followed, or taken for
-- itself, or the name may be new.
inductive Last where
  | follow
  | stay
  | create
deriving DecidableEq

inductive Walk (N : Type u) where
  | found (place : Place N)
  | lost
  | through (base : Place N) (rest : List (Move N))

def walk (tree : Tree N C) (last : Last) (place : Place N) : List (Move N) → Walk N
  | [] => .found place
  | .here :: rest => if tree.isDir place then walk tree last place rest else .lost
  | .up :: rest => if tree.isDir place then walk tree last place.dropLast rest else .lost
  | .into name :: rest =>
    if tree.isDir place then
      match tree.node (place ++ [name]) with
      | none => if rest.isEmpty && last = .create then .found (place ++ [name]) else .lost
      | some (.link absolute target) =>
        if rest.isEmpty && last = .stay then .found (place ++ [name])
        else .through (if absolute then [] else place) (target ++ rest)
      | some (.file _) | some .dir => walk tree last (place ++ [name]) rest
    else .lost

-- The system gives up after so many links.
def resolve (tree : Tree N C) (last : Last) : Nat → Place N → List (Move N) → Option (Place N)
  | 0,place,moves => match walk tree last place moves with
    | .found found => some found
    | _ => none
  | links + 1,place,moves => match walk tree last place moves with
    | .found found => some found
    | .lost => none
    | .through base rest => resolve tree last links base rest

section Resolution
variable {tree : Tree N C} {place found base : Place N} {moves rest : List (Move N)} {last : Last} {links : Nat}

theorem walk_here : walk tree last place (.here :: rest) = if tree.isDir place then walk tree last place rest else .lost := rfl

theorem walk_up : walk tree last place (.up :: rest) = if tree.isDir place then walk tree last place.dropLast rest else .lost := rfl

theorem walk_into {name : N} : walk tree last place (.into name :: rest) =
    if tree.isDir place then
      match tree.node (place ++ [name]) with
      | none => if rest.isEmpty && last = .create then .found (place ++ [name]) else .lost
      | some (.link absolute target) =>
        if rest.isEmpty && last = .stay then .found (place ++ [name])
        else .through (if absolute then [] else place) (target ++ rest)
      | some (.file _) | some .dir => walk tree last (place ++ [name]) rest
    else .lost := rfl

theorem walk_closed {move : Move N} (closed : tree.isDir place = false) : walk tree last place (move :: rest) = .lost := by
  have shut : ¬tree.isDir place = true := by simp [closed]
  cases move with
  | here => exact if_neg shut
  | up => exact if_neg shut
  | into name => exact if_neg shut

theorem resolve_zero : resolve tree last 0 place moves = match walk tree last place moves with
    | .found found => some found
    | _ => none := rfl

theorem resolve_succ : resolve tree last (links + 1) place moves = match walk tree last place moves with
    | .found found => some found
    | .lost => none
    | .through base rest => resolve tree last links base rest := rfl

-- Only a directory is walked on from, and what is found is there.
theorem walk_present (start : (tree.node place).isSome) (ends : last ≠ .create) (done : walk tree last place moves = .found found) :
    (tree.node found).isSome := by
  induction moves generalizing place with
  | nil =>
    cases done
    exact start
  | cons move rest ih =>
    cases move with
    | here =>
      rw [walk_here] at done
      split at done
      · exact ih start done
      · cases done
    | up =>
      rw [walk_up] at done
      split at done
      · rename_i dir
        exact ih (by rw [node_dropLast (isDir_iff.mp dir)]; rfl) done
      · cases done
    | into name =>
      rw [walk_into] at done
      split at done
      · split at done
        · rw [if_neg (by simp [ends])] at done
          cases done
        · rename_i there
          split at done
          · cases done
            rw [there]
            rfl
          · cases done
        · rename_i there
          exact ih (by rw [there]; rfl) done
        · rename_i there
          exact ih (by rw [there]; rfl) done
      · cases done

theorem walk_through (start : tree.node place = some .dir) (done : walk tree last place moves = .through base rest) :
    tree.node base = some .dir := by
  induction moves generalizing place with
  | nil => cases done
  | cons move moves ih =>
    cases move with
    | here =>
      rw [walk_here] at done
      split at done
      · exact ih start done
      · cases done
    | up =>
      rw [walk_up] at done
      split at done
      · exact ih (node_dropLast start) done
      · cases done
    | into name =>
      rw [walk_into] at done
      split at done
      · split at done
        · split at done <;> cases done
        · split at done
          · cases done
          · cases done
            split
            · rfl
            · exact start
        · rename_i there
          cases moves with
          | nil => cases done
          | cons next more =>
            have closed : tree.isDir (place ++ [name]) = false := by
              rw [Tree.isDir,there]
            rw [walk_closed closed] at done
            cases done
        · rename_i there
          exact ih there done
      · cases done

theorem resolve_present (start : tree.node place = some .dir) (ends : last ≠ .create) (done : resolve tree last links place moves = some found) :
    (tree.node found).isSome := by
  induction links generalizing place moves with
  | zero =>
    rw [resolve_zero] at done
    split at done
    · rename_i walked
      cases done
      exact walk_present (by rw [start]; rfl) ends walked
    · cases done
  | succ links ih =>
    rw [resolve_succ] at done
    split at done
    · rename_i walked
      cases done
      exact walk_present (by rw [start]; rfl) ends walked
    · cases done
    · rename_i walked
      exact ih (walk_through start walked) done

-- Behind a link that is followed stands no link.
theorem walk_follow (start : tree.node place = some .dir) (done : walk tree .follow place moves = .found found) :
    ∀ absolute target, tree.node found ≠ some (.link absolute target) := by
  induction moves generalizing place with
  | nil =>
    cases done
    intro absolute target same
    cases start.symm.trans same
  | cons move moves ih =>
    cases move with
    | here =>
      rw [walk_here] at done
      split at done
      · exact ih start done
      · cases done
    | up =>
      rw [walk_up] at done
      split at done
      · exact ih (node_dropLast start) done
      · cases done
    | into name =>
      rw [walk_into] at done
      split at done
      · split at done
        · rw [if_neg (by simp)] at done
          cases done
        · rw [if_neg (by simp)] at done
          cases done
        · rename_i content there
          cases moves with
          | nil =>
            cases done
            intro absolute target same
            cases there.symm.trans same
          | cons next more =>
            have closed : tree.isDir (place ++ [name]) = false := by
              rw [Tree.isDir,there]
            rw [walk_closed closed] at done
            cases done
        · rename_i there
          exact ih there done
      · cases done

theorem resolve_follow (start : tree.node place = some .dir) (done : resolve tree .follow links place moves = some found) :
    ∀ absolute target, tree.node found ≠ some (.link absolute target) := by
  induction links generalizing place moves with
  | zero =>
    rw [resolve_zero] at done
    split at done
    · rename_i walked
      cases done
      exact walk_follow start walked
    · cases done
  | succ links ih =>
    rw [resolve_succ] at done
    split at done
    · rename_i walked
      cases done
      exact walk_follow start walked
    · cases done
    · rename_i walked
      exact ih (walk_through start walked) done

-- A place that has been found is found again under its own names.
theorem walk_place {rest : Place N} (start : tree.node place = some .dir) (present : (tree.node (place ++ rest)).isSome)
    (plain : last = .stay ∨ ∀ absolute target, tree.node (place ++ rest) ≠ some (.link absolute target)) :
    walk tree last place (rest.map .into) = .found (place ++ rest) := by
  induction rest generalizing place with
  | nil =>
    rw [List.append_nil]
    rfl
  | cons name rest ih =>
    have whole : place ++ name :: rest = (place ++ [name]) ++ rest := by rw [List.append_assoc,List.singleton_append]
    rw [whole] at present plain ⊢
    rw [List.map_cons,walk_into,if_pos (isDir_iff.mpr start)]
    by_cases more : rest = []
    · subst more
      rw [List.append_nil] at present plain ⊢
      obtain ⟨node,there⟩ := Option.isSome_iff_exists.mp present
      cases node with
      | file content =>
        rw [there]
        rfl
      | dir =>
        rw [there]
        rfl
      | link absolute target =>
        rcases plain with rfl | plain
        · rw [there]
          rfl
        · exact absurd there (plain absolute target)
    · have there := node_above present more
      rw [there]
      exact ih there present plain

theorem resolve_place (present : (tree.node place).isSome)
    (plain : last = .stay ∨ ∀ absolute target, tree.node place ≠ some (.link absolute target)) :
    resolve tree last links [] (place.map .into) = some place := by
  have walked : walk tree last [] (place.map .into) = .found place := walk_place node_root present plain
  cases links with
  | zero => rw [resolve_zero,walked]
  | succ links => rw [resolve_succ,walked]

end Resolution

section Keys
variable {K : Type u} {V : Type v} [DecidableEq K]

def keepKeys (kept : K → Bool) (map : KeyedMap K V) : KeyedMap K V :=
  ⟨map.entries.filter fun entry => kept entry.1,List.NodupKeys.sublist List.filter_sublist map.nodupKeys⟩

theorem lookup_keepKeys (kept : K → Bool) (map : KeyedMap K V) (key : K) :
    (keepKeys kept map).lookup key = if kept key then map.lookup key else none := by
  ext value
  rw [← mem_entries_iff,keepKeys]
  split
  · rename_i stays
    rw [← mem_entries_iff]
    exact List.mem_filter.trans (and_iff_left stays)
  · rename_i goes
    exact ⟨fun inside => absurd (List.mem_filter.mp inside).2 goes,fun none_there => by cases none_there⟩

end Keys

section Removal
variable {tree : Tree N C} {place other : Place N}

theorem keepKeys_rooted (tree : Tree N C) (kept : Place N → Bool) : (keepKeys kept tree.nodes).lookup [] = none := by
  rw [lookup_keepKeys,tree.rooted]
  split <;> rfl

theorem keepKeys_closed (tree : Tree N C) {kept : Place N → Bool} (up : ∀ place name, kept (place ++ [name]) = true → place ≠ [] → kept place = true)
    (place : Place N) (name : N) (present : (keepKeys kept tree.nodes).lookup (place ++ [name]) ≠ none) :
    place = [] ∨ (keepKeys kept tree.nodes).lookup place = some .dir := by
  rw [lookup_keepKeys] at present ⊢
  split at present
  · rename_i stays
    rcases tree.closed place name present with root | dir
    · exact .inl root
    · by_cases root : place = []
      · exact .inl root
      · rw [if_pos (up place name stays root)]
        exact .inr dir
  · exact absurd rfl present

-- Without what is at the place and below it.
def Tree.without (tree : Tree N C) (place : Place N) : Tree N C where
  nodes := keepKeys (fun other => !decide (place <+: other)) tree.nodes
  rooted := keepKeys_rooted tree _
  closed := keepKeys_closed tree fun other name stays _ => by
    simp only [Bool.not_eq_true',decide_eq_false_iff_not] at stays ⊢
    exact fun inside => stays (inside.trans (List.prefix_append _ _))

-- Without what is below the place.
def Tree.emptied (tree : Tree N C) (place : Place N) : Tree N C where
  nodes := keepKeys (fun other => !decide (place <+: other ∧ other ≠ place)) tree.nodes
  rooted := keepKeys_rooted tree _
  closed := keepKeys_closed tree fun other name stays _ => by
    simp only [Bool.not_eq_true',decide_eq_false_iff_not] at stays ⊢
    refine fun inside => stays ⟨inside.1.trans (List.prefix_append _ _),fun same => ?_⟩
    have shorter := inside.1.length_le
    rw [← same,List.length_append,List.length_singleton] at shorter
    omega

end Removal

end AlineaCopilot.LinkedTrees
