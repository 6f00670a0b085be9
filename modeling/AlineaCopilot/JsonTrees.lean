import Mathlib.Data.List.Perm.Subperm
import Mathlib.Order.Lattice

namespace AlineaCopilot.JsonTrees

-- A JSON value over any keys and scalars. The fields of an object stand in the
-- order in which a map iterates.
inductive Json (κ σ : Type) where
  | scalar (value : σ)
  | array (items : List (Json κ σ))
  | object (fields : List (κ × Json κ σ))

section Trees
variable {κ σ : Type}

theorem Json.tree {motive : Json κ σ → Prop} (scalar : ∀ s, motive (.scalar s))
    (array : ∀ items : List (Json κ σ), (∀ item ∈ items, motive item) → motive (.array items))
    (object : ∀ fields : List (κ × Json κ σ), (∀ field ∈ fields, motive field.2) → motive (.object fields)) (value : Json κ σ) : motive value :=
  @Json.rec κ σ motive (fun items => ∀ item ∈ items, motive item) (fun fields => ∀ field ∈ fields, motive field.2) (fun field => motive field.2)
    scalar array object (fun _ member => nomatch member) (fun _ _ head tail => List.forall_mem_cons.mpr ⟨head,tail⟩)
    (fun _ member => nomatch member) (fun _ _ head tail => List.forall_mem_cons.mpr ⟨head,tail⟩) (fun _ _ value => value) value

-- Every scalar of a value has a property.
inductive Json.Every (p : σ → Prop) : Json κ σ → Prop where
  | scalar (holds : p s) : Every p (.scalar s)
  | array (each : ∀ item ∈ items, Every p item) : Every p (.array items)
  | object (each : ∀ field ∈ fields, Every p field.2) : Every p (.object fields)

-- The same shape and the same keys, with related scalars.
inductive Json.Related (r : σ → σ → Prop) : Json κ σ → Json κ σ → Prop where
  | scalar (holds : r s t) : Related r (.scalar s) (.scalar t)
  | array (same : items.length = others.length) (each : ∀ pair ∈ items.zip others, Related r pair.1 pair.2) :
      Related r (.array items) (.array others)
  | object (keys : fields.map Prod.fst = others.map Prod.fst) (each : ∀ pair ∈ fields.zip others, Related r pair.1.2 pair.2.2) :
      Related r (.object fields) (.object others)

mutual
def Json.mapScalars (f : σ → σ) : Json κ σ → Json κ σ
  | .scalar s => .scalar (f s)
  | .array items => .array (Json.mapItems f items)
  | .object fields => .object (Json.mapFields f fields)
def Json.mapItems (f : σ → σ) : List (Json κ σ) → List (Json κ σ)
  | [] => []
  | item :: rest => item.mapScalars f :: Json.mapItems f rest
def Json.mapFields (f : σ → σ) : List (κ × Json κ σ) → List (κ × Json κ σ)
  | [] => []
  | (key,value) :: rest => (key,value.mapScalars f) :: Json.mapFields f rest
end

theorem mapItems_map (f : σ → σ) (items : List (Json κ σ)) : Json.mapItems f items = items.map (Json.mapScalars f) := by
  induction items with
  | nil => rfl
  | cons item rest ih => exact congrArg _ ih

theorem mapFields_map (f : σ → σ) (fields : List (κ × Json κ σ)) :
    Json.mapFields f fields = fields.map fun field => (field.1,field.2.mapScalars f) := by
  induction fields with
  | nil => rfl
  | cons field rest ih => exact congrArg _ ih

theorem mapScalars_scalar (f : σ → σ) (s : σ) : (Json.scalar s : Json κ σ).mapScalars f = .scalar (f s) := rfl

theorem mapScalars_array (f : σ → σ) (items : List (Json κ σ)) :
    (Json.array items).mapScalars f = .array (items.map (Json.mapScalars f)) :=
  congrArg Json.array (mapItems_map f items)

theorem mapScalars_object (f : σ → σ) (fields : List (κ × Json κ σ)) :
    (Json.object fields).mapScalars f = .object (fields.map fun field => (field.1,field.2.mapScalars f)) :=
  congrArg Json.object (mapFields_map f fields)

theorem every_mono {p q : σ → Prop} {value : Json κ σ} (weaker : ∀ s, p s → q s) (holds : value.Every p) : value.Every q := by
  induction holds with
  | scalar holds => exact .scalar (weaker _ holds)
  | array _ ih => exact .array ih
  | object _ ih => exact .object ih

theorem every_iff {p q : σ → Prop} (same : ∀ s, p s ↔ q s) (value : Json κ σ) : value.Every p ↔ value.Every q :=
  ⟨every_mono fun s => (same s).mp,every_mono fun s => (same s).mpr⟩

theorem every_array {p : σ → Prop} {items : List (Json κ σ)} : (Json.array items).Every p ↔ ∀ item ∈ items, item.Every p :=
  ⟨fun | .array each => each,.array⟩

theorem every_object {p : σ → Prop} {fields : List (κ × Json κ σ)} : (Json.object fields).Every p ↔ ∀ field ∈ fields, field.2.Every p :=
  ⟨fun | .object each => each,.object⟩

theorem every_scalar {p : σ → Prop} {s : σ} : (Json.scalar s : Json κ σ).Every p ↔ p s :=
  ⟨fun | .scalar holds => holds,.scalar⟩

theorem map_same_iff {α : Type} {f : α → α} {items : List α} : items.map f = items ↔ ∀ item ∈ items, f item = item := by
  induction items with
  | nil => exact ⟨fun _ _ member => absurd member List.not_mem_nil,fun _ => rfl⟩
  | cons item rest ih => rw [List.map_cons,List.cons.injEq,ih,List.forall_mem_cons]

theorem mapScalars_same_iff (f : σ → σ) (value : Json κ σ) : value.mapScalars f = value ↔ value.Every fun s => f s = s := by
  induction value using Json.tree with
  | scalar s => rw [every_scalar,mapScalars_scalar,Json.scalar.injEq]
  | array items ih =>
    rw [mapScalars_array,Json.array.injEq,map_same_iff,every_array]
    exact forall₂_congr ih
  | object fields ih =>
    rw [mapScalars_object,Json.object.injEq,map_same_iff,every_object]
    refine forall₂_congr fun field member => ?_
    rw [← ih field member,Prod.ext_iff]
    exact and_iff_right rfl

theorem zip_map_iff {α β : Type} {f : α → β} {items : List α} {p : α × β → Prop} :
    (∀ pair ∈ items.zip (items.map f), p pair) ↔ ∀ item ∈ items, p (item,f item) := by
  induction items with
  | nil => exact ⟨fun _ _ member => absurd member List.not_mem_nil,fun _ _ member => absurd member List.not_mem_nil⟩
  | cons item rest ih => rw [List.map_cons,List.zip_cons_cons,List.forall_mem_cons,List.forall_mem_cons,ih]

theorem map_keys {f : Json κ σ → Json κ σ} (fields : List (κ × Json κ σ)) :
    (fields.map fun field => (field.1,f field.2)).map Prod.fst = fields.map Prod.fst := by
  rw [List.map_map]
  rfl

-- Changing the scalars keeps the shape and the keys.
theorem related_mapScalars_iff (r : σ → σ → Prop) (f : σ → σ) (value : Json κ σ) :
    value.Related r (value.mapScalars f) ↔ value.Every fun s => r s (f s) := by
  induction value using Json.tree with
  | scalar s => exact ⟨fun | .scalar holds => .scalar holds,fun | .scalar holds => .scalar holds⟩
  | array items ih =>
    rw [mapScalars_array,every_array]
    constructor
    · rintro ⟨⟩
      rename_i same each
      exact fun item member => (ih item member).mp (zip_map_iff.mp each item member)
    · intro each
      exact .array (List.length_map _).symm (zip_map_iff.mpr fun item member => (ih item member).mpr (each item member))
  | object fields ih =>
    rw [mapScalars_object,every_object]
    constructor
    · rintro ⟨⟩
      rename_i keys each
      exact fun field member => (ih field member).mp (zip_map_iff.mp each field member)
    · intro each
      exact .object (map_keys fields).symm (zip_map_iff.mpr fun field member => (ih field member).mpr (each field member))

end Trees

-- A map that iterates in the order of its keys.
section Maps
variable {κ β : Type} [LinearOrder κ]

def Ascending (fields : List (κ × β)) : Prop := fields.Pairwise fun first second => first.1 < second.1

-- `insert`. An entry with the key gets the new value.
def insertField (key : κ) (value : β) : List (κ × β) → List (κ × β)
  | [] => [(key,value)]
  | field :: rest =>
    if key < field.1 then (key,value) :: field :: rest
    else if key = field.1 then (key,value) :: rest
    else field :: insertField key value rest

def removeField (key : κ) (fields : List (κ × β)) : List (κ × β) := fields.filter fun field => field.1 ≠ key

-- A map from its entries. The last entry with a key wins.
def collect (entries : List (κ × β)) : List (κ × β) := entries.foldl (fun fields entry => insertField entry.1 entry.2 fields) []

variable {key : κ} {value : β} {field : κ × β} {fields : List (κ × β)}

theorem insertField_cons : insertField key value (field :: fields) =
    if key < field.1 then (key,value) :: field :: fields
    else if key = field.1 then (key,value) :: fields
    else field :: insertField key value fields := rfl

theorem insertField_keys (key : κ) (value : β) (fields : List (κ × β)) (k : κ) :
    k ∈ (insertField key value fields).map Prod.fst ↔ k = key ∨ k ∈ fields.map Prod.fst := by
  induction fields with
  | nil => exact List.mem_cons
  | cons field rest ih =>
    rw [insertField_cons]
    split
    · exact List.mem_cons
    · split
      · rename_i same
        rw [List.map_cons,List.mem_cons,List.map_cons,List.mem_cons,← same]
        exact ⟨Or.inr,fun | .inl found => .inl found | .inr found => found⟩
      · rw [List.map_cons,List.mem_cons,ih,List.map_cons,List.mem_cons]
        exact or_left_comm

theorem insertField_sub (member : field ∈ insertField key value fields) : field = (key,value) ∨ field ∈ fields := by
  induction fields with
  | nil => exact Or.inl (List.mem_singleton.mp member)
  | cons first rest ih =>
    rw [insertField_cons] at member
    split at member
    · exact List.mem_cons.mp member
    · split at member
      · rcases List.mem_cons.mp member with same | inner
        · exact Or.inl same
        · exact Or.inr (List.mem_cons_of_mem _ inner)
      · rcases List.mem_cons.mp member with same | inner
        · exact Or.inr (same ▸ List.mem_cons_self)
        · exact (ih inner).imp_right (List.mem_cons_of_mem _)

theorem Ascending.insert (ascending : Ascending fields) (key : κ) (value : β) : Ascending (insertField key value fields) := by
  induction fields with
  | nil => exact List.pairwise_singleton _ _
  | cons field rest ih =>
    obtain ⟨above,later⟩ := List.pairwise_cons.mp ascending
    rw [insertField_cons]
    split
    · rename_i below
      refine List.pairwise_cons.mpr ⟨fun other member => ?_,ascending⟩
      rcases List.mem_cons.mp member with rfl | inner
      · exact below
      · exact lt_trans below (above other inner)
    · split
      · rename_i same
        refine List.pairwise_cons.mpr ⟨fun other member => ?_,later⟩
        rw [same]
        exact above other member
      · rename_i notBelow other
        refine List.pairwise_cons.mpr ⟨fun found member => ?_,ih later⟩
        rcases (insertField_keys key value rest found.1).mp (List.mem_map_of_mem member) with same | inner
        · rw [same]
          exact lt_of_le_of_ne (not_lt.mp notBelow) fun same => other same.symm
        · obtain ⟨old,member,same⟩ := List.mem_map.mp inner
          exact same ▸ above old member

theorem Ascending.nodup (ascending : Ascending fields) : (fields.map Prod.fst).Nodup :=
  List.pairwise_map.mpr (ascending.imp ne_of_lt)

theorem insertField_perm (fresh : key ∉ fields.map Prod.fst) : (insertField key value fields).Perm ((key,value) :: fields) := by
  induction fields with
  | nil => exact List.Perm.refl _
  | cons field rest ih =>
    rw [List.map_cons,List.mem_cons,not_or] at fresh
    rw [insertField_cons]
    split
    · exact List.Perm.refl _
    · rw [if_neg fresh.1]
      exact ((ih fresh.2).cons field).trans (List.Perm.swap _ _ _)

-- An entry with the key is there, so the new one takes its place.
theorem insertField_length (ascending : Ascending fields) (known : key ∈ fields.map Prod.fst) :
    (insertField key value fields).length = fields.length := by
  induction fields with
  | nil => cases known
  | cons field rest ih =>
    obtain ⟨above,later⟩ := List.pairwise_cons.mp ascending
    rw [insertField_cons]
    split
    · rename_i below
      rcases List.mem_cons.mp known with same | inner
      · exact absurd same (ne_of_lt below)
      · obtain ⟨old,member,same⟩ := List.mem_map.mp inner
        exact absurd (same ▸ above old member) (not_lt_of_gt below)
    · split
      · rfl
      · rename_i other
        rw [List.length_cons,List.length_cons,ih later ((List.mem_cons.mp known).resolve_left other)]

theorem insertField_same (ascending : Ascending fields) (member : (key,value) ∈ fields) : insertField key value fields = fields := by
  induction fields with
  | nil => cases member
  | cons field rest ih =>
    obtain ⟨above,later⟩ := List.pairwise_cons.mp ascending
    rw [insertField_cons]
    rcases List.mem_cons.mp member with rfl | inner
    · rw [if_neg (lt_irrefl key),if_pos rfl]
    · have below := above _ inner
      rw [if_neg (not_lt_of_gt below),if_neg (ne_of_gt below),ih later inner]

theorem mem_insertField (key : κ) (value : β) (fields : List (κ × β)) : (key,value) ∈ insertField key value fields := by
  induction fields with
  | nil => exact List.mem_cons_self
  | cons field rest ih =>
    rw [insertField_cons]
    split
    · exact List.mem_cons_self
    · split
      · exact List.mem_cons_self
      · exact List.mem_cons_of_mem _ ih

theorem insertField_other (other : field.1 ≠ key) (member : field ∈ fields) : field ∈ insertField key value fields := by
  induction fields with
  | nil => cases member
  | cons first rest ih =>
    rw [insertField_cons]
    split
    · exact List.mem_cons_of_mem _ member
    · split
      · rename_i same
        rcases List.mem_cons.mp member with rfl | inner
        · exact absurd same.symm other
        · exact List.mem_cons_of_mem _ inner
      · rcases List.mem_cons.mp member with rfl | inner
        · exact List.mem_cons_self
        · exact List.mem_cons_of_mem _ (ih inner)

theorem removeField_other (other : field.1 ≠ key) : removeField key (field :: fields) = field :: removeField key fields :=
  List.filter_cons_of_pos (p := fun field : κ × β => field.1 ≠ key) (decide_eq_true other)

theorem removeField_here : removeField key ((key,value) :: fields) = removeField key fields :=
  List.filter_cons_of_neg (p := fun field : κ × β => field.1 ≠ key) (by simp)

theorem removeField_fresh (key : κ) (fields : List (κ × β)) : key ∉ (removeField key fields).map Prod.fst := by
  intro member
  obtain ⟨field,inside,same⟩ := List.mem_map.mp member
  exact of_decide_eq_true (List.mem_filter.mp inside).2 same

theorem removeField_same (fresh : key ∉ fields.map Prod.fst) : removeField key fields = fields :=
  List.filter_eq_self.mpr fun _ member => decide_eq_true fun same => fresh (same ▸ List.mem_map_of_mem member)

theorem removeField_insert (fresh : key ∉ fields.map Prod.fst) : removeField key (insertField key value fields) = fields := by
  induction fields with
  | nil => exact removeField_here
  | cons field rest ih =>
    have whole := removeField_same fresh
    rw [List.map_cons,List.mem_cons,not_or] at fresh
    rw [insertField_cons]
    split
    · rw [removeField_here,whole]
    · rw [if_neg fresh.1,removeField_other fun same => fresh.1 same.symm,ih fresh.2]

section Collect
variable {entries : List (κ × β)}

theorem foldl_ascending (ascending : Ascending fields) :
    Ascending (entries.foldl (fun fields entry => insertField entry.1 entry.2 fields) fields) := by
  induction entries generalizing fields with
  | nil => exact ascending
  | cons entry rest ih => exact ih (ascending.insert entry.1 entry.2)

theorem collect_ascending (entries : List (κ × β)) : Ascending (collect entries) := foldl_ascending List.Pairwise.nil

theorem foldl_perm (ascending : Ascending fields) (apart : ((fields ++ entries).map Prod.fst).Nodup) :
    (entries.foldl (fun fields entry => insertField entry.1 entry.2 fields) fields).Perm (fields ++ entries) := by
  induction entries generalizing fields with
  | nil =>
    rw [List.append_nil]
    exact List.Perm.refl _
  | cons entry rest ih =>
    have moved : (fields ++ entry :: rest).Perm (entry :: fields ++ rest) := List.perm_middle
    have fresh : entry.1 ∉ fields.map Prod.fst := by
      have first := (moved.map Prod.fst).nodup_iff.mp apart
      rw [List.cons_append,List.map_cons,List.nodup_cons,List.map_append,List.mem_append,not_or] at first
      exact first.1.1
    have placed : (insertField entry.1 entry.2 fields ++ rest).Perm (entry :: fields ++ rest) := (insertField_perm fresh).append_right rest
    have later := ih (ascending.insert entry.1 entry.2) (((placed.trans moved.symm).map Prod.fst).nodup_iff.mpr apart)
    exact later.trans (placed.trans moved.symm)

theorem foldl_sub {fields : List (κ × β)} (member : field ∈ entries.foldl (fun fields entry => insertField entry.1 entry.2 fields) fields) :
    field ∈ fields ∨ field ∈ entries := by
  induction entries generalizing fields with
  | nil => exact Or.inl member
  | cons entry rest ih =>
    rcases ih member with earlier | later
    · exact (insertField_sub earlier).elim (fun same => Or.inr (same ▸ List.mem_cons_self)) Or.inl
    · exact Or.inr (List.mem_cons_of_mem _ later)

theorem collect_sub (member : field ∈ collect entries) : field ∈ entries := (foldl_sub member).resolve_left List.not_mem_nil

-- No entry is lost exactly when no two have the same key.
theorem collect_perm (apart : (entries.map Prod.fst).Nodup) : (collect entries).Perm entries :=
  foldl_perm List.Pairwise.nil apart

theorem foldl_keys (entries fields : List (κ × β)) (k : κ) :
    k ∈ (entries.foldl (fun fields entry => insertField entry.1 entry.2 fields) fields).map Prod.fst ↔
      k ∈ fields.map Prod.fst ∨ k ∈ entries.map Prod.fst := by
  induction entries generalizing fields with
  | nil => simp
  | cons entry rest ih =>
    rw [List.foldl_cons,ih,insertField_keys,List.map_cons,List.mem_cons]
    tauto

theorem collect_nodup (long : (collect entries).length = entries.length) : (entries.map Prod.fst).Nodup := by
  have unique := (collect_ascending entries).nodup
  have inside : (collect entries).map Prod.fst ⊆ entries.map Prod.fst := fun k member =>
    ((foldl_keys entries [] k).mp member).resolve_left List.not_mem_nil
  have whole := (List.subperm_of_subset unique inside).perm_of_length_le (by rw [List.length_map,List.length_map,long])
  exact whole.nodup unique

theorem collect_same (ascending : Ascending entries) : collect entries = entries := by
  refine List.Perm.eq_of_pairwise ?_ (collect_ascending entries) ascending (collect_perm ascending.nodup)
  intro first second _ _ below above
  exact absurd below (not_lt_of_gt above)

end Collect

end Maps

-- The fields of every object ascend.
inductive Json.Sorted {κ σ : Type} [LinearOrder κ] : Json κ σ → Prop where
  | scalar : Sorted (.scalar s)
  | array (each : ∀ item ∈ items, Sorted item) : Sorted (.array items)
  | object (keys : Ascending fields) (each : ∀ field ∈ fields, Sorted field.2) : Sorted (.object fields)

structure Value (κ σ : Type) [LinearOrder κ] where
  tree : Json κ σ
  sorted : tree.Sorted

end AlineaCopilot.JsonTrees
