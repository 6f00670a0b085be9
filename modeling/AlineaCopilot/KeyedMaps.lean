import Mathlib.Data.List.AList

namespace AlineaCopilot.KeyedMaps

universe u v w
variable {K : Type u} {V : Type v} {W : Type w}

-- A hash map whose keys and values have one type each. Distinct keys are part
-- of `AList`; the order of the entries stands for one order of iteration.
abbrev KeyedMap (K : Type u) (V : Type v) := AList (fun _ : K => V)

def values (m : KeyedMap K V) : List V := m.entries.map Sigma.snd

def mapValues (f : V → V) (m : KeyedMap K V) : KeyedMap K V :=
  ⟨m.entries.map fun entry => ⟨entry.1,f entry.2⟩,by
    have keys : (m.entries.map fun entry => (⟨entry.1,f entry.2⟩ : Sigma fun _ : K => V)).keys = m.entries.keys := by
      simp [List.keys]
    simpa only [List.NodupKeys,keys] using m.nodupKeys⟩

theorem entries_mapValues (f : V → V) (m : KeyedMap K V) :
    (mapValues f m).entries = m.entries.map fun entry => ⟨entry.1,f entry.2⟩ := rfl

@[simp] theorem length_mapValues (f : V → V) (m : KeyedMap K V) :
    (mapValues f m).entries.length = m.entries.length := by simp [mapValues]

-- Another value for each entry, made from its key and its value.
def mapEntries (f : K → V → W) (m : KeyedMap K V) : KeyedMap K W :=
  ⟨m.entries.map fun entry => ⟨entry.1,f entry.1 entry.2⟩,by
    have keys : (m.entries.map fun entry => (⟨entry.1,f entry.1 entry.2⟩ : Sigma fun _ : K => W)).keys = m.entries.keys := by
      simp [List.keys]
    simpa only [List.NodupKeys,keys] using m.nodupKeys⟩

def keep (p : V → Bool) (m : KeyedMap K V) : KeyedMap K V :=
  ⟨m.entries.filter fun entry => p entry.2,List.NodupKeys.sublist List.filter_sublist m.nodupKeys⟩

theorem values_nil_iff (m : KeyedMap K V) : values m = [] ↔ m.entries = [] := by simp [values]

variable [DecidableEq K]

theorem mem_entries_iff (m : KeyedMap K V) : (⟨k,v⟩ : Sigma fun _ : K => V) ∈ m.entries ↔ m.lookup k = some v :=
  (AList.mem_lookup_iff (s := m)).symm

theorem mem_values (m : KeyedMap K V) : v ∈ values m ↔ ∃ k, m.lookup k = some v := by
  simp only [values,List.mem_map,Sigma.exists]
  constructor
  · rintro ⟨k,w,member,rfl⟩
    exact ⟨k,(mem_entries_iff m).mp member⟩
  · rintro ⟨k,found⟩
    exact ⟨k,v,(mem_entries_iff m).mpr found,rfl⟩

@[simp] theorem lookup_mapValues (f : V → V) (m : KeyedMap K V) (k : K) :
    (mapValues f m).lookup k = (m.lookup k).map f := by
  ext v
  rw [← mem_entries_iff,entries_mapValues]
  simp only [List.mem_map,Sigma.mk.injEq,Sigma.exists,Option.map_eq_some_iff]
  constructor
  · rintro ⟨key,w,member,rfl,same⟩
    exact ⟨w,(mem_entries_iff m).mp member,eq_of_heq same⟩
  · rintro ⟨w,found,rfl⟩
    exact ⟨k,w,(mem_entries_iff m).mpr found,rfl,HEq.rfl⟩

@[simp] theorem lookup_mapEntries (f : K → V → W) (m : KeyedMap K V) (k : K) :
    (mapEntries f m).lookup k = (m.lookup k).map (f k) := by
  ext v
  rw [← mem_entries_iff,mapEntries]
  simp only [List.mem_map,Sigma.mk.injEq,Sigma.exists,Option.map_eq_some_iff]
  constructor
  · rintro ⟨key,value,member,rfl,same⟩
    exact ⟨value,(mem_entries_iff m).mp member,eq_of_heq same⟩
  · rintro ⟨value,found,rfl⟩
    exact ⟨k,value,(mem_entries_iff m).mpr found,rfl,HEq.rfl⟩

@[simp] theorem lookup_keep (p : V → Bool) (m : KeyedMap K V) (k : K) :
    (keep p m).lookup k = (m.lookup k).filter p := by
  ext v
  rw [← mem_entries_iff,Option.filter_eq_some_iff,← mem_entries_iff]
  simp only [keep,List.mem_filter]

theorem entries_nil_iff (m : KeyedMap K V) : m.entries = [] ↔ ∀ k, m.lookup k = none := by
  constructor
  · intro empty k
    cases found : m.lookup k with
    | none => rfl
    | some v =>
      have member := (mem_entries_iff m).mpr found
      rw [empty] at member
      exact absurd member List.not_mem_nil
  · intro absent
    rw [List.eq_nil_iff_forall_not_mem]
    rintro ⟨k,v⟩ member
    have found := (mem_entries_iff m).mp member
    rw [absent k] at found
    exact absurd found (by simp)

theorem lookup_erase_eq (m : KeyedMap K V) (k j : K) :
    (m.erase j).lookup k = if k = j then none else m.lookup k := by
  by_cases same : k = j
  · subst same; simp
  · simp [same,AList.lookup_erase_ne same]

theorem lookup_insert_eq (m : KeyedMap K V) (k j : K) (v : V) :
    (m.insert j v).lookup k = if k = j then some v else m.lookup k := by
  by_cases same : k = j
  · subst same; simp
  · simp [same,AList.lookup_insert_ne same]

-- Collecting pairs one after another, a later value of a key taking the place of an
-- earlier one.
def collect (entries : List (Sigma fun _ : K => V)) : KeyedMap K V :=
  entries.foldl (fun map entry => map.insert entry.1 entry.2) ∅

theorem lookup_inserted (entries : List (Sigma fun _ : K => V)) (nodup : entries.NodupKeys) (m : KeyedMap K V) (k : K) :
    (entries.foldl (fun map entry => map.insert entry.1 entry.2) m).lookup k = (entries.dlookup k).or (m.lookup k) := by
  induction entries generalizing m with
  | nil => rfl
  | cons head rest ih =>
    obtain ⟨key,value⟩ := head
    obtain ⟨fresh,nodup⟩ := List.nodupKeys_cons.mp nodup
    rw [List.foldl_cons,ih nodup,lookup_insert_eq]
    by_cases same : k = key
    · subst same
      rw [List.dlookup_eq_none.mpr fresh,List.dlookup_cons_eq,if_pos rfl]
      rfl
    · rw [List.dlookup_cons_ne _ _ same,if_neg same]

theorem lookup_collect (m : KeyedMap K V) (k : K) : (collect m.entries).lookup k = m.lookup k :=
  (lookup_inserted _ m.nodupKeys ∅ k).trans Option.or_none

theorem filter_values_nil (m : KeyedMap K V) (p : V → Bool) (fails : ∀ k v, m.lookup k = some v → p v = false) :
    (values m).filter p = [] := by
  rw [List.filter_eq_nil_iff]
  intro v member
  obtain ⟨k,found⟩ := (mem_values m).mp member
  simp [fails k v found]

theorem filter_values_single (m : KeyedMap K V) (p : V → Bool) (found : m.lookup k = some v) (passes : p v = true)
    (alone : ∀ j w, m.lookup j = some w → p w = true → j = k) : (values m).filter p = [v] := by
  have entries : m.entries.filter (fun entry => p entry.2) = [⟨k,v⟩] := by
    have same : ∀ entry ∈ m.entries.filter (fun entry => p entry.2), entry = ⟨k,v⟩ := by
      rintro ⟨j,w⟩ member
      obtain ⟨inside,passed⟩ := List.mem_filter.mp member
      have there := (mem_entries_iff m).mp inside
      cases alone j w there passed
      cases found.symm.trans there
      rfl
    have nodup : (m.entries.filter fun entry => p entry.2).Nodup :=
      (List.NodupKeys.nodup m.nodupKeys).filter _
    have inside : (⟨k,v⟩ : Sigma fun _ : K => V) ∈ m.entries.filter fun entry => p entry.2 :=
      List.mem_filter.mpr ⟨(mem_entries_iff m).mpr found,passes⟩
    obtain ⟨count,replicated⟩ : ∃ count, m.entries.filter (fun entry => p entry.2) = List.replicate count ⟨k,v⟩ :=
      ⟨_,List.eq_replicate_of_mem same⟩
    rw [replicated] at nodup inside ⊢
    have few := List.nodup_replicate.mp nodup
    have some_inside := (List.mem_replicate.mp inside).1
    obtain rfl : count = 1 := by omega
    rfl
  have mapped : (values m).filter p = (m.entries.filter fun entry => p entry.2).map Sigma.snd := by
    simp only [values,List.filter_map,Function.comp_def]
  rw [mapped,entries]
  rfl

end AlineaCopilot.KeyedMaps
