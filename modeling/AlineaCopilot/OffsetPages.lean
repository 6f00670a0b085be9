import Mathlib.Data.List.Sort
import Mathlib.Logic.Equiv.Basic

namespace AlineaCopilot.OffsetPages

section Slices
variable {α β : Type} {rows : List α} {offset size : Nat}

-- `LIMIT size OFFSET offset`.
def limited (rows : List α) (size offset : Nat) : List α := (rows.drop offset).take size

-- The rows of page `page`, counted from one.
def slice (rows : List α) (page size : Nat) : List α := limited rows size ((page - 1) * size)

theorem limited_map (f : α → β) (rows : List α) (size offset : Nat) : limited (rows.map f) size offset = (limited rows size offset).map f := by
  rw [limited,limited,← List.map_drop,← List.map_take]

theorem limited_length (rows : List α) (size offset : Nat) : (limited rows size offset).length = min size (rows.length - offset) := by
  rw [limited,List.length_take,List.length_drop]

-- One row more than the page holds says whether there is a next page.
theorem more_iff : size < (limited rows (size + 1) offset).length ↔ offset + size < rows.length := by
  rw [limited_length]
  omega

theorem limited_last (more : size < (limited rows (size + 1) offset).length) :
    (limited rows (size + 1) offset).dropLast = limited rows size offset := by
  have full : (limited rows (size + 1) offset).length = size + 1 := by
    have bound := limited_length rows (size + 1) offset
    omega
  rw [List.dropLast_eq_take,full]
  show ((rows.drop offset).take (size + 1)).take size = (rows.drop offset).take size
  rw [List.take_take,Nat.min_eq_left (Nat.le_succ size)]

theorem limited_all (last : ¬size < (limited rows (size + 1) offset).length) : limited rows (size + 1) offset = limited rows size offset := by
  rw [more_iff] at last
  have short : (rows.drop offset).length ≤ size := by
    rw [List.length_drop]
    omega
  rw [limited,limited,List.take_of_length_le short,List.take_of_length_le (Nat.le_succ_of_le short)]

-- The pages one after the other are the rows from the start.
theorem slices_concat (rows : List α) (size n : Nat) :
    (List.range n).flatMap (fun i => slice rows (i + 1) size) = rows.take (n * size) := by
  induction n with
  | zero => rw [Nat.zero_mul,List.take_zero]; rfl
  | succ n ih =>
    rw [List.range_succ,List.flatMap_append,ih,List.flatMap_singleton,slice,limited,Nat.add_sub_cancel,Nat.succ_mul,List.take_add]

end Slices

-- The rows by falling key. Rows with the same key may stand in any order.
section Arrangements
variable {α κ : Type} [LinearOrder κ] {key : α → κ} {rows : List α}

structure Arrangement (key : α → κ) (rows : List α) where
  list : List α
  perm : list.Perm rows
  falling : list.Pairwise fun first second => key second ≤ key first

theorem same_keys (first second : Arrangement key rows) : first.list.map key = second.list.map key := by
  have falls (arrangement : Arrangement key rows) : (arrangement.list.map key).Pairwise fun first second => second ≤ first :=
    List.pairwise_map.mpr arrangement.falling
  exact List.Perm.eq_of_pairwise (fun _ _ _ _ above below => le_antisymm below above) (falls first) (falls second)
    ((first.perm.trans second.perm.symm).map key)

omit [LinearOrder κ] in
theorem same_of_keys {found others : List α} (same : found.map key = others.map key) (inside : ∀ row ∈ found, row ∈ rows)
    (alone : ∀ row ∈ others, ∀ other ∈ rows, key other = key row → other = row) : found = others := by
  induction found generalizing others with
  | nil => exact (List.map_eq_nil_iff.mp same.symm).symm
  | cons first rest ih =>
    cases others with
    | nil => cases same
    | cons other others =>
      obtain ⟨here,later⟩ := List.cons.inj same
      obtain ⟨member,tail⟩ := List.forall_mem_cons.mp inside
      obtain ⟨single,others_⟩ := List.forall_mem_cons.mp alone
      rw [single first member here,ih later tail others_]

-- A window without ties is the same in every arrangement.
theorem windows_same (first second : Arrangement key rows) (size offset : Nat)
    (alone : ∀ row ∈ limited second.list size offset, ∀ other ∈ rows, key other = key row → other = row) :
    limited first.list size offset = limited second.list size offset := by
  refine same_of_keys ?_ (fun row member => ?_) alone
  · rw [← limited_map,← limited_map,same_keys first second]
  · exact first.perm.mem_iff.mp (List.mem_of_mem_drop (List.mem_of_mem_take member))

-- Where no two rows have the same key there is one arrangement.
theorem lists_same (first second : Arrangement key rows) (alone : ∀ row ∈ rows, ∀ other ∈ rows, key other = key row → other = row) :
    first.list = second.list :=
  same_of_keys (same_keys first second) (fun _ member => first.perm.mem_iff.mp member) fun row member =>
    alone row (second.perm.mem_iff.mp member)

def Arrangement.sorted (key : α → κ) (rows : List α) : Arrangement key rows where
  list := rows.insertionSort fun first second => key second ≤ key first
  perm := List.perm_insertionSort _ rows
  falling := by
    have total : Std.Total fun first second : α => key second ≤ key first := ⟨fun first second => le_total (key second) (key first)⟩
    have chains : IsTrans α fun first second : α => key second ≤ key first := ⟨fun _ _ _ above below => below.trans above⟩
    exact List.pairwise_insertionSort _ rows

section Swap
variable [DecidableEq α]

-- Two rows with the same key change places.
def Arrangement.swap (arrangement : Arrangement key rows) (distinct : rows.Nodup) {row other : α} (member : row ∈ rows) (member' : other ∈ rows)
    (tied : key other = key row) : Arrangement key rows where
  list := arrangement.list.map (Equiv.swap row other)
  perm := by
    have nodup : arrangement.list.Nodup := arrangement.perm.nodup_iff.mpr distinct
    refine List.Perm.trans ?_ arrangement.perm
    refine (List.perm_ext_iff_of_nodup (nodup.map (Equiv.swap row other).injective) nodup).mpr fun found => ?_
    have kept {found : α} (inside : found ∈ arrangement.list) : Equiv.swap row other found ∈ arrangement.list := by
      rw [arrangement.perm.mem_iff] at inside ⊢
      rw [Equiv.swap_apply_def]
      split
      · exact member'
      · split
        · exact member
        · exact inside
    constructor
    · intro swapped
      obtain ⟨origin,inside,rfl⟩ := List.mem_map.mp swapped
      exact kept inside
    · intro inside
      exact List.mem_map.mpr ⟨_,kept inside,Equiv.swap_apply_self row other found⟩
  falling := by
    have same (found : α) : key (Equiv.swap row other found) = key found := by
      rw [Equiv.swap_apply_def]
      split
      · rename_i equal
        rw [equal,tied]
      · split
        · rename_i equal
          rw [equal,tied]
        · rfl
    refine List.pairwise_map.mpr (arrangement.falling.imp fun below => ?_)
    rw [same,same]
    exact below

theorem window_swap (arrangement : Arrangement key rows) (distinct : rows.Nodup) {row other : α} (member : row ∈ rows) (member' : other ∈ rows)
    (tied : key other = key row) (size offset : Nat) :
    limited (arrangement.swap distinct member member' tied).list size offset = (limited arrangement.list size offset).map (Equiv.swap row other) :=
  limited_map _ _ _ _

end Swap

end Arrangements

end AlineaCopilot.OffsetPages
