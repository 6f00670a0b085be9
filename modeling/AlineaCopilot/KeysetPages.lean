import Mathlib.Data.List.Sort
import Mathlib.Order.UpperLower.Basic

namespace AlineaCopilot.KeysetPages

universe u v
variable {α : Type u} {κ : Type v} [LinearOrder κ] {key : α → κ} {rows : List α} {cut : κ → Bool}

-- Rows listed by falling key, a page at a time: each page takes up the rows that
-- a cut of the keys leaves over.
def Descending (key : α → κ) (rows : List α) : Prop := rows.Pairwise fun a b => key b < key a

def inOrder (key : α → κ) (rows : List α) : List α := rows.insertionSort fun a b => key b ≤ key a

@[simp] theorem mem_inOrder (row : α) : row ∈ inOrder key rows ↔ row ∈ rows :=
  (List.perm_insertionSort _ rows).mem_iff

theorem length_inOrder : (inOrder key rows).length = rows.length := List.length_insertionSort _ rows

theorem descending_inOrder (distinct : rows.Pairwise fun a b => key a ≠ key b) : Descending key (inOrder key rows) := by
  have total : Std.Total fun a b : α => key b ≤ key a := ⟨fun a b => le_total (key b) (key a)⟩
  have chains : IsTrans α fun a b : α => key b ≤ key a := ⟨fun _ _ _ first second => second.trans first⟩
  have apart : (inOrder key rows).Pairwise fun a b => key a ≠ key b :=
    distinct.perm (List.perm_insertionSort _ rows).symm Ne.symm
  have sorted : (inOrder key rows).Pairwise fun a b => key b ≤ key a := List.pairwise_insertionSort _ rows
  exact sorted.imp₂ (fun _ _ le unequal => lt_of_le_of_ne le unequal.symm) apart

theorem Descending.filter (descending : Descending key rows) (keep : α → Bool) : Descending key (rows.filter keep) :=
  List.Pairwise.filter keep descending

-- Two such lists with the same rows are the same list.
theorem Descending.ext (left : Descending key rows) (right : Descending key others)
    (same : ∀ row, row ∈ rows ↔ row ∈ others) : rows = others := by
  have irrefl : Std.Irrefl fun a b : α => key b < key a := ⟨fun a => lt_irrefl (key a)⟩
  have antisymm : Std.Antisymm fun a b : α => key b < key a :=
    ⟨fun _ _ first second => absurd first (lt_asymm second)⟩
  exact List.Pairwise.eq_of_mem_iff left right same

-- What a cut leaves over stands behind what it takes off.
theorem Descending.split (descending : Descending key rows) (lower : IsLowerSet {k | cut k = true}) :
    rows.filter (fun row => !cut (key row)) ++ rows.filter (fun row => cut (key row)) = rows := by
  induction rows with
  | nil => rfl
  | cons head rest ih =>
    obtain ⟨above,behind⟩ := List.pairwise_cons.mp descending
    cases taken : cut (key head) with
    | false => simpa [taken] using ih behind
    | true =>
      have whole : ∀ row ∈ rest, cut (key row) = true := fun row inside => lower (above row inside).le taken
      simp only [List.filter_cons,taken,Bool.not_true,Bool.false_eq_true,if_false,if_true]
      rw [List.filter_eq_nil_iff.mpr fun row inside => by simp [whole row inside],List.filter_eq_self.mpr whole]
      rfl

-- A page is what stands down to its last row.
theorem Descending.take_eq (descending : Descending key rows) (last : (rows.take n).getLast? = some row) :
    rows.take n = rows.filter fun other => key row ≤ key other := by
  have parted : Descending key (rows.take n ++ rows.drop n) := by rwa [List.take_append_drop]
  obtain ⟨front,_,across⟩ := List.pairwise_append.mp parted
  have member : row ∈ rows.take n := List.mem_of_getLast? last
  obtain ⟨earlier,whole⟩ := List.getLast?_eq_some_iff.mp last
  have kept : ∀ other ∈ rows.take n, decide (key row ≤ key other) = true := by
    intro other inside
    rw [whole] at inside front
    rcases List.mem_append.mp inside with before | same
    · exact decide_eq_true ((List.pairwise_append.mp front).2.2 other before row List.mem_cons_self).le
    · cases List.mem_singleton.mp same
      exact decide_eq_true le_rfl
  have dropped : ∀ other ∈ rows.drop n, ¬decide (key row ≤ key other) = true := by
    intro other inside below
    exact absurd (of_decide_eq_true below) (not_le.mpr (across row member other inside))
  conv_rhs => rw [← List.take_append_drop n rows]
  rw [List.filter_append,List.filter_eq_self.mpr kept,List.filter_eq_nil_iff.mpr dropped,List.append_nil]

-- The rows before a cut and the next ones down to a place inside it are the
-- rows down to that place.
theorem Descending.through (descending : Descending key rows) (lower : IsLowerSet {k | cut k = true})
    (inside : cut place = true) :
    rows.filter (fun row => !cut (key row)) ++ rows.filter (fun row => cut (key row) && decide (place ≤ key row)) =
      rows.filter fun row => place ≤ key row := by
  have parts := (descending.filter fun row => place ≤ key row).split lower
  rw [List.filter_filter,List.filter_filter] at parts
  rw [← parts]
  congr 1
  · refine List.filter_congr fun row _ => ?_
    by_cases reached : place ≤ key row
    · simp [reached]
    · have taken : cut (key row) = true := lower (not_le.mp reached).le inside
      simp [reached,taken]

-- The next page goes on where the cut is, down to its own last row.
theorem Descending.next_page (descending : Descending key rows) (lower : IsLowerSet {k | cut k = true})
    (last : ((rows.filter fun row => cut (key row)).take n).getLast? = some row) :
    rows.filter (fun other => !cut (key other)) ++ (rows.filter fun other => cut (key other)).take n =
      rows.filter fun other => key row ≤ key other := by
  have member : row ∈ rows.filter fun other => cut (key other) := List.mem_of_mem_take (List.mem_of_getLast? last)
  rw [(descending.filter _).take_eq last,← descending.through lower (List.mem_filter.mp member).2,List.filter_filter]
  simp only [Bool.and_comm]

end AlineaCopilot.KeysetPages
