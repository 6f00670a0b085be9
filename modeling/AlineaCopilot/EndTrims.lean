import Mathlib.Data.List.DropRight

namespace AlineaCopilot.EndTrims

variable {α : Type} (blank dropped : α → Bool)

def trim (text : List α) : List α := (text.dropWhile blank).rdropWhile blank

-- No blank stands at an end.
def Bare (text : List α) : Prop :=
  (∀ c, text.head? = some c → blank c = false) ∧ ∀ c, text.getLast? = some c → blank c = false

-- From either end, what comes before the first letter that is neither blank nor
-- dropped is all dropped.
def Clear (text : List α) : Prop :=
  (∀ c ∈ text.takeWhile fun c => blank c || dropped c, dropped c = true) ∧
  ∀ c ∈ text.reverse.takeWhile fun c => blank c || dropped c, dropped c = true

section Trims
variable {blank dropped} {text before after : List α}

theorem trim_parts (text : List α) :
    ∃ before after, (∀ c ∈ before, blank c = true) ∧ (∀ c ∈ after, blank c = true) ∧ text = before ++ trim blank text ++ after := by
  refine ⟨text.takeWhile blank,(text.dropWhile blank).rtakeWhile blank,fun c => List.mem_takeWhile_imp,fun c => List.mem_rtakeWhile_imp,?_⟩
  rw [trim,List.append_assoc,List.rdropWhile_append_rtakeWhile,List.takeWhile_append_dropWhile]

theorem trim_bare (text : List α) : Bare blank (trim blank text) := by
  constructor
  · intro c first
    obtain ⟨tail,whole⟩ : trim blank text <+: text.dropWhile blank := List.rdropWhile_prefix blank _
    have kept := List.head?_dropWhile_not blank text
    rw [← whole,List.head?_append,first] at kept
    exact kept
  · intro c last
    obtain ⟨full,rfl⟩ := List.mem_getLast?_eq_getLast last
    exact Bool.eq_false_iff.mpr (List.rdropWhile_last_not blank _ full)

theorem trim_exact (bare : Bare blank text) (before after : List α) (front : ∀ c ∈ before, blank c = true)
    (back : ∀ c ∈ after, blank c = true) : trim blank (before ++ text ++ after) = text := by
  have tail : List.rdropWhile blank (text ++ after) = text := by
    rw [List.rdropWhile,List.reverse_append,List.dropWhile_append_of_pos (by simpa using back)]
    refine (List.rdropWhile_eq_self_iff (p := blank)).mpr fun full => ?_
    rw [bare.2 _ (List.getLast?_eq_getLast_of_ne_nil full)]
    exact Bool.false_ne_true
  rw [trim,List.append_assoc,List.dropWhile_append_of_pos front]
  cases text with
  | nil => exact List.rdropWhile_eq_nil_iff.mpr fun c inside => back c (List.dropWhile_subset _ inside)
  | cons c rest =>
    have ink : ¬blank c = true := by simp [bare.1 c rfl]
    rw [List.cons_append,List.dropWhile_cons_of_neg ink]
    exact tail

theorem trim_same (bare : Bare blank text) : trim blank text = text := by
  have same := trim_exact bare [] [] nofun nofun
  rwa [List.nil_append,List.append_nil] at same

-- Dropping first and trimming then comes to the same if nothing blank comes to an end.
theorem trim_filter (bare : Bare blank ((trim blank text).filter fun c => !dropped c)) :
    trim blank (text.filter fun c => !dropped c) = (trim blank text).filter fun c => !dropped c := by
  obtain ⟨before,after,front,back,whole⟩ := @trim_parts α blank text
  conv => lhs; rw [whole,List.filter_append,List.filter_append]
  exact trim_exact bare _ _ (fun c inside => front c (List.mem_filter.mp inside).1)
    fun c inside => back c (List.mem_filter.mp inside).1

theorem filter_head (text : List α) :
    (∀ c, (text.filter fun c => !dropped c).head? = some c → blank c = false) ↔
      ∀ c ∈ text.takeWhile fun c => blank c || dropped c, dropped c = true := by
  induction text with
  | nil => exact ⟨fun _ => nofun,fun _ => nofun⟩
  | cons first rest ih =>
    cases drops : dropped first with
    | true => simpa [drops] using ih
    | false => cases blanks : blank first <;> simp [drops,blanks]

theorem filter_bare (text : List α) : Bare blank (text.filter fun c => !dropped c) ↔ Clear blank dropped text := by
  refine and_congr (filter_head text) ?_
  rw [← filter_head text.reverse,List.filter_reverse]
  simp only [List.head?_reverse]

end Trims

end AlineaCopilot.EndTrims
