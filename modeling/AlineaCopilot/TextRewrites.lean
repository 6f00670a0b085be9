import AlineaCopilot.LeftmostScans

open AlineaCopilot.LeftmostScans

namespace AlineaCopilot.TextRewrites

-- What a pattern makes of the head of a text: how long the match is, and what
-- stands in its place.
abbrev Rule (α : Type) := List α → Option (Nat × List α)

section Rewriting
variable {α : Type}

def Rule.hit (rule : Rule α) (text : List α) : Option Nat := (rule text).map Prod.fst

-- `replace_all`: what is still to be skipped, and the rest.
def rewrite (rule : Rule α) : Nat → List α → List α
  | _,[] => []
  | skip + 1,_ :: rest => rewrite rule skip rest
  | 0,c :: rest => match rule (c :: rest) with
    | some (size,new) => new ++ rewrite rule (size - 1) rest
    | none => c :: rewrite rule 0 rest

def rewriteAll (rules : List (Rule α)) (text : List α) : List α := rules.foldl (fun text rule => rewrite rule 0 text) text

variable {rule : Rule α} {rules : List (Rule α)} {text : List α} {c : α}

theorem rewrite_hit {size : Nat} {new : List α} (found : rule (c :: text) = some (size,new)) :
    rewrite rule 0 (c :: text) = new ++ rewrite rule (size - 1) text := by
  simp only [rewrite,found]

theorem rewrite_miss (missed : rule (c :: text) = none) : rewrite rule 0 (c :: text) = c :: rewrite rule 0 text := by
  simp only [rewrite,missed]

theorem rewrite_same (missed : occurs rule.hit text = false) : rewrite rule 0 text = text := by
  induction text with
  | nil => rfl
  | cons c rest ih =>
    rw [occurs_cons,Bool.or_eq_false_iff] at missed
    have here : rule (c :: rest) = none := by
      cases found : rule (c :: rest) with
      | none => rfl
      | some _ => simp [Rule.hit,found] at missed
    rw [rewrite_miss here,ih missed.2]

theorem rewriteAll_same (missed : ∀ rule ∈ rules, occurs rule.hit text = false) : rewriteAll rules text = text := by
  induction rules with
  | nil => rfl
  | cons rule rules ih =>
    have first : rewriteAll (rule :: rules) text = rewriteAll rules (rewrite rule 0 text) := rfl
    rw [first,rewrite_same (missed rule List.mem_cons_self)]
    exact ih fun other inside => missed other (List.mem_cons_of_mem _ inside)

-- Every match brings the letter in.
def Rule.Brings (rule : Rule α) (c : α) : Prop := ∀ text size new, rule text = some (size,new) → c ∈ new

theorem rewrite_brings (brings : rule.Brings c) (found : occurs rule.hit text = true) : c ∈ rewrite rule 0 text := by
  induction text with
  | nil => cases found
  | cons head rest ih =>
    cases here : rule (head :: rest) with
    | some replaced =>
      rw [rewrite_hit here]
      exact List.mem_append_left _ (brings _ _ _ here)
    | none =>
      rw [rewrite_miss here]
      simp only [occurs_cons,Rule.hit,here,Option.map_none,Option.isSome_none,Bool.false_or] at found
      exact List.mem_cons_of_mem _ (ih found)

end Rewriting

section Counts
variable {α : Type} [DecidableEq α] {rule : Rule α} {rules : List (Rule α)} {text : List α} {c : α}

-- No match loses an occurrence of the letter.
def Rule.Keeps (rule : Rule α) (c : α) : Prop :=
  ∀ text size new, rule text = some (size,new) → 0 < size ∧ text.count c ≤ new.count c + (text.drop size).count c

theorem rewrite_count (keeps : rule.Keeps c) (skip : Nat) (text : List α) :
    (text.drop skip).count c ≤ (rewrite rule skip text).count c := by
  induction text generalizing skip with
  | nil => simp
  | cons head rest ih =>
    cases skip with
    | succ skip => exact ih skip
    | zero =>
      cases found : rule (head :: rest) with
      | none =>
        rw [rewrite_miss found,List.drop_zero,List.count_cons,List.count_cons]
        exact Nat.add_le_add_right (ih 0) _
      | some replaced =>
        obtain ⟨size,new⟩ := replaced
        obtain ⟨full,kept⟩ := keeps _ _ _ found
        rw [rewrite_hit found,List.drop_zero,List.count_append]
        have behind := ih (size - 1)
        have same : (head :: rest).drop size = rest.drop (size - 1) := by
          obtain ⟨n,rfl⟩ : ∃ n, size = n + 1 := ⟨size - 1,(Nat.sub_add_cancel full).symm⟩
          rfl
        rw [same] at kept
        omega

theorem rewriteAll_count (keep : ∀ rule ∈ rules, rule.Keeps c) (text : List α) : text.count c ≤ (rewriteAll rules text).count c := by
  induction rules generalizing text with
  | nil => exact Nat.le_refl _
  | cons rule rules ih =>
    have first := rewrite_count (keep rule List.mem_cons_self) 0 text
    exact first.trans (ih (fun other inside => keep other (List.mem_cons_of_mem _ inside)) (rewrite rule 0 text))

-- Either no pattern occurs and the text stays as it is, or the letter is brought in.
theorem rewriteAll_brings (keep : ∀ rule ∈ rules, rule.Keeps c) (bring : ∀ rule ∈ rules, rule.Brings c)
    (found : ∃ rule ∈ rules, occurs rule.hit text = true) : c ∈ rewriteAll rules text := by
  induction rules generalizing text with
  | nil =>
    obtain ⟨rule,inside,_⟩ := found
    cases inside
  | cons rule rules ih =>
    have keep' : ∀ other ∈ rules, other.Keeps c := fun other inside => keep other (List.mem_cons_of_mem _ inside)
    by_cases here : occurs rule.hit text = true
    · have brought := rewrite_brings (bring rule List.mem_cons_self) here
      have kept := rewriteAll_count keep' (rewrite rule 0 text)
      exact List.count_pos_iff.mp (Nat.lt_of_lt_of_le (List.count_pos_iff.mpr brought) kept)
    · have same := rewrite_same (Bool.not_eq_true _ ▸ here)
      have later : ∃ other ∈ rules, occurs other.hit (rewrite rule 0 text) = true := by
        obtain ⟨other,inside,occurs⟩ := found
        rcases List.mem_cons.mp inside with rfl | inner
        · exact absurd occurs here
        · rw [same]
          exact ⟨other,inner,occurs⟩
      exact ih keep' (fun other inside => bring other (List.mem_cons_of_mem _ inside)) later

end Counts

end AlineaCopilot.TextRewrites
