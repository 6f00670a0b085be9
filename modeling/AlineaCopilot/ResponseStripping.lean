import AlineaCopilot.ResponseMiddleware

open AlineaCopilot.LeftmostScans AlineaCopilot.TextMarkers AlineaCopilot.ResponseMiddleware

namespace AlineaCopilot.ResponseStripping

-- The letters outside the removed blocks, with their places in the text.
def outsideThink (text : List Char) : List (Char × Nat) := think.cutOut text.zipIdx

-- The removals take the commands of one kind after the other.
def outsideAll (kinds : List CronKind) (text : List (Char × Nat)) : List (Char × Nat) :=
  kinds.foldl (fun text kind => kind.pattern.cutOut text) text

def stripAll (kinds : List CronKind) (text : List Char) : List Char := kinds.foldl (fun text kind => erase kind.hit 0 text) text

def stripOrder : List CronKind := [.create,.update,.list,.delete]

def outsideCron (text : List Char) : List (Char × Nat) := outsideAll stripOrder text.zipIdx

section Kinds
variable {kinds : List CronKind} {kind : CronKind} {text : List (Char × Nat)}

theorem letters_outsideThink (text : List Char) : letters (outsideThink text) = stripThinkTags text := by
  rw [outsideThink,letters_cutOut,letters_zipIdx]
  rfl

theorem letters_outsideAll (kinds : List CronKind) (text : List (Char × Nat)) : letters (outsideAll kinds text) = stripAll kinds (letters text) := by
  induction kinds generalizing text with
  | nil => rfl
  | cons kind kinds ih =>
    refine (ih _).trans ?_
    rw [letters_cutOut]
    rfl

theorem letters_outsideCron (text : List Char) : letters (outsideCron text) = stripCronCommands text := by
  rw [outsideCron,letters_outsideAll,letters_zipIdx]
  rfl

theorem sorted_outsideAll (sorted : Sorted text) : Sorted (outsideAll kinds text) := by
  induction kinds generalizing text with
  | nil => exact sorted
  | cons kind kinds ih => exact ih (sorted_cutOut _ sorted)

-- Later removals do not bring back a command with whole markers.
theorem outsideAll_keeps (sorted : Sorted text) (none_ : ∀ behind, behind <:+ text → ¬kind.pattern.Whole behind) :
    ∀ behind, behind <:+ outsideAll kinds text → ¬kind.pattern.Whole behind := by
  induction kinds generalizing text with
  | nil => exact none_
  | cons other kinds ih => exact ih (sorted_cutOut _ sorted) fun behind suffix => cutOut_keeps sorted none_ suffix

theorem outsideAll_none (sorted : Sorted text) (member : kind ∈ kinds) :
    ∀ behind, behind <:+ outsideAll kinds text → ¬kind.pattern.Whole behind := by
  induction kinds generalizing text with
  | nil => cases member
  | cons other kinds ih =>
    rcases List.mem_cons.mp member with rfl | later
    · have gone : ∀ behind, behind <:+ kind.pattern.cutOut text → ¬kind.pattern.Whole behind := fun behind suffix => cutOut_none sorted suffix
      have kept := @outsideAll_keeps kinds kind _ (sorted_cutOut _ sorted) gone
      exact kept
    · exact ih (sorted_cutOut _ sorted) later

theorem every_kind (kind : CronKind) : kind ∈ stripOrder := by
  cases kind <;> decide

theorem has_iff (text : List Char) : hasCronCommands text = true ↔ ∃ kind : CronKind, occurs kind.hit text = true := by
  unfold hasCronCommands
  simp only [Bool.or_eq_true]
  constructor
  · rintro (((found | found) | found) | found)
    · exact ⟨.create,found⟩
    · exact ⟨.update,found⟩
    · exact ⟨.list,found⟩
    · exact ⟨.delete,found⟩
  · rintro ⟨kind,found⟩
    cases kind with
    | create => exact Or.inl (Or.inl (Or.inl found))
    | update => exact Or.inl (Or.inl (Or.inr found))
    | list => exact Or.inl (Or.inr found)
    | delete => exact Or.inr found

end Kinds

theorem stripAll_length (kinds : List CronKind) (text : List Char) : (stripAll kinds text).length ≤ text.length := by
  induction kinds generalizing text with
  | nil => exact Nat.le_refl _
  | cons kind kinds ih => exact Nat.le_trans (ih _) (erase_length kind.hit 0 text)

theorem stripAll_same_iff {kinds : List CronKind} {text : List Char} :
    stripAll kinds text = text ↔ ∀ kind ∈ kinds, occurs kind.hit text = false := by
  induction kinds with
  | nil => exact ⟨fun _ _ member => absurd member List.not_mem_nil,fun _ => rfl⟩
  | cons kind kinds ih =>
    have first : stripAll (kind :: kinds) text = stripAll kinds (erase kind.hit 0 text) := rfl
    rw [List.forall_mem_cons,first]
    constructor
    · intro same
      have missed : occurs kind.hit text = false := by
        rw [← Bool.not_eq_true]
        intro found
        have shorter := Nat.lt_of_le_of_lt (stripAll_length kinds _) (erase_shorter found)
        rw [same] at shorter
        exact Nat.lt_irrefl _ shorter
      rw [erase_same missed] at same
      exact ⟨missed,ih.mp same⟩
    · rintro ⟨missed,others⟩
      rw [erase_same missed]
      exact ih.mpr others

-- The texts that stay as they are hold no command.
theorem strip_same_iff (text : List Char) : stripCronCommands text = text ↔ hasCronCommands text = false := by
  rw [← Bool.not_eq_true,has_iff,not_exists]
  refine (@stripAll_same_iff stripOrder text).trans ⟨fun none_ kind => ?_,fun none_ kind _ => ?_⟩
  · rw [Bool.not_eq_true]
    exact none_ kind (every_kind kind)
  · rw [← Bool.not_eq_true]
    exact none_ kind

theorem think_gone_iff (text : List Char) : occurs think.hit (stripThinkTags text) = false ↔ ¬think.Joined (outsideThink text) := by
  have each := @occurs_joined _ think (outsideThink text) fun behind suffix => cutOut_none (sorted_zipIdx text) suffix
  rw [← letters_outsideThink,← Bool.not_eq_true]
  exact not_congr each

theorem cron_gone_iff (text : List Char) :
    hasCronCommands (stripCronCommands text) = false ↔ ∀ kind : CronKind, ¬kind.pattern.Joined (outsideCron text) := by
  have each (kind : CronKind) := @occurs_joined _ kind.pattern (outsideCron text) (outsideAll_none (sorted_zipIdx text) (every_kind kind))
  rw [← letters_outsideCron,← Bool.not_eq_true,has_iff,not_exists]
  exact forall_congr' fun kind => not_congr (each kind)

-- A marker is left over exactly where one is put together over a place from
-- which something was removed.
theorem removal_complete_iff (text : List Char) :
    (occurs think.hit (stripThinkTags text) = false ∧ stripThinkTags (stripThinkTags text) = stripThinkTags text ↔
      ¬think.Joined (outsideThink text)) ∧
    (hasCronCommands (stripCronCommands text) = false ∧ stripCronCommands (stripCronCommands text) = stripCronCommands text ↔
      ∀ kind : CronKind, ¬kind.pattern.Joined (outsideCron text)) := by
  constructor
  · have same : stripThinkTags (stripThinkTags text) = stripThinkTags text ↔ occurs think.hit (stripThinkTags text) = false := erase_same_iff
    rw [same,and_self]
    exact think_gone_iff text
  · rw [strip_same_iff,and_self]
    exact cron_gone_iff text

section Examples

def listInside : List Char := "[CRON_[CRON_LIST]LIST]".toList

def thinkInside : List Char := "<th<think>plan</think>ink>secret</think>".toList

theorem marker_left :
    hasCronCommands (stripCronCommands listInside) = true ∧ stripThinkTags thinkInside = "<think>secret</think>".toList ∧
      occurs think.hit (stripThinkTags thinkInside) = true := by
  decide +kernel

end Examples

end AlineaCopilot.ResponseStripping
