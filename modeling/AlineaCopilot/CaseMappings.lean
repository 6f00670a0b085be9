import Mathlib.Data.List.Forall2
import AlineaCopilot.RustText

open AlineaCopilot.RustText

namespace AlineaCopilot.CaseMappings

-- The tables of the Unicode data files: `char::to_lowercase`, `Cased` and
-- `Case_Ignorable`, with what holds of them in every version.
structure CaseTable where
  lower : Char → List Char
  isCased : Char → Bool
  isCaseIgnorable : Char → Bool
  full : ∀ c, lower c ≠ []
  settled : ∀ c, ∀ d ∈ lower c, lower d = [d]
  space : ∀ c, isWhitespace c = false → ∀ d ∈ lower c, isWhitespace d = false
  blank : ∀ c, isWhitespace c = true → lower c = [c]
  control : ∀ c, isControl c = false → ∀ d ∈ lower c, isControl d = false
  sigma : lower 'Σ' = ['σ']
  finalSigma : lower 'ς' = ['ς']
  cased : ∀ c d, lower c = lower d → isCased c = isCased d
  caseIgnorable : ∀ c d, lower c = lower d → isCaseIgnorable c = isCaseIgnorable d

namespace CaseTable
variable (table : CaseTable)

def caseIgnorableThenCased (text : List Char) : Bool :=
  match text.dropWhile table.isCaseIgnorable with
  | c :: _ => table.isCased c
  | [] => false

-- `before` is read backwards from the letter.
def isWordFinal (before rest : List Char) : Bool := table.caseIgnorableThenCased before && !table.caseIgnorableThenCased rest

def mapped (before : List Char) (c : Char) (rest : List Char) : List Char :=
  if c = 'Σ' then [if table.isWordFinal before rest then 'ς' else 'σ'] else table.lower c

def lowerFrom : List Char → List Char → List Char
  | _,[] => []
  | before,c :: rest => table.mapped before c rest ++ lowerFrom (c :: before) rest

-- `str::to_lowercase`.
def toLowercase (text : String) : String := String.ofList (table.lowerFrom [] text.toList)

-- For each letter, whether it is a capital sigma at the end of a word.
def finalSigmas : List Char → List Char → List Bool
  | _,[] => []
  | before,c :: rest => (c = 'Σ' && table.isWordFinal before rest) :: finalSigmas (c :: before) rest

-- Two cases of one letter have the same lowercase.
def SameLetter (c d : Char) : Prop := table.lower c = table.lower d

end CaseTable

section Mapped
variable {table : CaseTable} {c d : Char} {before rest text : List Char}

theorem mapped_small (inside : d ∈ table.mapped before c rest) : table.lower d = [d] := by
  unfold CaseTable.mapped at inside
  split at inside
  · rw [List.mem_singleton.mp inside]
    split
    · exact table.finalSigma
    · exact table.settled 'Σ' 'σ' (by rw [table.sigma]; exact List.mem_cons_self)
  · exact table.settled c d inside

theorem mapped_full (before : List Char) (c : Char) (rest : List Char) : table.mapped before c rest ≠ [] := by
  unfold CaseTable.mapped
  split
  · exact List.cons_ne_nil _ _
  · exact table.full c

-- What no letter's lowercase brings in, lowercasing brings in nowhere.
theorem mapped_free {kind : Char → Bool} (free : ∀ c, kind c = false → ∀ d ∈ table.lower c, kind d = false)
    (sigma : kind 'σ' = false) (finalSigma : kind 'ς' = false) (clear : kind c = false)
    (inside : d ∈ table.mapped before c rest) : kind d = false := by
  unfold CaseTable.mapped at inside
  split at inside
  · rw [List.mem_singleton.mp inside]
    split <;> assumption
  · exact free c clear d inside

theorem mapped_blank (white : isWhitespace c = true) : table.mapped before c rest = [c] := by
  unfold CaseTable.mapped
  split
  · rename_i sigma
    rw [sigma] at white
    cases white
  · exact table.blank c white

theorem lowerFrom_nil : table.lowerFrom before [] = [] := rfl

theorem lowerFrom_cons : table.lowerFrom before (c :: rest) = table.mapped before c rest ++ table.lowerFrom (c :: before) rest := rfl

theorem lowerFrom_free {kind : Char → Bool} (free : ∀ c, kind c = false → ∀ d ∈ table.lower c, kind d = false)
    (sigma : kind 'σ' = false) (finalSigma : kind 'ς' = false) (clear : ∀ c ∈ text, kind c = false) :
    ∀ d ∈ table.lowerFrom before text, kind d = false := by
  induction text generalizing before with
  | nil => nofun
  | cons c rest ih =>
    intro d inside
    rcases List.mem_append.mp inside with here | later
    · exact mapped_free free sigma finalSigma (clear c List.mem_cons_self) here
    · exact ih (fun e there => clear e (List.mem_cons_of_mem _ there)) d later

theorem lowerFrom_small : ∀ d ∈ table.lowerFrom before text, table.lower d = [d] := by
  induction text generalizing before with
  | nil => nofun
  | cons c rest ih =>
    intro d inside
    rcases List.mem_append.mp inside with here | later
    · exact mapped_small here
    · exact ih d later

theorem lowerFrom_same (small : ∀ c ∈ text, table.lower c = [c]) : table.lowerFrom before text = text := by
  induction text generalizing before with
  | nil => rfl
  | cons c rest ih =>
    have here := small c List.mem_cons_self
    have other : c ≠ 'Σ' := by
      rintro rfl
      have lowered := table.sigma
      rw [here] at lowered
      exact absurd lowered (by decide)
    rw [lowerFrom_cons,CaseTable.mapped,if_neg other,here,ih fun d later => small d (List.mem_cons_of_mem _ later)]
    rfl

theorem toLowercase_idempotent (table : CaseTable) (text : String) :
    table.toLowercase (table.toLowercase text) = table.toLowercase text := by
  refine congrArg String.ofList ?_
  rw [CaseTable.toLowercase,String.toList_ofList]
  exact lowerFrom_same lowerFrom_small

theorem mapped_ends (before : List Char) (c : Char) (rest : List Char) :
    ((∀ d, (table.mapped before c rest).head? = some d → isWhitespace d = false) ↔ isWhitespace c = false) ∧
    ((∀ d, (table.mapped before c rest).getLast? = some d → isWhitespace d = false) ↔ isWhitespace c = false) := by
  cases white : isWhitespace c with
  | true => simp [mapped_blank white,white]
  | false =>
    have free : ∀ d ∈ table.mapped before c rest, isWhitespace d = false :=
      fun d inside => mapped_free table.space (by decide) (by decide) white inside
    exact ⟨iff_of_true (fun d first => free d (List.mem_of_head? first)) rfl,
      iff_of_true (fun d last => free d (List.mem_of_getLast? last)) rfl⟩

-- The ends of a text are blank before as after.
theorem lowerFrom_head : (∀ d, (table.lowerFrom before text).head? = some d → isWhitespace d = false) ↔
    ∀ c, text.head? = some c → isWhitespace c = false := by
  cases text with
  | nil => exact ⟨fun _ => nofun,fun _ => nofun⟩
  | cons c rest =>
    rw [lowerFrom_cons,List.head?_append_of_ne_nil _ (mapped_full before c rest)]
    simpa using (mapped_ends before c rest).1

theorem lowerFrom_full (full : text ≠ []) : table.lowerFrom before text ≠ [] := by
  obtain ⟨c,rest,rfl⟩ := List.exists_cons_of_ne_nil full
  exact List.append_ne_nil_of_left_ne_nil (mapped_full before c rest) _

theorem lowerFrom_last : (∀ d, (table.lowerFrom before text).getLast? = some d → isWhitespace d = false) ↔
    ∀ c, text.getLast? = some c → isWhitespace c = false := by
  induction text generalizing before with
  | nil => exact ⟨fun _ => nofun,fun _ => nofun⟩
  | cons c rest ih =>
    rw [lowerFrom_cons]
    cases rest with
    | nil =>
      rw [lowerFrom_nil,List.append_nil]
      simpa using (mapped_ends before c []).2
    | cons e later =>
      rw [List.getLast?_append_of_ne_nil _ (lowerFrom_full (List.cons_ne_nil e later)),List.getLast?_cons_cons]
      exact ih

end Mapped

section SameLetters
variable {table : CaseTable} {c d : Char} {before before' text text' : List Char}

theorem same_final (same : List.Forall₂ table.SameLetter text text') :
    table.caseIgnorableThenCased text = table.caseIgnorableThenCased text' := by
  induction same with
  | nil => rfl
  | @cons c d rest rest' letter _ ih =>
    have ignorable := table.caseIgnorable c d letter
    unfold CaseTable.caseIgnorableThenCased
    cases ignored : table.isCaseIgnorable d with
    | true =>
      rw [List.dropWhile_cons_of_pos (ignorable.trans ignored),List.dropWhile_cons_of_pos ignored]
      exact ih
    | false =>
      rw [List.dropWhile_cons_of_neg (by simp [ignorable,ignored]),List.dropWhile_cons_of_neg (by simp [ignored])]
      exact table.cased c d letter

theorem mapped_length (before : List Char) (c : Char) (text : List Char) :
    (table.mapped before c text).length = (table.lower c).length := by
  unfold CaseTable.mapped
  split
  · rename_i sigma
    rw [sigma,table.sigma]
    rfl
  · rfl

-- A capital sigma and a small one differ at the end of a word, and nowhere else.
theorem mapped_agree (letter : table.SameLetter c d) (place : table.isWordFinal before text = table.isWordFinal before' text') :
    table.mapped before c text = table.mapped before' d text' ↔
      (c = 'Σ' && table.isWordFinal before text) = (d = 'Σ' && table.isWordFinal before' text') := by
  unfold CaseTable.mapped
  rw [← place]
  by_cases first : c = 'Σ' <;> by_cases second : d = 'Σ'
  · exact iff_of_true (by rw [if_pos first,if_pos second]) (by rw [first,second])
  · subst first
    rw [if_pos rfl,if_neg second,← letter,table.sigma]
    cases table.isWordFinal before text <;> simp [second]
  · subst second
    rw [if_pos rfl,if_neg first,letter,table.sigma]
    cases table.isWordFinal before text <;> simp [first]
  · exact iff_of_true (by rw [if_neg first,if_neg second]; exact letter) (by simp [first,second])

-- Two texts of the same letters have the same lowercase just if the same letters
-- are capital sigmas at the end of a word.
theorem lowerFrom_agree (backwards : List.Forall₂ table.SameLetter before before') (same : List.Forall₂ table.SameLetter text text') :
    table.lowerFrom before text = table.lowerFrom before' text' ↔ table.finalSigmas before text = table.finalSigmas before' text' := by
  induction same generalizing before before' with
  | nil => exact iff_of_true rfl rfl
  | @cons c d rest rest' letter others ih =>
    have place : table.isWordFinal before rest = table.isWordFinal before' rest' := by
      rw [CaseTable.isWordFinal,CaseTable.isWordFinal,same_final backwards,same_final others]
    have size : (table.mapped before c rest).length = (table.mapped before' d rest').length := by
      rw [mapped_length,mapped_length,letter]
    rw [lowerFrom_cons,lowerFrom_cons,CaseTable.finalSigmas,CaseTable.finalSigmas,List.cons.injEq,
      ← mapped_agree letter place,← ih (.cons letter backwards)]
    exact ⟨fun whole => List.append_inj whole size,fun ⟨head,tail⟩ => by rw [head,tail]⟩

end SameLetters

section Ascii

theorem toLower_cases (c : Char) :
    65 ≤ c.toNat ∧ c.toNat ≤ 90 ∧ c.toLower.toNat = c.toNat + 32 ∨ (c.toNat < 65 ∨ 90 < c.toNat) ∧ c.toLower = c := by
  delta Char.toLower
  split
  · rename_i upper
    simp only [ge_iff_le,UInt32.le_iff_toNat_le] at upper
    have range : 65 ≤ c.toNat ∧ c.toNat ≤ 90 := upper
    refine .inl ⟨range.1,range.2,?_⟩
    have moved : (c.val + 32).toNat = (c.toNat + 32) % 2 ^ 32 := UInt32.toNat_add c.val 32
    exact moved.trans (by omega)
  · rename_i other
    simp only [ge_iff_le,UInt32.le_iff_toNat_le] at other
    have outside : ¬(65 ≤ c.toNat ∧ c.toNat ≤ 90) := other
    exact .inr ⟨by omega,rfl⟩

def smallLetter (c : Char) : Char := if c = 'Σ' then 'σ' else c.toLower

theorem smallLetter_moves (c : Char) :
    smallLetter c = c ∨ smallLetter c = 'σ' ∨ 97 ≤ (smallLetter c).toNat ∧ (smallLetter c).toNat ≤ 122 := by
  unfold smallLetter
  split
  · exact .inr (.inl rfl)
  · rcases toLower_cases c with ⟨low,high,moved⟩ | ⟨-,same⟩
    · exact .inr (.inr (by omega))
    · exact .inl same

theorem smallLetter_settled (c : Char) : smallLetter (smallLetter c) = smallLetter c := by
  rcases smallLetter_moves c with same | small | range
  · rw [same,same]
  · rw [small]
    decide
  · have other : smallLetter c ≠ 'Σ' := by
      intro sigma
      rw [sigma] at range
      exact absurd range (by decide)
    rw [smallLetter,if_neg other]
    rcases toLower_cases (smallLetter c) with ⟨-,high,-⟩ | ⟨-,same⟩
    · omega
    · exact same

theorem smallLetter_space {c : Char} (ink : isWhitespace c = false) : isWhitespace (smallLetter c) = false := by
  rcases smallLetter_moves c with same | small | range
  · rw [same,ink]
  · rw [small]
    decide
  · simp only [isWhitespace,Bool.or_eq_false_iff,Bool.and_eq_false_iff,decide_eq_false_iff_not]
    omega

theorem smallLetter_blank {c : Char} (white : isWhitespace c = true) : smallLetter c = c := by
  have other : c ≠ 'Σ' := by
    rintro rfl
    cases white
  rw [smallLetter,if_neg other]
  rcases toLower_cases c with ⟨low,high,-⟩ | ⟨-,same⟩
  · simp only [isWhitespace,Bool.or_eq_true,Bool.and_eq_true,decide_eq_true_eq] at white
    omega
  · exact same

theorem smallLetter_control {c : Char} (plain : isControl c = false) : isControl (smallLetter c) = false := by
  rcases smallLetter_moves c with same | small | range
  · rw [same,plain]
  · rw [small]
    decide
  · simp only [isControl,Bool.or_eq_false_iff,Bool.and_eq_false_iff,decide_eq_false_iff_not]
    omega

-- The tables as far as ASCII and the sigmas go.
def asciiCase : CaseTable where
  lower c := [smallLetter c]
  isCased c := (smallLetter c).isLower || smallLetter c = 'σ' || smallLetter c = 'ς'
  isCaseIgnorable c := ['\'','.',':','^',Char.ofNat 0x60].contains (smallLetter c)
  full _ := List.cons_ne_nil _ _
  settled c _ inside := List.mem_singleton.mp inside ▸ congrArg (fun e => [e]) (smallLetter_settled c)
  space _ ink _ inside := List.mem_singleton.mp inside ▸ smallLetter_space ink
  blank _ white := congrArg (fun e => [e]) (smallLetter_blank white)
  control _ plain _ inside := List.mem_singleton.mp inside ▸ smallLetter_control plain
  sigma := rfl
  finalSigma := rfl
  cased c d same := by simp only [(List.cons.inj same).1]
  caseIgnorable c d same := by simp only [(List.cons.inj same).1]

end Ascii

end AlineaCopilot.CaseMappings
