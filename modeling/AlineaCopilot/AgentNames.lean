import AlineaCopilot.CaseMappings
import AlineaCopilot.EndTrims
import AlineaCopilot.TeamMcpTools

open AlineaCopilot.RustText AlineaCopilot.CaseMappings AlineaCopilot.EndTrims AlineaCopilot.StatefulPrograms

namespace AlineaCopilot.AgentNames

section Checks
variable (toLowercase : String → String)

-- Step 2 of `spawn_agent`.
def spawnNameCheck (agents : List TeamAgent) (name : String) : Option TeamError :=
  let requestedName := RustText.trim name
  if requestedName.isEmpty then some (.invalidRequest "spawn_agent.name must not be empty")
  else
    let normalized := normalizeName toLowercase requestedName
    if normalized.isEmpty then some (.invalidRequest "spawn_agent.name is empty after normalization")
    else if agents.any fun other => normalizeName toLowercase other.name == normalized then some (.duplicateAgentName requestedName)
    else none

theorem spawnAgent_refuses {answers : TeamMcp.Answers} {session : TeamMcp.Session} {caller : String} {req : TeamMcp.SpawnAgentRequest}
    {agent : TeamAgent} {e : TeamMcp.Execution} {error : TeamError} (known : e.team.findAgent caller = some agent)
    (leads : agent.role = .lead) (refused : spawnNameCheck toLowercase e.team.agents req.name = some error) :
    perform (TeamMcp.spawnAgent toLowercase answers session caller req) e = (.error error,e) := by
  unfold TeamMcp.spawnAgent TeamMcp.getAgent
  simp only [perform_bind,perform_get,known,perform_pure,leads,ne_eq,not_true_eq_false,if_false]
  simp only [spawnNameCheck] at refused
  split at refused
  · rename_i empty
    cases refused
    rw [if_pos empty,perform_bind,perform_throw]
  · rename_i named
    rw [if_neg named]
    split at refused
    · rename_i empty
      cases refused
      rw [if_pos empty,perform_bind,perform_throw]
    · rename_i normal
      obtain ⟨taken,same⟩ := Option.ite_none_right_eq_some.mp refused
      cases same
      rw [if_neg normal,perform_bind,perform_get]
      simp only [taken,if_true]
      rw [perform_bind,perform_throw]

-- What is not an answer about the name is left: which agent, and whose team.
def kind : TeamError → TeamError
  | .invalidRequest _ => .invalidRequest ""
  | .duplicateAgentName _ => .duplicateAgentName ""
  | error => error

def refusal {α : Type} : Except TeamError α → Option TeamError
  | .ok _ => none
  | .error error => some (kind error)

end Checks

section Names
variable (table : CaseTable)

def normalForm (name : String) : String := normalizeName table.toLowercase name

structure Canonical (name : String) : Prop where
  idempotent : normalForm table (normalForm table name) = normalForm table name
  ends : Bare isWhitespace (normalForm table name).toList
  plain : ∀ c ∈ (normalForm table name).toList, isControl c = false
  spawn : ∀ agents, (spawnNameCheck table.toLowercase agents (normalForm table name)).map kind =
    (spawnNameCheck table.toLowercase agents name).map kind
  add : ∀ (row : TeamRoster.TeamRow) (userId : String) (req : TeamRoster.AddAgentRequest),
    refusal (TeamRoster.afterRead table.toLowercase (.addAgent userId { req with name := normalForm table name }) row) =
      refusal (TeamRoster.afterRead table.toLowercase (.addAgent userId { req with name := name }) row)
  rename : ∀ agents slotId, refusal (TeamRoster.renameIn table.toLowercase agents slotId (normalForm table name)) =
    refusal (TeamRoster.renameIn table.toLowercase agents slotId name)
  renameSlot : ∀ agents slotId, refusal (TeamMcp.renameSlot table.toLowercase agents slotId (normalForm table name)) =
    refusal (TeamMcp.renameSlot table.toLowercase agents slotId name)

-- The letters of a name, less its control characters and what surrounds it.
def letters (name : String) : List Char := EndTrims.trim isWhitespace (name.toList.filter fun c => !isControl c)

def Alike (name other : String) : Prop := List.Forall₂ table.SameLetter (letters name) (letters other)

-- Trimmed of its white space, a name has no more of it behind a control character
-- at an end.
def Tidy (name : String) : Prop := Clear isWhitespace isControl (EndTrims.trim isWhitespace name.toList)

def SameSigmas (name other : String) : Prop := table.finalSigmas [] (letters name) = table.finalSigmas [] (letters other)

end Names

section Lists
variable {table : CaseTable} {name other : String}

theorem trim_toList (name : String) : (RustText.trim name).toList = EndTrims.trim isWhitespace name.toList := by
  rw [RustText.trim,String.toList_ofList]
  rfl

-- What is left of a name before its letters become small.
def kept (name : String) : List Char := (EndTrims.trim isWhitespace name.toList).filter fun c => !isControl c

theorem normalForm_toList (table : CaseTable) (name : String) : (normalForm table name).toList = table.lowerFrom [] (kept name) := by
  rw [normalForm,normalizeName,CaseTable.toLowercase,String.toList_ofList,String.toList_ofList,trim_toList]
  rfl

theorem normalForm_plain : ∀ c ∈ (normalForm table name).toList, isControl c = false := by
  rw [normalForm_toList]
  exact lowerFrom_free table.control (by decide) (by decide) fun c inside => by simpa using (List.mem_filter.mp inside).2

theorem normalForm_bare : Bare isWhitespace (normalForm table name).toList ↔ Tidy name := by
  rw [normalForm_toList,Tidy,← filter_bare]
  exact and_congr lowerFrom_head lowerFrom_last

theorem normalForm_idempotent (tidy : Tidy name) : normalForm table (normalForm table name) = normalForm table name := by
  have same : kept (normalForm table name) = (normalForm table name).toList := by
    rw [kept,trim_same (normalForm_bare.mpr tidy)]
    exact List.filter_eq_self.mpr fun c inside => by rw [normalForm_plain c inside]; rfl
  apply String.toList_injective
  rw [normalForm_toList,same,normalForm_toList]
  exact lowerFrom_same lowerFrom_small

theorem kept_letters (tidy : Tidy name) : kept name = letters name := (trim_filter ((filter_bare _).mpr tidy)).symm

theorem normalForm_alike (tidy : Tidy name) (tidy' : Tidy other) (alike : Alike table name other) :
    normalForm table name = normalForm table other ↔ SameSigmas table name other := by
  rw [← String.toList_inj,normalForm_toList,normalForm_toList,kept_letters tidy,kept_letters tidy']
  exact lowerFrom_agree .nil alike

end Lists

section Answers
variable {table : CaseTable} {name : String}

theorem normalForm_trim (name : String) : normalizeName table.toLowercase (RustText.trim name) = normalForm table name := by
  rw [normalizeName,trim_toList,trim_toList,trim_same (trim_bare _),← trim_toList]
  rfl

theorem spawnNameCheck_kind (agents : List TeamAgent) (name : String) :
    (spawnNameCheck table.toLowercase agents name).map kind =
      if (normalForm table name).isEmpty then some (.invalidRequest "")
      else if agents.any fun agent => normalForm table agent.name == normalForm table name then some (.duplicateAgentName "")
      else none := by
  simp only [spawnNameCheck,normalForm_trim]
  by_cases empty : (RustText.trim name).isEmpty
  · have none_ : EndTrims.trim isWhitespace name.toList = [] := by
      rw [← trim_toList,String.isEmpty_iff.mp empty]
      rfl
    have bare : normalForm table name = "" := by
      rw [← String.toList_inj,normalForm_toList,kept,none_]
      rfl
    rw [if_pos empty,if_pos (String.isEmpty_iff.mpr bare)]
    rfl
  · rw [if_neg empty]
    split
    · rfl
    · by_cases taken : (agents.any fun agent => normalForm table agent.name == normalForm table name) = true
      · rw [if_pos taken]
        exact congrArg (Option.map kind) (if_pos taken)
      · rw [if_neg taken]
        exact congrArg (Option.map kind) (if_neg taken)

theorem canonical_tidy (tidy : Tidy name) : Canonical table name := by
  have same : normalizeName table.toLowercase (normalForm table name) = normalizeName table.toLowercase name := normalForm_idempotent tidy
  refine ⟨normalForm_idempotent tidy,normalForm_bare.mpr tidy,normalForm_plain,?_,?_,?_,?_⟩
  · intro agents
    rw [spawnNameCheck_kind,spawnNameCheck_kind,normalForm_idempotent tidy]
  · intro row userId req
    simp only [TeamRoster.afterRead]
    split <;> simp only [refusal]
  · intro agents slotId
    simp only [TeamRoster.renameIn,same]
    split
    · rfl
    · split
      · simp only [refusal,kind]
      · cases agents.findIdx? (·.slotId == slotId) <;> simp only [refusal]
  · intro agents slotId
    simp only [TeamMcp.renameSlot,same]
    split
    · rfl
    · split
      · rfl
      · split <;> simp only [refusal,kind]

end Answers

theorem names_canonical_iff (table : CaseTable) (name other : String) :
    Canonical table name ∧ Canonical table other ∧ (Alike table name other → normalForm table name = normalForm table other) ↔
      Tidy name ∧ Tidy other ∧ (Alike table name other → SameSigmas table name other) := by
  constructor
  · rintro ⟨canonical,canonical',agree⟩
    have tidy := normalForm_bare.mp canonical.ends
    have tidy' := normalForm_bare.mp canonical'.ends
    exact ⟨tidy,tidy',fun alike => (normalForm_alike tidy tidy' alike).mp (agree alike)⟩
  · rintro ⟨tidy,tidy',agree⟩
    exact ⟨canonical_tidy tidy,canonical_tidy tidy',fun alike => (normalForm_alike tidy tidy' alike).mpr (agree alike)⟩

section Examples

-- A capital sigma at the end of a word has another lowercase than a small one has.
example : normalForm asciiCase "ΣΣ" = "σς" ∧ normalForm asciiCase "Σσ" = "σσ" := by decide

theorem hidden_space_kept : ¬∀ (table : CaseTable) (name other : String),
    Canonical table name ∧ Canonical table other ∧ (Alike table name other → normalForm table name = normalForm table other) := by
  intro claimed
  have ends := (claimed asciiCase "\x00 Leader" "leader").1.ends.1 ' ' (by decide)
  exact absurd ends (by decide)

end Examples

end AlineaCopilot.AgentNames
