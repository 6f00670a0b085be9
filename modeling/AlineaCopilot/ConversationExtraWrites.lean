import AlineaCopilot.ConversationExtra
open AlineaCopilot.KeyedMaps AlineaCopilot.TransitionRuns AlineaCopilot.InterleavedRequests AlineaCopilot.MessageTable
open AlineaCopilot.ConversationRuntime

namespace AlineaCopilot.ConversationExtra

def fieldOf (conversations : KeyedMap String ConversationRow) (id key : String) : Option Field :=
  (conversations.lookup id).bind fun row => row.extra.field key

-- When a writer writes, the keys it does not change are as it read them.
def WritesUndisturbed (store : Store) (progress : Progress) (input : Input) : Prop :=
  ∀ id updates caller edit now row, progress = .writing id updates caller → updates.extra = some edit →
    input = .answer now → store.conversations.lookup id = some row →
      ∀ key, key ∉ edit.keys → row.extra.field key = edit.read.field key

def Undisturbed (system : System Store Progress) (action : Nat × Input) : Prop :=
  WritesUndisturbed system.store (system.threads action.1) action.2

section Effects
variable {store next : Store} {progress after : Progress} {input : Input} {id : String} {updates : ConversationRowUpdate}

-- Only the repository's update changes a row, and it writes the whole of `extra`.
inductive Effect (store : Store) (progress : Progress) (input : Input) (next : Store) : Prop where
  | nothing : next.conversations = store.conversations → next.writes = store.writes →
      (∀ id updates caller edit now row, progress = .writing id updates caller → updates.extra = some edit →
        input = .answer now → store.conversations.lookup id ≠ some row) → Effect store progress input next
  | updated (id : String) (updates : ConversationRowUpdate) (caller : Caller) (now : Int) (row : ConversationRow) :
      progress = .writing id updates caller → input = .answer now → store.conversations.lookup id = some row →
      next.conversations = store.conversations.insert id (updates.apply row) →
      next.writes = (match updates.extra with
        | none => store.writes
        | some edit => (id,edit) :: store.writes) → Effect store progress input next

theorem update_ok (updated : store.update id updates = .ok next) :
    (updates.isEmpty = true ∧ next = store) ∨ ∃ row, store.conversations.lookup id = some row ∧
      next.conversations = store.conversations.insert id (updates.apply row) ∧
      next.writes = (match updates.extra with
        | none => store.writes
        | some edit => (id,edit) :: store.writes) := by
  unfold Store.update at updated
  split at updated
  · cases updated
    rename_i empty
    exact .inl ⟨empty,rfl⟩
  · split at updated
    · cases updated
    · rename_i row found
      cases updated
      exact .inr ⟨row,found,rfl,rfl⟩

theorem update_error (failed : store.update id updates = .error error) : store.conversations.lookup id = none := by
  unfold Store.update at failed
  split at failed
  · cases failed
  · split at failed
    · assumption
    · cases failed

theorem isEmpty_extra (empty : updates.isEmpty = true) : updates.extra = none := by
  simp only [ConversationRowUpdate.isEmpty,Bool.and_eq_true,Option.isNone_iff_eq_none] at empty
  exact empty.1.1.2

theorem advance_effect (moved : advance store progress input = some (next,after)) : Effect store progress input next := by
  unfold advance at moved
  split at moved
  · rename_i id updates caller now
    split at moved
    · rename_i written
      cases moved
      rcases update_ok written with ⟨empty,rfl⟩ | ⟨row,found,conversations,writes⟩
      · refine .nothing rfl rfl ?_
        rintro _ _ _ edit _ _ ⟨⟩ extra
        rw [isEmpty_extra empty] at extra
        cases extra
      · exact .updated id updates caller now row rfl rfl found conversations writes
    · rename_i error failed
      cases moved
      refine .nothing rfl rfl ?_
      rintro _ _ _ _ _ row ⟨⟩ _ _
      simp [update_error failed]
  · cases moved
    refine .nothing rfl rfl ?_
    rintro _ _ _ _ _ _ _ _ ⟨⟩
  · rename_i outside writing
    obtain ⟨_,_,same⟩ := Option.map_eq_some_iff.mp moved
    cases same
    refine .nothing rfl rfl ?_
    rintro id updates caller _ now _ rfl _ rfl
    exact (writing id updates caller now rfl rfl).elim

end Effects

section Fields
variable {conversations : KeyedMap String ConversationRow} {id : String} {updates : ConversationRowUpdate} {row : ConversationRow}
  {edit : Edit}

end Fields

section Steps
variable {store next : Store} {progress : Progress} {input : Input} {origin : KeyedMap String ConversationRow} {id : String}
  {updates : ConversationRowUpdate} {row : ConversationRow} {edit : Edit}

end Steps

def quiet : Outside := ⟨.fresh,.ok,none,[]⟩

def oneChat : KeyedMap String ConversationRow :=
  (∅ : KeyedMap String ConversationRow).insert "chat" ⟨"ana","acp","Chat",false,none,none,none,.json (.object ∅),0⟩

def Progress.writes : Progress → Bool
  | .writing _ _ _ => true
  | _ => false

end AlineaCopilot.ConversationExtra
