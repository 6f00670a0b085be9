import Mathlib.Data.List.Basic

namespace AlineaCopilot.MessageTable

inductive DbError where
  | notFound (text : String)
  | query (text : String)
deriving DecidableEq, Repr

-- A row of the message table. What the content column holds is up to the reader.
structure MessageRow (κ : Type) where
  id : String
  conversationId : String
  msgId : Option String
  type : String
  content : κ
  position : Option String
  status : Option String
  hidden : Bool
  createdAt : Int
deriving DecidableEq, Repr

structure MessageRowUpdate (κ : Type) where
  content : Option κ := none
  status : Option (Option String) := none
  hidden : Option Bool := none
deriving DecidableEq, Repr

abbrev Messages (κ : Type) := List (MessageRow κ)

section Repository
variable {κ : Type}

def MessageRowUpdate.isEmpty (update : MessageRowUpdate κ) : Bool :=
  update.content.isNone && update.status.isNone && update.hidden.isNone

def MessageRowUpdate.apply (update : MessageRowUpdate κ) (row : MessageRow κ) : MessageRow κ := { row with
  content := update.content.getD row.content
  status := update.status.getD row.status
  hidden := update.hidden.getD row.hidden }

-- The id is the key of the whole table, whatever conversation the row is of.
def insertMessage (conversationExists : String → Bool) (messages : Messages κ) (row : MessageRow κ) :
    Except DbError (Messages κ) :=
  if messages.any fun other => other.id = row.id then .error (.query "UNIQUE constraint failed: messages.id")
  else if conversationExists row.conversationId then .ok (messages ++ [row])
  else .error (.query "FOREIGN KEY constraint failed")

-- `UPDATE messages .. WHERE id = ?`.
def updateMessage (messages : Messages κ) (id : String) (update : MessageRowUpdate κ) : Except DbError (Messages κ) :=
  if update.isEmpty then .ok messages
  else if messages.any fun row => row.id = id then
    .ok (messages.map fun row => if row.id = id then update.apply row else row)
  else .error (.notFound s!"Message '{id}' not found")

def getMessageByMsgId (messages : Messages κ) (conversationId msgId type : String) : Option (MessageRow κ) :=
  messages.find? fun row => row.conversationId = conversationId && row.msgId = some msgId && row.type = type

def deleteMessagesByConversation (messages : Messages κ) (conversationId : String) : Messages κ :=
  messages.filter fun row => row.conversationId ≠ conversationId

end Repository

section Rows
variable {κ : Type} {messages next : Messages κ} {id : String}

theorem insertMessage_ok (inserted : insertMessage known messages row = .ok next) :
    (∀ other ∈ messages, other.id ≠ row.id) ∧ known row.conversationId = true ∧ next = messages ++ [row] := by
  unfold insertMessage at inserted
  split at inserted
  · cases inserted
  · rename_i new
    split at inserted
    · rename_i present
      cases inserted
      exact ⟨by simpa using new,present,rfl⟩
    · cases inserted

theorem updateMessage_ok (updated : updateMessage messages id update = .ok next) :
    next = messages.map fun row => if row.id = id then update.apply row else row := by
  unfold updateMessage at updated
  split at updated
  · rename_i empty
    cases updated
    simp only [MessageRowUpdate.isEmpty,Bool.and_eq_true,Option.isNone_iff_eq_none] at empty
    have same : ∀ row : MessageRow κ, (if row.id = id then update.apply row else row) = row := by
      intro row
      simp [MessageRowUpdate.apply,empty]
    simp [same]
  · split at updated
    · cases updated; rfl
    · cases updated

theorem insertMessage_new {row : MessageRow κ} (known : String → Bool) (present : known row.conversationId = true)
    (new : ∀ other ∈ messages, other.id ≠ row.id) : insertMessage known messages row = .ok (messages ++ [row]) := by
  unfold insertMessage
  rw [if_neg (by simpa using new),if_pos present]

theorem updateMessage_cases (messages : Messages κ) (id : String) (changes : MessageRowUpdate κ) (some_status : changes.status = some status) :
    ((∃ row ∈ messages, row.id = id) ∧ updateMessage messages id changes =
      .ok (messages.map fun row => if row.id = id then changes.apply row else row)) ∨
    ((∀ row ∈ messages, row.id ≠ id) ∧ updateMessage messages id changes = .error (.notFound s!"Message '{id}' not found")) := by
  have full : changes.isEmpty = false := by simp [MessageRowUpdate.isEmpty,some_status]
  unfold updateMessage
  rw [full]
  by_cases present : ∃ row ∈ messages, row.id = id
  · exact .inl ⟨present,by simpa using present⟩
  · refine .inr ⟨fun row inside same => present ⟨row,inside,same⟩,?_⟩
    simpa using present

theorem apply_apply (changes : MessageRowUpdate κ) (row : MessageRow κ) :
    changes.apply (changes.apply row) = changes.apply row := by
  rcases changes with ⟨_ | content,_ | status,_ | hidden⟩ <;> rfl

end Rows

end AlineaCopilot.MessageTable
