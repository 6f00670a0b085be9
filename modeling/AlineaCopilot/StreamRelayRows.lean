import AlineaCopilot.StreamRelays
open AlineaCopilot.KeyedMaps AlineaCopilot.MessageTable AlineaCopilot.ConversationRuntime
open AlineaCopilot.StreamPersistence

namespace AlineaCopilot.StreamRelays

section Rows

-- The text rows that were not in the table before the turn, in the order in
-- which their segments began.
def textRows (origin messages : Messages Content) : Messages Content :=
  messages.filter fun row => row.type = "text" && origin.all fun old => old.id ≠ row.id

def Content.text : Content → String
  | .object fields => match fields.lookup "content" with
    | some (.leaf (.text text)) => text
    | _ => ""
  | _ => ""

def rowText (row : Row) : String := Content.text row.content

@[simp] theorem text_textContent (text : String) : Content.text (textContent text) = text := rfl

-- What a reader of the table sees of a row.
structure RowView where
  id : String
  text : String
  hidden : Bool
deriving DecidableEq, Repr

def view (row : Row) : RowView := ⟨row.id,rowText row,row.hidden⟩

def visibleIn (rows : Messages Content) (id : String) : String :=
  match rows.find? fun row => row.id = id with
  | none => ""
  | some row => if row.hidden then "" else rowText row

end Rows

section Replay

-- A client's texts: content is appended under its message id, and a payload
-- that replaces takes the place of what is there.
def replayOne (shown : String → String × Bool) (payload : StreamPayload) : String → String × Bool :=
  if payload.type = "content" then
    Function.update shown payload.msgId
      (if payload.replace then (payload.text,payload.hidden)
        else ((shown payload.msgId).1 ++ payload.text,(shown payload.msgId).2))
  else shown

def replay (payloads : List StreamPayload) : String → String × Bool := payloads.foldl replayOne fun _ => ("",false)

def visibleTo (shown : String × Bool) : String := if shown.2 then "" else shown.1

theorem replay_append (before after : List StreamPayload) : replay (before ++ after) = after.foldl replayOne (replay before) :=
  List.foldl_append ..

theorem replay_other (payloads : List StreamPayload) {payload : StreamPayload} (other : payload.type ≠ "content") :
    replay (payloads ++ [payload]) = replay payloads := by
  rw [replay_append]
  simp [replayOne,other]

theorem replay_others (shown : String → String × Bool) (later : List StreamPayload)
    (other : ∀ payload ∈ later, payload.type ≠ "content") : later.foldl replayOne shown = shown := by
  induction later generalizing shown with
  | nil => rfl
  | cons payload rest ih =>
    have head : replayOne shown payload = shown := by simp [replayOne,other payload List.mem_cons_self]
    rw [List.foldl_cons,head]
    exact ih shown fun payload inside => other payload (List.mem_cons_of_mem _ inside)

end Replay

section Updates
variable {origin messages next : Messages Content} {relay : StreamRelay} {changes : RowUpdate}

theorem textRows_map (keeps : ∀ row, (change row).id = row.id ∧ (change row).type = row.type) :
    textRows origin (messages.map change) = (textRows origin messages).map change := by
  unfold textRows
  rw [List.filter_map]
  congr 1
  refine List.filter_congr fun row _ => ?_
  simp [keeps row]

def updateRow (id : String) (changes : RowUpdate) (row : Row) : Row := if row.id = id then changes.apply row else row

theorem updateRow_keeps (id : String) (changes : RowUpdate) (row : Row) :
    (updateRow id changes row).id = row.id ∧ (updateRow id changes row).type = row.type := by
  unfold updateRow
  split <;> exact ⟨rfl,rfl⟩

-- An update of a row that is not there changes nothing either.
theorem attempt_update (relay : StreamRelay) (messages : Messages Content) (id : String) (changes : RowUpdate) :
    relay.attempt messages (.update id changes) = messages.map (updateRow id changes) := by
  unfold StreamRelay.attempt
  split
  · rename_i next done
    exact updateMessage_ok done
  · rename_i error failed
    simp only [Write.attempt,updateMessage] at failed
    split at failed
    · cases failed
    · split at failed
      · cases failed
      · rename_i absent
        have same : ∀ row ∈ messages, updateRow id changes row = row := by
          intro row inside
          refine if_neg fun equal => absent ?_
          exact List.any_eq_true.mpr ⟨row,inside,decide_eq_true equal⟩
        exact ((List.map_congr_left same).trans (List.map_id _)).symm

theorem write_update (relay : StreamRelay) (messages : Messages Content) (id : String) (changes : RowUpdate) :
    relay.write messages (.update id changes) = messages.map (updateRow id changes) := by
  rw [← attempt_update relay]
  unfold StreamRelay.write StreamRelay.attempt
  split <;> rfl

-- The same update for several ids.
theorem writes_update (ids : List String) (messages : Messages Content) :
    textRows origin ((ids.map fun id => Write.update id changes).foldl relay.write messages) =
      (textRows origin messages).map fun row => if row.id ∈ ids then changes.apply row else row := by
  induction ids generalizing messages with
  | nil => simp
  | cons id rest ih =>
    rw [List.map_cons,List.foldl_cons,ih,write_update,textRows_map (updateRow_keeps id changes),List.map_map]
    refine List.map_congr_left fun row _ => ?_
    simp only [Function.comp,(updateRow_keeps id changes row).1,List.mem_cons]
    by_cases same : row.id = id
    · by_cases again : row.id ∈ rest
      · simp only [updateRow,if_pos same,if_pos again,if_pos (Or.inl same),apply_apply]
      · simp only [updateRow,if_pos same,if_neg again,if_pos (Or.inl same)]
    · simp only [updateRow,same,if_false,false_or]

end Updates

section Aside
variable {origin messages next : Messages Content} {relay : StreamRelay} {x : String} {write : Write}

-- A write under an id that no text row of the turn has leaves them as they are.
def Beside (x : String) : Write → Prop
  | .insert row => row.id = x ∧ row.type ≠ "text"
  | .update id _ => id = x
  | .updateOrInsert id _ row => id = x ∧ row.id = x ∧ row.type ≠ "text"

structure Aside (origin messages : Messages Content) (x : String) (next : Messages Content) : Prop where
  text : textRows origin next = textRows origin messages
  ids : ∀ row ∈ next, row.id = x ∨ ∃ old ∈ messages, old.id = row.id

theorem Aside.refl (origin messages : Messages Content) (x : String) : Aside origin messages x messages :=
  ⟨rfl,fun row inside => .inr ⟨row,inside,rfl⟩⟩

theorem Aside.trans (first : Aside origin messages x middle) (second : Aside origin middle x next) :
    Aside origin messages x next := by
  refine ⟨second.text.trans first.text,fun row inside => ?_⟩
  rcases second.ids row inside with same | ⟨old,earlier,same⟩
  · exact .inl same
  · rcases first.ids old earlier with named | ⟨older,before,again⟩
    · exact .inl (same ▸ named)
    · exact .inr ⟨older,before,again.trans same⟩

theorem aside_insert (row : Row) (id : row.id = x) (other : row.type ≠ "text") : Aside origin messages x (messages ++ [row]) := by
  refine ⟨by simp [textRows,other],fun new inside => ?_⟩
  rcases List.mem_append.mp inside with earlier | last
  · exact .inr ⟨new,earlier,rfl⟩
  · cases List.mem_singleton.mp last
    exact .inl id

theorem aside_update (changes : RowUpdate) (off : ∀ row ∈ textRows origin messages, row.id ≠ x) :
    Aside origin messages x (messages.map (updateRow x changes)) := by
  refine ⟨?_,fun new inside => ?_⟩
  · rw [textRows_map (updateRow_keeps x changes)]
    have same : ∀ row ∈ textRows origin messages, updateRow x changes row = row := fun row inside => if_neg (off row inside)
    exact (List.map_congr_left same).trans (List.map_id _)
  · obtain ⟨old,earlier,rfl⟩ := List.mem_map.mp inside
    exact .inr ⟨old,earlier,(updateRow_keeps x changes old).1.symm⟩

theorem aside_attempt (relay : StreamRelay) (beside : Beside x write) (off : ∀ row ∈ textRows origin messages, row.id ≠ x) :
    Aside origin messages x (relay.attempt messages write) := by
  cases write with
  | insert row =>
    unfold StreamRelay.attempt
    split
    · rename_i done
      obtain ⟨_,_,rfl⟩ := insertMessage_ok done
      exact aside_insert row beside.1 beside.2
    · exact .refl ..
  | update id changes =>
    have same : id = x := beside
    rw [attempt_update,same]
    exact aside_update changes off
  | updateOrInsert id changes row =>
    have equal : relay.attempt messages (.updateOrInsert id changes row) = relay.attempt messages (.update id changes) := rfl
    rw [equal,attempt_update,beside.1]
    exact aside_update changes off

theorem aside_write (relay : StreamRelay) (beside : Beside x write) (off : ∀ row ∈ textRows origin messages, row.id ≠ x) :
    Aside origin messages x (relay.write messages write) := by
  have attempted := aside_attempt relay beside off
  cases failed : write.attempt relay.known messages with
  | ok next =>
    have same : relay.write messages write = relay.attempt messages write := by
      simp [StreamRelay.write,StreamRelay.attempt,failed]
    rwa [same]
  | error error =>
    have same : relay.write messages write = (write.afterwards error).foldl relay.attempt messages := by
      simp [StreamRelay.write,failed]
    rw [same]
    cases write with
    | insert | update => exact .refl ..
    | updateOrInsert id changes row =>
      cases error with
      | query => exact .refl ..
      | notFound => exact aside_attempt relay beside.2 off

theorem aside_writes {writes : List Write} (beside : ∀ write ∈ writes, Beside x write)
    (off : ∀ row ∈ textRows origin messages, row.id ≠ x) : Aside origin messages x (writes.foldl relay.write messages) := by
  induction writes generalizing messages with
  | nil => exact .refl ..
  | cons write rest ih =>
    have first := aside_write relay (beside write List.mem_cons_self) off
    refine first.trans (ih (fun write inside => beside write (List.mem_cons_of_mem _ inside)) ?_)
    rw [first.text]
    exact off

-- The id an operation other than on text writes under.
def besideId : Operation → Option String
  | .errorTip mintedId _ | .tip mintedId _ => some mintedId
  | .thinking segment _ => some segment.id
  | .toolCall data => some data.callId
  | .acpToolCall data => some data.toolCallId
  | .toolGroup mintedId entries => some (groupId mintedId entries)
  | _ => none

theorem writes_beside (adapter : Adapter) (now : Int) (existing : Option Row) {operation : Operation}
    (named : besideId operation = some x) : ∀ write ∈ operation.writes adapter now existing, Beside x write := by
  intro write inside
  cases operation with
  | flushText | finalizeText | finalText => cases named
  | errorTip | tip | thinking =>
    cases named
    cases List.mem_singleton.mp inside
    exact ⟨rfl,by simp [Adapter.tipRow,Adapter.row]⟩
  | toolCall data =>
    cases named
    cases existing <;> cases List.mem_singleton.mp inside
    · exact ⟨rfl,by simp [Adapter.row]⟩
    · rfl
  | acpToolCall data =>
    cases named
    simp only [Operation.writes,acpToolCallWrites] at inside
    split at inside <;> cases List.mem_singleton.mp inside
    · exact ⟨rfl,by simp [Adapter.row]⟩
    · exact ⟨rfl,rfl,by simp [Adapter.row]⟩
  | toolGroup mintedId entries =>
    cases named
    cases existing <;> cases List.mem_singleton.mp inside
    · exact ⟨rfl,by simp [Adapter.row]⟩
    · rfl

theorem persist_aside (named : besideId operation = some x) (off : ∀ row ∈ textRows origin messages, row.id ≠ x) (now : Int) :
    Aside origin messages x (relay.persist messages operation now) := by
  unfold StreamRelay.persist
  split
  · exact .refl ..
  · exact aside_writes (writes_beside _ _ _ named) off

end Aside

end AlineaCopilot.StreamRelays
