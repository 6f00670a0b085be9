import AlineaCopilot.StreamRelaySlots
open AlineaCopilot.KeyedMaps AlineaCopilot.MessageTable AlineaCopilot.ConversationRuntime
open AlineaCopilot.StreamPersistence AlineaCopilot.TransitionRuns

namespace AlineaCopilot.StreamRelays

section Growth
variable {messages middle next : Messages Content} {written : Option (String × String)} {relay : StreamRelay} {write : Write}

-- A table that may have rows of one id and type more. Rows that were there keep
-- theirs.
def Grown (written : Option (String × String)) (messages next : Messages Content) : Prop :=
  ∃ (change : Row → Row) (added : Messages Content), (∀ row, (change row).id = row.id ∧ (change row).type = row.type) ∧
    (∀ row ∈ added, written = some (row.id,row.type)) ∧ next = messages.map change ++ added

def thinkingRows (messages : Messages Content) (id : String) : Nat :=
  messages.countP fun row => row.id = id && row.type = "thinking"

def Adds (written : String × String) : Write → Prop
  | .insert row | .updateOrInsert _ _ row => written = (row.id,row.type)
  | .update _ _ => True

theorem Grown.refl (written : Option (String × String)) (messages : Messages Content) : Grown written messages messages :=
  ⟨id,[],fun _ => ⟨rfl,rfl⟩,nofun,by simp⟩

theorem Grown.trans (first : Grown written messages middle) (second : Grown written middle next) : Grown written messages next := by
  obtain ⟨change,added,keeps,new,rfl⟩ := first
  obtain ⟨again,more,holds,newer,rfl⟩ := second
  refine ⟨again ∘ change,added.map again ++ more,fun row => ?_,fun row inside => ?_,by simp⟩
  · exact ⟨(holds _).1.trans (keeps row).1,(holds _).2.trans (keeps row).2⟩
  · rcases List.mem_append.mp inside with earlier | last
    · obtain ⟨old,member,rfl⟩ := List.mem_map.mp earlier
      rw [(holds old).1,(holds old).2]
      exact new old member
    · exact newer row last

theorem grown_insert (row : Row) : Grown (some (row.id,row.type)) messages (messages ++ [row]) :=
  ⟨id,[row],fun _ => ⟨rfl,rfl⟩,fun other inside => by rw [List.mem_singleton.mp inside],by simp⟩

theorem grown_update (written : Option (String × String)) (id : String) (changes : RowUpdate) :
    Grown written messages (messages.map (updateRow id changes)) :=
  ⟨updateRow id changes,[],updateRow_keeps id changes,nofun,by simp⟩

theorem grown_attempt {kind : String × String} (relay : StreamRelay) (adds : Adds kind write) :
    Grown (some kind) messages (relay.attempt messages write) := by
  cases write with
  | insert row =>
    unfold StreamRelay.attempt
    split
    · rename_i done
      obtain ⟨_,_,rfl⟩ := insertMessage_ok done
      rw [show kind = (row.id,row.type) from adds]
      exact grown_insert row
    · exact .refl ..
  | update id changes =>
    rw [attempt_update]
    exact grown_update _ id changes
  | updateOrInsert id changes row =>
    have same : relay.attempt messages (.updateOrInsert id changes row) = relay.attempt messages (.update id changes) := rfl
    rw [same,attempt_update]
    exact grown_update _ id changes

theorem grown_write {kind : String × String} (relay : StreamRelay) (adds : Adds kind write) :
    Grown (some kind) messages (relay.write messages write) := by
  have attempted : Grown (some kind) messages (relay.attempt messages write) := grown_attempt relay adds
  unfold StreamRelay.write StreamRelay.attempt at *
  split
  · rename_i done
    rwa [done] at attempted
  · cases write with
    | insert | update => exact .refl ..
    | updateOrInsert id changes row =>
      rename_i error failed
      cases error with
      | query => exact .refl ..
      | notFound =>
        have inserted : Adds kind (.insert row) := adds
        exact grown_attempt relay inserted

theorem grown_writes {kind : String × String} {writes : List Write} (relay : StreamRelay)
    (adds : ∀ write ∈ writes, Adds kind write) : Grown (some kind) messages (writes.foldl relay.write messages) := by
  induction writes generalizing messages with
  | nil => exact .refl ..
  | cons write rest ih =>
    exact (grown_write relay (adds write List.mem_cons_self)).trans (ih fun later inside => adds later (List.mem_cons_of_mem _ inside))

theorem Grown.ids (grown : Grown written messages next) (inside : row ∈ next) :
    (∃ old ∈ messages, old.id = row.id) ∨ ∃ type, written = some (row.id,type) := by
  obtain ⟨change,added,keeps,new,rfl⟩ := grown
  rcases List.mem_append.mp inside with earlier | last
  · obtain ⟨old,member,rfl⟩ := List.mem_map.mp earlier
    exact .inl ⟨old,member,(keeps old).1.symm⟩
  · exact .inr ⟨row.type,new row last⟩

theorem Grown.thinking (grown : Grown written messages next) (other : written ≠ some (x,"thinking")) :
    thinkingRows next x = thinkingRows messages x := by
  obtain ⟨change,added,keeps,new,rfl⟩ := grown
  have none : added.countP (fun row => row.id = x && row.type = "thinking") = 0 := by
    refine List.countP_eq_zero.mpr fun row inside found => other ?_
    simp only [Bool.and_eq_true,decide_eq_true_eq] at found
    rw [new row inside,found.1,found.2]
  unfold thinkingRows
  rw [List.countP_append,none,List.countP_map,Nat.add_zero]
  refine List.countP_congr fun row _ => ?_
  simp only [Function.comp,(keeps row).1,(keeps row).2]

theorem absent_thinking (absent : ∀ row ∈ messages, row.id ≠ x) : thinkingRows messages x = 0 := by
  refine List.countP_eq_zero.mpr fun row inside found => absent row inside ?_
  simp only [Bool.and_eq_true,decide_eq_true_eq] at found
  exact found.1

end Growth

section Operations
variable {messages : Messages Content}

-- The row that an operation may add.
def operationRow (adapter : Adapter) : Operation → String × String
  | .flushText segment | .finalizeText segment _ => (segment.id,"text")
  | .finalText _ _ _ _ _ => (adapter.msgId,"text")
  | .errorTip mintedId _ | .tip mintedId _ => (mintedId,"tips")
  | .thinking segment _ => (segment.id,"thinking")
  | .toolCall data => (data.callId,"tool_call")
  | .acpToolCall data => (data.toolCallId,"acp_tool_call")
  | .toolGroup mintedId entries => (groupId mintedId entries,"tool_group")

theorem final_writes_add (adapter : Adapter) (now : Int) (segments : List String) (status text : String) (hidden rewrite : Bool) :
    ∀ write ∈ finalTextWrites adapter now segments status text hidden rewrite, Adds (adapter.msgId,"text") write := by
  intro write inside
  unfold finalTextWrites at inside
  cases segments with
  | nil =>
    cases hidden with
    | true => cases inside
    | false =>
      cases List.mem_singleton.mp inside
      rfl
  | cons primary others =>
    cases rewrite with
    | true =>
      rcases List.mem_cons.mp inside with rfl | later
      · trivial
      · obtain ⟨id,_,rfl⟩ := List.mem_map.mp later
        trivial
    | false =>
      obtain ⟨id,_,rfl⟩ := List.mem_map.mp inside
      trivial

theorem writes_add (adapter : Adapter) (now : Int) (existing : Option Row) (operation : Operation) :
    ∀ write ∈ operation.writes adapter now existing, Adds (operationRow adapter operation) write := by
  intro write inside
  cases operation with
  | flushText segment =>
    cases List.mem_singleton.mp inside
    unfold flushTextWrite
    split
    · trivial
    · rfl
  | finalizeText segment status =>
    cases List.mem_singleton.mp inside
    unfold finalizeTextWrite
    split
    · trivial
    · rfl
  | finalText segments status text hidden rewrite => exact final_writes_add adapter now segments status text hidden rewrite write inside
  | errorTip | tip | thinking =>
    cases List.mem_singleton.mp inside
    rfl
  | toolCall data =>
    cases existing <;> cases List.mem_singleton.mp inside
    · rfl
    · trivial
  | acpToolCall data =>
    simp only [Operation.writes,acpToolCallWrites] at inside
    split at inside <;> cases List.mem_singleton.mp inside <;> rfl
  | toolGroup mintedId entries =>
    cases existing <;> cases List.mem_singleton.mp inside
    · rfl
    · trivial

theorem persist_grown (relay : StreamRelay) (messages : Messages Content) (operation : Operation) (now : Int) :
    Grown (some (operationRow relay.adapter operation)) messages (relay.persist messages operation now) := by
  unfold StreamRelay.persist
  split
  · exact .refl ..
  · exact grown_writes relay (writes_add _ _ _ operation)

theorem finalize_grown (relay : StreamRelay) (messages : Messages Content) (segment : TextSegmentState) (status : String) :
    Grown (some (segment.id,"text")) messages (relay.finalizeTextSegment messages segment status).1 := by
  have attempted : Grown (some (segment.id,"text")) messages
      (relay.attempt messages (finalizeTextWrite relay.adapter segment status)) :=
    grown_attempt relay (writes_add relay.adapter 0 none (.finalizeText segment status) _ List.mem_cons_self)
  unfold StreamRelay.finalizeTextSegment
  unfold StreamRelay.attempt at attempted
  split
  · exact .refl ..
  · split at attempted <;> exact attempted

-- An insertion is noted under the id of the row, with whether the id is taken.
theorem insertion_noted (relay : StreamRelay) (operation : Operation) (now : Int) (messages : Messages Content)
    (inside : Note.inserted cause x taken ∈ noted relay operation now messages) :
    cause = operationCause operation ∧ x = (operationRow relay.adapter operation).1 ∧
      taken = messages.any fun row => row.id = x := by
  unfold noted insertions at inside
  split at inside
  · cases inside
  · obtain ⟨write,member,same⟩ := List.mem_filterMap.mp inside
    cases write with
    | insert row =>
      cases same
      have adds : operationRow relay.adapter operation = (row.id,row.type) := writes_add _ _ _ _ _ member
      exact ⟨rfl,(congrArg Prod.fst adds).symm,rfl⟩
    | update | updateOrInsert => cases same

-- A text segment is inserted once only.
theorem created_noted (relay : StreamRelay) (segment : TextSegmentState) (now : Int) (messages : Messages Content)
    (created : segment.recordCreated = true) (operation : Operation)
    (text : operation = .flushText segment ∨ ∃ status, operation = .finalizeText segment status) :
    noted relay operation now messages = [] := by
  unfold noted insertions
  split
  · rfl
  · rcases text with rfl | ⟨status,rfl⟩
    · simp [Operation.writes,flushTextWrite,created]
    · simp [Operation.writes,finalizeTextWrite,created]

theorem thinking_inserted (relay : StreamRelay) (row : Row) (thinking : row.type = "thinking")
    (absent : ∀ other ∈ messages, other.id ≠ row.id) :
    thinkingRows (relay.write messages (.insert row)) row.id = if relay.known row.conversationId then 1 else 0 := by
  have none := absent_thinking absent
  by_cases known : relay.known row.conversationId = true
  · have inserted : relay.write messages (.insert row) = messages ++ [row] := by
      simp only [StreamRelay.write,Write.attempt,insertMessage_new relay.known known absent]
    rw [inserted,if_pos known]
    unfold thinkingRows at none ⊢
    simp [List.countP_append,none,thinking]
  · have failed : relay.write messages (.insert row) = messages := by
      unfold StreamRelay.write
      split
      · rename_i next done
        exact absurd (insertMessage_ok done).2.1 known
      · rfl
    rw [failed,if_neg known,none]

theorem thinking_persisted (relay : StreamRelay) (segment : ThinkingSegmentState) (durationMs now : Int)
    (absent : ∀ row ∈ messages, row.id ≠ segment.id) :
    thinkingRows (relay.persist messages (.thinking segment durationMs) now) segment.id =
      if writable relay .assistantThinkingFinalize && !segment.buffer.isEmpty then 1 else 0 := by
  have inserted := thinking_inserted relay (relay.adapter.row segment.id "thinking" (thinkingContent segment durationMs)
    "finish" segment.startedAt) rfl absent
  have whole : relay.persist messages (.thinking segment durationMs) now =
      if !relay.allows .assistantThinkingFinalize || segment.buffer.isEmpty then messages
      else relay.write messages (.insert (relay.adapter.row segment.id "thinking" (thinkingContent segment durationMs)
        "finish" segment.startedAt)) := rfl
  rw [whole]
  unfold writable
  by_cases skipped : (!relay.allows .assistantThinkingFinalize || segment.buffer.isEmpty) = true
  · rw [if_pos skipped,absent_thinking absent]
    rcases Bool.or_eq_true_iff.mp skipped with barred | empty
    · simp [(Bool.not_eq_true' _).mp barred]
    · simp [empty]
  · rw [if_neg skipped]
    simp only [Bool.or_eq_true,not_or,Bool.not_eq_true',Bool.not_eq_true,Bool.not_eq_false] at skipped
    rw [skipped.1,skipped.2]
    simp only [Bool.true_and,Bool.not_false,Bool.and_true]
    exact inserted

end Operations

section Pieces
variable (relay : StreamRelay) (session : Session) (micro : Micro)

def flushes (segment : TextSegmentState) : Bool :=
  flushInterval ≤ segment.flushCounter && (relay.allows .assistantTextFlush && !segment.buffer.isEmpty)

-- The row that a piece may add.
def Micro.row : Micro → Option (String × String)
  | .completeThinking _ => session.activeThinking.map fun segment => (segment.id,"thinking")
  | .closeText _ => session.activeText.map fun segment => (segment.id,"text")
  | .flush _ => (session.activeText.filter (flushes relay)).map fun segment => (segment.id,"text")
  | .persist operation _ => some (operationRow relay.adapter operation)
  | .finalize received _ => (finalOperation relay received session).map (operationRow relay.adapter)
  | .text _ _ | .thinking _ _ | .forward _ => none

theorem flush_grown (segment : TextSegmentState) (now : Int) (active : session.activeText = some segment) :
    Grown (Micro.row relay session (.flush now)) session.messages (relay.flush segment now session).messages := by
  unfold Micro.row
  simp only [active,Option.filter_some]
  unfold StreamRelay.flush
  by_cases due : flushInterval ≤ segment.flushCounter
  · rw [if_pos due]
    by_cases writes : (relay.allows .assistantTextFlush && !segment.buffer.isEmpty) = true
    · rw [if_pos (by simpa [flushes,due] using writes)]
      exact persist_grown relay session.messages (.flushText segment) now
    · have skipped : relay.persist session.messages (.flushText segment) now = session.messages := by
        refine if_pos ?_
        simp only [Bool.and_eq_true,not_and_or,Bool.not_eq_true',Bool.not_eq_true,Bool.not_eq_false] at writes
        simp only [Operation.kind,Operation.skipped,Bool.or_eq_true,Bool.not_eq_true']
        exact writes
      show Grown _ _ (relay.persist session.messages (.flushText segment) now)
      rw [skipped]
      exact .refl ..
  · rw [if_neg due]
    exact .refl ..

theorem finalize_added (received : Received) (terminal : RelayTerminal) :
    Grown (Micro.row relay session (.finalize received terminal)) session.messages
      (relay.finalize received terminal session).1.messages := by
  unfold Micro.row
  simp only [finalOperation]
  unfold StreamRelay.finalize
  split
  · exact persist_grown ..
  · cases received.event with
    | error data code retryable => exact persist_grown relay session.messages (.errorTip received.mintedId data) received.now
    | text | tips | toolCall | acpToolCall | toolGroup | thinking | finish | other => exact .refl ..

theorem perform_grown : Grown (micro.row relay session) session.messages (micro.perform relay session).messages := by
  unfold Micro.perform
  cases micro with
  | completeThinking now =>
    unfold Micro.row
    simp only [StreamRelay.completeActiveThinking]
    cases session.activeThinking with
    | none => exact .refl ..
    | some segment => exact persist_grown relay session.messages (.thinking segment _) now
  | closeText status =>
    unfold Micro.row
    simp only [StreamRelay.closeActiveTextSegment]
    cases session.activeText with
    | none => exact .refl ..
    | some segment => exact finalize_grown ..
  | text received content =>
    unfold Micro.row
    simp only [textChunk,StreamRelay.openText]
    cases session.activeText <;> exact .refl ..
  | flush now =>
    cases active : session.activeText with
    | none => exact .refl ..
    | some segment => exact flush_grown relay session segment now active
  | thinking received data =>
    unfold Micro.row
    simp only [thinkingChunk,StreamRelay.openThinking]
    cases session.activeThinking <;> exact .refl ..
  | forward event => exact .refl ..
  | persist operation now => exact persist_grown ..
  | finalize received terminal => exact finalize_added ..

-- An open segment has the id, and no row was written for it.
def Session.Unwritten (x : String) : Prop :=
  (∃ segment, session.activeText = some segment ∧ segment.recordCreated = false ∧ segment.id = x) ∨
    ∃ segment, session.activeThinking = some segment ∧ segment.id = x

theorem opened_ids (slots : Slots) (x : String) :
    x ∈ slots.opened.map Prod.snd ↔ slots.text = some x ∨ slots.thinking = some x := by
  simp [Slots.opened]

theorem unwritten_opened (x : String) (unwritten : session.Unwritten x) : x ∈ session.slots.opened.map Prod.snd := by
  refine (opened_ids ..).mpr ?_
  rcases unwritten with ⟨segment,active,_,rfl⟩ | ⟨segment,active,rfl⟩
  · exact .inl (by simp [Session.slots,active])
  · exact .inr (by simp [Session.slots,active])

theorem flush_unwritten (segment : TextSegmentState) (now : Int) (active : session.activeText = some segment) (x : String)
    (unwritten : (relay.flush segment now session).Unwritten x) : session.Unwritten x ∧ flushes relay segment = false ∨
      ∃ thinking, session.activeThinking = some thinking ∧ thinking.id = x := by
  unfold StreamRelay.flush at unwritten
  split at unwritten
  · rename_i due
    rcases unwritten with ⟨after,same,uncreated,rfl⟩ | thinking
    · cases same
      obtain ⟨uncreated,dry⟩ := Bool.or_eq_false_iff.mp uncreated
      exact .inl ⟨.inl ⟨segment,active,uncreated,rfl⟩,by rw [flushes,dry,Bool.and_false]⟩
    · exact .inr thinking
  · rename_i early
    rcases unwritten with ⟨after,same,uncreated,rfl⟩ | thinking
    · cases same
      exact .inl ⟨.inl ⟨segment,active,uncreated,rfl⟩,by simp [flushes,early]⟩
    · exact .inr thinking

theorem perform_unwritten (x : String) (unwritten : (micro.perform relay session).Unwritten x) :
    session.Unwritten x ∨ x ∈ (session.slots.opens relay.adapter.msgId micro).map Prod.snd := by
  unfold Micro.perform at unwritten
  cases micro with
  | completeThinking now =>
    simp only [StreamRelay.completeActiveThinking] at unwritten
    cases active : session.activeThinking with
    | none =>
      rw [active] at unwritten
      exact .inl unwritten
    | some segment =>
      rw [active] at unwritten
      rcases unwritten with text | ⟨_,none,_⟩
      · exact .inl (.inl text)
      · cases none
  | closeText status =>
    simp only [StreamRelay.closeActiveTextSegment] at unwritten
    cases active : session.activeText with
    | none =>
      rw [active] at unwritten
      exact .inl unwritten
    | some segment =>
      rw [active] at unwritten
      rcases unwritten with ⟨_,none,_⟩ | thinking
      · cases none
      · exact .inl (.inr thinking)
  | text received content =>
    simp only [textChunk,StreamRelay.openText] at unwritten
    cases active : session.activeText with
    | none =>
      rw [active] at unwritten
      rcases unwritten with ⟨segment,same,_,rfl⟩ | thinking
      · cases same
        exact .inr (by simp [Slots.opens,Session.slots,active,Slots.mint,StreamRelay.mintSegmentMsgId])
      · exact .inl (.inr thinking)
    | some segment =>
      rw [active] at unwritten
      rcases unwritten with ⟨after,same,uncreated,rfl⟩ | thinking
      · cases same
        exact .inl (.inl ⟨segment,active,uncreated,rfl⟩)
      · exact .inl (.inr thinking)
  | flush now =>
    cases active : session.activeText with
    | none =>
      rw [active] at unwritten
      exact .inl unwritten
    | some segment =>
      rw [active] at unwritten
      rcases flush_unwritten relay session segment now active x unwritten with ⟨earlier,_⟩ | thinking
      · exact .inl earlier
      · exact .inl (.inr thinking)
  | thinking received data =>
    simp only [thinkingChunk,StreamRelay.openThinking] at unwritten
    cases active : session.activeThinking with
    | none =>
      rw [active] at unwritten
      rcases unwritten with text | ⟨segment,same,rfl⟩
      · exact .inl (.inl text)
      · cases same
        exact .inr (by simp [Slots.opens,Session.slots,active,Slots.mint,StreamRelay.mintSegmentMsgId])
    | some segment =>
      rw [active] at unwritten
      rcases unwritten with text | ⟨after,same,rfl⟩
      · exact .inl (.inl text)
      · cases same
        exact .inl (.inr ⟨segment,active,rfl⟩)
  | forward event => exact .inl unwritten
  | persist operation now => exact .inl unwritten
  | finalize received terminal =>
    have kept : (relay.finalize received terminal session).1.activeText = session.activeText ∧
        (relay.finalize received terminal session).1.activeThinking = session.activeThinking := by
      unfold StreamRelay.finalize
      split
      · exact ⟨rfl,rfl⟩
      · split <;> exact ⟨rfl,rfl⟩
    simp only [Session.Unwritten,kept.1,kept.2] at unwritten
    exact .inl unwritten

end Pieces

end AlineaCopilot.StreamRelays
