import AlineaCopilot.StreamRelayRows
open AlineaCopilot.KeyedMaps AlineaCopilot.MessageTable AlineaCopilot.ConversationRuntime
open AlineaCopilot.StreamPersistence AlineaCopilot.StreamRelays

namespace AlineaCopilot.AcpToolCallRows

-- An event with the time at which it is persisted.
abbrev Event := AcpToolCallEventData × Int

def Event.named (toolCallId : String) (event : Event) : Event := ({event.1 with toolCallId := toolCallId},event.2)

def persistAcpToolCall (relay : StreamRelay) (messages : Messages Content) (event : Event) : Messages Content :=
  relay.persist messages (.acpToolCall event.1) event.2

def persistAll (relay : StreamRelay) (messages : Messages Content) (events : List Event) : Messages Content :=
  events.foldl (persistAcpToolCall relay) messages

def OfCall (relay : StreamRelay) (id : String) (row : Row) : Prop :=
  row.conversationId = relay.adapter.conversationId ∧ row.msgId = some id ∧ row.type = "acp_tool_call"

instance (relay : StreamRelay) (id : String) : DecidablePred (OfCall relay id) := fun _ => inferInstanceAs (Decidable (_ ∧ _ ∧ _))

def nonNull (found : Option Leaf) : Option Leaf := found.filter fun leaf => leaf ≠ .null

-- The latest value of a field that is not null, and the latest status.
def latest (key : String) (events : List Event) : Option Leaf :=
  events.foldl (fun found event => (nonNull (event.1.update.lookup key)).or found) none

def latestStatus (events : List Event) : Option AcpToolCallStatus :=
  events.foldl (fun found event => event.1.status.or found) none

-- One row holds the merge of the events.
def Merged (relay : StreamRelay) (id : String) (events : List Event) (messages : Messages Content) : Prop :=
  ∃ row fields update, messages.filter (fun row => OfCall relay id row) = [row] ∧ row.content = .object fields ∧
    fields.lookup "update" = some (.object update) ∧ (∀ key, nonNull (update.lookup key) = latest key events) ∧
    row.status = some (acpToolCallStatus (latestStatus events))

-- The events that reach the row: the first one, which creates it, and the updates.
def reaching : List Event → List Event
  | [] => []
  | first :: rest => first :: rest.filter fun event => event.1.sessionUpdate = .toolCallUpdate

def lastStatus (events : List Event) : Option AcpToolCallStatus := events.getLast?.bind fun event => event.1.status

section Overlay

theorem lookup_overlay_entries (entries : List (Sigma fun _ : String => Leaf)) (nodup : entries.NodupKeys) (base : KeyedMap String Leaf) (key : String) :
    nonNull ((entries.foldl (fun fields entry => if entry.2 = .null then fields else fields.insert entry.1 entry.2) base).lookup key) =
      (nonNull (entries.dlookup key)).or (nonNull (base.lookup key)) := by
  induction entries generalizing base with
  | nil => rfl
  | cons entry rest ih =>
    obtain ⟨k,leaf⟩ := entry
    obtain ⟨fresh,nodup⟩ := List.nodupKeys_cons.mp nodup
    rw [List.foldl_cons,ih nodup]
    by_cases same : key = k
    · subst same
      rw [List.dlookup_eq_none.mpr fresh,List.dlookup_cons_eq]
      by_cases null : leaf = .null
      · rw [if_pos null,null]
        rfl
      · have kept : nonNull (some leaf) = some leaf := by simp [nonNull,Option.filter,null]
        rw [if_neg null,lookup_insert_eq,if_pos rfl,kept]
        rfl
    · rw [List.dlookup_cons_ne _ _ same]
      split
      · rfl
      · rw [lookup_insert_eq,if_neg same]

-- A field that is not null goes over the one that was there.
theorem lookup_overlay (base new : KeyedMap String Leaf) (key : String) :
    nonNull ((overlayLeaves base new).lookup key) = (nonNull (new.lookup key)).or (nonNull (base.lookup key)) :=
  lookup_overlay_entries new.entries new.nodupKeys base key

theorem update_field (data : AcpToolCallEventData) : data.fields.lookup "update" = some (.object data.update) := by
  unfold AcpToolCallEventData.fields
  cases data.metadata with
  | none => exact (lookup_insert_eq _ _ _ _).trans (if_pos rfl)
  | some value =>
    show (AList.insert "_meta" _ _).lookup "update" = _
    rw [lookup_insert_eq,if_neg (by decide),lookup_insert_eq,if_pos rfl]

end Overlay

section Step
variable {relay : StreamRelay} {id : String} {messages : Messages Content} {row : Row} {event : Event}

-- The row of a call that its first event creates.
def firstRow (relay : StreamRelay) (event : Event) : Row :=
  relay.adapter.row event.1.toolCallId "acp_tool_call" (.object event.1.fields) (acpToolCallStatus event.1.status) event.2

-- What a later event makes of the row.
def absorb (row : Row) (event : Event) : Row :=
  if event.1.sessionUpdate = .toolCallUpdate then
    {row with content := mergeAcpToolCallContent row.content event.1.fields, status := some (acpToolCallStatus event.1.status)}
  else row

theorem found_none (fresh : ∀ row ∈ messages, ¬OfCall relay id row) :
    getMessageByMsgId messages relay.adapter.conversationId id "acp_tool_call" = none := by
  refine List.find?_eq_none.mpr fun row inside => ?_
  simp only [Bool.and_eq_true,decide_eq_true_eq,and_assoc]
  exact fresh row inside

theorem found_row (fresh : ∀ row ∈ messages, ¬OfCall relay id row) (call : OfCall relay id row) :
    getMessageByMsgId (messages ++ [row]) relay.adapter.conversationId id "acp_tool_call" = some row := by
  have here : (row.conversationId = relay.adapter.conversationId && row.msgId = some id && row.type = "acp_tool_call") = true := by
    simp only [Bool.and_eq_true,decide_eq_true_eq,and_assoc]
    exact call
  show List.find? _ (messages ++ [row]) = some row
  rw [List.find?_append,show messages.find? _ = none from found_none fresh]
  rw [Option.none_or,List.find?_singleton]
  exact if_pos here

theorem persist_call (allowed : relay.allows .acpToolCallPersist = true) (kind : event.1.sessionUpdate = .toolCall) :
    persistAcpToolCall relay messages event = relay.write messages (.insert (firstRow relay event)) := by
  have open_ : (!relay.allows .acpToolCallPersist || false) = false := by rw [allowed]; rfl
  simp only [persistAcpToolCall,StreamRelay.persist,Operation.kind,Operation.skipped,open_,Operation.writes,acpToolCallWrites,kind]
  rfl

-- What an update writes into the row.
def merged (event : Event) : Option Row → Content
  | none => .object event.1.fields
  | some row => mergeAcpToolCallContent row.content event.1.fields

theorem persist_update (allowed : relay.allows .acpToolCallPersist = true) (kind : event.1.sessionUpdate = .toolCallUpdate)
    (found : getMessageByMsgId messages relay.adapter.conversationId event.1.toolCallId "acp_tool_call" = existing) :
    persistAcpToolCall relay messages event = relay.write messages (.updateOrInsert event.1.toolCallId
      { content := some (merged event existing), status := some (some (acpToolCallStatus event.1.status)) }
      {firstRow relay event with content := merged event existing}) := by
  have open_ : (!relay.allows .acpToolCallPersist || false) = false := by rw [allowed]; rfl
  simp only [persistAcpToolCall,StreamRelay.persist,Operation.kind,Operation.skipped,open_,Operation.writes,acpToolCallWrites,kind,
    Operation.lookup,Option.bind_some,found]
  cases existing <;> rfl

theorem map_untouched {changes : RowUpdate} (free : ∀ row ∈ messages, row.id ≠ id) : messages.map (updateRow id changes) = messages :=
  (List.map_congr_left fun row inside => if_neg (free row inside)).trans (List.map_id _)

theorem ofCall_updateRow {other : String} {changes : RowUpdate} : OfCall relay id (updateRow other changes row) ↔ OfCall relay id row := by
  unfold updateRow
  split <;> exact Iff.rfl

theorem write_absent {changes : RowUpdate} {spare : Row} (some_status : changes.status = some status) (absent : ∀ row ∈ messages, row.id ≠ id) :
    relay.write messages (.updateOrInsert id changes spare) = relay.attempt messages (.insert spare) := by
  have failed : (Write.updateOrInsert id changes spare).attempt relay.known messages = .error (.notFound s!"Message '{id}' not found") := by
    rcases updateMessage_cases messages id changes some_status with ⟨⟨row,inside,same⟩,-⟩ | ⟨-,missing⟩
    · exact absurd same (absent row inside)
    · exact missing
  unfold StreamRelay.write
  rw [failed]
  rfl

theorem write_present {changes : RowUpdate} {spare : Row} (some_status : changes.status = some status) (present : ∃ row ∈ messages, row.id = id) :
    relay.write messages (.updateOrInsert id changes spare) = messages.map (updateRow id changes) := by
  have done : (Write.updateOrInsert id changes spare).attempt relay.known messages = .ok (messages.map (updateRow id changes)) := by
    rcases updateMessage_cases messages id changes some_status with ⟨-,done⟩ | ⟨missing,-⟩
    · exact done
    · obtain ⟨row,inside,same⟩ := present
      exact absurd same (missing row inside)
  unfold StreamRelay.write
  rw [done]

theorem attempt_new {spare : Row} (known : relay.known spare.conversationId = true) (free : ∀ row ∈ messages, row.id ≠ spare.id) :
    relay.attempt messages (.insert spare) = messages ++ [spare] := by
  unfold StreamRelay.attempt
  rw [show (Write.insert spare).attempt relay.known messages = _ from insertMessage_new relay.known known free]

theorem attempt_barred {spare : Row} (barred : relay.known spare.conversationId = true → ∃ row ∈ messages, row.id = spare.id) :
    relay.attempt messages (.insert spare) = messages := by
  unfold StreamRelay.attempt
  split
  · rename_i next done
    obtain ⟨free,known,-⟩ := insertMessage_ok done
    obtain ⟨row,inside,same⟩ := barred known
    exact absurd same (free row inside)
  · rfl

theorem write_insert (messages : Messages Content) (spare : Row) : relay.write messages (.insert spare) = relay.attempt messages (.insert spare) := by
  unfold StreamRelay.write StreamRelay.attempt
  split
  · rfl
  · rfl

theorem persist_first (allowed : relay.allows .acpToolCallPersist = true) (known : relay.known relay.adapter.conversationId = true)
    (free : ∀ row ∈ messages, row.id ≠ event.1.toolCallId) (fresh : ∀ row ∈ messages, ¬OfCall relay event.1.toolCallId row) :
    persistAcpToolCall relay messages event = messages ++ [firstRow relay event] := by
  cases kind : event.1.sessionUpdate with
  | toolCall =>
    rw [persist_call allowed kind,write_insert]
    exact attempt_new known free
  | toolCallUpdate =>
    rw [persist_update allowed kind (found_none fresh),write_absent rfl free]
    exact attempt_new known free

theorem persist_later (allowed : relay.allows .acpToolCallPersist = true) (named : event.1.toolCallId = id) (own : row.id = id) (call : OfCall relay id row)
    (free : ∀ row ∈ messages, row.id ≠ id) (fresh : ∀ row ∈ messages, ¬OfCall relay id row) :
    persistAcpToolCall relay (messages ++ [row]) event = messages ++ [absorb row event] := by
  have here : ∃ other ∈ messages ++ [row], other.id = id := ⟨row,List.mem_append_right _ List.mem_cons_self,own⟩
  subst named
  cases kind : event.1.sessionUpdate with
  | toolCall =>
    have same : absorb row event = row := if_neg (by rw [kind]; decide)
    rw [persist_call allowed kind,write_insert,same]
    exact attempt_barred fun _ => here
  | toolCallUpdate =>
    have others : messages.map (updateRow event.1.toolCallId
        { content := some (merged event (some row)), status := some (some (acpToolCallStatus event.1.status)) }) = messages :=
      map_untouched free
    have mine : updateRow event.1.toolCallId
        { content := some (merged event (some row)), status := some (some (acpToolCallStatus event.1.status)) } row = absorb row event := by
      rw [updateRow,if_pos own,absorb,if_pos kind]
      rfl
    rw [persist_update allowed kind (found_row fresh call),write_present rfl here,List.map_append,others,List.map_singleton,mine]

-- Nothing comes to the call where its writes are not allowed, its conversation is
-- gone or its id is the key of another row.
theorem persist_none (barred : relay.allows .acpToolCallPersist = true → relay.known relay.adapter.conversationId = true →
      ∃ row ∈ messages, row.id = id) (named : event.1.toolCallId = id) (fresh : ∀ row ∈ messages, ¬OfCall relay id row) :
    (relay.allows .acpToolCallPersist = true → relay.known relay.adapter.conversationId = true →
      ∃ row ∈ persistAcpToolCall relay messages event, row.id = id) ∧
    ∀ row ∈ persistAcpToolCall relay messages event, ¬OfCall relay id row := by
  subst named
  by_cases allowed : relay.allows .acpToolCallPersist = true
  · have unchanged {spare : Row} (own : spare.id = event.1.toolCallId) (home : spare.conversationId = relay.adapter.conversationId) :
        relay.attempt messages (.insert spare) = messages :=
      attempt_barred fun known => own ▸ barred allowed (home ▸ known)
    cases kind : event.1.sessionUpdate with
    | toolCall =>
      rw [persist_call allowed kind,write_insert,unchanged rfl rfl]
      exact ⟨barred,fresh⟩
    | toolCallUpdate =>
      rw [persist_update allowed kind (found_none fresh)]
      by_cases present : ∃ row ∈ messages, row.id = event.1.toolCallId
      · rw [write_present rfl present]
        constructor
        · intro _ _
          obtain ⟨row,inside,same⟩ := present
          exact ⟨_,List.mem_map_of_mem inside,(updateRow_keeps _ _ row).1.trans same⟩
        · intro row inside call
          obtain ⟨old,member,rfl⟩ := List.mem_map.mp inside
          exact fresh old member (ofCall_updateRow.mp call)
      · rw [write_absent rfl fun row inside same => present ⟨row,inside,same⟩,unchanged rfl rfl]
        exact ⟨barred,fresh⟩
  · have same : persistAcpToolCall relay messages event = messages := by
      unfold persistAcpToolCall StreamRelay.persist
      rw [if_pos]
      simp [Operation.kind,allowed]
    rw [same]
    exact ⟨barred,fresh⟩

end Step

section Runs
variable {relay : StreamRelay} {id : String} {messages : Messages Content} {row : Row} {events : List Event}

theorem all_none (barred : relay.allows .acpToolCallPersist = true → relay.known relay.adapter.conversationId = true →
      ∃ row ∈ messages, row.id = id) (named : ∀ event ∈ events, event.1.toolCallId = id) (fresh : ∀ row ∈ messages, ¬OfCall relay id row) :
    ∀ row ∈ persistAll relay messages events, ¬OfCall relay id row := by
  induction events generalizing messages with
  | nil => exact fresh
  | cons event rest ih =>
    obtain ⟨first,others⟩ := List.forall_mem_cons.mp named
    obtain ⟨barred,fresh⟩ := persist_none barred first fresh
    exact ih barred others fresh

theorem absorb_call (call : OfCall relay id row) (event : Event) : OfCall relay id (absorb row event) := by
  unfold absorb
  split <;> exact call

theorem call_all (call : OfCall relay id row) (events : List Event) : OfCall relay id (events.foldl absorb row) := by
  induction events generalizing row with
  | nil => exact call
  | cons event rest ih => exact ih (absorb_call call event)

theorem absorb_id (row : Row) (event : Event) : (absorb row event).id = row.id := by
  unfold absorb
  split <;> rfl

theorem all_later (allowed : relay.allows .acpToolCallPersist = true) (named : ∀ event ∈ events, event.1.toolCallId = id) (own : row.id = id)
    (call : OfCall relay id row) (free : ∀ row ∈ messages, row.id ≠ id) (fresh : ∀ row ∈ messages, ¬OfCall relay id row) :
    persistAll relay (messages ++ [row]) events = messages ++ [events.foldl absorb row] := by
  induction events generalizing row with
  | nil => rfl
  | cons event rest ih =>
    obtain ⟨first,others⟩ := List.forall_mem_cons.mp named
    have step := persist_later allowed first own call free fresh
    refine (congrArg (fun messages => persistAll relay messages rest) step).trans ?_
    exact ih others ((absorb_id row event).trans own) (absorb_call call event)

-- The row of a call holds the merge of the events that reached it.
structure Holds (row : Row) (events : List Event) : Prop where
  content : ∃ fields update, row.content = .object fields ∧ fields.lookup "update" = some (.object update) ∧
    ∀ key, nonNull (update.lookup key) = latest key events
  status : row.status = some (acpToolCallStatus (lastStatus events))

theorem holds_first (relay : StreamRelay) (event : Event) : Holds (firstRow relay event) [event] where
  content := ⟨_,_,rfl,update_field event.1,fun _ => Option.or_none.symm⟩
  status := rfl

theorem holds_absorb {event : Event} (holds : Holds row events) (update : event.1.sessionUpdate = .toolCallUpdate) :
    Holds (absorb row event) (events ++ [event]) := by
  obtain ⟨fields,old,content,there,same⟩ := holds.content
  have whole : absorb row event = {row with content := mergeAcpToolCallContent row.content event.1.fields, status := some (acpToolCallStatus event.1.status)} :=
    if_pos update
  refine ⟨⟨fields.insert "update" (.object (overlayLeaves old event.1.update)),overlayLeaves old event.1.update,?_,?_,fun key => ?_⟩,?_⟩
  · rw [whole,content]
    show mergeAcpToolCallContent (.object fields) event.1.fields = _
    unfold mergeAcpToolCallContent
    simp only [there,update_field]
  · rw [lookup_insert_eq,if_pos rfl]
  · rw [lookup_overlay,same,latest,latest,List.foldl_append]
    rfl
  · rw [whole,lastStatus,List.getLast?_concat]
    rfl

-- A repeated first event leaves the row as it is.
theorem holds_all (holds : Holds row events) (later : List Event) :
    Holds (later.foldl absorb row) (events ++ later.filter fun event => event.1.sessionUpdate = .toolCallUpdate) := by
  induction later generalizing row events with
  | nil =>
    rw [List.filter_nil,List.append_nil]
    exact holds
  | cons event rest ih =>
    rw [List.foldl_cons]
    by_cases update : event.1.sessionUpdate = .toolCallUpdate
    · have reached : ((event :: rest).filter fun event => event.1.sessionUpdate = .toolCallUpdate) =
          event :: rest.filter fun event => event.1.sessionUpdate = .toolCallUpdate := by simp [update]
      rw [reached,List.append_cons]
      exact ih (holds_absorb holds update)
    · have same : absorb row event = row := if_neg update
      have passed : ((event :: rest).filter fun event => event.1.sessionUpdate = .toolCallUpdate) =
          rest.filter fun event => event.1.sessionUpdate = .toolCallUpdate := by simp [update]
      rw [same,passed]
      exact ih holds

-- The row of a call after its events, where they can be written at all.
theorem all_first {first : Event} {rest : List Event} (allowed : relay.allows .acpToolCallPersist = true)
    (known : relay.known relay.adapter.conversationId = true) (named : ∀ event ∈ first :: rest, event.1.toolCallId = id)
    (free : ∀ row ∈ messages, row.id ≠ id) (fresh : ∀ row ∈ messages, ¬OfCall relay id row) :
    ∃ row, persistAll relay messages (first :: rest) = messages ++ [row] ∧ OfCall relay id row ∧ Holds row (reaching (first :: rest)) := by
  obtain ⟨own,others⟩ := List.forall_mem_cons.mp named
  have step : persistAcpToolCall relay messages first = messages ++ [firstRow relay first] :=
    persist_first allowed known (own ▸ free) (own ▸ fresh)
  have call : OfCall relay id (firstRow relay first) := ⟨rfl,congrArg some own,rfl⟩
  refine ⟨rest.foldl absorb (firstRow relay first),?_,?_,holds_all (holds_first relay first) rest⟩
  · exact (congrArg (fun messages => persistAll relay messages rest) step).trans (all_later allowed others own call free fresh)
  · exact call_all call rest

theorem only_row (fresh : ∀ row ∈ messages, ¬OfCall relay id row) (call : OfCall relay id row) :
    (messages ++ [row]).filter (fun row => OfCall relay id row) = [row] := by
  have before : messages.filter (fun row => OfCall relay id row) = [] :=
    List.filter_eq_nil_iff.mpr fun other inside => by simpa using fresh other inside
  rw [List.filter_append,before]
  simp [call]

theorem merged_iff (relay : StreamRelay) (messages : Messages Content) (id : String) (events : List Event)
    (fresh : ∀ row ∈ messages, ¬OfCall relay id row) :
    Merged relay id (events.map (Event.named id)) (persistAll relay messages (events.map (Event.named id))) ↔
      events ≠ [] ∧ relay.allows .acpToolCallPersist = true ∧ relay.known relay.adapter.conversationId = true ∧
      (∀ row ∈ messages, row.id ≠ id) ∧
      (∀ key, latest key (reaching (events.map (Event.named id))) = latest key (events.map (Event.named id))) ∧
      acpToolCallStatus (lastStatus (reaching (events.map (Event.named id)))) =
        acpToolCallStatus (latestStatus (events.map (Event.named id))) := by
  have named : ∀ event ∈ events.map (Event.named id), event.1.toolCallId = id := by
    intro event member
    obtain ⟨origin,-,rfl⟩ := List.mem_map.mp member
    rfl
  constructor
  · rintro ⟨row,fields,update,alone,content,there,values,status⟩
    have inside : row ∈ persistAll relay messages (events.map (Event.named id)) ∧ OfCall relay id row := by
      have member : row ∈ [row] := List.mem_cons_self
      rw [← alone,List.mem_filter] at member
      exact ⟨member.1,of_decide_eq_true member.2⟩
    have open_ : relay.allows .acpToolCallPersist = true ∧ relay.known relay.adapter.conversationId = true ∧ ∀ row ∈ messages, row.id ≠ id := by
      by_contra barred
      refine all_none (fun allowed known => ?_) named fresh row inside.1 inside.2
      by_contra free
      exact barred ⟨allowed,known,fun row member same => free ⟨row,member,same⟩⟩
    obtain ⟨allowed,known,free⟩ := open_
    cases events with
    | nil => exact absurd inside.2 (fresh row inside.1)
    | cons first rest =>
      obtain ⟨last,whole,call,holds⟩ := all_first allowed known named free fresh
      have same : row = last := by
        rw [List.map_cons,whole,only_row fresh call] at alone
        exact (List.singleton_inj.mp alone).symm
      subst same
      obtain ⟨fields',update',content',there',values'⟩ := holds.content
      cases content.symm.trans content'
      cases there.symm.trans there'
      exact ⟨List.cons_ne_nil _ _,allowed,known,free,fun key => (values' key).symm.trans (values key),
        Option.some.inj (holds.status.symm.trans status)⟩
  · rintro ⟨some_,allowed,known,free,values,status⟩
    cases events with
    | nil => exact absurd rfl some_
    | cons first rest =>
      obtain ⟨last,whole,call,holds⟩ := all_first allowed known named free fresh
      obtain ⟨fields,update,content,there,held⟩ := holds.content
      refine ⟨last,fields,update,?_,content,there,fun key => (held key).trans (values key),holds.status.trans (congrArg some status)⟩
      rw [List.map_cons,whole,only_row fresh call]

end Runs

section Examples

def shell (kind : AcpToolCallSessionUpdateKind) (status : Option AcpToolCallStatus) (details : KeyedMap String Leaf) : Event :=
  (⟨"session",kind,"",status,details,none⟩,0)

def callRelay : StreamRelay :=
  ⟨⟨"conversation","message"⟩,RuntimeState.fresh,fun _ => true,fun text => ⟨text,[]⟩,fun _ => "system",0⟩

-- Started, completed.
def plainCall : List Event := [shell .toolCall (some .pending) ((∅ : KeyedMap String Leaf).insert "title" (.text "ls")),
  shell .toolCallUpdate (some .completed) ∅]

theorem plainCall_merged : Merged callRelay "call" (plainCall.map (Event.named "call")) (persistAll callRelay [] (plainCall.map (Event.named "call"))) :=
  (merged_iff callRelay [] "call" plainCall nofun).mpr ⟨nofun,rfl,rfl,nofun,fun _ => rfl,rfl⟩

-- Completed, then an update that only brings the output.
def lateOutput : List Event := plainCall ++ [shell .toolCallUpdate none ((∅ : KeyedMap String Leaf).insert "raw_output" (.text "a.txt"))]

theorem status_turned_back : ¬Merged callRelay "call" (lateOutput.map (Event.named "call")) (persistAll callRelay [] (lateOutput.map (Event.named "call"))) := by
  rintro ⟨row,-,-,alone,-,-,-,status⟩
  have kept : ((persistAll callRelay [] (lateOutput.map (Event.named "call"))).filter fun row => OfCall callRelay "call" row).map MessageRow.status =
      [some "work"] := by rfl
  rw [alone] at kept
  have work : row.status = some "work" := (List.cons.inj kept).1
  exact absurd (work.symm.trans status) (by decide)

end Examples

end AlineaCopilot.AcpToolCallRows
