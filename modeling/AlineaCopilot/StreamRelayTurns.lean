import AlineaCopilot.StreamRelayText
open AlineaCopilot.KeyedMaps AlineaCopilot.MessageTable AlineaCopilot.ConversationRuntime
open AlineaCopilot.StreamPersistence

namespace AlineaCopilot.StreamRelays

-- The id that the agent has chosen for a tool call.
def AgentStreamEvent.callId : AgentStreamEvent → Option String
  | .toolCall data => some data.callId
  | .acpToolCall data => some data.toolCallId
  | .toolGroup entries => entries.head?.map ToolGroupEntry.callId
  | _ => none

def callIds (arrivals : List Received) : List String := arrivals.filterMap fun received => received.event.callId

def freeIds (relay : StreamRelay) (session : Session) (arrivals : List Received) : List String :=
  (if session.usedPrimary then [] else [relay.adapter.msgId]) ++ arrivals.map Received.mintedId

-- The whole text that the relay receives.
def streamedText : List Received → String
  | [] => ""
  | received :: rest => if received.event.isTerminal then "" else received.event.content ++ streamedText rest

section Events
variable {origin : Messages Content} {done : List Piece} {free calls : List String} {session : Session}
  {relay : StreamRelay} {received : Received} {rest : List Received}

theorem freeIds_rest (relay : StreamRelay) (session : Session) (received : Received) (rest : List Received) :
    (freeIds relay session rest).Sublist (freeIds relay session (received :: rest)) :=
  List.Sublist.append_left (List.sublist_cons_self ..) _

theorem callIds_rest (received : Received) (rest : List Received) :
    ∀ x ∈ callIds rest, x ∈ callIds (received :: rest) := by
  intro x inside
  obtain ⟨later,member,same⟩ := List.mem_filterMap.mp inside
  exact List.mem_filterMap.mpr ⟨later,List.mem_cons_of_mem _ member,same⟩

theorem Tracks.fewer_calls {remaining : List String} (tracks : Tracks origin done free calls session)
    (less : ∀ x ∈ remaining, x ∈ calls) : Tracks origin done free remaining session :=
  { tracks with apart := fun x call => tracks.apart x (less x call) }

-- What is minted comes off the ids that are free.
theorem freeIds_mint (relay : StreamRelay) (session : Session) (received : Received) (rest : List Received) :
    ∃ more, freeIds relay session (received :: rest) = relay.mintSegmentMsgId session received.mintedId :: more ∧
      (rest.map Received.mintedId).Sublist more := by
  unfold freeIds StreamRelay.mintSegmentMsgId
  cases session.usedPrimary with
  | true => exact ⟨_,rfl,List.Sublist.refl _⟩
  | false => exact ⟨_,rfl,List.sublist_cons_self ..⟩

theorem flush_active (relay : StreamRelay) (segment : TextSegmentState) (now : Int) (session : Session) :
    relay.flush segment now { session with activeText := some segment } = relay.flush segment now session := rfl

theorem flush_rest (relay : StreamRelay) (segment : TextSegmentState) (now : Int) (session : Session) :
    (relay.flush segment now session).usedPrimary = session.usedPrimary ∧
    (relay.flush segment now session).fullText = session.fullText := by
  unfold StreamRelay.flush
  split <;> exact ⟨rfl,rfl⟩

-- From an open segment on: the chunk goes out, is kept, and is flushed in time.
theorem Tracks.chunk (tracks : Tracks origin done free calls session) (serving : Serving relay)
    {segment : TextSegmentState} (active : session.activeText = some segment) (content : String) (now : Int)
    (event : received.event = .text content) :
    Tracks origin done free calls (relay.flush
      { segment with buffer := segment.buffer ++ content, flushCounter := segment.flushCounter + 1 } now
      { session.forward segment.id received.event with fullText := session.fullText ++ content }) := by
  have pushed := tracks.push active content (segment.flushCounter + 1)
  rw [← flush_active]
  have forwarded : ({ session.forward segment.id received.event with fullText := session.fullText ++ content } : Session) =
      { session with
        payloads := session.payloads ++ [⟨segment.id,"content",content,false,false⟩]
        fullText := session.fullText ++ content } := by
    simp [Session.forward,Session.broadcast,event,AgentStreamEvent.serdeName,AgentStreamEvent.content]
  rw [forwarded]
  exact pushed.flushed serving rfl now

-- A segment begins with the chunk, where none is open.
theorem Tracks.chunk_first (tracks : Tracks origin done (freeIds relay session (received :: rest)) calls session)
    (serving : Serving relay) (closed : session.activeText = none) (calm : session.activeThinking = none) (content : String)
    (event : received.event = .text content) :
    Tracks origin done (rest.map Received.mintedId) calls (relay.flush
      ⟨relay.mintSegmentMsgId session received.mintedId,"" ++ content,received.now,false,1⟩ received.now
      { ({ session with usedPrimary := true } : Session).forward (relay.mintSegmentMsgId session received.mintedId)
          received.event with fullText := session.fullText ++ content }) := by
  obtain ⟨more,minted,fewer⟩ := freeIds_mint relay session received rest
  rw [minted] at tracks
  have started := (tracks.start closed calm received.now true).fewer fewer
  have pushed := started.chunk serving rfl content received.now event
  rw [← flush_active] at pushed ⊢
  exact pushed

theorem onText_active {segment : TextSegmentState}
    (active : (relay.completeActiveThinking received.now session).activeText = some segment) (content : String) :
    relay.onText received content session = relay.flush
      { segment with buffer := segment.buffer ++ content, flushCounter := segment.flushCounter + 1 } received.now
      { (relay.completeActiveThinking received.now session).forward segment.id received.event with
        fullText := (relay.completeActiveThinking received.now session).fullText ++ content } := by
  unfold StreamRelay.onText StreamRelay.openText
  rw [active]
  rfl

theorem onText_first (closed : (relay.completeActiveThinking received.now session).activeText = none) (content : String) :
    relay.onText received content session = relay.flush
      ⟨relay.mintSegmentMsgId (relay.completeActiveThinking received.now session) received.mintedId,"" ++ content,
        received.now,false,1⟩ received.now
      { ({ relay.completeActiveThinking received.now session with usedPrimary := true } : Session).forward
          (relay.mintSegmentMsgId (relay.completeActiveThinking received.now session) received.mintedId) received.event with
        fullText := (relay.completeActiveThinking received.now session).fullText ++ content } := by
  unfold StreamRelay.onText StreamRelay.openText
  rw [closed]
  rfl

theorem freeIds_same {later : Session} (same : later.usedPrimary = session.usedPrimary) :
    freeIds relay later rest = freeIds relay session rest := by
  unfold freeIds
  rw [same]

theorem freeIds_used (used : session.usedPrimary = true) : freeIds relay session rest = rest.map Received.mintedId := by
  unfold freeIds
  rw [used]
  rfl

theorem Tracks.on_text (tracks : Tracks origin done (freeIds relay session (received :: rest)) calls session)
    (serving : Serving relay) (content : String) (event : received.event = .text content) :
    Tracks origin done (freeIds relay (relay.onText received content session) rest) calls
      (relay.onText received content session) := by
  have completed := tracks.complete_thinking relay received.now
  obtain ⟨calm,_,used,_⟩ := complete_thinking_rest relay received.now session
  rw [← freeIds_same used] at completed
  cases active : (relay.completeActiveThinking received.now session).activeText with
  | some segment =>
    rw [onText_active active,freeIds_same (flush_rest ..).1]
    exact (completed.fewer (freeIds_rest ..)).chunk serving active content received.now event
  | none =>
    rw [onText_first active,freeIds_used (flush_rest ..).1]
    exact completed.chunk_first serving active calm content event

theorem Tracks.forwarded (tracks : Tracks origin done free calls session) (msgId : String) {event : AgentStreamEvent}
    (plain : event.serdeName ≠ "content") : Tracks origin done free calls (session.forward msgId event) :=
  tracks.forward plain

-- The ids of a thinking segment and of those still free are the same together.
theorem Tracks.rethink (remaining : List String) (tracks : Tracks origin done free calls session)
    (closed : session.activeText = none) (thinking : Option ThinkingSegmentState) (used : Bool)
    (same : thinking.toList.map ThinkingSegmentState.id ++ remaining =
      session.activeThinking.toList.map ThinkingSegmentState.id ++ free)
    (less : remaining.Sublist free) :
    Tracks origin done remaining calls { session with activeThinking := thinking, usedPrimary := used } := by
  have owns : owned done remaining { session with activeThinking := thinking, usedPrimary := used } = owned done free session := by
    simp only [owned,Session.openIds,closed,Option.toList_none,List.map_nil,List.nil_append,List.append_assoc]
    rw [same]
  have opens : ({ session with activeThinking := thinking, usedPrimary := used } : Session).openIds ++ remaining =
      session.openIds ++ free := by
    simp only [Session.openIds,closed,Option.toList_none,List.map_nil,List.nil_append]
    exact same
  refine { tracks with
    distinct := ?_, apart := fun x call => ?_, old := fun row inside => ?_, new := fun row inside => ?_, alone := fun _ => closed }
  · rw [owns]
    exact tracks.distinct
  · rw [owns]
    exact tracks.apart x call
  · rw [opens]
    exact tracks.old row inside
  · exact ⟨mt (fun member => less.subset member) (tracks.new row inside).1,(tracks.new row inside).2⟩

theorem openThinking_active {segment : ThinkingSegmentState} (active : session.activeThinking = some segment) :
    relay.openThinking received session = (segment,session) := by
  unfold StreamRelay.openThinking
  rw [active]

theorem openThinking_first (calm : session.activeThinking = none) :
    relay.openThinking received session =
      (⟨relay.mintSegmentMsgId session received.mintedId,"",received.now⟩,{ session with usedPrimary := true }) := by
  unfold StreamRelay.openThinking
  rw [calm]

theorem finish_settled : "finish" ≠ "work" := by decide

theorem Tracks.on_thinking (tracks : Tracks origin done (freeIds relay session (received :: rest)) calls session)
    (serving : Serving relay) (data : ThinkingEventData) (event : received.event = .thinking data) :
    ∃ done', Tracks origin done' (freeIds relay (relay.onThinking received data session) rest) calls
      (relay.onThinking received data session) := by
  unfold StreamRelay.onThinking
  by_cases ended : data.status = some "done"
  · rw [if_pos ended,freeIds_same (complete_thinking_rest relay received.now session).2.2.1]
    exact ⟨done,(tracks.complete_thinking relay received.now).fewer (freeIds_rest ..)⟩
  · rw [if_neg ended]
    obtain ⟨done',closing⟩ := tracks.close serving finish_settled
    obtain ⟨closed,_,used,_⟩ := close_rest relay "finish" session
    rw [← freeIds_same used] at closing
    have plain : received.event.serdeName ≠ "content" := by simp [event,AgentStreamEvent.serdeName]
    refine ⟨done',?_⟩
    cases active : (relay.closeActiveTextSegment "finish" session).activeThinking with
    | some segment =>
      rw [openThinking_active active]
      have kept := closing.rethink _ closed (some { segment with buffer := segment.buffer ++ data.content })
        (relay.closeActiveTextSegment "finish" session).usedPrimary (by rw [active]; rfl) (List.Sublist.refl _)
      exact (kept.fewer (freeIds_rest ..)).forwarded segment.id plain
    | none =>
      rw [openThinking_first active]
      obtain ⟨more,minted,fewer⟩ := freeIds_mint relay (relay.closeActiveTextSegment "finish" session) received rest
      rw [minted] at closing
      have begun := closing.rethink more closed (some ⟨relay.mintSegmentMsgId (relay.closeActiveTextSegment "finish" session)
        received.mintedId,"" ++ data.content,received.now⟩) true (by rw [active]; rfl)
        (List.sublist_cons_self ..)
      exact (begun.fewer fewer).forwarded _ plain

-- What a tool event and a tip that is kept do to the table, under an id that the
-- turn's text rows do not have.
theorem Tracks.persisted (tracks : Tracks origin done free calls session) {operation : Operation} {x : String}
    (named : besideId operation = some x) (fresh : x ∈ calls ∨ x ∉ owned done free session) (now : Int) :
    Tracks origin done free calls (relay.persisted session operation now) := by
  have apart : x ∉ owned done free session := fresh.elim (tracks.apart x) fun outside => outside
  obtain ⟨off,unlike,gone⟩ := tracks.off_owned apart
  exact tracks.aside (persist_aside named off now) unlike gone

theorem Tracks.minted_apart (tracks : Tracks origin done (freeIds relay session (received :: rest)) calls session) :
    received.mintedId ∉ owned done (freeIds relay session rest) session := by
  have parts := tracks.distinct
  simp only [owned,freeIds,List.map_cons] at parts ⊢
  rw [← List.append_assoc] at parts ⊢
  exact (List.nodup_cons.mp (List.nodup_middle.mp parts)).1

-- The id a tool event writes under: the agent's, or the minted one for a group
-- without entries.
def ToolOperation (received : Received) : Operation → Prop
  | .toolCall data => received.event = .toolCall data
  | .acpToolCall data => received.event = .acpToolCall data
  | .toolGroup mintedId entries => mintedId = received.mintedId ∧ received.event = .toolGroup entries
  | _ => False

theorem tool_plain {operation : Operation} (tool : ToolOperation received operation) :
    received.event.serdeName ≠ "content" ∧ received.event.content = "" ∧ received.event.isTerminal = false := by
  cases operation with
  | flushText | finalizeText | finalText | errorTip | tip | thinking => cases tool
  | toolCall data | acpToolCall data =>
    rw [show received.event = _ from tool]
    exact ⟨by simp [AgentStreamEvent.serdeName],rfl,rfl⟩
  | toolGroup mintedId entries =>
    rw [tool.2]
    exact ⟨by simp [AgentStreamEvent.serdeName],rfl,rfl⟩

theorem tool_beside {operation : Operation} (tool : ToolOperation received operation) :
    ∃ x, besideId operation = some x ∧ (received.event.callId = some x ∨ x = received.mintedId) := by
  cases operation with
  | flushText | finalizeText | finalText | errorTip | tip | thinking => cases tool
  | toolCall data | acpToolCall data =>
    rw [show received.event = _ from tool]
    exact ⟨_,rfl,.inl rfl⟩
  | toolGroup mintedId entries =>
    obtain ⟨rfl,event⟩ := tool
    rw [event]
    cases entries with
    | nil => exact ⟨_,rfl,.inr rfl⟩
    | cons entry entries => exact ⟨_,rfl,.inl rfl⟩

theorem on_tool_rest (relay : StreamRelay) (received : Received) (operation : Operation) (session : Session) :
    (relay.onTool received operation session).usedPrimary = session.usedPrimary ∧
    (relay.onTool received operation session).fullText = session.fullText := by
  obtain ⟨_,_,used,text⟩ := complete_thinking_rest relay received.now session
  obtain ⟨_,_,again,kept⟩ := close_rest relay "finish" (relay.completeActiveThinking received.now session)
  exact ⟨again.trans used,kept.trans text⟩

theorem Tracks.on_tool
    (tracks : Tracks origin done (freeIds relay session (received :: rest)) (callIds (received :: rest)) session)
    (serving : Serving relay) (operation : Operation) (tool : ToolOperation received operation) :
    ∃ done', Tracks origin done' (freeIds relay (relay.onTool received operation session) rest) (callIds (received :: rest))
      (relay.onTool received operation session) := by
  obtain ⟨done',closing⟩ := (tracks.complete_thinking relay received.now).close serving finish_settled
  have used : (relay.closeActiveTextSegment "finish" (relay.completeActiveThinking received.now session)).usedPrimary =
      session.usedPrimary := (close_rest ..).2.2.1.trans (complete_thinking_rest ..).2.2.1
  rw [← freeIds_same used] at closing
  rw [freeIds_same ((on_tool_rest ..).1.trans used.symm)]
  have minted := closing.minted_apart
  have forwarded := (closing.fewer (freeIds_rest ..)).forwarded relay.adapter.msgId (tool_plain tool).1
  obtain ⟨x,named,origin⟩ := tool_beside tool
  refine ⟨done',forwarded.persisted named ?_ received.now⟩
  rcases origin with called | rfl
  · exact .inl (List.mem_filterMap.mpr ⟨received,List.mem_cons_self,called⟩)
  · exact .inr minted

theorem Tracks.on_tips (tracks : Tracks origin done (freeIds relay session (received :: rest)) calls session)
    (data : TipsEventData) (event : received.event = .tips data) :
    Tracks origin done (freeIds relay session rest) calls (relay.onTips received data session) := by
  have minted := tracks.minted_apart
  have plain : received.event.serdeName ≠ "content" := by simp [event,AgentStreamEvent.serdeName]
  have forwarded := (tracks.fewer (freeIds_rest ..)).forwarded relay.adapter.msgId plain
  unfold StreamRelay.onTips
  cases data.tipType with
  | error => exact forwarded
  | success | warning | info => exact forwarded.persisted rfl (.inr minted) received.now

theorem on_text_full (relay : StreamRelay) (received : Received) (content : String) (session : Session) :
    (relay.onText received content session).fullText = session.fullText ++ content := by
  have kept := (complete_thinking_rest relay received.now session).2.2.2
  cases active : (relay.completeActiveThinking received.now session).activeText with
  | some segment => rw [onText_active active,(flush_rest ..).2,kept]
  | none => rw [onText_first active,(flush_rest ..).2,kept]

theorem on_thinking_full (relay : StreamRelay) (received : Received) (data : ThinkingEventData) (session : Session) :
    (relay.onThinking received data session).fullText = session.fullText := by
  have kept := (close_rest relay "finish" session).2.2.2
  unfold StreamRelay.onThinking
  split
  · exact (complete_thinking_rest ..).2.2.2
  · cases active : (relay.closeActiveTextSegment "finish" session).activeThinking with
    | some segment =>
      rw [openThinking_active active]
      exact kept
    | none =>
      rw [openThinking_first active]
      exact kept

theorem on_tips_rest (relay : StreamRelay) (received : Received) (data : TipsEventData) (session : Session) :
    (relay.onTips received data session).usedPrimary = session.usedPrimary ∧
    (relay.onTips received data session).fullText = session.fullText := by
  unfold StreamRelay.onTips
  cases data.tipType <;> exact ⟨rfl,rfl⟩

theorem on_event_full (relay : StreamRelay) (received : Received) (session : Session) :
    (relay.onEvent received session).fullText = session.fullText ++ received.event.content := by
  unfold StreamRelay.onEvent
  cases received.event with
  | text content => exact on_text_full ..
  | thinking data => exact (on_thinking_full ..).trans String.append_empty.symm
  | toolCall data | acpToolCall data => exact (on_tool_rest ..).2.trans String.append_empty.symm
  | toolGroup entries => exact (on_tool_rest ..).2.trans String.append_empty.symm
  | tips data => exact (on_tips_rest ..).2.trans String.append_empty.symm
  | finish | error | other => exact String.append_empty.symm

theorem plain_other (event : ForwardedEvent) : event.serdeName ≠ "content" := by
  cases event <;> decide

theorem plain_passed {event : AgentStreamEvent} (same : received.event = event) (silent : ∀ content, event ≠ .text content) :
    received.event.serdeName ≠ "content" := by
  rw [same]
  cases event with
  | text content => exact absurd rfl (silent content)
  | other event => exact plain_other event
  | tips | toolCall | acpToolCall | toolGroup | thinking | finish | error => simp [AgentStreamEvent.serdeName]

theorem Tracks.on_event
    (tracks : Tracks origin done (freeIds relay session (received :: rest)) (callIds (received :: rest)) session)
    (serving : Serving relay) :
    ∃ done', Tracks origin done' (freeIds relay (relay.onEvent received session) rest) (callIds rest)
      (relay.onEvent received session) := by
  unfold StreamRelay.onEvent
  cases event : received.event with
  | text content => exact ⟨done,(tracks.on_text serving content event).fewer_calls (callIds_rest _ _)⟩
  | thinking data =>
    obtain ⟨done',after⟩ := tracks.on_thinking serving data event
    exact ⟨done',after.fewer_calls (callIds_rest _ _)⟩
  | toolCall data =>
    obtain ⟨done',after⟩ := tracks.on_tool serving (.toolCall data) event
    exact ⟨done',after.fewer_calls (callIds_rest _ _)⟩
  | acpToolCall data =>
    obtain ⟨done',after⟩ := tracks.on_tool serving (.acpToolCall data) event
    exact ⟨done',after.fewer_calls (callIds_rest _ _)⟩
  | toolGroup entries =>
    obtain ⟨done',after⟩ := tracks.on_tool serving (.toolGroup received.mintedId entries) ⟨rfl,event⟩
    exact ⟨done',after.fewer_calls (callIds_rest _ _)⟩
  | tips data =>
    simp only [freeIds_same (on_tips_rest ..).1]
    exact ⟨done,(tracks.on_tips data event).fewer_calls (callIds_rest _ _)⟩
  | finish | error | other =>
    have passed := (tracks.fewer (freeIds_rest ..)).forwarded relay.adapter.msgId (plain_passed event nofun)
    rw [event] at passed
    exact ⟨done,passed.fewer_calls (callIds_rest _ _)⟩

end Events

end AlineaCopilot.StreamRelays
