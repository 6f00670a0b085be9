import AlineaCopilot.StreamRelayTurns
import AlineaCopilot.TransitionRuns
open AlineaCopilot.KeyedMaps AlineaCopilot.MessageTable AlineaCopilot.ConversationRuntime
open AlineaCopilot.StreamPersistence AlineaCopilot.TransitionRuns

namespace AlineaCopilot.StreamRelays

-- What the relay finds when it goes on: the runtime state and the conversations
-- that exist. Others change both while it waits.
structure Moment where
  runtime : RuntimeState
  known : String → Bool

def StreamRelay.amid (relay : StreamRelay) (moment : Moment) : StreamRelay :=
  { relay with runtime := moment.runtime, known := moment.known }

inductive SegmentKind where
  | text
  | thinking
deriving DecidableEq, Repr

-- What a row is inserted for.
inductive Cause where
  | segment (kind : SegmentKind)
  | tip
  | tool
  | fallback
deriving DecidableEq, Repr

-- The history of a turn. A segment closes with its content, and with whether the
-- lifecycle and the table then let a row of it in; an insertion is noted with
-- whether a row already has the key.
inductive Note where
  | opened (kind : SegmentKind) (id : String)
  | closed (kind : SegmentKind) (id content : String) (writable : Bool)
  | done (id : String)
  | inserted (cause : Cause) (id : String) (taken : Bool)
deriving DecidableEq, Repr

-- What the handler of an event does, cut where it waits.
inductive Micro where
  | completeThinking (now : Int)
  | closeText (status : String)
  | text (received : Received) (content : String)
  | flush (now : Int)
  | thinking (received : Received) (data : ThinkingEventData)
  | forward (event : AgentStreamEvent)
  | persist (operation : Operation) (now : Int)
  | finalize (received : Received) (terminal : RelayTerminal)

section Handlers

def toolMicros (received : Received) (operation : Operation) : List Micro :=
  [.completeThinking received.now,.closeText "finish",.forward received.event,.persist operation received.now]

def tipMicros (received : Received) (data : TipsEventData) : List Micro :=
  match data.tipType with
  | .success | .warning | .info => [.forward received.event,.persist (.tip received.mintedId data) received.now]
  | .error => [.forward received.event]

def eventMicros (received : Received) : List Micro :=
  match received.event with
  | .text content => [.completeThinking received.now,.text received content,.flush received.now]
  | .thinking data =>
    if data.status = some "done" then [.completeThinking received.now] else [.closeText "finish",.thinking received data]
  | .toolCall data => toolMicros received (.toolCall data)
  | .acpToolCall data => toolMicros received (.acpToolCall data)
  | .toolGroup entries => toolMicros received (.toolGroup received.mintedId entries)
  | .tips data => tipMicros received data
  | .other _ | .finish | .error _ _ _ => [.forward received.event]

def closeMicros (received : Received) : List Micro := [.completeThinking received.now,.closeText (finalStatus received.event)]

def terminalMicros (received : Received) (deleting : Bool) : List Micro :=
  if deleting then [.forward received.event]
  else closeMicros received ++ [.forward received.event,.finalize received (terminalFromEvent received.event)]

def closedMicros (relay : StreamRelay) (deleting : Bool) : List Micro :=
  if deleting then [] else closeMicros ⟨.finish,"",relay.closedAt⟩ ++ [.finalize ⟨.finish,"",relay.closedAt⟩ .channelClosed]

end Handlers

section Machine
variable (relay : StreamRelay)

def textChunk (received : Received) (content : String) (session : Session) : Session :=
  let (segment,session) := relay.openText received session
  let session := session.forward segment.id received.event
  { session with
    fullText := session.fullText ++ content
    activeText := some { segment with buffer := segment.buffer ++ content, flushCounter := segment.flushCounter + 1 } }

def thinkingChunk (received : Received) (data : ThinkingEventData) (session : Session) : Session :=
  let (segment,session) := relay.openThinking received session
  { session with activeThinking := some { segment with buffer := segment.buffer ++ data.content } }.forward
    segment.id received.event

def Micro.perform (session : Session) : Micro → Session
  | .completeThinking now => relay.completeActiveThinking now session
  | .closeText status => relay.closeActiveTextSegment status session
  | .text received content => textChunk relay received content session
  | .flush now => match session.activeText with
    | none => session
    | some segment => relay.flush segment now session
  | .thinking received data => thinkingChunk relay received data session
  | .forward event => session.forward relay.adapter.msgId event
  | .persist operation now => relay.persisted session operation now
  | .finalize received terminal => (relay.finalize received terminal session).1

-- The insertions that an operation asks the table for. A row that is inserted
-- because its update found none cannot meet its key.
def insertions (cause : Cause) (operation : Operation) (now : Int) (messages : Messages Content) : List Note :=
  if !relay.allows operation.kind || operation.skipped then []
  else
    let existing := operation.lookup.bind fun sought =>
      getMessageByMsgId messages relay.adapter.conversationId sought.1 sought.2
    (operation.writes relay.adapter now existing).filterMap fun write => match write with
      | .insert row => some (.inserted cause row.id (messages.any fun other => other.id = row.id))
      | _ => none

def writable (kind : RuntimeWriteKind) : Bool := relay.allows kind && relay.known relay.adapter.conversationId

def operationCause : Operation → Cause
  | .flushText _ | .finalizeText _ _ => .segment .text
  | .thinking _ _ => .segment .thinking
  | .finalText _ _ _ _ _ => .fallback
  | .errorTip _ _ | .tip _ _ => .tip
  | .toolCall _ | .acpToolCall _ | .toolGroup _ _ => .tool

def noted (operation : Operation) (now : Int) (messages : Messages Content) : List Note :=
  insertions relay (operationCause operation) operation now messages

def thinkingDuration (now : Int) (segment : ThinkingSegmentState) : Int := max (now - segment.startedAt) 0

def finalOperation (received : Received) (session : Session) : Option Operation :=
  if session.fullText ≠ "" then
    let processed := relay.process session.fullText
    let finalText := RustText.trim processed.message
    some (.finalText session.textSegments (finalStatus received.event) finalText finalText.isEmpty
      (processed.message ≠ session.fullText || finalText.isEmpty))
  else match received.event with
    | .error data _ _ => some (.errorTip received.mintedId data)
    | _ => none

def Micro.notes (session : Session) : Micro → List Note
  | .completeThinking now => match session.activeThinking with
    | none => []
    | some segment =>
      [.closed .thinking segment.id segment.buffer (writable relay .assistantThinkingFinalize),.done segment.id] ++
        noted relay (.thinking segment (thinkingDuration now segment)) now session.messages
  | .closeText status => match session.activeText with
    | none => []
    | some segment =>
      .closed .text segment.id segment.buffer (writable relay .assistantTextFinalize) ::
        noted relay (.finalizeText segment status) 0 session.messages
  | .text received _ => match session.activeText with
    | none => [.opened .text (relay.mintSegmentMsgId session received.mintedId)]
    | some _ => []
  | .flush now => match session.activeText with
    | none => []
    | some segment => if flushInterval ≤ segment.flushCounter then noted relay (.flushText segment) now session.messages else []
  | .thinking received _ => match session.activeThinking with
    | none => [.opened .thinking (relay.mintSegmentMsgId session received.mintedId)]
    | some _ => []
  | .forward _ => []
  | .persist operation now => noted relay operation now session.messages
  | .finalize received _ => match finalOperation relay received session with
    | none => []
    | some operation => noted relay operation received.now session.messages

-- A relay between two waits. `ending` tells that the loop is left, and whether
-- the conversation was being deleted then.
structure Turn where
  session : Session
  todo : List Micro
  ending : Option Bool
  log : List Note

def Turn.begin (messages : Messages Content) : Turn := ⟨.begin messages,[],none,[]⟩

def Turn.waits (turn : Turn) : Bool := turn.todo.isEmpty && turn.ending.isNone

def Turn.returned (turn : Turn) : Bool := turn.todo.isEmpty && turn.ending.isSome

inductive Input where
  | arrive (received : Received) (moment : Moment)
  | close (moment : Moment)
  | go (moment : Moment)

def arrived (received : Received) (deleting : Bool) (turn : Turn) : Turn :=
  if received.event.isTerminal then { turn with todo := terminalMicros received deleting, ending := some deleting }
  else if deleting then turn
  else { turn with todo := eventMicros received }

def step (turn : Turn) : Input → Option Turn
  | .arrive received moment => if turn.waits then some (arrived received (relay.amid moment).isDeleting turn) else none
  | .close moment =>
    let deleting := (relay.amid moment).isDeleting
    if turn.waits then some { turn with todo := closedMicros relay deleting, ending := some deleting } else none
  | .go moment => match turn.todo with
    | [] => none
    | micro :: rest => some { turn with
        session := micro.perform (relay.amid moment) turn.session
        todo := rest
        log := turn.log ++ micro.notes (relay.amid moment) turn.session }

end Machine

-- Where nothing changes while an event is handled, the pieces are the handler.
section Whole
variable (relay : StreamRelay)

def performAll (micros : List Micro) (session : Session) : Session := micros.foldl (Micro.perform relay) session

theorem performAll_text (received : Received) (content : String) (session : Session) :
    performAll relay [.completeThinking received.now,.text received content,.flush received.now] session =
      relay.onText received content session := rfl

theorem performAll_thinking (received : Received) (data : ThinkingEventData) (session : Session) :
    performAll relay (if data.status = some "done" then [.completeThinking received.now]
      else [.closeText "finish",.thinking received data]) session = relay.onThinking received data session := by
  unfold StreamRelay.onThinking
  split <;> rfl

theorem performAll_tips (received : Received) (data : TipsEventData) (session : Session) :
    performAll relay (tipMicros received data) session = relay.onTips received data session := by
  unfold tipMicros StreamRelay.onTips
  cases data.tipType <;> rfl

theorem performAll_event (received : Received) (session : Session) :
    performAll relay (eventMicros received) session = relay.onEvent received session := by
  unfold eventMicros StreamRelay.onEvent
  cases received.event with
  | text content => exact performAll_text relay received content session
  | thinking data => exact performAll_thinking relay received data session
  | tips data => exact performAll_tips relay received data session
  | toolCall | acpToolCall | toolGroup => rfl
  | other | finish | error => rfl

theorem performAll_terminal (received : Received) (session : Session) :
    performAll relay (terminalMicros received relay.isDeleting) session = (relay.onTerminal received session).1 := by
  unfold terminalMicros StreamRelay.onTerminal
  cases relay.isDeleting <;> rfl

theorem performAll_closed (session : Session) : performAll relay (closedMicros relay relay.isDeleting) session = (relay.onClosed session).1 := by
  unfold closedMicros StreamRelay.onClosed
  cases relay.isDeleting <;> rfl

def StreamRelay.moment : Moment := ⟨relay.runtime,relay.known⟩

theorem amid_moment : relay.amid relay.moment = relay := rfl

theorem runs_todo (turn : Turn) : ∃ inputs next, Runs (step relay) turn inputs next ∧ next.todo = [] ∧
    next.ending = turn.ending ∧ next.session = performAll relay turn.todo turn.session := by
  obtain ⟨session,todo,ending,log⟩ := turn
  induction todo generalizing session log with
  | nil => exact ⟨[],_,.nil,rfl,rfl,rfl⟩
  | cons micro rest ih =>
    obtain ⟨inputs,next,path,done,same,performed⟩ := ih (micro.perform relay session) (log ++ micro.notes relay session)
    exact ⟨.go relay.moment :: inputs,next,(Runs.single rfl).append path,done,same,performed⟩

-- The whole loop is a run of the machine.
theorem runs_consume (arrivals : List Received) (turn : Turn) (waiting : turn.todo = []) (going : turn.ending = none) :
    ∃ inputs next, Runs (step relay) turn inputs next ∧ next.returned = true ∧
      next.session = (relay.consume arrivals turn.session).1 := by
  have waits : turn.waits = true := by simp [Turn.waits,waiting,going]
  induction arrivals generalizing turn with
  | nil =>
    have closing : step relay turn (.close relay.moment) =
      some { turn with todo := closedMicros relay relay.isDeleting, ending := some relay.isDeleting } := if_pos waits
    obtain ⟨inputs,next,path,done,ended,same⟩ := runs_todo relay _
    refine ⟨_,next,(Runs.single closing).append path,?_,?_⟩
    · simp [Turn.returned,done,ended]
    · rw [same,StreamRelay.consume]
      exact performAll_closed relay turn.session
  | cons received rest ih =>
    have arriving : step relay turn (.arrive received relay.moment) = some (arrived received relay.isDeleting turn) :=
      if_pos waits
    rw [StreamRelay.consume]
    by_cases terminal : received.event.isTerminal = true
    · obtain ⟨inputs,next,path,done,ended,same⟩ := runs_todo relay (arrived received relay.isDeleting turn)
      refine ⟨_,next,(Runs.single arriving).append path,?_,?_⟩
      · simp [Turn.returned,done,ended,arrived,terminal]
      · rw [same,if_pos terminal,arrived,if_pos terminal]
        exact performAll_terminal relay received turn.session
    · rw [if_neg terminal]
      by_cases deleting : relay.isDeleting = true
      · have skipped : arrived received relay.isDeleting turn = turn := by simp [arrived,terminal,deleting]
        obtain ⟨inputs,next,path,returned,same⟩ := ih turn waiting going waits
        refine ⟨_,next,(Runs.single (skipped ▸ arriving)).append path,returned,?_⟩
        rw [same,if_pos deleting]
      · have begun : arrived received relay.isDeleting turn = { turn with todo := eventMicros received } := by
          simp [arrived,terminal,deleting]
        obtain ⟨handled,middle,first,done,ended,performed⟩ := runs_todo relay { turn with todo := eventMicros received }
        obtain ⟨inputs,next,path,returned,same⟩ := ih middle done (ended.trans going)
          (by simp [Turn.waits,done,ended,going])
        refine ⟨_,next,(Runs.single (begun ▸ arriving)).append (first.append path),returned,?_⟩
        rw [same,if_neg deleting,performed]
        exact congrArg (fun session => (relay.consume rest session).1) (performAll_event relay received turn.session)

end Whole

end AlineaCopilot.StreamRelays
