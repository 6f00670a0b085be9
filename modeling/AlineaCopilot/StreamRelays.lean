import Mathlib.Logic.Function.Basic
import AlineaCopilot.StreamPersistence
open AlineaCopilot.KeyedMaps AlineaCopilot.MessageTable AlineaCopilot.ConversationRuntime
open AlineaCopilot.StreamPersistence

namespace AlineaCopilot.StreamRelays

def flushInterval : Nat := 20

-- Events that are forwarded and nothing else.
inductive ForwardedEvent where
  | start
  | agentStatus
  | plan
  | permission
  | acpPermission
  | skillSuggest
  | cronTrigger
  | acpModelInfo
  | acpModeInfo
  | acpConfigOption
  | acpSessionInfo
  | acpContextUsage
  | acpPromptHookWarning
  | slashCommandsUpdated
  | availableCommands
  | system
  | requestTrace
  | sessionAssigned
deriving DecidableEq, Repr

structure ThinkingEventData where
  content : String
  status : Option String
deriving DecidableEq, Repr

inductive AgentStreamEvent where
  | text (content : String)
  | tips (data : TipsEventData)
  | toolCall (data : ToolCallEventData)
  | acpToolCall (data : AcpToolCallEventData)
  | toolGroup (entries : List ToolGroupEntry)
  | thinking (data : ThinkingEventData)
  | finish
  | error (data : ErrorEventData) (code : Option String) (retryable : Option Bool)
  | other (event : ForwardedEvent)

-- An event as it comes in, with the id minted for it, should one be needed, and
-- the time.
structure Received where
  event : AgentStreamEvent
  mintedId : String
  now : Int

-- What clients read of a `message.stream` payload. `text` is `data.content` of a
-- payload of type `content`.
structure StreamPayload where
  msgId : String
  type : String
  text : String
  hidden : Bool
  replace : Bool
deriving DecidableEq, Repr

structure MiddlewareResult where
  message : String
  systemResponses : List String
deriving DecidableEq, Repr

inductive RelayTerminal where
  | finish
  | error (code : Option String) (retryable : Option Bool)
  | channelClosed
deriving DecidableEq, Repr

structure RelayOutcome where
  systemResponses : List String
  terminal : RelayTerminal
deriving DecidableEq, Repr

-- The relay of a turn with what it works against: the runtime state, the
-- conversations that exist, the middleware, the ids minted for system
-- responses, and the id and time at which a channel without an end closes.
structure StreamRelay where
  adapter : Adapter
  runtime : RuntimeState
  known : String → Bool
  process : String → MiddlewareResult
  systemIds : Nat → String
  closedAt : Int

structure Session where
  messages : Messages Content
  payloads : List StreamPayload
  fullText : String
  textSegments : List String
  activeText : Option TextSegmentState
  activeThinking : Option ThinkingSegmentState
  usedPrimary : Bool

section Events

def ForwardedEvent.serdeName : ForwardedEvent → String
  | .start => "start"
  | .agentStatus => "agent_status"
  | .plan => "plan"
  | .permission => "permission"
  | .acpPermission => "acp_permission"
  | .skillSuggest => "skill_suggest"
  | .cronTrigger => "cron_trigger"
  | .acpModelInfo => "acp_model_info"
  | .acpModeInfo => "acp_mode_info"
  | .acpConfigOption => "acp_config_option"
  | .acpSessionInfo => "acp_session_info"
  | .acpContextUsage => "acp_context_usage"
  | .acpPromptHookWarning => "acp_prompt_hook_warning"
  | .slashCommandsUpdated => "slash_commands_updated"
  | .availableCommands => "available_commands"
  | .system => "system"
  | .requestTrace => "request_trace"
  | .sessionAssigned => "session_assigned"

def AgentStreamEvent.serdeName : AgentStreamEvent → String
  | .text _ => "content"
  | .tips _ => "tips"
  | .toolCall _ => "tool_call"
  | .acpToolCall _ => "acp_tool_call"
  | .toolGroup _ => "tool_group"
  | .thinking _ => "thinking"
  | .finish => "finish"
  | .error _ _ _ => "error"
  | .other event => event.serdeName

def AgentStreamEvent.content : AgentStreamEvent → String
  | .text content => content
  | _ => ""

def AgentStreamEvent.isError : AgentStreamEvent → Bool
  | .error _ _ _ => true
  | _ => false

def terminalFromEvent : AgentStreamEvent → RelayTerminal
  | .error _ code retryable => .error code retryable
  | .finish => .finish
  | _ => .channelClosed

end Events

section Adapter

variable (relay : StreamRelay)

def StreamRelay.allows (kind : RuntimeWriteKind) : Bool := relay.runtime.allows relay.adapter.conversationId kind

def StreamRelay.isDeleting : Bool := decide (relay.adapter.conversationId ∈ relay.runtime.deleting)

def StreamRelay.attempt (messages : Messages Content) (write : Write) : Messages Content :=
  match write.attempt relay.known messages with
  | .ok next => next
  | .error _ => messages

-- A write whose call fails is logged; what the failure calls for comes next.
def StreamRelay.write (messages : Messages Content) (write : Write) : Messages Content :=
  match write.attempt relay.known messages with
  | .ok next => next
  | .error error => (write.afterwards error).foldl relay.attempt messages

def StreamRelay.persist (messages : Messages Content) (operation : Operation) (now : Int) : Messages Content :=
  if !relay.allows operation.kind || operation.skipped then messages
  else
    let existing := operation.lookup.bind fun sought =>
      getMessageByMsgId messages relay.adapter.conversationId sought.1 sought.2
    (operation.writes relay.adapter now existing).foldl relay.write messages

-- The segment counts as persisted when its last write went through.
def StreamRelay.finalizeTextSegment (messages : Messages Content) (segment : TextSegmentState) (status : String) :
    Messages Content × Option String :=
  if !relay.allows .assistantTextFinalize || segment.buffer.isEmpty then (messages,none)
  else match (finalizeTextWrite relay.adapter segment status).attempt relay.known messages with
    | .ok next => (next,some segment.id)
    | .error _ => (messages,none)

def StreamRelay.finalTextOverrides (segments : List String) (finalText : String) (hidden rewriteSegments : Bool) :
    List FinalTextOverride :=
  if relay.allows .terminalFinalize then StreamPersistence.finalTextOverrides segments finalText hidden rewriteSegments else []

end Adapter

section Relay
variable (relay : StreamRelay)

def Session.begin (messages : Messages Content) : Session := ⟨messages,[],"",[],none,none,false⟩

def Session.broadcast (session : Session) (payload : StreamPayload) : Session :=
  { session with payloads := session.payloads ++ [payload] }

def Session.forward (session : Session) (msgId : String) (event : AgentStreamEvent) : Session :=
  session.broadcast ⟨msgId,event.serdeName,event.content,false,false⟩

def StreamRelay.persisted (session : Session) (operation : Operation) (now : Int) : Session :=
  { session with messages := relay.persist session.messages operation now }

-- The first segment of a turn has the turn's own message id.
def StreamRelay.mintSegmentMsgId (session : Session) (mintedId : String) : String :=
  if session.usedPrimary then mintedId else relay.adapter.msgId

def thinkingDone : AgentStreamEvent := .thinking ⟨"",some "done"⟩

def StreamRelay.completeActiveThinking (now : Int) (session : Session) : Session :=
  match session.activeThinking with
  | none => session
  | some segment =>
    let durationMs := max (now - segment.startedAt) 0
    relay.persisted ({ session with activeThinking := none }.forward segment.id thinkingDone) (.thinking segment durationMs) now

def StreamRelay.closeActiveTextSegment (status : String) (session : Session) : Session :=
  match session.activeText with
  | none => session
  | some segment =>
    let (messages,persisted) := relay.finalizeTextSegment session.messages segment status
    { session with
      messages := messages
      activeText := none
      textSegments := session.textSegments ++ persisted.toList }

def StreamRelay.openText (received : Received) (session : Session) : TextSegmentState × Session :=
  match session.activeText with
  | some segment => (segment,session)
  | none => (⟨relay.mintSegmentMsgId session received.mintedId,"",received.now,false,0⟩,{ session with usedPrimary := true })

def StreamRelay.openThinking (received : Received) (session : Session) : ThinkingSegmentState × Session :=
  match session.activeThinking with
  | some segment => (segment,session)
  | none => (⟨relay.mintSegmentMsgId session received.mintedId,"",received.now⟩,{ session with usedPrimary := true })

-- Every so many chunks the text so far goes to the table.
def StreamRelay.flush (segment : TextSegmentState) (now : Int) (session : Session) : Session :=
  if flushInterval ≤ segment.flushCounter then
    let written := relay.allows .assistantTextFlush && !segment.buffer.isEmpty
    relay.persisted { session with
      activeText := some { segment with recordCreated := segment.recordCreated || written, flushCounter := 0 } }
      (.flushText segment) now
  else { session with activeText := some segment }

def StreamRelay.onText (received : Received) (content : String) (session : Session) : Session :=
  let (segment,session) := relay.openText received (relay.completeActiveThinking received.now session)
  let session := session.forward segment.id received.event
  relay.flush { segment with buffer := segment.buffer ++ content, flushCounter := segment.flushCounter + 1 } received.now
    { session with fullText := session.fullText ++ content }

def StreamRelay.onThinking (received : Received) (data : ThinkingEventData) (session : Session) : Session :=
  if data.status = some "done" then relay.completeActiveThinking received.now session
  else
    let (segment,session) := relay.openThinking received (relay.closeActiveTextSegment "finish" session)
    { session with activeThinking := some { segment with buffer := segment.buffer ++ data.content } }.forward
      segment.id received.event

-- A tool event closes the segments that are open.
def StreamRelay.onTool (received : Received) (operation : Operation) (session : Session) : Session :=
  let session := relay.closeActiveTextSegment "finish" (relay.completeActiveThinking received.now session)
  relay.persisted (session.forward relay.adapter.msgId received.event) operation received.now

def StreamRelay.onTips (received : Received) (data : TipsEventData) (session : Session) : Session :=
  let session := session.forward relay.adapter.msgId received.event
  match data.tipType with
  | .success | .warning | .info => relay.persisted session (.tip received.mintedId data) received.now
  | .error => session

def overridePayload (override : FinalTextOverride) : StreamPayload :=
  ⟨override.msgId,"content",override.text,override.hidden,true⟩

def StreamRelay.systemPayloads (responses : List String) : List StreamPayload :=
  responses.mapIdx fun i _ => ⟨relay.systemIds i,"system","",true,false⟩

def finalStatus (event : AgentStreamEvent) : String := if event.isError then "error" else "finish"

def StreamRelay.finalize (received : Received) (terminal : RelayTerminal) (session : Session) : Session × RelayOutcome :=
  if session.fullText ≠ "" then
    let processed := relay.process session.fullText
    let finalText := RustText.trim processed.message
    let hidden := finalText.isEmpty
    let rewriteSegments := processed.message ≠ session.fullText || hidden
    let operation := .finalText session.textSegments (finalStatus received.event) finalText hidden rewriteSegments
    let overrides := relay.finalTextOverrides session.textSegments finalText hidden rewriteSegments
    let session := relay.persisted session operation received.now
    ({ session with payloads := session.payloads ++ overrides.map overridePayload ++
        relay.systemPayloads processed.systemResponses },⟨processed.systemResponses,terminal⟩)
  else match received.event with
    | .error data _ _ => (relay.persisted session (.errorTip received.mintedId data) received.now,⟨[],terminal⟩)
    | _ => (session,⟨[],terminal⟩)

-- The end of the stream: what is open is closed, the event goes out, the text
-- is finalised.
def StreamRelay.close (received : Received) (session : Session) : Session :=
  relay.closeActiveTextSegment (finalStatus received.event) (relay.completeActiveThinking received.now session)

def StreamRelay.onTerminal (received : Received) (session : Session) : Session × RelayOutcome :=
  let terminal := terminalFromEvent received.event
  if relay.isDeleting then (session.forward relay.adapter.msgId received.event,⟨[],terminal⟩)
  else relay.finalize received terminal ((relay.close received session).forward relay.adapter.msgId received.event)

-- A channel that closes without a terminal event forwards none.
def StreamRelay.onClosed (session : Session) : Session × RelayOutcome :=
  let received : Received := ⟨.finish,"",relay.closedAt⟩
  if relay.isDeleting then (session,⟨[],.channelClosed⟩)
  else relay.finalize received .channelClosed (relay.close received session)

def StreamRelay.onEvent (received : Received) (session : Session) : Session :=
  match received.event with
  | .text content => relay.onText received content session
  | .thinking data => relay.onThinking received data session
  | .toolCall data => relay.onTool received (.toolCall data) session
  | .acpToolCall data => relay.onTool received (.acpToolCall data) session
  | .toolGroup entries => relay.onTool received (.toolGroup received.mintedId entries) session
  | .tips data => relay.onTips received data session
  | .other _ | .finish | .error _ _ _ => session.forward relay.adapter.msgId received.event

def AgentStreamEvent.isTerminal : AgentStreamEvent → Bool
  | .finish | .error _ _ _ => true
  | _ => false

-- The loop runs until the first terminal event; the channel closes at the end
-- of the list. While the conversation is being deleted other events are skipped.
def StreamRelay.consume : List Received → Session → Session × RelayOutcome
  | [],session => relay.onClosed session
  | received :: rest,session =>
    if received.event.isTerminal then relay.onTerminal received session
    else if relay.isDeleting then StreamRelay.consume rest session
    else StreamRelay.consume rest (relay.onEvent received session)

end Relay

end AlineaCopilot.StreamRelays
