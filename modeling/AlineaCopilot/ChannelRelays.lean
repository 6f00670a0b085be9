import AlineaCopilot.RustText
import AlineaCopilot.AgentTasks
import AlineaCopilot.StreamRelays
import AlineaCopilot.TransitionRuns
open AlineaCopilot.TransitionRuns AlineaCopilot.StreamRelays
open AlineaCopilot.AgentTasks (ConversationStatus)

namespace AlineaCopilot.ChannelRelays

inductive PluginType where
  | telegram
  | lark
  | dingtalk
  | slack
  | discord
  | weixin
deriving DecidableEq, Repr

def isWeixinPlatform (platform : PluginType) : Bool := platform = .weixin

inductive StreamAction where
  | appendText (chunk : String)
  | finish
  | error (message : String)
  | thinking (content : String)
  | toolCall (name : String)
deriving DecidableEq, Repr

def processStreamEvent : AgentStreamEvent → Option StreamAction
  | .text content => some (.appendText content)
  | .finish => some .finish
  | .error data _ _ => some (.error data.message)
  | .thinking data => some (.thinking data.content)
  | .toolCall data => some (.toolCall data.name)
  | .tips _ | .toolGroup _ | .acpToolCall _ | .other _ => none

-- What goes out to the platform: a new message or an edit of the placeholder,
-- with or without the buttons of a final message.
structure Outgoing where
  edit : Bool
  buttons : Bool
  text : String
deriving DecidableEq, Repr

-- Who broadcast an event: the sends of a turn, or nobody's, such as a kill.
structure Broadcast where
  source : Option Nat
  event : AgentStreamEvent

def Broadcast.terminal (b : Broadcast) : Bool :=
  match b.event with
  | .finish | .error _ _ _ => true
  | _ => false

inductive RelayPhase where
  | sendingPlaceholder
  | relaying
  | exited
deriving DecidableEq, Repr

-- Positions are numbers of events broadcast before on the agent's channel.
-- `handled` is what the relay has received so far.
structure ChannelStreamRelay where
  platform : PluginType
  agent : Nat
  position : Nat
  phase : RelayPhase
  textBuffer : String
  hasContent : Bool
  shown : List Outgoing
  handled : List Broadcast

section Relay
variable (format : PluginType → String → String)

namespace ChannelStreamRelay

def spawn (platform : PluginType) (agent position : Nat) : ChannelStreamRelay :=
  ⟨platform,agent,position,if isWeixinPlatform platform then .relaying else .sendingPlaceholder,"",false,[],[]⟩

-- Editable platforms edit the placeholder, WeChat gets a new message.
def puts (relay : ChannelStreamRelay) (buttons : Bool) (text : String) : ChannelStreamRelay :=
  { relay with shown := relay.shown ++ [⟨!isWeixinPlatform relay.platform,buttons,text⟩] }

def formatted (relay : ChannelStreamRelay) : String := format relay.platform relay.textBuffer

def sendPlaceholder (relay : ChannelStreamRelay) (sent : Bool) : ChannelStreamRelay :=
  if sent then { relay with phase := .relaying, shown := relay.shown ++ [⟨false,false,"⏳ Thinking..."⟩] }
  else { relay with phase := .exited }

def hasText (relay : ChannelStreamRelay) : Bool := relay.hasContent && !(RustText.trim relay.textBuffer).isEmpty

def sendFinalEdit (relay : ChannelStreamRelay) : ChannelStreamRelay :=
  if relay.hasContent then relay.puts true (relay.formatted format) else relay

def exit (relay : ChannelStreamRelay) : ChannelStreamRelay := { relay with phase := .exited }

def append (relay : ChannelStreamRelay) (chunk : String) : ChannelStreamRelay :=
  { relay with textBuffer := relay.textBuffer ++ chunk, hasContent := true }

-- `due` is whether the throttle interval has passed since the last edit.
def onEventEditable (relay : ChannelStreamRelay) (due : Bool) (event : AgentStreamEvent) : ChannelStreamRelay :=
  match processStreamEvent event with
  | some (.appendText chunk) =>
    let relay := relay.append chunk
    if due then relay.puts false (relay.formatted format) else relay
  | some (.thinking _) => relay
  | some (.toolCall name) => relay.puts false ("⏳ " ++ name ++ "...")
  | some .finish => (relay.sendFinalEdit format).exit
  | some (.error message) => (relay.puts false ("❌ " ++ message)).exit
  | none => relay

def onEventWeixin (relay : ChannelStreamRelay) (event : AgentStreamEvent) : ChannelStreamRelay :=
  match processStreamEvent event with
  | some (.appendText chunk) => relay.append chunk
  | some (.thinking _) => relay
  | some (.toolCall _) =>
    if relay.hasText then { relay.puts false (relay.formatted format) with textBuffer := "", hasContent := false } else relay
  | some .finish => (if relay.hasText then relay.puts true (relay.formatted format) else relay).exit
  | some (.error message) => (relay.puts false ("❌ " ++ message)).exit
  | none => relay

def onEvent (relay : ChannelStreamRelay) (due : Bool) (event : AgentStreamEvent) : ChannelStreamRelay :=
  if isWeixinPlatform relay.platform then relay.onEventWeixin format event else relay.onEventEditable format due event

def onClosed (relay : ChannelStreamRelay) : ChannelStreamRelay :=
  if isWeixinPlatform relay.platform then (if relay.hasText then relay.puts true (relay.formatted format) else relay).exit
  else (relay.sendFinalEdit format).exit

def receive (relay : ChannelStreamRelay) (due : Bool) (b : Broadcast) : ChannelStreamRelay :=
  { relay.onEvent format due b.event with position := relay.position + 1, handled := relay.handled ++ [b] }

end ChannelStreamRelay

end Relay

-- `closed` is that the last sender of the channel is gone.
structure AgentRuntime where
  status : Option ConversationStatus
  events : List Broadcast
  closed : Bool

namespace AgentRuntime

-- `emit_finish` and `emit_error_data` are silent once the status is `Finished`.
def emit (r : AgentRuntime) (b : Broadcast) : AgentRuntime :=
  if b.terminal then
    if r.status = some .finished then r else { r with status := some .finished, events := r.events ++ [b] }
  else { r with events := r.events ++ [b] }

def resetForNewTurn (r : AgentRuntime) (status : ConversationStatus) : AgentRuntime := { r with status := some status }

end AgentRuntime

def maxCronContinuationsPerTurn : Nat := 4

-- A turn that is being sent: the agent it is sent to, where the orchestrator's own
-- relay subscribed for the current send, the continuations so far and the send
-- error injected into that relay.
inductive Progress where
  | claimed
  | sending (agent subscribed continuations : Nat) (fallback : Option String)
  | over
deriving DecidableEq, Repr

structure Turn where
  relay : ChannelStreamRelay
  progress : Progress

-- A channel message that has subscribed and not claimed its turn yet.
structure Subscription where
  platform : PluginType
  agent : Nat
  position : Nat
deriving DecidableEq, Repr

-- The agent that serves the conversation now is the last one.
structure World where
  agents : List AgentRuntime
  pending : List Subscription
  turns : List Turn

def start : World := ⟨[⟨none,[],false⟩],[],[]⟩

inductive Event where
  | subscribe (platform : PluginType)
  | claim (subscription : Subscription)
  | refuse (subscription : Subscription)
  | send
  | abort
  | emit (agent : Nat) (b : Broadcast)
  | resetForNewTurn (agent : Nat) (status : ConversationStatus)
  | fail (error : String)
  -- Whether there are system responses to go on with, in an active conversation.
  | consume (responses : Bool)
  | replace
  | drop (agent : Nat)
  | placeholder (n : Nat) (sent : Bool)
  | read (n : Nat) (due : Bool)

section Steps
variable (format : PluginType → String → String) (capacity : Nat)

def World.current (w : World) : Nat := w.agents.length - 1

def World.eventsAt (w : World) (agent : Nat) : List Broadcast := ((w.agents[agent]?).map (·.events)).getD []

def World.idle (w : World) : Bool := w.turns.all (·.progress = .over)

-- One turn runs at a time, so the one that does is the last.
def World.active (w : World) : Option (Nat × Turn) :=
  (w.turns.getLast?.filter (·.progress ≠ .over)).map fun turn => (w.turns.length - 1,turn)

def World.progresses (w : World) (n : Nat) (turn : Turn) (progress : Progress) : World :=
  { w with turns := w.turns.set n { turn with progress := progress } }

def World.relays (w : World) (n : Nat) (turn : Turn) (relay : ChannelStreamRelay) : World :=
  { w with turns := w.turns.set n { turn with relay := relay } }

-- Whether the send is done for the orchestrator, and whether it went wrong.
def World.ending (w : World) (agent subscribed : Nat) (fallback : Option String) : Option Bool :=
  if fallback.isSome then some true
  else (((w.eventsAt agent).drop subscribed).find? (·.terminal)).map (·.event.isError)

def step (w : World) : Event → Option World
  | .subscribe platform =>
    some { w with pending := ⟨platform,w.current,(w.eventsAt w.current).length⟩ :: w.pending }
  | .claim s =>
    if s ∈ w.pending ∧ w.idle then
      some { w with pending := w.pending.erase s, turns := w.turns ++ [⟨.spawn s.platform s.agent s.position,.claimed⟩] }
    else none
  | .refuse s => if s ∈ w.pending then some { w with pending := w.pending.erase s } else none
  | .send =>
    match w.active with
    | some (n,turn) =>
      if turn.progress = .claimed then
        some (w.progresses n turn (.sending w.current (w.eventsAt w.current).length 0 none))
      else none
    | none => none
  -- A turn over its limit, or without an agent or a workspace, ends unsent.
  | .abort =>
    match w.active with
    | some (n,turn) => if turn.progress = .claimed then some (w.progresses n turn .over) else none
    | none => none
  | .emit a b =>
    (w.agents[a]?).map fun agent => { w with agents := w.agents.set a (agent.emit b) }
  | .resetForNewTurn a status =>
    (w.agents[a]?).map fun agent => { w with agents := w.agents.set a (agent.resetForNewTurn status) }
  | .fail error =>
    match w.active with
    | some (n,turn) =>
      match turn.progress with
      | .sending agent subscribed continuations none =>
        (w.agents[agent]?).map fun runtime =>
          if runtime.status = some .finished then w
          else w.progresses n turn (.sending agent subscribed continuations (some error))
      | _ => none
    | none => none
  | .consume responses =>
    match w.active with
    | some (n,turn) =>
      match turn.progress with
      | .sending agent subscribed continuations fallback =>
        (w.ending agent subscribed fallback).map fun failed =>
          if !failed && responses && continuations < maxCronContinuationsPerTurn then
            w.progresses n turn (.sending agent (w.eventsAt agent).length (continuations + 1) none)
          else w.progresses n turn .over
      | _ => none
    | none => none
  | .replace => some { w with agents := w.agents ++ [⟨none,[],false⟩] }
  | .drop a =>
    match w.agents[a]? with
    | some agent =>
      let held := w.active.any fun active => match active.2.progress with
        | .sending b _ _ _ => b = a
        | _ => false
      if a < w.current ∧ !held then some { w with agents := w.agents.set a { agent with closed := true } } else none
    | none => none
  | .placeholder n sent =>
    match w.turns[n]? with
    | some turn =>
      if turn.relay.phase = .sendingPlaceholder then some (w.relays n turn (turn.relay.sendPlaceholder sent)) else none
    | none => none
  | .read n due =>
    match w.turns[n]? with
    | some turn =>
      if turn.relay.phase = .relaying then
        let events := w.eventsAt turn.relay.agent
        -- A receiver that has fallen behind loses what the channel no longer holds.
        if capacity < events.length - turn.relay.position then
          some (w.relays n turn { turn.relay with position := events.length - capacity })
        else
          match events[turn.relay.position]? with
          | some b => some (w.relays n turn (turn.relay.receive format due b))
          | none =>
            if ((w.agents[turn.relay.agent]?).map (·.closed)).getD false then
              some (w.relays n turn (turn.relay.onClosed format))
            else none
      else none
    | none => none

end Steps

end AlineaCopilot.ChannelRelays
