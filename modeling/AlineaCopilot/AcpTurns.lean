import AlineaCopilot.AgentTasks
open AlineaCopilot.AgentTasks (ConversationStatus AgentKillReason)

namespace AlineaCopilot.AcpTurns

inductive AgentStreamEvent where
  | start (sessionId : String)
  | tips (text : String)
  | finish (sessionId : Option String)
  | error (data : String)
  -- Text, tool calls, permissions and the rest.
  | update (data : String)
deriving DecidableEq, Repr

def AgentStreamEvent.terminal : AgentStreamEvent → Bool
  | .finish _ | .error _ => true
  | _ => false

-- Who broadcast an event: the send task of a turn, or nobody's, such as a kill.
structure Broadcast where
  source : Option Nat
  event : AgentStreamEvent
deriving DecidableEq, Repr

structure AgentRuntime where
  status : Option ConversationStatus
  events : List Broadcast

section Runtime

def AgentRuntime.emit (r : AgentRuntime) (source : Option Nat) (event : AgentStreamEvent) : AgentRuntime :=
  { r with events := r.events ++ [⟨source,event⟩] }

def AgentRuntime.resetForNewTurn (r : AgentRuntime) (status : ConversationStatus) : AgentRuntime :=
  { r with status := some status }

-- `emit_finish` and `emit_error_data` differ in the event alone.
def AgentRuntime.emitTerminal (r : AgentRuntime) (source : Option Nat) (event : AgentStreamEvent) : AgentRuntime :=
  if r.status = some .finished then r else { r.emit source event with status := some .finished }

def AgentRuntime.emitFinish (r : AgentRuntime) (source : Option Nat) (sessionId : Option String) : AgentRuntime :=
  r.emitTerminal source (.finish sessionId)

def AgentRuntime.emitErrorData (r : AgentRuntime) (source : Option Nat) (data : String) : AgentRuntime :=
  r.emitTerminal source (.error data)

end Runtime

inductive PromptOutcome where
  | completed (sessionId : String)
  | cancelled (sessionId : String)
  | infoTip (sessionId tips : String)
  | warningTip (sessionId tips : String)
  | terminalError (sessionId error : String)
deriving DecidableEq, Repr

-- How far the send task of a turn has come. `failed` has returned `Err` to the
-- orchestrator, which has not looked at the agent's status yet.
inductive Sending where
  | opening
  | opened (sessionId : String)
  | starting (sessionId : String)
  | prompting (sessionId : String)
  | outcome (outcome : PromptOutcome)
  | tipped (sessionId : String)
  | failing (error : String)
  | failed (error : String)
  | over
deriving DecidableEq, Repr

-- Positions are numbers of events broadcast before.
structure Turn where
  subscribed : Nat
  sending : Sending
  reset : Option Nat
  ended : Nat
  -- The send error injected into the relay.
  fallback : Option String
deriving DecidableEq, Repr

structure World where
  runtime : AgentRuntime
  turns : List Turn

inductive Action where
  | subscribe
  | openSession (n : Nat) (opened : Except String String)
  | resetForNewTurn (n : Nat)
  | emitStart (n : Nat)
  | prompt (n : Nat) (result : Except String PromptOutcome)
  | report (n : Nat)
  | decide (n : Nat)
  | update (data : String)
  | kill (reason : Option AgentKillReason)
  | cancel

section Steps

def userFacingMessage : Option AgentKillReason → String
  | some .idleTimeout => "Agent killed: idle timeout"
  | some .agentErrorRecovery => "Agent killed: error recovery"
  | some .teamMcpRebuild => "Agent killed: team MCP rebuild"
  | some .teamDeleted => "Agent killed: team deleted"
  | some .conversationDeleted => "Agent killed: conversation deleted"
  | some .userCancelTimeout => "Conversation cancelled; agent restarted"
  | none => "Agent killed"

def AgentRuntime.kill (r : AgentRuntime) (reason : Option AgentKillReason) : AgentRuntime :=
  if reason = some .userCancelTimeout then r.emitFinish none none else r.emitErrorData none (userFacingMessage reason)

-- The relay stops at the first terminal it receives or is given.
def World.relayEnded (w : World) (turn : Turn) : Bool :=
  turn.fallback.isSome || (w.runtime.events.drop turn.subscribed).any (·.event.terminal)

def World.send (w : World) (n : Nat) (turn : Turn) (sending : Sending) (runtime : AgentRuntime) : World :=
  { runtime := runtime, turns := w.turns.set n { turn with sending := sending } }

-- `send_message` returns `Ok` once it has emitted the terminal.
def World.returns (w : World) (n : Nat) (turn : Turn) (runtime : AgentRuntime) : World :=
  { runtime := runtime, turns := w.turns.set n { turn with sending := .over, ended := runtime.events.length } }

def World.report (w : World) (n : Nat) (turn : Turn) : Option World :=
  match turn.sending with
  | .outcome (.completed sessionId) | .outcome (.cancelled sessionId) =>
    some (w.returns n turn (w.runtime.emitFinish (some n) (some sessionId)))
  | .outcome (.infoTip sessionId tips) | .outcome (.warningTip sessionId tips) =>
    some (w.send n turn (.tipped sessionId) (w.runtime.emit (some n) (.tips tips)))
  | .tipped sessionId => some (w.returns n turn (w.runtime.emitFinish (some n) (some sessionId)))
  | .outcome (.terminalError _ error) => some (w.returns n turn (w.runtime.emitErrorData (some n) error))
  | .failing error => some (w.send n turn (.failed error) (w.runtime.emitErrorData (some n) error))
  | _ => none

def step (w : World) : Action → Option World
  -- A turn subscribes when the one before is done with its relay.
  | .subscribe =>
    if w.turns.all w.relayEnded then
      some { w with turns := w.turns ++ [⟨w.runtime.events.length,.opening,none,0,none⟩] }
    else none
  | .openSession n opened =>
    w.turns[n]?.bind fun turn =>
      match turn.sending,opened with
      | .opening,.ok sessionId => some (w.send n turn (.opened sessionId) w.runtime)
      | .opening,.error error => some (w.send n turn (.failing error) w.runtime)
      | _,_ => none
  | .resetForNewTurn n =>
    w.turns[n]?.bind fun turn =>
      match turn.sending with
      | .opened sessionId =>
        some (w.send n { turn with reset := some w.runtime.events.length } (.starting sessionId)
          (w.runtime.resetForNewTurn .running))
      | _ => none
  | .emitStart n =>
    w.turns[n]?.bind fun turn =>
      match turn.sending with
      | .starting sessionId => some (w.send n turn (.prompting sessionId) (w.runtime.emit (some n) (.start sessionId)))
      | _ => none
  | .prompt n result =>
    w.turns[n]?.bind fun turn =>
      match turn.sending,result with
      | .prompting _,.ok outcome => some (w.send n turn (.outcome outcome) w.runtime)
      | .prompting _,.error error => some (w.send n turn (.failing error) w.runtime)
      | _,_ => none
  | .report n => w.turns[n]?.bind (w.report n)
  -- The orchestrator takes the status for the answer whether a terminal is out.
  | .decide n =>
    w.turns[n]?.bind fun turn =>
      match turn.sending with
      | .failed error =>
        if w.runtime.status = some .finished then some (w.returns n turn w.runtime)
        else some (w.returns n { turn with fallback := some error } w.runtime)
      | _ => none
  | .update data => some { w with runtime := w.runtime.emit none (.update data) }
  | .kill reason => some { w with runtime := w.runtime.kill reason }
  -- A cancel bumps the activity and leaves the terminal to the prompt's outcome.
  | .cancel => some w

def start : World := ⟨⟨none,[]⟩,[]⟩

end Steps

end AlineaCopilot.AcpTurns
