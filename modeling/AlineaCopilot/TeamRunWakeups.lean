import AlineaCopilot.TeamRunEnding
import AlineaCopilot.TeamWakes
open AlineaCopilot.KeyedMaps AlineaCopilot.TransitionRuns AlineaCopilot.TeamRun AlineaCopilot.TeamRunAccounting AlineaCopilot.TeamRunEnding

namespace AlineaCopilot.TeamRunWakeups

structure MailboxRow where
  id : String
  fromAgentId : String
deriving DecidableEq, Repr

-- Where a loop stands between two turns. In a turn it has the rows it peeked at in hand.
inductive Drain where
  | parked
  | draining
  | peeked (rows : List MailboxRow)
deriving DecidableEq, Repr

def Drain.inHand : Drain → List MailboxRow
  | .parked | .draining => []
  | .peeked rows => rows

-- The unread rows of each slot, the permit its `Notify` stores, and the wakes that are
-- recorded and whose slots are still to be notified.
structure Team where
  world : World
  mailbox : String → List MailboxRow
  permit : String → Bool
  drain : String → Drain
  notifying : List String

def Team.start : Team := ⟨.start,fun _ => [],fun _ => false,fun _ => .parked,[]⟩

inductive TeamAction where
  | act (action : Action)
  | deliver (slotId : String) (row : MailboxRow)
  | notify (slotId : String)
  -- `notify_agent_for_session_restore_drain`, which records no wake.
  | restore (slotId : String)
  | notified (slotId : String)
  | peek (slotId : String)
deriving DecidableEq

-- The slot for which the action asks the manager to record a wake.
def wakeTarget (w : World) : Action → Option String
  | .wakeAgentForTeamWork slotId _ _ => some slotId
  | .proceed n ok lead =>
    match w.tasks[n]? with
    | some (.waking slotId _ _) => if ok then some slotId else none
    | some (.interrupted _) => if ok then lead else none
    | _ => none
  | .finalize slotId lead =>
    match w.loops slotId with
    | .returned .. => lead.filter (· ≠ slotId)
    | _ => none
  | _ => none

-- Where no run is active the wake is refused, and the caller returns.
def wakes (w : World) (action : Action) : Option String := (wakeTarget w action).filter fun _ => (activeRunId w.held).isSome

namespace Team

def allows (t : Team) : Action → Bool
  | .observeEmpty slotId => t.drain slotId = .peeked []
  | .wake slotId _ _ => !(t.drain slotId).inHand.isEmpty
  | _ => true

-- A loop whose claim fails waits for the next signal, with its rows unread.
def drainAfter (t : Team) (next : World) : Action → String → Drain
  | .observeEmpty slotId => Function.update t.drain slotId .parked
  | .claim slotId _ => if next.loops slotId = .waiting then Function.update t.drain slotId .parked else t.drain
  | .answer slotId _ _ | .fail slotId => Function.update t.drain slotId .draining
  | _ => t.drain

-- A turn that was answered has its rows marked as read, a cancellation all of them.
def mailboxAfter (t : Team) : Action → String → List MailboxRow
  | .answer slotId _ _ => Function.update t.mailbox slotId ((t.mailbox slotId).filter (· ∉ (t.drain slotId).inHand))
  | .proceed n ok _ => if ok ∧ t.world.tasks[n]? = some (.cancelRun .marking) then fun _ => [] else t.mailbox
  | _ => t.mailbox

def after (t : Team) (action : Action) (next : World) : Team where
  world := next
  mailbox := t.mailboxAfter action
  permit := t.permit
  drain := t.drainAfter next action
  notifying := t.notifying ++ (wakes t.world action).toList

-- A loop does not see what its own agent has sent. One permit is stored at most.
def step (teamId : String) (t : Team) : TeamAction → Option Team
  | .act action => if t.allows action then (TeamRunAccounting.step teamId t.world action).map (t.after action) else none
  | .deliver slotId row => some { t with mailbox := Function.update t.mailbox slotId (t.mailbox slotId ++ [row]) }
  | .notify slotId =>
    if slotId ∈ t.notifying then some { t with notifying := t.notifying.erase slotId,permit := Function.update t.permit slotId true } else none
  | .restore slotId => some { t with permit := Function.update t.permit slotId true }
  | .notified slotId =>
    if t.world.loops slotId = .waiting ∧ t.drain slotId = .parked ∧ t.permit slotId = true then
      some { t with permit := Function.update t.permit slotId false,drain := Function.update t.drain slotId .draining }
    else none
  | .peek slotId =>
    if t.world.loops slotId = .waiting ∧ t.drain slotId = .draining then
      some { t with drain := Function.update t.drain slotId (.peeked ((t.mailbox slotId).filter (·.fromAgentId ≠ slotId))) }
    else none

end Team

def waiting (held : Option TeamRunRecord) (slotId : String) : Nat := (held.map fun run => (run.pendingWakesFor slotId).length).getD 0

-- The wakes that the slot's loop is going to take: one for a signal that has not reached
-- it, and one before it parks.
def due (t : Team) (slotId : String) : Nat :=
  (if t.permit slotId = true ∨ slotId ∈ t.notifying then 1 else 0) + if t.drain slotId = .parked then 0 else 1

-- A wake is recorded for a slot only while none is pending there, or one is and its loop
-- is awake.
def Orderly (t : Team) : TeamAction → Prop
  | .act action => Served t.world action ∧ Named t.world action ∧
      ∀ slotId, wakes t.world action = some slotId → waiting t.world.held slotId ≤ if t.drain slotId = .parked then 0 else 1
  | _ => True

structure Quiescent (t : Team) : Prop where
  loops : ∀ slotId, t.world.loops slotId = .waiting
  drains : ∀ slotId, t.drain slotId = .parked
  permits : ∀ slotId, t.permit slotId = false
  tasks : t.world.tasks = []
  notifying : t.notifying = []

section Queues
variable {teamId slotId : String} {held : Option TeamRunRecord} {w next : World} {operation : Operation} {action : Action}

end Queues

section Teams
variable {teamId slotId : String} {t after : Team} {next : World} {action : Action}

end Teams

section Examples

-- Two teammates wake the lead as well before its loop has run: one signal is all that
-- is left of the three.
example : ∃ t, exec (Team.step "team") .start
    [.act (.sendMessage "run" "lead" .lead .userMessage),.deliver "lead" ⟨"first","user"⟩,.act (.proceed 0 true none),.act (.proceed 0 true none),
      .act (.wakeAgentForTeamWork "lead" .lead .mcpSendMessage),.act (.wakeAgentForTeamWork "lead" .lead .mcpSendMessage),
      .notify "lead",.notify "lead",.notify "lead",.notified "lead",.peek "lead",.act (.wake "lead" "chat" .lead),
      .act (.claim "lead" "reservation"),.act (.started "lead" "one" 0),.act (.answer "lead" "one" true),.act (.finalize "lead" none),
      .act (.report "lead"),.act (.complete "lead"),.peek "lead",.act (.observeEmpty "lead")] = some t ∧
    t.permit "lead" = false ∧ t.drain "lead" = .parked ∧ t.world.tasks = [] ∧ t.notifying = [] ∧ waiting t.world.held "lead" = 1 :=
  ⟨_,rfl,rfl,rfl,rfl,rfl,rfl⟩

end Examples

end AlineaCopilot.TeamRunWakeups
