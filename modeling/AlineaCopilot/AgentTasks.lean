import Mathlib.Logic.Function.Basic
import AlineaCopilot.KeyedMaps
import AlineaCopilot.TransitionRuns
open AlineaCopilot.KeyedMaps

namespace AlineaCopilot.AgentTasks

inductive ConversationStatus where
  | pending
  | running
  | finished
deriving DecidableEq, Repr

inductive AgentType where
  | acp
  | aionrs
deriving DecidableEq, Repr

inductive AgentKillReason where
  | idleTimeout
  | agentErrorRecovery
  | teamMcpRebuild
  | teamDeleted
  | conversationDeleted
  | userCancelTimeout
deriving DecidableEq, Repr

-- An agent a factory has produced, with the kills that were called on it.
structure AgentInstance where
  conversation : String
  agentType : AgentType
  status : Option ConversationStatus
  lastActivity : Int
  kills : List (Option AgentKillReason)
deriving DecidableEq, Repr

-- A cell, and whether one caller holds the permit to initialise it.
structure TaskSlot where
  agent : Option Nat
  initialising : Bool
deriving DecidableEq, Repr

-- Slots and agents go by numbers: the map and the callers share slots, the slots
-- and the callers share agents.
structure WorkerTaskManager where
  tasks : KeyedMap String Nat
  slots : Nat → TaskSlot
  slotCount : Nat
  agents : Nat → AgentInstance
  agentCount : Nat
  now : Int

section Agent

def AgentInstance.kill (agent : AgentInstance) (reason : Option AgentKillReason) : AgentInstance := { agent with
  kills := agent.kills ++ [reason]
  -- An ACP agent emits its terminal event; the other kind is only asked to stop.
  status := if agent.agentType = .acp then some .finished else agent.status }

def AgentInstance.bumpActivity (agent : AgentInstance) (now : Int) : AgentInstance := { agent with lastActivity := now }

def AgentInstance.resetForNewTurn (agent : AgentInstance) (status : ConversationStatus) : AgentInstance :=
  { agent with status := some status }

def AgentInstance.emitTerminal (agent : AgentInstance) : AgentInstance := { agent with status := some .finished }

def AgentInstance.idle (agent : AgentInstance) (now idleThresholdMs : Int) : Bool :=
  decide (agent.agentType = .acp) && decide (agent.status = some .finished) && decide (now - agent.lastActivity > idleThresholdMs)

end Agent

section Manager

def WorkerTaskManager.modifySlot (m : WorkerTaskManager) (slot : Nat) (value : TaskSlot) : WorkerTaskManager :=
  { m with slots := Function.update m.slots slot value }

def WorkerTaskManager.modifyAgent (m : WorkerTaskManager) (agent : Nat) (change : AgentInstance → AgentInstance) : WorkerTaskManager :=
  { m with agents := Function.update m.agents agent (change (m.agents agent)) }

-- `entry(..).or_insert_with(..)`.
def WorkerTaskManager.entry (m : WorkerTaskManager) (conversation : String) : WorkerTaskManager × Nat :=
  match m.tasks.lookup conversation with
  | some slot => (m,slot)
  | none => ({ m with
      tasks := m.tasks.insert conversation m.slotCount
      slots := Function.update m.slots m.slotCount ⟨none,false⟩
      slotCount := m.slotCount + 1 },m.slotCount)

-- The slot leaves the map, and the agent in it, if there is one, is killed.
def WorkerTaskManager.kill (m : WorkerTaskManager) (conversation : String) (reason : Option AgentKillReason) : WorkerTaskManager :=
  match m.tasks.lookup conversation with
  | none => m
  | some slot =>
    let rest := { m with tasks := m.tasks.erase conversation }
    match (m.slots slot).agent with
    | none => rest
    | some agent => rest.modifyAgent agent (·.kill reason)

-- The waiting apart, this is `kill`: the agent is told before the future is
-- returned.
def WorkerTaskManager.killAndWait (m : WorkerTaskManager) (conversation : String) (reason : Option AgentKillReason) :
    WorkerTaskManager := m.kill conversation reason

def WorkerTaskManager.clear (m : WorkerTaskManager) : WorkerTaskManager :=
  m.tasks.keys.foldl (fun m key => m.killAndWait key none) m

-- The conversations whose agents are idle. The agent beside each is kept for
-- the proofs: the code goes on with the id.
def WorkerTaskManager.collectIdle (m : WorkerTaskManager) (idleThresholdMs : Int) : List (String × Nat) :=
  m.tasks.entries.filterMap fun entry =>
    match (m.slots entry.2).agent with
    | none => none
    | some agent => if (m.agents agent).idle m.now idleThresholdMs then some (entry.1,agent) else none

-- The factory's future has resolved: the cell is set, the permit given back.
def WorkerTaskManager.initialise (m : WorkerTaskManager) (conversation : String) (slot : Nat) (agentType : AgentType) :
    WorkerTaskManager :=
  { m.modifySlot slot ⟨some m.agentCount,false⟩ with
    agents := Function.update m.agents m.agentCount ⟨conversation,agentType,none,m.now,[]⟩
    agentCount := m.agentCount + 1 }

end Manager

-- Where a caller of `get_or_build_task` stands: waiting for another's build,
-- with its own factory running, with the agent it was given, or sending to it.
inductive Caller where
  | idle
  | waiting (conversation : String) (slot : Nat)
  | building (conversation : String) (slot : Nat)
  | holding (agent : Nat)
  | opening (agent : Nat)
  | prompting (agent : Nat)
  | over
deriving DecidableEq, Repr

structure World where
  manager : WorkerTaskManager
  callers : Nat → Caller
  -- The clean-ups that scans have scheduled and that have not run yet.
  scheduled : List (String × Nat)

inductive Action where
  | getOrBuild (n : Nat) (conversation : String)
  | resume (n : Nat)
  | built (n : Nat) (agentType : AgentType)
  | failed (n : Nat)
  | forget (n : Nat)
  | send (n : Nat)
  | opened (n : Nat)
  | ended (n : Nat)
  | activity (agent : Nat)
  | kill (conversation : String) (reason : Option AgentKillReason)
  | killAndWait (conversation : String) (reason : Option AgentKillReason)
  | clear
  | scan (idleThresholdMs : Int)
  | cleanup (i : Nat)
  | tick (ms : Nat)

section Steps

def World.goes (w : World) (manager : WorkerTaskManager) (n : Nat) (caller : Caller) : World :=
  { w with manager := manager, callers := Function.update w.callers n caller }

-- `get_or_try_init`: an initialised cell answers, a free one makes the caller
-- run its factory.
def World.reach (w : World) (manager : WorkerTaskManager) (n : Nat) (conversation : String) (slot : Nat) : World :=
  match manager.slots slot with
  | ⟨some agent,_⟩ => w.goes manager n (.holding agent)
  | ⟨none,true⟩ => w.goes manager n (.waiting conversation slot)
  | ⟨none,false⟩ => w.goes (manager.modifySlot slot ⟨none,true⟩) n (.building conversation slot)

def step (w : World) : Action → Option World
  | .getOrBuild n conversation =>
    if w.callers n = .idle then
      let (manager,slot) := w.manager.entry conversation
      some (w.reach manager n conversation slot)
    else none
  | .resume n =>
    match w.callers n with
    | .waiting conversation slot =>
      if w.manager.slots slot = ⟨none,true⟩ then none else some (w.reach w.manager n conversation slot)
    | _ => none
  | .built n agentType =>
    match w.callers n with
    | .building conversation slot =>
      some (w.goes (w.manager.initialise conversation slot agentType) n (.holding w.manager.agentCount))
    | _ => none
  | .failed n =>
    match w.callers n with
    | .building _ slot => some (w.goes (w.manager.modifySlot slot ⟨none,false⟩) n .over)
    | _ => none
  | .forget n =>
    match w.callers n with
    | .holding _ => some (w.goes w.manager n .over)
    | _ => none
  | .send n =>
    match w.callers n with
    | .holding agent =>
      let bumped := w.manager.modifyAgent agent (·.bumpActivity w.manager.now)
      -- An ACP agent opens its session first, the other kind is running at once.
      if (w.manager.agents agent).agentType = .acp then some (w.goes bumped n (.opening agent))
      else some (w.goes (bumped.modifyAgent agent (·.resetForNewTurn .running)) n (.prompting agent))
    | _ => none
  | .opened n =>
    match w.callers n with
    | .opening agent => some (w.goes (w.manager.modifyAgent agent (·.resetForNewTurn .running)) n (.prompting agent))
    | _ => none
  | .ended n =>
    match w.callers n with
    | .opening agent | .prompting agent => some (w.goes (w.manager.modifyAgent agent (·.emitTerminal)) n .over)
    | _ => none
  | .activity agent => some { w with manager := w.manager.modifyAgent agent (·.bumpActivity w.manager.now) }
  | .kill conversation reason => some { w with manager := w.manager.kill conversation reason }
  | .killAndWait conversation reason => some { w with manager := w.manager.killAndWait conversation reason }
  | .clear => some { w with manager := w.manager.clear }
  | .scan idleThresholdMs => some { w with scheduled := w.scheduled ++ w.manager.collectIdle idleThresholdMs }
  | .cleanup i =>
    match w.scheduled[i]? with
    | some decided => some { w with
        manager := w.manager.killAndWait decided.1 (some .idleTimeout)
        scheduled := w.scheduled.eraseIdx i }
    | none => none
  | .tick ms => some { w with manager := { w.manager with now := w.manager.now + ms } }

def start (now : Int) : World :=
  ⟨⟨∅,fun _ => ⟨none,false⟩,0,fun _ => ⟨"",.acp,none,0,[]⟩,0,now⟩,fun _ => .idle,[]⟩

end Steps

end AlineaCopilot.AgentTasks
