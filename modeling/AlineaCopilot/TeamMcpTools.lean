import AlineaCopilot.StatefulPrograms
import AlineaCopilot.TeamRoster
open AlineaCopilot.StatefulPrograms

namespace AlineaCopilot.TeamMcp

-- `serde_json::Value`. A number keeps its text.
inductive Json where
  | null
  | bool (value : Bool)
  | number (text : String)
  | string (text : String)
  | array (items : List Json)
  | object (fields : List (String × Json))

def Json.get (key : String) : Json → Option Json
  | .object fields => List.lookup key fields
  | _ => none

def Json.asStr : Json → Option String
  | .string text => some text
  | _ => none

def Json.getStr (key : String) (value : Json) : Option String := (value.get key).bind Json.asStr

-- The derived `Deserialize` of a struct on a value: an object is read by key and
-- other keys are passed over, an array is read by position. In the array only
-- the fields after the first `required` ones have a default.
def Json.structFields (keys : List String) (required : Nat) : Json → Option (List (Option Json))
  | .object fields => some (keys.map fun key => List.lookup key fields)
  | .array items =>
    if required ≤ items.length ∧ items.length ≤ keys.length then
      some (items.map some ++ List.replicate (keys.length - items.length) none)
    else none
  | _ => none

def stringField (field : Option Json) : Option String := field.bind Json.asStr

def optionalField (read : Json → Option α) : Option Json → Option (Option α)
  | none | some .null => some none
  | some value => (read value).map some

def Json.asStrings : Json → Option (List String)
  | .array items => items.mapM Json.asStr
  | _ => none

structure SendMessageInput where
  recipient : String
  message : String

def SendMessageInput.fromValue (value : Json) : Option SendMessageInput :=
  match value.structFields ["to","message"] 2 with
  | some [recipient,message] => do return ⟨← stringField recipient,← stringField message⟩
  | _ => none

structure SpawnAgentInput where
  name : String
  role : Option String
  backend : Option String
  agentType : Option String
  customAgentId : Option String
  model : Option String

def SpawnAgentInput.fromValue (value : Json) : Option SpawnAgentInput :=
  match value.structFields ["name","role","backend","agent_type","custom_agent_id","model"] 1 with
  | some [name,role,backend,agentType,customAgentId,model] => do
    return ⟨← stringField name,← optionalField Json.asStr role,← optionalField Json.asStr backend,
      ← optionalField Json.asStr agentType,← optionalField Json.asStr customAgentId,← optionalField Json.asStr model⟩
  | _ => none

structure TaskCreateInput where
  subject : String
  description : Option String
  owner : Option String
  blockedBy : Option (List String)

def TaskCreateInput.fromValue (value : Json) : Option TaskCreateInput :=
  match value.structFields ["subject","description","owner","blocked_by"] 4 with
  | some [subject,description,owner,blockedBy] => do
    return ⟨← stringField subject,← optionalField Json.asStr description,← optionalField Json.asStr owner,
      ← optionalField Json.asStrings blockedBy⟩
  | _ => none

structure TaskUpdateInput where
  taskId : String
  status : Option String
  description : Option String
  owner : Option String
  blockedBy : Option (List String)

def TaskUpdateInput.fromValue (value : Json) : Option TaskUpdateInput :=
  match value.structFields ["task_id","status","description","owner","blocked_by"] 5 with
  | some [taskId,status,description,owner,blockedBy] => do
    return ⟨← stringField taskId,← optionalField Json.asStr status,← optionalField Json.asStr description,
      ← optionalField Json.asStr owner,← optionalField Json.asStrings blockedBy⟩
  | _ => none

structure RenameAgentInput where
  slotId : String
  newName : String

def RenameAgentInput.fromValue (value : Json) : Option RenameAgentInput :=
  match value.structFields ["slot_id","new_name"] 2 with
  | some [slotId,newName] => do return ⟨← stringField slotId,← stringField newName⟩
  | _ => none

structure ShutdownAgentInput where
  slotId : String
  reason : Option String

def ShutdownAgentInput.fromValue (value : Json) : Option ShutdownAgentInput :=
  match value.structFields ["slot_id","reason"] 2 with
  | some [slotId,reason] => do return ⟨← stringField slotId,← optionalField Json.asStr reason⟩
  | _ => none

inductive MailboxMessageType where
  | message
  | shutdownRequest
deriving DecidableEq, Repr

-- What a tool does to the team. `scheduleRemoval` is the task that
-- shutdown_approved spawns, `removeAgent` what that task does later.
inductive Effect where
  | mailboxWrite (recipient sender : String) (kind : MailboxMessageType) (content : String)
  | taskCreate (subject : String) (description owner : Option String) (blockedBy : List String)
  | taskUpdate (taskId : String) (status description owner : Option String) (blockedBy : Option (List String))
  | persistSpawnedAgent (userId name backend model : String) (customAgentId : Option String)
  | renameAgent (slotId newName : String)
  | scheduleRemoval (slotId : String)
  | removeAgent (slotId : String)
  | pendingWake (slotId : String)
deriving DecidableEq, Repr

structure Session where
  userId : String
  activeRun : Bool
deriving DecidableEq, Repr

-- `agents` is the scheduler's slot map in the order it iterates, `row` the
-- stored team, `serviceAlive` whether the weak reference to the service upgrades.
structure Team where
  row : TeamRoster.TeamRow
  agents : List TeamAgent
  serviceAlive : Bool
  session : Option Session
deriving DecidableEq, Repr

structure Execution where
  team : Team
  effects : List Effect

abbrev Tool (ε α : Type) := Program Execution ε α

-- What the repositories and ports answer while one tool runs: the failure of an
-- effect, the capability of a backend and its default model, the ids of a new
-- slot and its conversation, the text of a tool that only reads, and serde's
-- words for arguments it cannot read.
structure Answers where
  refuses : Effect → Option TeamError
  isBackendTeamCapable : String → Bool
  defaultModelForBackend : String → Option String
  provision : String → String × String
  report : String → Json → Except String String
  explain : String → Json → String

def Answers.invalidParams (answers : Answers) (input : String) (args : Json) : String :=
  s!"Invalid params: {answers.explain input args}"

section Tools
variable (toLowercase : String → String) (answers : Answers)

-- An effect counts from its attempt: one that fails may have got through in part.
def commit (effect : Effect) (change : Team → Team) : Tool TeamError Unit := do
  modify fun e => { e with effects := e.effects ++ [effect] }
  match answers.refuses effect with
  | some error => throw error
  | none => modify fun e => { e with team := change e.team }

def Team.findAgent (team : Team) (slotId : String) : Option TeamAgent := team.agents.find? (·.slotId == slotId)

def Team.findLeadSlotId (team : Team) : Option String := (team.agents.find? (·.role == .lead)).map (·.slotId)

def getAgent (slotId : String) : Tool TeamError TeamAgent := do
  match (← get).team.findAgent slotId with
  | some agent => return agent
  | none => throw (.agentNotFound slotId)

def resolveAgentTarget (target : String) : Tool String String := do
  let agents := (← get).team.agents
  if agents.any (·.slotId == target) then return target
  match agents.filter fun agent => toLowercase agent.name == toLowercase target with
  | [] => throw s!"No agent matches '{target}'"
  | [hit] => return hit.slotId
  | _ => throw s!"Multiple agents match '{target}'"

inductive SchedulerAction where
  | sendMessage (recipient message : String)
  | taskCreate (subject : String) (description owner : Option String) (blockedBy : List String)
  | taskUpdate (taskId : String) (status description owner : Option String) (blockedBy : Option (List String))
  | shutdownAgent (slotId : String) (reason : Option String)

def mailboxWrite (recipient sender : String) (kind : MailboxMessageType) (content : String) : Tool TeamError Unit :=
  commit answers (.mailboxWrite recipient sender kind content) id

def handleSendMessage (sender recipient message : String) : Tool TeamError Unit := do
  if recipient = "*" then
    let agents := (← get).team.agents
    ((agents.map (·.slotId)).filter (· ≠ sender)).forM fun target => mailboxWrite answers target sender .message message
  else mailboxWrite answers recipient sender .message message

def handleShutdownAgent (sender target : String) (reason : Option String) : Tool TeamError Unit := do
  let caller ← getAgent sender
  if caller.role ≠ .lead then throw (.invalidRequest "only lead can shutdown agents")
  let agent ← getAgent target
  if agent.role = .lead then throw (.invalidRequest "cannot shutdown the team lead")
  mailboxWrite answers target sender .shutdownRequest (reason.getD "shutdown requested")

-- `execute_action` on the actions the server builds.
def executeAction (sender : String) : SchedulerAction → Tool TeamError Unit
  | .sendMessage recipient message => handleSendMessage answers sender recipient message
  | .taskCreate subject description owner blockedBy =>
    commit answers (.taskCreate subject description owner blockedBy) id
  | .taskUpdate taskId status description owner blockedBy =>
    commit answers (.taskUpdate taskId status description owner blockedBy) id
  | .shutdownAgent slotId reason => handleShutdownAgent answers sender slotId reason

def notifyShutdownRejected (sender reason : String) : Tool TeamError Unit := do
  let team := (← get).team
  match team.findLeadSlotId with
  | none => return
  | some lead =>
    if lead = sender then return
    let name := ((team.findAgent sender).map (·.name)).getD sender
    mailboxWrite answers lead sender .message s!"Teammate '{name}' declined shutdown: {reason}"

def getSession : Tool TeamError Session := do
  let team := (← get).team
  match team.session with
  | some session => return session
  | none => throw (.sessionNotFound team.row.id)

def requireActiveTeamRunForTeamWork : Tool TeamError Unit := do
  if (← getSession).activeRun then return
  throw (.invalidRequest "no active team run for run-scoped wake")

def reserveWakeForTeamWork (slotId : String) : Tool TeamError Unit := do
  let _ ← getAgent slotId
  requireActiveTeamRunForTeamWork
  commit answers (.pendingWake slotId) id

def wakeAgentForTeamWork (slotId : String) : Tool TeamError Unit := do
  let _ ← getSession
  reserveWakeForTeamWork answers slotId

def wakeLeaderAfterRecoveryMessage : Tool TeamError Unit := do
  let session ← getSession
  match (← get).team.findLeadSlotId with
  | none => throw (.agentNotFound "lead")
  | some lead => if session.activeRun then wakeAgentForTeamWork answers lead

def upgrade (refusal : String) : Tool String Unit := do
  if (← get).team.serviceAlive then return
  throw refusal

def execSendMessage (args : Json) (caller : String) : Tool String String := do
  match SendMessageInput.fromValue args with
  | none => throw (answers.invalidParams "SendMessageInput" args)
  | some input =>
    let trimmed := RustText.trim input.message
    if trimmed = "shutdown_approved" then
      modify fun e => { e with effects := e.effects ++ [.scheduleRemoval caller] }
      return "\x7b\"status\":\"shutdown_approved_received\"\x7d"
    match RustText.stripPrefix "shutdown_rejected:" trimmed with
    | some rest =>
      let reason := RustText.trim rest
      mapError TeamError.display (notifyShutdownRejected answers caller reason)
      if (← get).team.serviceAlive then attempt (wakeLeaderAfterRecoveryMessage answers)
      return s!"shutdown_rejected: {reason}"
    | none =>
      let resolvedTo ← if input.recipient = "*" then pure "*" else resolveAgentTarget toLowercase input.recipient
      upgrade "Team service not available; cannot wake target"
      mapError TeamError.display requireActiveTeamRunForTeamWork
      mapError TeamError.display (executeAction answers caller (.sendMessage resolvedTo input.message))
      let agents := (← get).team.agents
      let targets := if resolvedTo = "*" then (agents.map (·.slotId)).filter (· ≠ caller) else [resolvedTo]
      targets.forM fun target => mapError TeamError.display (wakeAgentForTeamWork answers target)
      return s!"Message sent to {input.recipient}"

structure SpawnAgentRequest where
  name : String
  agentType : Option String
  customAgentId : Option String
  model : Option String

-- The hard-coded backends that always support team mode.
def TEAM_CAPABLE_BACKENDS : List String := ["claude","codex","gemini","aionrs","codebuddy"]

-- `TeamSession::spawn_agent` up to the answer to its caller: attaching the
-- process goes on in the background.
def spawnAgent (session : Session) (caller : String) (req : SpawnAgentRequest) : Tool TeamError TeamAgent := do
  let agent ← getAgent caller
  if agent.role ≠ .lead then throw (.leaderOnly "spawn_agent")
  let requestedName := RustText.trim req.name
  if requestedName.isEmpty then throw (.invalidRequest "spawn_agent.name must not be empty")
  let normalized := normalizeName toLowercase requestedName
  if normalized.isEmpty then throw (.invalidRequest "spawn_agent.name is empty after normalization")
  if (← get).team.agents.any fun other => normalizeName toLowercase other.name == normalized then
    throw (.duplicateAgentName requestedName)
  let backend := ((req.agentType.map RustText.trim).filter (!·.isEmpty)).getD agent.backend
  if !TEAM_CAPABLE_BACKENDS.contains backend then
    if !((← get).team.serviceAlive && answers.isBackendTeamCapable backend) then throw (.backendNotAllowed backend)
  if !(← get).team.serviceAlive then throw (.invalidRequest "spawn_agent requires a live TeamSessionService")
  let model := (req.model.filter (!·.isEmpty)).getD ((answers.defaultModelForBackend backend).getD agent.model)
  let ids := answers.provision requestedName
  let newAgent := TeamRoster.provisionNewAgent ids.1 ids.2 requestedName .teammate backend model req.customAgentId
  commit answers (.persistSpawnedAgent session.userId requestedName backend model req.customAgentId) fun team =>
    { team with
      row := { team.row with agents := team.row.agents ++ [newAgent] }
      agents := team.agents.filter (·.slotId ≠ newAgent.slotId) ++ [newAgent] }
  mailboxWrite answers newAgent.slotId caller .message
    "You have been spawned as a teammate. Read your mailbox and wait for instructions."
  reserveWakeForTeamWork answers newAgent.slotId
  return newAgent

def spawnAgentInSession (caller : String) (req : SpawnAgentRequest) : Tool TeamError TeamAgent := do
  requireActiveTeamRunForTeamWork
  let session ← getSession
  spawnAgent toLowercase answers session caller req

def execSpawnAgent (args : Json) (caller : String) (callerRole : TeammateRole) : Tool String String := do
  if callerRole ≠ .lead then throw "Only Lead can spawn agents"
  match SpawnAgentInput.fromValue args with
  | none => throw (answers.invalidParams "SpawnAgentInput" args)
  | some input =>
    upgrade "Team service not available; cannot spawn agent"
    let agent ← mapError TeamError.display (spawnAgentInSession toLowercase answers caller
      ⟨input.name,input.agentType.or input.backend,input.customAgentId,input.model⟩)
    return s!"Agent '{agent.name}' spawned (slot_id={agent.slotId})"

def execTaskCreate (args : Json) : Tool String String := do
  match TaskCreateInput.fromValue args with
  | none => throw (answers.invalidParams "TaskCreateInput" args)
  | some input =>
    mapError TeamError.display (executeAction answers "system"
      (.taskCreate input.subject input.description input.owner (input.blockedBy.getD [])))
    return s!"Task '{input.subject}' created"

def execTaskUpdate (args : Json) : Tool String String := do
  match TaskUpdateInput.fromValue args with
  | none => throw (answers.invalidParams "TaskUpdateInput" args)
  | some input =>
    mapError TeamError.display (executeAction answers "system"
      (.taskUpdate input.taskId input.status input.description input.owner input.blockedBy))
    return s!"Task '{input.taskId}' updated"

-- `TeammateManager::rename_agent`, on the scheduler's slots.
def renameSlot (agents : List TeamAgent) (slotId newName : String) : Except TeamError (List TeamAgent) :=
  let normalized := normalizeName toLowercase newName
  if normalized.isEmpty then .error (.invalidRequest "rename_agent.new_name is empty after normalization")
  else if !agents.any (·.slotId == slotId) then .error (.agentNotFound slotId)
  else if agents.any fun agent => agent.slotId ≠ slotId ∧ normalizeName toLowercase agent.name = normalized then
    .error (.duplicateAgentName newName)
  else .ok (agents.map fun agent => if agent.slotId = slotId then { agent with name := newName } else agent)

-- `TeamSessionService::rename_agent`. The stored team decides; the session's
-- scheduler follows if it can.
def renameAgent (userId slotId name : String) : Tool TeamError Unit := do
  let row := (← get).team.row
  if row.userId ≠ userId then throw (.forbidden s!"team {row.id} is not owned by current user")
  match TeamRoster.renameIn toLowercase row.agents slotId name with
  | .error error => throw error
  | .ok renamed => commit answers (.renameAgent slotId name) fun team =>
    { team with
      row := { team.row with agents := renamed }
      agents := if team.session.isSome then (renameSlot toLowercase team.agents slotId name).toOption.getD team.agents
        else team.agents }

def execRenameAgent (args : Json) : Tool String String := do
  match RenameAgentInput.fromValue args with
  | none => throw (answers.invalidParams "RenameAgentInput" args)
  | some input =>
    let resolvedSlot ← resolveAgentTarget toLowercase input.slotId
    let team := (← get).team
    if team.serviceAlive then
      match team.session with
      | none => throw s!"No active session for team {team.row.id}"
      | some session => mapError TeamError.display (renameAgent toLowercase answers session.userId resolvedSlot input.newName)
    else
      match renameSlot toLowercase team.agents resolvedSlot input.newName with
      | .error error => throw error.display
      | .ok renamed => modify fun e =>
        ⟨{ e.team with agents := renamed },e.effects ++ [.renameAgent resolvedSlot input.newName]⟩
    return s!"Agent '{input.slotId}' renamed to '{input.newName}'"

def execShutdownAgent (args : Json) (caller : String) (callerRole : TeammateRole) : Tool String String := do
  if callerRole ≠ .lead then throw "Only Lead can shut down agents"
  match ShutdownAgentInput.fromValue args with
  | none => throw (answers.invalidParams "ShutdownAgentInput" args)
  | some input =>
    let target ← resolveAgentTarget toLowercase input.slotId
    upgrade "Team service not available; cannot wake shutdown target"
    mapError TeamError.display requireActiveTeamRunForTeamWork
    mapError TeamError.display (executeAction answers caller (.shutdownAgent target input.reason))
    mapError TeamError.display (wakeAgentForTeamWork answers target)
    return s!"Shutdown request sent to agent '{target}'"

-- The tools that only read: what they say is the answer of the stores.
def execReport (tool : String) (args : Json) : Tool String String :=
  match answers.report tool args with
  | .ok text => pure text
  | .error text => throw text

def dispatchTool (tool : String) (args : Json) (caller : String) (callerRole : TeammateRole) : Tool String String :=
  match tool with
  | "team_send_message" => execSendMessage toLowercase answers args caller
  | "team_spawn_agent" => execSpawnAgent toLowercase answers args caller callerRole
  | "team_task_create" => execTaskCreate answers args
  | "team_task_update" => execTaskUpdate answers args
  | "team_task_list" => execReport answers tool args
  | "team_members" => execReport answers tool args
  | "team_rename_agent" => execRenameAgent toLowercase answers args
  | "team_shutdown_agent" => execShutdownAgent toLowercase answers args caller callerRole
  | "team_list_models" => execReport answers tool args
  | "team_describe_assistant" => execReport answers tool args
  | _ => throw s!"Unknown tool: {tool}"

-- `remove_agent`, as the task that shutdown_approved spawned runs it. Errors are
-- logged only.
def removeApprovedAgent (slotId : String) : Tool TeamError Unit := do
  let team := (← get).team
  if !team.serviceAlive then return
  let userId := (team.session.map (·.userId)).getD ""
  if team.row.userId ≠ userId then throw (.forbidden s!"team {team.row.id} is not owned by current user")
  match TeamRoster.removeFrom team.row.agents slotId with
  | .error error => throw error
  | .ok left => commit answers (.removeAgent slotId) fun team =>
    { team with
      row := { team.row with agents := left }
      agents := if team.session.isSome then team.agents.filter (·.slotId ≠ slotId) else team.agents }

end Tools

end AlineaCopilot.TeamMcp
