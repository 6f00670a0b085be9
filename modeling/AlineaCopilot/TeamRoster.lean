import AlineaCopilot.TransitionRuns
import AlineaCopilot.TeamTypes
open AlineaCopilot.TransitionRuns

namespace AlineaCopilot.TeamRoster

structure AddAgentRequest where
  name : String
  role : String
  backend : String
  model : String
  customAgentId : Option String := none
deriving DecidableEq, Repr

inductive Operation where
  | addAgent (userId : String) (req : AddAgentRequest)
  | persistSpawnedAgent (userId name backend model : String) (customAgentId : Option String)
  | removeAgent (userId slotId : String)
  | renameAgent (userId slotId name : String)
deriving DecidableEq, Repr

-- What an operation does to the roster.
inductive Effect where
  | push (agent : TeamAgent)
  | remove (slotId : String)
  | rename (slotId name : String)
deriving DecidableEq, Repr

structure TeamRow where
  id : String
  userId : String
  agents : List TeamAgent
deriving DecidableEq, Repr

-- The two operations that add an agent take the per-team lock.
def Operation.locks : Operation → Bool
  | .addAgent .. | .persistSpawnedAgent .. => true
  | .removeAgent .. | .renameAgent .. => false

-- `provision_new_agent` with the ids it is given.
def provisionNewAgent (slotId conversationId name : String) (role : TeammateRole) (backend model : String)
    (customAgentId : Option String) : TeamAgent :=
  ⟨slotId,name,role,conversationId,backend,model,customAgentId,none,none,none⟩

section Changes
variable (toLowercase : String → String)

def removeFrom (agents : List TeamAgent) (slotId : String) : Except TeamError (List TeamAgent) :=
  match agents.findIdx? (·.slotId == slotId) with
  | none => .error (.agentNotFound slotId)
  | some index => .ok (agents.eraseIdx index)

def renameIn (agents : List TeamAgent) (slotId name : String) : Except TeamError (List TeamAgent) :=
  let normalized := normalizeName toLowercase name
  if normalized.isEmpty then .error (.invalidRequest "rename_agent.name is empty after normalization")
  else if agents.any fun agent => agent.slotId ≠ slotId ∧ normalizeName toLowercase agent.name = normalized then
    .error (.duplicateAgentName name)
  else
    match agents.findIdx? (·.slotId == slotId) with
    | none => .error (.agentNotFound slotId)
    | some index => .ok (agents.modify index ({ · with name := name }))

def Effect.apply (agents : List TeamAgent) : Effect → Except TeamError (List TeamAgent)
  | .push agent => .ok (agents ++ [agent])
  | .remove slotId => removeFrom agents slotId
  | .rename slotId name => renameIn toLowercase agents slotId name

-- Executing one operation by itself.
def execute (agents : List TeamAgent) (effect : Effect) : Option (List TeamAgent) :=
  (effect.apply toLowercase agents).toOption

end Changes

-- How far a call has come. `loaded` is the roster it read, `next` the one it is
-- about to write.
inductive Thread where
  | idle
  | entering (op : Operation)
  | admitted (op : Operation)
  | provisioning (op : Operation) (loaded : List TeamAgent)
  | writing (op : Operation) (effect : Effect) (loaded next : List TeamAgent)
  | closing (op : Operation)
  | returned (op : Operation) (result : Except TeamError Unit)

structure System where
  row : TeamRow
  lock : Option Nat
  threads : Nat → Thread

-- A step of one call: it is made, takes the lock, reads the row, hears from the
-- conversation port, writes the row, and returns.
inductive Action where
  | call (n : Nat) (op : Operation)
  | lock (n : Nat)
  | read (n : Nat)
  | provide (n : Nat) (outcome : Except TeamError (String × String))
  | write (n : Nat) (outcome : Except TeamError Unit)
  | finish (n : Nat) (outcome : Except TeamError Unit)

def System.goes (system : System) (n : Nat) (thread : Thread) : System :=
  { system with threads := fun m => if m = n then thread else system.threads m }

-- The guard is dropped when the call returns.
def System.returns (system : System) (n : Nat) (op : Operation) (result : Except TeamError Unit) : System :=
  { system.goes n (.returned op result) with lock := if op.locks then none else system.lock }

section Steps
variable (toLowercase : String → String)

-- What a call does with the row it read, up to its next await point.
def afterRead (op : Operation) (row : TeamRow) : Except TeamError Thread :=
  match op with
  | .addAgent userId _ =>
    if row.userId ≠ userId then .error (.forbidden s!"team {row.id} is not owned by current user")
    else .ok (.provisioning op row.agents)
  | .persistSpawnedAgent .. => .ok (.provisioning op row.agents)
  | .removeAgent userId slotId =>
    if row.userId ≠ userId then .error (.forbidden s!"team {row.id} is not owned by current user")
    else (removeFrom row.agents slotId).map fun _ => .provisioning op row.agents
  | .renameAgent userId slotId name =>
    if row.userId ≠ userId then .error (.forbidden s!"team {row.id} is not owned by current user")
    else (renameIn toLowercase row.agents slotId name).map (.writing op (.rename slotId name) row.agents)

-- The removed agent's conversation is deleted before the write, and whether
-- that worked is not looked at.
def afterProvision (op : Operation) (loaded : List TeamAgent) (outcome : Except TeamError (String × String)) :
    Except TeamError Thread :=
  match op with
  | .addAgent _ req => outcome.map fun ids => push (provisionNewAgent ids.1 ids.2 req.name
      ((TeammateRole.parse req.role).getD .teammate) req.backend req.model req.customAgentId)
  | .persistSpawnedAgent _ name backend model customAgentId => outcome.map fun ids =>
    push (provisionNewAgent ids.1 ids.2 name .teammate backend model customAgentId)
  | .removeAgent _ slotId => (removeFrom loaded slotId).map (.writing op (.remove slotId) loaded)
  | .renameAgent .. => .ok (.provisioning op loaded)
where
  push (agent : TeamAgent) : Thread := .writing op (.push agent) loaded (loaded ++ [agent])

def step (system : System) : Action → Option System
  | .call n op =>
    match system.threads n with
    | .idle => some (system.goes n (.entering op))
    | _ => none
  | .lock n =>
    match system.threads n with
    | .entering op =>
      if op.locks ∧ system.lock = none then some { system.goes n (.admitted op) with lock := some n } else none
    | _ => none
  | .read n =>
    match system.threads n with
    | .entering op => if op.locks then none else some (reads system n op)
    | .admitted op => some (reads system n op)
    | _ => none
  | .provide n outcome =>
    match system.threads n with
    | .provisioning op loaded =>
      match afterProvision op loaded outcome with
      | .ok thread => some (system.goes n thread)
      | .error error => some (system.returns n op (.error error))
    | _ => none
  | .write n outcome =>
    match system.threads n with
    | .writing op _ _ next =>
      match outcome with
      | .ok _ => some { system.goes n (.closing op) with row := { system.row with agents := next } }
      | .error error => some (system.returns n op (.error error))
    | _ => none
  | .finish n outcome =>
    match system.threads n with
    | .closing op => some (system.returns n op outcome)
    | _ => none
where
  reads (system : System) (n : Nat) (op : Operation) : System :=
    match afterRead toLowercase op system.row with
    | .ok thread => system.goes n thread
    | .error error => system.returns n op (.error error)

end Steps

end AlineaCopilot.TeamRoster
