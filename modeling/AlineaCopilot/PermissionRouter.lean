import Mathlib.Logic.Function.Basic
import AlineaCopilot.KeyedMaps
import AlineaCopilot.RustText
import AlineaCopilot.TeamMcpTools
import AlineaCopilot.TransitionRuns
open AlineaCopilot.KeyedMaps AlineaCopilot.RustText
open AlineaCopilot.TeamMcp (Json)

namespace AlineaCopilot.PermissionRouter

def TEAM_MCP_SERVER_NAME : String := "aionui-team"
def TEAM_GUIDE_MCP_SERVER_NAME : String := "aionui-team-guide"
def AUTO_APPROVE_MCP_SERVERS : List String := [TEAM_MCP_SERVER_NAME,TEAM_GUIDE_MCP_SERVER_NAME]

inductive PermissionOptionKind where
  | allowOnce
  | allowAlways
  | rejectOnce
  | rejectAlways
deriving DecidableEq, Repr

structure PermissionOption where
  optionId : String
  name : String
  kind : PermissionOptionKind
deriving DecidableEq, Repr

inductive ToolKind where
  | read
  | edit
  | delete
  | move
  | search
  | execute
  | think
  | fetch
  | switchMode
  | other
deriving DecidableEq, Repr

structure PermissionRequest where
  toolCallId : String
  title : Option String
  kind : Option ToolKind
  rawInput : Option Json
  options : List PermissionOption

inductive PermissionDecision where
  | selected (optionId : String)
  | cancelled
deriving DecidableEq, Repr

structure ConfirmationOption where
  label : String
  value : String

structure Confirmation where
  id : String
  callId : String
  title : Option String
  action : Option String
  description : String
  commandType : Option String
  options : List ConfirmationOption

section Confirmations

def ToolKind.commandType : ToolKind → String
  | .read | .search => "read"
  | .edit | .delete | .move => "edit"
  | .execute | .think | .fetch | .switchMode | .other => "execute"

-- `render` is the JSON printer.
def toConfirmation (render : Json → String) (request : PermissionRequest) : Confirmation where
  id := request.toolCallId
  callId := request.toolCallId
  title := request.title
  action := none
  description := (request.rawInput.bind (Json.getStr "description")).getD ((request.rawInput.map render).getD "")
  commandType := request.kind.map ToolKind.commandType
  options := request.options.map fun option => ⟨option.name,option.optionId⟩

end Confirmations

section AutoApproval

def extractMcpServerFromRawInput (request : PermissionRequest) : Option String :=
  (request.rawInput.bind (Json.getStr "server_name")).filter (· ≠ "")

def extractMcpServerFromPrefixedTitle (title : String) : Option String :=
  (stripPrefix "mcp__" title).bind fun rest =>
    (cut "__".toList rest.toList).bind fun sides =>
      if sides.1 = [] ∨ sides.2 = [] then none else some (String.ofList sides.1)

def extractMcpServerName (request : PermissionRequest) : Option String :=
  (extractMcpServerFromRawInput request).or (request.title.bind extractMcpServerFromPrefixedTitle)

def selectAllowOptionId (request : PermissionRequest) : Option String :=
  ((request.options.find? (·.kind = .allowAlways)).or (request.options.find? (·.kind = .allowOnce))).map (·.optionId)

def autoApproveOptionId (request : PermissionRequest) : Option String :=
  (extractMcpServerName request).bind fun server =>
    if server ∈ AUTO_APPROVE_MCP_SERVERS then selectAllowOptionId request else none

end AutoApproval

-- A responder goes by the number of its request in the order of arrival.
structure PendingPermission where
  responder : Nat
  confirmation : Confirmation

-- Where the routing task stands between its accesses to what it shares.
inductive Routing where
  | receiving
  | received (n : Nat)
  | publishing (n : Nat)
  | unsent (n : Nat)
deriving DecidableEq, Repr

-- A call of `confirm`, with the responder in hand once the entry is removed.
inductive Confirming where
  | idle
  | removed (responder : Nat) (callId optionId : String)
  | over (result : Except String Unit)

structure World where
  -- What the CLI has sent, and how many of these the routing task has taken.
  arrived : List PermissionRequest
  taken : Nat
  pendingPermissions : KeyedMap String PendingPermission
  closing : Bool
  routing : Routing
  callers : Nat → Confirming
  -- Whose receiving side is gone.
  hungUp : Nat → Bool
  -- What was sent to responders, in order.
  decisions : List (Nat × PermissionDecision)

inductive Action where
  | arrive (request : PermissionRequest)
  | receive
  | route
  | publish (heard : Bool)
  | withdraw
  | confirm (k : Nat) (callId optionId : String)
  | deliver (k : Nat)
  | hangUp (n : Nat)
  | setClosing
  | cancelAll

section Steps

def World.getConfirmations (w : World) : List Confirmation := (values w.pendingPermissions).map (·.confirmation)

def World.respond (w : World) (n : Nat) (decision : PermissionDecision) : World :=
  { w with decisions := w.decisions ++ [(n,decision)] }

-- The entry goes in, and the one it replaces is answered, under one lock.
def World.register (w : World) (callId : String) (pending : PendingPermission) : World :=
  let inserted := { w with pendingPermissions := w.pendingPermissions.insert callId pending }
  match w.pendingPermissions.lookup callId with
  | some previous => inserted.respond previous.responder .cancelled
  | none => inserted

def World.cancelAll (w : World) : World := { w with
  pendingPermissions := ∅
  decisions := w.decisions ++ (values w.pendingPermissions).map fun pending => (pending.responder,.cancelled) }

def step (render : Json → String) (w : World) : Action → Option World
  | .arrive request => some { w with arrived := w.arrived ++ [request] }
  | .receive =>
    if w.routing = .receiving ∧ w.taken < w.arrived.length then
      some { w with taken := w.taken + 1, routing := .received w.taken }
    else none
  | .route =>
    match w.routing with
    | .received n =>
      w.arrived[n]?.map fun request =>
        match autoApproveOptionId request with
        | some optionId => { w.respond n (.selected optionId) with routing := .receiving }
        | none => { w.register request.toolCallId ⟨n,toConfirmation render request⟩ with routing := .publishing n }
    | _ => none
  -- The event goes out unless nobody listens.
  | .publish heard =>
    match w.routing with
    | .publishing n => some { w with routing := if heard then .receiving else .unsent n }
    | _ => none
  | .withdraw =>
    match w.routing with
    | .unsent n =>
      w.arrived[n]?.map fun request =>
        let rest := { w with pendingPermissions := w.pendingPermissions.erase request.toolCallId, routing := .receiving }
        match w.pendingPermissions.lookup request.toolCallId with
        | some pending => rest.respond pending.responder .cancelled
        | none => rest
    | _ => none
  | .confirm k callId optionId =>
    match w.callers k with
    | .idle =>
      match w.pendingPermissions.lookup callId with
      | none => some { w with
          callers := Function.update w.callers k (.over (.error s!"Pending ACP permission not found: {callId}")) }
      | some pending => some { w with
          pendingPermissions := w.pendingPermissions.erase callId
          callers := Function.update w.callers k (.removed pending.responder callId optionId) }
    | _ => none
  | .deliver k =>
    match w.callers k with
    | .removed n callId optionId =>
      let result := if w.hungUp n then .error s!"Pending ACP permission expired: {callId}" else .ok ()
      some { w.respond n (.selected optionId) with callers := Function.update w.callers k (.over result) }
    | _ => none
  | .hangUp n => some { w with hungUp := Function.update w.hungUp n true }
  | .setClosing => some { w with closing := true }
  | .cancelAll => some w.cancelAll

-- What `kill` of the agent does to the router. `cancel` does the second alone.
def kill : List Action := [.setClosing,.cancelAll]

def start : World := ⟨[],0,∅,false,.receiving,fun _ => .idle,fun _ => false,[]⟩

end Steps

end AlineaCopilot.PermissionRouter
