import AlineaCopilot.TeamMcpTools
open AlineaCopilot.StatefulPrograms

namespace AlineaCopilot.TeamMcp

def PARSE_ERROR : Int := -32700
def INVALID_REQUEST : Int := -32600
def METHOD_NOT_FOUND : Int := -32601
def INVALID_PARAMS : Int := -32602
def PROTOCOL_VERSION : String := "2024-11-05"
def SERVER_NAME : String := "aionui-team-mcp"
def SERVER_VERSION : String := "1.0.0"

structure JsonRpcRequest where
  id : Option Nat
  method : String
  params : Option Json

inductive JsonRpcResponse where
  | success (id : Option Nat) (result : Json)
  | error (id : Option Nat) (code : Int) (message : String)

-- What one server is given and the functions it does not define: the secret and
-- the AES-GCM decryption under the key derived from it, serde's readers of a
-- request and of a value, Unicode lower-casing, and the tool descriptions.
structure Server where
  authToken : String
  decrypt : String → String → Option String
  parseRequest : List UInt8 → Option JsonRpcRequest
  parseValue : String → Option Json
  toLowercase : String → String
  allToolDescriptors : Json

-- `guide_token::verify`: the two ids bound inside a token of this secret.
def Server.verify (server : Server) (token : String) : Option (String × String) :=
  if token.isEmpty then none else (server.decrypt server.authToken token).bind (RustText.splitOnce '\n')

inductive Frame where
  | incomplete
  | tooLarge
  | payload (bytes rest : List UInt8)
deriving DecidableEq, Repr

-- Four bytes of length, the highest first, and the payload.
def readFrame : List UInt8 → Frame
  | a :: b :: c :: d :: rest =>
    let len := ((a.toNat * 256 + b.toNat) * 256 + c.toNat) * 256 + d.toNat
    if len > 10 * 1024 * 1024 then .tooLarge
    else if rest.length < len then .incomplete
    else .payload (rest.take len) (rest.drop len)
  | _ => .incomplete

-- A tools/call that `handle_tools_call` has read and whose tool has not run yet.
structure Calling where
  id : Option Nat
  tool : String
  arguments : Json
  callerRole : TeammateRole

-- `presented` records the token that was verified; the code keeps the slot only.
structure Connection where
  buffer : List UInt8
  authenticated : Bool
  callerSlotId : Option String
  presented : Option String
  calling : Option Calling
  closed : Bool
  responses : List JsonRpcResponse

def Connection.accepted : Connection := ⟨[],false,none,none,none,false,[]⟩

def Connection.caller (connection : Connection) : String := connection.callerSlotId.getD "unknown"

inductive InitResult where
  | authenticated (slotId token : String) (response : JsonRpcResponse)
  | response (response : JsonRpcResponse)

def serverInfo : Json := .object [("name",.string SERVER_NAME),("version",.string SERVER_VERSION)]

def capabilities : Json := .object [("tools",.object [])]

section Server
variable (server : Server)

-- The token a request shows, under either spelling of its key.
def presentedToken (params : Option Json) : String :=
  (((params.bind (Json.get "auth_token")).or (params.bind (Json.get "authToken"))).bind Json.asStr).getD ""

def handleInitialize (request : JsonRpcRequest) : InitResult :=
  if request.method ≠ "initialize" then
    .response (.error request.id INVALID_REQUEST "Expected 'initialize' as first request")
  else
    let token := presentedToken request.params
    match server.verify token with
    | some (slotId,_) => .authenticated slotId token (.success request.id (.object
        [("protocolVersion",.string PROTOCOL_VERSION),("serverInfo",serverInfo),("capabilities",capabilities)]))
    | none => .response (.error request.id INVALID_REQUEST "Authentication failed: invalid auth_token")

-- The part of `handle_method` that precedes a tool: its answer, or the call.
def handleMethod (request : JsonRpcRequest) (callerRole : TeammateRole) : JsonRpcResponse ⊕ Calling :=
  match request.method with
  | "notifications/initialized" => .inl (.success request.id (.object []))
  | "tools/list" => .inl (.success request.id (.object [("tools",server.allToolDescriptors)]))
  | "tools/call" =>
    match request.params with
    | none => .inl (.error request.id INVALID_PARAMS "Missing params for tools/call")
    | some params =>
      match params.getStr "name" with
      | none => .inl (.error request.id INVALID_PARAMS "Missing 'name' in tools/call params")
      | some tool => .inr ⟨request.id,tool,(params.get "arguments").getD (.object []),callerRole⟩
  | other => .inl (.error request.id METHOD_NOT_FOUND ("Unknown method: " ++ other))

-- The role of the caller's slot as the scheduler has it.
def Team.callerRole (team : Team) (slotId : String) : TeammateRole :=
  ((team.findAgent slotId).map (·.role)).getD .teammate

def contentOf : Except String String → Json
  | .ok text => .object [("content",.array [.object [("type",.string "text"),("text",.string text)]])]
  | .error text => .object
    [("content",.array [.object [("type",.string "text"),("text",.string text)]]),("isError",.bool true)]

-- What the HTTP loop makes of one request.
inductive HttpOutcome where
  | badRequest
  | noContent
  | reply (id : Option Json) (result : Json)
  | call (id : Option Json) (tool : String) (arguments : Json) (caller : String)

def headerSlotId (request : List Char) : String :=
  match (RustText.lines request).find? fun line => "x-slot-id:".toList.isPrefixOf (server.toLowercase line).toList with
  | some line => ((RustText.splitOnce ':' line).map fun sides => RustText.trim sides.2).getD ""
  | none => ""

def httpBody (bytes : List UInt8) : String :=
  String.ofList ((RustText.secondPiece "\r\n\r\n".toList (RustText.fromUtf8Lossy bytes)).getD [])

def handleHttp (bytes : List UInt8) : HttpOutcome :=
  match server.parseValue (httpBody bytes) with
  | none => .badRequest
  | some value =>
    let id := value.get "id"
    match (value.getStr "method").getD "" with
    | "initialize" => .reply id (.object
        [("capabilities",capabilities),("protocolVersion",.string PROTOCOL_VERSION),("serverInfo",serverInfo)])
    | "notifications/initialized" => .noContent
    | "tools/list" => .reply id (.object [("tools",server.allToolDescriptors)])
    | "tools/call" =>
      let params := (value.get "params").getD (.object [])
      .call id ((params.getStr "name").getD "") ((params.get "arguments").getD (.object []))
        (headerSlotId server (RustText.fromUtf8Lossy bytes))
    | _ => .reply id (.object
        [("error",.object [("code",.number "-32601"),("message",.string "Method not found")])])

end Server

inductive HttpResponse where
  | badRequest
  | noContent
  | error (id : Option Json) (error : Json)
  | result (id : Option Json) (result : Json)

def httpResponse (id : Option Json) (result : Json) : HttpResponse :=
  match result.get "error" with
  | some error => .error id error
  | none => .result id result

-- The tool a request calls.
def HttpOutcome.tool : HttpOutcome → Option String
  | .call _ tool _ _ => some tool
  | _ => none

-- The answer that needs no tool.
def HttpOutcome.answer : HttpOutcome → Option HttpResponse
  | .badRequest => some .badRequest
  | .noContent => some .noContent
  | .reply id result => some (httpResponse id result)
  | .call .. => none

-- One executed tools/call: the token its transport verified, the caller and the
-- role the tool was given, and the role the scheduler had for the caller then.
structure Entry where
  token : Option String
  caller : String
  callerRole : TeammateRole
  current : Option TeammateRole
  tool : String
  effects : List Effect
  result : Except String String

-- A removal waiting out its delay, with the token of the call that asked for it.
structure Removal where
  token : Option String
  caller : String
  callerRole : TeammateRole
  slotId : String

structure System where
  team : Team
  connections : Nat → Option Connection
  http : List HttpResponse
  removals : List Removal
  log : List Entry

-- What reaches the server, and what goes on beside it: a connection is opened,
-- bytes arrive on it, its loop takes the next frame (`payload`), or fails to, and
-- runs a tool; an HTTP client is answered; a delayed removal is made; the rest of
-- the program changes the team.
inductive Action where
  | connect (n : Nat)
  | receive (n : Nat) (bytes : List UInt8)
  | read (n : Nat) (payload : List UInt8)
  | dispatch (n : Nat) (answers : Answers)
  | reject (n : Nat)
  | hangUp (n : Nat)
  | http (bytes : List UInt8) (answers : Answers)
  | remove (index : Nat) (answers : Answers)
  | elsewhere (team : Team)

def System.sets (system : System) (n : Nat) (connection : Connection) : System :=
  { system with connections := fun m => if m = n then some connection else system.connections m }

def removalsOf (token : Option String) (caller : String) (callerRole : TeammateRole) (effects : List Effect) : List Removal :=
  effects.filterMap fun
    | .scheduleRemoval slotId => some ⟨token,caller,callerRole,slotId⟩
    | _ => none

-- The delayed part of a shutdown_approved message.
def System.removes (system : System) (index : Nat) (removal : Removal) (answers : Answers) : System :=
  let outcome := perform (removeApprovedAgent answers removal.slotId) ⟨system.team,[]⟩
  { system with
    team := outcome.2.team
    removals := system.removals.eraseIdx index
    log := system.log ++ [⟨removal.token,removal.caller,removal.callerRole,
      (system.team.findAgent removal.caller).map (·.role),"team_send_message",outcome.2.effects,
      (outcome.1.map fun _ => "").mapError TeamError.display⟩] }

section Steps
variable (server : Server)

-- Runs a tool and records it.
def System.call (system : System) (token : Option String) (answers : Answers) (tool : String) (arguments : Json)
    (caller : String) (callerRole : TeammateRole) : Except String String × System :=
  let outcome := perform (dispatchTool server.toLowercase answers tool arguments caller callerRole) ⟨system.team,[]⟩
  let entry : Entry := ⟨token,caller,callerRole,(system.team.findAgent caller).map (·.role),tool,outcome.2.effects,outcome.1⟩
  (outcome.1,{ system with
    team := outcome.2.team
    removals := system.removals ++ removalsOf token caller callerRole outcome.2.effects
    log := system.log ++ [entry] })

-- One turn of the loop of `handle_connection` on a request that was read.
def handleRequest (team : Team) (connection : Connection) (request : JsonRpcRequest) : Connection :=
  if request.id.isNone then connection
  else if connection.authenticated then
    match handleMethod server request (team.callerRole connection.caller) with
    | .inl response => { connection with responses := connection.responses ++ [response] }
    | .inr calling => { connection with calling := some calling }
  else
    match handleInitialize server request with
    | .authenticated slotId token response => { connection with
        authenticated := true
        callerSlotId := some slotId
        presented := some token
        responses := connection.responses ++ [response] }
    | .response response => { connection with responses := connection.responses ++ [response] }

-- A connection that can read: it is open and no tool of it is running.
def System.reading (system : System) (n : Nat) : Option Connection :=
  (system.connections n).filter fun connection => !connection.closed && connection.calling.isNone

def step (system : System) : Action → Option System
  | .connect n =>
    match system.connections n with
    | none => some (system.sets n .accepted)
    | some _ => none
  | .receive n bytes =>
    match system.connections n with
    | none => none
    | some connection => some (system.sets n { connection with buffer := connection.buffer ++ bytes })
  | .read n payload =>
    match system.reading n with
    | none => none
    | some connection =>
      match readFrame connection.buffer with
      | .payload bytes rest =>
        if bytes = payload then
          (server.parseRequest payload).map fun request =>
            system.sets n (handleRequest server system.team { connection with buffer := rest } request)
        else none
      | _ => none
  | .dispatch n answers =>
    match system.connections n with
    | none => none
    | some connection =>
      match connection.calling with
      | none => none
      | some calling =>
        let (result,after) := system.call server connection.presented answers calling.tool calling.arguments
          connection.caller calling.callerRole
        some (after.sets n { connection with
          calling := none
          responses := connection.responses ++ [.success calling.id (contentOf result)] })
  | .reject n =>
    match system.reading n with
    | none => none
    | some connection =>
      match readFrame connection.buffer with
      | .tooLarge => some (system.sets n { connection with closed := true })
      | .payload bytes _ =>
        if (server.parseRequest bytes).isNone then some (system.sets n { connection with closed := true }) else none
      | .incomplete => none
  | .hangUp n =>
    match system.reading n with
    | none => none
    | some connection => some (system.sets n { connection with closed := true })
  | .http bytes answers =>
    if bytes = [] ∨ bytes.length > 65536 then none
    else
      match handleHttp server bytes with
      | .call id tool arguments caller =>
        let (result,after) := system.call server none answers tool arguments caller .lead
        some { after with http := system.http ++ [httpResponse id (contentOf result)] }
      | outcome => outcome.answer.map fun response => { system with http := system.http ++ [response] }
  | .remove index answers =>
    match system.removals[index]? with
    | none => none
    | some removal => some (system.removes index removal answers)
  | .elsewhere team => some { system with team := team }

end Steps

section Cases
variable {server : Server}

theorem reading_open (found : System.reading system n = some connection) :
    system.connections n = some connection := (Option.filter_eq_some_iff.mp found).1

theorem connect_cases (enabled : step server system (.connect n) = some next) :
    system.connections n = none ∧ next = system.sets n .accepted := by
  unfold step at enabled
  dsimp only at enabled
  split at enabled <;> cases enabled
  exact ⟨‹_›,rfl⟩

theorem receive_cases (enabled : step server system (.receive n bytes) = some next) :
    ∃ connection, system.connections n = some connection ∧
      next = system.sets n { connection with buffer := connection.buffer ++ bytes } := by
  unfold step at enabled
  dsimp only at enabled
  split at enabled <;> cases enabled
  exact ⟨_,‹_›,rfl⟩

theorem read_cases (enabled : step server system (.read n payload) = some next) :
    ∃ connection rest request, system.reading n = some connection ∧ readFrame connection.buffer = .payload payload rest ∧
      server.parseRequest payload = some request ∧
      next = system.sets n (handleRequest server system.team { connection with buffer := rest } request) := by
  unfold step at enabled
  dsimp only at enabled
  split at enabled
  · cases enabled
  · rename_i connection found
    split at enabled
    · rename_i bytes rest framed
      split at enabled
      · rename_i same
        subst same
        obtain ⟨request,parsed,rfl⟩ := Option.map_eq_some_iff.mp enabled
        exact ⟨connection,rest,request,found,framed,parsed,rfl⟩
      · cases enabled
    · cases enabled

theorem dispatch_cases (enabled : step server system (.dispatch n answers) = some next) :
    ∃ connection calling, system.connections n = some connection ∧ connection.calling = some calling ∧
      next = (system.call server connection.presented answers calling.tool calling.arguments connection.caller
        calling.callerRole).2.sets n { connection with
          calling := none
          responses := connection.responses ++ [.success calling.id (contentOf (system.call server
            connection.presented answers calling.tool calling.arguments connection.caller calling.callerRole).1)] } := by
  unfold step at enabled
  dsimp only at enabled
  split at enabled
  · cases enabled
  · rename_i connection found
    split at enabled <;> cases enabled
    rename_i calling running
    exact ⟨connection,calling,found,running,rfl⟩

theorem reject_cases (enabled : step server system (.reject n) = some next) :
    ∃ connection, system.reading n = some connection ∧ next = system.sets n { connection with closed := true } := by
  unfold step at enabled
  dsimp only at enabled
  split at enabled
  · cases enabled
  · rename_i connection found
    split at enabled
    · cases enabled
      exact ⟨connection,found,rfl⟩
    · split at enabled <;> cases enabled
      exact ⟨connection,found,rfl⟩
    · cases enabled

theorem hangUp_cases (enabled : step server system (.hangUp n) = some next) :
    ∃ connection, system.reading n = some connection ∧ next = system.sets n { connection with closed := true } := by
  unfold step at enabled
  dsimp only at enabled
  split at enabled <;> cases enabled
  exact ⟨_,‹_›,rfl⟩

-- An HTTP request is answered at once, or runs a tool for the caller it names.
theorem http_cases (enabled : step server system (.http bytes answers) = some next) :
    (∃ response, (handleHttp server bytes).answer = some response ∧
      next = { system with http := system.http ++ [response] }) ∨
    ∃ id tool arguments caller, handleHttp server bytes = .call id tool arguments caller ∧
      next = { (system.call server none answers tool arguments caller .lead).2 with
        http := system.http ++ [httpResponse id (contentOf (system.call server none answers tool arguments caller .lead).1)] } := by
  unfold step at enabled
  dsimp only at enabled
  split at enabled
  · cases enabled
  · split at enabled
    · rename_i asked
      cases enabled
      exact .inr ⟨_,_,_,_,asked,rfl⟩
    · obtain ⟨response,answered,rfl⟩ := Option.map_eq_some_iff.mp enabled
      exact .inl ⟨response,answered,rfl⟩

theorem remove_cases (enabled : step server system (.remove index answers) = some next) :
    ∃ removal, system.removals[index]? = some removal ∧ next = system.removes index removal answers := by
  unfold step at enabled
  dsimp only at enabled
  split at enabled <;> cases enabled
  exact ⟨_,‹_›,rfl⟩

end Cases

def System.start (team : Team) : System := ⟨team,fun _ => none,[],[],[]⟩

end AlineaCopilot.TeamMcp
