import AlineaCopilot.McpTransportJson
import AlineaCopilot.StatefulPrograms
open AlineaCopilot.KeyedMaps AlineaCopilot.StatefulPrograms AlineaCopilot.TeamMcp

namespace AlineaCopilot.McpServers

-- A row of `mcp_servers`. Its id is the key it stands under.
structure McpServerRow where
  name : String
  description : Option String
  enabled : Bool
  transportType : String
  transportConfig : String
  tools : Option String
  lastTestStatus : String
  lastConnected : Option Int
  originalJson : Option String
  builtin : Bool
  deletedAt : Option Int
  createdAt : Int
  updatedAt : Int
deriving DecidableEq

def McpServerRow.live (row : McpServerRow) : Bool := row.deletedAt.isNone

-- `written` is no part of the database: it remembers, for what is said of a run,
-- which transport was last written in a row.
structure Database where
  rows : KeyedMap String McpServerRow
  written : KeyedMap String McpServerTransport

-- What one request meets: the id and the time that are drawn for it, and whether
-- its statement fails. A statement that fails leaves the table as it was.
structure Env where
  newId : String
  now : Int
  fails : Bool

abbrev Service := Program Database McpError

section Repository

structure CreateMcpServerParams where
  name : String
  description : Option String
  enabled : Bool
  transportType : String
  transportConfig : String
  tools : Option String
  originalJson : Option String
  builtin : Bool

-- `none` keeps a value; where a column may be empty, `some none` clears it.
structure UpdateMcpServerParams where
  name : Option String := none
  description : Option (Option String) := none
  enabled : Option Bool := none
  transportType : Option String := none
  transportConfig : Option String := none
  tools : Option (Option String) := none
  originalJson : Option (Option String) := none
  builtin : Option Bool := none
  deletedAt : Option (Option Int) := none

def findById (id : String) (db : Database) : Option McpServerRow := (db.rows.lookup id).filter McpServerRow.live

def findByIdAny (id : String) (db : Database) : Option McpServerRow := db.rows.lookup id

def findByNameAny (name : String) (db : Database) : Option (String × McpServerRow) :=
  (db.rows.entries.find? (·.2.name = name)).map fun entry => (entry.1,entry.2)

def queryFailed : McpError := .database "Database query failed"

def nameTaken (name : String) : McpError := .database ("Duplicate record: MCP server name '" ++ name ++ "' already exists")

def rowMissing (id : String) : McpError := .database ("Record not found: MCP server '" ++ id ++ "' not found")

def createRow (env : Env) (params : CreateMcpServerParams) : Service (String × McpServerRow) := do
  let db ← get
  if env.fails then throw queryFailed
  else if (findByNameAny params.name db).isSome then throw (nameTaken params.name)
  else if (findByIdAny env.newId db).isSome then throw queryFailed
  else
    let row : McpServerRow :=
      { name := params.name, description := params.description, enabled := params.enabled,
        transportType := params.transportType, transportConfig := params.transportConfig, tools := params.tools,
        lastTestStatus := "disconnected", lastConnected := none, originalJson := params.originalJson,
        builtin := params.builtin, deletedAt := none, createdAt := env.now, updatedAt := env.now }
    set { db with rows := db.rows.insert env.newId row }
    pure (env.newId,row)

def mergeUpdate (now : Int) (existing : McpServerRow) (params : UpdateMcpServerParams) : McpServerRow where
  name := params.name.getD existing.name
  description := params.description.getD existing.description
  enabled := params.enabled.getD existing.enabled
  transportType := params.transportType.getD existing.transportType
  transportConfig := params.transportConfig.getD existing.transportConfig
  tools := params.tools.getD existing.tools
  lastTestStatus := existing.lastTestStatus
  lastConnected := existing.lastConnected
  originalJson := params.originalJson.getD existing.originalJson
  builtin := params.builtin.getD existing.builtin
  deletedAt := params.deletedAt.getD existing.deletedAt
  createdAt := existing.createdAt
  updatedAt := now

-- The row of another id that has a name already.
def nameElsewhere (id name : String) (db : Database) : Bool := db.rows.entries.any fun entry => entry.1 ≠ id ∧ entry.2.name = name

def updateRow (env : Env) (id : String) (params : UpdateMcpServerParams) : Service McpServerRow := do
  let db ← get
  match findByIdAny id db with
  | none => throw (rowMissing id)
  | some existing =>
    let merged := mergeUpdate env.now existing params
    if env.fails then throw queryFailed
    else if nameElsewhere id merged.name db then throw (nameTaken merged.name)
    else
      set { db with rows := db.rows.insert id merged }
      pure merged

def deleteRow (env : Env) (id : String) : Service PUnit := do
  let db ← get
  match findById id db with
  | none => throw (rowMissing id)
  | some row =>
    if env.fails then throw queryFailed
    else set { db with rows := db.rows.insert id { row with enabled := false, deletedAt := some env.now, updatedAt := env.now } }

end Repository

section Domain

inductive McpServerStatus where
  | connected
  | disconnected
  | error
  | testing
deriving DecidableEq, Repr

def parseServerStatus : String → McpServerStatus
  | "connected" => .connected
  | "disconnected" => .disconnected
  | "error" => .error
  | "testing" => .testing
  | _ => .disconnected

structure McpTool where
  name : String
  description : Option String
  inputSchema : Option Json

structure McpServer where
  id : String
  name : String
  description : Option String
  enabled : Bool
  transport : McpServerTransport
  tools : List McpTool
  lastTestStatus : McpServerStatus
  lastConnected : Option Int
  originalJson : Option String
  builtin : Bool
  createdAt : Int
  updatedAt : Int

def readTool (value : Json) : Option McpTool :=
  match Json.structFields ["name","description","input_schema"] 1 value with
  | some [name,description,inputSchema] => do
    let name ← stringField name
    let description ← optionalField Json.asStr description
    let inputSchema ← optionalField some inputSchema
    pure ⟨name,description,inputSchema⟩
  | _ => none

def readTools (serde : Serde) : Option String → Except McpError (List McpTool)
  | none => .ok []
  | some text =>
    if text = "" then .ok []
    else
      match serde.fromStr text with
      | some (.array items) =>
        match items.mapM readTool with
        | some tools => .ok tools
        | none => .error .json
      | _ => .error .json

def fromRow (serde : Serde) (id : String) (row : McpServerRow) : Except McpError McpServer := do
  let transport ← fromDb serde row.transportType row.transportConfig
  let tools ← readTools serde row.tools
  pure
    { id := id, name := row.name, description := row.description, enabled := row.enabled, transport := transport, tools := tools,
      lastTestStatus := parseServerStatus row.lastTestStatus, lastConnected := row.lastConnected, originalJson := row.originalJson,
      builtin := row.builtin, createdAt := row.createdAt, updatedAt := row.updatedAt }

end Domain

section Service
variable (serde : Serde)

structure CreateMcpServerRequest where
  name : String
  description : Option String
  transport : McpServerTransport
  originalJson : Option String
  builtin : Bool

structure ImportMcpServerRequest extends CreateMcpServerRequest where
  enabled : Option Bool

structure UpdateMcpServerRequest where
  name : Option String
  description : Option (Option String)
  transport : Option McpServerTransport
  originalJson : Option (Option String)
  builtin : Option Bool

def returning (result : Except McpError α) : Service α :=
  match result with
  | .ok value => pure value
  | .error e => throw e

def remember (id : String) (transport : McpServerTransport) : Service PUnit :=
  modify fun db => { db with written := db.written.insert id transport }

def nameReserved (name : String) : McpError := .conflict ("Builtin MCP server name '" ++ name ++ "' is reserved")

def upsertServer (env : Env) (req : CreateMcpServerRequest) (transport : McpServerTransport) (enabled : Bool) : Service McpServer := do
  let configJson := transport.toConfigJson serde
  let db ← get
  match findByNameAny req.name db with
  | some (id,existing) =>
    if existing.builtin then throw (nameReserved req.name)
    else
      let updated ← updateRow env id
        { description := some req.description, enabled := some enabled, transportType := some transport.transportType,
          transportConfig := some configJson, originalJson := some req.originalJson, builtin := some (existing.builtin || req.builtin),
          deletedAt := some none }
      remember id transport
      returning (fromRow serde id updated)
  | none =>
    let (id,row) ← createRow env
      { name := req.name, description := req.description, enabled := enabled, transportType := transport.transportType,
        transportConfig := configJson, tools := none, originalJson := req.originalJson, builtin := req.builtin }
    remember id transport
    returning (fromRow serde id row)

def addServer (env : Env) (req : CreateMcpServerRequest) : Service McpServer := do
  let transport ← returning (normalizeTransport req.transport)
  upsertServer serde env req transport false

def renames (req : UpdateMcpServerRequest) (existing : McpServerRow) : Bool := req.name.any (· ≠ existing.name)

-- The row of another id that has the name an edit asks for.
def reservedFor (id : String) (req : UpdateMcpServerRequest) (db : Database) : Option McpServerRow :=
  (req.name.bind (findByNameAny · db)).bind fun entry => if entry.1 = id then none else some entry.2

def rememberEdit (id : String) (transport : Option McpServerTransport) : Service PUnit :=
  match transport with
  | some transport => remember id transport
  | none => pure ⟨⟩

def editServer (env : Env) (id : String) (req : UpdateMcpServerRequest) : Service McpServer := do
  let db ← get
  match findById id db with
  | none => throw (.notFound id)
  | some existing =>
    if renames req existing then
      throw (.invalidEdit ("MCP server name cannot be changed during edit; keep '" ++ existing.name ++ "'"))
    else
      match reservedFor id req db with
      | some other => throw (if other.builtin then nameReserved (req.name.getD "") else .conflict (req.name.getD ""))
      | none =>
        let transport ← returning (req.transport.mapM normalizeTransport)
        let updated ← updateRow env id
          { name := req.name, description := req.description, transportType := transport.map (·.transportType),
            transportConfig := transport.map (·.toConfigJson serde), originalJson := req.originalJson, builtin := req.builtin }
        rememberEdit id transport
        returning (fromRow serde id updated)

def deleteServer (env : Env) (id : String) : Service Bool := do
  let db ← get
  match findById id db with
  | none => throw (.notFound id)
  | some row =>
    deleteRow env id
    pure row.enabled

def toggleServer (env : Env) (id : String) : Service McpServer := do
  let db ← get
  match findById id db with
  | none => throw (.notFound id)
  | some row =>
    let updated ← updateRow env id { enabled := some (!row.enabled) }
    returning (fromRow serde id updated)

-- One turn of the loop of `batch_import`; a reserved name is passed over.
def importServer (env : Env) (req : ImportMcpServerRequest) : Service (Option McpServer) := do
  let db ← get
  if ((findByNameAny req.name db).map (·.2.builtin)).getD false then pure none
  else
    let transport ← returning (normalizeTransport req.transport)
    let server ← upsertServer serde env req.toCreateMcpServerRequest transport (req.enabled.getD false)
    pure (some server)

def batchImport (entries : List (Env × ImportMcpServerRequest)) : Service (List McpServer) := do
  let servers ← entries.mapM fun entry => importServer serde entry.1 entry.2
  pure (servers.filterMap fun server => server)

end Service

end AlineaCopilot.McpServers
