import Mathlib.Data.List.Sort
import AlineaCopilot.ConversationRequests
open AlineaCopilot.KeyedMaps AlineaCopilot.TransitionRuns AlineaCopilot.InterleavedRequests AlineaCopilot.MessageTable
open AlineaCopilot.ConversationRuntime

namespace AlineaCopilot.ConversationExtra

-- A JSON value one level down: the code tells strings and lists of strings
-- from the rest.
inductive Field where
  | text (value : String)
  | texts (values : List String)
  | other (json : String)
deriving DecidableEq, Repr

-- A scalar is a number, a boolean, a string or an array.
inductive Value where
  | object (fields : KeyedMap String Field)
  | null
  | scalar (json : String)

-- What the `extra` column holds: a text that parses, or one that does not and
-- what the parser says to it.
inductive Extra where
  | json (value : Value)
  | unreadable (text error : String)

section Values

def Value.field (key : String) : Value → Option Field
  | .object fields => fields.lookup key
  | _ => none

def Extra.field (key : String) : Extra → Option Field
  | .json value => value.field key
  | .unreadable _ _ => none

def Extra.orEmpty : Extra → Value
  | .json value => value
  | .unreadable _ _ => .object ∅

def Field.asText : Field → Option String
  | .text value => some value
  | _ => none

def Value.text (key : String) (value : Value) : Option String := (value.field key).bind Field.asText

def mergeJson : Value → Value → Value
  | .object base,.object patch => .object (patch ∪ base)
  | base,_ => base

-- The map's `insert`, reached through `as_object_mut`.
def Value.insert (key : String) (field : Field) : Value → Value
  | .object fields => .object (fields.insert key field)
  | value => value

def Value.remove (key : String) : Value → Value
  | .object fields => .object (fields.erase key)
  | value => value

-- `extra[key] = ..` turns null into an object and panics on a scalar.
def Value.assign (key : String) (field : Field) : Value → Option Value
  | .object fields => some (.object (fields.insert key field))
  | .null => some (.object ((∅ : KeyedMap String Field).insert key field))
  | .scalar _ => none

end Values

section Edits

theorem field_insert (value : Value) (key : String) (field : Field) (other : k ≠ key) :
    (value.insert key field).field k = value.field k := by
  cases value with
  | object fields => simp only [Value.insert,Value.field,lookup_insert_eq,other,if_false]
  | null | scalar _ => rfl

theorem field_remove (value : Value) (key : String) (other : k ≠ key) : (value.remove key).field k = value.field k := by
  cases value with
  | object fields => simp only [Value.remove,Value.field,lookup_erase_eq,other,if_false]
  | null | scalar _ => rfl

theorem field_assign {value next : Value} (assigned : value.assign key field = some next) (other : k ≠ key) : next.field k = value.field k := by
  cases value with
  | object fields =>
    cases assigned
    simp only [Value.field,lookup_insert_eq,other,if_false]
  | null =>
    cases assigned
    simp only [Value.field,lookup_insert_eq,other,if_false]
    rfl
  | scalar json => cases assigned

-- The keys a merge overwrites.
def mergedKeys : Value → Value → List String
  | .object _,.object patch => patch.keys
  | _,_ => []

theorem field_mergeJson (base patch : Value) (other : k ∉ mergedKeys base patch) :
    (mergeJson base patch).field k = base.field k := by
  cases base with
  | object fields =>
    cases patch with
    | object patch => exact AList.lookup_union_right fun inside => other (AList.mem_keys.mp inside)
    | null | scalar _ => rfl
  | null | scalar _ => rfl

-- A value being changed: as it was read, as it is now, and the keys written
-- meanwhile. What was not written is as it was read.
structure Edit where
  read : Value
  value : Value
  keys : List String
  kept : ∀ k, k ∉ keys → value.field k = read.field k

def Edit.start (read : Value) : Edit := ⟨read,read,[],fun _ _ => rfl⟩

def Edit.merge (edit : Edit) (patch : Value) : Edit where
  read := edit.read
  value := mergeJson edit.value patch
  keys := mergedKeys edit.value patch ++ edit.keys
  kept := fun k unwritten => by
    have apart := not_or.mp (mt List.mem_append.mpr unwritten)
    exact (field_mergeJson _ _ apart.1).trans (edit.kept k apart.2)

def Edit.insert (edit : Edit) (key : String) (field : Field) : Edit where
  read := edit.read
  value := edit.value.insert key field
  keys := key :: edit.keys
  kept := fun k unwritten => by
    have apart := List.ne_and_not_mem_of_not_mem_cons unwritten
    exact (field_insert _ _ _ apart.1).trans (edit.kept k apart.2)

-- Removing a key that is not there writes nothing.
def Edit.remove (edit : Edit) (key : String) : Edit :=
  if edit.value.field key = none then edit
  else {
    read := edit.read
    value := edit.value.remove key
    keys := key :: edit.keys
    kept := fun k unwritten => by
      have apart := List.ne_and_not_mem_of_not_mem_cons unwritten
      exact (field_remove _ _ apart.1).trans (edit.kept k apart.2) }

def Edit.assign (edit : Edit) (key : String) (field : Field) : Option Edit :=
  match assigned : edit.value.assign key field with
  | none => none
  | some value => some {
    read := edit.read
    value := value
    keys := key :: edit.keys
    kept := fun k unwritten => by
      have apart := List.ne_and_not_mem_of_not_mem_cons unwritten
      exact (field_assign assigned apart.1).trans (edit.kept k apart.2) }

end Edits

-- The columns that the writers of `extra` read or write.
structure ConversationRow where
  userId : String
  type : String
  name : String
  pinned : Bool
  pinnedAt : Option Int
  model : Option String
  projectId : Option String
  extra : Extra
  updatedAt : Int

structure ConversationRowUpdate where
  name : Option String := none
  pinned : Option Bool := none
  pinnedAt : Option (Option Int) := none
  model : Option (Option String) := none
  extra : Option Edit := none
  projectId : Option (Option String) := none
  updatedAt : Option Int := none

-- The model is the request's model as it is serialised.
structure UpdateConversationRequest where
  name : Option String
  pinned : Option Bool
  model : Option String
  extra : Option Value
  projectId : Option String

inductive WorkspacePathValidationError where
  | empty
  | doesNotExist (path : String)
  | notDirectory (path : String)
  | notAccessible (path : String)

-- What the handlers ask of the rest of the service: the runtime state, the
-- file system, the memberships where a repository of them is wired, and the
-- names of the skills injected by default.
structure Outside where
  runtime : RuntimeState
  validateWorkspacePath : String → Except WorkspacePathValidationError String
  isProjectMember : Option (String → String → Bool)
  autoInjectNames : List String

-- `writes` lists every value written to an `extra` column, latest first, with
-- the conversation; no handler reads it.
structure Store where
  outside : Outside
  conversations : KeyedMap String ConversationRow
  writes : List (String × Edit)

section Repository

def ConversationRowUpdate.isEmpty (updates : ConversationRowUpdate) : Bool :=
  updates.name.isNone && updates.pinned.isNone && updates.pinnedAt.isNone && updates.model.isNone &&
    updates.extra.isNone && updates.projectId.isNone && updates.updatedAt.isNone

def ConversationRowUpdate.apply (updates : ConversationRowUpdate) (row : ConversationRow) : ConversationRow := { row with
  name := updates.name.getD row.name
  pinned := updates.pinned.getD row.pinned
  pinnedAt := updates.pinnedAt.getD row.pinnedAt
  model := updates.model.getD row.model
  extra := (updates.extra.map fun edit => .json edit.value).getD row.extra
  projectId := updates.projectId.getD row.projectId
  updatedAt := updates.updatedAt.getD row.updatedAt }

def Store.update (store : Store) (id : String) (updates : ConversationRowUpdate) : Except DbError Store :=
  if updates.isEmpty then .ok store
  else match store.conversations.lookup id with
    | none => .error (.notFound s!"Conversation '{id}' not found")
    | some row => .ok { store with
        conversations := store.conversations.insert id (updates.apply row)
        writes := match updates.extra with
          | none => store.writes
          | some edit => (id,edit) :: store.writes }

def Store.findOwn (store : Store) (userId id : String) : Except ConversationError ConversationRow :=
  match (store.conversations.lookup id).filter fun row => row.userId = userId with
  | none => .error (.notFound id)
  | some row => .ok row

end Repository

section Backfill

def computeInitialSkills (autoInject presetEnabled excludeAutoInject : List String) : List String :=
  ((autoInject.filter fun name => name ∉ excludeAutoInject) ++ presetEnabled).dedup.insertionSort (· ≤ ·)

def takeStringArray (edit : Edit) (key : String) : Edit × List String :=
  (edit.remove key,match edit.value.field key with
    | some (.texts names) => names
    | _ => [])

-- The legacy fields are removed in any case; whether that counts as a change
-- depends on what they held.
def backfillSkillsIfMissing (edit : Edit) (autoInjectNow : List String) : Edit × Bool :=
  match edit.value with
  | .object _ =>
    let (edit,legacyEnabled) := takeStringArray edit "enabled_skills"
    let (edit,legacyExcluded) := takeStringArray edit "exclude_builtin_skills"
    let legacyLoaded := edit.value.field "loaded_skills"
    let edit := edit.remove "loaded_skills"
    let hadLegacy := !legacyEnabled.isEmpty || !legacyExcluded.isEmpty || legacyLoaded.isSome
    match edit.value.field "skills" with
    | none => (edit.insert "skills" (.texts (computeInitialSkills autoInjectNow legacyEnabled legacyExcluded)),true)
    | some _ => (edit,hadLegacy)
  | _ => (edit,false)

def backfillAlias (edit : Edit) (key cronJobId : String) : Edit × Bool :=
  if edit.value.text key = some cronJobId then (edit,false) else (edit.insert key (.text cronJobId),true)

def backfillCronJobIdAlias (edit : Edit) : Edit × Bool :=
  match (edit.value.text "cron_job_id").orElse fun _ => edit.value.text "cronJobId" with
  | none => (edit,false)
  | some cronJobId =>
    let (edit,snake) := backfillAlias edit "cron_job_id" cronJobId
    let (edit,camel) := backfillAlias edit "cronJobId" cronJobId
    (edit,snake || camel)

def backfillExtra (extra : Value) (autoInject : List String) : Edit × Bool :=
  let (edit,skills) := backfillSkillsIfMissing (.start extra) autoInject
  let (edit,cronJobId) := backfillCronJobIdAlias edit
  (edit,skills || cronJobId)

end Backfill

section Update

def agentTypeNames : String := "`acp`, `openclaw-gateway`, `nanobot`, `remote`, `aionrs`, `gemini`, `codex`"

def stringToAgentType : String → Except ConversationError ConversationRequests.AgentType
  | "acp" => .ok .acp
  | "openclaw-gateway" => .ok .openclawGateway
  | "nanobot" => .ok .nanobot
  | "remote" => .ok .remote
  | "aionrs" => .ok .aionrs
  | "gemini" => .ok .gemini
  | "codex" => .ok .codex
  | name => .error (.internal s!"Invalid enum value '{name}': unknown variant `{name}`, expected one of {agentTypeNames}")

def Value.hasAny (value : Value) (keys : List String) : Bool := keys.any fun key => (value.field key).isSome

def mapWorkspaceError : WorkspacePathValidationError → ConversationError
  | .empty => .badRequest "Workspace directory is empty"
  | .doesNotExist path | .notDirectory path | .notAccessible path => .workspacePathUnavailable path

def normalizeWorkspacePath (outside : Outside) (workspace : String) : Except ConversationError String :=
  (outside.validateWorkspacePath workspace).mapError mapWorkspaceError

def normalizeWorkspaceExtra (outside : Outside) (edit : Edit) : Except ConversationError Edit :=
  match edit.value.text "workspace" with
  | none => .ok edit
  | some workspace =>
    if workspace.isEmpty then .ok edit
    else match normalizeWorkspacePath outside workspace with
      | .error error => .error error
      | .ok normalized =>
        if normalized = workspace then .ok edit else .ok (edit.insert "workspace" (.text normalized))

-- The patch is merged into what was read; the path it brings is normalised.
def mergePatch (outside : Outside) (stripModel : Bool) (existing : Extra) (patch : Value) : Except ConversationError Edit :=
  let merged := (Edit.start existing.orEmpty).merge patch
  let merged := if stripModel then merged.remove "model" else merged
  if (patch.field "workspace").isSome then normalizeWorkspaceExtra outside merged else .ok merged

def rejectUpdate (existing : ConversationRow) (agentType : ConversationRequests.AgentType)
    (request : UpdateConversationRequest) : Option ConversationError :=
  if request.extra.any (·.hasAny ["skills","mcp_server_ids","mcp_servers","mcp_statuses","session_mcp_servers"]) then
    some (.badRequest "extra.skills and MCP snapshots are immutable post-creation")
  else if agentType = .acp ∧ request.extra.any (·.hasAny ["current_model_id","current_mode_id"]) then
    some (.badRequest "ACP runtime current mode/model must be changed via /mode or /model, not conversation.extra")
  else if agentType ≠ .aionrs ∧ request.model.isSome then
    some (.badRequest s!"top-level `model` is only accepted for aionrs conversations; pass model via `extra` for {existing.type}")
  else none

def prepareUpdate (outside : Outside) (now : Int) (existing : ConversationRow) (request : UpdateConversationRequest) :
    Except ConversationError ConversationRowUpdate :=
  match stringToAgentType existing.type with
  | .error error => .error error
  | .ok agentType =>
    match rejectUpdate existing agentType request with
    | some error => .error error
    | none =>
      match request.extra.mapM (mergePatch outside (agentType = .aionrs) existing.extra) with
      | .error error => .error error
      | .ok extra => .ok {
          name := request.name
          pinned := request.pinned
          pinnedAt := request.pinned.map fun pinned => if pinned then some now else none
          model := request.model.map some
          extra := extra
          projectId := request.projectId.map some
          updatedAt := some now }

end Update

inductive Request where
  | get (userId id : String)
  | list (userId : String)
  | update (userId id : String) (request : UpdateConversationRequest)
  | updateExtra (id : String) (patch : Value)
  | maybePersistWorkspace (id storedWorkspace resolvedWorkspace : String)
  | persistSessionKey (id sessionKey : String)

inductive Response where
  | conversation (row : ConversationRow)
  | conversations (items : List (String × ConversationRow))
  | done

-- The rows a read has fetched: the one it is at, with the JSON of its column,
-- those still to come, and those that are through.
structure Page where
  single : Bool
  id : String
  row : ConversationRow
  extra : Value
  rest : List (String × ConversationRow)
  items : List (String × ConversationRow)

-- Who awaits the repository's update.
inductive Caller where
  | update
  | updateExtra
  | workspace
  | sessionKey
  | backfill (page : Page)

inductive Progress where
  | idle
  | getting (userId id : String)
  | listing (userId : String)
  | resolvingSkills (page : Page)
  | updating (userId id : String) (request : UpdateConversationRequest)
  | authorizing (userId id projectId : String) (updates : ConversationRowUpdate)
  | updatingExtra (id : String) (patch : Value)
  | admittingWorkspace (id resolvedWorkspace : String)
  | syncingWorkspace (id resolvedWorkspace : String)
  | admittingSessionKey (id sessionKey : String)
  | savingSessionKey (id sessionKey : String)
  | writing (id : String) (updates : ConversationRowUpdate) (caller : Caller)
  | refetching (id : String)
  | panicked
  | returned (result : Except ConversationError Response)

-- A request comes in, its call answers or fails, the page of a listing is
-- found, or the rest of the service moves on.
inductive Input where
  | arrive (request : Request)
  | answer (now : Int)
  | page (ids : List String)
  | fail (error : ConversationError)
  | outside (next : Outside)

section Handlers

def refuse (error : ConversationError) : Progress := .returned (.error error)

-- The next row of the page that can be read; the others are skipped.
def nextRow (items : List (String × ConversationRow)) : List (String × ConversationRow) → Progress
  | [] => .returned (.ok (.conversations items))
  | (id,row) :: rest => match row.extra with
    | .json extra => .resolvingSkills ⟨false,id,row,extra,rest,items⟩
    | .unreadable _ _ => nextRow items rest

def Page.through (page : Page) (extra : Value) : Progress :=
  let row := { page.row with extra := .json extra }
  if page.single then .returned (.ok (.conversation row)) else nextRow (page.items ++ [(page.id,row)]) page.rest

def resolveSkills (outside : Outside) (page : Page) : Progress :=
  let (edit,mutated) := backfillExtra page.extra outside.autoInjectNames
  if mutated then .writing page.id { extra := some edit } (.backfill { page with extra := edit.value })
  else page.through edit.value

def getConversation (id : String) (found : Except ConversationError ConversationRow) : Progress :=
  match found with
  | .error error => refuse error
  | .ok row => match row.extra with
    | .json extra => .resolvingSkills ⟨true,id,row,extra,[],[]⟩
    | .unreadable _ error => refuse (.internal s!"Invalid extra JSON: {error}")

-- The rows of the user among those the query finds.
def Store.listed (store : Store) (userId : String) (ids : List String) : List (String × ConversationRow) :=
  ids.filterMap fun id => ((store.conversations.lookup id).filter fun row => row.userId = userId).map fun row => (id,row)

def updateConversation (store : Store) (userId id : String) (now : Int) (request : UpdateConversationRequest) : Progress :=
  match store.findOwn userId id with
  | .error error => refuse error
  | .ok existing => match prepareUpdate store.outside now existing request with
    | .error error => refuse error
    | .ok updates => match request.projectId with
      | none => .writing id updates .update
      | some projectId => .authorizing userId id projectId updates

-- Without a repository of memberships nobody is a member.
def authorize (outside : Outside) (userId id projectId : String) (updates : ConversationRowUpdate) : Progress :=
  if outside.isProjectMember.any fun isMember => isMember userId projectId then .writing id updates .update
  else refuse (.forbidden s!"User is not a member of project '{projectId}'")

def updateExtra (store : Store) (id : String) (now : Int) (patch : Value) : Progress :=
  match store.conversations.lookup id with
  | none => refuse (.notFound id)
  | some existing => match mergePatch store.outside false existing.extra patch with
    | .error error => refuse error
    | .ok edit => .writing id { extra := some edit, updatedAt := some now } .updateExtra

def syncWorkspace (store : Store) (id : String) (now : Int) (resolvedWorkspace : String) : Progress :=
  match store.conversations.lookup id with
  | none => refuse (.internal "Conversation vanished during workspace sync")
  | some row => match (Edit.start row.extra.orEmpty).assign "workspace" (.text resolvedWorkspace) with
    | none => .panicked
    | some edit => .writing id { extra := some edit, updatedAt := some now } .workspace

def saveSessionKey (store : Store) (id : String) (now : Int) (sessionKey : String) : Progress :=
  match store.conversations.lookup id with
  | none => .returned (.ok .done)
  | some row =>
    if row.extra.orEmpty.text "sessionKey" = some sessionKey then .returned (.ok .done)
    else match (Edit.start row.extra.orEmpty).assign "sessionKey" (.text sessionKey) with
      | none => .panicked
      | some edit => .writing id { extra := some edit, updatedAt := some now } .sessionKey

def Caller.resume (caller : Caller) (id : String) : Progress :=
  match caller with
  | .update => .refetching id
  | .updateExtra | .workspace | .sessionKey => .returned (.ok .done)
  | .backfill page => page.through page.extra

-- A failed write of a session key or of a backfill is logged only.
def Caller.failed (caller : Caller) (error : ConversationError) : Progress :=
  match caller with
  | .update | .updateExtra | .workspace => refuse error
  | .sessionKey => .returned (.ok .done)
  | .backfill page => page.through page.extra

def refetch (store : Store) (id : String) : Progress :=
  match store.conversations.lookup id with
  | none => refuse (.internal "Conversation vanished after update")
  | some row => match row.extra with
    | .json _ => .returned (.ok (.conversation row))
    | .unreadable _ error => refuse (.internal s!"Invalid extra JSON: {error}")

def arrive : Request → Progress
  | .get userId id => .getting userId id
  | .list userId => .listing userId
  | .update userId id request => .updating userId id request
  | .updateExtra id patch => .updatingExtra id patch
  | .maybePersistWorkspace id storedWorkspace resolvedWorkspace =>
    if resolvedWorkspace.isEmpty || resolvedWorkspace = storedWorkspace then .returned (.ok .done)
    else .admittingWorkspace id resolvedWorkspace
  | .persistSessionKey id sessionKey => .admittingSessionKey id sessionKey

-- What a request does that leaves the tables alone.
def proceed (store : Store) : Progress → Input → Option Progress
  | .idle,.arrive request => some (arrive request)
  | .getting userId id,.answer _ => some (getConversation id (store.findOwn userId id))
  | .listing userId,.page ids => some (nextRow [] (store.listed userId ids))
  | .resolvingSkills page,.answer _ => some (resolveSkills store.outside page)
  | .updating userId id request,.answer now => some (updateConversation store userId id now request)
  | .authorizing userId id projectId updates,.answer _ => some (authorize store.outside userId id projectId updates)
  | .updatingExtra id patch,.answer now => some (updateExtra store id now patch)
  | .admittingWorkspace id resolvedWorkspace,.answer _ =>
    some (if store.outside.runtime.allows id .resolvedWorkspace then .syncingWorkspace id resolvedWorkspace
      else .returned (.ok .done))
  | .syncingWorkspace id resolvedWorkspace,.answer now => some (syncWorkspace store id now resolvedWorkspace)
  | .admittingSessionKey id sessionKey,.answer _ =>
    some (if store.outside.runtime.allows id .sessionKey then .savingSessionKey id sessionKey else .returned (.ok .done))
  | .savingSessionKey id sessionKey,.answer now => some (saveSessionKey store id now sessionKey)
  | .savingSessionKey _ _,.fail _ => some (.returned (.ok .done))
  | .refetching id,.answer _ => some (refetch store id)
  | .writing _ _ caller,.fail error => some (caller.failed error)
  | .getting _ _,.fail error | .listing _,.fail error | .updating _ _ _,.fail error | .authorizing _ _ _ _,.fail error
  | .updatingExtra _ _,.fail error | .syncingWorkspace _ _,.fail error | .refetching _,.fail error => some (refuse error)
  | _,_ => none

def advance (store : Store) (progress : Progress) (input : Input) : Option (Store × Progress) :=
  match progress,input with
  | .writing id updates caller,.answer _ => match store.update id updates with
    | .ok next => some (next,caller.resume id)
    | .error error => some (store,caller.failed (ConversationRequests.ofDbError error))
  | progress,.outside next => some ({ store with outside := next },progress)
  | progress,input => (proceed store progress input).map fun next => (store,next)

end Handlers

-- Any conversations, nothing written yet, no request made yet.
def start (outside : Outside) (conversations : KeyedMap String ConversationRow) : System Store Progress :=
  ⟨⟨outside,conversations,[]⟩,fun _ => .idle⟩

end AlineaCopilot.ConversationExtra
