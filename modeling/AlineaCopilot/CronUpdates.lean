import AlineaCopilot.ConversationExtra
import AlineaCopilot.CronNextRuns
import AlineaCopilot.DecimalText
import Mathlib.Data.Finmap

open AlineaCopilot.CronNextRuns AlineaCopilot.DecimalText AlineaCopilot.KeyedMaps AlineaCopilot.RustPanics
open AlineaCopilot.ConversationExtra (WorkspacePathValidationError stringToAgentType)
open AlineaCopilot.CronJobs (CronError ExecutionMode JobStatus)

namespace AlineaCopilot.CronUpdates

-- What `update_job` and `get_job` answer besides the errors of a schedule.
inductive UpdateError where
  | cron (error : CronError)
  | invalidExecutionMode (mode : String)
  | invalidCreatedBy (value : String)
  | invalidJobStatus (value : String)
  | json (message : String)
  | database (message : String)
deriving DecidableEq, Repr

deriving instance DecidableEq for Schedule

inductive CreatedBy where
  | user
  | agent
deriving DecidableEq, Repr

-- The options are a hash map: two configurations are equal whatever the order of
-- its entries.
structure CronAgentConfig where
  backend : String
  name : String
  cliPath : Option String := none
  isPreset : Option Bool := none
  customAgentId : Option String := none
  presetAgentType : Option String := none
  mode : Option String := none
  modelId : Option String := none
  configOptions : Option (Finmap fun _ : String => String) := none
  workspace : Option String := none

structure CronAgentConfigDto where
  backend : String
  name : String
  cliPath : Option String := none
  isPreset : Option Bool := none
  customAgentId : Option String := none
  presetAgentType : Option String := none
  mode : Option String := none
  modelId : Option String := none
  configOptions : Option (Finmap fun _ : String => String) := none
  workspace : Option String := none

def CronAgentConfigDto.toConfig (dto : CronAgentConfigDto) : CronAgentConfig :=
  { backend := dto.backend, name := dto.name, cliPath := dto.cliPath, isPreset := dto.isPreset
    customAgentId := dto.customAgentId, presetAgentType := dto.presetAgentType, mode := dto.mode
    modelId := dto.modelId, configOptions := dto.configOptions, workspace := dto.workspace }

structure CronJob where
  id : String
  name : String
  enabled : Bool
  schedule : Schedule
  message : String
  executionMode : ExecutionMode
  agentConfig : Option CronAgentConfig
  conversationId : String
  conversationTitle : Option String
  agentType : String
  createdBy : CreatedBy
  skillContent : Option String
  description : Option String
  createdAt : Int64
  updatedAt : Int64
  nextRunAt : Option Int64
  lastRunAt : Option Int64
  lastStatus : Option JobStatus
  lastError : Option String
  runCount : Int64
  retryCount : Int64
  maxRetries : Int64

structure CronJobRow where
  id : String
  name : String
  enabled : Bool
  scheduleKind : String
  scheduleValue : String
  scheduleTz : Option String
  scheduleDescription : Option String
  payloadMessage : String
  executionMode : String
  agentConfig : Option String
  conversationId : String
  conversationTitle : Option String
  agentType : String
  createdBy : String
  skillContent : Option String
  description : Option String
  createdAt : Int64
  updatedAt : Int64
  nextRunAt : Option Int64
  lastRunAt : Option Int64
  lastStatus : Option String
  lastError : Option String
  runCount : Int64
  retryCount : Int64
  maxRetries : Int64

-- The crates of a schedule, and `serde_json` for the configuration of an agent.
structure Outside where
  crates : Crates
  toJson : CronAgentConfig → Option String
  fromJson : String → Except String CronAgentConfig

section Conversions
variable (outside : Outside)

def modeText : ExecutionMode → String
  | .existing => "existing"
  | .newConversation => "new_conversation"

def modeFromStr (text : String) : Except UpdateError ExecutionMode :=
  if text = "existing" then .ok .existing
  else if text = "new_conversation" then .ok .newConversation
  else .error (.invalidExecutionMode text)

def createdByText : CreatedBy → String
  | .user => "user"
  | .agent => "agent"

def createdByFromStr (text : String) : Except UpdateError CreatedBy :=
  if text = "user" then .ok .user else if text = "agent" then .ok .agent else .error (.invalidCreatedBy text)

def statusText : JobStatus → String
  | .ok => "ok"
  | .error => "error"
  | .skipped => "skipped"
  | .missed => "missed"

def statusFromStr (text : String) : Except UpdateError JobStatus :=
  if text = "ok" then .ok .ok
  else if text = "error" then .ok .error
  else if text = "skipped" then .ok .skipped
  else if text = "missed" then .ok .missed
  else .error (.invalidJobStatus text)

-- `Option::map(..).transpose()`
def transposed (read : String → Except UpdateError α) : Option String → Except UpdateError (Option α)
  | none => .ok none
  | some text => (read text).map some

def configFromStr (text : String) : Except UpdateError CronAgentConfig := (outside.fromJson text).mapError .json

def parseSchedule (kind value : String) (tz description : Option String) : Except UpdateError Schedule :=
  if kind = "at" then
    match parseI64 value with
    | .ok atMs => .ok (.atTime atMs description)
    | .error e => .error (.cron (.invalidSchedule s!"invalid at_ms '{value}': {e}"))
  else if kind = "every" then
    match parseI64 value with
    | .ok everyMs => .ok (.every everyMs description)
    | .error e => .error (.cron (.invalidSchedule s!"invalid every_ms '{value}': {e}"))
  else if kind = "cron" then .ok (.cron value tz description)
  else .error (.cron (.invalidSchedule s!"unknown schedule kind: {kind}"))

def scheduleToRowFields : Schedule → String × String × Option String × Option String
  | .atTime atMs description => ("at",i64Text atMs,none,description)
  | .every everyMs description => ("every",i64Text everyMs,none,description)
  | .cron expr tz description => ("cron",expr,tz,description)

-- A job whose five converted columns have been read.
def CronJobRow.toJob (row : CronJobRow) (schedule : Schedule) (executionMode : ExecutionMode) (createdBy : CreatedBy)
    (agentConfig : Option CronAgentConfig) (lastStatus : Option JobStatus) : CronJob :=
  { id := row.id, name := row.name, enabled := row.enabled, schedule := schedule, message := row.payloadMessage
    executionMode := executionMode, agentConfig := agentConfig, conversationId := row.conversationId
    conversationTitle := row.conversationTitle, agentType := row.agentType, createdBy := createdBy
    skillContent := row.skillContent, description := row.description, createdAt := row.createdAt
    updatedAt := row.updatedAt, nextRunAt := row.nextRunAt, lastRunAt := row.lastRunAt, lastStatus := lastStatus
    lastError := row.lastError, runCount := row.runCount, retryCount := row.retryCount, maxRetries := row.maxRetries }

def cronJobFromRow (row : CronJobRow) : Except UpdateError CronJob := do
  let schedule ← parseSchedule row.scheduleKind row.scheduleValue row.scheduleTz row.scheduleDescription
  let executionMode ← modeFromStr row.executionMode
  let createdBy ← createdByFromStr row.createdBy
  let agentConfig ← transposed (configFromStr outside) row.agentConfig
  let lastStatus ← transposed statusFromStr row.lastStatus
  return row.toJob schedule executionMode createdBy agentConfig lastStatus

def cronJobToRow (job : CronJob) : Except UpdateError CronJobRow :=
  let fields := scheduleToRowFields job.schedule
  match job.agentConfig.mapM outside.toJson with
  | none => .error (.json "serialize")
  | some agentConfig => .ok {
      id := job.id, name := job.name, enabled := job.enabled, scheduleKind := fields.1
      scheduleValue := fields.2.1, scheduleTz := fields.2.2.1, scheduleDescription := fields.2.2.2
      payloadMessage := job.message, executionMode := modeText job.executionMode, agentConfig := agentConfig
      conversationId := job.conversationId, conversationTitle := job.conversationTitle, agentType := job.agentType
      createdBy := createdByText job.createdBy, skillContent := job.skillContent, description := job.description
      createdAt := job.createdAt, updatedAt := job.updatedAt, nextRunAt := job.nextRunAt, lastRunAt := job.lastRunAt
      lastStatus := job.lastStatus.map statusText, lastError := job.lastError, runCount := job.runCount
      retryCount := job.retryCount, maxRetries := job.maxRetries }

end Conversions

section Requests
variable (outside : Outside)

-- The request's schedule has the three shapes of `CronSchedule`.
structure UpdateCronJobRequest where
  name : Option String := none
  description : Option String := none
  enabled : Option Bool := none
  schedule : Option Schedule := none
  message : Option String := none
  executionMode : Option String := none
  agentConfig : Option CronAgentConfigDto := none
  conversationTitle : Option String := none
  maxRetries : Option Int64 := none

structure UpdateCronJobParams where
  name : Option String := none
  enabled : Option Bool := none
  scheduleKind : Option String := none
  scheduleValue : Option String := none
  scheduleTz : Option (Option String) := none
  scheduleDescription : Option (Option String) := none
  payloadMessage : Option String := none
  executionMode : Option String := none
  agentConfig : Option (Option String) := none
  conversationId : Option String := none
  conversationTitle : Option (Option String) := none
  agentType : Option String := none
  skillContent : Option (Option String) := none
  description : Option (Option String) := none
  nextRunAt : Option (Option Int64) := none
  lastRunAt : Option (Option Int64) := none
  lastStatus : Option (Option String) := none
  lastError : Option (Option String) := none
  runCount : Option Int64 := none
  retryCount : Option Int64 := none
deriving DecidableEq

def rejectDeprecatedNewConversationAgentType (agentType : String) : Except UpdateError Unit :=
  if (stringToAgentType agentType).toOption.any (·.isDeprecatedRuntime) then
    .error (.cron (.invalidAgentConfig "This agent type is no longer supported for new conversations."))
  else .ok ()

def validateAionrsAgentConfig (agentType : String) (agentConfig : Option CronAgentConfigDto) : Except UpdateError Unit :=
  if agentType ≠ "aionrs" then .ok ()
  else if agentConfig.any fun config => !(RustText.trim config.backend).isEmpty then .ok ()
  else .error (.cron (.invalidAgentConfig "aionrs cron jobs require agent_config.backend (provider_id)"))

def parseExecutionMode : Option String → Except UpdateError ExecutionMode
  | none => .ok .existing
  | some mode => if mode = "existing" then .ok .existing else modeFromStr mode

-- An edit of a cron expression without a time zone keeps the one there is.
def scheduleFromDtoWithExistingTimezone (dto existing : Schedule) : Schedule :=
  match dto with
  | .cron expr tz description =>
    .cron expr (tz <|> match existing with
      | .cron _ tz _ => tz
      | _ => none) description
  | _ => dto

def editedSchedule (job : CronJob) : Option Schedule → Except UpdateError Schedule
  | none => .ok job.schedule
  | some dto =>
    let schedule := scheduleFromDtoWithExistingTimezone dto job.schedule
    match validateSchedule outside.crates schedule with
    | .ok () => .ok schedule
    | .error error => .error (.cron error)

def editedMode (job : CronJob) : Option String → Except UpdateError ExecutionMode
  | none => .ok job.executionMode
  | some mode => parseExecutionMode (some mode)

def editedConfig (job : CronJob) : Option CronAgentConfigDto → Except UpdateError (Option CronAgentConfig)
  | none => .ok job.agentConfig
  | some dto =>
    match validateAionrsAgentConfig job.agentType (some dto) with
    | .ok () => .ok (some dto.toConfig)
    | .error error => .error error

-- The copy that `update_job` edits, before its next run is computed.
def CronJob.edited (job : CronJob) (req : UpdateCronJobRequest) : Except UpdateError CronJob := do
  rejectDeprecatedNewConversationAgentType job.agentType
  let schedule ← editedSchedule outside job req.schedule
  let executionMode ← editedMode job req.executionMode
  let agentConfig ← editedConfig job req.agentConfig
  return { job with
    name := req.name.getD job.name
    description := req.description <|> job.description
    enabled := req.enabled.getD job.enabled
    schedule := schedule
    message := req.message.getD job.message
    executionMode := executionMode
    agentConfig := agentConfig
    conversationTitle := req.conversationTitle <|> job.conversationTitle
    maxRetries := req.maxRetries.getD job.maxRetries }

def UpdateCronJobRequest.timed (req : UpdateCronJobRequest) : Bool := req.schedule.isSome || req.enabled.isSome

-- `max_retries` is not among them.
def buildUpdateParams (job : CronJob) (req : UpdateCronJobRequest) : UpdateCronJobParams :=
  let fields := req.schedule.map fun _ => scheduleToRowFields job.schedule
  { name := req.name
    enabled := req.enabled
    scheduleKind := fields.map (·.1)
    scheduleValue := fields.map (·.2.1)
    scheduleTz := fields.map (·.2.2.1)
    scheduleDescription := fields.map (·.2.2.2)
    payloadMessage := req.message
    executionMode := req.executionMode
    agentConfig := req.agentConfig.map fun dto => some ((outside.toJson dto.toConfig).getD "")
    conversationTitle := req.conversationTitle.map some
    description := req.description.map some
    nextRunAt := if req.timed then some job.nextRunAt else none }

end Requests

section Service

structure World where
  rows : KeyedMap String CronJobRow
  -- A timer runs for a schedule towards an instant.
  handles : KeyedMap String (Schedule × Int64)

-- `UPDATE cron_jobs SET .., updated_at = ?` of the parameters that are there.
def CronJobRow.apply (row : CronJobRow) (params : UpdateCronJobParams) (now : Int64) : CronJobRow :=
  { row with
    name := params.name.getD row.name
    enabled := params.enabled.getD row.enabled
    scheduleKind := params.scheduleKind.getD row.scheduleKind
    scheduleValue := params.scheduleValue.getD row.scheduleValue
    scheduleTz := params.scheduleTz.getD row.scheduleTz
    scheduleDescription := params.scheduleDescription.getD row.scheduleDescription
    payloadMessage := params.payloadMessage.getD row.payloadMessage
    executionMode := params.executionMode.getD row.executionMode
    agentConfig := params.agentConfig.getD row.agentConfig
    conversationId := params.conversationId.getD row.conversationId
    conversationTitle := params.conversationTitle.getD row.conversationTitle
    agentType := params.agentType.getD row.agentType
    skillContent := params.skillContent.getD row.skillContent
    description := params.description.getD row.description
    nextRunAt := params.nextRunAt.getD row.nextRunAt
    lastRunAt := params.lastRunAt.getD row.lastRunAt
    lastStatus := params.lastStatus.getD row.lastStatus
    lastError := params.lastError.getD row.lastError
    runCount := params.runCount.getD row.runCount
    retryCount := params.retryCount.getD row.retryCount
    updatedAt := now }

inductive Metadata where
  | directory
  | other
  | notFound
  | failed (reason : String)
deriving DecidableEq, Repr

-- What one call meets outside: its clocks, the database and the file system. The
-- conversation is the one the job is bound to, and an empty workspace where it
-- does not exist.
structure Answers where
  now : Int64
  updatedAt : Int64
  writtenAt : Int64
  read : Except String Unit := .ok ()
  conversation : String → Except UpdateError String := fun _ => .ok ""
  metadata : String → Metadata := fun _ => .notFound
  write : Except String Unit := .ok ()

variable (outside : Outside) (answers : Answers)

def resolveJobWorkspaceRaw (job : CronJob) : Except UpdateError String :=
  match job.agentConfig.bind (·.workspace) with
  | some workspace => .ok workspace
  | none => answers.conversation job.conversationId

def validateWorkspacePathAvailability (workspace : String) : Except WorkspacePathValidationError String :=
  if (RustText.trim workspace).isEmpty then .error .empty
  else match answers.metadata workspace with
    | .directory => .ok workspace
    | .other => .error (.notDirectory workspace)
    | .notFound => .error (.doesNotExist workspace)
    | .failed _ => .error (.notAccessible workspace)

def validateJobWorkspace (job : CronJob) : Except UpdateError Unit := do
  let workspace ← resolveJobWorkspaceRaw answers job
  match validateWorkspacePathAvailability answers workspace with
  | .ok _ | .error .empty => .ok ()
  | .error (.doesNotExist path) | .error (.notDirectory path) | .error (.notAccessible path) =>
    .error (.cron (.workspacePathUnavailable path))

def getById (rows : KeyedMap String CronJobRow) (id : String) : Except UpdateError CronJobRow :=
  match rows.lookup id with
  | none => .error (.cron (.jobNotFound id))
  | some row => .ok row

def getJob (w : World) (id : String) : Except UpdateError CronJob := do
  let row ← getById w.rows id
  cronJobFromRow outside row

-- An update without a column does not reach the database.
def update (rows : KeyedMap String CronJobRow) (id : String) (params : UpdateCronJobParams) :
    Except UpdateError (KeyedMap String CronJobRow) :=
  if params = {} then .ok rows
  else match answers.write,rows.lookup id with
    | .error e,_ => .error (.database e)
    | .ok (),none => .error (.cron (.databaseNotFound id))
    | .ok (),some row => .ok (rows.insert id (row.apply params answers.writtenAt))

def rescheduleJob (handles : KeyedMap String (Schedule × Int64)) (job : CronJob) : KeyedMap String (Schedule × Int64) :=
  match job.enabled,job.nextRunAt with
  | true,some runAt => (handles.erase job.id).insert job.id (job.schedule,runAt)
  | _,_ => handles.erase job.id

def nextRun (req : UpdateCronJobRequest) (job : CronJob) : Checked (Option Int64) :=
  if req.timed then computeNextRun outside.crates job.schedule answers.now else .ok job.nextRunAt

def withNextRun (req : UpdateCronJobRequest) (job : CronJob) : Checked CronJob := do
  let nextRunAt ← nextRun outside answers req job
  return { job with nextRunAt := nextRunAt, updatedAt := answers.updatedAt }

-- The binding of the conversation answers nothing and has no part in the row or
-- the timer of the job.
def updateJob (w : World) (id : String) (req : UpdateCronJobRequest) : Checked (Except UpdateError CronJob × World) := do
  match answers.read with
  | .error e => return (.error (.database e),w)
  | .ok () =>
    match getJob outside w id >>= (·.edited outside req) with
    | .error e => return (.error e,w)
    | .ok job =>
      let job ← withNextRun outside answers req job
      match validateJobWorkspace answers job with
      | .error e => return (.error e,w)
      | .ok () =>
        match update answers w.rows id (buildUpdateParams outside job req) with
        | .error e => return (.error e,w)
        | .ok rows => return (.ok job,{ rows := rows, handles := rescheduleJob w.handles job })

end Service

section Reading
variable {outside : Outside}

theorem bind_ok {x : Except ε α} {f : α → Except ε β} {v : β} : (x >>= f) = .ok v ↔ ∃ a, x = .ok a ∧ f a = .ok v := by
  cases x with
  | error e =>
    constructor
    · intro read
      cases read
    · rintro ⟨_,⟨⟩,_⟩
  | ok a =>
    constructor
    · exact fun read => ⟨a,rfl,read⟩
    · rintro ⟨_,⟨⟩,read⟩
      exact read

-- The columns of a schedule are read as what was written to them.
theorem parse_fields (schedule : Schedule) : parseSchedule (scheduleToRowFields schedule).1 (scheduleToRowFields schedule).2.1
    (scheduleToRowFields schedule).2.2.1 (scheduleToRowFields schedule).2.2.2 = .ok schedule := by
  cases schedule with
  | atTime atMs description => simp [scheduleToRowFields,parseSchedule,parse_i64Text]
  | every everyMs description => simp [scheduleToRowFields,parseSchedule,parse_i64Text]
  | cron expr tz description => simp [scheduleToRowFields,parseSchedule]

theorem mode_from_text (mode : ExecutionMode) : modeFromStr (modeText mode) = .ok mode := by
  cases mode <;> simp [modeText,modeFromStr]

theorem createdBy_from_text (createdBy : CreatedBy) : createdByFromStr (createdByText createdBy) = .ok createdBy := by
  cases createdBy <;> simp [createdByText,createdByFromStr]

theorem status_from_text (status : Option JobStatus) : transposed statusFromStr (status.map statusText) = .ok status := by
  cases status with
  | none => rfl
  | some status => cases status <;> simp [transposed,statusText,statusFromStr,Except.map]

theorem config_from_text {config : CronAgentConfig} {text : String} (read : outside.fromJson text = .ok config) :
    transposed (configFromStr outside) (some text) = .ok (some config) := by
  simp [transposed,configFromStr,read,Except.mapError,Except.map]

-- What a row's job is made of.
theorem from_row_iff {row : CronJobRow} {job : CronJob} : cronJobFromRow outside row = .ok job ↔
    ∃ schedule executionMode createdBy agentConfig lastStatus,
      parseSchedule row.scheduleKind row.scheduleValue row.scheduleTz row.scheduleDescription = .ok schedule ∧
      modeFromStr row.executionMode = .ok executionMode ∧ createdByFromStr row.createdBy = .ok createdBy ∧
      transposed (configFromStr outside) row.agentConfig = .ok agentConfig ∧
      transposed statusFromStr row.lastStatus = .ok lastStatus ∧
      row.toJob schedule executionMode createdBy agentConfig lastStatus = job := by
  unfold cronJobFromRow
  simp only [bind_ok,pure,Except.pure,Except.ok.injEq]
  constructor
  · rintro ⟨schedule,parsed,mode,moded,createdBy,created,config,configured,status,stated,rfl⟩
    exact ⟨schedule,mode,createdBy,config,status,parsed,moded,created,configured,stated,rfl⟩
  · rintro ⟨schedule,mode,createdBy,config,status,parsed,moded,created,configured,stated,rfl⟩
    exact ⟨schedule,parsed,mode,moded,createdBy,created,config,configured,status,stated,rfl⟩

-- A job that has been inserted is read back as it was.
theorem from_row_to_row {job : CronJob} {row : CronJobRow} (written : cronJobToRow outside job = .ok row)
    (reads : ∀ config ∈ job.agentConfig, ∀ text ∈ outside.toJson config, outside.fromJson text = .ok config) :
    cronJobFromRow outside row = .ok job := by
  have parsed := parse_fields job.schedule
  unfold cronJobToRow at written
  split at written
  · cases written
  · next agentConfig encoded =>
    cases written
    refine from_row_iff.mpr ⟨job.schedule,job.executionMode,job.createdBy,job.agentConfig,job.lastStatus,parsed,
      mode_from_text _,createdBy_from_text _,?_,status_from_text _,rfl⟩
    cases configured : job.agentConfig with
    | none =>
      rw [configured] at encoded
      cases encoded
      rfl
    | some config =>
      rw [configured] at encoded
      obtain ⟨text,wrote,rfl⟩ := Option.map_eq_some_iff.mp (show (outside.toJson config).map some = some agentConfig from encoded)
      exact config_from_text (reads config configured text wrote)

end Reading

section Edits
variable {outside : Outside} {old job : CronJob} {req : UpdateCronJobRequest}

-- What an accepted edit has checked, and the copy it leaves.
theorem edited_iff : old.edited outside req = .ok job ↔ ∃ schedule executionMode agentConfig,
    rejectDeprecatedNewConversationAgentType old.agentType = .ok () ∧ editedSchedule outside old req.schedule = .ok schedule ∧
    editedMode old req.executionMode = .ok executionMode ∧ editedConfig old req.agentConfig = .ok agentConfig ∧
    { old with
      name := req.name.getD old.name
      description := req.description <|> old.description
      enabled := req.enabled.getD old.enabled
      schedule := schedule
      message := req.message.getD old.message
      executionMode := executionMode
      agentConfig := agentConfig
      conversationTitle := req.conversationTitle <|> old.conversationTitle
      maxRetries := req.maxRetries.getD old.maxRetries } = job := by
  unfold CronJob.edited
  simp only [bind_ok,pure,Except.pure,Except.ok.injEq]
  constructor
  · rintro ⟨_,current,schedule,scheduled,mode,moded,config,configured,rfl⟩
    exact ⟨schedule,mode,config,current,scheduled,moded,configured,rfl⟩
  · rintro ⟨schedule,mode,config,current,scheduled,moded,configured,rfl⟩
    exact ⟨(),current,schedule,scheduled,mode,moded,config,configured,rfl⟩

theorem editedMode_some {text : String} {mode : ExecutionMode} (edited : editedMode old (some text) = .ok mode) :
    modeFromStr text = .ok mode := by
  simp only [editedMode,parseExecutionMode] at edited
  split at edited
  · next same => rw [← edited,modeFromStr,if_pos same]
  · exact edited

theorem editedConfig_some {dto : CronAgentConfigDto} {config : Option CronAgentConfig} (edited : editedConfig old (some dto) = .ok config) :
    config = some dto.toConfig := by
  simp only [editedConfig] at edited
  split at edited
  · exact (Except.ok.inj edited).symm
  · cases edited

-- `serde_json` writes this configuration, and reads it from what it wrote.
def Encodes (outside : Outside) (config : CronAgentConfig) : Prop :=
  ∃ text, outside.toJson config = some text ∧ outside.fromJson text = .ok config

-- The row after the update is read as the edited copy, with the repository's own
-- stamp and the stored number of retries.
theorem from_row_apply {row : CronJobRow} {nextRunAt : Option Int64} (stamp now : Int64) (stored : cronJobFromRow outside row = .ok old)
    (edited : old.edited outside req = .ok job) (kept : req.timed = false → nextRunAt = old.nextRunAt)
    (encodes : ∀ dto ∈ req.agentConfig, Encodes outside dto.toConfig) :
    cronJobFromRow outside (row.apply (buildUpdateParams outside { job with nextRunAt := nextRunAt, updatedAt := stamp } req) now) =
      .ok { job with nextRunAt := nextRunAt, updatedAt := now, maxRetries := old.maxRetries } := by
  obtain ⟨schedule,mode,createdBy,config,status,parsed,moded,created,configured,stated,rfl⟩ := from_row_iff.mp stored
  obtain ⟨schedule',mode',config',_,scheduled,moded',configured',rfl⟩ := edited_iff.mp edited
  refine from_row_iff.mpr ⟨schedule',mode',createdBy,config',status,?_,?_,created,?_,stated,?_⟩
  · cases wanted : req.schedule with
    | none =>
      rw [wanted] at scheduled
      cases scheduled
      simp only [CronJobRow.apply,buildUpdateParams,wanted,Option.map_none,Option.getD_none]
      exact parsed
    | some dto =>
      simp only [CronJobRow.apply,buildUpdateParams,wanted,Option.map_some,Option.getD_some]
      exact parse_fields schedule'
  · cases wanted : req.executionMode with
    | none =>
      rw [wanted] at moded'
      cases moded'
      simp only [CronJobRow.apply,buildUpdateParams,wanted,Option.getD_none]
      exact moded
    | some text =>
      rw [wanted] at moded'
      simp only [CronJobRow.apply,buildUpdateParams,wanted,Option.getD_some]
      exact editedMode_some moded'
  · cases wanted : req.agentConfig with
    | none =>
      rw [wanted] at configured'
      cases configured'
      simp only [CronJobRow.apply,buildUpdateParams,wanted,Option.map_none,Option.getD_none]
      exact configured
    | some dto =>
      rw [wanted] at configured'
      obtain ⟨text,wrote,read⟩ := encodes dto wanted
      rw [editedConfig_some configured']
      simp only [CronJobRow.apply,buildUpdateParams,wanted,Option.map_some,Option.getD_some,wrote]
      exact config_from_text read
  · have next : (if req.timed then some nextRunAt else none).getD row.nextRunAt = nextRunAt := by
      cases timed : req.timed with
      | false => exact (kept timed).symm
      | true => rfl
    have optional : ∀ (wanted stored : Option String), (wanted.map some).getD stored = (wanted <|> stored) := by
      intro wanted stored
      cases wanted <;> rfl
    simp only [CronJobRow.apply,buildUpdateParams,CronJobRow.toJob,next,optional,Option.getD_none]

end Edits

section Updates
variable {outside : Outside} {answers : Answers} {w after : World} {id : String} {req : UpdateCronJobRequest} {job old : CronJob}

theorem withNextRun_ok {edited : CronJob} (timed : withNextRun outside answers req edited = .ok job) :
    ∃ nextRunAt, job = { edited with nextRunAt := nextRunAt, updatedAt := answers.updatedAt } ∧
      (req.timed = false → nextRunAt = edited.nextRunAt) := by
  unfold withNextRun at timed
  obtain ⟨nextRunAt,computed,same⟩ := bind_ok.mp timed
  refine ⟨nextRunAt,(Except.ok.inj same).symm,fun still => ?_⟩
  rw [nextRun,still] at computed
  exact (Except.ok.inj computed).symm

-- The row of the job after its update: every column as the parameters say, even
-- where there is nothing to set.
theorem update_lookup {rows after : KeyedMap String CronJobRow} {row : CronJobRow} {params : UpdateCronJobParams}
    (found : rows.lookup id = some row) (updated : update answers rows id params = .ok after) :
    ∃ now, after.lookup id = some (row.apply params now) := by
  unfold update at updated
  split at updated
  · next empty =>
    cases updated
    exact ⟨row.updatedAt,by rw [empty]; exact found⟩
  · rw [found] at updated
    split at updated
    · cases updated
    · next missing => cases missing
    · next there =>
      cases there
      cases updated
      exact ⟨answers.writtenAt,AList.lookup_insert _⟩

theorem refused_unchanged {e : UpdateError} (refused : updateJob outside answers w id req = .ok (.error e,after)) : after = w := by
  unfold updateJob at refused
  split at refused
  · cases refused
    rfl
  · split at refused
    · cases refused
      rfl
    · obtain ⟨job,_,refused⟩ := bind_ok.mp refused
      split at refused
      · cases refused
        rfl
      · split at refused
        · cases refused
          rfl
        · cases refused

-- An accepted update: the row was there and was read, its copy edited, and the
-- parameters written.
theorem accepted_written (accepted : updateJob outside answers w id req = .ok (.ok job,after)) : ∃ row old edited nextRunAt,
    w.rows.lookup id = some row ∧ cronJobFromRow outside row = .ok old ∧ old.edited outside req = .ok edited ∧
    job = { edited with nextRunAt := nextRunAt, updatedAt := answers.updatedAt } ∧
    (req.timed = false → nextRunAt = edited.nextRunAt) ∧
    update answers w.rows id (buildUpdateParams outside job req) = .ok after.rows := by
  unfold updateJob at accepted
  split at accepted
  · cases accepted
  · split at accepted
    · cases accepted
    · next edited loads =>
      obtain ⟨written,timed,accepted⟩ := bind_ok.mp accepted
      split at accepted
      · cases accepted
      · split at accepted
        · cases accepted
        · next rows updated =>
          cases accepted
          obtain ⟨old,stored,edits⟩ := bind_ok.mp loads
          unfold getJob getById at stored
          split at stored
          · cases stored
          · next row found =>
            obtain ⟨nextRunAt,same,kept⟩ := withNextRun_ok timed
            exact ⟨row,old,edited,nextRunAt,found,stored,edits,same,kept,updated⟩

-- Every field that the request does not name has its old value. A request names
-- the next run with the schedule or the switch.
structure Untouched (req : UpdateCronJobRequest) (old job : CronJob) : Prop where
  id : job.id = old.id
  name : req.name = none → job.name = old.name
  enabled : req.enabled = none → job.enabled = old.enabled
  schedule : req.schedule = none → job.schedule = old.schedule
  message : req.message = none → job.message = old.message
  executionMode : req.executionMode = none → job.executionMode = old.executionMode
  agentConfig : req.agentConfig = none → job.agentConfig = old.agentConfig
  conversationId : job.conversationId = old.conversationId
  conversationTitle : req.conversationTitle = none → job.conversationTitle = old.conversationTitle
  agentType : job.agentType = old.agentType
  createdBy : job.createdBy = old.createdBy
  skillContent : job.skillContent = old.skillContent
  description : req.description = none → job.description = old.description
  createdAt : job.createdAt = old.createdAt
  nextRunAt : req.schedule = none → req.enabled = none → job.nextRunAt = old.nextRunAt
  lastRunAt : job.lastRunAt = old.lastRunAt
  lastStatus : job.lastStatus = old.lastStatus
  lastError : job.lastError = old.lastError
  runCount : job.runCount = old.runCount
  retryCount : job.retryCount = old.retryCount
  maxRetries : req.maxRetries = none → job.maxRetries = old.maxRetries

theorem edited_untouched {edited : CronJob} {nextRunAt : Option Int64} (stamp : Int64) (edits : old.edited outside req = .ok edited)
    (kept : req.timed = false → nextRunAt = edited.nextRunAt) :
    Untouched req old { edited with nextRunAt := nextRunAt, updatedAt := stamp } := by
  obtain ⟨schedule,mode,config,_,scheduled,moded,configured,rfl⟩ := edited_iff.mp edits
  constructor
  case schedule =>
    intro unnamed
    rw [unnamed] at scheduled
    exact (Except.ok.inj scheduled).symm
  case executionMode =>
    intro unnamed
    rw [unnamed] at moded
    exact (Except.ok.inj moded).symm
  case agentConfig =>
    intro unnamed
    rw [unnamed] at configured
    exact (Except.ok.inj configured).symm
  case nextRunAt => exact fun unscheduled unswitched => kept (by rw [UpdateCronJobRequest.timed,unscheduled,unswitched]; rfl)
  all_goals first
    | rfl
    | intro unnamed
      simp only [unnamed]
      rfl

-- The same job but for the stamp of its last change.
def Same (loaded job : CronJob) : Prop := { loaded with updatedAt := job.updatedAt } = job

theorem update_persists_iff (outside : Outside) (answers : Answers) (w : World) (id : String) (req : UpdateCronJobRequest)
    (encodes : ∀ dto ∈ req.agentConfig, Encodes outside dto.toConfig) :
    (∀ e after, updateJob outside answers w id req = .ok (.error e,after) → after = w) ∧
    (∀ job after, updateJob outside answers w id req = .ok (.ok job,after) → ∃ old loaded,
      getJob outside w id = .ok old ∧ getJob outside after id = .ok loaded ∧
      Untouched req old job ∧ Untouched req old loaded ∧
      (Same loaded job ↔ ∀ retries ∈ req.maxRetries, retries = old.maxRetries)) := by
  refine ⟨fun e after refused => refused_unchanged refused,fun job after accepted => ?_⟩
  obtain ⟨row,old,edited,nextRunAt,found,stored,edits,rfl,kept,updated⟩ := accepted_written accepted
  obtain ⟨now,written⟩ := update_lookup found updated
  have named := edited_untouched answers.updatedAt edits kept
  have still : req.timed = false → nextRunAt = old.nextRunAt := by
    intro untimed
    obtain ⟨unscheduled,unswitched⟩ := Bool.or_eq_false_iff.mp untimed
    exact named.nextRunAt (Option.isSome_eq_false_iff.mp unscheduled |> Option.isNone_iff_eq_none.mp)
      (Option.isSome_eq_false_iff.mp unswitched |> Option.isNone_iff_eq_none.mp)
  have read := from_row_apply answers.updatedAt now stored edits still encodes
  have loaded : getJob outside after id = .ok { edited with nextRunAt := nextRunAt, updatedAt := now, maxRetries := old.maxRetries } := by
    unfold getJob getById
    rw [written]
    exact read
  have before : getJob outside w id = .ok old := by
    unfold getJob getById
    rw [found]
    exact stored
  refine ⟨old,_,before,loaded,named,{ named with maxRetries := fun _ => rfl },?_⟩
  obtain ⟨_,_,_,_,_,_,_,rfl⟩ := edited_iff.mp edits
  constructor
  · intro same retries wanted
    have count := congrArg CronJob.maxRetries same
    simp only [Option.mem_def.mp wanted,Option.getD_some] at count
    exact count.symm
  · intro stands
    have count : req.maxRetries.getD old.maxRetries = old.maxRetries := by
      cases wanted : req.maxRetries with
      | none => rfl
      | some retries => exact stands retries wanted
    simp only [Same,count]

end Updates

section Examples

def provider : CronAgentConfigDto := { backend := "openai", name := "OpenAI" }

def providerText : String := "\x7b\"backend\":\"openai\",\"name\":\"OpenAI\"\x7d"

-- The crates as far as the examples use them.
def plain : Outside := ⟨minutely,fun _ => some providerText,fun _ => .ok provider.toConfig⟩

def report : CronJobRow where
  id := "cron_1"
  name := "Report"
  enabled := true
  scheduleKind := "cron"
  scheduleValue := "0 0 9 * * *"
  scheduleTz := some "Asia/Shanghai"
  scheduleDescription := none
  payloadMessage := "Write the report"
  executionMode := "new_conversation"
  agentConfig := none
  conversationId := ""
  conversationTitle := none
  agentType := "acp"
  createdBy := "user"
  skillContent := none
  description := none
  createdAt := 1000
  updatedAt := 1000
  nextRunAt := some 60000
  lastRunAt := none
  lastStatus := none
  lastError := none
  runCount := 0
  retryCount := 0
  maxRetries := 3

def reporting : World := ⟨AList.insert "cron_1" report ∅,AList.insert "cron_1" (.cron "0 0 9 * * *" (some "Asia/Shanghai") none,60000) ∅⟩

def early : Answers := { now := 2000, updatedAt := 2001, writtenAt := 2002 }

def accepted : Checked (Except UpdateError CronJob × World) → Option (CronJob × World)
  | .ok (.ok job,after) => some (job,after)
  | _ => none

theorem accepted_iff {run : Checked (Except UpdateError CronJob × World)} {job : CronJob} {after : World} :
    accepted run = some (job,after) ↔ run = .ok (.ok job,after) := by
  rcases run with panic | ⟨error | answer,world⟩ <;> simp [accepted]

-- The expression is replaced and the agent named; the time zone stays.
def moved : UpdateCronJobRequest := { schedule := some (.cron "0 * * * * *" none none), agentConfig := some provider }

theorem moved_persists : ∃ job after loaded, updateJob plain early reporting "cron_1" moved = .ok (.ok job,after) ∧
    getJob plain after "cron_1" = .ok loaded ∧ job.schedule = .cron "0 * * * * *" (some "Asia/Shanghai") none ∧ Same loaded job := by
  obtain ⟨_,persists⟩ := update_persists_iff plain early reporting "cron_1" moved (by
    intro dto named
    cases named
    exact ⟨providerText,rfl,rfl⟩)
  have run : (accepted (updateJob plain early reporting "cron_1" moved)).map (·.1.schedule) =
      some (.cron "0 * * * * *" (some "Asia/Shanghai") none) := by decide
  obtain ⟨⟨job,after⟩,answered,schedule⟩ := Option.map_eq_some_iff.mp run
  have ran := accepted_iff.mp answered
  obtain ⟨old,loaded,_,read,_,_,same⟩ := persists job after ran
  exact ⟨job,after,loaded,ran,read,schedule,same.mpr nofun⟩

-- The answer names five retries, and the stored job still has three.
theorem retries_forgotten : ∃ job after loaded,
    updateJob plain early reporting "cron_1" { maxRetries := some 5 } = .ok (.ok job,after) ∧
      getJob plain after "cron_1" = .ok loaded ∧ job.maxRetries = 5 ∧ loaded.maxRetries = 3 ∧ ¬Same loaded job := by
  refine ⟨_,_,_,rfl,rfl,rfl,rfl,fun same => ?_⟩
  have count := congrArg CronJob.maxRetries same
  exact absurd (show (3 : Int64) = 5 from count) (by decide)

end Examples

end AlineaCopilot.CronUpdates
