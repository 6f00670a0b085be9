import AlineaCopilot.CronService
import AlineaCopilot.TransitionRuns

open AlineaCopilot.KeyedMaps AlineaCopilot.TransitionRuns AlineaCopilot.CronJobs
open AlineaCopilot.CronService (ExecutionResult handleBusy recordParams disabled skippedParams missedParams overdue)

namespace AlineaCopilot.CronOwnership

def SYSTEM_DEFAULT_USER_ID : String := "system_default_user"

-- The rows the requests go to: of a conversation only the user it names.
-- `creators` is who made a job over HTTP, and no request reads it.
structure Store where
  conversations : KeyedMap String String
  jobs : Rows
  skills : KeyedMap String String
  creators : KeyedMap String String

def CronError.text : CronError → String
  | .jobNotFound id => s!"Cron job not found: {id}"
  | .invalidSchedule message => s!"Invalid schedule: {message}"
  | .invalidCronExpression message => s!"Invalid cron expression: {message}"
  | .invalidTimezone tz => s!"Invalid timezone: {tz}"
  | .invalidSkillContent message => s!"Invalid skill content: {message}"
  | .invalidAgentConfig message => s!"Invalid agent config: {message}"
  | .workspacePathUnavailable path => s!"Workspace path is unavailable: {path}"
  | .scheduler message => s!"Scheduler error: {message}"
  | .busy conversation => s!"conversation {conversation} is already running"
  | .databaseNotFound id => s!"Record not found: cron job '{id}'"

section Owners

def isBlank (text : String) : Bool := (RustText.trim text).isEmpty

-- `job_owner_user_id`, and the same chain in the executor.
def Store.ownerOf (s : Store) (conversationId : String) : String :=
  if isBlank conversationId then SYSTEM_DEFAULT_USER_ID
  else match s.conversations.lookup conversationId with
    | some user => if isBlank user then SYSTEM_DEFAULT_USER_ID else user
    | none => SYSTEM_DEFAULT_USER_ID

def Store.jobOwnerUserId (s : Store) (job : CronJob) : String := s.ownerOf job.conversationId

def Store.getJob (s : Store) (id : String) : Except CronError CronJob :=
  match s.jobs.lookup id with
  | none => .error (.jobNotFound id)
  | some job => .ok job

def Store.ensureOwner (s : Store) (user id : String) : Except CronError Unit := do
  let job ← s.getJob id
  if s.jobOwnerUserId job = user then pure () else throw (.jobNotFound id)

def Store.userOwnsConversation (s : Store) (user conversationId : String) : Bool :=
  if isBlank conversationId then true
  else match (s.conversations.lookup conversationId).filter fun owner => !isBlank owner with
    | some owner => decide (owner = user)
    | none => true

def Store.listJobs (s : Store) (conversation : Option String) : List CronJob :=
  match conversation with
  | some conversation => listByConversation s.jobs conversation
  | none => values s.jobs

def Store.listJobsForUser (s : Store) (user : String) (conversation : Option String) : List CronJob :=
  (s.listJobs conversation).filter fun job => decide (s.jobOwnerUserId job = user)

end Owners

section Operations
variable (calendar : Calendar)

-- `checks` is the verdict of the checks that look at the workspace and at the
-- agent, here and below.
def Store.addJob (s : Store) (id : String) (req : CreateCronJobRequest) (now : Int) (checks : Except CronError Unit) :
    Except CronError (Store × CronJob) := do
  validateSchedule calendar req.schedule
  checks
  let job := newJob calendar id req now
  pure ({ s with jobs := s.jobs.insert id job, creators := s.creators.erase id },job)

def Store.updateJob (s : Store) (id : String) (req : UpdateCronJobRequest) (now : Int) (checks : Except CronError Unit) :
    Except CronError (Store × CronJob) := do
  let job ← s.getJob id
  let edited ← job.edited calendar req now
  checks
  let jobs ← updateRow s.jobs id (buildUpdateParams edited req)
  pure ({ s with jobs := jobs },edited)

-- The skill file goes first, whether or not there is a row.
def Store.removeJob (s : Store) (id : String) : Store × Except CronError Unit :=
  let rest := { s with skills := s.skills.erase id }
  match deleteRow s.jobs id with
  | .error error => (rest,.error error)
  | .ok jobs => ({ rest with jobs := jobs },.ok ())

def Store.tries (s : Store) (id : String) (params : UpdateCronJobParams) : Store :=
  match updateRow s.jobs id params with
  | .ok jobs => { s with jobs := jobs }
  | .error _ => s

-- A conversation is created under the owner of the job it is for.
def Store.createNewConversation (s : Store) (job : CronJob) (freshId : String) : Store :=
  { s with conversations := s.conversations.insert freshId (s.jobOwnerUserId job) }

def Store.resolveConversation (s : Store) (job : CronJob) (freshId : String) : Except CronError (Store × String) :=
  match job.executionMode with
  | .newConversation => .ok (s.createNewConversation job freshId,freshId)
  | .existing =>
    if isBlank job.conversationId then .ok (s.createNewConversation job freshId,freshId)
    else if (s.conversations.lookup job.conversationId).isSome then .ok (s,job.conversationId)
    else .error (.scheduler s!"conversation {job.conversationId} not found")

-- What comes of an execution is written to the row, if it is still there.
def Store.record (s : Store) (id : String) (ended : Except String String) (now : Int) : Store :=
  match s.jobs.lookup id with
  | none => s
  | some existing => s.tries id (recordParams existing now ended)

def Store.reschedule (s : Store) (job : CronJob) (now : Int) : Store :=
  if job.schedule.isAt then s.tries job.id disabled
  else s.tries job.id { nextRunAt := some (computeNextRun calendar job.schedule now) }

-- How an execution goes: the checks before it, whether the conversation is
-- busy, and what goes wrong with the sending, if anything does.
structure Run where
  freshId : String
  now : Int
  checks : Except CronError Unit
  claimed : Bool
  ended : Except String Unit

def Store.runNow (s : Store) (job : CronJob) (run : Run) : Except CronError (Store × String) := do
  run.checks
  let (prepared,conversation) ← s.resolveConversation job run.freshId
  if run.claimed then throw (.busy conversation)
  else pure (prepared.record job.id (run.ended.map fun _ => conversation) run.now,conversation)

def Store.tick (s : Store) (id : String) (run : Run) : Store :=
  match s.jobs.lookup id with
  | none => s
  | some job =>
    if !job.enabled then s
    else match (do run.checks; s.resolveConversation job run.freshId) with
      | .error error => (s.record id (.error (CronError.text error)) run.now).reschedule calendar job run.now
      | .ok (prepared,conversation) =>
        if run.claimed then
          match handleBusy job with
          | .retrying attempt => prepared.tries id { retryCount := some attempt }
          | _ => (prepared.tries id skippedParams).reschedule calendar job run.now
        else (prepared.record id (run.ended.map fun _ => conversation) run.now).reschedule calendar job run.now

def Store.resumeJob (now : Int) (s : Store) (job : CronJob) : Store :=
  if overdue job now then (s.tries job.id missedParams).reschedule calendar job now else s

def Store.handleSystemResume (s : Store) (now : Int) : Store :=
  (listEnabled s.jobs).foldl (Store.resumeJob calendar now) s

end Operations

section Requests

structure CronCreateParams where
  name : String
  schedule : String
  scheduleDescription : String
  message : String

structure CronUpdateParams where
  jobId : String
  name : String
  schedule : String
  scheduleDescription : String
  message : String

def CronUpdateParams.request (params : CronUpdateParams) : UpdateCronJobRequest where
  name := some params.name
  schedule := some (.cron params.schedule none (some params.scheduleDescription))
  message := some params.message

inductive CronCommand where
  | create (params : CronCreateParams)
  | update (params : CronUpdateParams)
  | list
  | delete (id : String)

structure CronCommandResult where
  success : Bool
  message : String

inductive HttpRequest where
  | createJob (req : CreateCronJobRequest)
  | listJobs (conversation : Option String)
  | getJob (id : String)
  | updateJob (id : String) (req : UpdateCronJobRequest)
  | deleteJob (id : String)
  | runNow (id : String) (run : Run)
  | systemResume (isInternal : Bool)
  | saveSkill (id content : String)
  | hasSkill (id : String)
  | deleteSkill (id : String)

-- Beside the requests stand the timers' ticks and what else happens to
-- conversations. `freshId` is the id that is generated if one is.
inductive Request where
  | http (user : String) (request : HttpRequest) (freshId : String) (now : Int) (checks : Except CronError Unit)
  | output (user conversation : String) (command : CronCommand) (freshId : String) (now : Int) (checks : Except CronError Unit)
  | tick (id : String) (run : Run)
  | conversationCreated (id user : String)
  | conversationDeleted (id : String)

-- `about` is the jobs that a command's text is about.
inductive Response where
  | created (job : CronJob)
  | listed (jobs : List CronJob)
  | job (job : CronJob)
  | updated (job : CronJob)
  | running (job : CronJob) (conversation : String)
  | hasSkill (job : CronJob) (has : Bool)
  | success
  | forbidden (message : String)
  | failed (error : CronError)
  | command (result : CronCommandResult) (about : List CronJob)

def Request.user : Request → Option String
  | .http user _ _ _ _ | .output user _ _ _ _ _ => some user
  | _ => none

end Requests

section Handlers
variable (calendar : Calendar)

-- `ensure_owner` before the operation: one who is not the owner is told that
-- there is no such job.
def Store.guarded (s : Store) (user id : String) (act : CronJob → Store × Response) : Store × Response :=
  match s.ensureOwner user id with
  | .error error => (s,.failed error)
  | .ok _ =>
    match s.getJob id with
    | .error error => (s,.failed error)
    | .ok job => act job

def Store.respond (s : Store) (result : Except CronError (Store × CronJob)) (response : CronJob → Response) : Store × Response :=
  match result with
  | .error error => (s,.failed error)
  | .ok (after,job) => (after,response job)

def Store.http (s : Store) (user : String) (freshId : String) (now : Int) (checks : Except CronError Unit) :
    HttpRequest → Store × Response
  | .createJob req =>
    if !s.userOwnsConversation user req.conversationId then (s,.forbidden "conversation not owned by user")
    else match s.addJob calendar freshId req now checks with
      | .error error => (s,.failed error)
      | .ok (after,job) => ({ after with creators := after.creators.insert freshId user },.created job)
  | .listJobs conversation => (s,.listed (s.listJobsForUser user conversation))
  | .getJob id => s.guarded user id fun job => (s,.job job)
  | .updateJob id req => s.guarded user id fun _ => s.respond (s.updateJob calendar id req now checks) .updated
  | .deleteJob id => s.guarded user id fun _ =>
    match s.removeJob id with
    | (after,.ok _) => (after,.success)
    | (after,.error error) => (after,.failed error)
  | .runNow id run => s.guarded user id fun job =>
    match s.runNow job run with
    | .error error => (s,.failed error)
    | .ok (after,conversation) => (after,.running job conversation)
  | .systemResume isInternal =>
    if isInternal then (s.handleSystemResume calendar now,.success) else (s,.forbidden "internal route")
  | .saveSkill id content => s.guarded user id fun _ =>
    if isBlank content then (s,.failed (.invalidSkillContent "content must not be empty"))
    else match checks with
      | .error error => (s,.failed error)
      | .ok _ => ({ s with skills := s.skills.insert id content },.success)
  | .hasSkill id => s.guarded user id fun job => (s,.hasSkill job (s.skills.lookup id).isSome)
  | .deleteSkill id => s.guarded user id fun _ => ({ s with skills := s.skills.erase id },.success)

-- `ICronService` for the service, where the user's id goes unused.
def Store.command (s : Store) (conversation : String) (freshId : String) (now : Int) (checks : Except CronError Unit) :
    CronCommand → Store × Response
  | .create params =>
    match s.addJob calendar freshId ⟨params.name,none,.cron params.schedule none (some params.scheduleDescription),params.message,
        conversation,.existing⟩ now checks with
    | .error error => (s,.command ⟨false,CronError.text error⟩ [])
    | .ok (after,job) => (after,.command ⟨true,s!"Created cron job '{job.name}' ({job.id})"⟩ [])
  | .update params =>
    match s.updateJob calendar params.jobId params.request now checks with
    | .error error => (s,.command ⟨false,CronError.text error⟩ [])
    | .ok (after,job) => (after,.command ⟨true,s!"Updated cron job '{job.name}' ({job.id})"⟩ [job])
  | .list =>
    let jobs := s.listJobs (some conversation)
    if jobs.isEmpty then (s,.command ⟨true,s!"No cron jobs found for conversation '{conversation}'."⟩ [])
    else
      let lines := jobs.map fun job =>
        let status := if job.enabled then "enabled" else "disabled"
        s!"- {job.name} ({job.id}) [{status}]"
      let count := jobs.length
      let text := "\n".intercalate lines
      (s,.command ⟨true,s!"Found {count} cron job(s) for conversation '{conversation}':\n{text}"⟩ jobs)
  | .delete id =>
    match s.removeJob id with
    | (after,.ok _) => (after,.command ⟨true,s!"Deleted cron job '{id}'"⟩ [])
    | (after,.error error) => (after,.command ⟨false,CronError.text error⟩ [])

def serve (s : Store) : Request → Store × Response
  | .http user request freshId now checks => s.http calendar user freshId now checks request
  | .output _ conversation command freshId now checks => s.command calendar conversation freshId now checks command
  | .tick id run => (s.tick calendar id run,.success)
  | .conversationCreated id user => ({ s with conversations := s.conversations.insert id user },.success)
  -- The service is told of the conversation's end and deletes its jobs.
  | .conversationDeleted id =>
    ({ s with conversations := s.conversations.erase id, jobs := deleteByConversation s.jobs id },.success)

-- A generated id is not one in use: of a conversation, no row has it and no
-- job names it.
def Store.freshJob (s : Store) (id : String) : Bool := (s.jobs.lookup id).isNone

def Store.freshConversation (s : Store) (id : String) : Bool :=
  !isBlank id && (s.conversations.lookup id).isNone && (values s.jobs).all fun job => !decide (job.conversationId = id)

def Store.fresh (s : Store) : Request → Bool
  | .http _ (.createJob _) freshId _ _ | .output _ _ (.create _) freshId _ _ => s.freshJob freshId
  | .http _ (.runNow _ run) _ _ _ | .tick _ run => s.freshConversation run.freshId
  | .conversationCreated id _ => s.freshConversation id
  | _ => true

def step (s : Store) (request : Request) : Option Store :=
  if s.fresh request then some (serve calendar s request).1 else none

def start : Store := ⟨∅,∅,∅,∅⟩

end Handlers

end AlineaCopilot.CronOwnership
