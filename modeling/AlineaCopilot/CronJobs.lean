import AlineaCopilot.KeyedMaps
import AlineaCopilot.RustText

open AlineaCopilot.KeyedMaps

namespace AlineaCopilot.CronJobs

-- `At`, `Every` and `Cron`; the request's DTO has the same three shapes.
inductive CronSchedule where
  | atTime (atMs : Int) (description : Option String)
  | every (everyMs : Int) (description : Option String)
  | cron (expr : String) (tz description : Option String)
deriving DecidableEq, Repr

inductive ExecutionMode where
  | existing
  | newConversation
deriving DecidableEq, Repr

inductive JobStatus where
  | ok
  | error
  | skipped
  | missed
deriving DecidableEq, Repr

inductive CronError where
  | jobNotFound (id : String)
  | invalidSchedule (message : String)
  | invalidCronExpression (message : String)
  | invalidTimezone (tz : String)
  | invalidSkillContent (message : String)
  | invalidAgentConfig (message : String)
  | workspacePathUnavailable (path : String)
  | scheduler (message : String)
  | busy (conversation : String)
  | databaseNotFound (id : String)
deriving DecidableEq, Repr

structure CronJob where
  id : String
  name : String
  enabled : Bool
  schedule : CronSchedule
  message : String
  executionMode : ExecutionMode
  conversationId : String
  description : Option String
  nextRunAt : Option Int
  lastRunAt : Option Int
  lastStatus : Option JobStatus
  lastError : Option String
  runCount : Int
  retryCount : Int
  maxRetries : Int
deriving DecidableEq, Repr

-- The crates that read cron expressions and time zones; an expression that
-- does not parse comes back with the crate's own words.
structure Calendar where
  parses : String → Except String Unit
  zone : String → Bool
  nextAfter : String → Option String → Int → Option Int

-- A calendar that reads everything and knows no instant.
def Calendar.plain : Calendar := ⟨fun _ => .ok (),fun _ => true,fun _ _ _ => none⟩

section Schedules
variable (calendar : Calendar)

def CronSchedule.isAt : CronSchedule → Bool
  | .atTime _ _ => true
  | _ => false

def computeNextRun (schedule : CronSchedule) (now : Int) : Option Int :=
  match schedule with
  | .atTime atMs _ => some atMs
  | .every everyMs _ => if everyMs ≤ 0 then none else some (now + everyMs)
  | .cron expr tz _ => calendar.nextAfter expr tz now

def validateSchedule : CronSchedule → Except CronError Unit
  | .atTime _ _ => .ok ()
  | .every everyMs _ => if everyMs ≤ 0 then .error (.invalidSchedule "every_ms must be positive") else .ok ()
  | .cron expr tz _ =>
    if (RustText.trim expr).isEmpty then .ok ()
    else match calendar.parses expr,tz with
      | .error text,_ => .error (.invalidCronExpression s!"{expr}: {text}")
      | .ok _,some tz => if calendar.zone tz then .ok () else .error (.invalidTimezone tz)
      | .ok _,none => .ok ()

-- An edit of a cron expression without a time zone keeps the one there is.
def scheduleFromDtoWithExistingTimezone (dto existing : CronSchedule) : CronSchedule :=
  match dto with
  | .cron expr tz description =>
    .cron expr (tz <|> match existing with
      | .cron _ tz _ => tz
      | _ => none) description
  | _ => dto

end Schedules

section Requests
variable (calendar : Calendar)

structure CreateCronJobRequest where
  name : String
  description : Option String
  schedule : CronSchedule
  message : String
  conversationId : String
  executionMode : ExecutionMode
deriving DecidableEq, Repr

structure UpdateCronJobRequest where
  name : Option String := none
  description : Option String := none
  enabled : Option Bool := none
  schedule : Option CronSchedule := none
  message : Option String := none
  executionMode : Option ExecutionMode := none
  maxRetries : Option Int := none
deriving DecidableEq, Repr

-- The columns an update sets; the four of the schedule are one here.
structure UpdateCronJobParams where
  name : Option String := none
  enabled : Option Bool := none
  schedule : Option CronSchedule := none
  message : Option String := none
  executionMode : Option ExecutionMode := none
  conversationId : Option String := none
  description : Option (Option String) := none
  nextRunAt : Option (Option Int) := none
  lastRunAt : Option (Option Int) := none
  lastStatus : Option (Option JobStatus) := none
  lastError : Option (Option String) := none
  runCount : Option Int := none
  retryCount : Option Int := none
deriving DecidableEq, Repr

-- `add_job` up to the insert.
def newJob (id : String) (req : CreateCronJobRequest) (now : Int) : CronJob :=
  { id := id, name := req.name, enabled := true, schedule := req.schedule, message := req.message
    executionMode := req.executionMode, conversationId := req.conversationId, description := req.description
    nextRunAt := computeNextRun calendar req.schedule now, lastRunAt := none, lastStatus := none, lastError := none
    runCount := 0, retryCount := 0, maxRetries := 3 }

-- `update_job` between the read and the write: the copy that goes to the
-- scheduler afterwards.
def CronJob.edited (job : CronJob) (req : UpdateCronJobRequest) (now : Int) : Except CronError CronJob := do
  let schedule ← match req.schedule with
    | none => pure job.schedule
    | some dto => do
      let schedule := scheduleFromDtoWithExistingTimezone dto job.schedule
      validateSchedule calendar schedule
      pure schedule
  pure { job with
    name := req.name.getD job.name
    description := req.description <|> job.description
    enabled := req.enabled.getD job.enabled
    schedule := schedule
    message := req.message.getD job.message
    executionMode := req.executionMode.getD job.executionMode
    maxRetries := req.maxRetries.getD job.maxRetries
    nextRunAt := if req.schedule.isSome || req.enabled.isSome then computeNextRun calendar schedule now else job.nextRunAt }

-- There is no column for `max_retries` among them.
def buildUpdateParams (job : CronJob) (req : UpdateCronJobRequest) : UpdateCronJobParams :=
  { name := req.name
    enabled := req.enabled
    schedule := req.schedule.map fun _ => job.schedule
    message := req.message
    executionMode := req.executionMode
    description := req.description.map some
    nextRunAt := if req.schedule.isSome || req.enabled.isSome then some job.nextRunAt else none }

end Requests

section Repository

def CronJob.apply (job : CronJob) (params : UpdateCronJobParams) : CronJob :=
  { job with
    name := params.name.getD job.name
    enabled := params.enabled.getD job.enabled
    schedule := params.schedule.getD job.schedule
    message := params.message.getD job.message
    executionMode := params.executionMode.getD job.executionMode
    conversationId := params.conversationId.getD job.conversationId
    description := params.description.getD job.description
    nextRunAt := params.nextRunAt.getD job.nextRunAt
    lastRunAt := params.lastRunAt.getD job.lastRunAt
    lastStatus := params.lastStatus.getD job.lastStatus
    lastError := params.lastError.getD job.lastError
    runCount := params.runCount.getD job.runCount
    retryCount := params.retryCount.getD job.retryCount }

abbrev Rows := KeyedMap String CronJob

-- An update that sets no column does not look for the row.
def updateRow (rows : Rows) (id : String) (params : UpdateCronJobParams) : Except CronError Rows :=
  if params = {} then .ok rows
  else match rows.lookup id with
    | none => .error (.databaseNotFound id)
    | some job => .ok (rows.insert id (job.apply params))

def deleteRow (rows : Rows) (id : String) : Except CronError Rows :=
  match rows.lookup id with
  | none => .error (.databaseNotFound id)
  | some _ => .ok (rows.erase id)

def listEnabled (rows : Rows) : List CronJob := (values rows).filter (·.enabled)

def listByConversation (rows : Rows) (conversation : String) : List CronJob :=
  (values rows).filter fun job => decide (job.conversationId = conversation)

def deleteByConversation (rows : Rows) (conversation : String) : Rows :=
  keep (fun job => !decide (job.conversationId = conversation)) rows

end Repository

section Scheduler

-- A running timer. `due` is the next instant it calls back, none once its
-- task is over, and `fired` tells an interval's later rounds from its first.
-- `retry` says which caller set it; only statements read it.
structure Timer where
  schedule : CronSchedule
  runAt : Int
  due : Option Int
  fired : Bool
  retry : Bool
deriving DecidableEq, Repr

abbrev Handles := KeyedMap String Timer

-- What `schedule_job` makes of a job: nothing, or a timer for this schedule
-- that starts at this instant.
def CronJob.plan (job : CronJob) : Option (CronSchedule × Int) :=
  if job.enabled then job.nextRunAt.map (job.schedule,·) else none

def Timer.spawn (plan : CronSchedule × Int) (retry : Bool) : Timer := ⟨plan.1,plan.2,some plan.2,false,retry⟩

def scheduleJob (handles : Handles) (job : CronJob) (retry : Bool) : Handles :=
  match job.plan with
  | none => handles.erase job.id
  | some plan => (handles.erase job.id).insert job.id (.spawn plan retry)

-- The callback has been called at `now`. The interval is started then, and
-- late rounds of it are made up for; a cron timer looks for the next instant.
def Timer.next (calendar : Calendar) (timer : Timer) (now due : Int) : Timer :=
  { timer with
    fired := true
    due := match timer.schedule with
      | .atTime _ _ => none
      | .every everyMs _ => some ((if timer.fired then due else now) + everyMs)
      | .cron expr tz _ => calendar.nextAfter expr tz now }

def RETRY_INTERVAL_MS : Int := 30000

def retryJob (id : String) (nextRun : Int) : CronJob :=
  { id := id, name := "", enabled := true, schedule := .atTime nextRun none, message := "", executionMode := .existing
    conversationId := "", description := none, nextRunAt := some nextRun, lastRunAt := none, lastStatus := none
    lastError := none, runCount := 0, retryCount := 0, maxRetries := 0 }

theorem lookup_scheduleJob (handles : Handles) (job : CronJob) (retry : Bool) (id : String) :
    (scheduleJob handles job retry).lookup id =
      if id = job.id then job.plan.map (Timer.spawn · retry) else handles.lookup id := by
  unfold scheduleJob
  cases job.plan with
  | none => exact lookup_erase_eq ..
  | some plan =>
    simp only [lookup_insert_eq,lookup_erase_eq,Option.map_some]
    split <;> rfl

end Scheduler

section Updates
variable {rows after : Rows} {id : String} {params : UpdateCronJobParams} {error : CronError}

theorem updateRow_lookup (updated : updateRow rows id params = .ok after) (other : String) :
    after.lookup other = if other = id then (rows.lookup id).map (·.apply params) else rows.lookup other := by
  unfold updateRow at updated
  split at updated
  · rename_i empty
    cases updated
    subst empty
    split
    · rename_i same
      subst same
      cases rows.lookup other <;> rfl
    · rfl
  · split at updated
    · cases updated
    · rename_i job found
      cases updated
      rw [lookup_insert_eq,found]
      rfl

theorem updateRow_error (failed : updateRow rows id params = .error error) : rows.lookup id = none := by
  unfold updateRow at failed
  split at failed
  · cases failed
  · split at failed
    · assumption
    · cases failed

theorem deleteRow_lookup (deleted : deleteRow rows id = .ok after) (other : String) :
    after.lookup other = if other = id then none else rows.lookup other := by
  unfold deleteRow at deleted
  split at deleted
  · cases deleted
  · cases deleted
    exact lookup_erase_eq ..

theorem deleteRow_error (failed : deleteRow rows id = .error error) : rows.lookup id = none := by
  unfold deleteRow at failed
  split at failed
  · assumption
  · cases failed

-- An update of other columns leaves a job's plan alone.
theorem CronJob.plan_apply (job : CronJob) {params : UpdateCronJobParams} (enabled : params.enabled = none)
    (schedule : params.schedule = none) (next : params.nextRunAt = none) : (job.apply params).plan = job.plan := by
  simp [plan,apply,enabled,schedule,next]

end Updates

end AlineaCopilot.CronJobs
