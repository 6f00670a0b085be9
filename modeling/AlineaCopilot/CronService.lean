import AlineaCopilot.CronJobs
import Mathlib.Logic.Function.Basic

open AlineaCopilot.KeyedMaps AlineaCopilot.CronJobs

namespace AlineaCopilot.CronService

inductive ExecutionResult where
  | success (conversationId : String)
  | retrying (attempt : Int)
  | skipped
  | error (message : String)
deriving DecidableEq, Repr

-- What a resume still has before it: the time it read and the jobs left.
abbrev Rest := Option (Int × List CronJob)

-- Where a call stands. Between two of these it runs without an await, and at
-- most one call goes to the repository or to the scheduler.
inductive Op where
  | idle
  | adding (id : String) (req : CreateCronJobRequest) (now : Int)
  | updating (id : String) (req : UpdateCronJobRequest)
  | writing (job : CronJob) (req : UpdateCronJobRequest)
  | installing (job : CronJob) (rest : Rest)
  | cancelling (id : String) (rest : Rest)
  | removing (id : String)
  | listing (conversation : String)
  | cascading (conversation : String) (ids : List String)
  | deleting (conversation : String) (ids : List String)
  | resumed
  | resuming (now : Int) (jobs : List CronJob)
  | missed (job : CronJob) (now : Int) (jobs : List CronJob)
  | ticking (id : String)
  | executing (job : CronJob)
  | startingNow (id : String)
  | runningNow (job : CronJob)
  | handling (job : CronJob) (timed : Bool) (result : ExecutionResult)
  | recording (job : CronJob) (timed : Bool) (ended : Except String String) (existing : CronJob) (now : Int)
  | rescheduling (job : CronJob) (result : ExecutionResult)
  | retrying (id : String)
deriving DecidableEq, Repr

-- What has happened to the jobs, in order; no step reads it.
inductive Event where
  | created (id : String)
  | updated (id : String) (params : UpdateCronJobParams)
  | sent (job : CronJob) (timed : Bool)
  | handled (id : String) (result : ExecutionResult)
  | missed (id : String)
deriving DecidableEq, Repr

structure World where
  now : Int
  rows : Rows
  handles : Handles
  ops : Nat → Op
  events : List Event

-- How an execution ends as far as the service sees it: the prompt is sent,
-- the conversation turns out to be busy, or something fails.
inductive Outcome where
  | sent (conversationId : String)
  | busy
  | failed (message : String)
deriving DecidableEq, Repr

inductive Action where
  | addJob (n : Nat) (id : String) (req : CreateCronJobRequest)
  | updateJob (n : Nat) (id : String) (req : UpdateCronJobRequest)
  | removeJob (n : Nat) (id : String)
  | deleteJobsByConversation (n : Nat) (conversation : String)
  | handleSystemResume (n : Nat)
  | runNow (n : Nat) (id : String)
  | fire (n : Nat) (id : String)
  | executed (n : Nat) (outcome : Outcome)
  | refuse (n : Nat)
  | go (n : Nat)
  | wait (ms : Nat)

section Handlers
variable (calendar : Calendar)

def handleBusy (job : CronJob) : ExecutionResult :=
  if job.retryCount ≥ job.maxRetries then .skipped else .retrying (job.retryCount + 1)

def World.to (w : World) (n : Nat) (op : Op) : World := { w with ops := Function.update w.ops n op }

-- An update whose failure is only logged.
def World.tries (w : World) (id : String) (params : UpdateCronJobParams) : World :=
  match updateRow w.rows id params with
  | .ok rows => { w with rows := rows }
  | .error _ => w

def World.logs (w : World) (event : Event) : World := { w with events := w.events ++ [event] }

def Op.after : Rest → Op
  | none => .idle
  | some (now,jobs) => .resuming now jobs

-- Only a tick reschedules once its result is recorded, a run on demand does not.
def Op.recorded (job : CronJob) (timed : Bool) (result : ExecutionResult) : Op :=
  if timed then .rescheduling job result else .idle

def disabled : UpdateCronJobParams := { enabled := some false, nextRunAt := some none }

def missedParams : UpdateCronJobParams := { lastStatus := some (some .missed), lastError := some none, retryCount := some 0 }

def skippedParams : UpdateCronJobParams := { lastStatus := some (some .skipped), retryCount := some 0 }

-- What an execution that was not put off ends with: the conversation the
-- prompt went to, or what went wrong.
def ExecutionResult.of : Except String String → ExecutionResult
  | .ok conversationId => .success conversationId
  | .error message => .error message

-- `update_job_after_success` and `update_job_after_error`. The conversation is
-- bound the first time a job without one has run.
def recordParams (existing : CronJob) (now : Int) : Except String String → UpdateCronJobParams
  | .ok conversationId =>
    { lastRunAt := some (some now)
      lastStatus := some (some .ok)
      lastError := some none
      retryCount := some 0
      runCount := some (existing.runCount + 1)
      conversationId := if (RustText.trim existing.conversationId).isEmpty && !(RustText.trim conversationId).isEmpty
        then some conversationId else none }
  | .error message =>
    { lastRunAt := some (some now)
      lastStatus := some (some .error)
      lastError := some (some message)
      retryCount := some 0
      runCount := some (existing.runCount + 1) }

-- The row is read for its `run_count`; a job that is gone has nothing recorded.
def World.records (w : World) (n : Nat) (job : CronJob) (timed : Bool) (ended : Except String String) : World :=
  match w.rows.lookup job.id with
  | none => w.to n (.recorded job timed (.of ended))
  | some existing => w.to n (.recording job timed ended existing w.now)

-- `next_run_at < now` of the resume.
def overdue (job : CronJob) (now : Int) : Bool :=
  match job.nextRunAt with
  | some next => decide (next < now)
  | none => false

def go (w : World) (n : Nat) : Option World :=
  match w.ops n with
  | .adding id req now =>
    let job := newJob calendar id req now
    match w.rows.lookup id with
    | some _ => none
    | none => some (({ w with rows := w.rows.insert id job }.logs (.created id)).to n (.installing job none))
  | .updating id req =>
    match w.rows.lookup id with
    | none => some (w.to n .idle)
    | some job =>
      match job.edited calendar req w.now with
      | .error _ => some (w.to n .idle)
      | .ok edited => some (w.to n (.writing edited req))
  | .writing job req =>
    let params := buildUpdateParams job req
    match updateRow w.rows job.id params with
    | .error _ => some (w.to n .idle)
    | .ok rows => some (({ w with rows := rows }.logs (.updated job.id params)).to n (.installing job none))
  | .installing job rest => some ({ w with handles := scheduleJob w.handles job false }.to n (.after rest))
  | .cancelling id rest => some ({ w with handles := w.handles.erase id }.to n (.after rest))
  | .removing id =>
    match deleteRow w.rows id with
    | .error _ => some (w.to n .idle)
    | .ok rows => some ({ w with rows := rows }.to n .idle)
  | .listing conversation => some (w.to n (.cascading conversation ((listByConversation w.rows conversation).map (·.id))))
  | .cascading conversation ids =>
    some ({ w with handles := ids.foldl (fun handles id => handles.erase id) w.handles }.to n (.deleting conversation ids))
  | .deleting conversation _ => some ({ w with rows := deleteByConversation w.rows conversation }.to n .idle)
  | .resumed => some (w.to n (.resuming w.now (listEnabled w.rows)))
  | .resuming _ [] => some (w.to n .idle)
  | .resuming now (job :: jobs) =>
    if overdue job now then some (((w.tries job.id missedParams).logs (.missed job.id)).to n (.missed job now jobs))
    else some ({ w with handles := scheduleJob w.handles job false }.to n (.resuming now jobs))
  -- `reschedule_after_missed`, which gives up where the row is gone.
  | .missed job now jobs =>
    if job.schedule.isAt then some ((w.tries job.id disabled).to n (.cancelling job.id (some (now,jobs))))
    else
      let next := computeNextRun calendar job.schedule w.now
      match updateRow w.rows job.id { nextRunAt := some next } with
      | .error _ => some (w.to n (.resuming now jobs))
      | .ok rows => some ({ w with rows := rows }.to n (.installing { job with nextRunAt := next } (some (now,jobs))))
  | .ticking id =>
    match w.rows.lookup id with
    | none => some (w.to n (.cancelling id none))
    | some job => some (w.to n (if job.enabled then .executing job else .idle))
  | .startingNow id =>
    match w.rows.lookup id with
    | none => some (w.to n .idle)
    | some job => some (w.to n (.runningNow job))
  | .handling job timed (.retrying attempt) =>
    some (((w.tries job.id { retryCount := some attempt }).logs (.handled job.id (.retrying attempt))).to n
      (if timed then .retrying job.id else .idle))
  | .handling job timed .skipped =>
    some (((w.tries job.id skippedParams).logs (.handled job.id .skipped)).to n (.recorded job timed .skipped))
  | .handling job timed (.success conversationId) => some (w.records n job timed (.ok conversationId))
  | .handling job timed (.error message) => some (w.records n job timed (.error message))
  | .recording job timed ended existing now =>
    some (((w.tries job.id (recordParams existing now ended)).logs (.handled job.id (.of ended))).to n
      (.recorded job timed (.of ended)))
  -- `reschedule_after_execution`, with the copy the tick had loaded.
  | .rescheduling job _ =>
    if job.schedule.isAt then some ((w.tries job.id disabled).to n (.cancelling job.id none))
    else
      let next := computeNextRun calendar job.schedule w.now
      some ((w.tries job.id { nextRunAt := some next }).to n (.installing { job with nextRunAt := next } none))
  | .retrying id =>
    some ({ w with handles := scheduleJob w.handles (retryJob id (w.now + RETRY_INTERVAL_MS)) true }.to n .idle)
  | .idle | .executing _ | .runningNow _ => none

def execute (w : World) (n : Nat) (outcome : Outcome) : Option World :=
  match w.ops n with
  | .executing job =>
    match outcome with
    | .sent conversationId => some ((w.logs (.sent job true)).to n (.handling job true (.success conversationId)))
    | .busy => some (w.to n (.handling job true (handleBusy job)))
    | .failed message => some (w.to n (.handling job true (.error message)))
  -- A run on demand takes a busy conversation for an error.
  | .runningNow job =>
    match outcome with
    | .sent conversationId => some ((w.logs (.sent job false)).to n (.handling job false (.success conversationId)))
    | .busy => none
    | .failed message => some (w.to n (.handling job false (.error message)))
  | _ => none

def step (w : World) : Action → Option World
  | .addJob n id req =>
    if w.ops n = .idle then
      match validateSchedule calendar req.schedule with
      | .error _ => none
      | .ok _ => some (w.to n (.adding id req w.now))
    else none
  | .updateJob n id req => if w.ops n = .idle then some (w.to n (.updating id req)) else none
  | .removeJob n id =>
    if w.ops n = .idle then some ({ w with handles := w.handles.erase id }.to n (.removing id)) else none
  | .deleteJobsByConversation n conversation => if w.ops n = .idle then some (w.to n (.listing conversation)) else none
  | .handleSystemResume n => if w.ops n = .idle then some (w.to n .resumed) else none
  | .runNow n id => if w.ops n = .idle then some (w.to n (.startingNow id)) else none
  -- The callback spawns the tick as a task of its own.
  | .fire n id =>
    if w.ops n = .idle then
      match w.handles.lookup id with
      | none => none
      | some timer =>
        match timer.due with
        | none => none
        | some due =>
          if due ≤ w.now then
            some ({ w with handles := w.handles.insert id (timer.next calendar w.now due) }.to n (.ticking id))
          else none
    else none
  | .executed n outcome => execute w n outcome
  -- A workspace or an agent that does not pass the other checks.
  | .refuse n =>
    match w.ops n with
    | .adding _ _ _ | .writing _ _ | .runningNow _ => some (w.to n .idle)
    | _ => none
  | .go n => go calendar w n
  | .wait ms => some { w with now := w.now + ms }

def start (now : Int) : World := ⟨now,∅,∅,fun _ => .idle,[]⟩

end Handlers

end AlineaCopilot.CronService
