import AlineaCopilot.TextLines
import AlineaCopilot.TextMarkers

open AlineaCopilot.RustText AlineaCopilot.TextLines AlineaCopilot.LeftmostScans AlineaCopilot.TextMarkers

namespace AlineaCopilot.ResponseMiddleware

-- `THINK_TAG_RE`.
def think : Pattern Char where
  opening := .oneOf ["<think>".toList,"<thinking>".toList] (by simp) (by simp)
  closing := some (.oneOf ["</think>".toList,"</thinking>".toList] (by simp) (by simp))

-- Remove `<think>...</think>` and `<thinking>...</thinking>` tags from text.
def stripThinkTags (text : List Char) : List Char := erase think.hit 0 text

inductive CronKind where
  | create
  | update
  | list
  | delete
deriving DecidableEq

def updateWord : List Char := "[CRON_UPDATE:".toList

def deleteWord : List Char := "[CRON_DELETE:".toList

-- `CRON_CREATE_RE`, `CRON_UPDATE_RE`, `CRON_LIST_RE` and `CRON_DELETE_RE`.
def CronKind.pattern : CronKind → Pattern Char
  | .create => ⟨.word "[CRON_CREATE]".toList (by simp),some (.word "[/CRON_CREATE]".toList (by simp))⟩
  | .update => ⟨.tagged updateWord ']',some (.word "[/CRON_UPDATE]".toList (by simp))⟩
  | .list => ⟨.word "[CRON_LIST]".toList (by simp),none⟩
  | .delete => ⟨.tagged deleteWord ']',none⟩

def CronKind.hit (kind : CronKind) : List Char → Option Nat := kind.pattern.hit

-- Quick check: does the text contain any cron commands?
def hasCronCommands (text : List Char) : Bool :=
  occurs CronKind.create.hit text || occurs CronKind.update.hit text || occurs CronKind.list.hit text || occurs CronKind.delete.hit text

-- Strip all cron command tags from text.
def stripCronCommands (text : List Char) : List Char :=
  erase CronKind.delete.hit 0 (erase CronKind.list.hit 0 (erase CronKind.update.hit 0 (erase CronKind.create.hit 0 text)))

structure CronCreateParams where
  name : List Char
  schedule : List Char
  scheduleDescription : List Char
  message : List Char
deriving DecidableEq

structure CronUpdateParams where
  jobId : List Char
  name : List Char
  schedule : List Char
  scheduleDescription : List Char
  message : List Char
deriving DecidableEq

inductive CronCommand where
  | create (params : CronCreateParams)
  | update (params : CronUpdateParams)
  | list
  | delete (id : List Char)
deriving DecidableEq

structure CronCommandFields where
  name : Option (List Char)
  schedule : Option (List Char)
  scheduleDescription : Option (List Char)
  message : Option (List Char)

def fieldOf (key line : List Char) : Option (List Char) :=
  if key.isPrefixOf line then some (trimLine (line.drop key.length)) else none

def CronCommandFields.readLine (fields : CronCommandFields) (line : List Char) : CronCommandFields :=
  if let some value := fieldOf "name:".toList line then {fields with name := some value}
  else if let some value := fieldOf "schedule_description:".toList line then {fields with scheduleDescription := some value}
  else if let some value := fieldOf "schedule:".toList line then {fields with schedule := some value}
  else if let some value := fieldOf "message:".toList line then {fields with message := some value}
  else fields

def parseCronCommandBody (body : List Char) : Option CronCommandFields :=
  some ((lineList body).foldl (fun fields line => fields.readLine (trimLine line)) ⟨none,none,none,none⟩)

def parseCronCreateBody (body : List Char) : Option CronCreateParams := do
  let fields ← parseCronCommandBody body
  return {
    name := fields.name.getD []
    schedule := ← fields.schedule
    scheduleDescription := fields.scheduleDescription.getD []
    message := fields.message.getD [] }

def parseCronUpdateBody (jobId body : List Char) : Option CronUpdateParams := do
  if jobId = [] then none
  let fields ← parseCronCommandBody body
  return {
    jobId
    name := ← fields.name
    schedule := ← fields.schedule
    scheduleDescription := ← fields.scheduleDescription
    message := ← fields.message }

-- The groups of a match. `place` is where it starts in the text.
structure Captures where
  place : Nat
  jobId : List Char
  body : List Char

-- `\s*([^\]]+)`. White space alone leaves its last letter to the group.
def jobIdGroup (inside : List Char) : List Char :=
  if inside.all isWhitespace then inside.drop (inside.length - 1) else inside.dropWhile isWhitespace

def CronKind.jobIdOf : CronKind → List Char → List Char
  | .create,_ => []
  | .update,text => jobIdGroup ((argument updateWord ']' text).getD [])
  | .list,_ => []
  | .delete,text => jobIdGroup ((argument deleteWord ']' text).getD [])

-- `\s*(.*?)\s*` up to the closing marker.
def bodyOf (reading : Reading) (text : List Char) : List Char := trimLine ((text.drop reading.opening).take reading.between)

def CronKind.captures (kind : CronKind) (found : Found Char) : Captures where
  place := found.place
  jobId := kind.jobIdOf found.text
  body := ((kind.pattern.read found.text).map fun reading => bodyOf reading found.text).getD []

def CronKind.capturesIter (kind : CronKind) (text : List Char) : List Captures := (scan kind.hit 0 0 text).map kind.captures

def createCommand (cap : Captures) : Option CronCommand := (parseCronCreateBody cap.body).map .create

def updateCommand (cap : Captures) : Option CronCommand := (parseCronUpdateBody (trimLine cap.jobId) cap.body).map .update

def deleteCommand (cap : Captures) : Option CronCommand :=
  let id := trimLine cap.jobId
  if id = [] then none else some (.delete id)

-- Detect all cron commands embedded in the text.
def detectCronCommands (text : List Char) : List CronCommand :=
  (CronKind.create.capturesIter text).filterMap createCommand ++
    (CronKind.update.capturesIter text).filterMap updateCommand ++
    (if occurs CronKind.list.hit text then [.list] else []) ++
    (CronKind.delete.capturesIter text).filterMap deleteCommand

structure CronCommandResult where
  success : Bool
  message : List Char

-- Abstract cron service, with the state its calls read and change.
structure CronService (σ : Type) where
  createJob : List Char → List Char → CronCreateParams → σ → CronCommandResult × σ
  updateJob : List Char → List Char → CronUpdateParams → σ → CronCommandResult × σ
  listJobs : List Char → List Char → σ → CronCommandResult × σ
  deleteJob : List Char → List Char → σ → CronCommandResult × σ

structure MiddlewareResult where
  message : List Char
  displayMessage : Option (List Char)
  systemResponses : List (List Char)

section Process
variable {σ : Type}

def CronService.perform (service : CronService σ) (userId conversationId : List Char) : CronCommand → σ → CronCommandResult × σ
  | .create params => service.createJob userId conversationId params
  | .update params => service.updateJob userId conversationId params
  | .list => service.listJobs userId conversationId
  | .delete id => service.deleteJob userId id

def CronCommandResult.response (result : CronCommandResult) : List Char :=
  if result.success then "[System: ".toList ++ result.message ++ "]".toList else "[System Error: ".toList ++ result.message ++ "]".toList

-- The loop over the commands, with the responses pushed so far.
def CronService.performAll (service : CronService σ) (userId conversationId : List Char) :
    List CronCommand → List (List Char) → σ → List (List Char) × σ
  | [],responses,state => (responses,state)
  | command :: rest,responses,state =>
    let done := service.perform userId conversationId command state
    service.performAll userId conversationId rest (responses ++ [done.1.response]) done.2

-- Execute a list of cron commands via the injected service.
def executeCronCommands (cronService : Option (CronService σ)) (userId conversationId : List Char) (commands : List CronCommand) (state : σ) :
    List (List Char) × σ :=
  match cronService with
  | none => (["[System: Cron service is not available]".toList],state)
  | some service => service.performAll userId conversationId commands [] state

-- Process a completed agent message through the middleware pipeline.
def process (cronService : Option (CronService σ)) (message userId conversationId : List Char) (state : σ) : MiddlewareResult × σ :=
  let cleaned := stripThinkTags message
  if !hasCronCommands cleaned then (⟨cleaned,none,[]⟩,state)
  else
    let commands := detectCronCommands cleaned
    let displayMessage := stripCronCommands cleaned
    let executed := executeCronCommands cronService userId conversationId commands state
    (⟨displayMessage,some displayMessage,executed.1⟩,executed.2)

end Process

end AlineaCopilot.ResponseMiddleware
