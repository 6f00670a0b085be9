import AlineaCopilot.InterleavedRequests
import AlineaCopilot.ProjectTasks
open AlineaCopilot.KeyedMaps AlineaCopilot.StatefulPrograms AlineaCopilot.TransitionRuns AlineaCopilot.InterleavedRequests

namespace AlineaCopilot.ProjectTaskRequests
open ProjectTasks

inductive Request where
  | transition (current id action : String)
  | create (current projectId : String) (req : CreateTaskRequest)

-- Where the code goes on after a cascade: the parent that may be rolled up, and
-- the task that is read back.
structure Onward where
  id : String
  parent : Option String
deriving DecidableEq, Repr

-- Where a request stands. Each of these is one repository call away from the
-- next; rows it has read stay as they were read.
inductive Progress where
  | idle
  | finding (current id action : String)
  | admitting (current id action : String) (task : TaskRow)
  | checkingStart (current id : String) (task : TaskRow) (parsed : TaskAction) (target : TaskStatus)
  | moving (current id : String) (task : TaskRow) (parsed : TaskAction) (target : TaskStatus)
  | recording (entry : NewHandoff) (finished : Bool) (onward : Onward)
  | cascading (completed : String) (onward : Onward)
  | checking (dep : TaskRow) (rest : List TaskRow) (onward : Onward)
  | freeing (dep : TaskRow) (rest : List TaskRow) (onward : Onward)
  | recordingFreed (dep : TaskRow) (rest : List TaskRow) (onward : Onward)
  | refetching (dep : TaskRow) (rest : List TaskRow) (onward : Onward)
  | counting (id parentId : String)
  | closing (id parentId : String)
  | recordingClosed (id parentId : String)
  | fetching (id : String)
  | admittingTo (current projectId : String) (req : CreateTaskRequest)
  | findingParent (current projectId parentId : String) (req : CreateTaskRequest)
  | inserting (current projectId : String) (req : CreateTaskRequest)
  | checkingNew (task : TaskRow)
  | blocking (task : TaskRow)
  | recordingBlocked (task : TaskRow)
  | returned (result : Except ApiError TaskRow)

-- What a request meets at its next step: it comes in, or its call answers (an
-- insert with a generated id).
inductive Input where
  | arrive (request : Request)
  | answer (freshId : String)

section Handlers

def refuse (error : ApiError) : Progress := .returned (.error error)

def call {α : Type} (program : Program Store ApiError α) (store : Store) (next : α → Progress) : Store × Progress :=
  match perform program store with
  | (.ok value,after) => (after,next value)
  | (.error error,after) => (after,refuse error)

def arrive : Request → Progress
  | .transition current id action => .finding current id action
  | .create current projectId req => .admittingTo current projectId req

def freedEntry (id : String) : NewHandoff := ⟨id,some "blocked","todo","system","dependency_satisfied",none⟩

def closedEntry (id : String) : NewHandoff :=
  ⟨id,none,"done","system","dependency_satisfied",some "all subtasks done"⟩

def blockedEntry (id : String) : NewHandoff :=
  ⟨id,some "todo","blocked","system","dependency_satisfied",some "created with unmet dependencies"⟩

def movedEntry (current id : String) (task : TaskRow) (parsed : TaskAction) (target : TaskStatus) : NewHandoff :=
  ⟨id,some task.status.asStr,target.asStr,current,triggerKind parsed,none⟩

def checkAction (current id action : String) (task : TaskRow) : Progress :=
  match TaskAction.parse action with
  | none => refuse (.badRequest "invalid action")
  | some parsed =>
    match nextStatus task.status parsed task.requiresHumanReview with
    | none => refuse (.badRequest s!"illegal transition from '{task.status.asStr}' via '{action}'")
    | some target => if parsed = .start then .checkingStart current id task parsed target else .moving current id task parsed target

def Onward.go (onward : Onward) : Progress :=
  match onward.parent with
  | none => .fetching onward.id
  | some parentId => .counting onward.id parentId

-- The next dependent that was blocked when the list was read.
def visit (onward : Onward) : List TaskRow → Progress
  | [] => onward.go
  | dep :: rest => if dep.status = .blocked then .checking dep rest onward else visit onward rest

def checkRequest (current projectId : String) (req : CreateTaskRequest) : Progress :=
  if (RustText.trim req.title).isEmpty then refuse (.badRequest "title is required")
  else if req.assigneeKind ≠ "human" ∧ req.assigneeKind ≠ "agent" then
    refuse (.badRequest "assignee_kind must be 'human' or 'agent'")
  else match req.parentTaskId with
    | none => .inserting current projectId req
    | some parentId => .findingParent current projectId parentId req

def newTask (current projectId : String) (req : CreateTaskRequest) : NewTask :=
  ⟨projectId,req.parentTaskId,RustText.trim req.title,req.instructions,req.assigneeKind,req.assigneeId,
    req.requiresHumanReview,req.producesArtifact,req.orderIndex,current,req.dependsOn⟩

-- One call of a request against the tables.
def serve (store : Store) (freshId : String) : Progress → Option (Store × Progress)
  | .finding current id action => some (call (getTask id) store (.admitting current id action))
  | .admitting current id action task =>
    some (call (requireMember task.projectId current) store fun _ => checkAction current id action task)
  | .checkingStart current id task parsed target =>
    if store.dependenciesSatisfied id then some (store,.moving current id task parsed target)
    else some (store,refuse (.badRequest "task dependencies are not all done"))
  | .moving current id task parsed target => some (call (setStatus id target) store fun _ =>
      .recording (movedEntry current id task parsed target) (decide (target = .done)) ⟨id,task.parentTaskId⟩)
  | .recording entry finished onward => some (call (logHandoff entry) store fun _ =>
      if finished then .cascading onward.id onward else .fetching onward.id)
  | .cascading completed onward => some (store,visit onward (store.dependentsOf completed))
  | .checking dep rest onward =>
    if store.dependenciesSatisfied dep.id then some (store,.freeing dep rest onward) else some (store,visit onward rest)
  | .freeing dep rest onward => some (call (setStatus dep.id .todo) store fun _ => .recordingFreed dep rest onward)
  | .recordingFreed dep rest onward =>
    some (call (logHandoff (freedEntry dep.id)) store fun _ => .refetching dep rest onward)
  | .refetching _ rest onward => some (store,visit onward rest)
  | .counting id parentId =>
    let (total,done) := store.subtaskRollup parentId
    if 0 < total ∧ total = done then some (store,.closing id parentId) else some (store,.fetching id)
  | .closing id parentId => some (call (setStatus parentId .done) store fun _ => .recordingClosed id parentId)
  | .recordingClosed id parentId =>
    some (call (logHandoff (closedEntry parentId)) store fun _ => .cascading parentId ⟨id,none⟩)
  | .fetching id => some (call (getTask id) store fun task => .returned (.ok task))
  | .admittingTo current projectId req =>
    some (call (requireMember projectId current) store fun _ => checkRequest current projectId req)
  | .findingParent current projectId parentId req =>
    match store.tasks.lookup parentId with
    | none => some (store,refuse (.badRequest "parent_task_id not found"))
    | some parent =>
      if parent.projectId ≠ projectId then some (store,refuse (.badRequest "parent task belongs to another project"))
      else some (store,.inserting current projectId req)
  | .inserting current projectId req => some (call (create freshId (newTask current projectId req)) store .checkingNew)
  | .checkingNew task =>
    if store.dependenciesSatisfied task.id then some (store,.returned (.ok task)) else some (store,.blocking task)
  | .blocking task => some (call (setStatus task.id .blocked) store fun _ => .recordingBlocked task)
  | .recordingBlocked task => some (call (logHandoff (blockedEntry task.id)) store fun _ => .fetching task.id)
  | .idle | .returned _ => none

def advance (store : Store) (progress : Progress) : Input → Option (Store × Progress)
  | .arrive request =>
    match progress with
    | .idle => some (store,arrive request)
    | _ => none
  | .answer freshId => serve store freshId progress

end Handlers

-- The status the next call sets, with the entry that is logged after it.
def Progress.writes : Progress → Option (TaskStatus × NewHandoff)
  | .moving current id task parsed target => some (target,movedEntry current id task parsed target)
  | .freeing dep _ _ => some (.todo,freedEntry dep.id)
  | .closing _ parentId => some (.done,closedEntry parentId)
  | .blocking task => some (.blocked,blockedEntry task.id)
  | _ => none

-- The status a request has read, or given, before it sets another.
def Progress.expects : Progress → Option (String × TaskStatus)
  | .moving _ id task _ _ => some (id,task.status)
  | .freeing dep _ _ => some (dep.id,.blocked)
  | .blocking task => some (task.id,.todo)
  | _ => none

-- The entry a request logs next, for a status it has set.
def Progress.owes : Progress → Option NewHandoff
  | .recording entry _ _ => some entry
  | .recordingFreed dep _ _ => some (freedEntry dep.id)
  | .recordingClosed _ parentId => some (closedEntry parentId)
  | .recordingBlocked task => some (blockedEntry task.id)
  | _ => none

-- The task a request has completed without having read its dependents yet.
def Progress.completing : Progress → Option String
  | .recording _ true onward => some onward.id
  | .recordingClosed _ parentId => some parentId
  | .cascading completed _ => some completed
  | _ => none

-- The requests with a list, kept for the proofs, of the entries that are owed:
-- whose they are, in the order in which the statuses were set.
structure Watched where
  system : System Store Progress
  pending : List (Nat × NewHandoff)

def watch (w : Watched) (action : Nat × Input) : Option Watched :=
  (step advance w.system action).map fun next =>
    ⟨next,w.pending.filter (fun owed => owed.1 ≠ action.1) ++
      (next.threads action.1).owes.toList.map fun entry => (action.1,entry)⟩

-- Any tables without tasks, no request made yet.
def start (store : Store) : Watched := ⟨⟨store,fun _ => .idle⟩,[]⟩

end AlineaCopilot.ProjectTaskRequests
