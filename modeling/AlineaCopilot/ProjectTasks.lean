import AlineaCopilot.KeyedMaps
import AlineaCopilot.RustText
import AlineaCopilot.StatefulPrograms
open AlineaCopilot.KeyedMaps AlineaCopilot.StatefulPrograms

namespace AlineaCopilot.ProjectTasks

inductive TaskStatus where
  | todo
  | inProgress
  | inReview
  | done
  | rejected
  | blocked
deriving DecidableEq, Repr

def TaskStatus.asStr : TaskStatus → String
  | .todo => "todo"
  | .inProgress => "in_progress"
  | .inReview => "in_review"
  | .done => "done"
  | .rejected => "rejected"
  | .blocked => "blocked"

inductive TaskAction where
  | start
  | submit
  | approve
  | reject
  | reopen
deriving DecidableEq, Repr

def TaskAction.parse (text : String) : Option TaskAction :=
  if text = "start" then some .start
  else if text = "submit" then some .submit
  else if text = "approve" then some .approve
  else if text = "reject" then some .reject
  else if text = "reopen" then some .reopen
  else none

def nextStatus (source : TaskStatus) (action : TaskAction) (requiresReview : Bool) : Option TaskStatus :=
  match source,action with
  | .todo,.start => some .inProgress
  | .blocked,.start => some .inProgress
  | .inProgress,.submit => some (if requiresReview then .inReview else .done)
  | .inReview,.approve => some .done
  | .inReview,.reject => some .rejected
  | .rejected,.reopen => some .todo
  | _,_ => none

inductive ApiError where
  | notFound (text : String)
  | badRequest (text : String)
  | forbidden (text : String)
  | internal (text : String)
deriving DecidableEq, Repr

-- Both routes a repository error takes to the caller give it this text.
def dbErr (text : String) : ApiError := .internal s!"Database error: {text}"

-- The columns of a task that a modelled function reads or sets. The status
-- column holds one of six texts, written by `asStr` only.
structure TaskRow where
  id : String
  projectId : String
  parentTaskId : Option String
  title : String
  instructions : Option String
  assigneeKind : String
  assigneeId : Option String
  status : TaskStatus
  requiresHumanReview : Bool
  producesArtifact : Option String
  orderIndex : Int
  createdBy : String
deriving DecidableEq, Repr

structure NewTask where
  projectId : String
  parentTaskId : Option String
  title : String
  instructions : Option String
  assigneeKind : String
  assigneeId : Option String
  requiresHumanReview : Bool
  producesArtifact : Option String
  orderIndex : Int
  createdBy : String
  dependsOn : List String

structure NewHandoff where
  taskId : String
  fromStatus : Option String
  toStatus : String
  actor : String
  triggerKind : String
  note : Option String
deriving DecidableEq, Repr

structure TaskSpec where
  key : String
  title : String
  assigneeKind : String := "human"
  agent : Option String := none
  requiresHumanReview : Bool := true
  producesArtifact : Option String := none
  dependsOn : List String := []
deriving DecidableEq, Repr

-- The tables behind the task handlers. A template stands with what its JSON
-- definition reads as; `dependencies` holds (task,depends on) pairs.
structure Store where
  projects : List String
  members : KeyedMap (String × String) String
  templates : KeyedMap String (Except String (List TaskSpec))
  tasks : KeyedMap String TaskRow
  dependencies : List (String × String)
  handoffs : List NewHandoff

section Repository

def NewTask.row (params : NewTask) (id : String) : TaskRow :=
  ⟨id,params.projectId,params.parentTaskId,params.title,params.instructions,params.assigneeKind,params.assigneeId,.todo,
    params.requiresHumanReview,params.producesArtifact,params.orderIndex,params.createdBy⟩

-- Why the transaction that inserts a task would be rolled back. `OR IGNORE`
-- does not cover a foreign key.
def Store.constraintFailure (store : Store) (freshId : String) (params : NewTask) : Option String :=
  if (store.tasks.lookup freshId).isSome then some "UNIQUE constraint failed: tasks.id"
  else if store.projects.contains params.projectId &&
      params.parentTaskId.all (fun parent => (store.tasks.lookup parent).isSome) &&
      params.dependsOn.all (fun dep => (store.tasks.lookup dep).isSome) then none
  else some "FOREIGN KEY constraint failed"

def Store.insertTask (store : Store) (freshId : String) (params : NewTask) : Store := { store with
  tasks := store.tasks.insert freshId (params.row freshId)
  dependencies := store.dependencies ++ params.dependsOn.dedup.map fun dep => (freshId,dep) }

def create (freshId : String) (params : NewTask) : Program Store ApiError TaskRow := do
  let store ← get
  match store.constraintFailure freshId params with
  | some text => throw (dbErr text)
  | none =>
    set (store.insertTask freshId params)
    pure (params.row freshId)

structure TaskUpdate where
  title : Option String := none
  instructions : Option (Option String) := none
  assigneeKind : Option String := none
  assigneeId : Option (Option String) := none
  requiresHumanReview : Option Bool := none
  orderIndex : Option Int := none

def TaskUpdate.isEmpty (update : TaskUpdate) : Bool :=
  update.title.isNone && update.instructions.isNone && update.assigneeKind.isNone && update.assigneeId.isNone &&
    update.requiresHumanReview.isNone && update.orderIndex.isNone

def TaskUpdate.apply (update : TaskUpdate) (row : TaskRow) : TaskRow := { row with
  title := update.title.getD row.title
  instructions := update.instructions.getD row.instructions
  assigneeKind := update.assigneeKind.getD row.assigneeKind
  assigneeId := update.assigneeId.getD row.assigneeId
  requiresHumanReview := update.requiresHumanReview.getD row.requiresHumanReview
  orderIndex := update.orderIndex.getD row.orderIndex }

-- `UPDATE tasks .. WHERE id = ?`.
def modifyTask (id : String) (change : TaskRow → TaskRow) : Program Store ApiError PUnit := do
  let store ← get
  match store.tasks.lookup id with
  | none => throw (dbErr s!"Record not found: Task '{id}' not found")
  | some row => set { store with tasks := store.tasks.insert id (change row) }

def update (id : String) (changes : TaskUpdate) : Program Store ApiError PUnit :=
  if changes.isEmpty then pure ⟨⟩ else modifyTask id changes.apply

def setStatus (id : String) (status : TaskStatus) : Program Store ApiError PUnit :=
  modifyTask id fun row => { row with status := status }

def logHandoff (entry : NewHandoff) : Program Store ApiError PUnit :=
  modify fun store => { store with handoffs := store.handoffs ++ [entry] }

-- The joined dependencies of a task that are not done yet: none of them means
-- that the dependencies are satisfied.
def Store.dependenciesSatisfied (store : Store) (taskId : String) : Bool :=
  (store.dependencies.filter fun edge =>
    edge.1 == taskId && (store.tasks.lookup edge.2).any fun row => row.status ≠ .done).length = 0

def Store.subtasks (store : Store) (parentId : String) : List TaskRow :=
  (values store.tasks).filter fun row => row.parentTaskId = some parentId

def Store.subtaskRollup (store : Store) (parentId : String) : Nat × Nat :=
  ((store.subtasks parentId).length,(store.subtasks parentId).countP fun row => row.status = .done)

def Store.dependentsOf (store : Store) (taskId : String) : List TaskRow :=
  store.dependencies.filterMap fun edge => if edge.2 = taskId then store.tasks.lookup edge.1 else none

def addDependency (taskId dependsOnTaskId : String) : Program Store ApiError PUnit := do
  let store ← get
  if (store.tasks.lookup taskId).isSome && (store.tasks.lookup dependsOnTaskId).isSome then
    set (if (taskId,dependsOnTaskId) ∈ store.dependencies then store
      else { store with dependencies := store.dependencies ++ [(taskId,dependsOnTaskId)] })
  else throw (dbErr "FOREIGN KEY constraint failed")

end Repository

section Handoff

-- `dep` is the row as the query returned it, before the loop wrote anything.
def unblockDependent (dep : TaskRow) : Program Store ApiError PUnit := do
  let store ← get
  if dep.status = .blocked && store.dependenciesSatisfied dep.id then
    setStatus dep.id .todo
    logHandoff ⟨dep.id,some "blocked","todo","system","dependency_satisfied",none⟩
  else pure ⟨⟩

def onTaskCompleted (completedTaskId : String) : Program Store ApiError PUnit := do
  let store ← get
  (store.dependentsOf completedTaskId).forM unblockDependent

def blockIfUnsatisfied (taskId : String) : Program Store ApiError Bool := do
  let store ← get
  if store.dependenciesSatisfied taskId then pure false
  else
    setStatus taskId .blocked
    logHandoff ⟨taskId,some "todo","blocked","system","dependency_satisfied",some "created with unmet dependencies"⟩
    pure true

end Handoff

section Pipeline

-- Step one: every task without its dependencies. A key that occurs twice maps
-- to the later task.
def createSpecs (freshIds : Nat → String) (projectId createdBy : String) :
    List TaskSpec → Nat → KeyedMap String String → Program Store ApiError (KeyedMap String String)
  | [],_,keyToId => pure keyToId
  | spec :: rest,index,keyToId => do
    let task ← create (freshIds index) ⟨projectId,none,spec.title,none,spec.assigneeKind,
      if spec.assigneeKind = "agent" then spec.agent else none,spec.requiresHumanReview,spec.producesArtifact,index,
      createdBy,[]⟩
    createSpecs freshIds projectId createdBy rest (index + 1) (keyToId.insert spec.key task.id)

-- Step two: a key without a task is skipped.
def wireSpec (keyToId : KeyedMap String String) (spec : TaskSpec) : Program Store ApiError PUnit :=
  match keyToId.lookup spec.key with
  | none => pure ⟨⟩
  | some taskId => spec.dependsOn.forM fun depKey =>
    match keyToId.lookup depKey with
    | none => pure ⟨⟩
    | some depId => addDependency taskId depId

def blockSpec (keyToId : KeyedMap String String) (spec : TaskSpec) : Program Store ApiError (Option TaskRow) :=
  match keyToId.lookup spec.key with
  | none => pure none
  | some taskId => do
    let _ ← blockIfUnsatisfied taskId
    let store ← get
    pure (store.tasks.lookup taskId)

def instantiate (freshIds : Nat → String) (projectId templateId createdBy : String) :
    Program Store ApiError (List TaskRow) := do
  let store ← get
  match store.templates.lookup templateId with
  | none => throw (.notFound s!"template '{templateId}' not found")
  | some (.error text) => throw (.internal s!"invalid template: {text}")
  | some (.ok specs) =>
    let keyToId ← createSpecs freshIds projectId createdBy specs 0 ∅
    specs.forM (wireSpec keyToId)
    let created ← specs.mapM (blockSpec keyToId)
    pure (created.filterMap id)

end Pipeline

section Handlers

def requireMember (projectId userId : String) : Program Store ApiError String := do
  let store ← get
  match store.members.lookup (projectId,userId) with
  | some perm => pure perm
  | none => throw (.forbidden "Not a member of this project")

def requireOwner (projectId userId : String) : Program Store ApiError PUnit := do
  let perm ← requireMember projectId userId
  if perm ≠ "owner" then throw (.forbidden "Owner permission required") else pure ⟨⟩

def getTask (id : String) : Program Store ApiError TaskRow := do
  let store ← get
  match store.tasks.lookup id with
  | some task => pure task
  | none => throw (.notFound s!"Task {id} not found")

def requireTaskMember (taskId userId : String) : Program Store ApiError TaskRow := do
  let task ← getTask taskId
  let _ ← requireMember task.projectId userId
  pure task

structure CreateTaskRequest where
  title : String
  instructions : Option String := none
  parentTaskId : Option String := none
  assigneeKind : String := "human"
  assigneeId : Option String := none
  requiresHumanReview : Bool := true
  producesArtifact : Option String := none
  orderIndex : Int := 0
  dependsOn : List String := []

def checkParent (projectId : String) : Option String → Program Store ApiError PUnit
  | none => pure ⟨⟩
  | some parentId => do
    let store ← get
    match store.tasks.lookup parentId with
    | none => throw (.badRequest "parent_task_id not found")
    | some parent =>
      if parent.projectId ≠ projectId then throw (.badRequest "parent task belongs to another project") else pure ⟨⟩

def createTask (freshId current projectId : String) (req : CreateTaskRequest) : Program Store ApiError TaskRow := do
  let _ ← requireMember projectId current
  if (RustText.trim req.title).isEmpty then throw (.badRequest "title is required")
  else if req.assigneeKind ≠ "human" ∧ req.assigneeKind ≠ "agent" then
    throw (.badRequest "assignee_kind must be 'human' or 'agent'")
  else
    checkParent projectId req.parentTaskId
    let task ← create freshId ⟨projectId,req.parentTaskId,RustText.trim req.title,req.instructions,req.assigneeKind,
      req.assigneeId,req.requiresHumanReview,req.producesArtifact,req.orderIndex,current,req.dependsOn⟩
    let blocked ← blockIfUnsatisfied task.id
    if blocked then getTask task.id else pure task

def updateTask (current id : String) (req : TaskUpdate) : Program Store ApiError TaskRow := do
  let _ ← requireTaskMember id current
  if req.assigneeKind.any (fun kind => kind ≠ "human" ∧ kind ≠ "agent") then
    throw (.badRequest "assignee_kind must be 'human' or 'agent'")
  else
    update id req
    getTask id

-- The checks of a transition, up to its first write.
def checkTransition (current id action : String) : Program Store ApiError (TaskRow × TaskAction × TaskStatus) := do
  let task ← requireTaskMember id current
  match TaskAction.parse action with
  | none => throw (.badRequest "invalid action")
  | some parsed =>
    match nextStatus task.status parsed task.requiresHumanReview with
    | none => throw (.badRequest s!"illegal transition from '{task.status.asStr}' via '{action}'")
    | some target =>
      let store ← get
      if parsed = .start ∧ store.dependenciesSatisfied id = false then
        throw (.badRequest "task dependencies are not all done")
      else pure (task,parsed,target)

def triggerKind : TaskAction → String
  | .approve => "approval"
  | .reject => "rejection"
  | _ => "manual"

-- The parent of a completed task, when all its subtasks are done.
def rollUp (parentId : String) : Program Store ApiError PUnit := do
  let store ← get
  let (total,done) := store.subtaskRollup parentId
  if 0 < total ∧ total = done then
    setStatus parentId .done
    logHandoff ⟨parentId,none,"done","system","dependency_satisfied",some "all subtasks done"⟩
    onTaskCompleted parentId
  else pure ⟨⟩

def completeTask (id : String) (parent : Option String) : Program Store ApiError PUnit := do
  onTaskCompleted id
  match parent with
  | none => pure ⟨⟩
  | some parentId => rollUp parentId

def propagate (id : String) (parent : Option String) (target : TaskStatus) : Program Store ApiError PUnit :=
  if target = .done then completeTask id parent else pure ⟨⟩

def transitionTask (current id action : String) : Program Store ApiError TaskRow := do
  let (task,parsed,target) ← checkTransition current id action
  setStatus id target
  logHandoff ⟨id,some task.status.asStr,target.asStr,current,triggerKind parsed,none⟩
  propagate id task.parentTaskId target
  getTask id

def instantiatePipeline (freshIds : Nat → String) (current projectId templateId : String) :
    Program Store ApiError (List TaskRow) := do
  requireOwner projectId current
  instantiate freshIds projectId templateId current

end Handlers

-- One request of the task routes, with the ids that are generated for it.
inductive Request where
  | createTask (freshId current projectId : String) (req : CreateTaskRequest)
  | updateTask (current id : String) (req : TaskUpdate)
  | transitionTask (current id action : String)
  | instantiatePipeline (freshIds : Nat → String) (current projectId templateId : String)

def answer (store : Store) : Request → Store
  | .createTask freshId current projectId req => (perform (createTask freshId current projectId req) store).2
  | .updateTask current id req => (perform (updateTask current id req) store).2
  | .transitionTask current id action => (perform (transitionTask current id action) store).2
  | .instantiatePipeline freshIds current projectId templateId =>
    (perform (instantiatePipeline freshIds current projectId templateId) store).2

-- Requests are served one after the other; a refused one is a step as well.
def serve (store : Store) (request : Request) : Option Store := some (answer store request)

end AlineaCopilot.ProjectTasks
