import AlineaCopilot.ProjectMembers
import AlineaCopilot.ProjectTasks
open AlineaCopilot.KeyedMaps AlineaCopilot.StatefulPrograms

namespace AlineaCopilot.ProjectWorkspace
open ProjectTasks (ApiError dbErr)
open ProjectMembers (ProjectRow AclKey AclRow userKey)

structure ProjectUpdate where
  name : Option String := none
  description : Option (Option String) := none
  status : Option String := none
deriving DecidableEq, Repr

structure TaskArtifactRow where
  id : String
  taskId : String
  kind : String
  uri : String
  title : String
  producedBy : String
deriving DecidableEq, Repr

structure AddArtifactRequest where
  kind : String
  uri : String
  title : String
deriving DecidableEq, Repr

-- All the tables behind the project routes. The projects and members that the
-- task handlers see are those of `access`.
structure Workspace where
  access : ProjectMembers.Store
  board : ProjectTasks.Store
  artifacts : List TaskArtifactRow

section Tables

def memberships (acl : KeyedMap AclKey String) : KeyedMap (String × String) String :=
  acl.entries.foldr (fun row members =>
    if row.1.resourceType = "project" ∧ row.1.principalType = "user" then
      members.insert (row.1.resourceId,row.1.principalId) row.2
    else members) ∅

def Workspace.tables (w : Workspace) : ProjectTasks.Store :=
  { w.board with projects := w.access.projects.keys, members := memberships w.access.acl }

theorem lookup_memberships (acl : KeyedMap AclKey String) (projectId userId : String) :
    (memberships acl).lookup (projectId,userId) = acl.lookup (userKey projectId userId) := by
  unfold memberships AList.lookup
  induction acl.entries with
  | nil => rfl
  | cons row rest ih =>
    obtain ⟨⟨resourceType,resourceId,principalType,principalId⟩,perm⟩ := row
    rw [List.foldr_cons]
    by_cases same : (⟨resourceType,resourceId,principalType,principalId⟩ : AclKey) = userKey projectId userId
    · have head : List.dlookup (userKey projectId userId) (⟨⟨resourceType,resourceId,principalType,principalId⟩,perm⟩ ::
          rest) = some perm := by
        rw [same]
        exact List.dlookup_cons_eq ..
      rw [head,if_pos ⟨congrArg AclKey.resourceType same,congrArg AclKey.principalType same⟩]
      cases same
      exact AList.lookup_insert _
    · rw [List.dlookup_cons_ne _ _ (Ne.symm same),← ih]
      split
      · rename_i own
        refine AList.lookup_insert_ne fun equal => same ?_
        cases equal
        obtain ⟨rfl,rfl⟩ := own
        rfl
      · rfl

-- A task handler's program, on the tables it sees.
def onTables {α : Type} (program : Program ProjectTasks.Store ApiError α) : Program Workspace ApiError α := do
  let w ← get
  set { w with board := (perform program w.tables).2 }
  match (perform program w.tables).1 with
  | .ok value => pure value
  | .error error => throw error

@[simp] theorem perform_onTables {α : Type} (program : Program ProjectTasks.Store ApiError α) (w : Workspace) :
    perform (onTables program) w = ((perform program w.tables).1,{ w with board := (perform program w.tables).2 }) := by
  simp only [onTables,perform_bind,perform_get,perform_set]
  cases (perform program w.tables).1 <;> rfl

end Tables

section Handlers

def ProjectUpdate.isEmpty (update : ProjectUpdate) : Bool :=
  update.name.isNone && update.description.isNone && update.status.isNone

def ProjectUpdate.apply (update : ProjectUpdate) (row : ProjectRow) : ProjectRow := { row with
  name := update.name.getD row.name
  description := update.description.getD row.description
  status := update.status.getD row.status }

def editProject (id : String) (update : ProjectUpdate) : Program Workspace ApiError PUnit :=
  if update.isEmpty then pure ⟨⟩
  else do
    let w ← get
    match w.access.projects.lookup id with
    | none => throw (dbErr s!"Record not found: Project '{id}' not found")
    | some row => set { w with access := { w.access with projects := w.access.projects.insert id (update.apply row) } }

def getProject (id : String) : Program Workspace ApiError ProjectRow := do
  let w ← get
  match w.access.projects.lookup id with
  | some row => pure row
  | none => throw (.notFound s!"Project {id} not found")

def updateProject (current id : String) (req : ProjectUpdate) : Program Workspace ApiError ProjectRow := do
  onTables (ProjectTasks.requireOwner id current)
  if req.status.any (fun status => status ≠ "active" ∧ status ≠ "archived") then
    throw (.badRequest "status must be 'active' or 'archived'")
  else
    editProject id req
    getProject id

def insertArtifact (row : TaskArtifactRow) : Program Workspace ApiError TaskArtifactRow := do
  let w ← get
  if w.artifacts.any fun other => other.id = row.id then throw (dbErr "UNIQUE constraint failed: task_artifacts.id")
  else
    set { w with artifacts := w.artifacts ++ [row] }
    pure row

def addArtifact (freshId current id : String) (req : AddArtifactRequest) : Program Workspace ApiError TaskArtifactRow := do
  let _ ← onTables (ProjectTasks.requireTaskMember id current)
  if (RustText.trim req.uri).isEmpty ∨ (RustText.trim req.title).isEmpty then
    throw (.badRequest "uri and title are required")
  else insertArtifact ⟨freshId,id,req.kind,req.uri,req.title,current⟩

-- The calls of a membership request one after the other, none of them failing.
def settle (freshId : String) : Nat → ProjectMembers.Store → ProjectMembers.Progress →
    ProjectMembers.Store × ProjectMembers.Progress
  | 0,store,progress => (store,progress)
  | calls + 1,store,progress => match ProjectMembers.serve store freshId progress with
    | none => (store,progress)
    | some (next,later) => settle freshId calls next later

-- The most calls a request may still make.
def callsLeft : ProjectMembers.Progress → Nat
  | .idle | .returned _ => 0
  | .enrolling _ _ | .listing _ => 1
  | .creating _ _ | .granting _ _ _ | .explaining _ _ => 2
  | .counting _ _ _ | .revoking _ _ => 3
  | .finding _ _ _ | .authorizingRemove _ _ _ => 4
  | .authorizingAdd _ _ _ => 5

def handleMembers (freshId : String) (store : ProjectMembers.Store) (request : ProjectMembers.Request) : ProjectMembers.Store :=
  (settle freshId (callsLeft (ProjectMembers.arrive request)) store (ProjectMembers.arrive request)).1

end Handlers

-- One request of the routes that write, with the ids generated for it. Members
-- of the catalogue routes and the other GET routes write nothing.
inductive Request where
  | board (request : ProjectTasks.Request)
  | members (freshId : String) (request : ProjectMembers.Request)
  | updateProject (current id : String) (req : ProjectUpdate)
  | addArtifact (freshId current id : String) (req : AddArtifactRequest)

section Requests

def boardUser : ProjectTasks.Request → String
  | .createTask _ current _ _ => current
  | .updateTask current _ _ => current
  | .transitionTask current _ _ => current
  | .instantiatePipeline _ current _ _ => current

def membersUser : ProjectMembers.Request → String
  | .createProject current _ => current
  | .addMember current _ _ => current
  | .removeMember current _ _ => current

def Request.user : Request → String
  | .board request => boardUser request
  | .members _ request => membersUser request
  | .updateProject current _ _ => current
  | .addArtifact _ current _ _ => current

def answer (w : Workspace) : Request → Workspace
  | .board request => { w with board := ProjectTasks.answer w.tables request }
  | .members freshId request => { w with access := handleMembers freshId w.access request }
  | .updateProject current id req => (perform (updateProject current id req) w).2
  | .addArtifact freshId current id req => (perform (addArtifact freshId current id req) w).2

-- A generated project id is a new one.
def Request.fresh (w : Workspace) : Request → Bool
  | .members freshId (.createProject _ _) => (w.access.projects.lookup freshId).isNone
  | _ => true

def serve (w : Workspace) (request : Request) : Option Workspace :=
  if request.fresh w then some (answer w request) else none

end Requests

section Calls
variable {store next : ProjectMembers.Store} {progress later : ProjectMembers.Progress} {freshId : String}

theorem requireOwner_calls (perm : Option String) (later : ProjectMembers.Progress) :
    callsLeft (ProjectMembers.requireOwner perm later) ≤ callsLeft later := by
  unfold ProjectMembers.requireOwner
  split
  · exact Nat.zero_le _
  · split
    · exact Nat.zero_le _
    · exact Nat.le_refl _

theorem serve_fewer (served : ProjectMembers.serve store freshId progress = some (next,later)) :
    callsLeft later < callsLeft progress := by
  cases progress with
  | idle | returned => cases served
  | creating | enrolling | granting | listing => cases served; simp [callsLeft]
  | authorizingAdd current projectId req =>
    cases served
    have fewer := requireOwner_calls (store.getPerm projectId current) (ProjectMembers.checkAddition projectId req)
    have checked : callsLeft (ProjectMembers.checkAddition projectId req) ≤ 4 := by
      unfold ProjectMembers.checkAddition
      simp only
      split
      · simp [ProjectMembers.refuse,callsLeft]
      · split <;> simp [ProjectMembers.refuse,callsLeft]
    exact Nat.lt_succ_of_le (fewer.trans checked)
  | finding projectId target perm =>
    simp only [ProjectMembers.serve] at served
    split at served
    · cases served; simp [ProjectMembers.refuse,callsLeft]
    · split at served <;> cases served <;> simp [callsLeft]
  | counting projectId target perm =>
    cases served
    unfold ProjectMembers.checkDemotion
    simp only
    split <;> simp [ProjectMembers.refuse,callsLeft]
  | authorizingRemove current projectId userId =>
    cases served
    have fewer := requireOwner_calls (store.getPerm projectId current) (.revoking projectId userId)
    exact Nat.lt_succ_of_le fewer
  | revoking projectId userId =>
    simp only [ProjectMembers.serve] at served
    split at served <;> cases served <;> simp [callsLeft]
  | explaining projectId userId =>
    simp only [ProjectMembers.serve] at served
    split at served <;> cases served <;> simp [ProjectMembers.refuse,callsLeft]

-- A membership request that is served alone makes all its calls.
theorem settle_done (freshId : String) (enough : callsLeft progress ≤ calls) :
    ProjectMembers.serve (settle freshId calls store progress).1 freshId (settle freshId calls store progress).2 = none := by
  induction calls generalizing store progress with
  | zero =>
    cases progress with
    | returned | idle => rfl
    | creating | enrolling | authorizingAdd | finding | counting | granting | authorizingRemove | revoking | explaining
      | listing => simp [callsLeft] at enough
  | succ calls ih =>
    unfold settle
    cases served : ProjectMembers.serve store freshId progress with
    | none => exact served
    | some pair =>
      have fewer := serve_fewer served
      exact ih (by omega)

end Calls

end AlineaCopilot.ProjectWorkspace
