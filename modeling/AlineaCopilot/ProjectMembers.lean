import AlineaCopilot.InterleavedRequests
import AlineaCopilot.ProjectTasks
open AlineaCopilot.KeyedMaps AlineaCopilot.TransitionRuns AlineaCopilot.InterleavedRequests

namespace AlineaCopilot.ProjectMembers
open ProjectTasks (ApiError dbErr)

structure ProjectRow where
  id : String
  name : String
  description : Option String
  projectType : String
  status : String
  createdBy : String
deriving DecidableEq, Repr

structure NewProject where
  name : String
  description : Option String
  projectType : String
  createdBy : String
deriving DecidableEq, Repr

-- The columns the table's uniqueness constraint is over.
structure AclKey where
  resourceType : String
  resourceId : String
  principalType : String
  principalId : String
deriving DecidableEq, Repr

abbrev AclRow := Sigma fun _ : AclKey => String

-- The tables the membership handlers use. `created` lists the projects whose
-- creation was answered with Ok; no handler reads it.
structure Store where
  users : List String
  projects : KeyedMap String ProjectRow
  acl : KeyedMap AclKey String
  created : List String

section Repository

def userKey (projectId userId : String) : AclKey := ⟨"project",projectId,"user",userId⟩

def Store.getPerm (store : Store) (projectId userId : String) : Option String := store.acl.lookup (userKey projectId userId)

def Store.grant (store : Store) (projectId userId perm : String) : Store :=
  { store with acl := store.acl.insert (userKey projectId userId) perm }

def Store.listPrincipals (store : Store) (projectId : String) : List AclRow :=
  store.acl.entries.filter fun row => row.1.resourceType == "project" && row.1.resourceId == projectId

def isOwner (row : AclRow) : Bool := row.1.principalType == "user" && row.2 == "owner"

-- The count the conditional DELETE takes is over the table before it.
def Store.tryRevokeProjectMember (store : Store) (projectId userId : String) : Option Store :=
  match store.getPerm projectId userId with
  | none => none
  | some perm =>
    if perm ≠ "owner" ∨ 1 < (store.listPrincipals projectId).countP isOwner then
      some { store with acl := store.acl.erase (userKey projectId userId) }
    else none

def Store.createProject (store : Store) (freshId : String) (params : NewProject) : Store × ProjectRow :=
  let row : ProjectRow := ⟨freshId,params.name,params.description,params.projectType,"active",params.createdBy⟩
  ({ store with projects := store.projects.insert freshId row },row)

end Repository

structure CreateProjectRequest where
  name : String
  description : Option String
  projectType : Option String
deriving DecidableEq, Repr

structure AddMemberRequest where
  userId : String
  perm : Option String
deriving DecidableEq, Repr

inductive Request where
  | createProject (current : String) (req : CreateProjectRequest)
  | addMember (current projectId : String) (req : AddMemberRequest)
  | removeMember (current projectId userId : String)
deriving DecidableEq, Repr

inductive Response where
  | project (row : ProjectRow)
  | members (rows : List AclRow)
deriving DecidableEq

-- Where a request stands: each of these is one repository call away from the next.
inductive Progress where
  | idle
  | creating (current : String) (params : NewProject)
  | enrolling (current : String) (row : ProjectRow)
  | authorizingAdd (current projectId : String) (req : AddMemberRequest)
  | finding (projectId target perm : String)
  | counting (projectId target perm : String)
  | granting (projectId target perm : String)
  | authorizingRemove (current projectId userId : String)
  | revoking (projectId userId : String)
  | explaining (projectId userId : String)
  | listing (projectId : String)
  | returned (result : Except ApiError Response)

-- What a request meets at its next step: it comes in, its call answers (an
-- insert with a generated id), or its call fails.
inductive Input where
  | arrive (request : Request)
  | answer (freshId : String)
  | fail (text : String)
deriving DecidableEq, Repr

def refuse (error : ApiError) : Progress := .returned (.error error)

section Handlers

def arrive : Request → Progress
  | .createProject current req =>
    if (RustText.trim req.name).isEmpty then refuse (.badRequest "name is required")
    else .creating current ⟨RustText.trim req.name,req.description,req.projectType.getD "generico",current⟩
  | .addMember current projectId req => .authorizingAdd current projectId req
  | .removeMember current projectId userId => .authorizingRemove current projectId userId

def requireOwner (perm : Option String) (next : Progress) : Progress :=
  match perm with
  | none => refuse (.forbidden "Not a member of this project")
  | some perm => if perm ≠ "owner" then refuse (.forbidden "Owner permission required") else next

def checkAddition (projectId : String) (req : AddMemberRequest) : Progress :=
  let target := RustText.trim req.userId
  let perm := req.perm.getD "read"
  if target.isEmpty then refuse (.badRequest "user_id is required")
  else if perm ≠ "read" ∧ perm ≠ "write" ∧ perm ≠ "owner" then
    refuse (.badRequest "perm must be 'read', 'write' or 'owner'")
  else .finding projectId target perm

-- The last owner is not to be demoted: decided on the members listed here.
def checkDemotion (projectId target perm : String) (members : List AclRow) : Progress :=
  let targetIsOwner := members.any fun row => isOwner row && row.1.principalId == target
  if targetIsOwner && decide (members.countP isOwner ≤ 1) then
    refuse (.badRequest "Cannot demote the last owner of the project")
  else .granting projectId target perm

-- One call of a request against the tables.
def serve (store : Store) (freshId : String) : Progress → Option (Store × Progress)
  | .creating current params =>
    let (next,row) := store.createProject freshId params
    some (next,.enrolling current row)
  | .enrolling current row =>
    some ({ store.grant row.id current "owner" with created := row.id :: store.created },.returned (.ok (.project row)))
  | .authorizingAdd current projectId req =>
    some (store,requireOwner (store.getPerm projectId current) (checkAddition projectId req))
  | .finding projectId target perm =>
    if target ∉ store.users then some (store,refuse (.badRequest "target user does not exist"))
    else if perm ≠ "owner" then some (store,.counting projectId target perm)
    else some (store,.granting projectId target perm)
  | .counting projectId target perm => some (store,checkDemotion projectId target perm (store.listPrincipals projectId))
  | .granting projectId target perm => some (store.grant projectId target perm,.listing projectId)
  | .authorizingRemove current projectId userId =>
    some (store,requireOwner (store.getPerm projectId current) (.revoking projectId userId))
  | .revoking projectId userId =>
    match store.tryRevokeProjectMember projectId userId with
    | some next => some (next,.listing projectId)
    | none => some (store,.explaining projectId userId)
  | .explaining projectId userId =>
    if store.getPerm projectId userId = some "owner" then
      some (store,refuse (.badRequest "Cannot remove the last owner of the project"))
    else some (store,.listing projectId)
  | .listing projectId => some (store,.returned (.ok (.members (store.listPrincipals projectId))))
  | .idle | .returned _ => none

def advance (store : Store) (progress : Progress) : Input → Option (Store × Progress)
  | .arrive request =>
    match progress with
    | .idle => some (store,arrive request)
    | _ => none
  | .answer freshId => serve store freshId progress
  | .fail text =>
    match progress with
    | .idle | .returned _ => none
    | _ => some (store,refuse (dbErr text))

end Handlers

-- Any tables, no request made yet.
def start (users : List String) (projects : KeyedMap String ProjectRow) (acl : KeyedMap AclKey String) : System Store Progress :=
  ⟨⟨users,projects,acl,[]⟩,fun _ => .idle⟩

def Owned (store : Store) : Prop :=
  ∀ projectId ∈ store.created, ∃ userId, store.getPerm projectId userId = some "owner"

-- A lesser permission is written only while another user owns the project.
def Timely (system : System Store Progress) (action : Nat × Input) : Prop :=
  match system.threads action.1,action.2 with
  | .granting projectId target perm,.answer _ => perm ≠ "owner" → projectId ∈ system.store.created →
      ∃ other, other ≠ target ∧ system.store.getPerm projectId other = some "owner"
  | _,_ => True

section Owners
variable {store : Store}

theorem getPerm_grant (store : Store) (projectId target perm otherProject userId : String) :
    (store.grant projectId target perm).getPerm otherProject userId =
      if otherProject = projectId ∧ userId = target then some perm else store.getPerm otherProject userId := by
  simp only [Store.grant,Store.getPerm,lookup_insert_eq,userKey,AclKey.mk.injEq,true_and]

theorem getPerm_erase (store : Store) (projectId target otherProject userId : String) :
    ({ store with acl := store.acl.erase (userKey projectId target) } : Store).getPerm otherProject userId =
      if otherProject = projectId ∧ userId = target then none else store.getPerm otherProject userId := by
  simp only [Store.getPerm,lookup_erase_eq,userKey,AclKey.mk.injEq,true_and]

theorem owner_row {row : AclRow} (listed : row ∈ store.listPrincipals projectId) (owner : isOwner row = true) :
    ∃ userId, row = ⟨userKey projectId userId,"owner"⟩ ∧ store.getPerm projectId userId = some "owner" := by
  obtain ⟨inside,own⟩ := List.mem_filter.mp listed
  obtain ⟨⟨resourceType,resourceId,principalType,principalId⟩,perm⟩ := row
  simp only [isOwner,Bool.and_eq_true,beq_iff_eq] at own owner
  obtain ⟨rfl,rfl⟩ := own
  obtain ⟨rfl,rfl⟩ := owner
  exact ⟨principalId,rfl,(mem_entries_iff store.acl).mp inside⟩

-- Two owner rows are rows of two users: the keys of the table are distinct.
theorem second_owner (many : 1 < (store.listPrincipals projectId).countP isOwner) (userId : String) :
    ∃ other, other ≠ userId ∧ store.getPerm projectId other = some "owner" := by
  by_contra alone
  have only : ∀ row ∈ (store.listPrincipals projectId).filter isOwner, row = ⟨userKey projectId userId,"owner"⟩ := by
    intro row inside
    obtain ⟨listed,owner⟩ := List.mem_filter.mp inside
    obtain ⟨name,rfl,holds⟩ := owner_row listed owner
    by_cases same : name = userId
    · rw [same]
    · exact absurd ⟨name,same,holds⟩ alone
  have distinct : ((store.listPrincipals projectId).filter isOwner).Nodup :=
    (store.acl.nodupKeys.nodup.filter _).filter _
  rw [List.countP_eq_length_filter] at many
  match rows : (store.listPrincipals projectId).filter isOwner with
  | [] => simp [rows] at many
  | [row] => simp [rows] at many
  | first :: second :: rest =>
    rw [rows] at only distinct
    have equal : first = second := (only first (by simp)).trans (only second (by simp)).symm
    simp [equal] at distinct

theorem Owned.revoke (owned : Owned store) (revoked : store.tryRevokeProjectMember projectId userId = some next) :
    Owned next := by
  unfold Store.tryRevokeProjectMember at revoked
  split at revoked
  · cases revoked
  · rename_i perm holds
    split at revoked
    · rename_i allowed
      cases Option.some.inj revoked
      intro other inside
      obtain ⟨owner,found⟩ := owned other inside
      by_cases same : other = projectId ∧ owner = userId
      · obtain ⟨rfl,rfl⟩ := same
        rcases allowed with lesser | many
        · rw [holds] at found
          exact absurd (Option.some.inj found) lesser
        · obtain ⟨second,apart,stands⟩ := second_owner many owner
          refine ⟨second,?_⟩
          rw [getPerm_erase,if_neg (fun equal => apart equal.2)]
          exact stands
      · refine ⟨owner,?_⟩
        rw [getPerm_erase,if_neg same]
        exact found
    · cases revoked

theorem Owned.grant (owned : Owned store) : Owned (store.grant projectId target perm) ↔
    (perm ≠ "owner" → projectId ∈ store.created → ∃ other, other ≠ target ∧ store.getPerm projectId other = some "owner") := by
  constructor
  · intro kept lesser inside
    obtain ⟨owner,found⟩ := kept projectId inside
    rw [getPerm_grant] at found
    split at found
    · exact absurd (Option.some.inj found) lesser
    · rename_i apart
      exact ⟨owner,fun same => apart ⟨rfl,same⟩,found⟩
  · intro allowed other inside
    obtain ⟨owner,found⟩ := owned other inside
    by_cases promoted : perm = "owner"
    · by_cases same : other = projectId ∧ owner = target
      · exact ⟨owner,by rw [getPerm_grant,if_pos same,promoted]⟩
      · exact ⟨owner,by rw [getPerm_grant,if_neg same,found]⟩
    · by_cases same : other = projectId
      · subst same
        obtain ⟨second,apart,stands⟩ := allowed promoted inside
        exact ⟨second,by rw [getPerm_grant,if_neg (fun equal => apart equal.2),stands]⟩
      · exact ⟨owner,by rw [getPerm_grant,if_neg (fun equal => same equal.1),found]⟩

theorem Owned.enroll (owned : Owned store) (row : ProjectRow) (current : String) :
    Owned { store.grant row.id current "owner" with created := row.id :: store.created } := by
  have granted : Owned (store.grant row.id current "owner") := owned.grant.mpr fun lesser => absurd rfl lesser
  intro projectId inside
  rcases List.mem_cons.mp inside with rfl | earlier
  · refine ⟨current,?_⟩
    change (store.grant row.id current "owner").getPerm row.id current = some "owner"
    rw [getPerm_grant,if_pos ⟨rfl,rfl⟩]
  · exact granted projectId earlier

end Owners

-- Every call but a grant of `add_member` keeps an owner for every created project.
theorem serve_owned (owned : Owned store) (other : ∀ projectId target perm, progress ≠ .granting projectId target perm)
    (served : serve store freshId progress = some (next,thread)) : Owned next := by
  cases progress with
  | creating current params => cases served; exact owned
  | enrolling current row => cases served; exact owned.enroll row current
  | granting projectId target perm => exact absurd rfl (other projectId target perm)
  | finding projectId target perm =>
    simp only [serve] at served
    split at served
    · cases served; exact owned
    · split at served <;> cases served <;> exact owned
  | revoking projectId userId =>
    simp only [serve] at served
    split at served
    · rename_i revoked
      cases served
      exact owned.revoke revoked
    · cases served; exact owned
  | explaining projectId userId =>
    simp only [serve] at served
    split at served <;> cases served <;> exact owned
  | authorizingAdd | counting | authorizingRemove | listing => cases served; exact owned
  | idle | returned => cases served

theorem owned_exact (owned : Owned system.store) (taken : step advance system action = some next) :
    Owned next.store ↔ Timely system action := by
  obtain ⟨n,input⟩ := action
  obtain ⟨store,thread,moved,rfl⟩ := step_some taken
  rw [goes_store]
  cases stands : system.threads n with
  | granting projectId target perm =>
    rw [stands] at moved
    cases input with
    | arrive request => cases moved
    | fail text =>
      cases moved
      exact iff_of_true owned (by simp [Timely,stands])
    | answer freshId =>
      cases moved
      simp only [Timely,stands]
      exact owned.grant
  | _ =>
    have timely : Timely system (n,input) := by simp [Timely,stands]
    refine iff_of_true ?_ timely
    rw [stands] at moved
    cases input with
    | arrive request => cases moved <;> exact owned
    | fail text => cases moved <;> exact owned
    | answer freshId =>
      simp only [advance] at moved
      exact serve_owned owned (by simp) moved

-- No project loses its last owner exactly when no lesser permission is written
-- over the only owner there is at that moment.
theorem owners_kept_exactly (path : Runs (step advance) (start users projects acl) actions after) :
    (∀ earlier between, earlier <+: actions → Runs (step advance) (start users projects acl) earlier between →
      Owned between.store) ↔ RunsWhere (step advance) Timely (start users projects acl) actions after := by
  have unowned : Owned (start users projects acl).store := fun projectId inside => nomatch inside
  have steady : ∀ before action next, (fun _ : System Store Progress => True) before →
      step advance before action = some next → (fun _ : System Store Progress => True) next := fun _ _ _ _ _ => trivial
  refine path.always_exact trivial unowned steady ?_
  intro before action next _ owned taken
  exact owned_exact owned taken

def twoUsers : System Store Progress := start ["ana","ben"] ∅ ∅

-- Ana creates the project and makes Ben an owner of it.
def sharedProject : List (Nat × Input) :=
  [(0,.arrive (.createProject "ana" ⟨"Tower",none,none⟩)),(0,.answer "tower"),(0,.answer ""),
    (1,.arrive (.addMember "ana" "tower" ⟨"ben",some "owner"⟩)),(1,.answer ""),(1,.answer ""),(1,.answer ""),(1,.answer "")]

-- Then each demotes the other: both count two owners before either writes.
def mutualDemotion : List (Nat × Input) := sharedProject ++
  [(2,.arrive (.addMember "ana" "tower" ⟨"ben",none⟩)),(3,.arrive (.addMember "ben" "tower" ⟨"ana",none⟩)),
    (2,.answer ""),(3,.answer ""),(2,.answer ""),(3,.answer ""),(2,.answer ""),(3,.answer ""),(2,.answer ""),(3,.answer "")]

theorem mutual_demotion_orphans : ∃ after, exec (step advance) twoUsers mutualDemotion = some after ∧ ¬Owned after.store := by
  refine ⟨_,rfl,fun owned => ?_⟩
  obtain ⟨userId,found⟩ := owned "tower" List.mem_cons_self
  have lesser : ∀ row ∈ ((exec (step advance) twoUsers mutualDemotion).map fun after => after.store.acl.entries).getD [],
      row.2 ≠ "owner" := by decide
  exact lesser _ ((mem_entries_iff _).mpr found) rfl

-- One demotion alone.
def demotion : List (Nat × Input) :=
  [(2,.arrive (.addMember "ana" "tower" ⟨"ben",none⟩)),(2,.answer ""),(2,.answer ""),(2,.answer ""),(2,.answer "")]

theorem demotion_timely : ∃ after, RunsWhere (step advance) Timely twoUsers (sharedProject ++ demotion) after := by
  refine ⟨_,.cons trivial rfl (.cons trivial rfl (.cons trivial rfl (.cons trivial rfl (.cons trivial rfl (.cons trivial rfl
    (.cons (fun lesser => absurd rfl lesser) rfl (.cons trivial rfl (.cons trivial rfl (.cons trivial rfl (.cons trivial rfl
      (.cons trivial rfl (.cons ?_ rfl .nil))))))))))))⟩
  exact fun _ _ => ⟨"ana",by decide,by decide⟩

theorem owners_kept_exactly_demotion : ∃ after, exec (step advance) twoUsers (sharedProject ++ demotion) = some after ∧
    Owned after.store := by
  obtain ⟨after,path⟩ := demotion_timely
  have kept := (owners_kept_exactly path.runs).mpr path
  exact ⟨after,exec_exact.mpr path.runs,kept _ _ (List.prefix_refl _) path.runs⟩

end AlineaCopilot.ProjectMembers
