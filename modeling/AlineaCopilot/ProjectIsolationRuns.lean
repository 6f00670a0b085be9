import AlineaCopilot.ProjectIsolation
import AlineaCopilot.TransitionRuns
open AlineaCopilot.KeyedMaps AlineaCopilot.StatefulPrograms AlineaCopilot.TransitionRuns

namespace AlineaCopilot.ProjectIsolation
open ProjectTasks (TaskRow Store Sound Blank)
open ProjectMembers (AclKey userKey Progress)
open ProjectWorkspace

-- What a user outside a project may find: its row, its members, its tasks and
-- what belongs to them, as they were.
structure AccessUntouched (a b : ProjectMembers.Store) (projectId : String) : Prop where
  project : b.projects.lookup projectId = a.projects.lookup projectId
  members : ∀ key : AclKey, key.resourceType = "project" → key.resourceId = projectId → b.acl.lookup key = a.acl.lookup key

structure Untouched (w next : Workspace) (projectId : String) : Prop where
  access : AccessUntouched w.access next.access projectId
  tasks : ∀ id (row : TaskRow), row.projectId = projectId →
    (next.board.tasks.lookup id = some row ↔ w.board.tasks.lookup id = some row)
  handoffs : ∀ id (row : TaskRow), w.board.tasks.lookup id = some row → row.projectId = projectId →
    logOf next.board id = logOf w.board id
  artifacts : ∀ id (row : TaskRow), w.board.tasks.lookup id = some row → row.projectId = projectId →
    next.artifacts.filter (fun artifact => artifact.taskId = id) = w.artifacts.filter fun artifact => artifact.taskId = id

def Isolated (w : Workspace) (request : Request) (next : Workspace) : Prop :=
  ∀ projectId, w.access.projects.lookup projectId ≠ none → w.access.getPerm projectId request.user = none →
    Untouched w next projectId

-- A task that `create_task` accepts depends on tasks of its project alone.
def SameProject (w : Workspace) : Request → Prop
  | .board (.createTask freshId current projectId req) => Accepted w.tables freshId current projectId req →
      ∀ d ∈ req.dependsOn, ∀ row, w.board.tasks.lookup d = some row → row.projectId = projectId
  | _ => True

section Access
variable {store next : ProjectMembers.Store} {progress later : Progress} {freshId projectId : String}

-- The project whose rows a request goes on to write.
def scope (freshId : String) : Progress → Option String
  | .idle | .returned _ => none
  | .creating _ _ => some freshId
  | .enrolling _ row => some row.id
  | .authorizingAdd _ projectId _ | .finding projectId _ _ | .counting projectId _ _ | .granting projectId _ _
  | .authorizingRemove _ projectId _ | .revoking projectId _ | .explaining projectId _ | .listing projectId => some projectId

theorem AccessUntouched.refl (store : ProjectMembers.Store) (projectId : String) : AccessUntouched store store projectId :=
  ⟨rfl,fun _ _ _ => rfl⟩

theorem AccessUntouched.trans (first : AccessUntouched a b projectId) (second : AccessUntouched b c projectId) :
    AccessUntouched a c projectId :=
  ⟨second.project.trans first.project,fun key type id => (second.members key type id).trans (first.members key type id)⟩

theorem untouched_grant (other : home ≠ projectId) : AccessUntouched store (store.grant home userId perm) projectId := by
  refine ⟨rfl,fun key _ id => AList.lookup_insert_ne ?_⟩
  rintro rfl
  exact other id

theorem untouched_revoke (other : home ≠ projectId) (revoked : store.tryRevokeProjectMember home userId = some next) :
    AccessUntouched store next projectId := by
  unfold ProjectMembers.Store.tryRevokeProjectMember at revoked
  split at revoked
  · cases revoked
  · split at revoked
    · cases revoked
      refine ⟨rfl,fun key _ id => AList.lookup_erase_ne ?_⟩
      rintro rfl
      exact other id
    · cases revoked

theorem scope_requireOwner (perm : Option String) (later : Progress) (other : scope freshId later ≠ some projectId) :
    scope freshId (ProjectMembers.requireOwner perm later) ≠ some projectId := by
  unfold ProjectMembers.requireOwner
  split
  · rintro ⟨⟩
  · split
    · rintro ⟨⟩
    · exact other

-- A call writes to the project of its request only.
theorem serve_apart (served : ProjectMembers.serve store freshId progress = some (next,later))
    (other : scope freshId progress ≠ some projectId) :
    AccessUntouched store next projectId ∧ scope freshId later ≠ some projectId := by
  cases progress with
  | idle | returned => cases served
  | creating current params =>
    cases served
    have apart : projectId ≠ freshId := fun same => other (congrArg some same.symm)
    exact ⟨⟨AList.lookup_insert_ne apart,fun _ _ _ => rfl⟩,other⟩
  | enrolling current row =>
    cases served
    have granted : AccessUntouched store (store.grant row.id current "owner") projectId :=
      untouched_grant fun same => other (congrArg some same)
    exact ⟨⟨granted.project,granted.members⟩,by rintro ⟨⟩⟩
  | granting home target perm =>
    cases served
    exact ⟨untouched_grant fun same => other (congrArg some same),other⟩
  | listing home =>
    cases served
    exact ⟨.refl ..,by rintro ⟨⟩⟩
  | authorizingAdd current home req =>
    cases served
    refine ⟨.refl ..,scope_requireOwner _ _ ?_⟩
    unfold ProjectMembers.checkAddition
    simp only
    split
    · rintro ⟨⟩
    · split
      · rintro ⟨⟩
      · exact other
  | finding home target perm =>
    simp only [ProjectMembers.serve] at served
    split at served
    · cases served
      exact ⟨.refl ..,by rintro ⟨⟩⟩
    · split at served <;> cases served <;> exact ⟨.refl ..,other⟩
  | counting home target perm =>
    cases served
    refine ⟨.refl ..,?_⟩
    unfold ProjectMembers.checkDemotion
    simp only
    split
    · rintro ⟨⟩
    · exact other
  | authorizingRemove current home userId =>
    cases served
    exact ⟨.refl ..,scope_requireOwner _ _ other⟩
  | revoking home userId =>
    simp only [ProjectMembers.serve] at served
    split at served
    · rename_i revoked
      cases served
      exact ⟨untouched_revoke (fun same => other (congrArg some same)) revoked,other⟩
    · cases served
      exact ⟨.refl ..,other⟩
  | explaining home userId =>
    simp only [ProjectMembers.serve] at served
    split at served <;> cases served
    · exact ⟨.refl ..,by rintro ⟨⟩⟩
    · exact ⟨.refl ..,other⟩

theorem settle_apart (other : scope freshId progress ≠ some projectId) (calls : Nat) :
    AccessUntouched store (settle freshId calls store progress).1 projectId := by
  induction calls generalizing store progress with
  | zero => exact .refl ..
  | succ calls ih =>
    unfold settle
    cases served : ProjectMembers.serve store freshId progress with
    | none => exact .refl ..
    | some pair =>
      obtain ⟨untouched,apart⟩ := serve_apart served other
      exact untouched.trans (ih apart)

-- A user who is not a member is refused at the first call.
theorem settle_stranger (stranger : store.getPerm home current = none) (calls : Nat) (later : Progress)
    (first : ProjectMembers.serve store freshId progress =
      some (store,ProjectMembers.requireOwner (store.getPerm home current) later)) :
    (settle freshId calls store progress).1 = store := by
  cases calls with
  | zero => rfl
  | succ calls =>
    unfold settle
    rw [first,stranger]
    cases calls <;> rfl

theorem handleMembers_apart (request : ProjectMembers.Request)
    (other : scope freshId (ProjectMembers.arrive request) ≠ some projectId) :
    AccessUntouched store (handleMembers freshId store request) projectId := by
  unfold handleMembers
  exact settle_apart other _

end Access

section Requests
variable {w next : Workspace} {current projectId : String}

theorem Untouched.refl (w : Workspace) (projectId : String) : Untouched w w projectId :=
  ⟨.refl ..,fun _ _ _ => Iff.rfl,fun _ _ _ _ => rfl,fun _ _ _ _ => rfl⟩

-- What the task handlers did with the tables they see, seen in the whole.
theorem Reaches.untouched {t : Store} (reaches : Reaches w.tables current t) (stranger : w.access.getPerm projectId current = none) :
    Untouched w { w with board := t } projectId := by
  rcases reaches with rfl | ⟨home,perm,member,inside⟩
  · exact ⟨.refl ..,fun _ _ _ => Iff.rfl,fun _ _ _ _ => rfl,fun _ _ _ _ => rfl⟩
  · have other : projectId ≠ home := by
      rintro rfl
      have found : w.access.getPerm projectId current = some perm := (lookup_memberships ..).symm.trans member
      cases stranger.symm.trans found
    refine ⟨.refl ..,fun id row own => inside.rows id row (own ▸ other),fun id row there own => ?_,fun _ _ _ _ => rfl⟩
    exact inside.logs id row there (own ▸ other)

theorem tables_sound (sound : Sound w.board) : Sound w.tables := ⟨sound.keyed,sound.parents,sound.edges⟩

theorem tables_within (within : EdgesWithin w.board) : EdgesWithin w.tables := ⟨within.dependencies,within.parents⟩

theorem board_reaches (sound : Sound w.board) (within : EdgesWithin w.board) (request : ProjectTasks.Request)
    (allowed : SameProject w (.board request)) :
    Reaches w.tables (boardUser request) (ProjectTasks.answer w.tables request) := by
  have sound := tables_sound sound
  have within := tables_within within
  cases request with
  | createTask freshId current projectId req => exact reaches_create sound within freshId current projectId req allowed
  | updateTask current id req => exact reaches_update sound within current id req
  | transitionTask current id action => exact reaches_transition sound within current id action
  | instantiatePipeline freshIds current projectId templateId =>
    exact reaches_pipeline sound within freshIds current projectId templateId

theorem members_isolated (freshId : String) (request : ProjectMembers.Request)
    (fresh : (Request.members freshId request).fresh w = true) :
    Isolated w (.members freshId request) (answer w (.members freshId request)) := by
  intro projectId present stranger
  refine ⟨?_,fun _ _ _ => Iff.rfl,fun _ _ _ _ => rfl,fun _ _ _ _ => rfl⟩
  change AccessUntouched w.access (handleMembers freshId w.access request) projectId
  cases request with
  | createProject current req =>
    have apart : freshId ≠ projectId := by
      rintro rfl
      exact present (Option.isNone_iff_eq_none.mp fresh)
    have other : scope freshId (ProjectMembers.arrive (.createProject current req)) ≠ some projectId := by
      unfold ProjectMembers.arrive
      simp only
      split
      · exact (Option.some_ne_none _).symm
      · exact fun same => apart (Option.some.inj same)
    exact handleMembers_apart _ other
  | addMember current home req =>
    by_cases own : home = projectId
    · subst own
      have first : ProjectMembers.serve w.access freshId (.authorizingAdd current home req) = some (w.access,
          ProjectMembers.requireOwner (w.access.getPerm home current) (ProjectMembers.checkAddition home req)) := rfl
      have same : handleMembers freshId w.access (.addMember current home req) = w.access :=
        settle_stranger stranger 5 _ first
      rw [same]
      exact .refl ..
    · have other : scope freshId (.authorizingAdd current home req) ≠ some projectId := fun same => own (Option.some.inj same)
      exact handleMembers_apart (.addMember current home req) other
  | removeMember current home userId =>
    by_cases own : home = projectId
    · subst own
      have first : ProjectMembers.serve w.access freshId (.authorizingRemove current home userId) = some (w.access,
          ProjectMembers.requireOwner (w.access.getPerm home current) (.revoking home userId)) := rfl
      have same : handleMembers freshId w.access (.removeMember current home userId) = w.access :=
        settle_stranger stranger 4 _ first
      rw [same]
      exact .refl ..
    · have other : scope freshId (.authorizingRemove current home userId) ≠ some projectId :=
        fun same => own (Option.some.inj same)
      exact handleMembers_apart (.removeMember current home userId) other

theorem requireOwner_cases (s : Store) (id userId : String) :
    (∃ error, perform (ProjectTasks.requireOwner id userId) s = (.error error,s)) ∨
    (∃ perm, s.members.lookup (id,userId) = some perm) ∧ perform (ProjectTasks.requireOwner id userId) s = (.ok ⟨⟩,s) := by
  unfold ProjectTasks.requireOwner
  rw [perform_bind]
  rcases requireMember_cases s id userId with ⟨_,error,refused⟩ | ⟨perm,member,passed⟩
  · rw [refused]
    exact .inl ⟨error,rfl⟩
  · rw [passed]
    by_cases owner : perm = "owner"
    · exact .inr ⟨⟨perm,member⟩,by simp [owner]⟩
    · exact .inl ⟨_,by simp [owner]; rfl⟩

theorem Untouched.trans (first : Untouched w middle projectId) (second : Untouched middle next projectId) :
    Untouched w next projectId := by
  refine ⟨first.access.trans second.access,fun id row own => (second.tasks id row own).trans (first.tasks id row own),
    fun id row there own => ?_,fun id row there own => ?_⟩
  · exact (second.handoffs id row ((first.tasks id row own).mpr there) own).trans (first.handoffs id row there own)
  · exact (second.artifacts id row ((first.tasks id row own).mpr there) own).trans (first.artifacts id row there own)

theorem untouched_synced (w : Workspace) (projectId : String) : Untouched w { w with board := w.tables } projectId :=
  ⟨.refl ..,fun _ _ _ => Iff.rfl,fun _ _ _ _ => rfl,fun _ _ _ _ => rfl⟩

-- An edit writes the row of its own project.
theorem edit_untouched (id : String) (req : ProjectUpdate) (other : projectId ≠ id) :
    Untouched w (perform (editProject id req) w).2 projectId := by
  unfold editProject
  split
  · exact .refl ..
  · simp only [perform_bind,perform_get]
    cases w.access.projects.lookup id with
    | none => exact .refl ..
    | some row => exact ⟨⟨AList.lookup_insert_ne other,fun _ _ _ => rfl⟩,fun _ _ _ => Iff.rfl,fun _ _ _ _ => rfl,fun _ _ _ _ => rfl⟩

theorem getProject_same (id : String) (w : Workspace) : (perform (getProject id) w).2 = w := by
  simp only [getProject,perform_bind,perform_get]
  cases w.access.projects.lookup id <;> rfl

theorem update_isolated (current id : String) (req : ProjectUpdate) :
    Isolated w (.updateProject current id req) (answer w (.updateProject current id req)) := by
  intro projectId _ stranger
  simp only [answer,updateProject]
  rw [perform_bind,perform_onTables]
  rcases requireOwner_cases w.tables id current with ⟨error,refused⟩ | ⟨⟨perm,member⟩,passed⟩
  · rw [refused]
    exact untouched_synced w projectId
  · rw [passed]
    have other : projectId ≠ id := by
      rintro rfl
      have found : w.access.getPerm projectId current = some perm := (lookup_memberships ..).symm.trans member
      cases stranger.symm.trans found
    refine (untouched_synced w projectId).trans ?_
    simp only
    split
    · exact .refl ..
    · rw [perform_bind]
      have edited := edit_untouched (w := { w with board := w.tables }) id req other
      cases outcome : perform (editProject id req) { w with board := w.tables } with
      | mk result after =>
        rw [outcome] at edited
        cases result with
        | error error => exact edited
        | ok _ =>
          simp only [getProject_same]
          exact edited

theorem insertArtifact_cases (row : TaskArtifactRow) (w : Workspace) :
    (perform (insertArtifact row) w).2 = w ∨
      (perform (insertArtifact row) w).2 = { w with artifacts := w.artifacts ++ [row] } := by
  simp only [insertArtifact,perform_bind,perform_get]
  split
  · exact .inl rfl
  · exact .inr rfl

theorem artifact_isolated (freshId current id : String) (req : AddArtifactRequest) :
    Isolated w (.addArtifact freshId current id req) (answer w (.addArtifact freshId current id req)) := by
  intro projectId _ stranger
  simp only [answer,addArtifact]
  rw [perform_bind,perform_onTables]
  rcases requireTaskMember_cases w.tables id current with ⟨error,refused⟩ | ⟨task,perm,found,member,passed⟩
  · rw [refused]
    exact untouched_synced w projectId
  · rw [passed]
    refine (untouched_synced w projectId).trans ?_
    simp only
    split
    · exact .refl ..
    · rcases insertArtifact_cases ⟨freshId,id,req.kind,req.uri,req.title,current⟩ { w with board := w.tables } with
        same | added
      · rw [same]
        exact .refl ..
      · rw [added]
        refine ⟨.refl ..,fun _ _ _ => Iff.rfl,fun _ _ _ _ => rfl,fun k row there own => ?_⟩
        -- The task of the artifact is of a project that the user is a member of.
        have apart : id ≠ k := by
          rintro rfl
          cases found.symm.trans there
          have granted : w.access.getPerm task.projectId current = some perm := (lookup_memberships ..).symm.trans member
          rw [own] at granted
          cases stranger.symm.trans granted
        simp [apart]

end Requests

section Runs
variable {w next origin final : Workspace} {request : Request}

theorem serve_answer (served : serve w request = some next) : request.fresh w = true ∧ next = answer w request := by
  unfold serve at served
  split at served
  · rename_i fresh
    exact ⟨fresh,(Option.some.inj served).symm⟩
  · cases served

-- A request that meets the condition stays within the projects of its user.
theorem serve_isolated (sound : Sound w.board) (within : EdgesWithin w.board) (allowed : SameProject w request)
    (served : serve w request = some next) : Isolated w request next := by
  obtain ⟨fresh,rfl⟩ := serve_answer served
  cases request with
  | board request =>
    intro projectId _ stranger
    exact (board_reaches sound within request allowed).untouched stranger
  | members freshId request => exact members_isolated freshId request fresh
  | updateProject current id req => exact update_isolated current id req
  | addArtifact freshId current id req => exact artifact_isolated freshId current id req

-- The tables of the tasks and their edges are the same.
def SameBoard (w next : Workspace) : Prop :=
  next.board.tasks = w.board.tasks ∧ next.board.dependencies = w.board.dependencies

theorem SameBoard.sound (same : SameBoard w next) (sound : Sound w.board) : Sound next.board := by
  obtain ⟨tasks,dependencies⟩ := same
  constructor
  · rw [tasks]
    exact sound.keyed
  · rw [tasks]
    exact sound.parents
  · rw [tasks,dependencies]
    exact sound.edges

theorem SameBoard.within (same : SameBoard w next) (within : EdgesWithin w.board) : EdgesWithin next.board := by
  obtain ⟨tasks,dependencies⟩ := same
  constructor
  · rw [tasks,dependencies]
    exact within.dependencies
  · rw [tasks]
    exact within.parents

theorem edit_board (id : String) (req : ProjectUpdate) (w : Workspace) : SameBoard w (perform (editProject id req) w).2 := by
  unfold editProject
  split
  · exact ⟨rfl,rfl⟩
  · simp only [perform_bind,perform_get]
    cases w.access.projects.lookup id <;> exact ⟨rfl,rfl⟩

theorem update_board (current id : String) (req : ProjectUpdate) :
    SameBoard w (perform (updateProject current id req) w).2 := by
  unfold updateProject
  rw [perform_bind,perform_onTables]
  rcases requireOwner_cases w.tables id current with ⟨error,refused⟩ | ⟨_,passed⟩
  · rw [refused]
    exact ⟨rfl,rfl⟩
  · rw [passed]
    simp only
    split
    · exact ⟨rfl,rfl⟩
    · rw [perform_bind]
      have edited := edit_board id req { w with board := w.tables }
      cases outcome : perform (editProject id req) { w with board := w.tables } with
      | mk result after =>
        rw [outcome] at edited
        cases result with
        | error error => exact edited
        | ok _ =>
          simp only [getProject_same]
          exact edited

theorem artifact_board (freshId current id : String) (req : AddArtifactRequest) :
    SameBoard w (perform (addArtifact freshId current id req) w).2 := by
  unfold addArtifact
  rw [perform_bind,perform_onTables]
  rcases requireTaskMember_cases w.tables id current with ⟨error,refused⟩ | ⟨task,perm,_,_,passed⟩
  · rw [refused]
    exact ⟨rfl,rfl⟩
  · rw [passed]
    simp only
    split
    · exact ⟨rfl,rfl⟩
    · rcases insertArtifact_cases ⟨freshId,id,req.kind,req.uri,req.title,current⟩ { w with board := w.tables } with
        same | added
      · rw [same]
        exact ⟨rfl,rfl⟩
      · rw [added]
        exact ⟨rfl,rfl⟩

theorem serve_sound (sound : Sound w.board) (served : serve w request = some next) : Sound next.board := by
  obtain ⟨_,rfl⟩ := serve_answer served
  cases request with
  | board inner =>
    have served : ProjectTasks.serve w.tables inner = some (answer w (.board inner)).board := rfl
    exact ProjectTasks.sound_served (tables_sound sound) served
  | members => exact sound
  | updateProject current id req => exact (update_board current id req).sound sound
  | addArtifact freshId current id req => exact (artifact_board freshId current id req).sound sound

-- The edges stay within projects exactly when the request meets the condition.
theorem within_exact (sound : Sound w.board) (within : EdgesWithin w.board) (served : serve w request = some next) :
    EdgesWithin next.board ↔ SameProject w request := by
  obtain ⟨_,rfl⟩ := serve_answer served
  have kept : ∀ inner, SameProject w (.board inner) → EdgesWithin (answer w (.board inner)).board := by
    intro inner allowed
    rcases board_reaches sound within inner allowed with same | ⟨_,_,_,inside⟩
    · have tables : (answer w (.board inner)).board = w.tables := same
      rw [tables]
      exact tables_within within
    · exact inside.within
  cases request with
  | board inner =>
    refine ⟨fun after => ?_,kept inner⟩
    cases inner with
    | createTask freshId current projectId req => exact fun accepted => create_local (s := w.tables) accepted after
    | updateTask | transitionTask | instantiatePipeline => exact True.intro
  | members => exact iff_of_true within True.intro
  | updateProject current id req => exact iff_of_true ((update_board current id req).within within) True.intro
  | addArtifact freshId current id req =>
    exact iff_of_true ((artifact_board freshId current id req).within within) True.intro

theorem projects_isolated_exactly (blank : Blank origin.board) (path : Runs serve origin requests final) :
    (∀ earlier request between next, earlier ++ [request] <+: requests → Runs serve origin earlier between →
      serve between request = some next → Isolated between request next ∧ EdgesWithin next.board) ↔
    RunsWhere serve SameProject origin requests final := by
  let whole : Workspace → Prop := fun w => Sound w.board
  let holds : Workspace → Prop := fun w => EdgesWithin w.board
  have start_whole : whole origin := blank.sound
  have start : holds origin := by
    obtain ⟨tasks,dependencies⟩ := blank
    refine ⟨?_,?_⟩ <;> simp [tasks,dependencies]
  have keeps : ∀ w request next, whole w → serve w request = some next → whole next :=
    fun _ _ _ sound served => serve_sound sound served
  have exact_step : ∀ w request next, whole w → holds w → serve w request = some next → (holds next ↔ SameProject w request) :=
    fun _ _ _ sound within served => within_exact sound within served
  have always := Runs.always_exact start_whole start keeps exact_step path
  constructor
  · intro property
    refine always.mp fun earlier between inside prior => ?_
    rcases List.eq_nil_or_concat earlier with rfl | ⟨before,request,rfl⟩
    · cases prior.nil_inv
      exact start
    · rw [List.concat_eq_append] at inside prior
      obtain ⟨middle,early,served⟩ := prior.snoc_inv
      exact (property before request middle between inside early served).2
  · intro allowed earlier request between next inside prior served
    have sound : whole between := prior.invariant start_whole keeps
    have within := always.mpr allowed earlier between ((List.prefix_append _ _).trans inside) prior
    have meets := allowed.at_step inside prior
    exact ⟨serve_isolated sound within meets served,(within_exact sound within served).mpr meets⟩

def twoProjects : Workspace where
  access :=
    { users := ["ana","bo"]
      projects := (AList.singleton "torre" ⟨"torre","Torre",none,"generico","active","ana"⟩).insert "nave"
        ⟨"nave","Nave",none,"generico","active","bo"⟩
      acl := (AList.singleton (userKey "torre" "ana") "owner").insert (userKey "nave" "bo") "owner"
      created := [] }
  board := ⟨[],∅,∅,∅,[],[]⟩
  artifacts := []

def acrossProjects : List Request := [
  .board (.createTask "plan" "ana" "torre" { title := "Plan", requiresHumanReview := false }),
  .board (.createTask "obra" "bo" "nave" { title := "Obra", dependsOn := ["plan"] }),
  .board (.transitionTask "ana" "plan" "start")]

-- Submitting a task of one project frees a task of another, of which the user is
-- not a member.
theorem submission_frees_elsewhere : ∃ before after, exec serve twoProjects acrossProjects = some before ∧
    serve before (.board (.transitionTask "ana" "plan" "submit")) = some after ∧
    ¬Isolated before (.board (.transitionTask "ana" "plan" "submit")) after := by
  refine ⟨_,_,rfl,rfl,fun isolated => ?_⟩
  have untouched := isolated "nave" (by decide) rfl
  have same := (untouched.tasks "obra" ⟨"obra","nave",none,"Obra",none,"human",none,.blocked,true,none,0,"bo"⟩ rfl).mpr rfl
  exact absurd same (by decide)

def withinProjects : List Request := [
  .board (.createTask "plan" "ana" "torre" { title := "Plan" }),
  .board (.createTask "obra" "ana" "torre" { title := "Obra", dependsOn := ["plan"] }),
  .board (.transitionTask "ana" "plan" "start")]

theorem projects_isolated_within : ∃ final, exec serve twoProjects withinProjects = some final ∧
    ((∀ earlier request between next, earlier ++ [request] <+: withinProjects → Runs serve twoProjects earlier between →
      serve between request = some next → Isolated between request next ∧ EdgesWithin next.board) ↔
    RunsWhere serve SameProject twoProjects withinProjects final) :=
  ⟨_,rfl,projects_isolated_exactly ⟨rfl,rfl⟩ (exec_exact.mp rfl)⟩

end Runs

end AlineaCopilot.ProjectIsolation
