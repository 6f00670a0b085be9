import AlineaCopilot.ProjectTaskUpkeep
import AlineaCopilot.ProjectWorkspace
open AlineaCopilot.KeyedMaps AlineaCopilot.StatefulPrograms

namespace AlineaCopilot.ProjectIsolation
open ProjectTasks

-- Every dependency and every parent is a task of the same project.
structure EdgesWithin (store : Store) : Prop where
  dependencies : ∀ k d one two, (k,d) ∈ store.dependencies → store.tasks.lookup k = some one →
    store.tasks.lookup d = some two → one.projectId = two.projectId
  parents : ∀ k row parent above, store.tasks.lookup k = some row → row.parentTaskId = some parent →
    store.tasks.lookup parent = some above → above.projectId = row.projectId

def logOf (store : Store) (taskId : String) : List NewHandoff := store.handoffs.filter fun entry => entry.taskId = taskId

-- Between `s` and `t` only tasks of one project were written. The `known` ids
-- are those a program goes on to write to.
structure Inside (s : Store) (home : String) (known : String → Prop) (t : Store) : Prop where
  sound : Sound t
  within : EdgesWithin t
  rows : ∀ k row, row.projectId ≠ home → (t.tasks.lookup k = some row ↔ s.tasks.lookup k = some row)
  logs : ∀ k row, s.tasks.lookup k = some row → row.projectId ≠ home → logOf t k = logOf s k
  known : ∀ k row, known k → t.tasks.lookup k = some row → row.projectId = home

section Writes
variable {s t : Store} {home : String} {known more : String → Prop}

theorem Inside.refl (sound : Sound s) (within : EdgesWithin s)
    (own : ∀ k row, known k → s.tasks.lookup k = some row → row.projectId = home) : Inside s home known s :=
  ⟨sound,within,fun _ _ _ => Iff.rfl,fun _ _ _ _ => rfl,own⟩

theorem Inside.know (inside : Inside s home known t)
    (own : ∀ k row, more k → t.tasks.lookup k = some row → row.projectId = home) : Inside s home more t :=
  { inside with known := own }

-- A row of the project is replaced by one with the same id, project and parent.
theorem Inside.replace (inside : Inside s home known t) (found : t.tasks.lookup k = some old) (own : old.projectId = home)
    {new : TaskRow} (same : new.id = old.id ∧ new.projectId = old.projectId ∧ new.parentTaskId = old.parentTaskId) :
    Inside s home known { t with tasks := t.tasks.insert k new } := by
  -- Every row of the new table stands for an old one of its id, project and parent.
  have back : ∀ j row, (t.tasks.insert k new).lookup j = some row → ∃ before, t.tasks.lookup j = some before ∧
      row.id = before.id ∧ row.projectId = before.projectId ∧ row.parentTaskId = before.parentTaskId := by
    intro j row there
    rw [lookup_insert_eq] at there
    split at there
    · rename_i here
      cases Option.some.inj there
      exact ⟨old,by rw [here,found],same⟩
    · exact ⟨row,there,rfl,rfl,rfl⟩
  have stands : ∀ j row, t.tasks.lookup j = some row → ∃ after, (t.tasks.insert k new).lookup j = some after := by
    intro j row there
    rw [lookup_insert_eq]
    split
    · exact ⟨new,rfl⟩
    · exact ⟨row,there⟩
  refine ⟨⟨fun j row there => ?_,fun j row parent there under => ?_,fun j d edge => ?_⟩,
    ⟨fun j d one two edge here there => ?_,fun j row parent above here under there => ?_⟩,fun j row other => ?_,inside.logs,
    fun j row is there => ?_⟩
  · obtain ⟨before,standing,id,_,_⟩ := back j row there
    exact id.trans (inside.sound.keyed j before standing)
  · obtain ⟨before,standing,_,_,parents⟩ := back j row there
    obtain ⟨apart,upper,present⟩ := inside.sound.parents j before parent standing (parents ▸ under)
    exact ⟨apart,stands parent upper present⟩
  · obtain ⟨⟨one,here⟩,⟨two,there⟩⟩ := inside.sound.edges j d edge
    exact ⟨stands j one here,stands d two there⟩
  · obtain ⟨first,standing,_,project,_⟩ := back j one here
    obtain ⟨second,present,_,also,_⟩ := back d two there
    rw [project,also]
    exact inside.within.dependencies j d first second edge standing present
  · obtain ⟨child,standing,_,project,parents⟩ := back j row here
    obtain ⟨upper,present,_,also,_⟩ := back parent above there
    rw [project,also]
    exact inside.within.parents j child parent upper standing (parents ▸ under) present
  · rw [← inside.rows j row other]
    change (t.tasks.insert k new).lookup j = some row ↔ _
    rw [lookup_insert_eq]
    split
    · rename_i here
      subst here
      refine iff_of_false ?_ ?_
      · rintro ⟨⟩
        exact other (same.2.1.trans own)
      · intro there
        rw [found] at there
        cases there
        exact other own
    · exact Iff.rfl
  · obtain ⟨before,standing,_,project,_⟩ := back j row there
    exact project.trans (inside.known j before is standing)

theorem Inside.insert (inside : Inside s home known t) (checked : t.constraintFailure freshId params = none)
    (own : params.projectId = home)
    (parent : ∀ p row, params.parentTaskId = some p → t.tasks.lookup p = some row → row.projectId = home)
    (deps : ∀ d row, d ∈ params.dependsOn → t.tasks.lookup d = some row → row.projectId = home) :
    Inside s home known (t.insertTask freshId params) := by
  obtain ⟨fresh,_,parent_there,deps_there⟩ := constraintFailure_none.mp checked
  have kept : ∀ k row, t.tasks.lookup k = some row → (t.insertTask freshId params).tasks.lookup k = some row := by
    intro k row found
    have other : k ≠ freshId := by rintro rfl; simp [fresh] at found
    rw [insertTask_lookup,if_neg other,found]
  have made : (t.insertTask freshId params).tasks.lookup freshId = some (params.row freshId) := by
    rw [insertTask_lookup,if_pos rfl]
  have old_or_made : ∀ k row, (t.insertTask freshId params).tasks.lookup k = some row →
      (k = freshId ∧ row = params.row freshId) ∨ t.tasks.lookup k = some row := by
    intro k row found
    rw [insertTask_lookup] at found
    split at found
    · rename_i here
      exact .inl ⟨here,(Option.some.inj found).symm⟩
    · exact .inr found
  refine ⟨sound_maintained.insert t freshId params inside.sound checked,⟨fun k d one two edge here there => ?_,
    fun k row above upper here under there => ?_⟩,fun k row other => ?_,inside.logs,fun k row is there => ?_⟩
  · rcases mem_insertTask.mp edge with old | ⟨rfl,member⟩
    · obtain ⟨⟨first,standing⟩,⟨second,present⟩⟩ := inside.sound.edges k d old
      rw [kept k first standing] at here
      rw [kept d second present] at there
      cases here
      cases there
      exact inside.within.dependencies k d _ _ old standing present
    · obtain ⟨dep,present⟩ := deps_there d member
      rw [made] at here
      rw [kept d dep present] at there
      cases here
      cases there
      exact own.trans (deps d _ member present).symm
  · rcases old_or_made k row here with ⟨rfl,rfl⟩ | standing
    · obtain ⟨upper_row,present⟩ := parent_there above under
      rw [kept above upper_row present] at there
      cases there
      exact (parent above _ under present).trans own.symm
    · obtain ⟨_,upper_row,present⟩ := inside.sound.parents k row above standing under
      rw [kept above upper_row present] at there
      cases there
      exact inside.within.parents k row above _ standing under present
  · rw [← inside.rows k row other]
    constructor
    · intro found
      rcases old_or_made k row found with ⟨_,rfl⟩ | standing
      · exact absurd own other
      · exact standing
    · exact kept k row
  · rcases old_or_made k row there with ⟨_,rfl⟩ | standing
    · exact own
    · exact inside.known k row is standing

theorem Inside.edge (inside : Inside s home known t) (one : known k) (two : known d)
    (here : ∃ row, t.tasks.lookup k = some row) (there : ∃ row, t.tasks.lookup d = some row) :
    Inside s home known { t with dependencies := t.dependencies ++ [(k,d)] } := by
  refine ⟨⟨inside.sound.keyed,inside.sound.parents,fun j e edge => ?_⟩,⟨fun j e first second edge found present => ?_,
    inside.within.parents⟩,inside.rows,inside.logs,inside.known⟩
  · rcases List.mem_append.mp edge with old | new
    · exact inside.sound.edges j e old
    · cases List.mem_singleton.mp new
      exact ⟨here,there⟩
  · rcases List.mem_append.mp edge with old | new
    · exact inside.within.dependencies j e first second old found present
    · cases List.mem_singleton.mp new
      exact (inside.known k first one found).trans (inside.known d second two present).symm

theorem Inside.log (inside : Inside s home known t) (entry : NewHandoff) (own : known entry.taskId) :
    Inside s home known { t with handoffs := t.handoffs ++ [entry] } := by
  refine ⟨⟨inside.sound.keyed,inside.sound.parents,inside.sound.edges⟩,
    ⟨inside.within.dependencies,inside.within.parents⟩,inside.rows,fun k row found other => ?_,inside.known⟩
  have apart : entry.taskId ≠ k := by
    rintro rfl
    exact other (inside.known _ row own ((inside.rows _ row other).mpr found))
  rw [← inside.logs k row found other]
  simp [logOf,apart]

end Writes

section Programs
variable {s t : Store} {home : String} {known more : String → Prop}

theorem keeps_modifyTask (own : known k) (change : TaskRow → TaskRow)
    (same : ∀ row, (change row).id = row.id ∧ (change row).projectId = row.projectId ∧
      (change row).parentTaskId = row.parentTaskId) : Keeps (Inside s home known) (modifyTask k change) := by
  refine Keeps.read fun t inside => ?_
  cases found : t.tasks.lookup k with
  | none => exact inside
  | some row => exact inside.replace found (inside.known k row own found) (same row)

theorem keeps_setStatus (own : known k) (status : TaskStatus) : Keeps (Inside s home known) (setStatus k status) :=
  keeps_modifyTask own _ fun _ => ⟨rfl,rfl,rfl⟩

theorem keeps_logHandoff (entry : NewHandoff) (own : known entry.taskId) :
    Keeps (Inside s home known) (logHandoff entry) := fun _ inside => inside.log entry own

theorem keeps_unblockDependent (dep : TaskRow) (own : known dep.id) :
    Keeps (Inside s home known) (unblockDependent dep) := by
  refine Keeps.read fun t inside => ?_
  split
  · exact ((keeps_setStatus own .todo).bind fun _ => keeps_logHandoff _ own) t inside
  · exact inside

-- The dependents of a task of the project are tasks of the project.
theorem keeps_onTaskCompleted (own : known k) : Keeps (Inside s home known) (onTaskCompleted k) := by
  refine Keeps.read fun t inside => ?_
  let listed (id : String) : Prop := known id ∨ ∃ dep ∈ t.dependentsOf k, dep.id = id
  have lists : Inside s home listed t := by
    refine inside.know fun id row is found => ?_
    rcases is with before | ⟨dep,member,rfl⟩
    · exact inside.known id row before found
    · obtain ⟨key,edge,standing⟩ := mem_dependentsOf.mp member
      rw [inside.sound.keyed key dep standing,standing] at found
      cases found
      obtain ⟨_,completed,present⟩ := inside.sound.edges key k edge
      exact (inside.within.dependencies key k _ completed edge standing present).trans
        (inside.known k completed own present)
  have loop : Keeps (Inside s home listed) ((t.dependentsOf k).forM unblockDependent) :=
    Keeps.forM fun dep member => keeps_unblockDependent dep (.inr ⟨dep,member,rfl⟩)
  exact (loop t lists).know fun id row is found => (loop t lists).known id row (.inl is) found

theorem keeps_rollUp (own : known parentId) : Keeps (Inside s home known) (rollUp parentId) := by
  refine Keeps.read fun t inside => ?_
  simp only
  split
  · exact ((keeps_setStatus own .done).bind fun _ => (keeps_logHandoff _ own).bind fun _ => keeps_onTaskCompleted own) t inside
  · exact inside

theorem keeps_propagate (own : known k) (parent : ∀ p, above = some p → known p) (target : TaskStatus) :
    Keeps (Inside s home known) (propagate k above target) := by
  unfold propagate
  split
  · refine (keeps_onTaskCompleted own).bind fun _ => ?_
    cases above with
    | none => exact Keeps.pure _
    | some p => exact keeps_rollUp (parent p rfl)
  · exact Keeps.pure _

theorem keeps_block (own : known k) : Keeps (Inside s home known) (blockIfUnsatisfied k) := by
  refine Keeps.read fun t inside => ?_
  split
  · exact inside
  · exact ((keeps_setStatus own .blocked).bind fun _ => (keeps_logHandoff _ own).bind fun _ => Keeps.pure _) t inside

end Programs

-- What a task request may have done: nothing, or writes within one project that
-- its user is a member of.
def Reaches (s : Store) (userId : String) (t : Store) : Prop :=
  t = s ∨ ∃ home perm, s.members.lookup (home,userId) = some perm ∧ Inside s home (fun _ => False) t

-- The checks of `create_task`, all of them passed.
structure Accepted (s : Store) (freshId current projectId : String) (req : CreateTaskRequest) : Prop where
  member : ∃ perm, s.members.lookup (projectId,current) = some perm
  title : (RustText.trim req.title).isEmpty = false
  assignee : req.assigneeKind = "human" ∨ req.assigneeKind = "agent"
  parent : ∀ p, req.parentTaskId = some p → ∃ row, s.tasks.lookup p = some row ∧ row.projectId = projectId
  fresh : s.tasks.lookup freshId = none
  project : projectId ∈ s.projects
  depends : ∀ d ∈ req.dependsOn, ∃ row, s.tasks.lookup d = some row

def newTask (current projectId : String) (req : CreateTaskRequest) : NewTask :=
  ⟨projectId,req.parentTaskId,RustText.trim req.title,req.instructions,req.assigneeKind,req.assigneeId,
    req.requiresHumanReview,req.producesArtifact,req.orderIndex,current,req.dependsOn⟩

section Requests
variable {s t : Store} {home current : String} {known : String → Prop}

theorem Inside.forget (inside : Inside s home known t) : Inside s home (fun _ => False) t :=
  inside.know fun _ _ impossible => impossible.elim

theorem requireMember_cases (s : Store) (projectId userId : String) :
    (s.members.lookup (projectId,userId) = none ∧ ∃ error, perform (requireMember projectId userId) s = (.error error,s)) ∨
    ∃ perm, s.members.lookup (projectId,userId) = some perm ∧ perform (requireMember projectId userId) s = (.ok perm,s) := by
  simp only [requireMember,perform_bind,perform_get]
  cases s.members.lookup (projectId,userId) with
  | none => exact .inl ⟨rfl,_,rfl⟩
  | some perm => exact .inr ⟨perm,rfl,rfl⟩

theorem requireTaskMember_cases (s : Store) (id userId : String) :
    (∃ error, perform (requireTaskMember id userId) s = (.error error,s)) ∨
    ∃ task perm, s.tasks.lookup id = some task ∧ s.members.lookup (task.projectId,userId) = some perm ∧
      perform (requireTaskMember id userId) s = (.ok task,s) := by
  simp only [requireTaskMember,getTask,perform_bind,perform_get]
  cases found : s.tasks.lookup id with
  | none => exact .inl ⟨_,rfl⟩
  | some task =>
    simp only [perform_pure]
    rcases requireMember_cases s task.projectId userId with ⟨_,error,refused⟩ | ⟨perm,member,passed⟩
    · rw [refused]
      exact .inl ⟨error,rfl⟩
    · rw [passed]
      exact .inr ⟨task,perm,rfl,member,rfl⟩

-- A handler that starts by finding the task and asking for membership may write
-- to the task and to its parent.
theorem guarded {id : String} (sound : Sound s) (within : EdgesWithin s) {α : Type} {next : TaskRow → Program Store ApiError α}
    (later : ∀ task, Keeps (Inside s task.projectId fun k => k = id ∨ task.parentTaskId = some k) (next task)) :
    Reaches s current (perform (requireTaskMember id current >>= next) s).2 := by
  rw [perform_bind]
  rcases requireTaskMember_cases s id current with ⟨error,refused⟩ | ⟨task,perm,found,member,passed⟩
  · rw [refused]
    exact .inl rfl
  · rw [passed]
    have start : Inside s task.projectId (fun k => k = id ∨ task.parentTaskId = some k) s := by
      refine Inside.refl sound within fun k row is there => ?_
      rcases is with rfl | above
      · rw [found] at there
        cases there
        rfl
      · exact within.parents id task k row found above there
    exact .inr ⟨task.projectId,perm,member,(later task s start).forget⟩

theorem reaches_transition (sound : Sound s) (within : EdgesWithin s) (current id action : String) :
    Reaches s current (perform (transitionTask current id action) s).2 := by
  unfold transitionTask checkTransition
  rw [bind_assoc]
  refine guarded sound within fun task t inside => ?_
  cases TaskAction.parse action with
  | none => exact inside
  | some parsed =>
    simp only
    cases nextStatus task.status parsed task.requiresHumanReview with
    | none => exact inside
    | some target =>
      have writes : Keeps (Inside s task.projectId fun k => k = id ∨ task.parentTaskId = some k)
          (setStatus id target >>= fun _ =>
            logHandoff ⟨id,some task.status.asStr,target.asStr,current,triggerKind parsed,none⟩ >>= fun _ =>
              propagate id task.parentTaskId target >>= fun _ => getTask id) :=
        (keeps_setStatus (.inl rfl) target).bind fun _ => (keeps_logHandoff _ (.inl rfl)).bind fun _ =>
          (keeps_propagate (.inl rfl) (fun _ above => .inr above) target).bind fun _ => keeps_getTask
      rw [perform_bind,perform_bind,perform_get]
      by_cases refused : parsed = .start ∧ t.dependenciesSatisfied id = false
      · simp only [refused,if_true,and_self,perform_throw]
        exact inside
      · simp only [refused,if_false,perform_pure]
        exact writes t inside

theorem reaches_update (sound : Sound s) (within : EdgesWithin s) (current id : String) (req : TaskUpdate) :
    Reaches s current (perform (updateTask current id req) s).2 := by
  refine guarded sound within fun task => ?_
  split
  · exact Keeps.throw _
  · refine Keeps.bind ?_ fun _ => keeps_getTask
    unfold update
    split
    · exact Keeps.pure _
    · exact keeps_modifyTask (.inl rfl) _ fun _ => ⟨rfl,rfl,rfl⟩

theorem keeps_addDependency (one : known k) (two : known d) : Keeps (Inside s home known) (addDependency k d) := by
  refine Keeps.read fun t inside => ?_
  split
  · rename_i present
    simp only [Bool.and_eq_true,Option.isSome_iff_exists] at present
    split
    · exact inside
    · exact inside.edge one two present.1 present.2
  · exact inside

-- The ids of the tasks that a template's keys have so far.
def mapped (keyToId : KeyedMap String String) (k : String) : Prop := ∃ key, keyToId.lookup key = some k

theorem createSpecs_inside (freshIds : Nat → String) (createdBy : String) (specs : List TaskSpec) (index : Nat)
    (keyToId : KeyedMap String String) (inside : Inside s home (mapped keyToId) t) :
    (∃ error u, perform (createSpecs freshIds home createdBy specs index keyToId) t = (.error error,u) ∧
      Inside s home (fun _ => False) u) ∨
    ∃ keys u, perform (createSpecs freshIds home createdBy specs index keyToId) t = (.ok keys,u) ∧
      Inside s home (mapped keys) u := by
  induction specs generalizing index keyToId t with
  | nil => exact .inr ⟨keyToId,t,rfl,inside⟩
  | cons spec rest ih =>
    let params : NewTask := ⟨home,none,spec.title,none,spec.assigneeKind,
      if spec.assigneeKind = "agent" then spec.agent else none,spec.requiresHumanReview,spec.producesArtifact,index,
      createdBy,[]⟩
    have unfolded : perform (createSpecs freshIds home createdBy (spec :: rest) index keyToId) t =
        perform (create (freshIds index) params >>= fun task => createSpecs freshIds home createdBy rest (index + 1)
          (keyToId.insert spec.key task.id)) t := rfl
    rw [unfolded,perform_bind]
    rcases create_outcome (freshIds index) params t with ⟨error,refused⟩ | ⟨checked,made⟩
    · rw [refused]
      exact .inl ⟨error,t,rfl,inside.forget⟩
    · rw [made]
      have inserted : Inside s home (mapped keyToId) (t.insertTask (freshIds index) params) :=
        inside.insert checked rfl (fun _ _ above => absurd above (Option.some_ne_none _).symm) fun _ _ member =>
          absurd member List.not_mem_nil
      refine ih (index + 1) _ (inserted.know fun k row is there => ?_)
      obtain ⟨key,found⟩ := is
      rw [lookup_insert_eq] at found
      split at found
      · cases Option.some.inj found
        have itself : (params.row (freshIds index)).id = freshIds index := rfl
        rw [insertTask_lookup,if_pos itself] at there
        cases there
        rfl
      · exact inserted.known k row ⟨key,found⟩ there

theorem keeps_wireSpec (keyToId : KeyedMap String String) (spec : TaskSpec) :
    Keeps (Inside s home (mapped keyToId)) (wireSpec keyToId spec) := by
  unfold wireSpec
  cases own : keyToId.lookup spec.key with
  | none => exact Keeps.pure _
  | some taskId =>
    refine Keeps.forM fun depKey _ => ?_
    cases other : keyToId.lookup depKey with
    | none => exact Keeps.pure _
    | some depId => exact keeps_addDependency ⟨_,own⟩ ⟨_,other⟩

theorem keeps_blockSpec (keyToId : KeyedMap String String) (spec : TaskSpec) :
    Keeps (Inside s home (mapped keyToId)) (blockSpec keyToId spec) := by
  unfold blockSpec
  cases own : keyToId.lookup spec.key with
  | none => exact Keeps.pure _
  | some taskId => exact (keeps_block ⟨_,own⟩).bind fun _ => Keeps.read fun t inside => inside

theorem reaches_pipeline (sound : Sound s) (within : EdgesWithin s) (freshIds : Nat → String)
    (current projectId templateId : String) :
    Reaches s current (perform (instantiatePipeline freshIds current projectId templateId) s).2 := by
  unfold instantiatePipeline requireOwner
  rw [bind_assoc,perform_bind]
  rcases requireMember_cases s projectId current with ⟨_,error,refused⟩ | ⟨perm,member,passed⟩
  · rw [refused]
    exact .inl rfl
  · rw [passed]
    refine .inr ⟨projectId,perm,member,?_⟩
    have start : Inside s projectId (mapped ∅) s := Inside.refl sound within fun k row is => by
      obtain ⟨key,found⟩ := is
      cases found
    have rest (keyToId : KeyedMap String String) (specs : List TaskSpec) :
        Keeps (Inside s projectId (mapped keyToId)) (specs.forM (wireSpec keyToId) >>= fun _ =>
          specs.mapM (blockSpec keyToId) >>= fun created =>
            (pure (created.filterMap id) : Program Store ApiError (List TaskRow))) :=
      (Keeps.forM fun spec _ => keeps_wireSpec keyToId spec).bind fun _ =>
        (Keeps.mapM fun spec _ => keeps_blockSpec keyToId spec).bind fun _ => Keeps.pure _
    by_cases owner : perm = "owner"
    · simp only [owner,ne_eq,not_true_eq_false,if_false,perform_bind,perform_pure,instantiate,perform_get]
      cases s.templates.lookup templateId with
      | none => exact start.forget
      | some definition =>
        cases definition with
        | error text => exact start.forget
        | ok specs =>
          simp only [perform_bind]
          rcases createSpecs_inside freshIds current specs 0 ∅ start with ⟨error,u,stopped,inside⟩ | ⟨keys,u,made,inside⟩
          · rw [stopped]
            exact inside
          · rw [made]
            have final := rest keys specs u inside
            simp only [perform_bind] at final
            exact final.forget
    · simp only [owner,ne_eq,not_false_eq_true,if_true,perform_bind,perform_throw]
      exact start.forget

theorem checkParent_cases (s : Store) (projectId : String) (parent : Option String) :
    (¬(∀ p, parent = some p → ∃ row, s.tasks.lookup p = some row ∧ row.projectId = projectId) ∧
      ∃ error, perform (checkParent projectId parent) s = (.error error,s)) ∨
    ((∀ p, parent = some p → ∃ row, s.tasks.lookup p = some row ∧ row.projectId = projectId) ∧
      perform (checkParent projectId parent) s = (.ok ⟨⟩,s)) := by
  cases parent with
  | none => exact .inr ⟨by rintro _ ⟨⟩,rfl⟩
  | some p =>
    simp only [checkParent,perform_bind,perform_get]
    cases found : s.tasks.lookup p with
    | none =>
      refine .inl ⟨fun all => ?_,_,rfl⟩
      obtain ⟨row,there,_⟩ := all p rfl
      cases found.symm.trans there
    | some row =>
      simp only
      by_cases other : row.projectId ≠ projectId
      · refine .inl ⟨fun all => ?_,_,by rw [if_pos other]; rfl⟩
        obtain ⟨again,there,own⟩ := all p rfl
        cases found.symm.trans there
        exact other own
      · refine .inr ⟨?_,by rw [if_neg other]; rfl⟩
        rintro _ ⟨⟩
        exact ⟨row,found,not_not.mp other⟩

theorem createTask_eq (freshId current projectId : String) (req : CreateTaskRequest) :
    createTask freshId current projectId req = (requireMember projectId current >>= fun _ =>
      if (RustText.trim req.title).isEmpty then throw (.badRequest "title is required")
      else if req.assigneeKind ≠ "human" ∧ req.assigneeKind ≠ "agent" then
        throw (.badRequest "assignee_kind must be 'human' or 'agent'")
      else checkParent projectId req.parentTaskId >>= fun _ => create freshId (newTask current projectId req) >>= fun task =>
        blockIfUnsatisfied task.id >>= fun blocked => if blocked then getTask task.id else pure task) := rfl

-- The last steps of the handler write nothing after the block.
theorem block_answer (task : TaskRow) (u : Store) :
    (perform (blockIfUnsatisfied task.id >>= fun blocked => if blocked then getTask task.id else pure task) u).2 =
      (perform (blockIfUnsatisfied task.id) u).2 := by
  rw [perform_bind]
  cases perform (blockIfUnsatisfied task.id) u with
  | mk result v =>
    cases result with
    | error error => rfl
    | ok blocked =>
      cases blocked with
      | false => rfl
      | true =>
        simp only [getTask,if_true,perform_bind,perform_get]
        cases v.tasks.lookup task.id <;> rfl

theorem createTask_cases (s : Store) (freshId current projectId : String) (req : CreateTaskRequest) :
    (¬Accepted s freshId current projectId req ∧ (perform (createTask freshId current projectId req) s).2 = s) ∨
    (Accepted s freshId current projectId req ∧ (perform (createTask freshId current projectId req) s).2 =
      (perform (blockIfUnsatisfied freshId) (s.insertTask freshId (newTask current projectId req))).2) := by
  rw [createTask_eq,perform_bind]
  rcases requireMember_cases s projectId current with ⟨stranger,error,refused⟩ | ⟨perm,member,passed⟩
  · rw [refused]
    refine .inl ⟨fun accepted => ?_,rfl⟩
    obtain ⟨perm,member⟩ := accepted.member
    cases stranger.symm.trans member
  · rw [passed]
    simp only
    by_cases blank : (RustText.trim req.title).isEmpty = true
    · rw [if_pos blank]
      exact .inl ⟨fun accepted => Bool.false_ne_true (accepted.title.symm.trans blank),rfl⟩
    · rw [if_neg blank]
      by_cases kind : req.assigneeKind ≠ "human" ∧ req.assigneeKind ≠ "agent"
      · rw [if_pos kind]
        exact .inl ⟨fun accepted => accepted.assignee.elim kind.1 kind.2,rfl⟩
      · rw [if_neg kind,perform_bind]
        rcases checkParent_cases s projectId req.parentTaskId with ⟨wrong,error,refused⟩ | ⟨parent,passed⟩
        · rw [refused]
          exact .inl ⟨fun accepted => wrong accepted.parent,rfl⟩
        · rw [passed]
          simp only
          rw [perform_bind]
          cases checked : s.constraintFailure freshId (newTask current projectId req) with
          | some text =>
            have stopped : perform (create freshId (newTask current projectId req)) s = (.error (dbErr text),s) := by
              simp only [create,perform_bind,perform_get,checked,perform_throw]
            rw [stopped]
            refine .inl ⟨fun accepted => ?_,rfl⟩
            have sound : s.constraintFailure freshId (newTask current projectId req) = none := by
              refine constraintFailure_none.mpr ⟨accepted.fresh,accepted.project,fun p above => ?_,accepted.depends⟩
              obtain ⟨row,there,_⟩ := accepted.parent p above
              exact ⟨row,there⟩
            cases checked.symm.trans sound
          | none =>
            have made : perform (create freshId (newTask current projectId req)) s =
                (.ok ((newTask current projectId req).row freshId),s.insertTask freshId (newTask current projectId req)) := by
              simp only [create,perform_bind,perform_get,checked,perform_set,perform_pure]
            obtain ⟨fresh,project,_,depends⟩ := constraintFailure_none.mp checked
            have assignee : req.assigneeKind = "human" ∨ req.assigneeKind = "agent" := by
              by_contra neither
              exact kind (not_or.mp neither)
            rw [made]
            exact .inr ⟨⟨⟨perm,member⟩,Bool.eq_false_iff.mpr blank,assignee,parent,fresh,project,depends⟩,block_answer _ _⟩

theorem within_restated {status : String → TaskStatus → TaskStatus} (changed : Restated s t status) (within : EdgesWithin t) :
    EdgesWithin s := by
  refine ⟨fun k d one two edge here there => ?_,fun k row parent above here under there => ?_⟩
  · have joined := within.dependencies k d _ _ (changed.1 ▸ edge) (changed.found here) (changed.found there)
    exact joined
  · have joined := within.parents k _ parent _ (changed.found here) under (changed.found there)
    exact joined

theorem reaches_create (sound : Sound s) (within : EdgesWithin s) (freshId current projectId : String) (req : CreateTaskRequest)
    (local_deps : Accepted s freshId current projectId req →
      ∀ d ∈ req.dependsOn, ∀ row, s.tasks.lookup d = some row → row.projectId = projectId) :
    Reaches s current (perform (createTask freshId current projectId req) s).2 := by
  rcases createTask_cases s freshId current projectId req with ⟨_,same⟩ | ⟨accepted,created⟩
  · exact .inl same
  · obtain ⟨perm,member⟩ := accepted.member
    have start : Inside s projectId (fun k => k = freshId) s := Inside.refl sound within fun k row is there => by
      rw [is,accepted.fresh] at there
      cases there
    have checked : s.constraintFailure freshId (newTask current projectId req) = none := by
      refine constraintFailure_none.mpr ⟨accepted.fresh,accepted.project,fun p above => ?_,accepted.depends⟩
      obtain ⟨row,there,_⟩ := accepted.parent p above
      exact ⟨row,there⟩
    have inserted := start.insert checked rfl (fun p row above there => by
      obtain ⟨upper,standing,own⟩ := accepted.parent p above
      cases standing.symm.trans there
      exact own) fun d row member there => local_deps accepted d member row there
    have blocks : Keeps (Inside s projectId fun k => k = freshId) (blockIfUnsatisfied freshId) := keeps_block rfl
    rw [created]
    exact .inr ⟨projectId,perm,member,(blocks _ inserted).forget⟩

-- An accepted task with a dependency of another project stores an edge between
-- the two.
theorem create_local (accepted : Accepted s freshId current projectId req)
    (within : EdgesWithin (perform (createTask freshId current projectId req) s).2) :
    ∀ d ∈ req.dependsOn, ∀ row, s.tasks.lookup d = some row → row.projectId = projectId := by
  intro d member row there
  rcases createTask_cases s freshId current projectId req with ⟨refused,_⟩ | ⟨_,created⟩
  · exact absurd accepted refused
  · have made : (s.insertTask freshId (newTask current projectId req)).tasks.lookup freshId =
        some ((newTask current projectId req).row freshId) := by
      rw [insertTask_lookup,if_pos rfl]
    have inserted : EdgesWithin (s.insertTask freshId (newTask current projectId req)) := by
      rw [created] at within
      rcases blockIfUnsatisfied_outcome made with ⟨_,kept⟩ | ⟨_,value,t,outcome,set⟩
      · rwa [kept] at within
      · rw [outcome] at within
        exact within_restated set within
    have other : d ≠ freshId := by
      rintro rfl
      cases accepted.fresh.symm.trans there
    have kept : (s.insertTask freshId (newTask current projectId req)).tasks.lookup d = some row := by
      rw [insertTask_lookup,if_neg other]
      exact there
    exact (inserted.dependencies freshId d _ row (mem_insertTask.mpr (.inr ⟨rfl,member⟩)) made kept).symm

end Requests

end AlineaCopilot.ProjectIsolation
