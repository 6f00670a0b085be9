import Mathlib.Data.List.Dedup
import AlineaCopilot.ProjectTaskTransitions
open AlineaCopilot.KeyedMaps AlineaCopilot.StatefulPrograms

namespace AlineaCopilot.ProjectTasks

def Unstarted (status : TaskStatus) : Prop := status = .todo ∨ status = .blocked

-- A fact about the tables that every request other than a transition keeps:
-- those requests insert a task, wire an edge out of a task that has not
-- started, block such a task, or edit columns no rule reads.
structure Maintained (fact : Store → Prop) : Prop where
  insert : ∀ s freshId params, fact s → s.constraintFailure freshId params = none → fact (s.insertTask freshId params)
  edge : ∀ s k d row, fact s → s.tasks.lookup k = some row → Unstarted row.status →
    (∃ other, s.tasks.lookup d = some other) → fact { s with dependencies := s.dependencies ++ [(k,d)] }
  block : ∀ s t k row, fact s → s.tasks.lookup k = some row → Unstarted row.status →
    s.dependenciesSatisfied k = false → (Restated s t fun j old => if j = k then .blocked else old) → fact t
  edit : ∀ s k row changes, fact s → s.tasks.lookup k = some row →
    fact { s with tasks := s.tasks.insert k (TaskUpdate.apply changes row) }

section Inserts
variable {s : Store} {freshId : String} {params : NewTask}

theorem constraintFailure_none : s.constraintFailure freshId params = none ↔
    s.tasks.lookup freshId = none ∧ params.projectId ∈ s.projects ∧
      (∀ parent, params.parentTaskId = some parent → ∃ row, s.tasks.lookup parent = some row) ∧
      ∀ dep ∈ params.dependsOn, ∃ row, s.tasks.lookup dep = some row := by
  unfold Store.constraintFailure
  cases taken : s.tasks.lookup freshId with
  | some row => simp
  | none =>
    cases parent : params.parentTaskId <;> simp [Option.isSome_iff_exists,and_assoc]

theorem insertTask_lookup : (s.insertTask freshId params).tasks.lookup k =
    if k = freshId then some (params.row freshId) else s.tasks.lookup k := by
  simp only [Store.insertTask,lookup_insert_eq]

theorem mem_insertTask : (k,d) ∈ (s.insertTask freshId params).dependencies ↔
    (k,d) ∈ s.dependencies ∨ (k = freshId ∧ d ∈ params.dependsOn) := by
  simp only [Store.insertTask,List.mem_append,List.mem_map,List.mem_dedup,Prod.mk.injEq]
  constructor
  · rintro (old | ⟨dep,member,rfl,rfl⟩)
    · exact .inl old
    · exact .inr ⟨rfl,member⟩
  · rintro (old | ⟨rfl,member⟩)
    · exact .inl old
    · exact .inr ⟨d,member,rfl,rfl⟩

theorem insertTask_isDone (fresh : s.tasks.lookup freshId = none) :
    (s.insertTask freshId params).isDone k ↔ s.isDone k := by
  unfold Store.isDone
  rw [insertTask_lookup]
  by_cases same : k = freshId
  · subst same
    simp [fresh,NewTask.row]
  · simp [same]

end Inserts

section Requests
variable {fact : Store → Prop}

theorem keeps_requireMember : Keeps fact (requireMember projectId userId) := by
  refine Keeps.read fun s holds => ?_
  cases s.members.lookup (projectId,userId) <;> exact holds

theorem keeps_requireOwner : Keeps fact (requireOwner projectId userId) := by
  refine keeps_requireMember.bind fun perm => ?_
  split
  · exact Keeps.throw _
  · exact Keeps.pure _

theorem keeps_getTask : Keeps fact (getTask taskId) := by
  refine Keeps.read fun s holds => ?_
  cases s.tasks.lookup taskId <;> exact holds

theorem keeps_requireTaskMember : Keeps fact (requireTaskMember taskId userId) :=
  keeps_getTask.bind fun _ => keeps_requireMember.bind fun _ => Keeps.pure _

theorem keeps_checkParent (parent : Option String) : Keeps fact (checkParent projectId parent) := by
  cases parent with
  | none => exact Keeps.pure _
  | some parentId =>
    refine Keeps.read fun s holds => ?_
    cases s.tasks.lookup parentId with
    | none => exact holds
    | some parent =>
      simp only
      split <;> exact holds

theorem create_outcome (freshId : String) (params : NewTask) (s : Store) :
    (∃ error, perform (create freshId params) s = (.error error,s)) ∨
    (s.constraintFailure freshId params = none ∧
      perform (create freshId params) s = (.ok (params.row freshId),s.insertTask freshId params)) := by
  simp only [create,perform_bind,perform_get]
  cases s.constraintFailure freshId params with
  | some text => exact .inl ⟨_,rfl⟩
  | none => exact .inr ⟨rfl,rfl⟩

theorem Maintained.create (maintained : Maintained fact) : Keeps fact (create freshId params) := by
  intro s holds
  rcases create_outcome _ _ s with ⟨error,refused⟩ | ⟨sound,made⟩
  · rw [refused]; exact holds
  · rw [made]; exact maintained.insert s freshId params holds sound

theorem blockIfUnsatisfied_outcome (found : s.tasks.lookup k = some row) :
    (s.dependenciesSatisfied k = true ∧ perform (blockIfUnsatisfied k) s = (.ok false,s)) ∨
    (s.dependenciesSatisfied k = false ∧ Returns (blockIfUnsatisfied k) s fun _ t =>
      Restated s t fun j old => if j = k then .blocked else old) := by
  cases satisfied : s.dependenciesSatisfied k with
  | true => exact .inl ⟨rfl,by simp [blockIfUnsatisfied,satisfied]⟩
  | false =>
    let entry : NewHandoff := ⟨k,some "todo","blocked","system","dependency_satisfied",some "created with unmet dependencies"⟩
    have writes : Returns (setStatus k .blocked >>= fun _ => logHandoff entry >>= fun _ => pure true) s fun _ t =>
        Restated s t fun j old => if j = k then .blocked else old :=
      (setStatus_returns found .blocked).bind fun _ middle set => (logHandoff_returns entry middle).bind fun _ t logged =>
        ⟨true,t,perform_pure true t,set.trans logged⟩
    obtain ⟨value,t,outcome,set⟩ := writes
    refine .inr ⟨rfl,value,t,?_,set⟩
    simp only [blockIfUnsatisfied,perform_bind,perform_get,satisfied,Bool.false_eq_true,if_false]
    simpa only [perform_bind] using outcome

theorem Maintained.blocked (maintained : Maintained fact) (holds : fact s) (found : s.tasks.lookup k = some row)
    (unstarted : Unstarted row.status) : fact (perform (blockIfUnsatisfied k) s).2 := by
  rcases blockIfUnsatisfied_outcome found with ⟨_,kept⟩ | ⟨unmet,value,t,outcome,set⟩
  · rw [kept]; exact holds
  · rw [outcome]; exact maintained.block s t k row holds found unstarted unmet set

theorem Maintained.createTask (maintained : Maintained fact) : Keeps fact (createTask freshId current projectId req) := by
  refine keeps_requireMember.bind fun _ => ?_
  split
  · exact Keeps.throw _
  · split
    · exact Keeps.throw _
    · refine (keeps_checkParent _).bind fun _ => maintained.create.bind_at fun s task t _ made holds => ?_
      rcases create_outcome _ _ s with ⟨error,refused⟩ | ⟨_,inserted⟩
      · rw [refused] at made; cases made
      · rw [inserted] at made
        cases made
        have blocks := maintained.blocked holds (k := freshId) (by rw [insertTask_lookup,if_pos rfl]) (.inl rfl)
        rw [perform_bind]
        cases outcome : perform (blockIfUnsatisfied (NewTask.row _ freshId).id) _ with
        | mk result u =>
          have same := congrArg Prod.snd outcome
          change (perform (blockIfUnsatisfied freshId) _).2 = u at same
          rw [same] at blocks
          cases result with
          | error error => exact blocks
          | ok blocked =>
            cases blocked with
            | false => exact blocks
            | true => exact keeps_getTask u blocks

theorem Maintained.updateTask (maintained : Maintained fact) : Keeps fact (updateTask current taskId req) := by
  refine keeps_requireTaskMember.bind fun _ => ?_
  split
  · exact Keeps.throw _
  · refine Keeps.bind ?_ fun _ => keeps_getTask
    unfold update
    split
    · exact Keeps.pure _
    · refine Keeps.read fun s holds => ?_
      cases found : s.tasks.lookup taskId with
      | none => exact holds
      | some row => exact maintained.edit s taskId row req holds found

-- Every key stands for a task that has not started: the tasks of a template
-- are new, and nothing starts one before the whole template is there.
def Mapped (keyToId : KeyedMap String String) (store : Store) : Prop := ∀ key taskId, keyToId.lookup key = some taskId →
  ∃ row, store.tasks.lookup taskId = some row ∧ Unstarted row.status

theorem Maintained.createSpecs (maintained : Maintained fact) (freshIds : Nat → String) (projectId createdBy : String) (specs : List TaskSpec) (index : Nat)
    (keyToId : KeyedMap String String) (s : Store) (holds : fact s) (mapped : Mapped keyToId s) :
    fact (perform (createSpecs freshIds projectId createdBy specs index keyToId) s).2 ∧
    ∀ keys t, perform (createSpecs freshIds projectId createdBy specs index keyToId) s = (.ok keys,t) → Mapped keys t := by
  induction specs generalizing index keyToId s with
  | nil =>
    refine ⟨holds,fun keys t outcome => ?_⟩
    cases outcome
    exact mapped
  | cons spec rest ih =>
    let params : NewTask := ⟨projectId,none,spec.title,none,spec.assigneeKind,
      if spec.assigneeKind = "agent" then spec.agent else none,spec.requiresHumanReview,spec.producesArtifact,index,
      createdBy,[]⟩
    have unfolded : perform (ProjectTasks.createSpecs freshIds projectId createdBy (spec :: rest) index keyToId) s =
        perform (ProjectTasks.create (freshIds index) params >>= fun task => ProjectTasks.createSpecs freshIds projectId
          createdBy rest (index + 1) (keyToId.insert spec.key task.id)) s := rfl
    rw [unfolded,perform_bind]
    rcases create_outcome (freshIds index) params s with ⟨error,refused⟩ | ⟨sound,made⟩
    · rw [refused]
      exact ⟨holds,fun keys t outcome => by cases outcome⟩
    · rw [made]
      refine ih (index + 1) _ _ (maintained.insert s _ params holds sound) fun key taskId found => ?_
      rw [insertTask_lookup]
      rw [lookup_insert_eq] at found
      by_cases fresh : taskId = freshIds index
      · rw [if_pos fresh]
        exact ⟨_,rfl,.inl rfl⟩
      · rw [if_neg fresh]
        split at found
        · exact absurd (Option.some.inj found).symm fresh
        · exact mapped key taskId found

theorem Maintained.wireSpec (maintained : Maintained fact) (keyToId : KeyedMap String String) (spec : TaskSpec) :
    Keeps (fun s => fact s ∧ Mapped keyToId s) (wireSpec keyToId spec) := by
  unfold ProjectTasks.wireSpec
  cases own : keyToId.lookup spec.key with
  | none => exact Keeps.pure _
  | some taskId =>
    refine Keeps.forM fun depKey _ => ?_
    cases keyToId.lookup depKey with
    | none => exact Keeps.pure _
    | some depId =>
      refine Keeps.read fun s both => ?_
      obtain ⟨holds,mapped⟩ := both
      obtain ⟨row,found,unstarted⟩ := mapped spec.key taskId own
      split
      · rename_i present
        simp only [Bool.and_eq_true,Option.isSome_iff_exists] at present
        split
        · exact ⟨holds,mapped⟩
        · exact ⟨maintained.edge s taskId depId row holds found unstarted present.2,mapped⟩
      · exact ⟨holds,mapped⟩

theorem Maintained.blockSpec (maintained : Maintained fact) (keyToId : KeyedMap String String) (spec : TaskSpec) :
    Keeps (fun s => fact s ∧ Mapped keyToId s) (blockSpec keyToId spec) := by
  unfold ProjectTasks.blockSpec
  cases own : keyToId.lookup spec.key with
  | none => exact Keeps.pure _
  | some taskId =>
    have blocks : Keeps (fun s => fact s ∧ Mapped keyToId s) (blockIfUnsatisfied taskId) := by
      rintro s ⟨holds,mapped⟩
      obtain ⟨row,found,unstarted⟩ := mapped spec.key taskId own
      refine ⟨maintained.blocked holds found unstarted,?_⟩
      rcases blockIfUnsatisfied_outcome found with ⟨_,kept⟩ | ⟨_,value,t,outcome,set⟩
      · rw [kept]; exact mapped
      · rw [outcome]
        intro key other standing
        obtain ⟨old,there,idle⟩ := mapped key other standing
        refine ⟨_,set.found there,?_⟩
        by_cases same : other = taskId
        · exact .inr (by simp [same])
        · simpa [same] using idle
    exact blocks.bind fun _ => Keeps.read fun s both => both

theorem Maintained.instantiate (maintained : Maintained fact) (freshIds : Nat → String) (projectId templateId createdBy : String) :
    Keeps fact (instantiate freshIds projectId templateId createdBy) := by
  refine Keeps.read fun s holds => ?_
  cases s.templates.lookup templateId with
  | none => exact holds
  | some definition =>
    cases definition with
    | error text => exact holds
    | ok specs =>
      have made := maintained.createSpecs freshIds projectId createdBy specs 0 ∅ s holds fun key taskId found => by simp at found
      simp only [perform_bind]
      cases outcome : perform (ProjectTasks.createSpecs freshIds projectId createdBy specs 0 ∅) s with
      | mk result t =>
        rw [outcome] at made
        cases result with
        | error error => exact made.1
        | ok keyToId =>
          have rest : Keeps (fun s => fact s ∧ Mapped keyToId s) (specs.forM (ProjectTasks.wireSpec keyToId) >>= fun _ =>
              specs.mapM (ProjectTasks.blockSpec keyToId) >>= fun created =>
                (pure (created.filterMap id) : Program Store ApiError (List TaskRow))) :=
            (Keeps.forM fun spec _ => maintained.wireSpec keyToId spec).bind fun _ =>
              (Keeps.mapM fun spec _ => maintained.blockSpec keyToId spec).bind fun _ => Keeps.pure _
          have final := rest t ⟨made.1,made.2 keyToId t rfl⟩
          simpa only [perform_bind] using final.1

theorem Maintained.instantiatePipeline (maintained : Maintained fact) :
    Keeps fact (instantiatePipeline freshIds current projectId templateId) :=
  keeps_requireOwner.bind fun _ => maintained.instantiate freshIds projectId templateId current

end Requests

section Tables
variable {s t : Store}

-- An edit of a row's other columns shows in no status, parent or edge.
theorem edit_found (changes : TaskUpdate) (standing : s.tasks.lookup k = some row) (found : s.tasks.lookup j = some old) :
    ∃ next, (s.tasks.insert k (TaskUpdate.apply changes row)).lookup j = some next ∧
      next.id = old.id ∧ next.status = old.status ∧ next.parentTaskId = old.parentTaskId := by
  rw [lookup_insert_eq]
  by_cases same : j = k
  · rw [same,standing] at found
    cases Option.some.inj found
    exact ⟨TaskUpdate.apply changes row,by rw [if_pos same],rfl,rfl,rfl⟩
  · exact ⟨old,by rw [if_neg same,found],rfl,rfl,rfl⟩

theorem edit_inv (standing : s.tasks.lookup k = some row)
    (found : (s.tasks.insert k (TaskUpdate.apply changes row)).lookup j = some next) :
    ∃ old, s.tasks.lookup j = some old ∧ next.id = old.id ∧ next.status = old.status ∧
      next.parentTaskId = old.parentTaskId := by
  rw [lookup_insert_eq] at found
  by_cases same : j = k
  · rw [if_pos same] at found
    cases Option.some.inj found
    exact ⟨row,by rw [same,standing],rfl,rfl,rfl⟩
  · rw [if_neg same] at found
    exact ⟨next,found,rfl,rfl,rfl⟩

theorem edit_isDone (standing : s.tasks.lookup k = some row) :
    ({ s with tasks := s.tasks.insert k (TaskUpdate.apply changes row) } : Store).isDone j ↔ s.isDone j := by
  constructor
  · rintro ⟨next,found,done⟩
    obtain ⟨old,there,_,status,_⟩ := edit_inv standing found
    exact ⟨old,there,status ▸ done⟩
  · rintro ⟨old,found,done⟩
    obtain ⟨next,there,_,status,_⟩ := edit_found changes standing found
    exact ⟨next,there,status.trans done⟩

-- Setting a status other than done on a task that is not done finishes nothing.
theorem set_isDone (found : s.tasks.lookup k = some row) (was : row.status ≠ .done) (now : status ≠ .done)
    (set : Restated s t fun j old => if j = k then status else old) : t.isDone j ↔ s.isDone j := by
  constructor
  · rintro ⟨next,there,done⟩
    obtain ⟨old,standing,rfl⟩ := set.inv there
    by_cases same : j = k
    · exact absurd (by simpa [same] using done) now
    · exact ⟨old,standing,by simpa [same] using done⟩
  · rintro ⟨old,standing,done⟩
    refine ⟨_,set.found standing,?_⟩
    by_cases same : j = k
    · rw [same,found] at standing
      cases Option.some.inj standing
      exact absurd done was
    · simpa [same] using done

theorem Unstarted.not_done (unstarted : Unstarted status) : status ≠ .done := by
  rcases unstarted with rfl | rfl <;> simp

theorem sound_maintained : Maintained Sound := by
  constructor
  · intro s freshId params sound checked
    obtain ⟨fresh,_,parent_there,deps_there⟩ := constraintFailure_none.mp checked
    have kept : ∀ k row, s.tasks.lookup k = some row → (s.insertTask freshId params).tasks.lookup k = some row := by
      intro k row found
      have other : k ≠ freshId := by rintro rfl; simp [fresh] at found
      rw [insertTask_lookup,if_neg other,found]
    constructor
    · intro k row found
      rw [insertTask_lookup] at found
      split at found
      · cases Option.some.inj found
        symm; assumption
      · exact sound.keyed k row found
    · intro k row parent found under
      rw [insertTask_lookup] at found
      split at found
      · rename_i same
        cases Option.some.inj found
        obtain ⟨other,there⟩ := parent_there parent under
        refine ⟨?_,other,kept _ _ there⟩
        intro equal
        rw [equal,same,fresh] at there
        cases there
      · obtain ⟨different,other,there⟩ := sound.parents k row parent found under
        exact ⟨different,other,kept _ _ there⟩
    · intro k d edge
      rcases mem_insertTask.mp edge with old | ⟨rfl,member⟩
      · obtain ⟨⟨one,here⟩,⟨two,there⟩⟩ := sound.edges k d old
        exact ⟨⟨one,kept _ _ here⟩,⟨two,kept _ _ there⟩⟩
      · obtain ⟨other,there⟩ := deps_there d member
        exact ⟨⟨_,by rw [insertTask_lookup,if_pos rfl]⟩,⟨other,kept _ _ there⟩⟩
  · intro s k d row sound found _ target
    refine ⟨sound.keyed,sound.parents,fun j e edge => ?_⟩
    rcases List.mem_append.mp edge with old | new
    · exact sound.edges j e old
    · cases List.mem_singleton.mp new
      exact ⟨⟨row,found⟩,target⟩
  · intro s t k row sound _ _ _ set
    exact set.sound sound
  · intro s k row changes sound standing
    constructor
    · intro j next found
      obtain ⟨old,there,same,_,_⟩ := edit_inv standing found
      exact same.trans (sound.keyed j old there)
    · intro j next parent found under
      obtain ⟨old,there,_,_,above⟩ := edit_inv standing found
      obtain ⟨different,other,present⟩ := sound.parents j old parent there (above ▸ under)
      obtain ⟨after,standing_after,_⟩ := edit_found changes standing present
      exact ⟨different,after,standing_after⟩
    · intro j d edge
      obtain ⟨⟨one,here⟩,⟨two,there⟩⟩ := sound.edges j d edge
      obtain ⟨after,standing_after,_⟩ := edit_found changes standing here
      obtain ⟨other,standing_other,_⟩ := edit_found changes standing there
      exact ⟨⟨after,standing_after⟩,⟨other,standing_other⟩⟩

theorem Sound.transitionTask (sound : Sound s) : Sound (perform (transitionTask current taskId action) s).2 := by
  rcases transitionTask_cases sound current taskId action with
    ⟨same,_⟩ | ⟨_,_,_,_,_,_,_,_,set⟩ | ⟨_,_,_,_,_,advanced⟩
  · rw [same]; exact sound
  · exact set.sound sound
  · obtain ⟨status,restated⟩ := advanced.restated
    exact restated.sound sound

theorem Maintained.served (maintained : Maintained fact) (request : Request) (holds : fact s)
    (transitions : ∀ current taskId action, request = .transitionTask current taskId action →
      fact (perform (ProjectTasks.transitionTask current taskId action) s).2) : fact (answer s request) := by
  cases request with
  | createTask => exact maintained.createTask s holds
  | updateTask => exact maintained.updateTask s holds
  | transitionTask => exact transitions _ _ _ rfl
  | instantiatePipeline => exact maintained.instantiatePipeline s holds

theorem sound_served (sound : Sound s) (served : serve s request = some t) : Sound t := by
  cases Option.some.inj served
  exact sound_maintained.served request sound fun _ _ _ _ => sound.transitionTask

-- Tables without a task yet, whatever projects, members and templates there are.
def Blank (store : Store) : Prop := store.tasks = ∅ ∧ store.dependencies = []

theorem Blank.sound (blank : Blank s) : Sound s := by
  obtain ⟨tasks,dependencies⟩ := blank
  refine ⟨?_,?_,?_⟩ <;> simp [tasks,dependencies]

theorem nextStatus_cases (next : nextStatus source action review = some target) : source ≠ .done ∧ target ≠ .blocked ∧
    ((target = .inProgress ∧ action = .start) ∨ ((source = .inProgress ∨ source = .inReview) ∧ (target = .inReview ∨ target = .done)) ∨
      target = .rejected ∨ target = .todo) := by
  cases source <;> cases action <;> cases review <;> cases next <;> simp

end Tables

end AlineaCopilot.ProjectTasks
