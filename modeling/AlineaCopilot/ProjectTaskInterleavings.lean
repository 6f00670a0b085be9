import AlineaCopilot.ProjectTaskRequests
import AlineaCopilot.ProjectTaskUpkeep
open AlineaCopilot.KeyedMaps AlineaCopilot.StatefulPrograms AlineaCopilot.TransitionRuns
open AlineaCopilot.InterleavedRequests (System step goes_store goes_same goes_other step_some)

namespace AlineaCopilot.ProjectTaskRequests
open ProjectTasks

def logOf (store : Store) (taskId : String) : List NewHandoff := store.handoffs.filter fun entry => entry.taskId = taskId

def owedFor (pending : List (Nat × NewHandoff)) (taskId : String) : List NewHandoff :=
  (pending.map Prod.snd).filter fun entry => entry.taskId = taskId

-- A move that the code has a reason for, with the entry it logs. The rollup
-- closes a task from any status and names none.
inductive LegalMove (review : Bool) : TaskStatus → NewHandoff → TaskStatus → Prop where
  | manual : nextStatus source action review = some target →
      LegalMove review source ⟨taskId,some source.asStr,target.asStr,actor,triggerKind action,none⟩ target
  | freed : LegalMove review .blocked (freedEntry taskId) .todo
  | blocked : LegalMove review .todo (blockedEntry taskId) .blocked
  | closed : LegalMove review source (closedEntry taskId) .done

inductive Walk (review : Bool) : TaskStatus → List NewHandoff → TaskStatus → Prop where
  | nil : Walk review source [] source
  | snoc : Walk review source entries middle → LegalMove review middle entry target →
      Walk review source (entries ++ [entry]) target

theorem LegalMove.leaves_done (legal : LegalMove review .done entry target) : target = .done := by
  cases legal with
  | manual next => exact absurd rfl (nextStatus_cases next).1
  | closed => rfl

def Ready (store : Store) (taskId : String) : Prop := ∀ d, (taskId,d) ∈ store.dependencies → store.isDone d

-- Nothing keeps the task blocked any more.
def Waiting (store : Store) (taskId : String) : Prop :=
  (∃ row, store.tasks.lookup taskId = some row ∧ row.status = .blocked) ∧ Ready store taskId

-- The dependents a request has listed and not looked at yet.
def Progress.listed : Progress → List TaskRow
  | .checking dep rest _ | .freeing dep rest _ => dep :: rest
  | .recordingFreed _ rest _ | .refetching _ rest _ => rest
  | _ => []

-- The request still comes to see whether the task can be freed: it will list the
-- dependents of a task this one waits for, or has listed it as blocked.
def Visits (store : Store) (p : Progress) (k : String) : Prop :=
  (∃ d, p.completing = some d ∧ (k,d) ∈ store.dependencies) ∨ ∃ dep ∈ p.listed, dep.id = k ∧ dep.status = .blocked

-- A task that was read still stands, with the review flag it was read with.
def Reads (store : Store) (id : String) (task : TaskRow) : Prop :=
  ∃ row, store.tasks.lookup id = some row ∧ row.requiresHumanReview = task.requiresHumanReview

def Stand (store : Store) (rows : List TaskRow) : Prop := ∀ dep ∈ rows, ∃ row, store.tasks.lookup dep.id = some row

def Fits (store : Store) : Progress → Prop
  | .admitting _ id _ task => Reads store id task
  | .checkingStart _ id task parsed target | .moving _ id task parsed target =>
    Reads store id task ∧ nextStatus task.status parsed task.requiresHumanReview = some target
  | .checking dep rest _ | .freeing dep rest _ => dep.status = .blocked ∧ Stand store (dep :: rest)
  | .recordingFreed _ rest _ | .refetching _ rest _ => Stand store rest
  | _ => True

-- What every call leaves of the rows: they stand, with their review flags.
def Carried (s t : Store) : Prop := ∀ k row, s.tasks.lookup k = some row →
  ∃ next, t.tasks.lookup k = some next ∧ next.requiresHumanReview = row.requiresHumanReview

section Carried
variable {s t store : Store} {p : Progress} {id : String}

theorem Carried.refl : Carried s s := fun _ row found => ⟨row,found,rfl⟩

theorem Carried.reads (carried : Carried s t) (reads : Reads s id task) : Reads t id task := by
  obtain ⟨row,found,same⟩ := reads
  obtain ⟨next,there,flag⟩ := carried id row found
  exact ⟨next,there,flag.trans same⟩

theorem Carried.stand (carried : Carried s t) (stand : Stand s rows) : Stand t rows := by
  intro dep member
  obtain ⟨row,found⟩ := stand dep member
  obtain ⟨next,there,_⟩ := carried dep.id row found
  exact ⟨next,there⟩

theorem Carried.fits (carried : Carried s t) (fits : Fits s p) : Fits t p := by
  cases p with
  | admitting => exact carried.reads fits
  | checkingStart | moving => exact ⟨carried.reads fits.1,fits.2⟩
  | checking | freeing => exact ⟨fits.1,carried.stand fits.2⟩
  | recordingFreed | refetching => exact carried.stand fits
  | _ => exact True.intro

def stated (store : Store) (id : String) (row : TaskRow) (status : TaskStatus) : Store :=
  { store with tasks := store.tasks.insert id { row with status := status } }

def noted (store : Store) (entry : NewHandoff) : Store := { store with handoffs := store.handoffs ++ [entry] }

theorem stated_restated (found : store.tasks.lookup id = some row) (status : TaskStatus) :
    Restated store (stated store id row status) fun k old => if k = id then status else old := by
  refine ⟨rfl,fun k => ?_⟩
  simp only [stated,lookup_insert_eq]
  by_cases same : k = id
  · subst same; simp [found]
  · simp [same]

theorem stated_carried (found : store.tasks.lookup id = some row) (status : TaskStatus) :
    Carried store (stated store id row status) := fun _ _ standing => ⟨_,(stated_restated found status).found standing,rfl⟩

theorem insert_carried (checked : store.constraintFailure freshId params = none) :
    Carried store (store.insertTask freshId params) := by
  intro k row found
  obtain ⟨fresh,_⟩ := constraintFailure_none.mp checked
  have other : k ≠ freshId := by rintro rfl; simp [fresh] at found
  exact ⟨row,by rw [insertTask_lookup,if_neg other,found],rfl⟩

end Carried

-- What one call does to the tables, what the request owes before and after it,
-- and which visits it still makes.
inductive Effect (store : Store) (p : Progress) : Store → Progress → Prop where
  | quiet : p.owes = none → later.owes = none → (∀ k, Waiting store k → Visits store p k → Visits store later k) →
      Effect store p store later
  | stated : p.owes = none → p.writes = some (status,entry) → store.tasks.lookup entry.taskId = some row →
      later.owes = some entry → (status = .done → later.completing = some entry.taskId) →
      (∀ k, k ≠ entry.taskId → Visits store p k → Visits store later k) →
      Effect store p (stated store entry.taskId row status) later
  | noted : p.owes = some entry → later.owes = none → (∀ k, Visits store p k → Visits store later k) →
      Effect store p (noted store entry) later
  | inserted : p.owes = none → later.owes = none → store.constraintFailure freshId params = none →
      (∀ k, ¬Visits store p k) → Effect store p (store.insertTask freshId params) later

section Calls
variable {α : Type} {program : Program Store ApiError α} {store after : Store}

theorem call_ok {value : α} (ran : perform program store = (.ok value,after)) (next : α → Progress) :
    call program store next = (after,next value) := by
  unfold call
  rw [ran]

theorem call_refused {error : ApiError} (ran : perform program store = (.error error,after)) (next : α → Progress) :
    call program store next = (after,refuse error) := by
  unfold call
  rw [ran]

theorem call_getTask (store : Store) (id : String) (next : TaskRow → Progress) :
    (∃ task, store.tasks.lookup id = some task ∧ call (getTask id) store next = (store,next task)) ∨
      ∃ error, call (getTask id) store next = (store,refuse error) := by
  cases found : store.tasks.lookup id with
  | some task => exact .inl ⟨task,rfl,call_ok (by simp only [getTask,perform_bind,perform_get,found,perform_pure]) next⟩
  | none =>
    refine .inr ⟨.notFound s!"Task {id} not found",?_⟩
    exact call_refused (by simp only [getTask,perform_bind,perform_get,found,perform_throw]) next

theorem call_requireMember (store : Store) (projectId userId : String) (next : String → Progress) :
    (∃ perm, call (requireMember projectId userId) store next = (store,next perm)) ∨
      ∃ error, call (requireMember projectId userId) store next = (store,refuse error) := by
  cases found : store.members.lookup (projectId,userId) with
  | some perm => exact .inl ⟨perm,call_ok (by simp only [requireMember,perform_bind,perform_get,found,perform_pure]) next⟩
  | none =>
    refine .inr ⟨.forbidden "Not a member of this project",?_⟩
    exact call_refused (by simp only [requireMember,perform_bind,perform_get,found,perform_throw]) next

theorem call_setStatus (store : Store) (id : String) (status : TaskStatus) (next : PUnit → Progress) :
    (∃ row, store.tasks.lookup id = some row ∧ call (setStatus id status) store next = (stated store id row status,next ⟨⟩)) ∨
      (store.tasks.lookup id = none ∧ ∃ error, call (setStatus id status) store next = (store,refuse error)) := by
  cases found : store.tasks.lookup id with
  | some row => exact .inl ⟨row,rfl,call_ok (by simp only [setStatus,modifyTask,perform_bind,perform_get,found,perform_set,stated]) next⟩
  | none =>
    refine .inr ⟨rfl,dbErr s!"Record not found: Task '{id}' not found",?_⟩
    exact call_refused (by simp only [setStatus,modifyTask,perform_bind,perform_get,found,perform_throw]) next

theorem call_logHandoff (store : Store) (entry : NewHandoff) (next : PUnit → Progress) :
    call (logHandoff entry) store next = (noted store entry,next ⟨⟩) := rfl

theorem call_create (store : Store) (freshId : String) (params : NewTask) (next : TaskRow → Progress) :
    (store.constraintFailure freshId params = none ∧
      call (create freshId params) store next = (store.insertTask freshId params,next (params.row freshId))) ∨
      ∃ error, call (create freshId params) store next = (store,refuse error) := by
  cases checked : store.constraintFailure freshId params with
  | none => exact .inl ⟨rfl,call_ok (by simp only [create,perform_bind,perform_get,checked,perform_set,perform_pure]) next⟩
  | some text =>
    refine .inr ⟨dbErr text,?_⟩
    exact call_refused (by simp only [create,perform_bind,perform_get,checked,perform_throw]) next

end Calls

section Steps
variable {store after : Store} {p later : Progress} {onward : Onward} {rows : List TaskRow} {id : String}

theorem visits_nothing (completing : p.completing = none) (listed : p.listed = []) (k : String) : ¬Visits store p k := by
  rintro (⟨d,completed,_⟩ | ⟨dep,member,_⟩)
  · rw [completing] at completed
    cases completed
  · rw [listed] at member
    exact List.not_mem_nil member

theorem Effect.plain (owes : p.owes = none) (completing : p.completing = none) (listed : p.listed = [])
    (onward : later.owes = none) : Effect store p store later :=
  .quiet owes onward fun k _ visits => absurd visits (visits_nothing completing listed k)

theorem go_owes : onward.go.owes = none := by
  unfold Onward.go
  split <;> rfl

theorem go_fits : Fits store onward.go := by
  unfold Onward.go
  split <;> exact True.intro

theorem visit_cons {dep : TaskRow} : visit onward (dep :: rows) =
    if dep.status = .blocked then .checking dep rows onward else visit onward rows := rfl

theorem visit_owes : (visit onward rows).owes = none := by
  induction rows with
  | nil => exact go_owes
  | cons dep rest ih =>
    rw [visit_cons]
    split
    · rfl
    · exact ih

theorem visit_fits (stand : Stand store rows) : Fits store (visit onward rows) := by
  induction rows with
  | nil => exact go_fits
  | cons dep rest ih =>
    rw [visit_cons]
    split
    · rename_i blocked
      exact ⟨blocked,stand⟩
    · exact ih fun other member => stand other (List.mem_cons_of_mem _ member)

-- Only rows that were not blocked are passed over.
theorem visit_visits (member : dep ∈ rows) (same : dep.id = k) (blocked : dep.status = .blocked) :
    Visits store (visit onward rows) k := by
  induction rows with
  | nil => exact absurd member List.not_mem_nil
  | cons first rest ih =>
    rw [visit_cons]
    split
    · exact .inr ⟨dep,member,same,blocked⟩
    · rename_i free
      rcases List.mem_cons.mp member with rfl | inside
      · exact absurd blocked free
      · exact ih inside

theorem checkAction_effect (current action : String) (reads : Reads store id task) :
    (checkAction current id action task).owes = none ∧ Fits store (checkAction current id action task) := by
  unfold checkAction
  split
  · exact ⟨rfl,True.intro⟩
  · split
    · exact ⟨rfl,True.intro⟩
    · rename_i target next
      split
      · exact ⟨rfl,reads,next⟩
      · exact ⟨rfl,reads,next⟩

theorem checkRequest_effect (store : Store) (current projectId : String) (req : CreateTaskRequest) :
    (checkRequest current projectId req).owes = none ∧
    Fits store (checkRequest current projectId req) := by
  unfold checkRequest
  split
  · exact ⟨rfl,True.intro⟩
  · split
    · exact ⟨rfl,True.intro⟩
    · split
      · exact ⟨rfl,True.intro⟩
      · exact ⟨rfl,True.intro⟩

-- The dependents are listed: each of them stands, and those that are blocked
-- will be visited.
theorem cascading_effect (sound : ProjectTasks.Sound store) :
    Effect store (.cascading completed onward) store (visit onward (store.dependentsOf completed)) ∧
      Fits store (visit onward (store.dependentsOf completed)) := by
  refine ⟨.quiet rfl visit_owes ?_,visit_fits ?_⟩
  · rintro k ⟨⟨row,found,blocked⟩,_⟩ (⟨d,completes,edge⟩ | ⟨dep,member,_⟩)
    · cases Option.some.inj completes
      exact visit_visits (mem_dependentsOf.mpr ⟨k,edge,found⟩) (sound.keyed k row found) blocked
    · exact absurd member List.not_mem_nil
  · intro dep member
    obtain ⟨k,_,found⟩ := mem_dependentsOf.mp member
    exact ⟨dep,by rw [sound.keyed k dep found,found]⟩

-- A dependent that is passed over waits for another task, or stays listed.
theorem passing_effect (sound : ProjectTasks.Sound store) (stand : Stand store (dep :: rest))
    (passed : store.dependenciesSatisfied dep.id = false) :
    Effect store (.checking dep rest onward) store (visit onward rest) ∧ Fits store (visit onward rest) := by
  refine ⟨.quiet rfl visit_owes ?_,visit_fits fun other member => stand other (List.mem_cons_of_mem _ member)⟩
  rintro k ⟨_,ready⟩ (⟨d,completes,_⟩ | ⟨other,member,same,blocked⟩)
  · cases completes
  · rcases List.mem_cons.mp member with rfl | inside
    · subst same
      rw [sound.satisfied_iff.mpr ready] at passed
      cases passed
    · exact visit_visits inside same blocked

theorem refetching_effect (stand : Stand store rest) :
    Effect store (.refetching dep rest onward) store (visit onward rest) ∧ Fits store (visit onward rest) := by
  refine ⟨.quiet rfl visit_owes ?_,visit_fits stand⟩
  rintro k _ (⟨d,completes,_⟩ | ⟨other,member,same,blocked⟩)
  · cases completes
  · exact visit_visits member same blocked

theorem freeing_effect (stand : Stand store (dep :: rest))
    (called : call (setStatus dep.id .todo) store (fun _ => .recordingFreed dep rest onward) = (after,later)) :
    Effect store (.freeing dep rest onward) after later ∧ Fits after later := by
  obtain ⟨row,found⟩ := stand dep List.mem_cons_self
  rcases call_setStatus store dep.id .todo fun _ => .recordingFreed dep rest onward with
    ⟨old,standing,set⟩ | ⟨missing,_⟩
  · cases set.symm.trans called
    have there : store.tasks.lookup (freedEntry dep.id).taskId = some old := standing
    refine ⟨Effect.stated rfl rfl there rfl (fun impossible => TaskStatus.noConfusion impossible) ?_,
      (stated_carried standing .todo).stand fun other member => stand other (List.mem_cons_of_mem _ member)⟩
    rintro k other (⟨d,completes,_⟩ | ⟨next,member,same,blocked⟩)
    · cases completes
    · rcases List.mem_cons.mp member with rfl | inside
      · exact absurd same.symm other
      · exact .inr ⟨next,inside,same,blocked⟩
  · rw [found] at missing
    cases missing

-- A status is set, or the task is gone and the request refused.
theorem setting_effect (entry : NewHandoff) (next : PUnit → Progress) (owes : p.owes = none) (writes : p.writes = some (status,entry)) (completing : p.completing = none)
    (listed : p.listed = []) (records : (next ⟨⟩).owes = some entry)
    (completes : status = .done → (next ⟨⟩).completing = some entry.taskId) (fits : ∀ t, Fits t (next ⟨⟩))
    (called : call (setStatus entry.taskId status) store next = (after,later)) : Effect store p after later ∧ Fits after later := by
  rcases call_setStatus store entry.taskId status next with ⟨row,found,set⟩ | ⟨_,error,refused⟩
  · cases set.symm.trans called
    exact ⟨.stated owes writes found records completes fun k _ visits => absurd visits (visits_nothing completing listed k),fits _⟩
  · cases refused.symm.trans called
    exact ⟨.plain owes completing listed rfl,True.intro⟩

theorem serve_effect (sound : ProjectTasks.Sound store) (fits : Fits store p)
    (served : serve store freshId p = some (after,later)) : Effect store p after later ∧ Fits after later := by
  cases p with
  | idle => cases served
  | returned => cases served
  | finding current id action =>
    simp only [serve,Option.some.injEq] at served
    rcases call_getTask store id (.admitting current id action) with ⟨task,found,called⟩ | ⟨error,called⟩
    · cases called.symm.trans served
      exact ⟨.plain rfl rfl rfl rfl,task,found,rfl⟩
    · cases called.symm.trans served
      exact ⟨.plain rfl rfl rfl rfl,True.intro⟩
  | admitting current id action task =>
    simp only [serve,Option.some.injEq] at served
    rcases call_requireMember store task.projectId current (fun _ => checkAction current id action task) with
      ⟨perm,called⟩ | ⟨error,called⟩
    · cases called.symm.trans served
      obtain ⟨owes,checked⟩ := checkAction_effect current action fits
      exact ⟨.plain rfl rfl rfl owes,checked⟩
    · cases called.symm.trans served
      exact ⟨.plain rfl rfl rfl rfl,True.intro⟩
  | checkingStart current id task parsed target =>
    simp only [serve] at served
    split at served
    · cases served
      exact ⟨.plain rfl rfl rfl rfl,fits⟩
    · cases served
      exact ⟨.plain rfl rfl rfl rfl,True.intro⟩
  | moving current id task parsed target =>
    simp only [serve,Option.some.injEq] at served
    refine setting_effect (movedEntry current id task parsed target)
      (fun _ => .recording (movedEntry current id task parsed target) (decide (target = .done)) ⟨id,task.parentTaskId⟩)
      rfl rfl rfl rfl rfl ?_ (fun _ => True.intro) served
    intro finished
    simp only [finished,decide_true]
    rfl
  | recording entry finished onward =>
    cases served
    cases finished with
    | false => exact ⟨.noted rfl rfl fun k visits => absurd visits (visits_nothing rfl rfl k),True.intro⟩
    | true => exact ⟨.noted rfl rfl fun k visits => visits,True.intro⟩
  | cascading completed onward =>
    cases served
    exact cascading_effect sound
  | checking dep rest onward =>
    simp only [serve] at served
    split at served
    · cases served
      exact ⟨.quiet rfl rfl fun k _ visits => visits,fits⟩
    · rename_i passed
      cases served
      exact passing_effect sound fits.2 (Bool.eq_false_iff.mpr passed)
  | freeing dep rest onward =>
    simp only [serve,Option.some.injEq] at served
    exact freeing_effect fits.2 served
  | recordingFreed dep rest onward =>
    cases served
    exact ⟨.noted rfl rfl fun k visits => visits,fits⟩
  | refetching dep rest onward =>
    cases served
    exact refetching_effect fits
  | counting id parentId =>
    simp only [serve] at served
    split at served
    · cases served
      exact ⟨.plain rfl rfl rfl rfl,True.intro⟩
    · cases served
      exact ⟨.plain rfl rfl rfl rfl,True.intro⟩
  | closing id parentId =>
    simp only [serve,Option.some.injEq] at served
    exact setting_effect (closedEntry parentId) (fun _ => .recordingClosed id parentId) rfl rfl rfl rfl rfl (fun _ => rfl)
      (fun _ => True.intro) served
  | recordingClosed id parentId =>
    cases served
    exact ⟨.noted rfl rfl fun k visits => visits,True.intro⟩
  | fetching id =>
    simp only [serve,Option.some.injEq] at served
    rcases call_getTask store id fun task => .returned (.ok task) with ⟨task,_,called⟩ | ⟨error,called⟩
    · cases called.symm.trans served
      exact ⟨.plain rfl rfl rfl rfl,True.intro⟩
    · cases called.symm.trans served
      exact ⟨.plain rfl rfl rfl rfl,True.intro⟩
  | admittingTo current projectId req =>
    simp only [serve,Option.some.injEq] at served
    rcases call_requireMember store projectId current (fun _ => checkRequest current projectId req) with
      ⟨perm,called⟩ | ⟨error,called⟩
    · cases called.symm.trans served
      obtain ⟨owes,checked⟩ := checkRequest_effect store current projectId req
      exact ⟨.plain rfl rfl rfl owes,checked⟩
    · cases called.symm.trans served
      exact ⟨.plain rfl rfl rfl rfl,True.intro⟩
  | findingParent current projectId parentId req =>
    simp only [serve] at served
    split at served
    · cases served
      exact ⟨.plain rfl rfl rfl rfl,True.intro⟩
    · split at served
      · cases served
        exact ⟨.plain rfl rfl rfl rfl,True.intro⟩
      · cases served
        exact ⟨.plain rfl rfl rfl rfl,True.intro⟩
  | inserting current projectId req =>
    simp only [serve,Option.some.injEq] at served
    rcases call_create store freshId (newTask current projectId req) .checkingNew with ⟨checked,called⟩ | ⟨error,called⟩
    · cases called.symm.trans served
      exact ⟨.inserted rfl rfl checked (visits_nothing rfl rfl),True.intro⟩
    · cases called.symm.trans served
      exact ⟨.plain rfl rfl rfl rfl,True.intro⟩
  | checkingNew task =>
    simp only [serve] at served
    split at served
    · cases served
      exact ⟨.plain rfl rfl rfl rfl,True.intro⟩
    · cases served
      exact ⟨.plain rfl rfl rfl rfl,True.intro⟩
  | blocking task =>
    simp only [serve,Option.some.injEq] at served
    exact setting_effect (blockedEntry task.id) (fun _ => .recordingBlocked task) rfl rfl rfl rfl rfl
      (fun impossible => TaskStatus.noConfusion impossible) (fun _ => True.intro) served
  | recordingBlocked task =>
    cases served
    exact ⟨.noted rfl rfl fun k visits => visits,True.intro⟩

end Steps

end AlineaCopilot.ProjectTaskRequests
