import AlineaCopilot.InterruptedPrograms
import AlineaCopilot.ProjectTaskCompletion
open AlineaCopilot.KeyedMaps AlineaCopilot.StatefulPrograms AlineaCopilot.InterruptedPrograms

namespace AlineaCopilot.PipelineInstantiation
open ProjectTasks

-- `PipelineService::instantiate` over a database that may stop to answer. Every
-- repository call is a `call` of its own; `create` commits its transaction and
-- reads the row back.
section Service
variable (failure : ApiError)

def specTask (projectId createdBy : String) (index : Nat) (spec : TaskSpec) : NewTask :=
  ⟨projectId,none,spec.title,none,spec.assigneeKind,if spec.assigneeKind = "agent" then spec.agent else none,
    spec.requiresHumanReview,spec.producesArtifact,index,createdBy,[]⟩

def fetchInserted (id : String) : Program Store ApiError TaskRow := do
  let store ← get
  match store.tasks.lookup id with
  | some task => pure task
  | none => throw (dbErr s!"Record not found: Task '{id}' not found after insert")

def createSpecs (freshIds : Nat → String) (projectId createdBy : String) :
    List TaskSpec → Nat → KeyedMap String String → Program (Line Store) ApiError (KeyedMap String String)
  | [],_,keyToId => pure keyToId
  | spec :: rest,index,keyToId => do
    let task ← call failure (create (freshIds index) (specTask projectId createdBy index spec))
    let task ← call failure (fetchInserted task.id)
    createSpecs freshIds projectId createdBy rest (index + 1) (keyToId.insert spec.key task.id)

def wireDep (keyToId : KeyedMap String String) (taskId depKey : String) : Program (Line Store) ApiError PUnit :=
  match keyToId.lookup depKey with
  | none => pure ⟨⟩
  | some depId => call failure (addDependency taskId depId)

def wireSpec (keyToId : KeyedMap String String) (spec : TaskSpec) : Program (Line Store) ApiError PUnit :=
  match keyToId.lookup spec.key with
  | none => pure ⟨⟩
  | some taskId => spec.dependsOn.forM (wireDep failure keyToId taskId)

def blockIfUnsatisfied (taskId : String) : Program (Line Store) ApiError Bool := do
  let store ← call failure get
  if store.dependenciesSatisfied taskId then pure false
  else
    call failure (setStatus taskId .blocked)
    call failure (logHandoff ⟨taskId,some "todo","blocked","system","dependency_satisfied",some "created with unmet dependencies"⟩)
    pure true

def blockSpec (keyToId : KeyedMap String String) (spec : TaskSpec) : Program (Line Store) ApiError (Option TaskRow) :=
  match keyToId.lookup spec.key with
  | none => pure none
  | some taskId => do
    let _ ← blockIfUnsatisfied failure taskId
    let store ← call failure get
    pure (store.tasks.lookup taskId)

def instantiate (freshIds : Nat → String) (projectId templateId createdBy : String) : Program (Line Store) ApiError (List TaskRow) := do
  let store ← call failure get
  match store.templates.lookup templateId with
  | none => throw (.notFound s!"template '{templateId}' not found")
  | some (.error text) => throw (.internal s!"invalid template: {text}")
  | some (.ok specs) =>
    let keyToId ← createSpecs failure freshIds projectId createdBy specs 0 ∅
    specs.forM (wireSpec failure keyToId)
    let created ← specs.mapM (blockSpec failure keyToId)
    pure (created.filterMap id)

end Service

-- The calls made when none fails.
section Calls
variable (specs : List TaskSpec)

def known (key : String) : Bool := specs.any fun spec => spec.key = key

def waits (spec : TaskSpec) : Bool := specs.any fun other => other.key = spec.key && other.dependsOn.any (known specs)

def wireCalls (spec : TaskSpec) : Nat := (spec.dependsOn.map fun dep => if known specs dep then 1 else 0).sum

def blockCalls (spec : TaskSpec) : Nat := if waits specs spec then 4 else 2

def callsOf : Nat := 1 + specs.length * 2 + (specs.map (wireCalls specs)).sum + (specs.map (blockCalls specs)).sum

end Calls

-- Ids that are generated: they do not repeat and no task has one of them.
structure FreshIds (s : Store) (freshIds : Nat → String) : Prop where
  apart : Function.Injective freshIds
  unused : ∀ i, s.tasks.lookup (freshIds i) = none

section Creating
variable {failure : ApiError} {freshIds : Nat → String} {projectId createdBy : String} {specs : List TaskSpec}

def specRow (freshIds : Nat → String) (projectId createdBy : String) (index : Nat) (spec : TaskSpec) : TaskRow :=
  (specTask projectId createdBy index spec).row (freshIds index)

-- The tables and the map after the specs from `index` on.
structure Planted (freshIds : Nat → String) (projectId createdBy : String) (s t : Store) (specs : List TaskSpec) (index : Nat)
    (before keys : KeyedMap String String) : Prop where
  frame : t.projects = s.projects ∧ t.members = s.members ∧ t.templates = s.templates ∧ t.dependencies = s.dependencies
  rows : ∀ i spec, specs[i]? = some spec → t.tasks.lookup (freshIds (index + i)) = some (specRow freshIds projectId createdBy (index + i) spec)
  others : ∀ k, (∀ i, i < specs.length → k ≠ freshIds (index + i)) → t.tasks.lookup k = s.tasks.lookup k
  last : ∀ key, known specs key = true → ∃ i spec, specs[i]? = some spec ∧ spec.key = key ∧ keys.lookup key = some (freshIds (index + i))
  rest : ∀ key, known specs key = false → keys.lookup key = before.lookup key

theorem known_cons {spec : TaskSpec} {key : String} : known (spec :: specs) key = (decide (spec.key = key) || known specs key) := rfl

theorem known_iff {key : String} : known specs key = true ↔ ∃ spec ∈ specs, spec.key = key := by
  simp [known]

theorem known_self {spec : TaskSpec} (member : spec ∈ specs) : known specs spec.key = true := known_iff.mpr ⟨spec,member,rfl⟩

theorem create_passes (member : projectId ∈ s.projects) (fresh : s.tasks.lookup (freshIds index) = none) (spec : TaskSpec) :
    perform (create (freshIds index) (specTask projectId createdBy index spec)) s =
      (.ok (specRow freshIds projectId createdBy index spec),s.insertTask (freshIds index) (specTask projectId createdBy index spec)) := by
  have passes : s.constraintFailure (freshIds index) (specTask projectId createdBy index spec) = none :=
    by
    refine constraintFailure_none.mpr ⟨fresh,member,fun _ parent => ?_,fun _ dep => absurd dep List.not_mem_nil⟩
    cases parent
  rcases create_outcome (freshIds index) (specTask projectId createdBy index spec) s with ⟨error,refused⟩ | ⟨_,made⟩
  · simp only [create,perform_bind,perform_get,passes] at refused
    cases refused
  · exact made

theorem fetchInserted_finds {id : String} {row : TaskRow} {s : Store} (found : s.tasks.lookup id = some row) : perform (fetchInserted id) s = (.ok row,s) := by
  simp only [fetchInserted,perform_bind,perform_get,found,perform_pure]

theorem insertTask_frame (s : Store) (freshId : String) (spec : TaskSpec) (index : Nat) :
    (s.insertTask freshId (specTask projectId createdBy index spec)).dependencies = s.dependencies := by
  show s.dependencies ++ _ = _
  exact List.append_nil _

-- What is there when the first task is.
def Begun (freshIds : Nat → String) (s : Store) : Prop := ∃ row, s.tasks.lookup (freshIds 0) = some row

theorem Begun.insert (begun : Begun freshIds s) (params : NewTask) (freshId : String) : Begun freshIds (s.insertTask freshId params) := by
  obtain ⟨row,found⟩ := begun
  unfold Begun
  rw [insertTask_lookup]
  split
  · exact ⟨_,rfl⟩
  · exact ⟨row,found⟩

theorem Planted.cons {spec : TaskSpec} {before keys : KeyedMap String String} (apart : Function.Injective freshIds)
    (planted : Planted freshIds projectId createdBy (s.insertTask (freshIds index) (specTask projectId createdBy index spec)) t specs (index + 1)
      (before.insert spec.key (freshIds index)) keys) :
    Planted freshIds projectId createdBy s t (spec :: specs) index before keys := by
  obtain ⟨projects,members,templates,dependencies⟩ := planted.frame
  refine ⟨⟨projects,members,templates,dependencies.trans (insertTask_frame s _ spec index)⟩,?_,?_,?_,?_⟩
  · intro i other place
    cases i with
    | zero =>
      cases place
      rw [Nat.add_zero,planted.others,insertTask_lookup,if_pos rfl]
      · rfl
      · intro j _ same
        have equal := apart same
        omega
    | succ i =>
      have later := planted.rows i other place
      rwa [show index + 1 + i = index + (i + 1) by omega] at later
  · intro k absent
    rw [planted.others,insertTask_lookup,if_neg]
    · exact absent 0 (Nat.succ_pos _)
    · intro i below
      rw [show index + 1 + i = index + (i + 1) by omega]
      exact absent (i + 1) (Nat.succ_lt_succ below)
  · intro key there
    by_cases later : known specs key = true
    · obtain ⟨i,other,place,same,found⟩ := planted.last key later
      exact ⟨i + 1,other,place,same,by rw [found,show index + 1 + i = index + (i + 1) by omega]⟩
    · have here : spec.key = key := by
        rw [known_cons,Bool.eq_false_iff.mpr later,Bool.or_false] at there
        exact of_decide_eq_true there
      refine ⟨0,spec,rfl,here,?_⟩
      rw [planted.rest key (Bool.eq_false_iff.mpr later),lookup_insert_eq,if_pos here.symm]
      rfl
  · intro key absent
    rw [known_cons,Bool.or_eq_false_iff] at absent
    rw [planted.rest key absent.2,lookup_insert_eq,if_neg fun same => of_decide_eq_false absent.1 same.symm]

-- What follows the first insert of a spec.
theorem createSpecs_onward {rest : List TaskSpec} {cost : Nat} {post : KeyedMap String String → Store → Prop} {row : TaskRow} (keyed : s.tasks.lookup row.id = some row)
    (begun : Begun freshIds s) (spec : TaskSpec) (before : KeyedMap String String)
    (tracks : Tracks failure (Begun freshIds) (createSpecs failure freshIds projectId createdBy rest (index + 1) (before.insert spec.key row.id))
      (ProjectTasks.createSpecs freshIds projectId createdBy rest (index + 1) (before.insert spec.key row.id)) s cost post) :
    Tracks failure (Begun freshIds)
      (call failure (fetchInserted row.id) >>= fun task => createSpecs failure freshIds projectId createdBy rest (index + 1) (before.insert spec.key task.id))
      (ProjectTasks.createSpecs freshIds projectId createdBy rest (index + 1) (before.insert spec.key row.id)) s (1 + cost) post :=
  .look (fetchInserted_finds keyed) begun tracks

theorem createSpecs_tracks (apart : Function.Injective freshIds) (specs : List TaskSpec) (index : Nat) (before : KeyedMap String String)
    (member : projectId ∈ s.projects) (unused : ∀ i, s.tasks.lookup (freshIds (index + i)) = none) (begun : Begun freshIds s) :
    Tracks failure (Begun freshIds) (createSpecs failure freshIds projectId createdBy specs index before)
      (ProjectTasks.createSpecs freshIds projectId createdBy specs index before) s (specs.length * 2)
      fun keys t => Planted freshIds projectId createdBy s t specs index before keys ∧ Begun freshIds t := by
  induction specs generalizing s index before with
  | nil =>
    rw [List.length_nil,Nat.zero_mul]
    refine .pure _ ⟨⟨⟨rfl,rfl,rfl,rfl⟩,?_,fun _ _ => rfl,?_,fun _ _ => rfl⟩,begun⟩
    · intro i spec place
      cases place
    · intro key there
      cases there
  | cons spec rest ih =>
    have first : Returns (create (freshIds index) (specTask projectId createdBy index spec)) s fun row t =>
        row = specRow freshIds projectId createdBy index spec ∧ t = s.insertTask (freshIds index) (specTask projectId createdBy index spec) :=
      ⟨_,_,create_passes member (unused 0) spec,rfl,rfl⟩
    rw [show (spec :: rest).length * 2 = 1 + (1 + rest.length * 2) by rw [List.length_cons]; omega]
    refine (Tracks.call first begun).bind fun row t after => ?_
    obtain ⟨rfl,rfl⟩ := after
    have started := begun.insert (specTask projectId createdBy index spec) (freshIds index)
    refine createSpecs_onward (by rw [insertTask_lookup]; exact if_pos rfl) started spec before ?_
    have onward := ih (index + 1) (before.insert spec.key (freshIds index)) (s := s.insertTask (freshIds index) (specTask projectId createdBy index spec))
      member (fun i => ?_) started
    · exact onward.mono fun keys t made => ⟨made.1.cons apart,made.2⟩
    rw [insertTask_lookup,if_neg fun same => absurd (apart same) (by omega),show index + 1 + i = index + (i + 1) by omega]
    exact unused (i + 1)

end Creating

section Wiring
variable {failure : ApiError} {kept : Store → Prop} {specs : List TaskSpec} {keys : KeyedMap String String}

-- Between the two stores edges were added and nothing else.
structure Joined (added : String → String → Prop) (s t : Store) : Prop where
  tasks : t.tasks = s.tasks
  members : t.members = s.members
  edges : ∀ k d, (k,d) ∈ t.dependencies ↔ (k,d) ∈ s.dependencies ∨ added k d

theorem Joined.refl {added : String → String → Prop} (nothing : ∀ k d, ¬added k d) (s : Store) : Joined added s s :=
  ⟨rfl,rfl,fun k d => by simp [nothing k d]⟩

theorem Joined.trans {one two both : String → String → Prop} (first : Joined one s t) (second : Joined two t u)
    (either : ∀ k d, both k d ↔ one k d ∨ two k d) : Joined both s u := by
  refine ⟨second.tasks.trans first.tasks,second.members.trans first.members,fun k d => ?_⟩
  rw [second.edges,first.edges,either,or_assoc]

theorem Joined.congr {one two : String → String → Prop} (joined : Joined one s t) (same : ∀ k d, two k d ↔ one k d) : Joined two s t :=
  ⟨joined.tasks,joined.members,fun k d => by rw [joined.edges,same]⟩

theorem addDependency_returns (from_there : (s.tasks.lookup k).isSome) (to_there : (s.tasks.lookup d).isSome) :
    Returns (addDependency k d) s fun _ t => Joined (fun j e => j = k ∧ e = d) s t := by
  by_cases already : (k,d) ∈ s.dependencies
  · refine ⟨⟨⟩,s,?_,rfl,rfl,fun j e => ⟨.inl,fun either => either.elim id ?_⟩⟩
    · simp only [addDependency,perform_bind,perform_get,from_there,to_there,Bool.and_self,if_true,if_pos already,perform_set]
    · rintro ⟨rfl,rfl⟩
      exact already
  · refine ⟨⟨⟩,{ s with dependencies := s.dependencies ++ [(k,d)] },?_,rfl,rfl,fun j e => ?_⟩
    · simp only [addDependency,perform_bind,perform_get,from_there,to_there,Bool.and_self,if_true,if_neg already,perform_set]
    · simp

-- The map that the first pass leaves: its keys are those of the specs, and its
-- tasks stand in the table.
structure Resolves (specs : List TaskSpec) (keys : KeyedMap String String) (s : Store) : Prop where
  keyed : ∀ key, known specs key = (keys.lookup key).isSome
  present : ∀ key k, keys.lookup key = some k → (s.tasks.lookup k).isSome

theorem Joined.resolves (joined : Joined added s t) (resolves : Resolves specs keys s) : Resolves specs keys t :=
  ⟨resolves.keyed,by rw [joined.tasks]; exact resolves.present⟩

def Joins (keys : KeyedMap String String) (k : String) (deps : List String) (j d : String) : Prop :=
  j = k ∧ ∃ dep ∈ deps, keys.lookup dep = some d

def Wires (keys : KeyedMap String String) (specs : List TaskSpec) (k d : String) : Prop :=
  ∃ spec ∈ specs, keys.lookup spec.key = some k ∧ ∃ dep ∈ spec.dependsOn, keys.lookup dep = some d

theorem wireDeps_tracks (keeps : ∀ t, t.tasks = s.tasks → kept t) (resolves : Resolves specs keys s) (there : (s.tasks.lookup k).isSome) (deps : List String) :
    Tracks failure kept (deps.forM (wireDep failure keys k))
      (deps.forM fun depKey => match keys.lookup depKey with
        | none => pure ⟨⟩
        | some depId => addDependency k depId) s
      (deps.map fun dep => if known specs dep then 1 else 0).sum fun _ t => Joined (Joins keys k deps) s t := by
  refine .forM (fun dep => if known specs dep then 1 else 0) (fun done t => Joined (Joins keys k done) s t) deps ?_ fun earlier dep rest t _ joined => ?_
  · refine .refl (fun j d joins => ?_) s
    obtain ⟨_,_,member,_⟩ := joins
    exact List.not_mem_nil member
  have onward := joined.resolves resolves
  rw [onward.keyed dep]
  unfold wireDep
  cases found : keys.lookup dep with
  | none =>
    refine .pure _ (joined.congr fun j d => ?_)
    simp [Joins,found,or_and_right,exists_or]
  | some depId =>
    rw [← joined.tasks] at there
    refine (Tracks.call (addDependency_returns there (onward.present dep depId found)) (keeps t joined.tasks)).mono fun _ u added => ?_
    refine joined.trans added fun j d => ?_
    simp [Joins,found,or_and_right,exists_or,and_or_left,eq_comm]

theorem wireSpecs_tracks (keeps : ∀ t, t.tasks = s.tasks → kept t) (resolves : Resolves specs keys s) :
    Tracks failure kept (specs.forM (wireSpec failure keys)) (specs.forM (ProjectTasks.wireSpec keys)) s
      (specs.map (wireCalls specs)).sum fun _ t => Joined (Wires keys specs) s t := by
  refine .forM (wireCalls specs) (fun done t => Joined (Wires keys done) s t) specs ?_ fun earlier spec rest t whole joined => ?_
  · refine .refl (fun j d wires => ?_) s
    obtain ⟨_,member,_⟩ := wires
    exact List.not_mem_nil member
  have onward := joined.resolves resolves
  have wires_snoc : ∀ j d, Wires keys (earlier ++ [spec]) j d ↔
      Wires keys earlier j d ∨ (keys.lookup spec.key = some j ∧ ∃ dep ∈ spec.dependsOn, keys.lookup dep = some d) := by
    intro j d
    simp [Wires,or_and_right,exists_or]
  have member : spec ∈ specs := whole ▸ List.mem_append_right _ List.mem_cons_self
  cases own : keys.lookup spec.key with
  | none =>
    have there := known_self member
    rw [resolves.keyed,own] at there
    cases there
  | some k =>
    simp only [wireSpec,ProjectTasks.wireSpec,own]
    have still : ∀ u : Store, u.tasks = t.tasks → kept u := fun u same => keeps u (same.trans joined.tasks)
    refine (wireDeps_tracks still onward (onward.present _ k own) spec.dependsOn).mono fun _ u added => joined.trans added fun j d => ?_
    rw [wires_snoc,own]
    simp [Joins,eq_comm]

end Wiring

section Blocking
variable {failure : ApiError} {kept : Store → Prop} {specs : List TaskSpec} {keys : KeyedMap String String}

-- Between the two stores statuses, the handoff log and nothing else changed.
def Restatuses (status : String → TaskStatus → TaskStatus) (s t : Store) : Prop := Restated s t status ∧ t.members = s.members

theorem setBlocked_returns (found : s.tasks.lookup k = some row) :
    Returns (setStatus k .blocked) s fun _ t => Restatuses (fun j old => if j = k then .blocked else old) s t := by
  obtain ⟨value,t,outcome,set⟩ := setStatus_returns found .blocked
  have keeps : Keeps (fun u : Store => u.members = s.members) (setStatus k .blocked) := modifyTask_members _
  have same := keeps s rfl
  rw [outcome] at same
  exact ⟨value,t,outcome,set,same⟩

theorem logEntry_returns (entry : NewHandoff) (s : Store) : Returns (logHandoff entry) s fun _ t => Restatuses (fun _ status => status) s t :=
  ⟨_,_,rfl,⟨rfl,fun k => by simp⟩,rfl⟩

theorem Restatuses.trans {one two : String → TaskStatus → TaskStatus} (first : Restatuses one s t) (second : Restatuses two t u) :
    Restatuses (fun k status => two k (one k status)) s u := ⟨first.1.trans second.1,second.2.trans first.2⟩

theorem Restatuses.congr {one two : String → TaskStatus → TaskStatus} (changed : Restatuses one s t)
    (same : ∀ k row, s.tasks.lookup k = some row → one k row.status = two k row.status) : Restatuses two s t := by
  refine ⟨⟨changed.1.1,fun k => ?_⟩,changed.2⟩
  rw [changed.1.2]
  cases found : s.tasks.lookup k with
  | none => rfl
  | some row => simp only [Option.map_some,same k row found]

-- The status in which a task is left whose dependencies were looked at.
def lateStatus (s : Store) (k : String) (status : TaskStatus) : TaskStatus :=
  if s.dependenciesSatisfied k then status else .blocked

theorem get_returns (s : Store) : Returns (get : Program Store ApiError Store) s fun value t => value = s ∧ t = s := ⟨s,s,rfl,rfl,rfl⟩

theorem blockIfUnsatisfied_tracks (keeps : ∀ status t, Restated s t status → kept t) (found : s.tasks.lookup k = some row) :
    Tracks failure kept (blockIfUnsatisfied failure k) (ProjectTasks.blockIfUnsatisfied k) s (if s.dependenciesSatisfied k then 1 else 3)
      fun _ t => Restatuses (fun j old => if j = k then lateStatus s k old else old) s t := by
  have look := get_returns s
  have self := keeps _ s (.refl s)
  cases satisfied : s.dependenciesSatisfied k with
  | true =>
    change Tracks _ _ _ _ _ (1 + 0) _
    refine (Tracks.call look self).bind fun value t same => ?_
    obtain ⟨rfl,rfl⟩ := same
    rw [if_pos satisfied,if_pos satisfied]
    refine .pure false ⟨?_,rfl⟩
    simp only [lateStatus,satisfied,if_true,ite_self]
    exact .refl _
  | false =>
    change Tracks _ _ _ _ _ (1 + (1 + (1 + 0))) _
    refine (Tracks.call look self).bind fun value t same => ?_
    obtain ⟨rfl,rfl⟩ := same
    rw [if_neg (Bool.eq_false_iff.mp satisfied),if_neg (Bool.eq_false_iff.mp satisfied)]
    refine (Tracks.call (setBlocked_returns found) self).bind fun _ middle set => ?_
    refine (Tracks.call (logEntry_returns _ middle) (keeps _ middle set.1)).bind fun _ u logged => ?_
    refine .pure true ((set.trans logged).congr fun j old _ => ?_)
    simp only [lateStatus,satisfied,Bool.false_eq_true,if_false]

-- What the third pass returns for a spec.
def shown (s : Store) (keys : KeyedMap String String) (spec : TaskSpec) : Option TaskRow :=
  (keys.lookup spec.key).bind fun k => (s.tasks.lookup k).map fun row => { row with status := lateStatus s k row.status }

def looked (s : Store) (keys : KeyedMap String String) (done : List TaskSpec) (k : String) (status : TaskStatus) : TaskStatus :=
  if done.any fun spec => keys.lookup spec.key = some k then lateStatus s k status else status

theorem lateStatus_looked : lateStatus s k (looked s keys done k status) = lateStatus s k status := by
  unfold lateStatus looked
  split
  · split
    · rename_i satisfied _
      simp [lateStatus,satisfied]
    · rfl
  · rfl

theorem looked_snoc {spec : TaskSpec} (own : keys.lookup spec.key = some k) :
    looked s keys (done ++ [spec]) j status = if j = k then lateStatus s k (looked s keys done k status) else looked s keys done j status := by
  rw [lateStatus_looked]
  by_cases same : j = k
  · subst same
    simp [looked,own]
  · rw [if_neg same]
    simp [looked,own,Ne.symm same]

theorem blockSpec_tracks {spec : TaskSpec} (keeps : ∀ status t, Restated s t status → kept t) (own : keys.lookup spec.key = some k)
    (found : s.tasks.lookup k = some row) :
    Tracks failure kept (blockSpec failure keys spec) (ProjectTasks.blockSpec keys spec) s (if s.dependenciesSatisfied k then 2 else 4)
      fun result t => Restatuses (fun j old => if j = k then lateStatus s k old else old) s t ∧
        result = some { row with status := lateStatus s k row.status } := by
  rw [show (if s.dependenciesSatisfied k then 2 else 4) = (if s.dependenciesSatisfied k then 1 else 3) + (1 + 0) by split <;> rfl]
  simp only [blockSpec,ProjectTasks.blockSpec,own]
  refine (blockIfUnsatisfied_tracks keeps found).bind fun _ t changed => ?_
  refine (Tracks.call (get_returns t) (keeps _ t changed.1)).bind fun value u same => ?_
  obtain ⟨rfl,rfl⟩ := same
  refine .pure _ ⟨changed,?_⟩
  rw [changed.1.found found,if_pos rfl]

theorem blockSpecs_tracks (keeps : ∀ status t, Restated s t status → kept t)
    (idle : ∀ spec ∈ specs, ∃ k row, keys.lookup spec.key = some k ∧ s.tasks.lookup k = some row ∧ row.status = .todo)
    (waiting : ∀ spec ∈ specs, ∀ k, keys.lookup spec.key = some k → waits specs spec = !s.dependenciesSatisfied k) :
    Tracks failure kept (specs.mapM (blockSpec failure keys)) (specs.mapM (ProjectTasks.blockSpec keys)) s (specs.map (blockCalls specs)).sum
      fun results t => Restatuses (looked s keys specs) s t ∧ results = specs.map (shown s keys) := by
  refine .mapM (blockCalls specs) (fun done results t => Restatuses (looked s keys done) s t ∧ results = done.map (shown s keys)) specs ⟨⟨.refl s,rfl⟩,rfl⟩
    fun earlier spec rest results t whole holds => ?_
  obtain ⟨changed,rfl⟩ := holds
  have inside : ∀ other ∈ earlier ++ [spec], other ∈ specs := by
    intro other member
    rw [whole,List.append_cons]
    exact List.mem_append_left _ member
  have member := inside spec (List.mem_append_right _ (List.mem_singleton_self _))
  obtain ⟨k,row,own,found,todo⟩ := idle spec member
  have satisfied : ∀ j, t.dependenciesSatisfied j = s.dependenciesSatisfied j := by
    refine changed.1.satisfied fun j old there => ?_
    unfold looked
    split
    · rename_i listed
      simp only [List.any_eq_true,decide_eq_true_eq] at listed
      obtain ⟨other,earlier_one,same⟩ := listed
      obtain ⟨k,row,other_own,other_found,idle_status⟩ := idle other (inside other (List.mem_append_left _ earlier_one))
      obtain rfl : k = j := Option.some.inj (other_own.symm.trans same)
      obtain rfl : row = old := Option.some.inj (other_found.symm.trans there)
      rw [idle_status]
      unfold lateStatus
      split <;> simp
    · rfl
  have late : ∀ status, lateStatus t k status = lateStatus s k status := fun status => by unfold lateStatus; rw [satisfied]
  have still : ∀ status u, Restated t u status → kept u := fun status u after => keeps _ u (changed.1.trans after)
  have price : blockCalls specs spec = if t.dependenciesSatisfied k then 2 else 4 := by
    unfold blockCalls
    rw [waiting spec member k own,satisfied]
    cases s.dependenciesSatisfied k <;> rfl
  rw [price]
  refine (blockSpec_tracks still own (changed.1.found found)).mono fun result u after => ?_
  obtain ⟨set,rfl⟩ := after
  refine ⟨(changed.trans set).congr fun j old there => ?_,?_⟩
  · rw [looked_snoc own]
    simp only [late]
    by_cases same : j = k
    · rw [if_pos same,if_pos same,same]
    · rw [if_neg same,if_neg same]
  · rw [List.map_append,List.map_singleton]
    simp only [shown,own,found,Option.bind_some,Option.map_some,late,lateStatus_looked]

end Blocking

section Passes
variable {failure : ApiError} {freshIds : Nat → String} {projectId createdBy : String} {specs : List TaskSpec} {keys : KeyedMap String String}

-- A key stands for the last spec that has it.
theorem Planted.mapped (planted : Planted freshIds projectId createdBy s t specs 0 ∅ keys) (found : keys.lookup key = some k) :
    ∃ i spec, specs[i]? = some spec ∧ spec.key = key ∧ k = freshIds i ∧ t.tasks.lookup k = some (specRow freshIds projectId createdBy i spec) := by
  by_cases there : known specs key = true
  · obtain ⟨i,spec,place,same,last⟩ := planted.last key there
    have row := planted.rows i spec place
    rw [Nat.zero_add] at last row
    obtain rfl : k = freshIds i := Option.some.inj (found.symm.trans last)
    exact ⟨i,spec,place,same,rfl,row⟩
  · rw [planted.rest key (Bool.eq_false_iff.mpr there)] at found
    simp at found

theorem Planted.resolves (planted : Planted freshIds projectId createdBy s t specs 0 ∅ keys) : Resolves specs keys t := by
  refine ⟨fun key => ?_,fun key k found => ?_⟩
  · cases there : known specs key with
    | true =>
      obtain ⟨_,_,_,_,last⟩ := planted.last key there
      rw [last]; rfl
    | false => rw [planted.rest key there]; simp
  · obtain ⟨_,_,_,_,_,row⟩ := planted.mapped found
    rw [row]; rfl

theorem Planted.one_key (planted : Planted freshIds projectId createdBy s t specs 0 ∅ keys) (apart : Function.Injective freshIds)
    (one : keys.lookup a = some k) (two : keys.lookup b = some k) : a = b := by
  obtain ⟨i,spec,place,rfl,rfl,_⟩ := planted.mapped one
  obtain ⟨j,other,there,rfl,same,_⟩ := planted.mapped two
  obtain rfl := apart same
  rw [place] at there
  rw [Option.some.inj there]

-- An edge out of a new task is one that the second pass added.
theorem Planted.edge_new (planted : Planted freshIds projectId createdBy s t specs 0 ∅ keys) (sound : Sound s) (unused : ∀ i, s.tasks.lookup (freshIds i) = none)
    (joined : Joined (Wires keys specs) t u) : (freshIds i,d) ∈ u.dependencies ↔ Wires keys specs (freshIds i) d := by
  rw [joined.edges,planted.frame.2.2.2]
  refine ⟨fun either => either.resolve_left fun old => ?_,.inr⟩
  obtain ⟨row,found⟩ := (sound.edges _ d old).1
  rw [unused i] at found
  cases found

-- A new task is held up as soon as it has an edge: no new task is done.
theorem Planted.unsatisfied (planted : Planted freshIds projectId createdBy s t specs 0 ∅ keys) (sound : Sound s) (unused : ∀ i, s.tasks.lookup (freshIds i) = none)
    (joined : Joined (Wires keys specs) t u) : u.dependenciesSatisfied (freshIds i) = false ↔ ∃ d, (freshIds i,d) ∈ u.dependencies := by
  rw [← Bool.not_eq_true,satisfied_iff]
  constructor
  · intro unmet
    by_contra none
    exact unmet fun d _ edge => absurd ⟨d,edge⟩ none
  · rintro ⟨d,edge⟩ satisfied
    obtain ⟨_,_,_,dep,_,found⟩ := (planted.edge_new sound unused joined).mp edge
    obtain ⟨j,target,_,_,rfl,row⟩ := planted.mapped found
    cases satisfied (freshIds j) _ edge (by rw [joined.tasks]; exact row)

theorem Planted.waiting (planted : Planted freshIds projectId createdBy s t specs 0 ∅ keys) (sound : Sound s) (ids : FreshIds s freshIds)
    (joined : Joined (Wires keys specs) t u) {spec : TaskSpec} (own : keys.lookup spec.key = some k) :
    waits specs spec = !u.dependenciesSatisfied k := by
  obtain ⟨i,_,_,_,rfl,_⟩ := planted.mapped own
  rw [Bool.eq_iff_iff,Bool.not_eq_true',planted.unsatisfied sound ids.unused joined]
  simp only [waits,List.any_eq_true,Bool.and_eq_true,decide_eq_true_eq]
  constructor
  · rintro ⟨other,member,same,dep,needed,there⟩
    rw [planted.resolves.keyed dep] at there
    obtain ⟨d,found⟩ := Option.isSome_iff_exists.mp there
    exact ⟨d,(planted.edge_new sound ids.unused joined).mpr ⟨other,member,same ▸ own,dep,needed,found⟩⟩
  · rintro ⟨d,edge⟩
    obtain ⟨other,member,found,dep,needed,there⟩ := (planted.edge_new sound ids.unused joined).mp edge
    exact ⟨other,member,planted.one_key ids.apart found own,dep,needed,by rw [planted.resolves.keyed,there]; rfl⟩

-- What the three passes leave and return.
structure Laid (freshIds : Nat → String) (projectId createdBy : String) (s : Store) (specs : List TaskSpec) (created : List TaskRow) (t : Store) : Prop where
  stages : ∃ keys planted wired, Planted freshIds projectId createdBy s planted specs 0 ∅ keys ∧ Joined (Wires keys specs) planted wired ∧
    Restatuses (looked wired keys specs) wired t ∧ created = (specs.map (shown wired keys)).filterMap id

theorem later_tracks (sound : Sound s) (ids : FreshIds s freshIds) (planted : Planted freshIds projectId createdBy s t specs 0 ∅ keys)
    (begun : Begun freshIds t) :
    Tracks failure (Begun freshIds)
      (specs.forM (wireSpec failure keys) >>= fun _ => specs.mapM (blockSpec failure keys) >>= fun created => pure (created.filterMap id))
      (specs.forM (ProjectTasks.wireSpec keys) >>= fun _ => specs.mapM (ProjectTasks.blockSpec keys) >>= fun created => pure (created.filterMap id)) t
      ((specs.map (wireCalls specs)).sum + ((specs.map (blockCalls specs)).sum + 0))
      fun created u => Laid freshIds projectId createdBy s specs created u := by
  obtain ⟨row,there⟩ := begun
  have still : ∀ u : Store, u.tasks = t.tasks → Begun freshIds u := fun u same => ⟨row,by rw [same]; exact there⟩
  refine (wireSpecs_tracks still planted.resolves).bind fun _ middle joined => ?_
  have begun : ∀ status u, Restated middle u status → Begun freshIds u := fun status u set =>
    ⟨_,set.found (by rw [joined.tasks]; exact there)⟩
  have idle : ∀ spec ∈ specs, ∃ k row, keys.lookup spec.key = some k ∧ middle.tasks.lookup k = some row ∧ row.status = .todo := by
    intro spec member
    have there := known_self member
    rw [planted.resolves.keyed] at there
    obtain ⟨k,own⟩ := Option.isSome_iff_exists.mp there
    obtain ⟨i,other,_,_,rfl,row⟩ := planted.mapped own
    exact ⟨freshIds i,_,own,by rw [joined.tasks]; exact row,rfl⟩
  refine (blockSpecs_tracks begun idle fun spec member k own => planted.waiting sound ids joined own).bind fun results u set => .pure _ ?_
  obtain ⟨set,rfl⟩ := set
  exact ⟨keys,t,middle,planted,joined,set,rfl⟩

theorem template_read (found : s.templates.lookup templateId = some (.ok specs)) (n : Nat) :
    perform (instantiate failure freshIds projectId templateId createdBy) ⟨s,1 + n⟩ =
      perform (createSpecs failure freshIds projectId createdBy specs 0 ∅ >>= fun keys =>
        specs.forM (wireSpec failure keys) >>= fun _ => specs.mapM (blockSpec failure keys) >>= fun created => pure (created.filterMap id)) ⟨s,n⟩ := by
  unfold instantiate
  rw [perform_bind,perform_call,perform_get]
  simp only [found]

theorem template_read_plain (found : s.templates.lookup templateId = some (.ok specs)) :
    perform (ProjectTasks.instantiate freshIds projectId templateId createdBy) s =
      perform (ProjectTasks.createSpecs freshIds projectId createdBy specs 0 ∅ >>= fun keys =>
        specs.forM (ProjectTasks.wireSpec keys) >>= fun _ => specs.mapM (ProjectTasks.blockSpec keys) >>= fun created => pure (created.filterMap id)) s := by
  unfold ProjectTasks.instantiate
  rw [perform_bind,perform_get]
  simp only [found]

-- The three ways a call of the service ends, by the calls that are answered.
theorem instantiate_outcome (sound : Sound s) (ids : FreshIds s freshIds) (found : s.templates.lookup templateId = some (.ok specs))
    (member : projectId ∈ s.projects) (some_spec : specs ≠ []) (n : Nat) :
    (n ≤ 1 ∧ ∃ line, perform (instantiate failure freshIds projectId templateId createdBy) ⟨s,n⟩ = (.error failure,line) ∧ line.state = s) ∨
    (2 ≤ n ∧ n < callsOf specs ∧ ∃ line, perform (instantiate failure freshIds projectId templateId createdBy) ⟨s,n⟩ = (.error failure,line) ∧
      Begun freshIds line.state) ∨
    (2 ≤ n ∧ callsOf specs ≤ n ∧ ∃ created line, perform (instantiate failure freshIds projectId templateId createdBy) ⟨s,n⟩ = (.ok created,line) ∧
      perform (ProjectTasks.instantiate freshIds projectId templateId createdBy) s = (.ok created,line.state) ∧
      Laid freshIds projectId createdBy s specs created line.state) := by
  match n with
  | 0 => exact .inl ⟨by omega,_,by unfold instantiate; rw [perform_bind,perform_call_dead],rfl⟩
  | 1 =>
    refine .inl ⟨Nat.le_refl 1,⟨s,0⟩,?_,rfl⟩
    rw [template_read found 0]
    cases specs with
    | nil => exact absurd rfl some_spec
    | cons spec rest => rfl
  | n + 2 =>
    cases specs with
    | nil => exact absurd rfl some_spec
    | cons spec rest =>
      let params := specTask projectId createdBy 0 spec
      have passes : perform (create (freshIds 0) params) s = _ := create_passes member (ids.unused 0) spec
      have begun : Begun freshIds (s.insertTask (freshIds 0) params) := ⟨_,by rw [insertTask_lookup]; exact if_pos rfl⟩
      have others : ∀ i, (s.insertTask (freshIds 0) params).tasks.lookup (freshIds (0 + 1 + i)) = none := by
        intro i
        rw [insertTask_lookup,if_neg fun same => absurd (ids.apart same) (by omega)]
        exact ids.unused _
      -- The first task is there from here on.
      have there : (s.insertTask (freshIds 0) params).tasks.lookup (params.row (freshIds 0)).id = some (params.row (freshIds 0)) := by
        rw [insertTask_lookup]
        exact if_pos rfl
      have planting := createSpecs_onward there begun spec ∅
        (@createSpecs_tracks failure freshIds projectId createdBy _ ids.apart rest (0 + 1) ((∅ : KeyedMap String String).insert spec.key (freshIds 0)) member others begun)
      have onward := planting.bind fun keys t made => later_tracks sound ids (made.1.cons ids.apart) made.2
      have limited : ∀ next : KeyedMap String String → Program (Line Store) ApiError (List TaskRow),
          perform (createSpecs failure freshIds projectId createdBy (spec :: rest) 0 ∅ >>= next) ⟨s,1 + n⟩ =
          perform ((call failure (fetchInserted (params.row (freshIds 0)).id) >>= fun task =>
            createSpecs failure freshIds projectId createdBy rest (0 + 1) ((∅ : KeyedMap String String).insert spec.key task.id)) >>= next)
            ⟨s.insertTask (freshIds 0) params,n⟩ := by
        intro next
        change perform ((call failure (create (freshIds 0) params) >>= fun task => call failure (fetchInserted task.id) >>= fun task =>
          createSpecs failure freshIds projectId createdBy rest (0 + 1) ((∅ : KeyedMap String String).insert spec.key task.id)) >>= next) _ = _
        rw [perform_bind,perform_bind,perform_call,passes]
        exact (perform_bind _ next _).symm
      have plain : ∀ next : KeyedMap String String → Program Store ApiError (List TaskRow),
          perform (ProjectTasks.createSpecs freshIds projectId createdBy (spec :: rest) 0 ∅ >>= next) s =
          perform (ProjectTasks.createSpecs freshIds projectId createdBy rest (0 + 1) ((∅ : KeyedMap String String).insert spec.key (freshIds 0)) >>= next)
            (s.insertTask (freshIds 0) params) := by
        intro next
        change perform ((create (freshIds 0) params >>= fun task =>
          ProjectTasks.createSpecs freshIds projectId createdBy rest (0 + 1) ((∅ : KeyedMap String String).insert spec.key task.id)) >>= next) _ = _
        rw [perform_bind,perform_bind,passes]
        exact (perform_bind _ next _).symm
      rw [show n + 2 = 1 + (1 + n) by omega,template_read found,limited,template_read_plain found,plain]
      have price : callsOf (spec :: rest) = 2 + (1 + rest.length * 2 + (((spec :: rest).map (wireCalls (spec :: rest))).sum +
          (((spec :: rest).map (blockCalls (spec :: rest))).sum + 0))) := by
        unfold callsOf
        rw [List.length_cons]
        omega
      rw [price]
      by_cases short : n < 1 + rest.length * 2 + (((spec :: rest).map (wireCalls (spec :: rest))).sum +
          (((spec :: rest).map (blockCalls (spec :: rest))).sum + 0))
      · exact .inr (.inl ⟨by omega,by omega,onward.short n short⟩)
      · obtain ⟨more,rfl⟩ := Nat.exists_eq_add_of_le (Nat.le_of_not_lt short)
        obtain ⟨created,t,whole,laid,runs⟩ := onward.enough
        exact .inr (.inr ⟨by omega,by omega,created,⟨t,more⟩,runs more,whole,laid⟩)

end Passes

end AlineaCopilot.PipelineInstantiation
