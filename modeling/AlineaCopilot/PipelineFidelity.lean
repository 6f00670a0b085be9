import AlineaCopilot.PipelineInstantiation
import AlineaCopilot.ProjectTaskOrder
open AlineaCopilot.KeyedMaps AlineaCopilot.StatefulPrograms AlineaCopilot.InterruptedPrograms AlineaCopilot.TransitionRuns Relation

namespace AlineaCopilot.PipelineInstantiation
open ProjectTasks

-- The first key is listed by a spec of the second.
def Needs (specs : List TaskSpec) (dep key : String) : Prop := ∃ spec ∈ specs, spec.key = key ∧ dep ∈ spec.dependsOn

def Acyclic (specs : List TaskSpec) : Prop := ∀ key, ¬TransGen (Needs specs) key key

-- The edge between the tasks of two specs of which the first lists the second.
def Paired (specs : List TaskSpec) (created : List TaskRow) (k d : String) : Prop :=
  ∃ (i j : Nat) (spec other : TaskSpec) (task dep : TaskRow), specs[i]? = some spec ∧ specs[j]? = some other ∧ created[i]? = some task ∧
    created[j]? = some dep ∧ other.key ∈ spec.dependsOn ∧ k = task.id ∧ d = dep.id

-- The tables hold one new task for each spec, in the order of the specs, wired
-- as the template says, and all of them can be worked through.
structure Instantiated (s t : Store) (specs : List TaskSpec) (projectId createdBy : String) (created : List TaskRow) : Prop where
  count : created.length = specs.length
  own : ∀ i spec task, specs[i]? = some spec → created[i]? = some task →
    task = { (specTask projectId createdBy i spec).row task.id with status := task.status }
  apart : (created.map TaskRow.id).Nodup
  new : ∀ task ∈ created, s.tasks.lookup task.id = none ∧ t.tasks.lookup task.id = some task
  others : ∀ k, k ∉ created.map TaskRow.id → t.tasks.lookup k = s.tasks.lookup k
  edges : ∀ k d, (k,d) ∈ t.dependencies ↔ (k,d) ∈ s.dependencies ∨ Paired specs created k d
  blocked : ∀ task ∈ created, task.status = .blocked ↔ ∃ d, (task.id,d) ∈ t.dependencies
  finishable : ∃ requests u, Runs serve t requests u ∧ (∀ request ∈ requests, ∃ actor, Onward actor request) ∧ ∀ task ∈ created, u.isDone task.id

-- An error leaves the tables as they were.
def Faithful (s : Store) (specs : List TaskSpec) (projectId createdBy : String) (outcome : Except ApiError (List TaskRow) × Line Store) : Prop :=
  match outcome.1 with
  | .error _ => outcome.2.state = s
  | .ok created => Instantiated s outcome.2.state specs projectId createdBy created

section Rows
variable {freshIds : Nat → String} {projectId createdBy : String} {s t : Store} {specs : List TaskSpec} {created : List TaskRow}

theorem map_some_filterMap (options : List (Option α)) (all : ∀ option ∈ options, option.isSome) : (options.filterMap id).map some = options := by
  induction options with
  | nil => rfl
  | cons first rest ih =>
    obtain ⟨value,rfl⟩ := Option.isSome_iff_exists.mp (all first List.mem_cons_self)
    rw [List.filterMap_cons_some (f := id) rfl,List.map_cons,ih fun option member => all option (List.mem_cons_of_mem _ member)]

-- What the passes leave, seen from the task of each spec.
structure Rows (freshIds : Nat → String) (projectId createdBy : String) (s t : Store) (specs : List TaskSpec) (keys : KeyedMap String String)
    (created : List TaskRow) : Prop where
  ids : (created.map fun task => some task.id) = specs.map fun spec => keys.lookup spec.key
  mapped : ∀ key k, keys.lookup key = some k → ∃ (i : Nat) (spec : TaskSpec), specs[i]? = some spec ∧ spec.key = key ∧ k = freshIds i
  rows : ∀ (i : Nat) (spec : TaskSpec) (task : TaskRow), specs[i]? = some spec → created[i]? = some task → ∃ (j : Nat) (other : TaskSpec), specs[j]? = some other ∧ other.key = spec.key ∧ task.id = freshIds j ∧
    task = { specRow freshIds projectId createdBy j other with status := task.status } ∧ t.tasks.lookup task.id = some task
  statuses : ∀ task ∈ created, Unstarted task.status ∧ (task.status = .blocked ↔ ∃ d, (task.id,d) ∈ t.dependencies)
  others : ∀ k, (∀ i, i < specs.length → k ≠ freshIds i) → t.tasks.lookup k = s.tasks.lookup k
  edges : ∀ k d, (k,d) ∈ t.dependencies ↔ (k,d) ∈ s.dependencies ∨ Wires keys specs k d
  members : t.members = s.members

theorem Laid.rows (laid : Laid freshIds projectId createdBy s specs created t) (sound : Sound s) (ids : FreshIds s freshIds) :
    ∃ keys, Rows freshIds projectId createdBy s t specs keys created := by
  obtain ⟨keys,middle,wired,planted,joined,changed,listed⟩ := laid.stages
  -- The row that the third pass shows for a spec is the one it leaves.
  have each : ∀ spec ∈ specs, ∃ (i : Nat) (other : TaskSpec), specs[i]? = some other ∧ other.key = spec.key ∧ keys.lookup spec.key = some (freshIds i) ∧
      shown wired keys spec = some { specRow freshIds projectId createdBy i other with status := lateStatus wired (freshIds i) .todo } ∧
      t.tasks.lookup (freshIds i) = some { specRow freshIds projectId createdBy i other with status := lateStatus wired (freshIds i) .todo } := by
    intro spec member
    have there := known_self member
    rw [planted.resolves.keyed] at there
    obtain ⟨k,own⟩ := Option.isSome_iff_exists.mp there
    obtain ⟨i,other,place,same,rfl,row⟩ := planted.mapped own
    rw [← joined.tasks] at row
    refine ⟨i,other,place,same,own,?_,?_⟩
    · simp only [shown,own,Option.bind_some,row,Option.map_some]
      rfl
    · have listed_key : (specs.any fun spec => keys.lookup spec.key = some (freshIds i)) = true :=
        List.any_eq_true.mpr ⟨spec,member,decide_eq_true own⟩
      rw [changed.1.found row,looked,if_pos listed_key]
      rfl
  have shown_all : created.map some = specs.map (shown wired keys) := by
    rw [listed]
    refine map_some_filterMap _ fun option member => ?_
    obtain ⟨spec,inside,rfl⟩ := List.mem_map.mp member
    obtain ⟨_,_,_,_,_,shows,_⟩ := each spec inside
    rw [shows]
    rfl
  refine ⟨keys,?_,fun key k found => ?_,fun i spec task place at_place => ?_,fun task member => ?_,fun k outside => ?_,fun k d => ?_,?_⟩
  · have names := congrArg (List.map (Option.map TaskRow.id)) shown_all
    rw [List.map_map,List.map_map] at names
    refine names.trans (List.map_congr_left fun spec member => ?_)
    obtain ⟨i,_,_,_,own,shows,_⟩ := each spec member
    rw [Function.comp_apply,shows,own]
    rfl
  · obtain ⟨i,spec,place,same,fresh,_⟩ := planted.mapped found
    exact ⟨i,spec,place,same,fresh⟩
  · obtain ⟨j,other,there,same,_,shows,stands⟩ := each spec (List.mem_of_getElem? place)
    have column := congrArg (fun options => options[i]?) shown_all
    simp only [List.getElem?_map,place,at_place,Option.map_some,shows] at column
    obtain rfl := Option.some.inj (Option.some.inj column)
    exact ⟨j,other,there,same,rfl,rfl,stands⟩
  · have listed_task : some task ∈ specs.map (shown wired keys) := shown_all ▸ List.mem_map_of_mem member
    obtain ⟨spec,inside,shows_task⟩ := List.mem_map.mp listed_task
    obtain ⟨j,other,_,_,_,shows,_⟩ := each spec inside
    obtain rfl := Option.some.inj (shows_task.symm.trans shows)
    have edges : (∃ d, (freshIds j,d) ∈ t.dependencies) ↔ wired.dependenciesSatisfied (freshIds j) = false := by
      rw [planted.unsatisfied sound ids.unused joined,changed.1.1]
    change Unstarted (lateStatus wired (freshIds j) .todo) ∧ (lateStatus wired (freshIds j) .todo = .blocked ↔ ∃ d, (freshIds j,d) ∈ t.dependencies)
    rw [edges]
    unfold lateStatus
    cases wired.dependenciesSatisfied (freshIds j) with
    | true => exact ⟨.inl rfl,by decide⟩
    | false => exact ⟨.inr rfl,by decide⟩
  · have silent : ∀ status, looked wired keys specs k status = status := by
      intro status
      unfold looked
      rw [if_neg]
      intro some_key
      simp only [List.any_eq_true,decide_eq_true_eq] at some_key
      obtain ⟨spec,_,own⟩ := some_key
      obtain ⟨i,other,place,_,fresh,_⟩ := planted.mapped own
      exact outside i (List.getElem?_eq_some_iff.mp place).1 fresh
    rw [changed.1.2,joined.tasks,planted.others k fun i below => by rw [Nat.zero_add]; exact outside i below]
    simp only [silent,Option.map_id']
  · rw [changed.1.1,joined.edges,planted.frame.2.2.2]
  · rw [changed.2,joined.members,planted.frame.2.1]

section Exact
variable {keys : KeyedMap String String} {i j : Nat} {spec other : TaskSpec} {task : TaskRow}

theorem Rows.named (rows : Rows freshIds projectId createdBy s t specs keys created) (place : specs[i]? = some spec) (there : created[i]? = some task) :
    keys.lookup spec.key = some task.id := by
  have column := congrArg (fun options => options[i]?) rows.ids
  simp only [List.getElem?_map,place,there,Option.map_some] at column
  exact (Option.some.inj column).symm

theorem Rows.count (rows : Rows freshIds projectId createdBy s t specs keys created) : created.length = specs.length := by
  have lengths := congrArg List.length rows.ids
  rwa [List.length_map,List.length_map] at lengths

theorem Rows.task_of (rows : Rows freshIds projectId createdBy s t specs keys created) (place : specs[i]? = some spec) :
    ∃ task, created[i]? = some task := by
  obtain ⟨below,_⟩ := List.getElem?_eq_some_iff.mp place
  rw [← rows.count] at below
  exact ⟨created[i],List.getElem?_eq_getElem below⟩

theorem Rows.spec_of (rows : Rows freshIds projectId createdBy s t specs keys created) (member : task ∈ created) :
    ∃ (i : Nat) (spec : TaskSpec), specs[i]? = some spec ∧ created[i]? = some task := by
  obtain ⟨i,there⟩ := List.mem_iff_getElem?.mp member
  obtain ⟨below,_⟩ := List.getElem?_eq_some_iff.mp there
  rw [rows.count] at below
  exact ⟨i,specs[i],List.getElem?_eq_getElem below,there⟩

theorem Rows.wires (rows : Rows freshIds projectId createdBy s t specs keys created) : Wires keys specs k d ↔ Paired specs created k d := by
  constructor
  · rintro ⟨spec,member,own,dep,listed,found⟩
    obtain ⟨i,place⟩ := List.mem_iff_getElem?.mp member
    obtain ⟨j,other,there,rfl,_⟩ := rows.mapped dep d found
    obtain ⟨task,one⟩ := rows.task_of place
    obtain ⟨target,two⟩ := rows.task_of there
    exact ⟨i,j,spec,other,task,target,place,there,one,two,listed,Option.some.inj (own.symm.trans (rows.named place one)),
      Option.some.inj (found.symm.trans (rows.named there two))⟩
  · rintro ⟨i,j,spec,other,task,target,place,there,one,two,listed,rfl,rfl⟩
    exact ⟨spec,List.mem_of_getElem? place,rows.named place one,other.key,listed,rows.named there two⟩

theorem Rows.one_key (rows : Rows freshIds projectId createdBy s t specs keys created) (apart : Function.Injective freshIds)
    (one : keys.lookup a = some k) (two : keys.lookup b = some k) : a = b := by
  obtain ⟨i,spec,place,rfl,rfl⟩ := rows.mapped a k one
  obtain ⟨j,other,there,rfl,fresh⟩ := rows.mapped b _ two
  obtain rfl := apart fresh
  rw [place] at there
  rw [Option.some.inj there]

-- The tasks differ exactly when the keys do.
theorem Rows.apart_iff (rows : Rows freshIds projectId createdBy s t specs keys created) (apart : Function.Injective freshIds) :
    (created.map TaskRow.id).Nodup ↔ (specs.map TaskSpec.key).Nodup := by
  have names : (created.map TaskRow.id).map some = (specs.map TaskSpec.key).map fun key => keys.lookup key := by
    rw [List.map_map,List.map_map]
    exact rows.ids
  constructor
  · intro distinct
    have images := distinct.map (Option.some_injective String)
    rw [names] at images
    exact images.of_map _
  · intro distinct
    refine List.Nodup.of_map some ?_
    rw [names]
    refine distinct.map_on fun a at_a b at_b same => ?_
    have image : keys.lookup a ∈ (created.map TaskRow.id).map some := names ▸ List.mem_map_of_mem at_a
    obtain ⟨k,_,found⟩ := List.mem_map.mp image
    exact rows.one_key apart found.symm (same.symm.trans found.symm)

-- With distinct keys each spec has the task that was made for it.
theorem Rows.own (rows : Rows freshIds projectId createdBy s t specs keys created) (distinct : (specs.map TaskSpec.key).Nodup)
    (place : specs[i]? = some spec) (there : created[i]? = some task) :
    task.id = freshIds i ∧ task = { specRow freshIds projectId createdBy i spec with status := task.status } ∧ t.tasks.lookup task.id = some task := by
  obtain ⟨j,other,at_place,same,fresh,row,stands⟩ := rows.rows i spec task place there
  obtain ⟨below,_⟩ := List.getElem?_eq_some_iff.mp place
  have one : i = j := by
    refine (List.getElem?_inj (by rwa [List.length_map]) distinct).mp ?_
    rw [List.getElem?_map,List.getElem?_map,place,at_place,Option.map_some,Option.map_some,same]
  subst one
  rw [place] at at_place
  obtain rfl := Option.some.inj at_place
  exact ⟨fresh,row,stands⟩

-- An edge out of a new task is one of the template's.
theorem Rows.edge (rows : Rows freshIds projectId createdBy s t specs keys created) (sound : Sound s) (fresh : s.tasks.lookup k = none)
    (edge : (k,d) ∈ t.dependencies) : Wires keys specs k d := by
  refine ((rows.edges k d).mp edge).resolve_left fun old => ?_
  obtain ⟨row,found⟩ := (sound.edges k d old).1
  rw [fresh] at found
  cases found

theorem Rows.path (rows : Rows freshIds projectId createdBy s t specs keys created) (sound : Sound s) (ids : FreshIds s freshIds)
    (fresh : ∀ k ∈ group, s.tasks.lookup k = none) (path : TransGen (Waits group t) d k) :
    ∃ dep key, keys.lookup dep = some d ∧ keys.lookup key = some k ∧ TransGen (Needs specs) dep key := by
  induction path with
  | single edge =>
    obtain ⟨spec,member,own,dep,listed,found⟩ := rows.edge sound (fresh _ edge.1) edge.2
    exact ⟨dep,spec.key,found,own,.single ⟨spec,member,rfl,listed⟩⟩
  | tail _ edge ih =>
    obtain ⟨first,middle,start,via,needs⟩ := ih
    obtain ⟨spec,member,own,dep,listed,found⟩ := rows.edge sound (fresh _ edge.1) edge.2
    obtain rfl := rows.one_key ids.apart via found
    exact ⟨first,spec.key,start,own,needs.tail ⟨spec,member,rfl,listed⟩⟩

theorem Rows.fresh (rows : Rows freshIds projectId createdBy s t specs keys created) (ids : FreshIds s freshIds) (member : k ∈ created.map TaskRow.id) :
    s.tasks.lookup k = none := by
  obtain ⟨task,inside,rfl⟩ := List.mem_map.mp member
  obtain ⟨i,spec,place,there⟩ := rows.spec_of inside
  obtain ⟨_,_,_,_,new,_⟩ := rows.rows i spec task place there
  rw [new]
  exact ids.unused _

-- No task of the tables has a new one as its parent.
theorem Rows.top (rows : Rows freshIds projectId createdBy s t specs keys created) (sound : Sound s) (distinct : (specs.map TaskSpec.key).Nodup)
    {k j : String} {row : TaskRow} (fresh : s.tasks.lookup k = none) (found : t.tasks.lookup j = some row) : row.parentTaskId ≠ some k := by
  intro under
  by_cases new : ∃ i, i < specs.length ∧ j = freshIds i
  · obtain ⟨i,below,rfl⟩ := new
    obtain ⟨task,there⟩ := rows.task_of (List.getElem?_eq_getElem below)
    obtain ⟨same,shape,stands⟩ := rows.own distinct (List.getElem?_eq_getElem below) there
    rw [same,found] at stands
    rw [Option.some.inj stands,shape] at under
    cases under
  · rw [rows.others j fun i below same => new ⟨i,below,same⟩] at found
    obtain ⟨_,other,there⟩ := sound.parents j row k found under
    rw [fresh] at there
    cases there

theorem Rows.pending (rows : Rows freshIds projectId createdBy s t specs keys created) (sound : Sound s) (later : Sound t) (ids : FreshIds s freshIds)
    (member : s.members.lookup (projectId,createdBy) = some perm) (distinct : (specs.map TaskSpec.key).Nodup) :
    Pending createdBy (created.map TaskRow.id) (created.map TaskRow.id) t := by
  refine ⟨later,fun k inside => ?_,fun k inside out => absurd inside out,fun k inside d edge => ?_⟩
  · obtain ⟨task,listed,rfl⟩ := List.mem_map.mp inside
    obtain ⟨i,spec,place,there⟩ := rows.spec_of listed
    obtain ⟨_,shape,stands⟩ := rows.own distinct place there
    have project : task.projectId = projectId := by rw [shape]; rfl
    refine ⟨task,stands,by rw [shape]; rfl,⟨perm,?_⟩,fun _ => (rows.statuses task listed).1⟩
    rw [rows.members,project]
    exact member
  · obtain ⟨i,j,spec,other,task,dep,_,_,_,there,_,_,rfl⟩ := rows.wires.mp (rows.edge sound (rows.fresh ids inside) edge)
    exact List.mem_map_of_mem (List.mem_of_getElem? there)

theorem Rows.instantiated (rows : Rows freshIds projectId createdBy s t specs keys created) (sound : Sound s) (later : Sound t) (ids : FreshIds s freshIds)
    (member : s.members.lookup (projectId,createdBy) = some perm) (distinct : (specs.map TaskSpec.key).Nodup) (acyclic : Acyclic specs) :
    Instantiated s t specs projectId createdBy created := by
  refine ⟨rows.count,fun i spec task place there => ?_,(rows.apart_iff ids.apart).mpr distinct,fun task inside => ?_,fun k outside => ?_,fun k d => ?_,
    fun task inside => (rows.statuses task inside).2,?_⟩
  · obtain ⟨fresh,row,_⟩ := rows.own distinct place there
    rw [fresh]
    exact row
  · obtain ⟨i,spec,place,there⟩ := rows.spec_of inside
    exact ⟨rows.fresh ids (List.mem_map_of_mem inside),(rows.own distinct place there).2.2⟩
  · refine rows.others k fun i below same => ?_
    obtain ⟨task,there⟩ := rows.task_of (List.getElem?_eq_getElem below)
    obtain ⟨fresh,_⟩ := rows.own distinct (List.getElem?_eq_getElem below) there
    exact outside (List.mem_map.mpr ⟨task,List.mem_of_getElem? there,fresh.trans same.symm⟩)
  · rw [rows.edges,rows.wires]
  · obtain ⟨requests,u,path,onward,done⟩ := all_finish (rows.pending sound later ids member distinct) (List.Subset.refl _) fun k cycle => by
      obtain ⟨dep,key,start,back,needs⟩ := rows.path sound ids (fun k inside => rows.fresh ids inside) cycle
      obtain rfl := rows.one_key ids.apart start back
      exact acyclic dep needs
    exact ⟨requests,u,path,fun request listed => ⟨createdBy,onward request listed⟩,fun task inside => done task.id (List.mem_map_of_mem inside)⟩

-- The tasks of a cycle are trapped from the start.
theorem Rows.trapped (rows : Rows freshIds projectId createdBy s t specs keys created) (sound : Sound s) (later : Sound t) (ids : FreshIds s freshIds)
    (distinct : (specs.map TaskSpec.key).Nodup) : Trapped (fun k => ∃ key, keys.lookup key = some k ∧ TransGen (Needs specs) key key) t := by
  refine ⟨later,?_,?_,?_⟩
  · rintro k ⟨key,found,_⟩
    obtain ⟨i,spec,place,rfl,rfl⟩ := rows.mapped key k found
    obtain ⟨task,there⟩ := rows.task_of place
    obtain ⟨fresh,_,stands⟩ := rows.own distinct place there
    exact ⟨task,fresh ▸ stands,(rows.statuses task (List.mem_of_getElem? there)).1⟩
  · rintro k ⟨key,found,cycle⟩
    obtain ⟨dep,before,needs⟩ := TransGen.tail'_iff.mp cycle
    have around : TransGen (Needs specs) dep dep := .head' needs before
    obtain ⟨_,_,_,member,rfl,_⟩ := TransGen.tail'_iff.mp around
    obtain ⟨i,place⟩ := List.mem_iff_getElem?.mp member
    obtain ⟨task,there⟩ := rows.task_of place
    obtain ⟨spec,listing,rfl,listed⟩ := needs
    have named := rows.named place there
    exact ⟨task.id,⟨_,named,around⟩,(rows.edges _ _).mpr (.inr ⟨spec,listing,found,_,listed,named⟩)⟩
  · rintro k ⟨key,found,_⟩ j row there
    obtain ⟨i,_,_,_,rfl⟩ := rows.mapped key k found
    exact rows.top sound distinct (ids.unused i) there

theorem Rows.instantiated_iff (rows : Rows freshIds projectId createdBy s t specs keys created) (sound : Sound s) (later : Sound t) (ids : FreshIds s freshIds)
    (member : s.members.lookup (projectId,createdBy) = some perm) :
    Instantiated s t specs projectId createdBy created ↔ (specs.map TaskSpec.key).Nodup ∧ Acyclic specs := by
  constructor
  · intro instantiated
    have distinct := (rows.apart_iff ids.apart).mp instantiated.apart
    refine ⟨distinct,fun key cycle => ?_⟩
    obtain ⟨requests,u,path,onward,done⟩ := instantiated.finishable
    obtain ⟨_,_,spec,inside,rfl,_⟩ := TransGen.tail'_iff.mp cycle
    obtain ⟨i,place⟩ := List.mem_iff_getElem?.mp inside
    obtain ⟨task,there⟩ := rows.task_of place
    exact trapped_run (rows.trapped sound later ids distinct) path onward ⟨spec.key,rows.named place there,cycle⟩ (done task (List.mem_of_getElem? there))
  · rintro ⟨distinct,acyclic⟩
    exact rows.instantiated sound later ids member distinct acyclic

end Exact

end Rows

section Service
variable {failure : ApiError} {freshIds : Nat → String} {projectId templateId createdBy : String} {s : Store} {specs : List TaskSpec}

theorem instantiated_nothing (s : Store) (projectId createdBy : String) : Instantiated s s [] projectId createdBy [] := by
  refine ⟨rfl,fun _ _ _ place => ?_,List.nodup_nil,fun _ member => ?_,fun _ _ => rfl,fun k d => ⟨.inl,fun either => either.elim (fun old => old) ?_⟩,
    fun _ member => ?_,[],s,.nil,fun _ member => ?_,fun _ member => ?_⟩
  · cases place
  · cases member
  · rintro ⟨_,_,_,_,_,_,place,_⟩
    cases place
  all_goals cases member

theorem unread (failure : ApiError) (freshIds : Nat → String) (projectId templateId createdBy : String) (s : Store) :
    perform (instantiate failure freshIds projectId templateId createdBy) ⟨s,0⟩ = (.error failure,⟨s,0⟩) := by
  unfold instantiate
  rw [perform_bind,perform_call_dead]

theorem nothing_planted (failure : ApiError) (freshIds : Nat → String) (projectId createdBy : String) (found : s.templates.lookup templateId = some (.ok [])) (n : Nat) :
    Faithful s [] projectId createdBy (perform (instantiate failure freshIds projectId templateId createdBy) ⟨s,n⟩) := by
  cases n with
  | zero =>
    rw [unread]
    rfl
  | succ n =>
    rw [Nat.add_comm,template_read found]
    exact instantiated_nothing s projectId createdBy

theorem project_missing (found : s.templates.lookup templateId = some (.ok specs)) (some_spec : specs ≠ []) (missing : projectId ∉ s.projects) (n : Nat) :
    Faithful s specs projectId createdBy (perform (instantiate failure freshIds projectId templateId createdBy) ⟨s,n⟩) := by
  cases specs with
  | nil => exact absurd rfl some_spec
  | cons spec rest =>
    match n with
    | 0 =>
      rw [unread]
      rfl
    | 1 =>
      rw [template_read found 0]
      rfl
    | n + 2 =>
      rw [show n + 2 = 1 + (1 + n) by omega,template_read found]
      rcases create_outcome (freshIds 0) (specTask projectId createdBy 0 spec) s with ⟨error,refused⟩ | ⟨passes,_⟩
      · change Faithful s _ projectId createdBy (perform ((call failure (create (freshIds 0) (specTask projectId createdBy 0 spec)) >>= _) >>= _) _)
        rw [perform_bind,perform_bind,perform_call,refused]
        rfl
      · exact absurd (constraintFailure_none.mp passes).2.1 missing

theorem later_sound (sound : Sound s) (outcome : perform (ProjectTasks.instantiate freshIds projectId templateId createdBy) s = (.ok created,t)) : Sound t := by
  have keeps := sound_maintained.instantiate freshIds projectId templateId createdBy s sound
  rwa [outcome] at keeps

-- The service is faithful exactly where nothing is to be created, the first
-- insert is not reached or refused, or every call is answered and the keys of the
-- template are distinct and do not depend on one another in a circle.
theorem pipeline_faithful_iff (sound : Sound s) (ids : FreshIds s freshIds) (member : s.members.lookup (projectId,createdBy) = some perm)
    (found : s.templates.lookup templateId = some (.ok specs)) (failure : ApiError) (n : Nat) :
    Faithful s specs projectId createdBy (perform (instantiate failure freshIds projectId templateId createdBy) ⟨s,n⟩) ↔
      specs = [] ∨ projectId ∉ s.projects ∨ n ≤ 1 ∨ (callsOf specs ≤ n ∧ (specs.map TaskSpec.key).Nodup ∧ Acyclic specs) := by
  by_cases some_spec : specs = []
  · subst some_spec
    exact ⟨fun _ => .inl rfl,fun _ => nothing_planted failure freshIds projectId createdBy found n⟩
  by_cases there : projectId ∈ s.projects
  · simp only [some_spec,there,not_true_eq_false,false_or]
    rcases @instantiate_outcome failure freshIds projectId createdBy specs s templateId sound ids found there some_spec n with
      ⟨early,line,stopped,same⟩ | ⟨two,short,line,stopped,row,left⟩ | ⟨two,enough,created,line,runs,plain,laid⟩
    · rw [stopped]
      exact ⟨fun _ => .inl early,fun _ => same⟩
    · rw [stopped]
      refine ⟨fun same => ?_,fun either => ?_⟩
      · change line.state = s at same
        rw [same,ids.unused 0] at left
        cases left
      · omega
    · rw [runs]
      obtain ⟨keys,rows⟩ := laid.rows sound ids
      change Instantiated s line.state specs projectId createdBy created ↔ _
      rw [rows.instantiated_iff sound (later_sound sound plain) ids member]
      exact ⟨fun holds => .inr ⟨enough,holds⟩,fun either => (either.resolve_left (by omega)).2⟩
  · exact ⟨fun _ => .inr (.inl there),fun _ => project_missing found some_spec there n⟩

end Service

section Examples

def numbered (i : Nat) : String := String.ofList (List.replicate i 'x')

theorem numbered_apart : Function.Injective numbered := by
  intro i j same
  have lengths := congrArg String.length same
  simpa [numbered] using lengths

-- An office whose one template reads as these specs.
def templated (specs : List TaskSpec) : Store := { office with templates := (∅ : KeyedMap String (Except String (List TaskSpec))).insert "template" (.ok specs) }

theorem templated_sound (specs : List TaskSpec) : Sound (templated specs) := Blank.sound ⟨rfl,rfl⟩

theorem templated_ids (specs : List TaskSpec) : FreshIds (templated specs) numbered := ⟨numbered_apart,fun _ => rfl⟩

theorem templated_read (specs : List TaskSpec) : (templated specs).templates.lookup "template" = some (.ok specs) := AList.lookup_insert _

-- Each of the two tasks depends on the other: the service creates and returns
-- both, and neither can ever be started.
def circle : List TaskSpec := [{ key := "plan", title := "Plan", dependsOn := ["build"] },{ key := "build", title := "Build", dependsOn := ["plan"] }]

theorem circle_instantiated : ¬Faithful (templated circle) circle "project" "user"
    (perform (instantiate (.internal "closed") numbered "project" "template" "user") ⟨templated circle,100⟩) := by
  have sound := templated_sound circle
  have ids := templated_ids circle
  rcases @instantiate_outcome (.internal "closed") numbered "project" "user" circle _ _ sound ids (templated_read circle) List.mem_cons_self (by decide) 100 with
    ⟨early,_⟩ | ⟨_,short,_⟩ | ⟨_,_,created,line,runs,plain,laid⟩
  · omega
  · exact absurd short (by decide)
  · rw [runs]
    obtain ⟨keys,rows⟩ := laid.rows sound ids
    intro instantiated
    have exact_when := (rows.instantiated_iff sound (later_sound sound plain) ids (AList.lookup_insert _)).mp instantiated
    have one : Needs circle "plan" "build" := ⟨_,List.mem_cons_of_mem _ List.mem_cons_self,rfl,List.mem_cons_self⟩
    have two : Needs circle "build" "plan" := ⟨_,List.mem_cons_self,rfl,List.mem_cons_self⟩
    exact exact_when.2 "plan" (.tail (.single one) two)

def chain : List TaskSpec := [{ key := "plan", title := "Plan" },{ key := "build", title := "Build", dependsOn := ["plan"] }]

theorem chain_needs (needs : Needs chain dep key) : dep = "plan" ∧ key = "build" := by
  obtain ⟨spec,member,rfl,listed⟩ := needs
  simp only [chain,List.mem_cons,List.not_mem_nil,or_false] at member
  rcases member with rfl | rfl
  · cases listed
  · exact ⟨List.mem_singleton.mp listed,rfl⟩

theorem chain_acyclic : Acyclic chain := by
  intro key cycle
  obtain ⟨_,_,last⟩ := TransGen.tail'_iff.mp cycle
  obtain ⟨_,first,_⟩ := TransGen.head'_iff.mp cycle
  have start := (chain_needs first).1
  rw [(chain_needs last).2] at start
  exact absurd start (by decide)

theorem chain_faithful : Faithful (templated chain) chain "project" "user"
    (perform (instantiate (.internal "closed") numbered "project" "template" "user") ⟨templated chain,14⟩) :=
  (pipeline_faithful_iff (templated_sound chain) (templated_ids chain) (AList.lookup_insert _) (templated_read chain) _ _).mpr
    (.inr (.inr (.inr ⟨by decide,by decide,chain_acyclic⟩)))

end Examples

end AlineaCopilot.PipelineInstantiation
