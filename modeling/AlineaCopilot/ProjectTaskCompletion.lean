import AlineaCopilot.ProjectTaskUpkeep
import AlineaCopilot.TopologicalOrders
import AlineaCopilot.TransitionRuns
open AlineaCopilot.KeyedMaps AlineaCopilot.StatefulPrograms AlineaCopilot.TransitionRuns Relation

namespace AlineaCopilot.ProjectTasks

section Members
variable {members : KeyedMap (String × String) String}

-- No task request touches the membership table.
theorem modifyTask_members (change : TaskRow → TaskRow) : Keeps (fun s : Store => s.members = members) (modifyTask k change) := by
  refine Keeps.read fun s same => ?_
  cases s.tasks.lookup k <;> exact same

theorem logHandoff_members (entry : NewHandoff) : Keeps (fun s : Store => s.members = members) (logHandoff entry) := fun _ same => same

theorem unblockDependent_members (dep : TaskRow) : Keeps (fun s : Store => s.members = members) (unblockDependent dep) := by
  refine Keeps.read fun s same => ?_
  split
  · exact ((modifyTask_members _).bind fun _ => logHandoff_members _) s same
  · exact same

theorem onTaskCompleted_members (id : String) : Keeps (fun s : Store => s.members = members) (onTaskCompleted id) :=
  Keeps.read fun s same => (Keeps.forM fun dep _ => unblockDependent_members dep) s same

theorem rollUp_members (parentId : String) : Keeps (fun s : Store => s.members = members) (rollUp parentId) := by
  refine Keeps.read fun s same => ?_
  simp only
  split
  · exact ((modifyTask_members _).bind fun _ => (logHandoff_members _).bind fun _ => onTaskCompleted_members parentId) s same
  · exact same

theorem propagate_members (id : String) (parent : Option String) (target : TaskStatus) :
    Keeps (fun s : Store => s.members = members) (propagate id parent target) := by
  unfold propagate
  split
  · refine (onTaskCompleted_members id).bind fun _ => ?_
    cases parent with
    | none => exact Keeps.pure _
    | some parentId => exact rollUp_members parentId
  · exact Keeps.pure _

theorem transitionTask_members (s : Store) (current id action : String) :
    (perform (transitionTask current id action) s).2.members = s.members := by
  unfold transitionTask
  rcases checkTransition_cases s current id action with ⟨error,refused⟩ | ⟨task,parsed,target,passed,_⟩
  · rw [perform_bind,refused]
  · rw [perform_bind,passed]
    have moves : Keeps (fun t : Store => t.members = s.members) (setStatus id target) := modifyTask_members _
    have keeps := moves.bind fun _ => (logHandoff_members ⟨id,some task.status.asStr,target.asStr,current,triggerKind parsed,none⟩).bind fun _ =>
      (propagate_members id task.parentTaskId target).bind fun _ => @keeps_getTask _ id
    exact keeps s rfl

end Members

section Moves
variable {s t u : Store} {id current action : String} {task : TaskRow}

theorem checkTransition_passes (found : s.tasks.lookup id = some task) (member : s.members.lookup (task.projectId,current) = some perm)
    (reads : TaskAction.parse action = some parsed) (next : nextStatus task.status parsed task.requiresHumanReview = some target)
    (ready : parsed = .start → s.dependenciesSatisfied id = true) :
    perform (checkTransition current id action) s = (.ok (task,parsed,target),s) := by
  have passes : ¬(parsed = .start ∧ s.dependenciesSatisfied id = false) := by
    rintro ⟨starts,unmet⟩
    rw [ready starts] at unmet
    cases unmet
  simp only [checkTransition,requireTaskMember,getTask,requireMember,perform_bind,perform_get,found,perform_pure,member,reads,next,if_neg passes]

-- A request that starts, submits or approves a task.
def Onward (actor : String) (request : Request) : Prop :=
  ∃ id action, request = .transitionTask actor id action ∧ (action = "start" ∨ action = "submit" ∨ action = "approve")

-- The requests set one task done and hold no other task up.
structure Finishes (actor : String) (s t : Store) (requests : List Request) (id : String) : Prop where
  path : Runs serve s requests t
  onward : ∀ request ∈ requests, Onward actor request
  restated : ∃ status, Restated s t status
  members : t.members = s.members
  done : ∀ k, t.isDone k ↔ s.isDone k ∨ k = id
  idle : ∀ k old row, k ≠ id → s.tasks.lookup k = some old → t.tasks.lookup k = some row → Unstarted old.status → Unstarted row.status

theorem served_transition (s : Store) (current id action : String) :
    Runs serve s [.transitionTask current id action] (perform (transitionTask current id action) s).2 := .single rfl

-- The last request of a task without a parent, which is worked on.
theorem finishes_last (found : s.tasks.lookup id = some task) (started : task.status ≠ .done) (top : task.parentTaskId = none)
    (set : Restated s t fun k old => if k = id then working else old) (unfinished : working ≠ .done) (members : t.members = s.members)
    (path : Runs serve s requests t) (onward : ∀ request ∈ requests, Onward actor request) (action : String)
    (goes : action = "submit" ∨ action = "approve")
    (advanced : Advanced t (perform (transitionTask actor id action) t).2 fun k => k = id ∨ RollsUp t id { task with status := working } k) :
    Finishes actor s (perform (transitionTask actor id action) t).2 (requests ++ [Request.transitionTask actor id action]) id := by
  have alone : ∀ k, ¬RollsUp t id { task with status := working } k := by
    rintro k ⟨parent,_⟩
    rw [top] at parent
    cases parent
  obtain ⟨status,restated⟩ := advanced.restated
  refine ⟨path.append (served_transition t actor id action),fun request member => ?_,⟨_,set.trans restated⟩,
    (transitionTask_members t actor id action).trans members,fun k => ?_,fun k old row other before after idle => ?_⟩
  · rcases List.mem_append.mp member with early | last
    · exact onward request early
    · exact ⟨id,action,List.mem_singleton.mp last,.inr goes⟩
  · rw [advanced.done,set_isDone found started unfinished set]
    simp [alone]
  · have middle := set.found before
    rw [if_neg other] at middle
    rcases advanced.moved k _ row middle after with same | ⟨finished,_⟩ | ⟨_,freed⟩
    · exact same ▸ idle
    · exact absurd finished (by simp [other,alone])
    · exact .inl freed

-- A task that has not started and whose dependencies are done can be worked
-- through to the end.
theorem finish_one (sound : Sound s) (found : s.tasks.lookup id = some task) (unstarted : Unstarted task.status) (top : task.parentTaskId = none)
    (member : s.members.lookup (task.projectId,actor) = some perm) (ready : s.dependenciesSatisfied id = true) :
    ∃ requests t, Finishes actor s t requests id := by
  have next : nextStatus task.status .start task.requiresHumanReview = some .inProgress := by
    rcases unstarted with todo | blocked
    · rw [todo]; rfl
    · rw [blocked]; rfl
  have started : perform (checkTransition actor id "start") s = (.ok (task,.start,.inProgress),s) :=
    checkTransition_passes found member rfl next fun _ => ready
  have set := (transitionTask_passed sound started found).1 (by decide)
  have members := transitionTask_members s actor id "start"
  have path := served_transition s actor id "start"
  generalize (perform (transitionTask actor id "start") s).2 = t at set members path
  have working := set.found found
  rw [if_pos rfl] at working
  have onward : ∀ request ∈ [Request.transitionTask actor id "start"], Onward actor request := fun request listed =>
    ⟨id,"start",List.mem_singleton.mp listed,.inl rfl⟩
  cases review : task.requiresHumanReview with
  | false =>
    have submitted : perform (checkTransition actor id "submit") t = (.ok ({ task with status := .inProgress },.submit,.done),t) :=
      checkTransition_passes working (by rw [members]; exact member) rfl (by simp only [nextStatus,review]; rfl) fun starts => by cases starts
    have advanced := (transitionTask_passed (set.sound sound) submitted working).2 rfl
    exact ⟨_,_,finishes_last found unstarted.not_done top set (by decide) members path onward "submit" (.inl rfl) advanced⟩
  | true =>
    have submitted : perform (checkTransition actor id "submit") t = (.ok ({ task with status := .inProgress },.submit,.inReview),t) :=
      checkTransition_passes working (by rw [members]; exact member) rfl (by simp only [nextStatus,review]; rfl) fun starts => by cases starts
    have reviewed := (transitionTask_passed (set.sound sound) submitted working).1 (by decide)
    have kept := (transitionTask_members t actor id "submit").trans members
    have longer := path.append (served_transition t actor id "submit")
    generalize (perform (transitionTask actor id "submit") t).2 = u at reviewed kept longer
    have waiting := reviewed.found working
    rw [if_pos rfl] at waiting
    have approved : perform (checkTransition actor id "approve") u = (.ok ({ task with status := .inReview },.approve,.done),u) :=
      checkTransition_passes waiting (by rw [kept]; exact member) rfl rfl fun starts => by cases starts
    have both : Restated s u fun k old => if k = id then .inReview else old := by
      have composed := set.trans reviewed
      refine ⟨composed.1,fun k => ?_⟩
      rw [composed.2]
      by_cases same : k = id
      · simp only [if_pos same]
      · simp only [if_neg same]
    have advanced := (transitionTask_passed (both.sound sound) approved waiting).2 rfl
    refine ⟨_,_,finishes_last found unstarted.not_done top both (by decide) kept longer (fun request listed => ?_) "approve" (.inr rfl) advanced⟩
    rcases List.mem_append.mp listed with early | last
    · exact onward request early
    · exact ⟨id,"submit",List.mem_singleton.mp last,.inr (.inl rfl)⟩

end Moves

section Orders
variable {s t : Store} {ids rest : List String} {actor : String}

-- In the group, the first task comes before the second.
def Waits (ids : List String) (s : Store) (d k : String) : Prop := k ∈ ids ∧ (k,d) ∈ s.dependencies

-- A closed group of tasks without parents, of which the ones in `rest` are left.
structure Pending (actor : String) (ids rest : List String) (s : Store) : Prop where
  sound : Sound s
  rows : ∀ k ∈ ids, ∃ row, s.tasks.lookup k = some row ∧ row.parentTaskId = none ∧ (∃ perm, s.members.lookup (row.projectId,actor) = some perm) ∧
    (k ∈ rest → Unstarted row.status)
  finished : ∀ k ∈ ids, k ∉ rest → s.isDone k
  inside : ∀ k ∈ ids, ∀ d, (k,d) ∈ s.dependencies → d ∈ ids

theorem exists_ready (acyclic : ∀ k, ¬TransGen (Waits ids s) k k) (within : rest ⊆ ids) (left : k ∈ rest) : ∃ k ∈ rest, ∀ d ∈ rest, (k,d) ∉ s.dependencies := by
  by_contra none
  have closed : ∀ k ∈ rest, ∃ d ∈ rest, Waits ids s d k := by
    intro k member
    by_contra free
    exact none ⟨k,member,fun d listed edge => free ⟨d,listed,within member,edge⟩⟩
  obtain ⟨c,cycle,_⟩ := TopologicalOrders.remaining_downstream closed left
  exact acyclic c cycle

theorem Pending.next (pending : Pending actor ids rest s) (finishes : Finishes actor s t requests k) :
    Pending actor ids (rest.filter fun j => j ≠ k) t := by
  obtain ⟨status,restated⟩ := finishes.restated
  refine ⟨restated.sound pending.sound,fun j member => ?_,fun j member out => ?_,fun j member d edge => ?_⟩
  · obtain ⟨row,found,top,perm,idle⟩ := pending.rows j member
    refine ⟨_,restated.found found,top,by rw [finishes.members]; exact perm,fun listed => ?_⟩
    rw [List.mem_filter,decide_eq_true_eq] at listed
    exact finishes.idle j row _ listed.2 found (restated.found found) (idle listed.1)
  · rw [finishes.done]
    by_cases same : j = k
    · exact .inr same
    · exact .inl (pending.finished j member fun listed => out (List.mem_filter.mpr ⟨listed,decide_eq_true same⟩))
  · rw [restated.1] at edge
    exact pending.inside j member d edge

-- Without a cycle the whole group can be worked through, one ready task after
-- the other.
theorem all_finish (pending : Pending actor ids rest s) (within : rest ⊆ ids) (acyclic : ∀ k, ¬TransGen (Waits ids s) k k) :
    ∃ requests t, Runs serve s requests t ∧ (∀ request ∈ requests, Onward actor request) ∧ ∀ k ∈ ids, t.isDone k := by
  generalize size : rest.length = n
  induction n using Nat.strong_induction_on generalizing rest s with
  | _ n ih =>
    cases rest with
    | nil => exact ⟨[],s,.nil,fun _ member => absurd member List.not_mem_nil,fun k member => pending.finished k member List.not_mem_nil⟩
    | cons first others =>
      obtain ⟨k,left,free⟩ := exists_ready acyclic within (List.mem_cons_self : first ∈ first :: others)
      obtain ⟨row,found,top,⟨perm,member⟩,idle⟩ := pending.rows k (within left)
      have ready : s.dependenciesSatisfied k = true := by
        rw [pending.sound.satisfied_iff]
        exact fun d edge => pending.finished d (pending.inside k (within left) d edge) fun listed => free d listed edge
      obtain ⟨earlier,middle,finishes⟩ := finish_one pending.sound found (idle left) top member ready
      obtain ⟨status,restated⟩ := finishes.restated
      have shorter : ((first :: others).filter fun j => j ≠ k).length < n := by
        rw [← size]
        exact List.length_filter_lt_length_iff_exists.mpr ⟨k,left,by simp⟩
      have same : Waits ids middle = Waits ids s := by
        unfold Waits
        rw [restated.1]
      obtain ⟨later,t,path,onward,done⟩ := ih _ shorter (pending.next finishes)
        (fun j listed => within (List.mem_of_mem_filter listed)) (by rw [same]; exact acyclic) rfl
      refine ⟨earlier ++ later,t,finishes.path.append path,fun request listed => ?_,done⟩
      exact (List.mem_append.mp listed).elim (finishes.onward request) (onward request)

-- Tasks that have not started and wait for one another. None of them has a
-- subtask that could roll it up.
structure Trapped (caught : String → Prop) (s : Store) : Prop where
  sound : Sound s
  idle : ∀ k, caught k → ∃ row, s.tasks.lookup k = some row ∧ Unstarted row.status
  held : ∀ k, caught k → ∃ d, caught d ∧ (k,d) ∈ s.dependencies
  childless : ∀ k, caught k → ∀ j row, s.tasks.lookup j = some row → row.parentTaskId ≠ some k

theorem Trapped.restated {caught : String → Prop} (trapped : Trapped caught s) (restated : Restated s t status)
    (idle : ∀ k row, caught k → s.tasks.lookup k = some row → Unstarted row.status → Unstarted (status k row.status)) : Trapped caught t := by
  refine ⟨restated.sound trapped.sound,fun k inside => ?_,fun k inside => ?_,fun k inside j row found => ?_⟩
  · obtain ⟨row,found,unstarted⟩ := trapped.idle k inside
    exact ⟨_,restated.found found,idle k row inside found unstarted⟩
  · rw [restated.1]
    exact trapped.held k inside
  · obtain ⟨old,standing,rfl⟩ := restated.inv found
    exact trapped.childless k inside j old standing

theorem Trapped.step {caught : String → Prop} (trapped : Trapped caught s) (current id action : String) :
    Trapped caught (perform (transitionTask current id action) s).2 := by
  rcases transitionTask_cases trapped.sound current id action with ⟨same,_⟩ | ⟨task,parsed,target,found,next,ready,_,_,set⟩ | ⟨task,parsed,found,next,_,advanced⟩
  · rw [same]
    exact trapped
  · have outside : ¬caught id := by
      intro inside
      obtain ⟨row,there,unstarted⟩ := trapped.idle id inside
      obtain rfl : row = task := Option.some.inj (there.symm.trans found)
      obtain ⟨d,caught_too,edge⟩ := trapped.held id inside
      have starts : parsed = .start := by
        rcases unstarted with status | status
        all_goals
          rw [status] at next
          cases parsed <;> cases next
          rfl
      obtain ⟨other,present,done⟩ := trapped.sound.satisfied_iff.mp (ready starts) d edge
      obtain ⟨still,standing,idle⟩ := trapped.idle d caught_too
      obtain rfl : still = other := Option.some.inj (standing.symm.trans present)
      exact idle.not_done done
    refine trapped.restated set fun k row inside _ unstarted => ?_
    have other : k ≠ id := fun same => outside (same ▸ inside)
    rw [if_neg other]
    exact unstarted
  · obtain ⟨status,restated⟩ := advanced.restated
    refine trapped.restated restated fun k row inside there unstarted => ?_
    have after := restated.found there
    rcases advanced.moved k row _ there after with same | ⟨same | rolled,_⟩ | ⟨_,freed⟩
    · change status k row.status = row.status at same
      rw [same]
      exact unstarted
    · subst same
      obtain rfl : row = task := Option.some.inj (there.symm.trans found)
      rcases unstarted with status | status
      all_goals
        rw [status] at next
        cases parsed <;> cases next
    · exact absurd rolled.1 (trapped.childless k inside id task found)
    · exact .inl freed

theorem trapped_run {caught : String → Prop} (trapped : Trapped caught s) (path : Runs serve s requests t)
    (onward : ∀ request ∈ requests, ∃ actor, Onward actor request) (inside : caught k) : ¬t.isDone k := by
  have allowed : RunsWhere serve (fun _ request => ∃ actor, Onward actor request) s requests t := .of_runs path fun _ request member => onward request member
  have still : Trapped caught t := allowed.invariant trapped fun u request next trapped going served => by
    obtain ⟨actor,id,action,rfl,_⟩ := going
    cases Option.some.inj served
    exact trapped.step actor id action
  rintro ⟨row,found,done⟩
  obtain ⟨other,there,idle⟩ := still.idle k inside
  obtain rfl : other = row := Option.some.inj (there.symm.trans found)
  exact idle.not_done done

end Orders

end AlineaCopilot.ProjectTasks
