import AlineaCopilot.TransitionRuns
import AlineaCopilot.ProjectTaskUpkeep
open AlineaCopilot.KeyedMaps AlineaCopilot.StatefulPrograms AlineaCopilot.TransitionRuns

namespace AlineaCopilot.ProjectTasks

def Started (status : TaskStatus) : Prop := status = .inProgress ∨ status = .inReview ∨ status = .done

def StartedDependenciesDone (store : Store) : Prop := ∀ k row, store.tasks.lookup k = some row → Started row.status →
  ∀ d, (k,d) ∈ store.dependencies → store.isDone d

-- A transition that rolls up a parent does so when everything the parent
-- depends on is done, the finished task and the parent counted as done.
def RollupInOrder (store : Store) : Request → Prop
  | .transitionTask current id action => ∀ task, completes store current id action = some task →
      ∀ parent, RollsUp store id task parent → ∀ d, (parent,d) ∈ store.dependencies →
        store.isDone d ∨ d = id ∨ d = parent
  | _ => True

section Order
variable {s t : Store} {id : String}

theorem Unstarted.not_started (unstarted : Unstarted status) : ¬Started status := by
  rcases unstarted with rfl | rfl <;> simp [Started]

theorem order_maintained : Maintained fun s => Sound s ∧ StartedDependenciesDone s := by
  constructor
  · rintro s freshId params ⟨sound,order⟩ checked
    have fresh := (constraintFailure_none.mp checked).1
    refine ⟨sound_maintained.insert s freshId params sound checked,fun k row found started d edge => ?_⟩
    rw [insertTask_isDone fresh]
    rw [insertTask_lookup] at found
    by_cases same : k = freshId
    · rw [if_pos same] at found
      cases Option.some.inj found
      exact absurd started (Unstarted.not_started (.inl rfl))
    · rw [if_neg same] at found
      exact order k row found started d ((mem_insertTask.mp edge).resolve_right fun new => same new.1)
  · rintro s k d row ⟨sound,order⟩ found unstarted target
    refine ⟨sound_maintained.edge s k d row sound found unstarted target,fun j other there started e edge => ?_⟩
    rcases List.mem_append.mp edge with old | new
    · exact order j other there started e old
    · cases List.mem_singleton.mp new
      rw [show s.tasks.lookup k = some other from there] at found
      cases Option.some.inj found
      exact absurd started unstarted.not_started
  · rintro s t k row ⟨sound,order⟩ found unstarted _ set
    refine ⟨set.sound sound,fun j next there started d edge => ?_⟩
    rw [set_isDone found unstarted.not_done (by simp) set]
    obtain ⟨old,standing,rfl⟩ := set.inv there
    by_cases same : j = k
    · exact absurd (by simpa [same] using started) (Unstarted.not_started (.inr rfl))
    · exact order j old standing (by simpa [same] using started) d (set.1 ▸ edge)
  · rintro s k row changes ⟨sound,order⟩ standing
    refine ⟨sound_maintained.edit s k row changes sound standing,fun j next there started d edge => ?_⟩
    rw [edit_isDone standing]
    obtain ⟨old,found,_,status,_⟩ := edit_inv standing there
    exact order j old found (status ▸ started) d edge

theorem transition_order_exact (sound : Sound s) (order : StartedDependenciesDone s) (current id action : String) :
    StartedDependenciesDone (perform (transitionTask current id action) s).2 ↔
      RollupInOrder s (.transitionTask current id action) := by
  rcases transitionTask_cases sound current id action with
    ⟨same,none⟩ | ⟨task,parsed,target,found,next,starts,unfinished,none,set⟩ | ⟨task,parsed,found,next,finishes,advanced⟩
  · rw [same]
    exact iff_of_true order fun task completed => by rw [none] at completed; cases completed
  · refine iff_of_true (fun k row there started d edge => ?_) fun task completed => by rw [none] at completed; cases completed
    obtain ⟨was,_,shape⟩ := nextStatus_cases next
    rw [set_isDone found was unfinished set]
    rw [set.1] at edge
    obtain ⟨old,standing,rfl⟩ := set.inv there
    by_cases same : k = id
    · rw [same] at edge
      rcases shape with ⟨_,start⟩ | ⟨going,_⟩ | ended | ended
      · exact sound.satisfied_iff.mp (starts start) d edge
      · exact order id task found (going.imp_right .inl) d edge
      · simp [Started,same,ended] at started
      · simp [Started,same,ended] at started
    · exact order k old standing (by simpa [same] using started) d edge
  · obtain ⟨status,restated⟩ := advanced.restated
    have going : Started task.status := by
      obtain ⟨_,_,⟨open_target,_⟩ | ⟨going,_⟩ | ended | ended⟩ := nextStatus_cases next
      · cases open_target
      · exact going.imp_right .inl
      · cases ended
      · cases ended
    constructor
    · intro ordered other completed parent rolled d edge
      rw [finishes] at completed
      cases Option.some.inj completed
      obtain ⟨row,there,done⟩ := (advanced.done parent).mpr (.inr (.inr rolled))
      have finished := ordered parent row there (.inr (.inr done)) d (restated.1 ▸ edge)
      rcases (advanced.done d).mp finished with before | same | again
      · exact .inl before
      · exact .inr (.inl same)
      · exact .inr (.inr (Option.some.inj (again.1.symm.trans rolled.1)))
    · intro allowed k row there started d edge
      rw [restated.1] at edge
      rw [advanced.done]
      have finishing : (k = id ∨ RollsUp s id task k) → s.isDone d ∨ d = id ∨ RollsUp s id task d := by
        rintro (rfl | rolled)
        · exact .inl (order k task found going d edge)
        · rcases allowed task finishes k rolled d edge with before | same | rfl
          · exact .inl before
          · exact .inr (.inl same)
          · exact .inr (.inr rolled)
      obtain ⟨old,standing,rfl⟩ := restated.inv there
      rcases advanced.moved k old _ standing there with kept | ⟨finished,_⟩ | ⟨_,freed⟩
      · exact .inl (order k old standing (kept ▸ started) d edge)
      · exact finishing finished
      · rw [freed] at started
        exact absurd started (Unstarted.not_started (.inl rfl))

theorem order_step_exact (sound : Sound s) (order : StartedDependenciesDone s) (served : serve s request = some t) :
    StartedDependenciesDone t ↔ RollupInOrder s request := by
  cases Option.some.inj served
  cases request with
  | transitionTask current id action => exact transition_order_exact sound order current id action
  | createTask => exact iff_of_true (order_maintained.createTask s ⟨sound,order⟩).2 trivial
  | updateTask => exact iff_of_true (order_maintained.updateTask s ⟨sound,order⟩).2 trivial
  | instantiatePipeline => exact iff_of_true (order_maintained.instantiatePipeline s ⟨sound,order⟩).2 trivial

-- From tables without tasks, every task that has started has its dependencies
-- done throughout a run of requests exactly when every rollup comes in order.
theorem dependencies_done_exactly (blank : Blank origin) (path : Runs serve origin requests after) :
    (∀ earlier between, earlier <+: requests → Runs serve origin earlier between → StartedDependenciesDone between) ↔
      RunsWhere serve RollupInOrder origin requests after :=
  path.always_exact blank.sound (fun k row found => by rw [blank.1] at found; simp at found)
    (fun _ _ _ => sound_served) fun _ _ _ => order_step_exact

-- A project with one member. The parent waits for another task; its subtask,
-- which does not, is started and submitted.
def office : Store := ⟨["project"],(∅ : KeyedMap (String × String) String).insert ("project","user") "owner",∅,∅,[],[]⟩

def subtaskFirst : List Request :=
  [.createTask "survey" "user" "project" { title := "Survey" },
    .createTask "design" "user" "project" { title := "Design",dependsOn := ["survey"] },
    .createTask "sketch" "user" "project" { title := "Sketch",parentTaskId := some "design",requiresHumanReview := false },
    .transitionTask "user" "sketch" "start",.transitionTask "user" "sketch" "submit"]

theorem rollup_before_dependency : ∃ after, exec serve office subtaskFirst = some after ∧
    ¬StartedDependenciesDone after := by
  refine ⟨_,rfl,fun order => ?_⟩
  obtain ⟨row,found,done⟩ := order "design" _ rfl (.inr (.inr rfl)) "survey" (.head _)
  cases Option.some.inj found
  cases done

def dependencyFirst : List Request := subtaskFirst.take 3 ++
  [.transitionTask "user" "survey" "start",.transitionTask "user" "survey" "submit",
    .transitionTask "user" "survey" "approve"]

theorem dependencies_done_survey : ∃ after, exec serve office dependencyFirst = some after ∧
    ((∀ earlier between, earlier <+: dependencyFirst → Runs serve office earlier between → StartedDependenciesDone between) ↔
      RunsWhere serve RollupInOrder office dependencyFirst after) :=
  ⟨_,rfl,dependencies_done_exactly ⟨rfl,rfl⟩ (exec_exact.mp rfl)⟩

end Order

end AlineaCopilot.ProjectTasks
