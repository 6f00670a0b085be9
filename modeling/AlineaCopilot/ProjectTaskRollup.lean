import AlineaCopilot.ProjectTaskOrder
open AlineaCopilot.KeyedMaps AlineaCopilot.StatefulPrograms AlineaCopilot.TransitionRuns

namespace AlineaCopilot.ProjectTasks

def SubtasksRolledUp (store : Store) : Prop := ∀ p row, store.tasks.lookup p = some row →
  (∃ c child, store.tasks.lookup c = some child ∧ child.parentTaskId = some p) → AllSubtasksDone store p →
    row.status = .done

def BlockedWaits (store : Store) : Prop := ∀ k row, store.tasks.lookup k = some row →
  (∀ d, (k,d) ∈ store.dependencies → store.isDone d) → row.status ≠ .blocked

-- The half of the rules that every request keeps.
def Settled (store : Store) : Prop := Sound store ∧ BlockedWaits store

-- A transition that rolls up a parent that is not done yet: the parent's own
-- parent, if it has one, is done or keeps another unfinished subtask.
def RollupStops (store : Store) : Request → Prop
  | .transitionTask current id action => ∀ task, completes store current id action = some task →
      ∀ parent row above, RollsUp store id task parent → store.tasks.lookup parent = some row → row.status ≠ .done →
        row.parentTaskId = some above → store.isDone above ∨ above = id ∨
          ∃ c child, store.tasks.lookup c = some child ∧ child.parentTaskId = some above ∧ c ≠ parent ∧ c ≠ id ∧
            child.status ≠ .done
  | _ => True

section Rollup
variable {s t : Store} {id : String}

theorem allSubtasksDone_iff : AllSubtasksDone s p ↔ ∀ row ∈ s.subtasks p, row.status = .done := by
  constructor
  · intro all row member
    obtain ⟨⟨c,found⟩,under⟩ := mem_subtasks.mp member
    exact all c row found under
  · intro all c row found under
    exact all row (mem_subtasks.mpr ⟨⟨c,found⟩,under⟩)

-- Setting a status other than done on a task that is not done completes no
-- list of subtasks.
theorem set_rolledUp (rolled : SubtasksRolledUp s) (target : s.tasks.lookup k = some row) (was : row.status ≠ .done)
    (now : status ≠ .done) (set : Restated s t fun j old => if j = k then status else old) : SubtasksRolledUp t := by
  rintro p next there ⟨c,child,standing,under⟩ all
  obtain ⟨old,present,rfl⟩ := set.inv there
  obtain ⟨oldChild,childThere,rfl⟩ := set.inv standing
  have done : old.status = .done := rolled p old present ⟨c,oldChild,childThere,under⟩ fun j other found below => by
    obtain ⟨same,seen,finished⟩ := (set_isDone target was now set).mp ⟨_,set.found found,all j _ (set.found found) below⟩
    rw [found] at seen
    exact Option.some.inj seen ▸ finished
  obtain ⟨last,seen,finished⟩ := (set_isDone target was now set).mpr ⟨old,present,done⟩
  rw [there] at seen
  exact Option.some.inj seen ▸ finished

theorem rollup_maintained : Maintained fun s => Sound s ∧ SubtasksRolledUp s := by
  constructor
  · rintro s freshId params ⟨sound,rolled⟩ checked
    have fresh := (constraintFailure_none.mp checked).1
    refine ⟨sound_maintained.insert s freshId params sound checked,?_⟩
    rintro p row found ⟨c,child,standing,under⟩ all
    -- A subtask that is done is an old one, so the parent had it before.
    have old : ∀ j other, (s.insertTask freshId params).tasks.lookup j = some other → other.status = .done →
        s.tasks.lookup j = some other := by
      intro j other there done
      rw [insertTask_lookup] at there
      split at there
      · cases Option.some.inj there
        cases done
      · exact there
    have before := old c child standing (all c child standing under)
    obtain ⟨_,parent,present⟩ := sound.parents c child p before under
    have other : p ≠ freshId := by rintro rfl; simp [fresh] at present
    rw [insertTask_lookup,if_neg other] at found
    refine rolled p row found ⟨c,child,before,under⟩ fun j next there below => ?_
    have notFresh : j ≠ freshId := by rintro rfl; simp [fresh] at there
    exact all j next (by rw [insertTask_lookup,if_neg notFresh,there]) below
  · rintro s k d row ⟨sound,rolled⟩ found unstarted target
    exact ⟨sound_maintained.edge s k d row sound found unstarted target,rolled⟩
  · rintro s t k row ⟨sound,rolled⟩ found unstarted _ set
    exact ⟨set.sound sound,set_rolledUp rolled found unstarted.not_done (by simp) set⟩
  · rintro s k row changes ⟨sound,rolled⟩ standing
    refine ⟨sound_maintained.edit s k row changes sound standing,?_⟩
    rintro p next there ⟨c,child,found,under⟩ all
    obtain ⟨old,present,_,status,_⟩ := edit_inv standing there
    obtain ⟨oldChild,childThere,_,_,above⟩ := edit_inv standing found
    refine status.trans (rolled p old present ⟨c,oldChild,childThere,above ▸ under⟩ fun j other seen below => ?_)
    obtain ⟨after,now,_,same,parent⟩ := edit_found changes standing seen
    exact same ▸ all j after now (parent.trans below)

theorem blocked_maintained : Maintained Settled := by
  constructor
  · rintro s freshId params ⟨sound,waits⟩ checked
    have fresh := (constraintFailure_none.mp checked).1
    refine ⟨sound_maintained.insert s freshId params sound checked,fun k row found met blocked => ?_⟩
    rw [insertTask_lookup] at found
    split at found
    · cases Option.some.inj found
      cases blocked
    · refine waits k row found (fun d edge => ?_) blocked
      exact (insertTask_isDone fresh).mp (met d (mem_insertTask.mpr (.inl edge)))
  · rintro s k d row ⟨sound,waits⟩ found unstarted target
    refine ⟨sound_maintained.edge s k d row sound found unstarted target,fun j other there met blocked => ?_⟩
    exact waits j other there (fun e edge => met e (List.mem_append_left _ edge)) blocked
  · rintro s t k row ⟨sound,waits⟩ found unstarted unmet set
    refine ⟨set.sound sound,fun j next there met blocked => ?_⟩
    obtain ⟨old,standing,rfl⟩ := set.inv there
    have before : ∀ d, (j,d) ∈ s.dependencies → s.isDone d := fun d edge =>
      (set_isDone found unstarted.not_done (by simp) set).mp (met d (set.1.symm ▸ edge))
    by_cases same : j = k
    · rw [same] at before
      rw [sound.satisfied_iff.mpr before] at unmet
      cases unmet
    · exact waits j old standing before (by simpa [same] using blocked)
  · rintro s k row changes ⟨sound,waits⟩ standing
    refine ⟨sound_maintained.edit s k row changes sound standing,fun j next there met blocked => ?_⟩
    obtain ⟨old,found,_,status,_⟩ := edit_inv standing there
    exact waits j old found (fun d edge => (edit_isDone standing).mp (met d edge)) (status ▸ blocked)

-- The cascades free every task whose last dependency a transition finishes.
theorem BlockedWaits.transitionTask (waits : BlockedWaits s) (sound : Sound s) (current id action : String) :
    BlockedWaits (perform (transitionTask current id action) s).2 := by
  rcases transitionTask_cases sound current id action with
    ⟨same,_⟩ | ⟨task,parsed,target,found,next,_,unfinished,_,set⟩ | ⟨_,_,_,_,_,advanced⟩
  · rw [same]; exact waits
  · intro k row there met blocked
    obtain ⟨was,open_target,_⟩ := nextStatus_cases next
    obtain ⟨old,standing,rfl⟩ := set.inv there
    by_cases same : k = id
    · exact open_target (by simpa [same] using blocked)
    · refine waits k old standing (fun d edge => ?_) (by simpa [same] using blocked)
      exact (set_isDone found was unfinished set).mp (met d (set.1.symm ▸ edge))
  · intro k row there met blocked
    obtain ⟨status,restated⟩ := advanced.restated
    obtain ⟨old,standing,was,implied⟩ := advanced.waits k row there blocked
    have satisfied := implied ((restated.sound sound).satisfied_iff.mpr met)
    exact waits k old standing (sound.satisfied_iff.mp satisfied) was

theorem transition_rollup_exact (sound : Sound s) (rolledUp : SubtasksRolledUp s) (current id action : String) :
    SubtasksRolledUp (perform (transitionTask current id action) s).2 ↔
      RollupStops s (.transitionTask current id action) := by
  rcases transitionTask_cases sound current id action with
    ⟨same,none⟩ | ⟨task,parsed,target,found,next,_,unfinished,none,set⟩ | ⟨task,parsed,found,next,finishes,advanced⟩
  · rw [same]
    exact iff_of_true rolledUp fun task completed => by rw [none] at completed; cases completed
  · exact iff_of_true (set_rolledUp rolledUp found (nextStatus_cases next).1 unfinished set)
      fun task completed => by rw [none] at completed; cases completed
  · obtain ⟨status,restated⟩ := advanced.restated
    have done_row : ∀ {k row}, s.tasks.lookup k = some row → (s.isDone k ↔ row.status = .done) := by
      intro k row there
      exact ⟨fun ⟨other,same,done⟩ => Option.some.inj (there.symm.trans same) ▸ done,fun done => ⟨row,there,done⟩⟩
    constructor
    · intro rolled other completed parent row above rolls there unfinished under
      rw [finishes] at completed
      cases Option.some.inj completed
      by_contra stuck
      obtain ⟨open_above,rest⟩ := not_or.mp stuck
      obtain ⟨notSelf,noChild⟩ := not_or.mp rest
      obtain ⟨different,upper,standing⟩ := sound.parents parent row above there under
      -- No subtask of the upper task is left, yet the rollup does not reach it.
      have all : AllSubtasksDone (perform (transitionTask current id action) s).2 above := by
        intro c child seen below
        obtain ⟨old,before,rfl⟩ := restated.inv seen
        have done : (perform (transitionTask current id action) s).2.isDone c := by
          refine (advanced.done c).mpr ?_
          by_contra missing
          obtain ⟨idle,others⟩ := not_or.mp missing
          obtain ⟨notId,notRolled⟩ := not_or.mp others
          refine noChild ⟨c,old,before,below,?_,notId,fun done => idle ((done_row before).mpr done)⟩
          rintro rfl
          exact notRolled rolls
        obtain ⟨same,found_same,finished⟩ := done
        rw [seen] at found_same
        exact Option.some.inj found_same ▸ finished
      have top := rolled above _ (restated.found standing) ⟨parent,_,restated.found there,under⟩ all
      rcases (advanced.done above).mp ⟨_,restated.found standing,top⟩ with before | self | again
      · exact open_above before
      · exact notSelf self
      · exact different (Option.some.inj (again.1.symm.trans rolls.1))
    · rintro stops p row there ⟨c,child,standing,under⟩ all
      obtain ⟨old,present,rfl⟩ := restated.inv there
      obtain ⟨oldChild,childThere,rfl⟩ := restated.inv standing
      suffices done : s.isDone p ∨ p = id ∨ RollsUp s id task p by
        obtain ⟨same,seen,finished⟩ := (advanced.done p).mpr done
        rw [there] at seen
        exact Option.some.inj seen ▸ finished
      have children : ∀ j other, s.tasks.lookup j = some other → other.parentTaskId = some p →
          s.isDone j ∨ j = id ∨ RollsUp s id task j := fun j other seen below =>
        (advanced.done j).mp ⟨_,restated.found seen,all j _ (restated.found seen) below⟩
      by_cases before : ∀ j other, s.tasks.lookup j = some other → other.parentTaskId = some p → other.status = .done
      · exact .inl ⟨old,present,rolledUp p old present ⟨c,oldChild,childThere,under⟩ before⟩
      · simp only [not_forall] at before
        obtain ⟨j,other,seen,below,unfinished⟩ := before
        rcases children j other seen below with done | same | rolls
        · exact absurd ((done_row seen).mp done) unfinished
        · rw [same,found] at seen
          cases Option.some.inj seen
          refine .inr (.inr ⟨below,fun k next standing_k below_k => ?_⟩)
          rcases children k next standing_k below_k with done | self | again
          · exact .inr ((done_row standing_k).mp done)
          · exact .inl self
          · obtain rfl : p = k := Option.some.inj (below.symm.trans again.1)
            exact absurd rfl (sound.parents p next p standing_k below_k).1
        · rcases stops task finishes j other p rolls seen unfinished below with done | self | ⟨k,next,standing_k,below_k,apart,notId,open_k⟩
          · exact .inl done
          · exact .inr (.inl self)
          · rcases children k next standing_k below_k with done | same | again
            · exact absurd ((done_row standing_k).mp done) open_k
            · exact absurd same notId
            · exact absurd (Option.some.inj (again.1.symm.trans rolls.1)) apart

theorem settled_served (settled : Settled s) (served : serve s request = some t) : Settled t := by
  cases Option.some.inj served
  refine blocked_maintained.served request settled fun current taskId action _ => ?_
  exact ⟨settled.1.transitionTask,settled.2.transitionTask settled.1 current taskId action⟩

theorem rollup_step_exact (sound : Sound s) (rolledUp : SubtasksRolledUp s) (served : serve s request = some t) :
    SubtasksRolledUp t ↔ RollupStops s request := by
  cases Option.some.inj served
  cases request with
  | transitionTask current id action => exact transition_rollup_exact sound rolledUp current id action
  | createTask => exact iff_of_true (rollup_maintained.createTask s ⟨sound,rolledUp⟩).2 trivial
  | updateTask => exact iff_of_true (rollup_maintained.updateTask s ⟨sound,rolledUp⟩).2 trivial
  | instantiatePipeline => exact iff_of_true (rollup_maintained.instantiatePipeline s ⟨sound,rolledUp⟩).2 trivial

-- From tables without tasks, every finished group of subtasks has its parent
-- done, and no blocked task has all its dependencies done, throughout a run of
-- requests exactly when no rollup finishes the group one level further up.
theorem rollup_complete_exactly (blank : Blank origin) (path : Runs serve origin requests after) :
    (∀ earlier between, earlier <+: requests → Runs serve origin earlier between →
      SubtasksRolledUp between ∧ BlockedWaits between) ↔ RunsWhere serve RollupStops origin requests after := by
  have start : Settled origin :=
    ⟨blank.sound,fun k row found => by rw [blank.1] at found; simp at found⟩
  have rolled : SubtasksRolledUp origin := fun k row found => by rw [blank.1] at found; simp at found
  have exactly := path.always_exact start rolled (fun _ _ _ => settled_served)
    fun _ _ _ settled => rollup_step_exact settled.1
  refine Iff.trans ?_ exactly
  constructor
  · intro always earlier between inside prior
    exact (always earlier between inside prior).1
  · intro always earlier between inside prior
    exact ⟨always earlier between inside prior,(prior.invariant start fun _ _ _ => settled_served).2⟩

-- Three levels: the only leaf is finished, its parent is rolled up, and the top
-- task stays as it was.
def threeLevels : List Request :=
  [.createTask "plan" "user" "project" { title := "Plan" },
    .createTask "design" "user" "project" { title := "Design",parentTaskId := some "plan" },
    .createTask "sketch" "user" "project" { title := "Sketch",parentTaskId := some "design",requiresHumanReview := false },
    .transitionTask "user" "sketch" "start",.transitionTask "user" "sketch" "submit"]

theorem rollup_stops_below_top : ∃ after, exec serve office threeLevels = some after ∧ ¬SubtasksRolledUp after := by
  refine ⟨_,rfl,fun rolled => ?_⟩
  have top := rolled "plan" _ rfl ⟨"design",_,rfl,rfl⟩ (allSubtasksDone_iff.mpr (by decide))
  cases top

def twoLevels : List Request :=
  [.createTask "design" "user" "project" { title := "Design" },
    .createTask "sketch" "user" "project" { title := "Sketch",parentTaskId := some "design",requiresHumanReview := false },
    .transitionTask "user" "sketch" "start",.transitionTask "user" "sketch" "submit"]

theorem rollup_complete_two_levels : ∃ after, exec serve office twoLevels = some after ∧
    ((∀ earlier between, earlier <+: twoLevels → Runs serve office earlier between →
      SubtasksRolledUp between ∧ BlockedWaits between) ↔ RunsWhere serve RollupStops office twoLevels after) :=
  ⟨_,rfl,rollup_complete_exactly ⟨rfl,rfl⟩ (exec_exact.mp rfl)⟩

end Rollup

end AlineaCopilot.ProjectTasks
