import AlineaCopilot.ProjectTaskCalls
open AlineaCopilot.KeyedMaps AlineaCopilot.StatefulPrograms

namespace AlineaCopilot.ProjectTasks

-- Between the two stores exactly the named tasks became done. Every other task
-- kept its status or was freed, and one that is still blocked waits for no less
-- than before.
structure Advanced (s t : Store) (finished : String → Prop) : Prop where
  restated : ∃ status, Restated s t status
  done : ∀ k, t.isDone k ↔ s.isDone k ∨ finished k
  moved : ∀ k old row, s.tasks.lookup k = some old → t.tasks.lookup k = some row →
    row.status = old.status ∨ (finished k ∧ row.status = .done) ∨ (old.status = .blocked ∧ row.status = .todo)
  waits : ∀ k row, t.tasks.lookup k = some row → row.status = .blocked → ∃ old, s.tasks.lookup k = some old ∧
    old.status = .blocked ∧ (t.dependenciesSatisfied k = true → s.dependenciesSatisfied k = true)

def AllSubtasksDone (store : Store) (parentId : String) : Prop := ∀ c row, store.tasks.lookup c = some row →
  row.parentTaskId = some parentId → row.status = .done

-- The parent that the completion of a task rolls up, if any: its subtasks other
-- than this one are done already.
def RollsUp (store : Store) (id : String) (task : TaskRow) (parentId : String) : Prop :=
  task.parentTaskId = some parentId ∧ ∀ c row, store.tasks.lookup c = some row → row.parentTaskId = some parentId →
    c = id ∨ row.status = .done

-- The task that a transition request completes, when it passes the checks.
def completes (store : Store) (current id action : String) : Option TaskRow :=
  match (perform (checkTransition current id action) store).1 with
  | .ok (task,_,.done) => some task
  | _ => none

section Advanced
variable {s t u : Store} {id : String} {task row : TaskRow}

theorem Advanced.congr {one two : String → Prop} (advanced : Advanced s t one) (same : ∀ k, one k ↔ two k) :
    Advanced s t two := by
  have equal : one = two := funext fun k => propext (same k)
  exact equal ▸ advanced

theorem Advanced.trans {one two : String → Prop} (first : Advanced s t one) (second : Advanced t u two) :
    Advanced s u fun k => one k ∨ two k := by
  obtain ⟨before,early⟩ := first.restated
  obtain ⟨after,late⟩ := second.restated
  refine ⟨⟨_,early.trans late⟩,fun k => ?_,fun k old row found there => ?_,fun k row found blocked => ?_⟩
  · rw [second.done,first.done,or_assoc]
  · have middle := early.found found
    rcases second.moved k _ row middle there with kept | ⟨finished,done⟩ | ⟨was,now⟩
    · rcases first.moved k old _ found middle with same | ⟨finished,done⟩ | ⟨was,now⟩
      · exact .inl (kept.trans same)
      · exact .inr (.inl ⟨.inl finished,kept.trans done⟩)
      · exact .inr (.inr ⟨was,kept.trans now⟩)
    · exact .inr (.inl ⟨.inr finished,done⟩)
    · rcases first.moved k old _ found middle with same | ⟨_,done⟩ | ⟨_,todo⟩
      · exact .inr (.inr ⟨same ▸ was,now⟩)
      · rw [was] at done; cases done
      · rw [was] at todo; cases todo
  · obtain ⟨middle,standing,still,implied⟩ := second.waits k row found blocked
    obtain ⟨old,present,was,needed⟩ := first.waits k middle standing still
    exact ⟨old,present,was,fun satisfied => needed (implied satisfied)⟩

-- Setting one task done and running its cascade. A blocked task that is left
-- either does not depend on it or waits for another task as well.
theorem finish_returns (sound : Sound s) (found : s.tasks.lookup id = some task)
    (set : Restated s t fun k old => if k = id then .done else old) :
    Returns (onTaskCompleted id) t fun _ u => Advanced s u (· = id) := by
  refine (onTaskCompleted_returns (set.sound sound) id).mono fun _ u cascade => ?_
  have whole := set.trans cascade
  have done : ∀ k, u.isDone k ↔ s.isDone k ∨ k = id := by
    intro k
    constructor
    · rintro ⟨row,there,finished⟩
      obtain ⟨old,standing,rfl⟩ := whole.inv there
      have early : (if k = id then TaskStatus.done else old.status) = .done := by simpa only [freed_done] using finished
      by_cases same : k = id
      · exact .inr same
      · rw [if_neg same] at early
        exact .inl ⟨old,standing,early⟩
    · rintro (⟨old,standing,finished⟩ | rfl)
      · exact ⟨_,whole.found standing,by simp [freed_done,finished]⟩
      · exact ⟨_,whole.found found,by simp [freed_done]⟩
  refine ⟨⟨_,whole⟩,done,fun k old row standing there => ?_,fun k row there blocked => ?_⟩
  · rw [whole.found standing] at there
    cases Option.some.inj there
    by_cases same : k = id
    · exact .inr (.inl ⟨same,by simp [freed_done,same]⟩)
    · simp only [freed,same,if_false]
      split
      · rename_i frees
        exact .inr (.inr ⟨frees.2.1,rfl⟩)
      · exact .inl rfl
  · obtain ⟨old,standing,rfl⟩ := whole.inv there
    have other : k ≠ id := by
      rintro rfl
      simp [freed] at blocked
    simp only [freed,other,if_false] at blocked
    split at blocked
    · cases blocked
    · rename_i stays
      refine ⟨old,standing,blocked,fun satisfied => ?_⟩
      have sound_u := whole.sound sound
      have same : t.dependenciesSatisfied k = true := by
        rw [← cascade.satisfied (fun j row _ => freed_done _) k]
        exact satisfied
      -- All is satisfied after the change, so this task was not a dependent.
      have apart : (k,id) ∉ s.dependencies := fun edge => stays ⟨by rw [set.1]; exact edge,blocked,same⟩
      rw [sound_u.satisfied_iff,whole.1] at satisfied
      rw [sound.satisfied_iff]
      intro d edge
      rcases (done d).mp (satisfied d edge) with before | rfl
      · exact before
      · exact absurd edge apart

theorem rollUp_returns (sound : Sound s) (child : s.tasks.lookup c = some row) (under : row.parentTaskId = some parentId) :
    Returns (rollUp parentId) s fun _ t =>
      (AllSubtasksDone s parentId ∧ Advanced s t (· = parentId)) ∨ (¬AllSubtasksDone s parentId ∧ t = s) := by
  have counts := rollup_iff child under
  by_cases all : AllSubtasksDone s parentId
  · obtain ⟨_,parent,found⟩ := sound.parents c row parentId child under
    have program := (setStatus_returns found .done).bind fun _ middle set =>
      (logHandoff_returns ⟨parentId,none,"done","system","dependency_satisfied",some "all subtasks done"⟩ middle).bind
        fun _ logged same => finish_returns sound found (set.trans same)
    obtain ⟨value,t,outcome,advanced⟩ := program
    refine ⟨value,t,?_,.inl ⟨all,advanced⟩⟩
    simp only [rollUp,perform_bind,perform_get]
    rw [if_pos (counts.mpr all)]
    simpa only [perform_bind] using outcome
  · refine ⟨⟨⟩,s,?_,.inr ⟨all,rfl⟩⟩
    simp only [rollUp,perform_bind,perform_get]
    rw [if_neg (mt counts.mp all),perform_pure]

theorem completeTask_returns (sound : Sound s) (found : s.tasks.lookup id = some task)
    (set : Restated s t fun k old => if k = id then .done else old) :
    Returns (completeTask id task.parentTaskId) t fun _ u => Advanced s u fun k => k = id ∨ RollsUp s id task k := by
  refine (finish_returns sound found set).bind fun _ middle finished => ?_
  cases under : task.parentTaskId with
  | none => exact ⟨_,middle,rfl,finished.congr fun k => by simp [RollsUp,under]⟩
  | some parentId =>
    obtain ⟨status,restated⟩ := finished.restated
    have rolls : AllSubtasksDone middle parentId ↔ RollsUp s id task parentId := by
      constructor
      · refine fun all => ⟨under,fun c row standing below => ?_⟩
        have done : middle.isDone c := ⟨_,restated.found standing,all c _ (restated.found standing) below⟩
        rcases (finished.done c).mp done with ⟨other,same,before⟩ | same
        · rw [standing] at same
          exact .inr (Option.some.inj same ▸ before)
        · exact .inl same
      · rintro ⟨_,all⟩ c row standing below
        obtain ⟨old,present,rfl⟩ := restated.inv standing
        have done : middle.isDone c := (finished.done c).mpr ((all c old present below).symm.imp (fun before => ⟨old,present,before⟩) fun same => same)
        obtain ⟨other,same,after⟩ := done
        rw [standing] at same
        exact Option.some.inj same ▸ after
    refine (rollUp_returns (restated.sound sound) (restated.found found) under).mono fun _ u rolled => ?_
    rcases rolled with ⟨all,advanced⟩ | ⟨none,rfl⟩
    · refine (finished.trans advanced).congr fun k => or_congr_right ?_
      constructor
      · rintro rfl
        exact rolls.mp all
      · rintro ⟨same,_⟩
        rw [under] at same
        exact (Option.some.inj same).symm
    · refine finished.congr fun k => ⟨.inl,fun either => either.resolve_right fun rolled => ?_⟩
      obtain rfl : parentId = k := Option.some.inj (under.symm.trans rolled.1)
      exact none (rolls.mpr rolled)

end Advanced

section Transition
variable {s : Store}

theorem checkTransition_cases (s : Store) (current id action : String) :
    (∃ error, perform (checkTransition current id action) s = (.error error,s)) ∨
    ∃ task parsed target, perform (checkTransition current id action) s = (.ok (task,parsed,target),s) ∧
      s.tasks.lookup id = some task ∧ nextStatus task.status parsed task.requiresHumanReview = some target ∧
      (parsed = .start → s.dependenciesSatisfied id = true) := by
  simp only [checkTransition,requireTaskMember,getTask,requireMember,perform_bind,perform_get]
  cases found : s.tasks.lookup id with
  | none => exact .inl ⟨_,rfl⟩
  | some task =>
    simp only [perform_pure]
    cases s.members.lookup (task.projectId,current) with
    | none => exact .inl ⟨_,rfl⟩
    | some perm =>
      simp only [perform_pure]
      cases TaskAction.parse action with
      | none => exact .inl ⟨_,rfl⟩
      | some parsed =>
        cases next : nextStatus task.status parsed task.requiresHumanReview with
        | none => exact .inl ⟨_,by simp only [next]; rfl⟩
        | some target =>
          simp only [next,perform_bind,perform_get]
          split
          · exact .inl ⟨_,rfl⟩
          · rename_i passed
            refine .inr ⟨task,parsed,target,by simp only [perform_pure],rfl,next,fun starts => ?_⟩
            simpa [starts] using passed

-- What a transition that passes the checks leaves behind.
theorem transitionTask_passed (sound : Sound s) {id : String} {task : TaskRow}
    (passed : perform (checkTransition current id action) s = (.ok (task,parsed,target),s)) (found : s.tasks.lookup id = some task) :
    (target ≠ .done → Restated s (perform (transitionTask current id action) s).2 fun k old => if k = id then target else old) ∧
    (target = .done → Advanced s (perform (transitionTask current id action) s).2 fun k => k = id ∨ RollsUp s id task k) := by
  have written := (setStatus_returns found target).bind fun _ middle set =>
    (logHandoff_returns ⟨id,some task.status.asStr,target.asStr,current,triggerKind parsed,none⟩ middle).mono
      fun _ logged same => set.trans same
  obtain ⟨value,t,outcome,set⟩ := written
  -- Whatever follows the first two writes, the request ends by reading its task.
  have ends : ∀ rest : Program Store ApiError PUnit, ∀ nothing u, perform rest t = (.ok nothing,u) →
      (∃ row, u.tasks.lookup id = some row) →
      (perform (setStatus id target >>= fun _ => logHandoff ⟨id,some task.status.asStr,target.asStr,current,
        triggerKind parsed,none⟩ >>= fun _ => rest >>= fun _ => getTask id) s).2 = u := by
    intro rest nothing u rested present
    obtain ⟨row,present⟩ := present
    have split_outcome := outcome
    simp only [perform_bind] at split_outcome ⊢
    cases first : perform (setStatus id target) s with
    | mk result middle =>
      rw [first] at split_outcome
      cases result with
      | error => simp at split_outcome
      | ok _ =>
        simp only at split_outcome ⊢
        rw [split_outcome]
        simp only [rested,getTask,perform_bind,perform_get,present,perform_pure]
  have unfolded : (perform (transitionTask current id action) s).2 = (perform (setStatus id target >>= fun _ =>
      logHandoff ⟨id,some task.status.asStr,target.asStr,current,triggerKind parsed,none⟩ >>= fun _ =>
        propagate id task.parentTaskId target >>= fun _ => getTask id) s).2 := by
    rw [transitionTask,perform_bind,passed]
  refine ⟨fun goes_on => ?_,fun finishes => ?_⟩
  · rw [unfolded,ends _ ⟨⟩ t (by rw [propagate,if_neg goes_on,perform_pure]) ⟨_,set.found found⟩]
    exact set
  · subst finishes
    obtain ⟨nothing,u,rested,advanced⟩ := completeTask_returns sound found set
    obtain ⟨status,restated⟩ := advanced.restated
    rw [unfolded,ends _ nothing u (by simpa only [propagate,if_true] using rested) ⟨_,restated.found found⟩]
    exact advanced

-- A transition is refused, or sets one status, or completes its task and rolls
-- up the parent.
theorem transitionTask_cases (sound : Sound s) (current id action : String) :
    ((perform (transitionTask current id action) s).2 = s ∧ completes s current id action = none) ∨
    (∃ task parsed target, s.tasks.lookup id = some task ∧
      nextStatus task.status parsed task.requiresHumanReview = some target ∧
      (parsed = .start → s.dependenciesSatisfied id = true) ∧ target ≠ .done ∧ completes s current id action = none ∧
      Restated s (perform (transitionTask current id action) s).2 fun k old => if k = id then target else old) ∨
    (∃ task parsed, s.tasks.lookup id = some task ∧
      nextStatus task.status parsed task.requiresHumanReview = some .done ∧ completes s current id action = some task ∧
      Advanced s (perform (transitionTask current id action) s).2 fun k => k = id ∨ RollsUp s id task k) := by
  rcases checkTransition_cases s current id action with ⟨error,refused⟩ | ⟨task,parsed,target,passed,found,next,starts⟩
  · exact .inl ⟨by simp [transitionTask,refused],by simp [completes,refused]⟩
  · refine .inr ?_
    obtain ⟨goes_on,finishes⟩ := transitionTask_passed sound passed found
    by_cases last : target = .done
    · subst last
      exact .inr ⟨task,parsed,found,next,by simp [completes,passed],finishes rfl⟩
    · refine .inl ⟨task,parsed,target,found,next,starts,last,?_,goes_on last⟩
      cases target <;> simp_all [completes]

end Transition

end AlineaCopilot.ProjectTasks
