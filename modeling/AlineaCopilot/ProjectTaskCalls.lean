import AlineaCopilot.ProjectTasks
open AlineaCopilot.KeyedMaps AlineaCopilot.StatefulPrograms

namespace AlineaCopilot.ProjectTasks

def Store.isDone (store : Store) (id : String) : Prop := ∃ row, store.tasks.lookup id = some row ∧ row.status = .done

-- Rows stand under their own id, a parent is another task, and an edge joins
-- two tasks. Nothing removes a row.
structure Sound (store : Store) : Prop where
  keyed : ∀ k row, store.tasks.lookup k = some row → row.id = k
  parents : ∀ k row parent, store.tasks.lookup k = some row → row.parentTaskId = some parent →
    parent ≠ k ∧ ∃ other, store.tasks.lookup parent = some other
  edges : ∀ k d, (k,d) ∈ store.dependencies →
    (∃ row, store.tasks.lookup k = some row) ∧ ∃ row, store.tasks.lookup d = some row

-- Between the two stores only statuses and the handoff log differ.
def Restated (s t : Store) (status : String → TaskStatus → TaskStatus) : Prop :=
  t.dependencies = s.dependencies ∧
    ∀ k, t.tasks.lookup k = (s.tasks.lookup k).map fun row => { row with status := status k row.status }

section Reads
variable {store : Store} {id : String}

theorem satisfied_iff : store.dependenciesSatisfied id = true ↔
    ∀ d row, (id,d) ∈ store.dependencies → store.tasks.lookup d = some row → row.status = .done := by
  simp only [Store.dependenciesSatisfied,decide_eq_true_eq,List.length_eq_zero_iff,List.filter_eq_nil_iff,
    Bool.and_eq_true,beq_iff_eq,not_and,Prod.forall]
  constructor
  · intro none d row edge found
    by_contra other
    exact none id d edge rfl (by simp [found,other])
  · rintro all k d edge rfl
    cases found : store.tasks.lookup d with
    | none => simp
    | some row => simp [all d row edge found]

theorem Sound.satisfied_iff (sound : Sound store) : store.dependenciesSatisfied id = true ↔
    ∀ d, (id,d) ∈ store.dependencies → store.isDone d := by
  rw [ProjectTasks.satisfied_iff]
  constructor
  · intro all d edge
    obtain ⟨row,found⟩ := (sound.edges id d edge).2
    exact ⟨row,found,all d row edge found⟩
  · intro all d row edge found
    obtain ⟨other,same,done⟩ := all d edge
    rw [found] at same
    exact Option.some.inj same ▸ done

theorem mem_subtasks : row ∈ store.subtasks parent ↔
    (∃ k, store.tasks.lookup k = some row) ∧ row.parentTaskId = some parent := by
  simp [Store.subtasks,mem_values]

-- The two counts of the rollup query agree when every subtask is done.
theorem rollup_iff (child : store.tasks.lookup k = some row) (parent : row.parentTaskId = some p) :
    (0 < (store.subtaskRollup p).1 ∧ (store.subtaskRollup p).1 = (store.subtaskRollup p).2) ↔
      ∀ c row, store.tasks.lookup c = some row → row.parentTaskId = some p → row.status = .done := by
  have some_subtask : 0 < (store.subtaskRollup p).1 :=
    List.length_pos_of_mem (mem_subtasks.mpr ⟨⟨k,child⟩,parent⟩)
  simp only [some_subtask,true_and]
  constructor
  · intro same c other found under
    have all := List.countP_eq_length.mp same.symm
    simpa using all other (mem_subtasks.mpr ⟨⟨c,found⟩,under⟩)
  · intro all
    refine (List.countP_eq_length.mpr fun other member => ?_).symm
    obtain ⟨⟨c,found⟩,under⟩ := mem_subtasks.mp member
    simpa using all c other found under

theorem mem_dependentsOf : row ∈ store.dependentsOf id ↔
    ∃ k, (k,id) ∈ store.dependencies ∧ store.tasks.lookup k = some row := by
  simp only [Store.dependentsOf,List.mem_filterMap,Prod.exists]
  constructor
  · rintro ⟨k,d,edge,found⟩
    split at found
    · rename_i same
      exact ⟨k,same ▸ edge,found⟩
    · cases found
  · rintro ⟨k,edge,found⟩
    exact ⟨k,id,edge,by simp [found]⟩

end Reads

section Restated
variable {s t u : Store} {id : String}

theorem Restated.refl (s : Store) : Restated s s fun _ status => status := ⟨rfl,fun k => by simp⟩

theorem Restated.trans {one two : String → TaskStatus → TaskStatus} (first : Restated s t one) (second : Restated t u two) :
    Restated s u fun k status => two k (one k status) := by
  refine ⟨second.1.trans first.1,fun k => ?_⟩
  rw [second.2,first.2,Option.map_map]
  rfl

theorem Restated.found {status : String → TaskStatus → TaskStatus} (changed : Restated s t status)
    (found : s.tasks.lookup k = some row) : t.tasks.lookup k = some { row with status := status k row.status } := by
  rw [changed.2,found]; rfl

theorem Restated.inv {status : String → TaskStatus → TaskStatus} (changed : Restated s t status)
    (found : t.tasks.lookup k = some row) :
    ∃ old, s.tasks.lookup k = some old ∧ row = { old with status := status k old.status } := by
  rw [changed.2] at found
  obtain ⟨old,standing,rfl⟩ := Option.map_eq_some_iff.mp found
  exact ⟨old,standing,rfl⟩

theorem Restated.sound {status : String → TaskStatus → TaskStatus} (changed : Restated s t status) (sound : Sound s) :
    Sound t := by
  constructor
  · intro k row found
    obtain ⟨old,standing,rfl⟩ := changed.inv found
    exact sound.keyed k old standing
  · intro k row parent found under
    obtain ⟨old,standing,rfl⟩ := changed.inv found
    obtain ⟨different,other,present⟩ := sound.parents k old parent standing under
    exact ⟨different,_,changed.found present⟩
  · intro k d edge
    rw [changed.1] at edge
    obtain ⟨⟨_,one⟩,⟨_,two⟩⟩ := sound.edges k d edge
    exact ⟨⟨_,changed.found one⟩,⟨_,changed.found two⟩⟩

theorem setStatus_returns (found : s.tasks.lookup id = some row) (status : TaskStatus) :
    Returns (setStatus id status) s fun _ t => Restated s t fun k old => if k = id then status else old := by
  let next : Store := { s with tasks := s.tasks.insert id { row with status := status } }
  refine ⟨⟨⟩,next,by simp only [setStatus,modifyTask,perform_bind,perform_get,found,perform_set,next],rfl,fun k => ?_⟩
  simp only [next,lookup_insert_eq]
  by_cases same : k = id
  · subst same; simp [found]
  · simp [same]

theorem logHandoff_returns (entry : NewHandoff) (s : Store) :
    Returns (logHandoff entry) s fun _ t => Restated s t fun _ status => status :=
  ⟨_,_,rfl,rfl,fun k => by simp⟩

end Restated

section Cascade
variable {s t u : Store}

-- A change that makes no task done and none undone leaves the satisfied
-- dependencies as they were.
theorem Restated.satisfied {status : String → TaskStatus → TaskStatus} (changed : Restated s t status)
    (same : ∀ k row, s.tasks.lookup k = some row → (status k row.status = .done ↔ row.status = .done)) (id : String) :
    t.dependenciesSatisfied id = s.dependenciesSatisfied id := by
  rw [Bool.eq_iff_iff,satisfied_iff,satisfied_iff,changed.1]
  constructor
  · intro all d row edge found
    exact (same d row found).mp (all d _ edge (changed.found found))
  · intro all d row edge found
    obtain ⟨old,standing,rfl⟩ := changed.inv found
    exact (same d old standing).mpr (all d old edge standing)

-- What the cascade makes of a status: a blocked task among the listed ones is
-- freed when its dependencies are all done.
def freed (s : Store) (listed : String → Prop) [DecidablePred listed] (k : String) (status : TaskStatus) : TaskStatus :=
  if listed k ∧ status = .blocked ∧ s.dependenciesSatisfied k = true then .todo else status

theorem freed_done (listed : String → Prop) [DecidablePred listed] : freed s listed k status = .done ↔ status = .done := by
  unfold freed
  split
  · rename_i both
    simp [both.2.1]
  · rfl

theorem onTaskCompleted_returns (sound : Sound s) (id : String) :
    Returns (onTaskCompleted id) s fun _ t => Restated s t (freed s fun k => (k,id) ∈ s.dependencies) := by
  let passing (earlier : List TaskRow) (t : Store) : Prop := Restated s t (freed s fun k => ∃ row ∈ earlier, row.id = k)
  have loop : Returns ((s.dependentsOf id).forM unblockDependent) s fun _ t => passing (s.dependentsOf id) t := by
    refine Returns.forM _ ?_ ?_
    · exact ⟨rfl,fun k => by simp [freed]⟩
    · intro earlier dep rest t whole passed
      have member : dep ∈ s.dependentsOf id := by rw [whole]; simp
      obtain ⟨key,_,found⟩ := mem_dependentsOf.mp member
      rw [← sound.keyed key dep found] at found
      have itself : ∀ k row, s.tasks.lookup k = some row → k = dep.id → row = dep := by
        rintro k row standing rfl
        rw [found] at standing
        exact (Option.some.inj standing).symm
      have same := passed.satisfied (fun k row _ => freed_done _) dep.id
      -- The loop is at `dep`: every other row keeps what it has.
      have others : ∀ k, k ≠ dep.id → ∀ status, freed s (fun k => ∃ row ∈ earlier ++ [dep],row.id = k) k status =
          freed s (fun k => ∃ row ∈ earlier,row.id = k) k status := by
        intro k other status
        simp only [freed,List.mem_append,List.mem_singleton,or_and_right,exists_or,exists_eq_left,Ne.symm other,or_false]
      by_cases frees : dep.status = .blocked ∧ s.dependenciesSatisfied dep.id = true
      · have writes : Returns (unblockDependent dep) t fun _ next =>
            Restated t next fun k old => if k = dep.id then .todo else old := by
          have both := (setStatus_returns (passed.found found) .todo).bind fun _ next changed =>
            (logHandoff_returns ⟨dep.id,some "blocked","todo","system","dependency_satisfied",none⟩ next).mono
              fun _ final logged => changed.trans logged
          obtain ⟨value,next,outcome,shown⟩ := both
          refine ⟨value,next,?_,shown⟩
          simp only [unblockDependent,perform_bind,perform_get,same,frees,decide_true,Bool.and_self,if_true]
          simpa only [perform_bind] using outcome
        refine writes.mono fun _ next changed => ⟨changed.1.trans passed.1,fun k => ?_⟩
        rw [(passed.trans changed).2]
        cases standing : s.tasks.lookup k with
        | none => rfl
        | some row =>
          by_cases here : k = dep.id
          · rw [itself k row standing here,here]
            simp [freed,frees]
          · simp only [Option.map_some,here,if_false,others k here]
      · refine ⟨⟨⟩,t,?_,passed.1,fun k => ?_⟩
        · have refuses : (decide (dep.status = .blocked) && s.dependenciesSatisfied dep.id) = false := by
            rw [Bool.eq_false_iff]
            simpa using frees
          simp only [unblockDependent,perform_bind,perform_get,same,refuses,Bool.false_eq_true,if_false,perform_pure]
        · rw [passed.2]
          cases standing : s.tasks.lookup k with
          | none => rfl
          | some row =>
            by_cases here : k = dep.id
            · have stays : ∀ listed : String → Prop, ∀ [DecidablePred listed], freed s listed k row.status = row.status := by
                intro listed _
                rw [itself k row standing here,here]
                exact if_neg fun both => frees both.2
              simp only [Option.map_some,stays]
            · simp only [Option.map_some,others k here]
  have whole : Returns (onTaskCompleted id) s fun _ t => passing (s.dependentsOf id) t := by
    obtain ⟨value,t,outcome,shown⟩ := loop
    exact ⟨value,t,by simpa only [onTaskCompleted,perform_bind,perform_get] using outcome,shown⟩
  refine whole.mono ?_
  · intro _ t changed
    refine ⟨changed.1,fun k => ?_⟩
    rw [changed.2]
    cases standing : s.tasks.lookup k with
    | none => rfl
    | some row =>
      have listed : (∃ dep ∈ s.dependentsOf id, dep.id = k) ↔ (k,id) ∈ s.dependencies := by
        constructor
        · rintro ⟨dep,member,rfl⟩
          obtain ⟨key,edge,found⟩ := mem_dependentsOf.mp member
          rwa [sound.keyed key dep found]
        · intro edge
          exact ⟨row,mem_dependentsOf.mpr ⟨k,edge,standing⟩,sound.keyed k row standing⟩
      simp only [freed,listed]

end Cascade

end AlineaCopilot.ProjectTasks
