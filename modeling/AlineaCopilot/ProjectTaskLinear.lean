import Mathlib.Data.List.Nodup
import AlineaCopilot.ProjectTaskInterleavings
open AlineaCopilot.KeyedMaps AlineaCopilot.TransitionRuns
open AlineaCopilot.InterleavedRequests (System step goes_store goes_same goes_other step_some)

namespace AlineaCopilot.ProjectTaskRequests
open ProjectTasks

-- Tables as they stand when no request is under way.
structure Settled (store : Store) : Prop where
  sound : ProjectTasks.Sound store
  logged : ∀ entry ∈ store.handoffs, ∃ row, store.tasks.lookup entry.taskId = some row
  walks : ∀ k row, store.tasks.lookup k = some row → Walk row.requiresHumanReview .todo (logOf store k) row.status
  freed : ∀ k, ¬Waiting store k

-- A status that a request read still stands when it sets another. A new task is
-- blocked while it waits for some task, or before the dependents of one that was
-- completed meanwhile are listed. Of the requests that owe an entry for a task,
-- the first to have set its status logs first.
structure Orderly (w : Watched) (action : Nat × Input) : Prop where
  current : ∀ id was row, (w.system.threads action.1).expects = some (id,was) →
    w.system.store.tasks.lookup id = some row → row.status = was
  awaited : ∀ task, w.system.threads action.1 = .blocking task → w.system.store.dependenciesSatisfied task.id = false ∨
    ∃ m d, (w.system.threads m).completing = some d ∧ (task.id,d) ∈ w.system.store.dependencies
  inTurn : ∀ entry, (w.system.threads action.1).owes = some entry →
    w.pending.find? (fun owed => owed.2.taskId = entry.taskId) = some (action.1,entry)

structure Kept (w : Watched) : Prop where
  sound : InterleavedRequests.Sound ProjectTasks.Sound Fits w.system
  once : w.pending.Nodup
  owed : ∀ n entry, (n,entry) ∈ w.pending ↔ (w.system.threads n).owes = some entry
  logged : ∀ entry ∈ w.system.store.handoffs, ∃ row, w.system.store.tasks.lookup entry.taskId = some row
  due : ∀ owed ∈ w.pending, ∃ row, w.system.store.tasks.lookup owed.2.taskId = some row
  walks : ∀ k row, w.system.store.tasks.lookup k = some row →
    Walk row.requiresHumanReview .todo (logOf w.system.store k ++ owedFor w.pending k) row.status
  visited : ∀ k, Waiting w.system.store k → ∃ n, Visits w.system.store (w.system.threads n) k

theorem kept_start (settled : Settled store) : Kept (start store) := by
  refine ⟨⟨settled.sound,fun _ => True.intro⟩,List.nodup_nil,?_,settled.logged,?_,?_,?_⟩
  · intro n entry
    exact iff_of_false List.not_mem_nil fun owes => by cases owes
  · intro owed member
    exact absurd member List.not_mem_nil
  · intro k row found
    simpa only [start,owedFor,List.map_nil,List.filter_nil,List.append_nil] using settled.walks k row found
  · intro k waiting
    exact absurd waiting (settled.freed k)

section Step
variable {w next : Watched} {n : Nat} {store after : Store} {p later : Progress} {status : TaskStatus}
  {entry : NewHandoff} {row : TaskRow}

theorem watch_some (taken : watch w (n,input) = some next) :
    ∃ after later, advance w.system.store (w.system.threads n) input = some (after,later) ∧
      next = ⟨w.system.goes n after later,w.pending.filter (fun owed => owed.1 ≠ n) ++
        later.owes.toList.map fun entry => (n,entry)⟩ := by
  obtain ⟨system,stepped,rfl⟩ := Option.map_eq_some_iff.mp taken
  obtain ⟨after,later,moved,rfl⟩ := step_some stepped
  exact ⟨after,later,moved,by simp only [goes_same]⟩

theorem advance_effect (sound : ProjectTasks.Sound store) (fits : Fits store p)
    (moved : advance store p input = some (after,later)) : Effect store p after later ∧ Fits after later := by
  cases input with
  | answer freshId => exact serve_effect sound fits moved
  | arrive request =>
    cases p with
    | idle =>
      cases moved
      cases request with
      | transition => exact ⟨.plain rfl rfl rfl rfl,True.intro⟩
      | create => exact ⟨.plain rfl rfl rfl rfl,True.intro⟩
    | _ => cases moved

-- What the condition says of the status that is set makes the move legal.
theorem writes_legal (fits : Fits store p) (writes : p.writes = some (status,entry))
    (found : store.tasks.lookup entry.taskId = some row)
    (stands : ∀ id was old, p.expects = some (id,was) → store.tasks.lookup id = some old → old.status = was) :
    LegalMove row.requiresHumanReview row.status entry status := by
  cases p with
  | moving current id task parsed target =>
    cases writes
    have here : store.tasks.lookup id = some row := found
    obtain ⟨⟨read,standing,flag⟩,next⟩ := fits
    cases standing.symm.trans here
    rw [flag,stands id task.status row rfl here]
    exact .manual next
  | freeing dep rest onward =>
    cases writes
    rw [stands dep.id .blocked row rfl found]
    exact .freed
  | closing id parentId =>
    cases writes
    exact .closed
  | blocking task =>
    cases writes
    rw [stands task.id .todo row rfl found]
    exact .blocked
  | _ => cases writes

theorem effect_sound (sound : ProjectTasks.Sound store) (effect : Effect store p after later) : ProjectTasks.Sound after := by
  cases effect with
  | quiet => exact sound
  | stated owes writes found => exact (stated_restated found _).sound sound
  | noted => exact ⟨sound.keyed,sound.parents,sound.edges⟩
  | inserted owes none checked => exact sound_maintained.insert _ _ _ sound checked

theorem effect_carried (effect : Effect store p after later) : Carried store after := by
  cases effect with
  | quiet => exact .refl
  | stated owes writes found => exact stated_carried found _
  | noted => exact .refl
  | inserted owes none checked => exact insert_carried checked

theorem owedFor_append (one two : List (Nat × NewHandoff)) (k : String) :
    owedFor (one ++ two) k = owedFor one k ++ owedFor two k := by
  simp only [owedFor,List.map_append,List.filter_append]

theorem owedFor_other (apart : ∀ owed ∈ pending, owed.2.taskId ≠ k) : owedFor pending k = [] := by
  refine List.filter_eq_nil_iff.mpr fun entry member => ?_
  obtain ⟨owed,inside,rfl⟩ := List.mem_map.mp member
  simpa using apart owed inside

theorem logOf_noted (store : Store) (entry : NewHandoff) (k : String) :
    logOf (noted store entry) k = logOf store k ++ if entry.taskId = k then [entry] else [] := by
  simp only [logOf,noted,List.filter_append]
  by_cases same : entry.taskId = k
  · simp [same]
  · simp [same]

theorem Kept.idle (kept : Kept w) (owes : (w.system.threads n).owes = none) :
    w.pending.filter (fun owed => owed.1 ≠ n) = w.pending := by
  refine List.filter_eq_self.mpr ?_
  rintro ⟨m,entry⟩ member
  have other : m ≠ n := by
    rintro rfl
    rw [kept.owed,owes] at member
    cases member
  simpa using other

-- The entry that is logged now is the first of its task, and the only one of its
-- request.
theorem Kept.logging (kept : Kept w)
    (turn : w.pending.find? (fun owed => owed.2.taskId = entry.taskId) = some (n,entry)) :
    ∃ before later, w.pending = before ++ (n,entry) :: later ∧
      w.pending.filter (fun owed => owed.1 ≠ n) = before ++ later ∧ ∀ owed ∈ before, owed.2.taskId ≠ entry.taskId := by
  obtain ⟨_,before,later,whole,first⟩ := List.find?_eq_some_iff_append.mp turn
  have alone := kept.once
  rw [whole,List.nodup_append,List.nodup_cons] at alone
  obtain ⟨_,⟨not_later,_⟩,apart⟩ := alone
  have others : ∀ owed, owed ∈ before ∨ owed ∈ later → owed.1 ≠ n := by
    rintro ⟨m,other⟩ inside rfl
    have member : (m,other) ∈ w.pending := by
      rw [whole]
      rcases inside with early | late
      · exact List.mem_append_left _ early
      · exact List.mem_append_right _ (List.mem_cons_of_mem _ late)
    have here : (m,entry) ∈ w.pending := by
      rw [whole]
      exact List.mem_append_right _ List.mem_cons_self
    have same : other = entry := Option.some.inj (((kept.owed m other).mp member).symm.trans ((kept.owed m entry).mp here))
    subst same
    rcases inside with early | late
    · exact apart _ early _ List.mem_cons_self rfl
    · exact not_later late
  refine ⟨before,later,whole,?_,fun owed member => by simpa using first owed member⟩
  have keep_before : before.filter (fun owed => owed.1 ≠ n) = before :=
    List.filter_eq_self.mpr fun owed member => by simpa using others owed (.inl member)
  have keep_later : later.filter (fun owed => owed.1 ≠ n) = later :=
    List.filter_eq_self.mpr fun owed member => by simpa using others owed (.inr member)
  rw [whole,List.filter_append,List.filter_cons,keep_before,keep_later]
  simp

theorem once_kept (kept : Kept w) (n : Nat) (later : Progress) :
    (w.pending.filter (fun owed => owed.1 ≠ n) ++ later.owes.toList.map fun entry => (n,entry)).Nodup := by
  refine List.nodup_append.mpr ⟨kept.once.filter _,?_,?_⟩
  · cases later.owes with
    | none => exact List.nodup_nil
    | some entry => exact List.nodup_singleton _
  · intro one early two late same
    subst same
    obtain ⟨entry,_,rfl⟩ := List.mem_map.mp late
    simp at early

theorem owed_kept (kept : Kept w) (n : Nat) (after : Store) (later : Progress) (m : Nat) (entry : NewHandoff) :
    (m,entry) ∈ w.pending.filter (fun owed => owed.1 ≠ n) ++ later.owes.toList.map (fun entry => (n,entry)) ↔
      ((w.system.goes n after later).threads m).owes = some entry := by
  rw [List.mem_append,List.mem_filter]
  by_cases same : m = n
  · subst same
    simp
  · rw [goes_other same,← kept.owed]
    simp [same,Ne.symm same]

-- The log of each task, with what is owed for it, leads to its status still.
theorem walks_kept (kept : Kept w) (orderly : Orderly w (n,input))
    (effect : Effect w.system.store (w.system.threads n) after later) (found : after.tasks.lookup k = some row) :
    Walk row.requiresHumanReview .todo (logOf after k ++ owedFor (w.pending.filter (fun owed => owed.1 ≠ n) ++
      later.owes.toList.map fun entry => (n,entry)) k) row.status := by
  cases effect with
  | quiet owes none =>
    rw [kept.idle owes,none]
    simpa using kept.walks k row found
  | inserted owes none checked =>
    rw [kept.idle owes,none,Option.toList_none,List.map_nil,List.append_nil]
    rw [insertTask_lookup] at found
    split at found
    · -- Nothing was logged or is owed for the new id.
      rename_i fresh
      cases Option.some.inj found
      have absent : ∀ entry : NewHandoff, (∃ old, w.system.store.tasks.lookup entry.taskId = some old) → entry.taskId ≠ k := by
        rintro entry ⟨old,standing⟩ same
        rw [same,fresh,(constraintFailure_none.mp checked).1] at standing
        cases standing
      have unlogged : logOf w.system.store k = [] :=
        List.filter_eq_nil_iff.mpr fun entry member => by simpa using absent entry (kept.logged entry member)
      have nothing : owedFor w.pending k = [] := owedFor_other fun owed member => absent owed.2 (kept.due owed member)
      change Walk _ _ (logOf w.system.store k ++ _) _
      rw [unlogged,nothing]
      exact .nil
    · exact kept.walks k row found
  | @stated status entry old _ owes writes standing records =>
    rw [kept.idle owes,records,owedFor_append]
    change Walk _ _ (logOf w.system.store k ++ _) _
    rw [← List.append_assoc]
    obtain ⟨before,present,rfl⟩ := (stated_restated standing status).inv found
    have walked := kept.walks k before present
    by_cases same : k = entry.taskId
    · subst same
      cases present.symm.trans standing
      have legal := writes_legal (kept.sound.fits n) writes standing orderly.current
      simpa [owedFor] using walked.snoc legal
    · simpa [owedFor,Ne.symm same,same] using walked
  | @noted entry _ owes none =>
    obtain ⟨before,rest,whole,left,first⟩ := kept.logging (orderly.inTurn entry owes)
    have walked := kept.walks k row found
    rw [left,none,Option.toList_none,List.map_nil,List.append_nil,logOf_noted,owedFor_append]
    rw [whole,List.append_cons,owedFor_append,owedFor_append] at walked
    by_cases same : entry.taskId = k
    · subst same
      rw [owedFor_other first] at walked ⊢
      simpa [owedFor] using walked
    · simpa [owedFor,same] using walked

theorem logged_kept (kept : Kept w) (effect : Effect w.system.store (w.system.threads n) after later) :
    ∀ entry ∈ after.handoffs, ∃ row, after.tasks.lookup entry.taskId = some row := by
  have carried := effect_carried effect
  have before : ∀ entry ∈ w.system.store.handoffs, ∃ row, after.tasks.lookup entry.taskId = some row := by
    intro entry member
    obtain ⟨row,found⟩ := kept.logged entry member
    obtain ⟨next,there,_⟩ := carried entry.taskId row found
    exact ⟨next,there⟩
  cases effect with
  | quiet => exact before
  | stated => exact before
  | inserted => exact before
  | @noted entry _ owes none =>
    intro other member
    rcases List.mem_append.mp member with old | new
    · exact before other old
    · cases List.mem_singleton.mp new
      exact kept.due (n,entry) ((kept.owed n entry).mpr owes)

theorem due_kept (kept : Kept w) (effect : Effect w.system.store (w.system.threads n) after later) :
    ∀ owed ∈ w.pending.filter (fun owed => owed.1 ≠ n) ++ later.owes.toList.map (fun entry => (n,entry)),
      ∃ row, after.tasks.lookup owed.2.taskId = some row := by
  intro owed member
  have carried := effect_carried effect
  rcases List.mem_append.mp member with old | new
  · obtain ⟨row,found⟩ := kept.due owed (List.mem_of_mem_filter old)
    obtain ⟨next,there,_⟩ := carried owed.2.taskId row found
    exact ⟨next,there⟩
  · obtain ⟨entry,inside,rfl⟩ := List.mem_map.mp new
    have owes : later.owes = some entry := Option.mem_toList.mp inside
    cases effect with
    | quiet _ none => cases none.symm.trans owes
    | noted _ none => cases none.symm.trans owes
    | inserted _ none => cases none.symm.trans owes
    | stated _ _ standing records =>
      cases records.symm.trans owes
      exact ⟨_,(stated_restated standing _).found standing⟩

theorem stated_done (found : store.tasks.lookup entry.taskId = some row)
    (done : (stated store entry.taskId row status).isDone d) : store.isDone d ∨ (d = entry.taskId ∧ status = .done) := by
  obtain ⟨next,there,finished⟩ := done
  obtain ⟨old,standing,rfl⟩ := (stated_restated found status).inv there
  by_cases same : d = entry.taskId
  · exact .inr ⟨same,by simpa [same] using finished⟩
  · exact .inl ⟨old,standing,by simpa [same] using finished⟩

-- Visits rest on the dependencies only, and those stay.
theorem visits_carried (effect : Effect store p after later) {other : Progress} (visits : Visits store other k) :
    Visits after other k := by
  rcases visits with ⟨d,completes,edge⟩ | listed
  · refine .inl ⟨d,completes,?_⟩
    cases effect with
    | inserted => exact mem_insertTask.mpr (.inl edge)
    | _ => exact edge
  · exact .inr listed

-- Whoever visited a task still does, the request itself or one of the others.
theorem visits_stay (visits : Visits w.system.store (w.system.threads m) k)
    (effect : Effect w.system.store (w.system.threads n) after later)
    (own : Visits w.system.store (w.system.threads n) k → Visits after later k) :
    ∃ m, Visits after ((w.system.goes n after later).threads m) k := by
  by_cases same : m = n
  · subst same
    exact ⟨m,by rw [goes_same]; exact own visits⟩
  · exact ⟨m,by rw [goes_other same]; exact visits_carried effect visits⟩

-- Only a new task is blocked.
theorem writes_blocked (fits : Fits store p) (writes : p.writes = some (.blocked,entry)) :
    ∃ task, p = .blocking task ∧ entry.taskId = task.id := by
  cases p with
  | moving current id task parsed target =>
    cases writes
    exact absurd rfl (nextStatus_cases fits.2).2.1
  | blocking task =>
    cases writes
    exact ⟨task,rfl,rfl⟩
  | freeing => cases writes
  | closing => cases writes
  | _ => cases writes

theorem visited_kept (kept : Kept w) (orderly : Orderly w (n,input))
    (effect : Effect w.system.store (w.system.threads n) after later) (waiting : Waiting after k) :
    ∃ m, Visits after ((w.system.goes n after later).threads m) k := by
  have sound := kept.sound.good
  obtain ⟨⟨row,found,blocked⟩,ready⟩ := waiting
  cases whole : effect with
  | quiet owes none keeps =>
    have before : Waiting w.system.store k := ⟨⟨row,found,blocked⟩,ready⟩
    obtain ⟨m,visits⟩ := kept.visited k before
    exact visits_stay visits effect (keeps k before)
  | noted owes none keeps =>
    obtain ⟨m,visits⟩ := kept.visited k ⟨⟨row,found,blocked⟩,ready⟩
    exact visits_stay visits effect (keeps k)
  | inserted owes none checked unseen =>
    have fresh := (constraintFailure_none.mp checked).1
    rw [insertTask_lookup] at found
    split at found
    · cases Option.some.inj found
      cases blocked
    · have before : Waiting w.system.store k :=
        ⟨⟨row,found,blocked⟩,fun d edge => (insertTask_isDone fresh).mp (ready d (mem_insertTask.mpr (.inl edge)))⟩
      obtain ⟨m,visits⟩ := kept.visited k before
      exact visits_stay visits effect fun own => absurd own (unseen k)
  | @stated status entry old _ owes writes standing records completes keeps =>
    obtain ⟨before,present,rfl⟩ := (stated_restated standing status).inv found
    by_cases same : k = entry.taskId
    · -- The task was blocked just now, before its last dependency's dependents
      -- are listed.
      subst same
      have target : status = .blocked := by simpa using blocked
      subst target
      obtain ⟨task,blocking,here⟩ := writes_blocked (kept.sound.fits n) writes
      have was : ∀ d, (task.id,d) ∈ w.system.store.dependencies → w.system.store.isDone d := by
        intro d edge
        rcases stated_done standing (ready d (here ▸ edge)) with done | ⟨_,impossible⟩
        · exact done
        · cases impossible
      rcases orderly.awaited task blocking with unsatisfied | ⟨m,d,finishing,edge⟩
      · rw [sound.satisfied_iff.mpr was] at unsatisfied
        cases unsatisfied
      · have other : m ≠ n := by
          rintro rfl
          rw [blocking] at finishing
          cases finishing
        exact ⟨m,by rw [goes_other other]; exact .inl ⟨d,finishing,here ▸ edge⟩⟩
    · have early : ∃ row, w.system.store.tasks.lookup k = some row ∧ row.status = .blocked :=
        ⟨before,present,by simpa [same] using blocked⟩
      by_cases was : Ready w.system.store k
      · obtain ⟨m,visits⟩ := kept.visited k ⟨early,was⟩
        exact visits_stay visits effect (keeps k same)
      · -- The task that was completed now is the last one this one waited for.
        obtain ⟨d,edge,undone⟩ : ∃ d, (k,d) ∈ w.system.store.dependencies ∧ ¬w.system.store.isDone d := by
          by_contra none
          exact was fun d edge => by_contra fun undone => none ⟨d,edge,undone⟩
        rcases stated_done standing (ready d edge) with done | ⟨rfl,finished⟩
        · exact absurd done undone
        · exact ⟨n,by rw [goes_same]; exact .inl ⟨_,completes finished,edge⟩⟩

theorem Kept.step (kept : Kept w) (orderly : Orderly w action) (taken : watch w action = some next) : Kept next := by
  obtain ⟨n,input⟩ := action
  obtain ⟨after,later,moved,rfl⟩ := watch_some taken
  obtain ⟨effect,fits⟩ := advance_effect kept.sound.good (kept.sound.fits n) moved
  refine ⟨⟨effect_sound kept.sound.good effect,fun m => ?_⟩,once_kept kept n later,owed_kept kept n after later,
    logged_kept kept effect,due_kept kept effect,fun k row found => walks_kept kept orderly effect found,
    fun k waiting => visited_kept kept orderly effect waiting⟩
  by_cases same : m = n
  · subst same
    rw [goes_store,goes_same]
    exact fits
  · rw [goes_store,goes_other same]
    exact (effect_carried effect).fits (kept.sound.fits m)

-- A task that is done stays done.
theorem done_step (kept : Kept w) (orderly : Orderly w action) (taken : watch w action = some next)
    (done : w.system.store.isDone k) : next.system.store.isDone k := by
  obtain ⟨n,input⟩ := action
  obtain ⟨after,later,moved,rfl⟩ := watch_some taken
  obtain ⟨effect,_⟩ := advance_effect kept.sound.good (kept.sound.fits n) moved
  change after.isDone k
  obtain ⟨row,found,finished⟩ := done
  cases effect with
  | quiet => exact ⟨row,found,finished⟩
  | noted => exact ⟨row,found,finished⟩
  | inserted owes none checked =>
    exact (insertTask_isDone (constraintFailure_none.mp checked).1).mpr ⟨row,found,finished⟩
  | @stated status entry old _ owes writes standing =>
    refine ⟨_,(stated_restated standing status).found found,?_⟩
    by_cases same : k = entry.taskId
    · subst same
      cases found.symm.trans standing
      have legal := writes_legal (kept.sound.fits n) writes standing orderly.current
      rw [finished] at legal
      simpa using legal.leaves_done
    · simpa [same] using finished

end Step

def Progress.Finished : Progress → Prop
  | .idle | .returned _ => True
  | _ => False

theorem finished_visits {p : Progress} (finished : p.Finished) : ¬Visits store p k := by
  cases p with
  | idle => exact visits_nothing rfl rfl k
  | returned => exact visits_nothing rfl rfl k
  | _ => exact finished.elim

theorem blank_settled (blank : Blank store) (unlogged : store.handoffs = []) : Settled store := by
  obtain ⟨tasks,dependencies⟩ := blank
  refine ⟨Blank.sound ⟨tasks,dependencies⟩,?_,?_,?_⟩
  · simp [unlogged]
  · simp [tasks]
  · rintro k ⟨⟨row,found,_⟩,_⟩
    simp [tasks] at found

section Runs

theorem kept_run (settled : Settled origin) (path : RunsWhere watch Orderly (start origin) actions final) : Kept final :=
  path.invariant (kept_start settled) fun _ _ _ kept orderly taken => kept.step orderly taken

theorem done_run (settled : Settled origin) (path : RunsWhere watch Orderly (start origin) actions final)
    (inside : earlier <+: actions) (prior : Runs watch (start origin) earlier between) (done : between.system.store.isDone k) :
    final.system.store.isDone k := by
  induction path with
  | nil =>
    cases List.prefix_nil.mp inside
    cases prior.nil_inv
    exact done
  | snoc before orderly taken ih =>
    rcases List.prefix_concat_iff.mp inside with rfl | shorter
    · cases prior.deterministic (before.runs.snoc taken)
      exact done
    · exact done_step (kept_run settled before) orderly taken (ih shorter)

theorem task_requests_linear (settled : Settled origin) (path : RunsWhere watch Orderly (start origin) actions final) :
    (∀ k row, final.system.store.tasks.lookup k = some row →
      (∀ n entry, (final.system.threads n).owes = some entry → entry.taskId ≠ k) →
      Walk row.requiresHumanReview .todo (logOf final.system.store k) row.status) ∧
    (∀ earlier between k, earlier <+: actions → Runs watch (start origin) earlier between →
      between.system.store.isDone k → final.system.store.isDone k) ∧
    ((∀ n, (final.system.threads n).Finished) → ∀ k, ¬Waiting final.system.store k) := by
  have kept := kept_run settled path
  refine ⟨fun k row found free => ?_,fun earlier between k inside prior done => done_run settled path inside prior done,
    fun finished k waiting => ?_⟩
  · have walked := kept.walks k row found
    have nothing : owedFor final.pending k = [] :=
      owedFor_other fun owed member => free owed.1 owed.2 ((kept.owed owed.1 owed.2).mp member)
    rwa [nothing,List.append_nil] at walked
  · obtain ⟨n,visits⟩ := kept.visited k waiting
    exact finished_visits (finished n) visits

def towerProject : Store where
  projects := ["torre"]
  members := (AList.singleton ("torre","ana") "owner").insert ("torre","bo") "member"
  templates := ∅
  tasks := ∅
  dependencies := []
  handoffs := []

def answered (n : Nat) (calls : Nat) : List (Nat × Input) := List.replicate calls (n,.answer "plan")

-- A task is created, started and submitted; two members read it in review.
def reviewed : List (Nat × Input) :=
  (0,.arrive (.create "ana" "torre" { title := "Plan" })) :: answered 0 3 ++
  (1,.arrive (.transition "ana" "plan" "start")) :: answered 1 6 ++
  (2,.arrive (.transition "ana" "plan" "submit")) :: answered 2 5 ++
  (3,.arrive (.transition "ana" "plan" "approve")) :: answered 3 2 ++
  (4,.arrive (.transition "bo" "plan" "reject")) :: answered 4 2

-- One approves the task and the other rejects it: it was done, and is rejected.
theorem approved_then_rejected : ∃ between final, exec watch (start towerProject) (reviewed ++ answered 3 4) = some between ∧
    exec watch between (answered 4 3) = some final ∧ between.system.store.isDone "plan" ∧ ¬final.system.store.isDone "plan" ∧
    (logOf final.system.store "plan").map (fun entry => (entry.fromStatus,entry.toStatus)) =
      [(some "todo","in_progress"),(some "in_progress","in_review"),(some "in_review","done"),(some "in_review","rejected")] := by
  refine ⟨_,_,rfl,rfl,⟨_,rfl,rfl⟩,?_,rfl⟩
  rintro ⟨row,found,done⟩
  cases found
  cases done

-- A call that neither sets a status nor logs is never out of order.
theorem orderly_plain (expects : (w.system.threads action.1).expects = none) (owes : (w.system.threads action.1).owes = none) :
    Orderly w action := by
  refine ⟨fun id was row reads => ?_,fun task blocking => ?_,fun entry owed => ?_⟩
  · cases expects.symm.trans reads
  · rw [blocking] at expects
    cases expects
  · cases owes.symm.trans owed

def started : List (Nat × Input) :=
  (0,.arrive (.create "ana" "torre" { title := "Plan" })) :: answered 0 3 ++
  (1,.arrive (.transition "ana" "plan" "start")) :: answered 1 6

theorem started_orderly : ∃ final, RunsWhere watch Orderly (start towerProject) started final ∧
    (∀ n entry, (final.system.threads n).owes = some entry → entry.taskId ≠ "plan") ∧
    ∃ row, final.system.store.tasks.lookup "plan" = some row ∧ row.requiresHumanReview = true ∧ row.status = .inProgress := by
  let plain := @orderly_plain
  refine ⟨_,.cons (plain rfl rfl) rfl <| .cons (plain rfl rfl) rfl <| .cons (plain rfl rfl) rfl <| .cons (plain rfl rfl) rfl <|
    .cons (plain rfl rfl) rfl <| .cons (plain rfl rfl) rfl <| .cons (plain rfl rfl) rfl <| .cons (plain rfl rfl) rfl <|
    .cons ⟨?sets,?free,?silent⟩ rfl <| .cons ⟨?reads,?logging,?logs⟩ rfl <| .cons (plain rfl rfl) rfl .nil,?done,_,rfl,rfl,rfl⟩
  case sets =>
    intro id was row expects found
    cases expects
    cases found
    rfl
  case free =>
    intro task blocking
    cases blocking
  case silent =>
    intro entry owes
    cases owes
  case reads =>
    intro id was row expects
    cases expects
  case logging =>
    intro task blocking
    cases blocking
  case logs =>
    intro entry owes
    cases owes
    rfl
  case done =>
    intro n entry owes
    rcases n with _ | _ | n
    · cases owes
    · cases owes
    · cases owes

theorem started_linear : ∃ final, RunsWhere watch Orderly (start towerProject) started final ∧
    Walk true .todo (logOf final.system.store "plan") .inProgress := by
  obtain ⟨final,path,free,row,found,review,status⟩ := started_orderly
  have walked := (task_requests_linear (blank_settled ⟨rfl,rfl⟩ rfl) path).1 "plan" row found free
  rw [review,status] at walked
  exact ⟨final,path,walked⟩

end Runs

end AlineaCopilot.ProjectTaskRequests
