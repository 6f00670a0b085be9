import AlineaCopilot.CronService
import AlineaCopilot.TransitionRuns

open AlineaCopilot.KeyedMaps AlineaCopilot.TransitionRuns AlineaCopilot.CronJobs

namespace AlineaCopilot.CronService

section Agreement

-- The scheduler holds the retry timer of the job.
def RetryPending (w : World) (id : String) : Prop := ∃ timer, w.handles.lookup id = some timer ∧ timer.retry = true

structure Agrees (w : World) (id : String) : Prop where
  held : (∃ timer, w.handles.lookup id = some timer) ↔
    ∃ job, w.rows.lookup id = some job ∧ job.enabled = true ∧ (job.nextRunAt.isSome = true ∨ RetryPending w id)
  fires : ∀ timer, w.handles.lookup id = some timer → timer.retry = true ∨
    ∃ job, w.rows.lookup id = some job ∧ timer.schedule = job.schedule ∧ job.nextRunAt = some timer.runAt

def Timer.plan (timer : Timer) : CronSchedule × Int := (timer.schedule,timer.runAt)

-- A timer that is the one its row asks for, or a retry of a job that is on.
def Settled (row : Option CronJob) (timer : Option Timer) : Prop :=
  timer.map Timer.plan = row.bind CronJob.plan ∨
    ∃ held job, timer = some held ∧ held.retry = true ∧ row = some job ∧ job.enabled = true

theorem plan_some {job : CronJob} (asks : job.plan = some plan) :
    job.enabled = true ∧ job.schedule = plan.1 ∧ job.nextRunAt = some plan.2 := by
  unfold CronJob.plan at asks
  split at asks
  · rename_i enabled
    obtain ⟨next,there,rfl⟩ := Option.map_eq_some_iff.mp asks
    exact ⟨enabled,rfl,there⟩
  · cases asks

theorem Settled.agrees {w : World} {id : String} (settled : Settled (w.rows.lookup id) (w.handles.lookup id)) : Agrees w id := by
  rcases settled with same | ⟨timer,job,held,retry,row,enabled⟩
  · constructor
    · constructor
      · rintro ⟨timer,held⟩
        rw [held,Option.map_some] at same
        obtain ⟨job,row,asks⟩ := Option.bind_eq_some_iff.mp same.symm
        obtain ⟨enabled,-,next⟩ := plan_some asks
        exact ⟨job,row,enabled,.inl (by simp [next])⟩
      · rintro ⟨job,row,enabled,next | ⟨timer,held,-⟩⟩
        · obtain ⟨instant,there⟩ := Option.isSome_iff_exists.mp next
          have asks : job.plan = some (job.schedule,instant) := by simp [CronJob.plan,enabled,there]
          rw [row,Option.bind_some,asks] at same
          obtain ⟨timer,held,-⟩ := Option.map_eq_some_iff.mp same
          exact ⟨timer,held⟩
        · exact ⟨timer,held⟩
    · intro timer held
      rw [held,Option.map_some] at same
      obtain ⟨job,row,asks⟩ := Option.bind_eq_some_iff.mp same.symm
      obtain ⟨-,schedule,next⟩ := plan_some asks
      exact .inr ⟨job,row,schedule.symm,next⟩
  · refine ⟨⟨fun _ => ⟨job,row,enabled,.inr ⟨timer,held,retry⟩⟩,fun _ => ⟨timer,held⟩⟩,fun other there => .inl ?_⟩
    cases held.symm.trans there
    exact retry

theorem settled_none {timer : Option Timer} : Settled none timer ↔ timer = none := by
  constructor
  · rintro (same | ⟨_,_,-,-,row,-⟩)
    · exact Option.map_eq_none_iff.mp same
    · cases row
  · rintro rfl
    exact .inl rfl

end Agreement

section Conditions

def Rest.jobs (rest : Rest) : List String := rest.elim [] fun rest => rest.2.map (·.id)

-- A call that is sure to come to the job's timer, or to its deletion.
def Op.Owes (id : String) : Op → Prop
  | .installing job rest => job.id = id ∨ id ∈ Rest.jobs rest
  | .cancelling other rest => other = id ∨ id ∈ Rest.jobs rest
  | .removing other | .retrying other => other = id
  | .cascading _ ids | .deleting _ ids => id ∈ ids
  | .resuming _ jobs => id ∈ jobs.map (·.id)
  | .missed job _ jobs => job.id = id ∨ id ∈ jobs.map (·.id)
  | .executing job | .rescheduling job _ => job.id = id
  | .handling job timed _ | .recording job timed _ _ _ => timed = true ∧ job.id = id
  | _ => False

-- No other call is going to put the job's timer right.
def Lone (w : World) (n : Nat) (id : String) : Prop := ∀ m, m ≠ n → ¬(w.ops m).Owes id

-- The last call to come to a job's timer does so with a copy that asks for
-- what the row asks for, and deletes a row only once no timer is held for it.
def Current (w : World) : Action → Prop
  | .go n =>
    match w.ops n with
    | .installing job _ => Lone w n job.id → (w.rows.lookup job.id).bind CronJob.plan = job.plan
    | .resuming now (job :: _) =>
      overdue job now = false → Lone w n job.id → (w.rows.lookup job.id).bind CronJob.plan = job.plan
    | .cancelling id _ => Lone w n id → (w.rows.lookup id).bind CronJob.plan = none
    | .retrying id => Lone w n id → ∃ job, w.rows.lookup id = some job ∧ job.enabled = true
    | .removing id => Lone w n id → w.handles.lookup id = none
    | .missed job _ _ =>
      job.schedule.isAt = false → w.rows.lookup job.id = none → Lone w n job.id → w.handles.lookup job.id = none
    | .deleting conversation ids => ∀ id, Lone w n id →
      match w.rows.lookup id with
      | none => id ∈ ids → w.handles.lookup id = none
      | some job =>
        if job.conversationId = conversation then w.handles.lookup id = none
        else id ∈ ids → Settled (some job) (w.handles.lookup id)
    | _ => True
  | _ => True

def Kept (w : World) : Prop := ∀ id, Settled (w.rows.lookup id) (w.handles.lookup id) ∨ ∃ n, (w.ops n).Owes id

-- What a step of one call does to the timers: for each job the call goes on
-- owing, or leaves things as they are, or puts them right.
theorem Kept.moves (kept : Kept w) {next : World} {n : Nat} {op : Op} (ops : next.ops = Function.update w.ops n op)
    (each : ∀ id, op.Owes id ∨
      (¬(w.ops n).Owes id ∧ (Settled (w.rows.lookup id) (w.handles.lookup id) →
        Settled (next.rows.lookup id) (next.handles.lookup id))) ∨
      (Lone w n id → Settled (next.rows.lookup id) (next.handles.lookup id))) : Kept next := by
  have others : ∀ m, m ≠ n → next.ops m = w.ops m := by
    intro m other
    rw [ops,Function.update_of_ne other]
  intro id
  rcases each id with owes | ⟨free,stays⟩ | final
  · exact .inr ⟨n,by rw [ops,Function.update_self]; exact owes⟩
  · rcases kept id with settled | ⟨m,owes⟩
    · exact .inl (stays settled)
    · have other : m ≠ n := by
        rintro rfl
        exact free owes
      exact .inr ⟨m,by rw [others m other]; exact owes⟩
  · by_cases lone : Lone w n id
    · exact .inl (final lone)
    · simp only [Lone,not_forall,not_not] at lone
      obtain ⟨m,other,owes⟩ := lone
      exact .inr ⟨m,by rw [others m other]; exact owes⟩

end Conditions

section Steps

-- The call turns to something else, and no row and no timer with it.
theorem Kept.turns (kept : Kept w) {next : World} {n : Nat} {op : Op} (ops : next.ops = Function.update w.ops n op)
    (rows : next.rows = w.rows) (handles : next.handles = w.handles) (owes : ∀ id, (w.ops n).Owes id → op.Owes id) :
    Kept next := by
  refine kept.moves ops fun id => ?_
  by_cases owed : (w.ops n).Owes id
  · exact .inl (owes id owed)
  · exact .inr (.inl ⟨owed,fun settled => by rwa [rows,handles]⟩)

theorem Kept.touches (kept : Kept w) (op : Op) (id : String) {next : World} {n : Nat}
    (ops : next.ops = Function.update w.ops n op) (owes : op.Owes id)
    (others : ∀ other, other ≠ id → next.rows.lookup other = w.rows.lookup other ∧ next.handles.lookup other = w.handles.lookup other)
    (keeps : ∀ other, other ≠ id → (w.ops n).Owes other → op.Owes other) : Kept next := by
  refine kept.moves ops fun other => ?_
  by_cases same : other = id
  · exact .inl (same ▸ owes)
  · by_cases owed : (w.ops n).Owes other
    · exact .inl (keeps other same owed)
    · refine .inr (.inl ⟨owed,fun settled => ?_⟩)
      rwa [(others other same).1,(others other same).2]

theorem Kept.settles (kept : Kept w) (op : Op) (id : String) {next : World} {n : Nat}
    (ops : next.ops = Function.update w.ops n op) (final : Lone w n id → Settled (next.rows.lookup id) (next.handles.lookup id))
    (others : ∀ other, other ≠ id → next.rows.lookup other = w.rows.lookup other ∧ next.handles.lookup other = w.handles.lookup other)
    (keeps : ∀ other, other ≠ id → (w.ops n).Owes other → op.Owes other) : Kept next := by
  refine kept.moves ops fun other => ?_
  by_cases same : other = id
  · subst same
    exact .inr (.inr final)
  · by_cases owed : (w.ops n).Owes other
    · exact .inl (keeps other same owed)
    · refine .inr (.inl ⟨owed,fun settled => ?_⟩)
      rwa [(others other same).1,(others other same).2]

theorem tries_lookup (w : World) (id : String) (params : UpdateCronJobParams) (other : String) :
    (w.tries id params).rows.lookup other =
      if other = id then (w.rows.lookup id).map (·.apply params) else w.rows.lookup other := by
  unfold World.tries
  split
  · rename_i updated
    exact updateRow_lookup updated other
  · rename_i failed
    split
    · rename_i same
      rw [same,updateRow_error failed]
      rfl
    · rfl

@[simp] theorem tries_handles (w : World) (id : String) (params : UpdateCronJobParams) :
    (w.tries id params).handles = w.handles := by
  unfold World.tries
  split <;> rfl

@[simp] theorem tries_ops (w : World) (id : String) (params : UpdateCronJobParams) : (w.tries id params).ops = w.ops := by
  unfold World.tries
  split <;> rfl

-- The columns a result is recorded in have no say in when the job runs.
def Quiet (params : UpdateCronJobParams) : Prop :=
  params.enabled = none ∧ params.schedule = none ∧ params.nextRunAt = none

theorem Settled.quiet {row : Option CronJob} {timer : Option Timer} {params : UpdateCronJobParams}
    (settled : Settled row timer) (quiet : Quiet params) : Settled (row.map (·.apply params)) timer := by
  obtain ⟨enabled,schedule,next⟩ := quiet
  rcases settled with same | ⟨held,job,there,retry,rfl,on⟩
  · refine .inl (same.trans ?_)
    cases row with
    | none => rfl
    | some job => exact (job.plan_apply enabled schedule next).symm
  · refine .inr ⟨held,_,there,retry,rfl,?_⟩
    simpa [CronJob.apply,enabled] using on

theorem Kept.records (kept : Kept w) (n : Nat) (op : Op) (id : String) (params : UpdateCronJobParams) {next : World}
    (ops : next.ops = Function.update w.ops n op) (rows : next.rows = (w.tries id params).rows)
    (handles : next.handles = w.handles) (quiet : Quiet params) (owes : ∀ other, (w.ops n).Owes other → op.Owes other) :
    Kept next := by
  refine kept.moves ops fun other => ?_
  by_cases owed : (w.ops n).Owes other
  · exact .inl (owes other owed)
  · refine .inr (.inl ⟨owed,fun settled => ?_⟩)
    rw [rows,handles,tries_lookup]
    split
    · rename_i same
      subst same
      exact settled.quiet quiet
    · exact settled

-- What `schedule_job` leaves behind for a job that is the row's own.
theorem settled_scheduleJob {w : World} {job : CronJob} (current : (w.rows.lookup job.id).bind CronJob.plan = job.plan) :
    Settled (w.rows.lookup job.id) ((scheduleJob w.handles job false).lookup job.id) := by
  refine .inl ?_
  rw [current,lookup_scheduleJob,if_pos rfl]
  cases job.plan <;> rfl

theorem record_quiet (existing : CronJob) (now : Int) (ended : Except String String) : Quiet (recordParams existing now ended) := by
  cases ended <;> exact ⟨rfl,rfl,rfl⟩

theorem after_owes {rest : Rest} {id : String} : (Op.after rest).Owes id ↔ id ∈ Rest.jobs rest := by
  cases rest with
  | none => simp [Op.after,Op.Owes,Rest.jobs]
  | some rest => rfl

theorem recorded_owes {job : CronJob} {timed : Bool} {result : ExecutionResult} {id : String} :
    (Op.recorded job timed result).Owes id ↔ timed = true ∧ job.id = id := by
  cases timed <;> simp [Op.recorded,Op.Owes]

theorem lookup_cascade (ids : List String) (handles : Handles) (id : String) :
    (ids.foldl (fun handles id => handles.erase id) handles).lookup id = if id ∈ ids then none else handles.lookup id := by
  induction ids generalizing handles with
  | nil => simp
  | cons first ids ih =>
    rw [List.foldl_cons,ih,lookup_erase_eq]
    by_cases later : id ∈ ids <;> simp [later]

-- An update goes on to the scheduler once it has written.
theorem Kept.go_writing (kept : Kept w) {calendar : Calendar} {n : Nat} {job : CronJob} {req : UpdateCronJobRequest}
    (op : w.ops n = .writing job req) (enabled : go calendar w n = some next) : Kept next := by
  unfold go at enabled
  simp only [op] at enabled
  split at enabled
  · cases enabled
    exact kept.turns rfl rfl rfl (by rw [op]; exact fun _ => False.elim)
  · rename_i rows updated
    cases enabled
    refine kept.touches _ job.id rfl (.inl rfl) (fun other apart => ⟨?_,rfl⟩) (by rw [op]; exact fun _ _ => False.elim)
    exact (updateRow_lookup updated other).trans (if_neg apart)

theorem Kept.go_deleting (kept : Kept w) {calendar : Calendar} {n : Nat} {conversation : String} {ids : List String}
    (op : w.ops n = .deleting conversation ids) (current : Current w (.go n)) (enabled : go calendar w n = some next) :
    Kept next := by
  unfold Current at current
  simp only [op] at current
  unfold go at enabled
  simp only [op] at enabled
  cases enabled
  refine kept.moves rfl fun id => ?_
  have after : ((deleteByConversation w.rows conversation).lookup id) =
      (w.rows.lookup id).filter fun job => !decide (job.conversationId = conversation) := lookup_keep ..
  change _ ∨ _ ∨ (Lone w n id → Settled ((deleteByConversation w.rows conversation).lookup id) (w.handles.lookup id))
  by_cases listed : id ∈ ids
  · refine .inr (.inr fun lone => ?_)
    have right := current id lone
    rw [after]
    split at right
    · rename_i gone
      rw [gone]
      exact settled_none.mpr (right listed)
    · rename_i job there
      rw [there]
      split at right
      · rename_i inside
        rw [Option.filter_some,if_neg (by simpa using inside)]
        exact settled_none.mpr right
      · rename_i outside
        rw [Option.filter_some,if_pos (by simpa using outside)]
        exact right listed
  · cases there : w.rows.lookup id with
    | none =>
      refine .inr (.inl ⟨by rw [op]; exact listed,fun settled => ?_⟩)
      change Settled ((deleteByConversation w.rows conversation).lookup id) (w.handles.lookup id)
      rw [after,there]
      exact settled
    | some job =>
      by_cases inside : job.conversationId = conversation
      · refine .inr (.inr fun lone => ?_)
        have right := current id lone
        rw [there] at right
        rw [after,there,Option.filter_some,if_neg (by simpa using inside)]
        exact settled_none.mpr (by simpa only [if_pos inside] using right)
      · refine .inr (.inl ⟨by rw [op]; exact listed,fun settled => ?_⟩)
        change Settled ((deleteByConversation w.rows conversation).lookup id) (w.handles.lookup id)
        rw [after,there,Option.filter_some,if_pos (by simpa using inside)]
        exact settled

-- A resume schedules a job at once, or records it as missed first.
theorem Kept.go_resuming (kept : Kept w) {calendar : Calendar} {n : Nat} {time : Int} {job : CronJob} {jobs : List CronJob}
    (op : w.ops n = .resuming time (job :: jobs)) (current : Current w (.go n)) (enabled : go calendar w n = some next) :
    Kept next := by
  unfold Current at current
  simp only [op] at current
  unfold go at enabled
  simp only [op] at enabled
  have owed : ∀ other, (w.ops n).Owes other ↔ job.id = other ∨ other ∈ jobs.map (·.id) := by
    intro other
    rw [op]
    simp only [Op.Owes,List.map_cons,List.mem_cons]
    exact or_congr_left eq_comm
  split at enabled
  · cases enabled
    refine kept.records n (.missed job time jobs) job.id missedParams ?_ rfl (tries_handles ..) ⟨rfl,rfl,rfl⟩ fun other =>
      (owed other).mp
    simp [World.to,World.logs]
  · rename_i in_time
    cases enabled
    refine kept.settles _ job.id rfl (fun lone => ?_) (fun other apart => ⟨rfl,?_⟩) fun other apart owes => ?_
    · exact settled_scheduleJob (current (Bool.eq_false_iff.mpr in_time) lone)
    · exact (lookup_scheduleJob ..).trans (if_neg apart)
    · rcases (owed other).mp owes with same | later
      · exact absurd same.symm apart
      · exact later

theorem Kept.go_missed (kept : Kept w) {calendar : Calendar} {n : Nat} {time : Int} {job : CronJob} {jobs : List CronJob}
    (op : w.ops n = .missed job time jobs) (current : Current w (.go n)) (enabled : go calendar w n = some next) :
    Kept next := by
  unfold Current at current
  simp only [op] at current
  unfold go at enabled
  simp only [op] at enabled
  have later : ∀ other, other ≠ job.id → (w.ops n).Owes other → other ∈ jobs.map (·.id) := by
    intro other apart owes
    rw [op] at owes
    exact owes.resolve_left fun same => apart same.symm
  split at enabled
  · cases enabled
    refine kept.touches (.cancelling job.id (some (time,jobs))) job.id ?_ (.inl rfl) (fun other apart => ⟨?_,?_⟩)
      fun other apart owes => .inr (later other apart owes)
    · simp [World.to]
    · exact (tries_lookup ..).trans (if_neg apart)
    · simp [World.to]
  · rename_i repeated
    split at enabled
    · rename_i failed
      cases enabled
      have gone := updateRow_error failed
      refine kept.settles _ job.id rfl (fun lone => ?_) (fun _ _ => ⟨rfl,rfl⟩) later
      change Settled (w.rows.lookup job.id) (w.handles.lookup job.id)
      rw [gone]
      exact settled_none.mpr (current (Bool.eq_false_iff.mpr repeated) gone lone)
    · rename_i rows updated
      cases enabled
      refine kept.touches _ job.id rfl (.inl rfl) (fun other apart => ⟨?_,rfl⟩) fun other apart owes => .inr (later other apart owes)
      exact (updateRow_lookup updated other).trans (if_neg apart)

theorem Kept.go_handling (kept : Kept w) {calendar : Calendar} {n : Nat} {job : CronJob} {timed : Bool}
    {result : ExecutionResult} (op : w.ops n = .handling job timed result) (enabled : go calendar w n = some next) : Kept next := by
  have recorded : ∀ result other, (w.ops n).Owes other → (Op.recorded job timed result).Owes other := by
    intro result other owes
    rw [op] at owes
    exact recorded_owes.mpr owes
  have looked : ∀ ended, Kept (w.records n job timed ended) := by
    intro ended
    unfold World.records
    split
    · exact kept.turns rfl rfl rfl (recorded _)
    · exact kept.turns rfl rfl rfl (by rw [op]; exact fun _ owes => owes)
  cases result with
  | success conversationId =>
    unfold go at enabled
    simp only [op] at enabled
    cases enabled
    exact looked _
  | error message =>
    unfold go at enabled
    simp only [op] at enabled
    cases enabled
    exact looked _
  | skipped =>
    unfold go at enabled
    simp only [op] at enabled
    cases enabled
    refine kept.records n (.recorded job timed .skipped) job.id skippedParams ?_ rfl (tries_handles ..) ⟨rfl,rfl,rfl⟩ (recorded _)
    simp [World.to,World.logs]
  | retrying attempt =>
    unfold go at enabled
    simp only [op] at enabled
    cases enabled
    refine kept.records n (if timed then .retrying job.id else .idle) job.id { retryCount := some attempt } ?_ rfl (tries_handles ..)
      ⟨rfl,rfl,rfl⟩ fun other owes => ?_
    · simp [World.to,World.logs]
    · rw [op] at owes
      obtain ⟨rfl,same⟩ := owes
      exact same

-- What is left: each call comes to its own step of `go`.
theorem Kept.go (kept : Kept w) {calendar : Calendar} {n : Nat} (current : Current w (.go n))
    (enabled : go calendar w n = some next) : Kept next := by
  unfold CronService.go at enabled
  cases op : w.ops n with
  | idle | executing _ | runningNow _ =>
    simp [op] at enabled
  | adding id req time =>
    simp only [op] at enabled
    split at enabled
    · cases enabled
    · cases enabled
      refine kept.touches (.installing (newJob calendar id req time) none) id rfl (.inl rfl) (fun other apart => ⟨?_,rfl⟩) (by rw [op]; exact fun _ _ => False.elim)
      exact (lookup_insert_eq ..).trans (if_neg apart)
  | updating id req =>
    simp only [op] at enabled
    have plain : ∀ id, ¬(w.ops n).Owes id := by
      rw [op]
      exact fun _ owes => owes
    split at enabled
    · cases enabled
      exact kept.turns rfl rfl rfl fun other owes => absurd owes (plain other)
    · split at enabled <;> cases enabled <;> exact kept.turns rfl rfl rfl fun other owes => absurd owes (plain other)
  | writing job req => exact kept.go_writing op enabled
  | installing job rest =>
    unfold Current at current
    simp only [op] at current
    simp only [op] at enabled
    cases enabled
    refine kept.settles (.after rest) job.id rfl (fun lone => settled_scheduleJob (current lone)) (fun other apart => ⟨rfl,?_⟩)
      fun other apart owes => ?_
    · exact (lookup_scheduleJob ..).trans (if_neg apart)
    · rw [op] at owes
      exact after_owes.mpr (owes.resolve_left fun same => apart same.symm)
  | cancelling id rest =>
    unfold Current at current
    simp only [op] at current
    simp only [op] at enabled
    cases enabled
    refine kept.settles (.after rest) id rfl (fun lone => .inl ?_) (fun other apart => ⟨rfl,?_⟩) fun other apart owes => ?_
    · change ((w.handles.erase id).lookup id).map Timer.plan = (w.rows.lookup id).bind CronJob.plan
      rw [current lone,lookup_erase_eq,if_pos rfl]
      rfl
    · exact (lookup_erase_eq ..).trans (if_neg apart)
    · rw [op] at owes
      exact after_owes.mpr (owes.resolve_left fun same => apart same.symm)
  | removing id =>
    unfold Current at current
    simp only [op] at current
    simp only [op] at enabled
    have none_left : ∀ other, other ≠ id → (w.ops n).Owes other → Op.Owes other .idle := by
      rw [op]
      exact fun other apart same => apart (Eq.symm same)
    split at enabled
    · rename_i failed
      cases enabled
      refine kept.settles .idle id rfl (fun lone => ?_) (fun _ _ => ⟨rfl,rfl⟩) none_left
      change Settled (w.rows.lookup id) (w.handles.lookup id)
      rw [deleteRow_error failed]
      exact settled_none.mpr (current lone)
    · rename_i rows deleted
      cases enabled
      refine kept.settles .idle id rfl (fun lone => ?_) (fun other apart => ⟨?_,rfl⟩) none_left
      · change Settled (rows.lookup id) (w.handles.lookup id)
        rw [deleteRow_lookup deleted,if_pos rfl]
        exact settled_none.mpr (current lone)
      · exact (deleteRow_lookup deleted other).trans (if_neg apart)
  | listing conversation =>
    simp only [op] at enabled
    cases enabled
    exact kept.turns rfl rfl rfl (by rw [op]; exact fun _ => False.elim)
  | cascading conversation ids =>
    simp only [op] at enabled
    cases enabled
    refine kept.moves rfl fun id => ?_
    by_cases listed : id ∈ ids
    · exact .inl listed
    · refine .inr (.inl ⟨by rw [op]; exact listed,fun settled => ?_⟩)
      change Settled (w.rows.lookup id) ((ids.foldl (fun handles id => handles.erase id) w.handles).lookup id)
      rwa [lookup_cascade,if_neg listed]
  | deleting conversation ids => exact kept.go_deleting op current enabled
  | resumed =>
    simp only [op] at enabled
    cases enabled
    exact kept.turns rfl rfl rfl (by rw [op]; exact fun _ => False.elim)
  | resuming time jobs =>
    cases jobs with
    | nil =>
      simp only [op] at enabled
      cases enabled
      exact kept.turns rfl rfl rfl (by rw [op]; exact fun _ listed => absurd listed List.not_mem_nil)
    | cons job jobs => exact kept.go_resuming op current enabled
  | missed job time jobs => exact kept.go_missed op current enabled
  | ticking id =>
    simp only [op] at enabled
    split at enabled <;> cases enabled <;> exact kept.turns rfl rfl rfl (by rw [op]; exact fun _ => False.elim)
  | startingNow id =>
    simp only [op] at enabled
    split at enabled <;> cases enabled <;> exact kept.turns rfl rfl rfl (by rw [op]; exact fun _ => False.elim)
  | handling job timed result => exact kept.go_handling op enabled
  | recording job timed ended existing time =>
    simp only [op] at enabled
    cases enabled
    refine kept.records n (.recorded job timed (.of ended)) job.id (recordParams existing time ended) ?_ rfl (tries_handles ..)
      (record_quiet ..) fun other owes => ?_
    · simp [World.to,World.logs]
    · rw [op] at owes
      exact recorded_owes.mpr owes
  | rescheduling job result =>
    simp only [op] at enabled
    have mine : ∀ other, other ≠ job.id → ¬(w.ops n).Owes other := by
      rw [op]
      exact fun other apart same => apart (Eq.symm same)
    split at enabled
    · cases enabled
      refine kept.touches (.cancelling job.id none) job.id ?_ (.inl rfl) (fun other apart => ⟨?_,?_⟩)
        fun other apart owes => absurd owes (mine other apart)
      · simp [World.to]
      · exact (tries_lookup ..).trans (if_neg apart)
      · simp [World.to]
    · cases enabled
      refine kept.touches (.installing { job with nextRunAt := computeNextRun calendar job.schedule w.now } none) job.id ?_ (.inl rfl)
        (fun other apart => ⟨?_,?_⟩) fun other apart owes => absurd owes (mine other apart)
      · simp [World.to]
      · exact (tries_lookup ..).trans (if_neg apart)
      · simp [World.to]
  | retrying id =>
    unfold Current at current
    simp only [op] at current
    simp only [op] at enabled
    cases enabled
    refine kept.settles .idle id rfl (fun lone => ?_) (fun other apart => ⟨rfl,?_⟩) (by
      rw [op]
      exact fun other apart same => apart (Eq.symm same))
    · obtain ⟨job,there,on⟩ := current lone
      refine .inr ⟨_,job,(lookup_scheduleJob ..).trans (if_pos rfl),rfl,there,on⟩
    · exact (lookup_scheduleJob ..).trans (if_neg apart)

theorem Settled.fired {row : Option CronJob} {timer : Timer} {calendar : Calendar} {now due : Int}
    (settled : Settled row (some timer)) : Settled row (some (timer.next calendar now due)) := by
  rcases settled with same | ⟨held,job,there,retry,rest⟩
  · exact .inl same
  · cases there
    exact .inr ⟨_,job,rfl,retry,rest⟩

theorem Kept.step (kept : Kept w) {calendar : Calendar} {action : Action} (current : Current w action)
    (enabled : step calendar w action = some next) : Kept next := by
  -- A call begins where none is in progress.
  have begins : ∀ {n op}, w.ops n = .idle → Kept (w.to n op) := by
    intro n op free
    exact kept.turns rfl rfl rfl (by rw [free]; exact fun _ => False.elim)
  cases action with
  | addJob n id req =>
    unfold CronService.step at enabled
    dsimp only at enabled
    split at enabled
    · rename_i free
      split at enabled
      · cases enabled
      · cases enabled
        exact begins free
    · cases enabled
  | updateJob n id req =>
    obtain ⟨free,⟨⟩⟩ := Option.ite_none_right_eq_some.mp enabled
    exact begins free
  | deleteJobsByConversation n conversation =>
    obtain ⟨free,⟨⟩⟩ := Option.ite_none_right_eq_some.mp enabled
    exact begins free
  | handleSystemResume n =>
    obtain ⟨free,⟨⟩⟩ := Option.ite_none_right_eq_some.mp enabled
    exact begins free
  | runNow n id =>
    obtain ⟨free,⟨⟩⟩ := Option.ite_none_right_eq_some.mp enabled
    exact begins free
  | removeJob n id =>
    obtain ⟨free,⟨⟩⟩ := Option.ite_none_right_eq_some.mp enabled
    refine kept.touches (.removing id) id rfl rfl (fun other apart => ⟨rfl,?_⟩) (by rw [free]; exact fun _ _ => False.elim)
    exact (lookup_erase_eq ..).trans (if_neg apart)
  | fire n id =>
    unfold CronService.step at enabled
    dsimp only at enabled
    split at enabled
    · rename_i free
      split at enabled
      · cases enabled
      · rename_i timer held
        split at enabled
        · cases enabled
        · split at enabled
          · cases enabled
            refine kept.moves rfl fun other => .inr (.inl ⟨by rw [free]; exact False.elim,fun settled => ?_⟩)
            change Settled (w.rows.lookup other) ((w.handles.insert id _).lookup other)
            rw [lookup_insert_eq]
            split
            · rename_i same
              rw [same,held] at settled
              exact same ▸ settled.fired
            · exact settled
          · cases enabled
    · cases enabled
  | executed n outcome =>
    unfold CronService.step execute at enabled
    dsimp only at enabled
    split at enabled
    · rename_i job executing
      split at enabled <;> cases enabled <;>
        exact kept.turns rfl rfl rfl (by rw [executing]; exact fun _ same => ⟨rfl,same⟩)
    · rename_i job running
      split at enabled <;> cases enabled <;> exact kept.turns rfl rfl rfl (by rw [running]; exact fun _ => False.elim)
    · cases enabled
  | refuse n =>
    unfold CronService.step at enabled
    dsimp only at enabled
    split at enabled
    · rename_i refused
      cases enabled
      exact kept.turns rfl rfl rfl (by rw [refused]; exact fun _ => False.elim)
    · rename_i refused
      cases enabled
      exact kept.turns rfl rfl rfl (by rw [refused]; exact fun _ => False.elim)
    · rename_i refused
      cases enabled
      exact kept.turns rfl rfl rfl (by rw [refused]; exact fun _ => False.elim)
    · cases enabled
  | go n => exact kept.go current enabled
  | wait ms =>
    cases enabled
    exact kept

end Steps

section Results

section Examples

-- The prompt is out: the result is recorded and the job scheduled again.
def finished : List Action := [.executed 1 (.sent "conv_1"),.go 1,.go 1,.go 1,.go 1]

end Examples

end Results

end AlineaCopilot.CronService
