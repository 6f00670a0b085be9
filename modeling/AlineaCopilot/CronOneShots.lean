import AlineaCopilot.CronTimers

open AlineaCopilot.KeyedMaps AlineaCopilot.TransitionRuns AlineaCopilot.CronJobs

namespace AlineaCopilot.CronService

section Counts

-- The job is created, switched on, or given a schedule.
def Event.arms (id : String) : Event → Bool
  | .created other => decide (other = id)
  | .updated other params => decide (other = id) && (decide (params.enabled = some true) || params.schedule.isSome)
  | _ => false

-- A timer's tick has sent the prompt of the job as a one-shot job.
def Event.fires (id : String) : Event → Bool
  | .sent job timed => timed && job.schedule.isAt && decide (job.id = id)
  | _ => false

def armings (w : World) (id : String) : Nat := w.events.countP (Event.arms id)
def sendings (w : World) (id : String) : Nat := w.events.countP (Event.fires id)

-- Whether the one-shot job's prompt has gone out since it was last created or
-- an edit of its switch or its schedule was written.
def Event.out (id : String) (before : Bool) : Event → Bool
  | .created other => if other = id then false else before
  | .updated other params => if other = id && (params.enabled.isSome || params.schedule.isSome) then false else before
  | .sent job timed => if timed && job.schedule.isAt && decide (job.id = id) then true else before
  | _ => before

def out (w : World) (id : String) : Bool := w.events.foldl (Event.out id) false

-- How many results of the job in a row, up to the last one, are `Retrying`.
def Event.streak (id : String) (before : Nat) : Event → Nat
  | .created other | .missed other => if other = id then 0 else before
  | .handled other (.retrying _) => if other = id then before + 1 else before
  | .handled other _ => if other = id then 0 else before
  | _ => before

def streak (w : World) (id : String) : Nat := w.events.foldl (Event.streak id) 0

end Counts

section Copies

-- The copies of rows that a call has loaded and goes on with.
def Op.Holds (job : CronJob) : Op → Prop
  | .executing held | .runningNow held | .handling held _ _ | .recording held _ _ _ _ | .rescheduling held _ => held = job
  | .missed held _ jobs => held = job ∨ job ∈ jobs
  | .resuming _ jobs => job ∈ jobs
  | .installing _ rest | .cancelling _ rest => ∃ time jobs, rest = some (time,jobs) ∧ job ∈ jobs
  | _ => False

def ExecutionResult.Went (result : ExecutionResult) (job : CronJob) (id : String) : Prop :=
  (∃ conversationId, result = .success conversationId) ∧ job.schedule.isAt = true ∧ job.id = id

-- A tick has sent a one-shot job's prompt, and has not switched the job off.
def Op.Spent (id : String) : Op → Prop
  | .handling job timed result => timed = true ∧ result.Went job id
  | .recording job timed ended _ _ => timed = true ∧ (ExecutionResult.of ended).Went job id
  | .rescheduling job result => result.Went job id
  | _ => False

def Unheld (w : World) (n : Nat) (id : String) : Prop := ∀ m, m ≠ n → ∀ job, (w.ops m).Holds job → job.id ≠ id

-- A one-shot job's prompt goes out while its row is on and no other tick has
-- sent it without switching the job off; a retry is counted while the row's
-- own count is not past the copy's. An edit of the switch or the schedule
-- comes while no other call has a copy of the job, and a new job's id is new.
def Single (w : World) : Action → Prop
  | .executed n (.sent _) =>
    match w.ops n with
    | .executing job => job.schedule.isAt = true →
      (∃ row, w.rows.lookup job.id = some row ∧ row.enabled = true) ∧ ∀ m, ¬(w.ops m).Spent job.id
    | _ => True
  | .go n =>
    match w.ops n with
    | .handling job _ (.retrying _) => ∀ row, w.rows.lookup job.id = some row → row.retryCount ≤ job.retryCount
    | .writing job req => (req.enabled.isSome || req.schedule.isSome) = true → Unheld w n job.id
    | .adding id _ _ => Unheld w n id
    | _ => True
  | _ => True

end Copies

section Effects

-- What a step that meets the conditions may do, as far as the rows and the log go.
inductive Effect (calendar : Calendar) (w : World) (n : Nat) (next : World) : Prop where
  | turns (op : Op) (ops : next.ops = Function.update w.ops n op) (rows : next.rows = w.rows) (events : next.events = w.events)
      (holds : ∀ job, op.Holds job → (w.ops n).Holds job ∨ ∃ id, w.rows.lookup id = some job)
      (spent : ∀ id, op.Spent id ↔ (w.ops n).Spent id)
      (busy : ∀ job timed attempt, op = .handling job timed (.retrying attempt) →
        attempt = job.retryCount + 1 ∧ job.retryCount < job.maxRetries)
  | inserts (id : String) (req : CreateCronJobRequest) (time : Int) (was : w.ops n = .adding id req time)
      (fresh : w.rows.lookup id = none) (unheld : Unheld w n id)
      (ops : next.ops = Function.update w.ops n (.installing (newJob calendar id req time) none))
      (rows : next.rows = w.rows.insert id (newJob calendar id req time)) (events : next.events = w.events ++ [.created id])
  | edits (job : CronJob) (req : UpdateCronJobRequest) (was : w.ops n = .writing job req)
      (unheld : (req.enabled.isSome || req.schedule.isSome) = true → Unheld w n job.id)
      (ops : next.ops = Function.update w.ops n (.installing job none))
      (rows : ∀ other, next.rows.lookup other =
        if other = job.id then (w.rows.lookup job.id).map (·.apply (buildUpdateParams job req)) else w.rows.lookup other)
      (events : next.events = w.events ++ [.updated job.id (buildUpdateParams job req)])
  -- The end of a one-shot job, and the next instant of one that is repeated.
  | reschedules (job : CronJob) (op : Op) (params : UpdateCronJobParams) (held : (w.ops n).Holds job)
      (ops : next.ops = Function.update w.ops n op)
      (holds : ∀ other, op.Holds other → (w.ops n).Holds other) (unspent : ∀ id, ¬op.Spent id)
      (spent : ∀ id, (w.ops n).Spent id → job.schedule.isAt = true ∧ job.id = id)
      (idle : ∀ job timed result, op ≠ .handling job timed result)
      (kind : if job.schedule.isAt then params = disabled else ∃ instant, params = { nextRunAt := some instant })
      (rows : next.rows = (w.tries job.id params).rows) (events : next.events = w.events)
  | records (job : CronJob) (op : Op) (params : UpdateCronJobParams) (event : Event)
      (ops : next.ops = Function.update w.ops n op)
      (holds : ∀ other, op.Holds other → (w.ops n).Holds other) (spent : ∀ id, op.Spent id ↔ (w.ops n).Spent id)
      (idle : ∀ job timed result, op ≠ .handling job timed result) (quiet : Quiet params)
      (kind : (event = .missed job.id ∨ event = .handled job.id .skipped ∨ ∃ ended, event = .handled job.id (.of ended)) ∧
          params.retryCount = some 0 ∨
        ∃ timed attempt, w.ops n = .handling job timed (.retrying attempt) ∧ event = .handled job.id (.retrying attempt) ∧
          params.retryCount = some attempt ∧ ∀ row, w.rows.lookup job.id = some row → row.retryCount ≤ job.retryCount)
      (rows : next.rows = (w.tries job.id params).rows) (events : next.events = w.events ++ [event])
  | deletes (ops : next.ops = Function.update w.ops n .idle) (unspent : ∀ id, ¬(w.ops n).Spent id)
      (rows : ∀ id, next.rows.lookup id = w.rows.lookup id ∨ next.rows.lookup id = none) (events : next.events = w.events)
  | sends (job : CronJob) (timed : Bool) (conversation : String)
      (was : w.ops n = if timed then .executing job else .runningNow job)
      (ops : next.ops = Function.update w.ops n (.handling job timed (.success conversation)))
      (first : timed = true → job.schedule.isAt = true →
        (∃ row, w.rows.lookup job.id = some row ∧ row.enabled = true) ∧ ∀ m, ¬(w.ops m).Spent job.id)
      (rows : next.rows = w.rows) (events : next.events = w.events ++ [.sent job timed])

@[simp] theorem tries_events (w : World) (id : String) (params : UpdateCronJobParams) :
    (w.tries id params).events = w.events := by
  unfold World.tries
  split <;> rfl

theorem recorded_spent {job : CronJob} {timed : Bool} {result : ExecutionResult} {id : String} :
    (Op.recorded job timed result).Spent id ↔ timed = true ∧ result.Went job id := by
  cases timed <;> simp [Op.recorded,Op.Spent]

theorem recorded_holds {job held : CronJob} {timed : Bool} {result : ExecutionResult}
    (holds : (Op.recorded job timed result).Holds held) : job = held := by
  cases timed with
  | true => exact holds
  | false => exact holds.elim

theorem after_holds {rest : Rest} {job : CronJob} (holds : (Op.after rest).Holds job) :
    ∃ time jobs, rest = some (time,jobs) ∧ job ∈ jobs := by
  cases rest with
  | none => exact holds.elim
  | some rest => exact ⟨_,_,rfl,holds⟩

theorem after_unspent {rest : Rest} {id : String} : ¬(Op.after rest).Spent id := by
  cases rest with
  | none => exact False.elim
  | some rest => exact False.elim

-- A call that turns to another step of its own, with nothing new in hand.
theorem Effect.turned {calendar : Calendar} {w next : World} {n : Nat} (op : Op) (ops : next.ops = Function.update w.ops n op)
    (rows : next.rows = w.rows) (events : next.events = w.events) (holds : ∀ job, op.Holds job → (w.ops n).Holds job)
    (unspent : ∀ id, ¬op.Spent id) (before : ∀ id, ¬(w.ops n).Spent id)
    (idle : ∀ job timed result, op ≠ .handling job timed result) : Effect calendar w n next :=
  .turns op ops rows events (fun job held => .inl (holds job held)) (fun id => iff_of_false (unspent id) (before id))
    fun job timed _ same => absurd same (idle job timed _)

-- The first step after a result: the row is read, or put off, or passed over.
theorem handling_effect {calendar : Calendar} {w next : World} {n : Nat} {job : CronJob} {timed : Bool} {result : ExecutionResult}
    (op : w.ops n = .handling job timed result) (single : Single w (.go n)) (enabled : go calendar w n = some next) :
    Effect calendar w n next := by
  have spent : ∀ id, (w.ops n).Spent id ↔ timed = true ∧ result.Went job id := by
    intro id
    rw [op]
    rfl
  have holds : ∀ held, job = held → (w.ops n).Holds held := by
    intro held same
    rw [op]
    exact same
  have looked : ∀ ended, result = .of ended → Effect calendar w n (w.records n job timed ended) := by
    rintro ended rfl
    unfold World.records
    split
    · refine .turns _ rfl rfl rfl (fun held holding => .inl (holds held (recorded_holds holding)))
        (fun id => recorded_spent.trans (spent id).symm) ?_
      intro _ _ _ same
      cases timed <;> cases same
    · exact .turns _ rfl rfl rfl (fun held holding => .inl (holds held holding)) (fun id => (spent id).symm) (by rintro _ _ _ ⟨⟩)
  cases result with
  | success conversationId =>
    unfold go at enabled
    simp only [op] at enabled
    cases enabled
    exact looked (.ok conversationId) rfl
  | error message =>
    unfold go at enabled
    simp only [op] at enabled
    cases enabled
    exact looked (.error message) rfl
  | skipped =>
    unfold go at enabled
    simp only [op] at enabled
    cases enabled
    refine .records job (.recorded job timed .skipped) skippedParams _ (by simp [World.to,World.logs])
      (fun held holding => holds held (recorded_holds holding)) (fun id => recorded_spent.trans (spent id).symm) ?_ ⟨rfl,rfl,rfl⟩
      (.inl ⟨.inr (.inl rfl),rfl⟩) rfl (by simp [World.to,World.logs])
    intro _ _ _ same
    cases timed <;> cases same
  | retrying attempt =>
    simp only [Single,op] at single
    unfold go at enabled
    simp only [op] at enabled
    cases enabled
    have unspent : ∀ id, ¬(w.ops n).Spent id := by
      intro id
      rw [spent id]
      rintro ⟨-,⟨_,same⟩,-⟩
      cases same
    refine .records job (if timed then .retrying job.id else .idle) { retryCount := some attempt } _ (by simp [World.to,World.logs])
      ?_ (fun id => iff_of_false ?_ (unspent id)) ?_ ⟨rfl,rfl,rfl⟩ (.inr ⟨timed,attempt,op,rfl,rfl,single⟩) rfl
      (by simp [World.to,World.logs])
    · cases timed <;> exact fun _ => False.elim
    · cases timed <;> exact False.elim
    · cases timed <;> rintro _ _ _ ⟨⟩

theorem missed_effect {calendar : Calendar} {w next : World} {n : Nat} {job : CronJob} {time : Int} {jobs : List CronJob}
    (op : w.ops n = .missed job time jobs) (enabled : go calendar w n = some next) : Effect calendar w n next := by
  unfold go at enabled
  simp only [op] at enabled
  have held : ∀ other, other ∈ jobs → (w.ops n).Holds other := by
    intro other listed
    rw [op]
    exact .inr listed
  have mine : (w.ops n).Holds job := by
    rw [op]
    exact .inl rfl
  have unspent : ∀ id, ¬(w.ops n).Spent id := by
    rw [op]
    exact fun _ => False.elim
  have left : ∀ other, (∃ time' jobs', some (time,jobs) = some (time',jobs') ∧ other ∈ jobs') → (w.ops n).Holds other := by
    rintro other ⟨_,_,same,listed⟩
    cases same
    exact held other listed
  split at enabled
  · rename_i once
    cases enabled
    exact .reschedules job (.cancelling job.id (some (time,jobs))) disabled mine (by simp [World.to]) left (fun _ => False.elim)
      (fun id spent => absurd spent (unspent id)) (by rintro _ _ _ ⟨⟩) (by rw [if_pos once]) rfl (by simp [World.to])
  · rename_i repeated
    split at enabled
    · rename_i failed
      cases enabled
      exact .turned (.resuming time jobs) rfl rfl rfl held (fun _ => False.elim) unspent (by rintro _ _ _ ⟨⟩)
    · rename_i rows updated
      cases enabled
      refine .reschedules job (.installing _ (some (time,jobs))) { nextRunAt := some (computeNextRun calendar job.schedule w.now) } mine
        rfl left (fun _ => False.elim) (fun id spent => absurd spent (unspent id)) (by rintro _ _ _ ⟨⟩) ?_ ?_ rfl
      · rw [if_neg repeated]
        exact ⟨_,rfl⟩
      · unfold World.tries
        rw [updated]
        rfl

theorem go_effect {calendar : Calendar} {w next : World} {n : Nat} (single : Single w (.go n))
    (enabled : go calendar w n = some next) : Effect calendar w n next := by
  unfold go at enabled
  cases op : w.ops n with
  | idle | executing _ | runningNow _ =>
    simp [op] at enabled
  | adding id req time =>
    simp only [Single,op] at single
    simp only [op] at enabled
    split at enabled
    · cases enabled
    · rename_i fresh
      cases enabled
      exact .inserts id req time op fresh single rfl rfl rfl
  | updating id req =>
    have plain : ∀ id, ¬(w.ops n).Spent id := by rw [op]; exact fun _ => False.elim
    simp only [op] at enabled
    split at enabled
    · cases enabled
      exact .turned .idle rfl rfl rfl (fun _ => False.elim) (fun _ => False.elim) plain (by rintro _ _ _ ⟨⟩)
    · split at enabled <;> cases enabled
      · exact .turned .idle rfl rfl rfl (fun _ => False.elim) (fun _ => False.elim) plain (by rintro _ _ _ ⟨⟩)
      · exact .turned (.writing _ req) rfl rfl rfl (fun _ => False.elim) (fun _ => False.elim) plain (by rintro _ _ _ ⟨⟩)
  | writing job req =>
    simp only [Single,op] at single
    simp only [op] at enabled
    split at enabled
    · cases enabled
      exact .turned .idle rfl rfl rfl (fun _ => False.elim) (fun _ => False.elim) (by rw [op]; exact fun _ => False.elim) (by rintro _ _ _ ⟨⟩)
    · rename_i rows updated
      cases enabled
      exact .edits job req op single rfl (updateRow_lookup updated) rfl
  | installing job rest =>
    simp only [op] at enabled
    cases enabled
    refine .turned (.after rest) rfl rfl rfl (fun held holds => ?_) (fun _ => after_unspent) (by rw [op]; exact fun _ => False.elim) ?_
    · rw [op]
      exact after_holds holds
    · cases rest <;> rintro _ _ _ ⟨⟩
  | cancelling id rest =>
    simp only [op] at enabled
    cases enabled
    refine .turned (.after rest) rfl rfl rfl (fun held holds => ?_) (fun _ => after_unspent) (by rw [op]; exact fun _ => False.elim) ?_
    · rw [op]
      exact after_holds holds
    · cases rest <;> rintro _ _ _ ⟨⟩
  | removing id =>
    have plain : ∀ id, ¬(w.ops n).Spent id := by rw [op]; exact fun _ => False.elim
    simp only [op] at enabled
    split at enabled
    · cases enabled
      exact .turned .idle rfl rfl rfl (fun _ => False.elim) (fun _ => False.elim) plain (by rintro _ _ _ ⟨⟩)
    · rename_i rows deleted
      cases enabled
      refine .deletes rfl plain (fun other => ?_) rfl
      by_cases same : other = id
      · exact .inr ((deleteRow_lookup deleted other).trans (if_pos same))
      · exact .inl ((deleteRow_lookup deleted other).trans (if_neg same))
  | listing conversation =>
    simp only [op] at enabled
    cases enabled
    exact .turned (.cascading conversation _) rfl rfl rfl (fun _ => False.elim) (fun _ => False.elim) (by rw [op]; exact fun _ => False.elim) (by rintro _ _ _ ⟨⟩)
  | cascading conversation ids =>
    simp only [op] at enabled
    cases enabled
    exact .turned (.deleting conversation ids) rfl rfl rfl (fun _ => False.elim) (fun _ => False.elim) (by rw [op]; exact fun _ => False.elim) (by rintro _ _ _ ⟨⟩)
  | deleting conversation ids =>
    simp only [op] at enabled
    cases enabled
    refine .deletes rfl (by rw [op]; exact fun _ => False.elim) (fun id => ?_) rfl
    change (deleteByConversation w.rows conversation).lookup id = _ ∨ (deleteByConversation w.rows conversation).lookup id = _
    rw [deleteByConversation,lookup_keep]
    cases w.rows.lookup id with
    | none => exact .inl rfl
    | some job =>
      rw [Option.filter_some]
      split
      · exact .inl rfl
      · exact .inr rfl
  | resumed =>
    simp only [op] at enabled
    cases enabled
    refine .turns (.resuming w.now (listEnabled w.rows)) rfl rfl rfl (fun job listed => .inr ?_)
      (fun id => by rw [op]; exact Iff.rfl) (by rintro _ _ _ ⟨⟩)
    exact (mem_values w.rows).mp (List.mem_filter.mp listed).1
  | resuming time jobs =>
    cases jobs with
    | nil =>
      simp only [op] at enabled
      cases enabled
      exact .turned .idle rfl rfl rfl (fun _ => False.elim) (fun _ => False.elim) (by rw [op]; exact fun _ => False.elim) (by rintro _ _ _ ⟨⟩)
    | cons job jobs =>
      simp only [op] at enabled
      split at enabled
      · cases enabled
        refine .records job (.missed job time jobs) missedParams (.missed job.id) (by simp [World.to,World.logs]) (fun held holds => ?_)
          (fun id => by rw [op]; exact Iff.rfl) (by rintro _ _ _ ⟨⟩) ⟨rfl,rfl,rfl⟩ (.inl ⟨.inl rfl,rfl⟩) rfl (by simp [World.to,World.logs])
        rw [op]
        rcases holds with same | listed
        · exact same ▸ List.mem_cons_self
        · exact List.mem_cons_of_mem _ listed
      · cases enabled
        refine .turned (.resuming time jobs) rfl rfl rfl (fun held holds => ?_) (fun _ => False.elim) (by rw [op]; exact fun _ => False.elim) (by rintro _ _ _ ⟨⟩)
        rw [op]
        exact List.mem_cons_of_mem _ holds
  | missed job time jobs => exact missed_effect op enabled
  | ticking id =>
    have plain : ∀ id, ¬(w.ops n).Spent id := by rw [op]; exact fun _ => False.elim
    simp only [op] at enabled
    split at enabled
    · cases enabled
      refine .turned (.cancelling id none) rfl rfl rfl ?_ (fun _ => False.elim) plain (by rintro _ _ _ ⟨⟩)
      rintro job ⟨_,_,same,-⟩
      cases same
    · rename_i job found
      cases enabled
      refine .turns _ rfl rfl rfl (fun held holds => .inr ⟨id,?_⟩) (fun other => iff_of_false ?_ (plain other)) ?_
      · split at holds
        · exact (show job = held from holds) ▸ found
        · exact holds.elim
      · split <;> exact False.elim
      · intro _ _ _ same
        split at same <;> cases same
  | startingNow id =>
    have plain : ∀ id, ¬(w.ops n).Spent id := by rw [op]; exact fun _ => False.elim
    simp only [op] at enabled
    split at enabled
    · cases enabled
      exact .turned .idle rfl rfl rfl (fun _ => False.elim) (fun _ => False.elim) plain (by rintro _ _ _ ⟨⟩)
    · rename_i job found
      cases enabled
      exact .turns (.runningNow job) rfl rfl rfl (fun held holds => .inr ⟨id,(show job = held from holds) ▸ found⟩)
        (fun other => iff_of_false False.elim (plain other)) (by rintro _ _ _ ⟨⟩)
  | handling job timed result => exact handling_effect op single enabled
  | recording job timed ended existing time =>
    simp only [op] at enabled
    cases enabled
    refine .records job (.recorded job timed (.of ended)) (recordParams existing time ended) _ (by simp [World.to,World.logs])
      (fun held holds => ?_) (fun id => ?_) ?_ (record_quiet ..) (.inl ⟨.inr (.inr ⟨ended,rfl⟩),?_⟩) rfl (by simp [World.to,World.logs])
    · rw [op]
      exact recorded_holds holds
    · rw [op]
      exact recorded_spent
    · intro _ _ _ same
      cases timed <;> cases same
    · cases ended <;> rfl
  | rescheduling job result =>
    have mine : (w.ops n).Holds job := by rw [op]; rfl
    have spent : ∀ id, (w.ops n).Spent id → job.schedule.isAt = true ∧ job.id = id := by
      rw [op]
      exact fun _ went => went.2
    have free : ∀ other : CronJob, (∃ time jobs, (none : Rest) = some (time,jobs) ∧ other ∈ jobs) → (w.ops n).Holds other := by
      rintro other ⟨_,_,same,-⟩
      cases same
    simp only [op] at enabled
    split at enabled
    · rename_i once
      cases enabled
      exact .reschedules job (.cancelling job.id none) disabled mine (by simp [World.to]) free (fun _ => False.elim) spent (by rintro _ _ _ ⟨⟩)
        (by rw [if_pos once]) rfl (by simp [World.to])
    · rename_i repeated
      cases enabled
      refine .reschedules job (.installing { job with nextRunAt := computeNextRun calendar job.schedule w.now } none)
        { nextRunAt := some (computeNextRun calendar job.schedule w.now) } mine (by simp [World.to]) free (fun _ => False.elim) spent
        (by rintro _ _ _ ⟨⟩) ?_ rfl (by simp [World.to])
      rw [if_neg repeated]
      exact ⟨_,rfl⟩
  | retrying id =>
    simp only [op] at enabled
    cases enabled
    exact .turned .idle rfl rfl rfl (fun _ => False.elim) (fun _ => False.elim) (by rw [op]; exact fun _ => False.elim) (by rintro _ _ _ ⟨⟩)

theorem handleBusy_retrying {job : CronJob} {attempt : Int} (busy : handleBusy job = .retrying attempt) :
    attempt = job.retryCount + 1 ∧ job.retryCount < job.maxRetries := by
  unfold handleBusy at busy
  split at busy
  · cases busy
  · rename_i few
    cases busy
    exact ⟨rfl,by omega⟩

theorem handleBusy_unsent {job : CronJob} {id : String} : ¬(handleBusy job).Went job id := by
  rintro ⟨⟨_,same⟩,-⟩
  unfold handleBusy at same
  split at same <;> cases same

theorem execute_effect {calendar : Calendar} {w next : World} {n : Nat} {outcome : Outcome} (single : Single w (.executed n outcome))
    (enabled : execute w n outcome = some next) : Effect calendar w n next := by
  unfold execute at enabled
  split at enabled
  · rename_i job executing
    have plain : ∀ id, ¬(w.ops n).Spent id := by rw [executing]; exact fun _ => False.elim
    have mine : ∀ held, job = held → (w.ops n).Holds held := by
      rintro held rfl
      rw [executing]
      rfl
    cases outcome with
    | sent conversationId =>
      cases enabled
      simp only [Single,executing] at single
      exact .sends job true conversationId executing rfl (fun _ => single) rfl rfl
    | busy =>
      cases enabled
      refine .turns (.handling job true (handleBusy job)) rfl rfl rfl (fun held holds => .inl (mine held holds))
        (fun id => iff_of_false (fun spent => handleBusy_unsent spent.2) (plain id)) ?_
      rintro _ _ attempt same
      obtain ⟨rfl,-,busy⟩ := Op.handling.inj same
      exact handleBusy_retrying busy
    | failed message =>
      cases enabled
      refine .turns (.handling job true (.error message)) rfl rfl rfl (fun held holds => .inl (mine held holds))
        (fun id => iff_of_false ?_ (plain id)) (by rintro _ _ _ ⟨⟩)
      rintro ⟨-,⟨_,same⟩,-⟩
      cases same
  · rename_i job running
    have plain : ∀ id, ¬(w.ops n).Spent id := by rw [running]; exact fun _ => False.elim
    cases outcome with
    | sent conversationId =>
      cases enabled
      exact .sends job false conversationId running rfl (by rintro ⟨⟩) rfl rfl
    | busy => cases enabled
    | failed message =>
      cases enabled
      refine .turns (.handling job false (.error message)) rfl rfl rfl (fun held holds => .inl ?_)
        (fun id => iff_of_false ?_ (plain id)) (by rintro _ _ _ ⟨⟩)
      · rw [running]
        exact holds
      · rintro ⟨⟨⟩,-⟩
  · cases enabled

theorem step_effect {calendar : Calendar} {w next : World} {action : Action} (single : Single w action)
    (enabled : step calendar w action = some next) :
    (∃ n, Effect calendar w n next) ∨ next.rows = w.rows ∧ next.ops = w.ops ∧ next.events = w.events := by
  -- A call begins with nothing in hand.
  have begins : ∀ {n} (op : Op) handles, w.ops n = .idle → (∀ job, ¬op.Holds job) → (∀ id, ¬op.Spent id) →
      (∀ job timed result, op ≠ .handling job timed result) → Effect calendar w n ({ w with handles := handles }.to n op) := by
    intro n op handles free unheld unspent idle
    exact .turned op rfl rfl rfl (fun job held => absurd held (unheld job)) unspent (by rw [free]; exact fun _ => False.elim) idle
  cases action with
  | addJob n id req =>
    unfold step at enabled
    dsimp only at enabled
    split at enabled
    · rename_i free
      split at enabled
      · cases enabled
      · cases enabled
        exact .inl ⟨n,begins (.adding id req w.now) w.handles free (fun _ => False.elim) (fun _ => False.elim) (by rintro _ _ _ ⟨⟩)⟩
    · cases enabled
  | updateJob n id req =>
    obtain ⟨free,⟨⟩⟩ := Option.ite_none_right_eq_some.mp enabled
    exact .inl ⟨n,begins (.updating id req) w.handles free (fun _ => False.elim) (fun _ => False.elim) (by rintro _ _ _ ⟨⟩)⟩
  | removeJob n id =>
    obtain ⟨free,⟨⟩⟩ := Option.ite_none_right_eq_some.mp enabled
    exact .inl ⟨n,begins (.removing id) _ free (fun _ => False.elim) (fun _ => False.elim) (by rintro _ _ _ ⟨⟩)⟩
  | deleteJobsByConversation n conversation =>
    obtain ⟨free,⟨⟩⟩ := Option.ite_none_right_eq_some.mp enabled
    exact .inl ⟨n,begins (.listing conversation) w.handles free (fun _ => False.elim) (fun _ => False.elim) (by rintro _ _ _ ⟨⟩)⟩
  | handleSystemResume n =>
    obtain ⟨free,⟨⟩⟩ := Option.ite_none_right_eq_some.mp enabled
    exact .inl ⟨n,begins .resumed w.handles free (fun _ => False.elim) (fun _ => False.elim) (by rintro _ _ _ ⟨⟩)⟩
  | runNow n id =>
    obtain ⟨free,⟨⟩⟩ := Option.ite_none_right_eq_some.mp enabled
    exact .inl ⟨n,begins (.startingNow id) w.handles free (fun _ => False.elim) (fun _ => False.elim) (by rintro _ _ _ ⟨⟩)⟩
  | fire n id =>
    unfold step at enabled
    dsimp only at enabled
    split at enabled
    · rename_i free
      split at enabled
      · cases enabled
      · split at enabled
        · cases enabled
        · split at enabled
          · cases enabled
            exact .inl ⟨n,begins (.ticking id) _ free (fun _ => False.elim) (fun _ => False.elim) (by rintro _ _ _ ⟨⟩)⟩
          · cases enabled
    · cases enabled
  | executed n outcome => exact .inl ⟨n,execute_effect single enabled⟩
  | refuse n =>
    unfold step at enabled
    dsimp only at enabled
    split at enabled
    · rename_i refused
      cases enabled
      exact .inl ⟨n,.turned .idle rfl rfl rfl (fun _ => False.elim) (fun _ => False.elim) (by rw [refused]; exact fun _ => False.elim)
        (by rintro _ _ _ ⟨⟩)⟩
    · rename_i refused
      cases enabled
      exact .inl ⟨n,.turned .idle rfl rfl rfl (fun _ => False.elim) (fun _ => False.elim) (by rw [refused]; exact fun _ => False.elim)
        (by rintro _ _ _ ⟨⟩)⟩
    · rename_i refused
      cases enabled
      exact .inl ⟨n,.turned .idle rfl rfl rfl (fun _ => False.elim) (fun _ => False.elim) (by rw [refused]; exact fun _ => False.elim)
        (by rintro _ _ _ ⟨⟩)⟩
    · cases enabled
  | go n => exact .inl ⟨n,go_effect single enabled⟩
  | wait ms =>
    cases enabled
    exact .inr ⟨rfl,rfl,rfl⟩

end Effects

section Invariant

-- The job is on, and no tick has used this up.
def Ready (w : World) (id : String) : Prop :=
  (∃ row, w.rows.lookup id = some row ∧ row.enabled = true) ∧ ∀ n, ¬(w.ops n).Spent id

structure Sound (w : World) : Prop where
  keyed : ∀ id row, w.rows.lookup id = some row → row.id = id
  kinds : ∀ n job, (w.ops n).Holds job → ∀ row, w.rows.lookup job.id = some row →
    row.schedule.isAt = job.schedule.isAt ∧ row.maxRetries = job.maxRetries
  busy : ∀ n job timed attempt, w.ops n = .handling job timed (.retrying attempt) →
    attempt = job.retryCount + 1 ∧ job.retryCount < job.maxRetries
  sendings : ∀ id, sendings w id ≤ armings w id ∧ (Ready w id → sendings w id < armings w id)
  out : ∀ id, out w id = true → ∀ row, w.rows.lookup id = some row →
    row.schedule.isAt = true ∧ ((∃ n, (w.ops n).Spent id) ∨ row.enabled = false ∧ row.nextRunAt = none)
  streak : ∀ id row, w.rows.lookup id = some row →
    (streak w id : Int) ≤ row.retryCount ∧ (streak w id : Int) ≤ row.maxRetries ∧ (streak w id = 0 → row.retryCount = 0)

variable {calendar : Calendar} {w next : World} {n : Nat}

theorem Effect.ops (effect : Effect calendar w n next) : ∃ op, next.ops = Function.update w.ops n op := by
  cases effect <;> exact ⟨_,by assumption⟩

-- Where a row comes from: it is an older one, perhaps with other columns, or
-- it is new. Its schedule changes only while no other call has a copy of it.
theorem Effect.row (effect : Effect calendar w n next) {id : String} {after : CronJob} (there : next.rows.lookup id = some after) :
    (∃ before, w.rows.lookup id = some before ∧ after.id = before.id ∧ after.maxRetries = before.maxRetries ∧
      (after.schedule = before.schedule ∨ Unheld w n id ∧ ∀ job, ¬(next.ops n).Holds job)) ∨
    after.id = id ∧ Unheld w n id ∧ ∀ job, ¬(next.ops n).Holds job := by
  have plain : ∀ job, ¬(Op.installing job none).Holds after ∧ ∀ other, ¬(Op.installing job none).Holds other := by
    intro job
    have free : ∀ other, ¬(Op.installing job none).Holds other := by
      rintro other ⟨_,_,same,-⟩
      cases same
    exact ⟨free after,free⟩
  have tried : ∀ {key params}, params.schedule = none → (w.tries key params).rows.lookup id = some after →
      ∃ before, w.rows.lookup id = some before ∧ after.id = before.id ∧ after.maxRetries = before.maxRetries ∧
        (after.schedule = before.schedule ∨ Unheld w n id ∧ ∀ job, ¬(next.ops n).Holds job) := by
    intro key params schedule found
    rw [tries_lookup] at found
    split at found
    · rename_i same
      subst same
      obtain ⟨before,was,rfl⟩ := Option.map_eq_some_iff.mp found
      exact ⟨before,was,rfl,rfl,.inl (by simp [CronJob.apply,schedule])⟩
    · exact ⟨after,found,rfl,rfl,.inl rfl⟩
  cases effect with
  | turns op ops rows => exact .inl ⟨after,rows ▸ there,rfl,rfl,.inl rfl⟩
  | inserts key req time was fresh unheld ops rows =>
    rw [rows,lookup_insert_eq] at there
    split at there
    · rename_i same
      cases there
      subst same
      refine .inr ⟨rfl,unheld,?_⟩
      rw [ops,Function.update_self]
      exact (plain _).2
    · exact .inl ⟨after,there,rfl,rfl,.inl rfl⟩
  | edits job req was unheld ops rows =>
    rw [rows] at there
    split at there
    · rename_i same
      subst same
      obtain ⟨before,found,rfl⟩ := Option.map_eq_some_iff.mp there
      refine .inl ⟨before,found,rfl,rfl,?_⟩
      cases dto : req.schedule with
      | none => exact .inl (by simp [CronJob.apply,buildUpdateParams,dto])
      | some schedule =>
        refine .inr ⟨unheld (by simp [dto]),?_⟩
        rw [ops,Function.update_self]
        exact (plain _).2
    · exact .inl ⟨after,there,rfl,rfl,.inl rfl⟩
  | reschedules job op params held ops holds unspent spent idle kind rows =>
    rw [rows] at there
    refine .inl (tried ?_ there)
    split at kind
    · exact kind ▸ rfl
    · obtain ⟨instant,rfl⟩ := kind
      rfl
  | records job op params event ops holds spent idle quiet kind rows =>
    rw [rows] at there
    exact .inl (tried quiet.2.1 there)
  | deletes ops unspent rows =>
    rcases rows id with same | gone
    · exact .inl ⟨after,same ▸ there,rfl,rfl,.inl rfl⟩
    · rw [gone] at there
      cases there
  | sends job timed conversation was ops first rows => exact .inl ⟨after,rows ▸ there,rfl,rfl,.inl rfl⟩

-- A copy in hand has been there before, or has just been read.
theorem Effect.held (effect : Effect calendar w n next) {m : Nat} {job : CronJob} (holds : (next.ops m).Holds job) :
    (w.ops m).Holds job ∨ next.rows = w.rows ∧ ∃ id, w.rows.lookup id = some job := by
  by_cases same : m = n
  · subst same
    cases effect with
    | turns op ops rows events from_old =>
      rw [ops,Function.update_self] at holds
      exact (from_old job holds).imp id fun read => ⟨rows,read⟩
    | inserts key req time was fresh unheld ops =>
      rw [ops,Function.update_self] at holds
      obtain ⟨_,_,same,-⟩ := holds
      cases same
    | edits edited req was unheld ops =>
      rw [ops,Function.update_self] at holds
      obtain ⟨_,_,same,-⟩ := holds
      cases same
    | reschedules old op params held ops from_old =>
      rw [ops,Function.update_self] at holds
      exact .inl (from_old job holds)
    | records old op params event ops from_old =>
      rw [ops,Function.update_self] at holds
      exact .inl (from_old job holds)
    | deletes ops =>
      rw [ops,Function.update_self] at holds
      exact holds.elim
    | sends sent timed conversation was ops =>
      rw [ops,Function.update_self] at holds
      rw [was]
      cases timed <;> exact .inl holds
  · obtain ⟨op,ops⟩ := effect.ops
    rw [ops,Function.update_of_ne same] at holds
    exact .inl holds

theorem Sound.keyed_step (sound : Sound w) (effect : Effect calendar w n next) (id : String) (row : CronJob)
    (there : next.rows.lookup id = some row) : row.id = id := by
  rcases effect.row there with ⟨before,was,same,-⟩ | ⟨same,-⟩
  · exact same.trans (sound.keyed id before was)
  · exact same

theorem Sound.kinds_step (sound : Sound w) (effect : Effect calendar w n next) (m : Nat) (job : CronJob)
    (holds : (next.ops m).Holds job) (row : CronJob) (there : next.rows.lookup job.id = some row) :
    row.schedule.isAt = job.schedule.isAt ∧ row.maxRetries = job.maxRetries := by
  -- Where no other call has a copy, and this one has none, there is no copy.
  have alone : (Unheld w n job.id ∧ ∀ held, ¬(next.ops n).Holds held) → False := by
    rintro ⟨unheld,free⟩
    by_cases same : m = n
    · exact free job (same ▸ holds)
    · obtain ⟨op,ops⟩ := effect.ops
      rw [ops,Function.update_of_ne same] at holds
      exact unheld m same job holds rfl
  rcases effect.held holds with old | ⟨rows,id,read⟩
  · rcases effect.row there with ⟨before,was,-,retries,schedule | changed⟩ | ⟨-,new⟩
    · obtain ⟨kind,limit⟩ := sound.kinds m job old before was
      exact ⟨(congrArg _ schedule).trans kind,retries.trans limit⟩
    · exact (alone changed).elim
    · exact (alone new).elim
  · rw [rows,sound.keyed id job read,read] at there
    cases there
    exact ⟨rfl,rfl⟩

theorem Sound.busy_step (sound : Sound w) (effect : Effect calendar w n next) (m : Nat) (job : CronJob) (timed : Bool) (attempt : Int)
    (handling : next.ops m = .handling job timed (.retrying attempt)) :
    attempt = job.retryCount + 1 ∧ job.retryCount < job.maxRetries := by
  by_cases same : m = n
  · subst same
    cases effect with
    | turns op ops rows events holds spent busy =>
      rw [ops,Function.update_self] at handling
      exact busy job timed attempt handling
    | inserts key req time was fresh unheld ops =>
      rw [ops,Function.update_self] at handling
      cases handling
    | edits edited req was unheld ops =>
      rw [ops,Function.update_self] at handling
      cases handling
    | reschedules old op params held ops holds unspent spent idle =>
      rw [ops,Function.update_self] at handling
      exact absurd handling (idle _ _ _)
    | records old op params event ops holds spent idle =>
      rw [ops,Function.update_self] at handling
      exact absurd handling (idle _ _ _)
    | deletes ops =>
      rw [ops,Function.update_self] at handling
      cases handling
    | sends sent timed conversation was ops =>
      rw [ops,Function.update_self] at handling
      cases handling
  · obtain ⟨op,ops⟩ := effect.ops
    rw [ops,Function.update_of_ne same] at handling
    exact sound.busy m job timed attempt handling

theorem armings_append {event : Event} (events : next.events = w.events ++ [event]) (id : String) :
    armings next id = armings w id + if event.arms id then 1 else 0 := by
  rw [armings,events,List.countP_append,List.countP_singleton]
  rfl

theorem sendings_append {event : Event} (events : next.events = w.events ++ [event]) (id : String) :
    sendings next id = sendings w id + if event.fires id then 1 else 0 := by
  rw [sendings,events,List.countP_append,List.countP_singleton]
  rfl

theorem out_append {event : Event} (events : next.events = w.events ++ [event]) (id : String) :
    CronService.out next id = event.out id (CronService.out w id) := by
  rw [CronService.out,events,List.foldl_append]
  rfl

theorem streak_append {event : Event} (events : next.events = w.events ++ [event]) (id : String) :
    CronService.streak next id = event.streak id (CronService.streak w id) := by
  rw [CronService.streak,events,List.foldl_append]
  rfl

theorem Ready.before {id : String} (ready : Ready next id)
    (rows : ∀ row, next.rows.lookup id = some row → row.enabled = true → ∃ row, w.rows.lookup id = some row ∧ row.enabled = true)
    (spent : ∀ m, (w.ops m).Spent id → ∃ k, (next.ops k).Spent id) : Ready w id := by
  obtain ⟨⟨row,there,on⟩,unspent⟩ := ready
  refine ⟨rows row there on,fun m used => ?_⟩
  obtain ⟨k,still⟩ := spent m used
  exact unspent k still

theorem spent_moves {op : Op} (ops : next.ops = Function.update w.ops n op) {id : String} (keeps : (w.ops n).Spent id → op.Spent id)
    (m : Nat) (used : (w.ops m).Spent id) : ∃ k, (next.ops k).Spent id := by
  refine ⟨m,?_⟩
  rw [ops]
  by_cases same : m = n
  · subst same
    rw [Function.update_self]
    exact keeps used
  · rwa [Function.update_of_ne same]

-- An update of other columns, or of another job, does not switch a job on.
theorem tries_on {key id : String} {params : UpdateCronJobParams} (enabled : key = id → params.enabled = none) (row : CronJob)
    (there : (w.tries key params).rows.lookup id = some row) (on : row.enabled = true) :
    ∃ row, w.rows.lookup id = some row ∧ row.enabled = true := by
  rw [tries_lookup] at there
  split at there
  · rename_i same
    subst same
    obtain ⟨before,was,rfl⟩ := Option.map_eq_some_iff.mp there
    exact ⟨before,was,by simpa [CronJob.apply,enabled rfl] using on⟩
  · exact ⟨row,there,on⟩

theorem Sound.sendings_step (sound : Sound w) (effect : Effect calendar w n next) (id : String) :
    CronService.sendings next id ≤ armings next id ∧ (Ready next id → CronService.sendings next id < armings next id) := by
  obtain ⟨few,ready⟩ := sound.sendings id
  cases effect with
  | turns op ops rows events holds spent =>
    have same : CronService.sendings next id = CronService.sendings w id ∧ armings next id = armings w id := by
      simp only [CronService.sendings,armings,events,and_self]
    rw [same.1,same.2]
    exact ⟨few,fun now => ready (now.before (fun row there on => ⟨row,rows ▸ there,on⟩) (spent_moves ops (spent id).mpr))⟩
  | inserts key req time was fresh unheld ops rows events =>
    rw [sendings_append events,armings_append events]
    by_cases same : key = id
    · simp only [Event.arms,Event.fires,same]
      simp
      omega
    · simp only [Event.arms,Event.fires,same]
      refine ⟨by simpa using few,fun now => ?_⟩
      have before : Ready w id := now.before (fun row there on => by
        rw [rows,lookup_insert_eq,if_neg (Ne.symm same)] at there
        exact ⟨row,there,on⟩) (spent_moves ops (by rw [was]; exact False.elim))
      simpa using ready before
  | edits job req was unheld ops rows events =>
    rw [sendings_append events,armings_append events]
    by_cases arms : (Event.updated job.id (buildUpdateParams job req)).arms id = true
    · rw [if_pos arms]
      simp only [Event.fires]
      simp
      omega
    · rw [if_neg arms]
      refine ⟨by simpa [Event.fires] using few,fun now => ?_⟩
      have before : Ready w id := now.before (fun row there on => by
        rw [rows] at there
        split at there
        · rename_i same
          subst same
          obtain ⟨before,found,rfl⟩ := Option.map_eq_some_iff.mp there
          refine ⟨before,found,?_⟩
          simp only [buildUpdateParams,CronJob.apply] at on
          cases switch : req.enabled with
          | none => simpa [switch] using on
          | some value =>
            rw [switch] at on
            obtain rfl : value = true := on
            exact absurd (by simp [Event.arms,buildUpdateParams,switch]) arms
        · exact ⟨row,there,on⟩) (spent_moves ops (by rw [was]; exact False.elim))
      simpa [Event.fires] using ready before
  | reschedules job op params held ops holds unspent spent idle kind rows events =>
    have same : CronService.sendings next id = CronService.sendings w id ∧ armings next id = armings w id := by
      simp only [CronService.sendings,armings,events,and_self]
    rw [same.1,same.2]
    refine ⟨few,fun now => ready ?_⟩
    by_cases once : job.schedule.isAt = true ∧ job.id = id
    · obtain ⟨at_once,rfl⟩ := once
      obtain ⟨⟨row,there,on⟩,-⟩ := now
      rw [if_pos at_once] at kind
      rw [rows,tries_lookup,if_pos rfl,kind] at there
      obtain ⟨before,-,rfl⟩ := Option.map_eq_some_iff.mp there
      cases on
    · refine now.before (fun row there on => tries_on (fun same => ?_) row (rows ▸ there) on)
        (spent_moves ops fun used => absurd (spent id used) once)
      split at kind
      · exact absurd ⟨‹_›,same⟩ once
      · obtain ⟨instant,rfl⟩ := kind
        rfl
  | records job op params event ops holds spent idle quiet kind rows events =>
    rw [sendings_append events,armings_append events]
    have plain : event.fires id = false ∧ event.arms id = false := by
      rcases kind with ⟨rfl | rfl | ⟨ended,rfl⟩,-⟩ | ⟨timed,attempt,-,rfl,-⟩ <;> exact ⟨rfl,rfl⟩
    rw [plain.1,plain.2]
    exact ⟨few,fun now => ready (now.before (fun row there on => tries_on (fun _ => quiet.1) row (rows ▸ there) on)
      (spent_moves ops (spent id).mpr))⟩
  | deletes ops unspent rows events =>
    have same : CronService.sendings next id = CronService.sendings w id ∧ armings next id = armings w id := by
      simp only [CronService.sendings,armings,events,and_self]
    rw [same.1,same.2]
    refine ⟨few,fun now => ready (now.before (fun row there on => ?_) (spent_moves ops fun used => absurd used (unspent id)))⟩
    rcases rows id with same | gone
    · exact ⟨row,same ▸ there,on⟩
    · rw [gone] at there
      cases there
  | sends job timed conversation was ops first rows events =>
    rw [sendings_append events,armings_append events]
    have unspent : ¬(w.ops n).Spent id := by
      rw [was]
      cases timed <;> exact False.elim
    by_cases fires : timed = true ∧ job.schedule.isAt = true ∧ job.id = id
    · obtain ⟨rfl,once,rfl⟩ := fires
      obtain ⟨⟨row,there,on⟩,others⟩ := first rfl once
      have fewer := ready ⟨⟨row,there,on⟩,others⟩
      simp only [Event.fires,Event.arms,once]
      refine ⟨by simp; omega,fun now => absurd ?_ (now.2 n)⟩
      rw [ops,Function.update_self]
      exact ⟨rfl,⟨_,rfl⟩,once,rfl⟩
    · have quiet : (Event.sent job timed).fires id = false := by
        simp only [Event.fires,Bool.and_eq_false_iff,decide_eq_false_iff_not]
        grind
      rw [quiet]
      exact ⟨few,fun now => ready (now.before (fun row there on => ⟨row,rows ▸ there,on⟩)
        (spent_moves ops fun used => absurd used unspent))⟩

theorem Sound.out_step (sound : Sound w) (effect : Effect calendar w n next) (id : String)
    (out : CronService.out next id = true) (row : CronJob) (there : next.rows.lookup id = some row) :
    row.schedule.isAt = true ∧ ((∃ m, (next.ops m).Spent id) ∨ row.enabled = false ∧ row.nextRunAt = none) := by
  -- The row keeps its columns, and so does the tick that is on it.
  have stays : CronService.out w id = true → (∃ before, w.rows.lookup id = some before ∧ row.schedule = before.schedule ∧
      row.enabled = before.enabled ∧ row.nextRunAt = before.nextRunAt) → (∀ m, (w.ops m).Spent id → ∃ k, (next.ops k).Spent id) →
      row.schedule.isAt = true ∧ ((∃ m, (next.ops m).Spent id) ∨ row.enabled = false ∧ row.nextRunAt = none) := by
    rintro was ⟨before,found,schedule,enabled,instant⟩ spent
    obtain ⟨once,off⟩ := sound.out id was before found
    refine ⟨schedule ▸ once,?_⟩
    rcases off with ⟨m,used⟩ | ⟨switch,none_left⟩
    · exact .inl (spent m used)
    · exact .inr ⟨enabled ▸ switch,instant ▸ none_left⟩
  cases effect with
  | turns op ops rows events holds spent =>
    refine stays ?_ ⟨row,rows ▸ there,rfl,rfl,rfl⟩ (spent_moves ops (spent id).mpr)
    simpa only [CronService.out,events] using out
  | inserts key req time was fresh unheld ops rows events =>
    rw [out_append events] at out
    rw [rows,lookup_insert_eq] at there
    split at there
    · rename_i same
      simp [Event.out,same] at out
    · rename_i other
      refine stays ?_ ⟨row,there,rfl,rfl,rfl⟩ (spent_moves ops (by rw [was]; exact False.elim))
      simpa [Event.out,Ne.symm other] using out
  | edits job req was unheld ops rows events =>
    rw [out_append events] at out
    rw [rows] at there
    have moves : ∀ m, (w.ops m).Spent id → ∃ k, (next.ops k).Spent id := spent_moves ops (by rw [was]; exact False.elim)
    split at there
    · rename_i same
      subst same
      obtain ⟨before,found,rfl⟩ := Option.map_eq_some_iff.mp there
      have untouched : req.enabled = none ∧ req.schedule = none := by
        cases switch : req.enabled <;> cases dto : req.schedule <;> simp [Event.out,buildUpdateParams,switch,dto] at out ⊢
      refine stays ?_ ⟨before,found,?_,?_,?_⟩ moves
      · simpa [Event.out,buildUpdateParams,untouched.1,untouched.2] using out
      · simp [CronJob.apply,buildUpdateParams,untouched.2]
      · simp [CronJob.apply,buildUpdateParams,untouched.1]
      · simp [CronJob.apply,buildUpdateParams,untouched.1,untouched.2]
    · rename_i other
      refine stays ?_ ⟨row,there,rfl,rfl,rfl⟩ moves
      simpa [Event.out,Ne.symm other] using out
  | reschedules job op params held ops holds unspent spent idle kind rows events =>
    have was : CronService.out w id = true := by simpa only [CronService.out,events] using out
    rw [rows,tries_lookup] at there
    split at there
    · rename_i same
      subst same
      obtain ⟨before,found,rfl⟩ := Option.map_eq_some_iff.mp there
      obtain ⟨once,-⟩ := sound.out job.id was before found
      have at_once : job.schedule.isAt = true := ((sound.kinds n job held before found).1).symm.trans once
      rw [if_pos at_once] at kind
      subst kind
      exact ⟨once,.inr ⟨rfl,rfl⟩⟩
    · rename_i other
      exact stays was ⟨row,there,rfl,rfl,rfl⟩ (spent_moves ops fun used => absurd (spent id used).2.symm other)
  | records job op params event ops holds spent idle quiet kind rows events =>
    have same : ∀ before, event.out id before = before := by
      intro before
      rcases kind with ⟨rfl | rfl | ⟨ended,rfl⟩,-⟩ | ⟨timed,attempt,-,rfl,-⟩ <;> rfl
    rw [out_append events,same] at out
    rw [rows,tries_lookup] at there
    refine stays out ?_ (spent_moves ops (spent id).mpr)
    split at there
    · rename_i mine
      subst mine
      obtain ⟨before,found,rfl⟩ := Option.map_eq_some_iff.mp there
      exact ⟨before,found,by simp [CronJob.apply,quiet.2.1],by simp [CronJob.apply,quiet.1],by simp [CronJob.apply,quiet.2.2]⟩
    · exact ⟨row,there,rfl,rfl,rfl⟩
  | deletes ops unspent rows events =>
    refine stays (by simpa only [CronService.out,events] using out) ?_ (spent_moves ops fun used => absurd used (unspent id))
    rcases rows id with same | gone
    · exact ⟨row,same ▸ there,rfl,rfl,rfl⟩
    · rw [gone] at there
      cases there
  | sends job timed conversation was ops first rows events =>
    rw [out_append events] at out
    rw [rows] at there
    by_cases fires : timed = true ∧ job.schedule.isAt = true ∧ job.id = id
    · obtain ⟨rfl,once,rfl⟩ := fires
      have mine : (w.ops n).Holds job := by
        rw [was]
        rfl
      refine ⟨(sound.kinds n job mine row there).1.trans once,.inl ⟨n,?_⟩⟩
      rw [ops,Function.update_self]
      exact ⟨rfl,⟨_,rfl⟩,once,rfl⟩
    · have unspent : ¬(w.ops n).Spent id := by
        rw [was]
        cases timed <;> exact False.elim
      refine stays ?_ ⟨row,there,rfl,rfl,rfl⟩ (spent_moves ops fun used => absurd used unspent)
      simp only [Event.out] at out
      grind

theorem Sound.streak_step (sound : Sound w) (effect : Effect calendar w n next) (id : String) (row : CronJob)
    (there : next.rows.lookup id = some row) : (CronService.streak next id : Int) ≤ row.retryCount ∧
      (CronService.streak next id : Int) ≤ row.maxRetries ∧ (CronService.streak next id = 0 → row.retryCount = 0) := by
  have stays : CronService.streak next id = CronService.streak w id → (∃ before, w.rows.lookup id = some before ∧
      row.retryCount = before.retryCount ∧ row.maxRetries = before.maxRetries) →
      (CronService.streak next id : Int) ≤ row.retryCount ∧ (CronService.streak next id : Int) ≤ row.maxRetries ∧
        (CronService.streak next id = 0 → row.retryCount = 0) := by
    rintro same ⟨before,found,count,limit⟩
    rw [same,count,limit]
    exact sound.streak id before found
  have tried : ∀ {key params}, params.retryCount = none → (w.tries key params).rows.lookup id = some row →
      ∃ before, w.rows.lookup id = some before ∧ row.retryCount = before.retryCount ∧ row.maxRetries = before.maxRetries := by
    intro key params unset found
    rw [tries_lookup] at found
    split at found
    · rename_i same
      subst same
      obtain ⟨before,was,rfl⟩ := Option.map_eq_some_iff.mp found
      exact ⟨before,was,by simp [CronJob.apply,unset],rfl⟩
    · exact ⟨row,found,rfl,rfl⟩
  cases effect with
  | turns op ops rows events => exact stays (by simp only [CronService.streak,events]) ⟨row,rows ▸ there,rfl,rfl⟩
  | inserts key req time was fresh unheld ops rows events =>
    rw [rows,lookup_insert_eq] at there
    split at there
    · rename_i same
      cases there
      rw [streak_append events]
      simp [Event.streak,same,newJob]
    · rename_i other
      refine stays ?_ ⟨row,there,rfl,rfl⟩
      rw [streak_append events]
      simp [Event.streak,Ne.symm other]
  | edits job req was unheld ops rows events =>
    refine stays (streak_append events id) ?_
    rw [rows] at there
    split at there
    · rename_i same
      subst same
      obtain ⟨before,found,rfl⟩ := Option.map_eq_some_iff.mp there
      exact ⟨before,found,rfl,rfl⟩
    · exact ⟨row,there,rfl,rfl⟩
  | reschedules job op params held ops holds unspent spent idle kind rows events =>
    refine stays (by simp only [CronService.streak,events]) (tried ?_ (rows ▸ there))
    split at kind
    · exact kind ▸ rfl
    · obtain ⟨instant,rfl⟩ := kind
      rfl
  | records job op params event ops holds spent idle quiet kind rows events =>
    rw [rows,tries_lookup] at there
    split at there
    · rename_i same
      subst same
      obtain ⟨before,found,rfl⟩ := Option.map_eq_some_iff.mp there
      obtain ⟨few,limit,-⟩ := sound.streak job.id before found
      rw [streak_append events]
      rcases kind with ⟨event_is,count⟩ | ⟨timed,attempt,was,rfl,count,low⟩
      · have reset : event.streak job.id (CronService.streak w job.id) = 0 := by
          rcases event_is with rfl | rfl | ⟨ended,rfl⟩
          · simp [Event.streak]
          · simp [Event.streak]
          · cases ended <;> simp [ExecutionResult.of,Event.streak]
        rw [reset]
        simp only [CronJob.apply,count,Option.getD_some]
        exact ⟨by simp,by omega,by simp⟩
      · obtain ⟨rfl,room⟩ := sound.busy n job timed attempt was
        have mine : (w.ops n).Holds job := by
          rw [was]
          rfl
        have bound := (sound.kinds n job mine before found).2
        have behind := low before found
        simp only [Event.streak,CronJob.apply,count,Option.getD_some,if_true]
        omega
    · rename_i other
      refine stays ?_ ⟨row,there,rfl,rfl⟩
      rw [streak_append events]
      rcases kind with ⟨rfl | rfl | ⟨ended,rfl⟩,-⟩ | ⟨timed,attempt,-,rfl,-⟩
      · simp [Event.streak,Ne.symm other]
      · simp [Event.streak,Ne.symm other]
      · cases ended <;> simp [ExecutionResult.of,Event.streak,Ne.symm other]
      · simp [Event.streak,Ne.symm other]
  | deletes ops unspent rows events =>
    refine stays (by simp only [CronService.streak,events]) ?_
    rcases rows id with same | gone
    · exact ⟨row,same ▸ there,rfl,rfl⟩
    · rw [gone] at there
      cases there
  | sends job timed conversation was ops first rows events => exact stays (streak_append events id) ⟨row,rows ▸ there,rfl,rfl⟩

end Invariant

section Results

theorem Sound.start (begun : Int) : Sound (start begun) := by
  have empty : ∀ id row, (CronService.start begun).rows.lookup id ≠ some row := by
    intro id row found
    cases found
  refine ⟨fun id row found => absurd found (empty id row),fun n job holds => holds.elim,fun _ _ _ _ => nofun,
    fun id => ⟨Nat.le_refl 0,fun ready => ?_⟩,fun id _ row found => absurd found (empty id row),
    fun id row found => absurd found (empty id row)⟩
  obtain ⟨⟨row,found,-⟩,-⟩ := ready
  exact absurd found (empty id row)

theorem Sound.step {calendar : Calendar} {w next : World} {action : Action} (sound : Sound w) (single : Single w action)
    (enabled : step calendar w action = some next) : Sound next := by
  rcases step_effect single enabled with ⟨n,effect⟩ | ⟨rows,ops,events⟩
  · exact ⟨sound.keyed_step effect,sound.kinds_step effect,sound.busy_step effect,sound.sendings_step effect,sound.out_step effect,
      sound.streak_step effect⟩
  · obtain ⟨keyed,kinds,busy,sendings,out,streak⟩ := sound
    refine ⟨?_,?_,?_,?_,?_,?_⟩ <;>
      simpa only [Ready,CronService.sendings,armings,CronService.out,CronService.streak,rows,ops,events]

-- In a run where no prompt of a one-shot job goes out beside another of its
-- ticks, each arming of the job is used once at most; after its prompt the job
-- is off once the tick is through with it; and its retries stay below their
-- limit, until it is skipped and they start anew.
theorem one_shot_once {calendar : Calendar} {begun : Int} (path : RunsWhere (step calendar) Single (start begun) actions final)
    (id : String) : sendings final id ≤ armings final id ∧
      (out final id = true → (∀ n, ¬(final.ops n).Spent id) → ∀ row, final.rows.lookup id = some row →
        row.enabled = false ∧ row.nextRunAt = none) ∧
      ∀ row, final.rows.lookup id = some row → (streak final id : Int) ≤ row.maxRetries ∧
        (final.events.getLast? = some (.handled id .skipped) → row.retryCount = 0) := by
  have sound : Sound final := path.invariant (.start begun) fun _ _ _ sound single enabled => sound.step single enabled
  refine ⟨(sound.sendings id).1,fun sent settled row there => ?_,fun row there => ⟨(sound.streak id row there).2.1,fun last => ?_⟩⟩
  · rcases (sound.out id sent row there).2 with ⟨n,spent⟩ | off
    · exact absurd spent (settled n)
    · exact off
  · obtain ⟨earlier,events⟩ := List.getLast?_eq_some_iff.mp last
    refine (sound.streak id row there).2.2 ?_
    rw [streak,events,List.foldl_append]
    simp [Event.streak]

section Examples

def once : CreateCronJobRequest := ⟨"Reminder",none,.atTime 1000 none,"Remind me","",.newConversation⟩

-- The conversation is busy at first, and the prompt goes out with the retry.
def retried : List Action := [.addJob 0 "cron_1" once,.go 0,.go 0,.wait 1000,.fire 1 "cron_1",.go 1,.executed 1 .busy,.go 1,.go 1,
  .wait 30000,.fire 1 "cron_1",.go 1,.executed 1 (.sent "conv_1"),.go 1,.go 1,.go 1,.go 1]

theorem one_shot_once_retried : ∃ final row, Runs (step .plain) (start 0) retried final ∧ sendings final "cron_1" = 1 ∧
    sendings final "cron_1" ≤ armings final "cron_1" ∧ final.rows.lookup "cron_1" = some row ∧ row.enabled = false ∧
    row.nextRunAt = none := by
  have path : ∃ final row, RunsWhere (step .plain) Single (start 0) retried final ∧ sendings final "cron_1" = 1 ∧
      out final "cron_1" = true ∧ (∀ n, final.ops n = .idle) ∧ final.rows.lookup "cron_1" = some row := by
    refine ⟨_,_,.cons trivial rfl (.cons ?_ rfl (.cons trivial rfl (.cons trivial rfl (.cons trivial rfl (.cons trivial rfl
      (.cons trivial rfl (.cons ?_ rfl (.cons trivial rfl (.cons trivial rfl (.cons trivial rfl (.cons trivial rfl (.cons ?_ rfl
        (.cons trivial rfl (.cons trivial rfl (.cons trivial rfl (.cons trivial rfl .nil)))))))))))))))),rfl,rfl,fun n => ?_,rfl⟩
    · intro m other job holds
      match m with
      | 0 => exact absurd rfl other
      | m + 1 => exact holds.elim
    · intro row found
      cases found
      decide
    · intro _
      refine ⟨⟨_,rfl,rfl⟩,fun m spent => ?_⟩
      match m with
      | 0 | 1 | m + 2 => exact spent
    · match n with
      | 0 | 1 | n + 2 => rfl
  obtain ⟨final,row,path,sent,gone,quiet,there⟩ := path
  obtain ⟨few,off,-⟩ := one_shot_once path "cron_1"
  exact ⟨final,row,path.runs,sent,few,there,off gone (fun n => by rw [quiet n]; exact False.elim) row there⟩

-- A rename while the tick is on its way sets the past timer again, and a second
-- tick sends the prompt too.
theorem one_shot_twice : ∃ final, Runs (step .plain) (start 0)
      [.addJob 0 "cron_1" once,.go 0,.go 0,.wait 1000,.fire 1 "cron_1",.go 1,.updateJob 2 "cron_1" { name := some "Note" },.go 2,.go 2,
        .go 2,.fire 3 "cron_1",.go 3,.executed 1 (.sent "conv_1"),.executed 3 (.sent "conv_2")] final ∧
    sendings final "cron_1" = 2 ∧ armings final "cron_1" = 1 :=
  ⟨_,exec_exact.mp rfl,rfl,rfl⟩

end Examples

end Results

end AlineaCopilot.CronService
