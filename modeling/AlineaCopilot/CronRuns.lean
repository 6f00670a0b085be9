import AlineaCopilot.CronService
import AlineaCopilot.TransitionRuns

open AlineaCopilot.CronJobs AlineaCopilot.TransitionRuns
open AlineaCopilot.CronService (ExecutionResult disabled handleBusy recordParams skippedParams)

namespace AlineaCopilot.CronRuns

def blank (text : String) : Bool := (RustText.trim text).isEmpty

-- Where one execution of the job stands. `timed` is a tick, the others are runs on
-- demand; each goes on with the copy of the row that it loaded first.
inductive Op where
  | idle
  | resolving (job : CronJob) (timed : Bool)
  | claiming (job : CronJob) (timed : Bool) (target : String)
  | sending (job : CronJob) (timed : Bool) (target : String)
  | handling (job : CronJob) (timed : Bool) (result : ExecutionResult)
  | recording (job : CronJob) (timed : Bool) (ended : Except String String) (existing : CronJob) (now : Int)
  | rescheduling (job : CronJob)

-- The row of one job and its executions. What was created for the job, where its
-- executions were directed and how many ends were handled is kept for the statements.
structure World where
  row : CronJob
  ops : Nat → Op
  created : List String
  targets : List String
  handled : Nat

-- What `resolve_conversation` meets: something is missing, the conversation is there,
-- or a new one is created, whose workspace may still fail.
inductive Resolution where
  | refused (message : String)
  | found
  | created (id : String) (workspace : Except String Unit)

inductive Ending where
  | sent
  | busy (message : String)
  | failed (message : String)

inductive Action where
  | tick (n : Nat)
  | runNow (n : Nat)
  | resolve (n : Nat) (answer : Resolution)
  | claim (n : Nat) (busy : Bool)
  | execute (n : Nat) (ending : Ending)
  | handle (n : Nat) (works : Bool) (now : Int)
  | record (n : Nat) (works : Bool)
  | reschedule (n : Nat) (works : Bool) (next : Option Int)

section Steps

def World.to (w : World) (n : Nat) (op : Op) : World := { w with ops := Function.update w.ops n op }

-- An update whose failure is only logged.
def World.tries (w : World) (works : Bool) (params : UpdateCronJobParams) : World :=
  if works then { w with row := w.row.apply params } else w

def creates (job : CronJob) : Bool :=
  match job.executionMode with
  | .existing => blank job.conversationId
  | .newConversation => true

-- The error of a run on demand goes to its caller.
def Op.refused (job : CronJob) (timed : Bool) (message : String) : Op :=
  if timed then .handling job true (.error message) else .idle

def resolveConversation (w : World) (n : Nat) (job : CronJob) (timed : Bool) : Resolution → Option World
  | .refused message => some (w.to n (.refused job timed message))
  | .found =>
    if creates job then none
    else some ({ w with targets := w.targets ++ [job.conversationId] }.to n (.claiming job timed job.conversationId))
  | .created id workspace =>
    if creates job = true ∧ id ∉ w.created ∧ blank id = false then
      let w := { w with created := w.created ++ [id] }
      match workspace with
      | .error message => some (w.to n (.refused job timed message))
      | .ok () => some ({ w with targets := w.targets ++ [id] }.to n (.claiming job timed id))
    else none

-- Only a tick is put off by a busy conversation.
def Op.busy (job : CronJob) (timed : Bool) : Op := if timed then .handling job true (handleBusy job) else .idle

def Ending.result (job : CronJob) (timed : Bool) (target : String) : Ending → ExecutionResult
  | .sent => .success target
  | .busy message => if timed then handleBusy job else .error message
  | .failed message => .error message

def Op.recorded (job : CronJob) (timed : Bool) : Op := if timed then .rescheduling job else .idle

-- The row is read for its `run_count`; where that fails nothing is recorded.
def World.records (w : World) (n : Nat) (job : CronJob) (timed : Bool) (ended : Except String String) (works : Bool) (now : Int) : World :=
  if works then w.to n (.recording job timed ended w.row now)
  else { w with handled := w.handled + 1 }.to n (.recorded job timed)

def handleResult (w : World) (n : Nat) (job : CronJob) (timed works : Bool) (now : Int) : ExecutionResult → World
  | .success target => w.records n job timed (.ok target) works now
  | .error message => w.records n job timed (.error message) works now
  | .retrying attempt => (w.tries works { retryCount := some attempt }).to n .idle
  | .skipped => (w.tries works skippedParams).to n (.recorded job timed)

def step (w : World) : Action → Option World
  | .tick n =>
    match w.ops n with
    | .idle => some (if w.row.enabled then w.to n (.resolving w.row true) else w)
    | _ => none
  | .runNow n =>
    match w.ops n with
    | .idle => some (w.to n (.resolving w.row false))
    | _ => none
  | .resolve n answer =>
    match w.ops n with
    | .resolving job timed => resolveConversation w n job timed answer
    | _ => none
  | .claim n busy =>
    match w.ops n with
    | .claiming job timed target => some (w.to n (if busy then .busy job timed else .sending job timed target))
    | _ => none
  | .execute n ending =>
    match w.ops n with
    | .sending job timed target => some (w.to n (.handling job timed (ending.result job timed target)))
    | _ => none
  | .handle n works now =>
    match w.ops n with
    | .handling job timed result => some (handleResult w n job timed works now result)
    | _ => none
  | .record n works =>
    match w.ops n with
    | .recording job timed ended existing now =>
      let w := w.tries works (recordParams existing now ended)
      some ({ w with handled := w.handled + 1 }.to n (.recorded job timed))
    | _ => none
  -- `reschedule_after_execution`
  | .reschedule n works next =>
    match w.ops n with
    | .rescheduling job => some ((w.tries works (if job.schedule.isAt then disabled else { nextRunAt := some next })).to n .idle)
    | _ => none

def start (row : CronJob) : World := ⟨row,fun _ => .idle,[],[],0⟩

end Steps

section Counts
variable {w after : World} {row : CronJob}

-- No other end is counted between the read and the write of a run's own, and the
-- repository answers both.
def Counted (w : World) : Action → Prop
  | .handle n works _ => ∀ job timed ended, w.ops n = .handling job timed (ExecutionResult.of ended) → works = true
  | .record n works => works = true ∧ ∀ job timed ended existing now,
      w.ops n = .recording job timed ended existing now → existing.runCount = w.row.runCount
  | _ => True

def Exact (row : CronJob) (w : World) : Prop := w.row.runCount = row.runCount + w.handled

-- Everything but the count leaves `run_count` alone.
theorem tries_count {works : Bool} {params : UpdateCronJobParams} (other : params.runCount = none) :
    (w.tries works params).row.runCount = w.row.runCount := by
  unfold World.tries
  split
  · simp only [CronJob.apply,other,Option.getD_none]
  · rfl

theorem tries_handled {works : Bool} {params : UpdateCronJobParams} : (w.tries works params).handled = w.handled := by
  unfold World.tries
  split <;> rfl

theorem record_count (existing : CronJob) (now : Int) (ended : Except String String) :
    (w.tries true (recordParams existing now ended)).row.runCount = existing.runCount + 1 := by
  cases ended <;> rfl

theorem records_exact {n : Nat} {job : CronJob} {timed works : Bool} (ended : Except String String) {now : Int} (exact : Exact row w)
    (found : w.ops n = .handling job timed (ExecutionResult.of ended)) :
    Exact row (w.records n job timed ended works now) ↔ Counted w (.handle n works now) := by
  cases works with
  | true => exact iff_of_true exact fun _ _ _ _ => rfl
  | false =>
    refine iff_of_false (fun counted => ?_) fun counted => Bool.noConfusion (counted _ _ _ found)
    have behind : w.row.runCount = row.runCount + ((w.handled + 1 : Nat) : Int) := counted
    rw [exact] at behind
    omega

-- The other results are not counted.
theorem uncounted {n : Nat} {job : CronJob} {timed works : Bool} {result : ExecutionResult} {now : Int}
    (found : w.ops n = .handling job timed result) (other : ∀ ended, result ≠ ExecutionResult.of ended) : Counted w (.handle n works now) := by
  intro _ _ ended same
  rw [found] at same
  cases same
  exact absurd rfl (other ended)

theorem resolve_exact {n : Nat} {job : CronJob} {timed : Bool} {answer : Resolution} (exact : Exact row w)
    (taken : resolveConversation w n job timed answer = some after) : Exact row after := by
  cases answer with
  | refused message =>
    cases taken
    exact exact
  | found =>
    obtain ⟨_,same⟩ := Option.ite_none_left_eq_some.mp taken
    cases same
    exact exact
  | created id workspace =>
    obtain ⟨_,same⟩ := Option.ite_none_right_eq_some.mp taken
    cases workspace <;> cases same <;> exact exact

theorem record_exact (works : Bool) {n : Nat} {job : CronJob} {timed : Bool} {ended : Except String String} {existing : CronJob} {now : Int}
    (exact : Exact row w) (found : w.ops n = .recording job timed ended existing now) :
    (w.tries works (recordParams existing now ended)).row.runCount = row.runCount + ((w.handled + 1 : Nat) : Int) ↔ Counted w (.record n works) := by
  constructor
  · intro counted
    cases works with
    | false =>
      have behind : w.row.runCount = row.runCount + ((w.handled + 1 : Nat) : Int) := counted
      rw [exact] at behind
      omega
    | true =>
      refine ⟨rfl,fun _ _ _ _ _ same => ?_⟩
      rw [found] at same
      cases same
      rw [record_count] at counted
      rw [exact]
      omega
  · rintro ⟨rfl,fresh⟩
    rw [record_count,fresh _ _ _ _ _ found,exact]
    omega

theorem step_exact {action : Action} (exact : Exact row w) (taken : step w action = some after) :
    Exact row after ↔ Counted w action := by
  cases action with
  | tick n =>
    simp only [step] at taken
    split at taken <;> cases taken
    split <;> exact iff_of_true exact trivial
  | runNow n =>
    simp only [step] at taken
    split at taken <;> cases taken
    exact iff_of_true exact trivial
  | resolve n answer =>
    simp only [step] at taken
    split at taken
    · exact iff_of_true (resolve_exact exact taken) trivial
    · cases taken
  | claim n busy =>
    simp only [step] at taken
    split at taken <;> cases taken
    exact iff_of_true exact trivial
  | execute n ending =>
    simp only [step] at taken
    split at taken <;> cases taken
    exact iff_of_true exact trivial
  | handle n works now =>
    simp only [step] at taken
    split at taken
    · next job timed result found =>
      cases taken
      cases result with
      | success target => exact records_exact (.ok target) exact found
      | error message => exact records_exact (.error message) exact found
      | retrying attempt =>
        refine iff_of_true ?_ (uncounted found fun ended => by cases ended <;> exact nofun)
        show (w.tries works _).row.runCount = row.runCount + (w.tries works _).handled
        rw [tries_count rfl,tries_handled]
        exact exact
      | skipped =>
        refine iff_of_true ?_ (uncounted found fun ended => by cases ended <;> exact nofun)
        show (w.tries works _).row.runCount = row.runCount + (w.tries works _).handled
        rw [tries_count rfl,tries_handled]
        exact exact
    · cases taken
  | record n works =>
    simp only [step] at taken
    split at taken
    · next job timed ended existing now found =>
      cases taken
      have counts := record_exact works exact found
      rw [← tries_handled] at counts
      exact counts
    · cases taken
  | reschedule n works next =>
    simp only [step] at taken
    split at taken
    · next job found =>
      cases taken
      refine iff_of_true ?_ trivial
      show (w.tries works _).row.runCount = row.runCount + (w.tries works _).handled
      rw [tries_count (by split <;> rfl),tries_handled]
      exact exact
    · cases taken

end Counts

section Anchors
variable {w after : World}

-- A conversation is created only when there is none yet, and the execution that has
-- created it goes on to its end: the workspace is there, the conversation is not
-- busy, the prompt is sent, and the row is read and written.
def Anchoring (w : World) : Action → Prop
  | .resolve _ (.created _ workspace) => w.created = [] ∧ workspace = .ok ()
  | .claim n busy => ∀ job timed target, w.ops n = .claiming job timed target → creates job = true → busy = false
  | .execute n ending => ∀ job timed target, w.ops n = .sending job timed target → creates job = true → ending = .sent
  | .handle n works _ => ∀ job timed target, w.ops n = .handling job timed (.success target) → creates job = true → works = true
  | .record n works => ∀ job timed target existing now,
      w.ops n = .recording job timed (.ok target) existing now → creates job = true → works = true
  | _ => True

-- A copy is one of the row before it was bound, or after.
structure Copied (created : List String) (job : CronJob) : Prop where
  mode : job.executionMode = .existing
  bound : blank job.conversationId = true ∨ created = [job.conversationId]

def Sound (created : List String) : Op → Prop
  | .idle | .rescheduling _ => True
  | .resolving job _ => Copied created job
  | .claiming job _ target | .sending job _ target => Copied created job ∧ created = [target]
  | .handling job _ result => Copied created job ∧ ∀ target, result = .success target → created = [target]
  | .recording job _ ended _ _ => Copied created job ∧ ∀ target, ended = .ok target → created = [target]

-- The execution that has created the conversation, on its way to bind it.
def Carries (target : String) : Op → Prop
  | .claiming job _ found | .sending job _ found => creates job = true ∧ found = target
  | .handling job _ result => creates job = true ∧ result = .success target
  | .recording job _ ended existing _ => creates job = true ∧ ended = .ok target ∧ blank existing.conversationId = true
  | _ => False

structure Kept (w : World) : Prop where
  row : Copied w.created w.row
  named : ∀ id ∈ w.created, blank id = false
  single : w.created.length ≤ 1
  ops : ∀ n, Sound w.created (w.ops n)
  targets : ∀ target ∈ w.targets, w.created = [target]
  owned : ∀ id ∈ w.created, w.row.conversationId = id ∨ ∃ n, Carries id (w.ops n)

theorem single_of_mem {ids : List String} {id : String} (single : ids.length ≤ 1) (inside : id ∈ ids) : ids = [id] := by
  cases ids with
  | nil => cases inside
  | cons only rest =>
    cases rest with
    | nil => rw [List.mem_singleton.mp inside]
    | cons _ _ => exact absurd (Nat.le_of_succ_le_succ single) (Nat.not_succ_le_zero _)

theorem creates_existing {job : CronJob} (mode : job.executionMode = .existing) : creates job = blank job.conversationId := by
  simp only [creates,mode]

-- A step of one execution that leaves the row and the conversations alone.
theorem Kept.moves (kept : Kept w) {n : Nat} {op : Op} (sound : Sound w.created op)
    (carried : ∀ id, w.row.conversationId = id ∨ (Carries id (w.ops n) → Carries id op)) : Kept (w.to n op) := by
  refine ⟨kept.row,kept.named,kept.single,fun m => ?_,kept.targets,fun id inside => ?_⟩
  · by_cases same : m = n
    · subst same
      simp only [World.to,Function.update_self]
      exact sound
    · simp only [World.to,Function.update_of_ne same]
      exact kept.ops m
  · rcases kept.owned id inside with bound | ⟨m,carries⟩
    · exact .inl bound
    · by_cases same : m = n
      · subst same
        rcases carried id with bound | onward
        · exact .inl bound
        · refine .inr ⟨m,?_⟩
          simp only [World.to,Function.update_self]
          exact onward carries
      · refine .inr ⟨m,?_⟩
        simp only [World.to,Function.update_of_ne same]
        exact carries

-- An update of other columns.
theorem Kept.updates (kept : Kept w) {works : Bool} {params : UpdateCronJobParams} (mode : params.executionMode = none)
    (other : params.conversationId = none) : Kept (w.tries works params) := by
  unfold World.tries
  split
  · have same : (w.row.apply params).conversationId = w.row.conversationId := by simp only [CronJob.apply,other,Option.getD_none]
    have still : (w.row.apply params).executionMode = w.row.executionMode := by simp only [CronJob.apply,mode,Option.getD_none]
    exact ⟨⟨still.trans kept.row.mode,same ▸ kept.row.bound⟩,kept.named,kept.single,kept.ops,kept.targets,same ▸ kept.owned⟩
  · exact kept

theorem Kept.counts (kept : Kept w) (handled : Nat) : Kept { w with handled := handled } :=
  ⟨kept.row,kept.named,kept.single,kept.ops,kept.targets,kept.owned⟩

theorem Sound.recorded {created : List String} {job : CronJob} {timed : Bool} : Sound created (.recorded job timed) := by
  cases timed <;> trivial

theorem Kept.start {row : CronJob} (mode : row.executionMode = .existing) (unbound : blank row.conversationId = true) :
    Kept (start row) :=
  ⟨⟨mode,.inl unbound⟩,fun _ inside => absurd inside List.not_mem_nil,Nat.zero_le 1,fun _ => trivial,
    fun _ inside => absurd inside List.not_mem_nil,fun _ inside => absurd inside List.not_mem_nil⟩

-- Nothing has been created before, so every copy is still unbound.
theorem Sound.opens {op : Op} (sound : Sound [] op) (id : String) : Sound [id] op := by
  have copied : ∀ {job : CronJob}, Copied [] job → Copied [id] job :=
    fun copied => ⟨copied.mode,copied.bound.imp_right fun none => absurd none (List.cons_ne_nil _ _).symm⟩
  cases op with
  | idle | rescheduling _ => trivial
  | resolving job timed => exact copied sound
  | claiming job timed target | sending job timed target => exact absurd sound.2 (List.cons_ne_nil _ _).symm
  | handling job timed result => exact ⟨copied sound.1,fun target ended => absurd (sound.2 target ended) (List.cons_ne_nil _ _).symm⟩
  | recording job timed ended existing now =>
    exact ⟨copied sound.1,fun target ended => absurd (sound.2 target ended) (List.cons_ne_nil _ _).symm⟩

-- The one step at which a conversation is created.
theorem Kept.opens (kept : Kept w) (empty : w.created = []) {n : Nat} {job : CronJob} {timed : Bool} {id : String}
    (found : w.ops n = .resolving job timed) (unbound : creates job = true) (named : blank id = false) :
    Kept ({ w with created := w.created ++ [id], targets := w.targets ++ [id] }.to n (.claiming job timed id)) := by
  have copied := kept.ops n
  rw [found,empty] at copied
  have sound : ∀ m, Sound [id] (w.ops m) := by
    intro m
    have before := kept.ops m
    rw [empty] at before
    exact before.opens id
  have noTargets : ∀ target, target ∉ w.targets := by
    intro target inside
    have none := kept.targets target inside
    rw [empty] at none
    cases none
  have row := kept.row
  rw [empty] at row
  refine ⟨?_,?_,?_,?_,?_,?_⟩ <;> simp only [World.to,empty,List.nil_append]
  · exact ⟨row.mode,row.bound.imp_right fun none => absurd none (List.cons_ne_nil _ _).symm⟩
  · intro other inside
    rw [List.mem_singleton.mp inside]
    exact named
  · exact Nat.le_refl 1
  · intro m
    by_cases same : m = n
    · subst same
      simp only [Function.update_self]
      have here := sound m
      rw [found] at here
      exact ⟨here,rfl⟩
    · simp only [Function.update_of_ne same]
      exact sound m
  · intro target inside
    rcases List.mem_append.mp inside with before | added
    · exact absurd before (noTargets target)
    · rw [List.mem_singleton.mp added]
  · intro other inside
    refine .inr ⟨n,?_⟩
    simp only [Function.update_self]
    exact ⟨unbound,(List.mem_singleton.mp inside).symm⟩

theorem recorded_conversation (w : World) (works : Bool) (existing : CronJob) (now : Int) (ended : Except String String) :
    (w.tries works (recordParams existing now ended)).row.conversationId = w.row.conversationId ∨
      ∃ target, ended = .ok target ∧ (w.tries works (recordParams existing now ended)).row.conversationId = target := by
  cases works with
  | false => exact .inl rfl
  | true =>
    cases ended with
    | error message => exact .inl rfl
    | ok target =>
      unfold World.tries recordParams CronJob.apply
      simp only [if_true]
      split
      · exact .inr ⟨target,rfl,rfl⟩
      · exact .inl rfl

-- The write of the end binds the conversation where the row that was read had none.
theorem bound_by_record {existing : CronJob} {now : Int} {target : String} (unbound : blank existing.conversationId = true)
    (named : blank target = false) : (w.tries true (recordParams existing now (.ok target))).row.conversationId = target := by
  unfold blank at unbound named
  simp only [World.tries,recordParams,CronJob.apply,unbound,named,if_true,Bool.not_false,Bool.and_self,Option.getD_some]

theorem Kept.records (kept : Kept w) {n : Nat} {works : Bool} {job existing : CronJob} {timed : Bool} {ended : Except String String}
    {now : Int} (found : w.ops n = .recording job timed ended existing now) (anchored : Anchoring w (.record n works)) :
    Kept ({ w.tries works (recordParams existing now ended) with handled := (w.tries works (recordParams existing now ended)).handled + 1 }.to n
      (.recorded job timed)) := by
  have sound := kept.ops n
  rw [found] at sound
  have plain : (recordParams existing now ended).executionMode = none := by
    unfold recordParams
    cases ended <;> rfl
  have mode : (w.tries works (recordParams existing now ended)).row.executionMode = .existing := by
    unfold World.tries
    split
    · simp only [CronJob.apply,plain,Option.getD_none]
      exact kept.row.mode
    · exact kept.row.mode
  have same : (w.tries works (recordParams existing now ended)).created = w.created ∧
      (w.tries works (recordParams existing now ended)).ops = w.ops ∧ (w.tries works (recordParams existing now ended)).targets = w.targets := by
    unfold World.tries
    split <;> exact ⟨rfl,rfl,rfl⟩
  obtain ⟨created,ops,targets⟩ := same
  have bound := recorded_conversation w works existing now ended
  have carried : ∀ id, Carries id (w.ops n) → id ∈ w.created →
      (w.tries works (recordParams existing now ended)).row.conversationId = id := by
    intro id carries inside
    rw [found] at carries
    obtain ⟨unbound,rfl,empty⟩ := carries
    cases anchored _ _ _ _ _ found unbound
    exact bound_by_record empty (kept.named id inside)
  have row : Copied w.created (w.tries works (recordParams existing now ended)).row := by
    refine ⟨mode,?_⟩
    rcases bound with same | ⟨target,rfl,same⟩
    · rw [same]
      exact kept.row.bound
    · rw [same]
      exact .inr (sound.2 target rfl)
  have owned : ∀ id ∈ w.created, (w.tries works (recordParams existing now ended)).row.conversationId = id ∨
      ∃ m, m ≠ n ∧ Carries id (w.ops m) := by
    intro id inside
    rcases kept.owned id inside with named | ⟨m,carries⟩
    · rcases bound with same | ⟨target,rfl,same⟩
      · exact .inl (same.trans named)
      · refine .inl (same.trans ?_)
        have only := sound.2 target rfl
        rw [only] at inside
        exact (List.mem_singleton.mp inside).symm
    · by_cases here : m = n
      · subst here
        exact .inl (carried id carries inside)
      · exact .inr ⟨m,here,carries⟩
  refine ⟨?_,?_,?_,?_,?_,?_⟩ <;> simp only [World.to,created,ops,targets]
  · exact row
  · exact kept.named
  · exact kept.single
  · intro m
    by_cases here : m = n
    · subst here
      simp only [Function.update_self]
      exact .recorded
    · simp only [Function.update_of_ne here]
      exact kept.ops m
  · exact kept.targets
  · intro id inside
    rcases owned id inside with named | ⟨m,apart,carries⟩
    · exact .inl named
    · refine .inr ⟨m,?_⟩
      simp only [Function.update_of_ne apart]
      exact carries

theorem Kept.handles (kept : Kept w) (ended : Except String String) {n : Nat} {works : Bool} {job : CronJob} {timed : Bool} {now : Int}
    (found : w.ops n = .handling job timed (ExecutionResult.of ended)) (anchored : Anchoring w (.handle n works now)) :
    Kept (w.records n job timed ended works now) := by
  have sound := kept.ops n
  rw [found] at sound
  have carried : ∀ id, Carries id (w.ops n) → ended = .ok id ∧ creates job = true ∧ works = true := by
    intro id carries
    rw [found] at carries
    obtain ⟨unbound,same⟩ := carries
    cases ended with
    | error message => cases same
    | ok target =>
      cases same
      exact ⟨rfl,unbound,anchored _ _ _ found unbound⟩
  unfold World.records
  split
  · refine kept.moves ⟨sound.1,fun target same => sound.2 target (by rw [same]; rfl)⟩ fun id => ?_
    rcases kept.row.bound with empty | only
    · refine .inr fun carries => ?_
      obtain ⟨same,unbound,_⟩ := carried id carries
      exact ⟨unbound,same,empty⟩
    · by_cases same : w.row.conversationId = id
      · exact .inl same
      · refine .inr fun carries => ?_
        obtain ⟨rfl,_,_⟩ := carried id carries
        exact absurd (List.singleton_inj.mp (only.symm.trans (sound.2 id rfl))) same
  · next broken =>
    exact (kept.counts _).moves .recorded fun id => .inr fun carries => absurd (carried id carries).2.2 broken

theorem Kept.resolves (kept : Kept w) {n : Nat} {job : CronJob} {timed : Bool} {answer : Resolution} (found : w.ops n = .resolving job timed)
    (anchored : Anchoring w (.resolve n answer)) (taken : resolveConversation w n job timed answer = some after) : Kept after := by
  have sound := kept.ops n
  rw [found] at sound
  have idle : ∀ id, ¬Carries id (w.ops n) := by
    intro id carries
    rw [found] at carries
    exact carries
  cases answer with
  | refused message =>
    cases taken
    refine kept.moves ?_ fun id => .inr fun carries => absurd carries (idle id)
    unfold Op.refused
    split
    · exact ⟨sound,nofun⟩
    · trivial
  | found =>
    obtain ⟨bound,same⟩ := Option.ite_none_left_eq_some.mp taken
    cases same
    rw [creates_existing sound.mode] at bound
    have only := sound.bound.resolve_left bound
    have targeted : Kept { w with targets := w.targets ++ [job.conversationId] } := by
      refine ⟨kept.row,kept.named,kept.single,kept.ops,fun target inside => ?_,kept.owned⟩
      rcases List.mem_append.mp inside with before | added
      · exact kept.targets target before
      · rw [List.mem_singleton.mp added]
        exact only
    exact targeted.moves ⟨sound,only⟩ fun id => .inr fun carries => absurd carries (idle id)
  | created id workspace =>
    obtain ⟨⟨unbound,_,named⟩,same⟩ := Option.ite_none_right_eq_some.mp taken
    obtain ⟨empty,rfl⟩ := anchored
    cases same
    exact kept.opens empty found unbound named

theorem Kept.step {action : Action} (kept : Kept w) (anchored : Anchoring w action) (taken : step w action = some after) : Kept after := by
  cases action with
  | tick n =>
    simp only [CronRuns.step] at taken
    split at taken <;> cases taken
    next found =>
    split
    · refine kept.moves kept.row fun id => .inr fun carries => ?_
      rw [found] at carries
      exact carries.elim
    · exact kept
  | runNow n =>
    simp only [CronRuns.step] at taken
    split at taken <;> cases taken
    next found =>
    refine kept.moves kept.row fun id => .inr fun carries => ?_
    rw [found] at carries
    exact carries.elim
  | resolve n answer =>
    simp only [CronRuns.step] at taken
    split at taken
    · next found => exact kept.resolves found anchored taken
    · cases taken
  | claim n busy =>
    simp only [CronRuns.step] at taken
    split at taken <;> cases taken
    next job timed target found =>
    have sound := kept.ops n
    rw [found] at sound
    cases busy with
    | true =>
      refine kept.moves ?_ fun id => .inr fun carries => ?_
      · show Sound _ (Op.busy job timed)
        unfold Op.busy handleBusy
        split
        · refine ⟨sound.1,fun other same => ?_⟩
          split at same <;> cases same
        · trivial
      · rw [found] at carries
        exact absurd (anchored _ _ _ found carries.1) (by decide)
    | false =>
      refine kept.moves sound fun id => .inr fun carries => ?_
      rw [found] at carries
      exact carries
  | execute n ending =>
    simp only [CronRuns.step] at taken
    split at taken <;> cases taken
    next job timed target found =>
    have sound := kept.ops n
    rw [found] at sound
    refine kept.moves ⟨sound.1,fun other same => ?_⟩ fun id => .inr fun carries => ?_
    · cases ending with
      | sent =>
        cases same
        exact sound.2
      | busy message =>
        simp only [Ending.result,handleBusy] at same
        split at same
        · split at same <;> cases same
        · cases same
      | failed message => cases same
    · rw [found] at carries
      obtain ⟨unbound,rfl⟩ := carries
      cases anchored _ _ _ found unbound
      exact ⟨unbound,rfl⟩
  | handle n works now =>
    simp only [CronRuns.step] at taken
    split at taken <;> cases taken
    next job timed result found =>
    have sound := kept.ops n
    have carried : ∀ id, Carries id (w.ops n) → result = .success id := by
      intro id carries
      rw [found] at carries
      exact carries.2
    cases result with
    | success target => exact kept.handles (.ok target) found anchored
    | error message => exact kept.handles (.error message) found anchored
    | retrying attempt =>
      refine (kept.updates rfl rfl).moves trivial fun id => .inr fun carries => ?_
      cases carried id (by unfold World.tries at carries; split at carries <;> exact carries)
    | skipped =>
      refine (kept.updates rfl rfl).moves .recorded fun id => .inr fun carries => ?_
      cases carried id (by unfold World.tries at carries; split at carries <;> exact carries)
  | record n works =>
    simp only [CronRuns.step] at taken
    split at taken <;> cases taken
    next found => exact kept.records found anchored
  | reschedule n works next =>
    simp only [CronRuns.step] at taken
    split at taken <;> cases taken
    next job found =>
    refine (kept.updates (by split <;> rfl) (by split <;> rfl)).moves trivial fun id => .inr fun carries => ?_
    have before : Carries id (w.ops n) := by
      unfold World.tries at carries
      split at carries <;> exact carries
    rw [found] at before
    exact before.elim

end Anchors

section Examples

end Examples

end AlineaCopilot.CronRuns
