import AlineaCopilot.TeamRunFinish
import AlineaCopilot.TeamRunHistory
open AlineaCopilot.KeyedMaps AlineaCopilot.TransitionRuns

namespace AlineaCopilot.TeamRun

-- Where a `cancel_run` stands: before `begin_cancel`, before the mail is marked
-- as read, at the turns it still has to cancel. The callback of a turn that
-- starts too late ends in the same two calls.
inductive CancelTask where
  | checked (targetSlotId : Option String)
  | marking
  | cancelling (children : List ActiveChildTurn)
deriving DecidableEq

-- Whether the task will try to complete the cancellation.
def CancelTask.working : CancelTask → Bool
  | .checked _ => false
  | .marking | .cancelling _ => true

structure TeamSession where
  held : Option TeamRunRecord
  tasks : List CancelTask
deriving DecidableEq

def TeamSession.start : TeamSession := ⟨none,[]⟩

inductive SessionAction where
  | cancelRun (teamRunId : String) (targetSlotId : Option String)
  | proceed (task : Nat) (marked : Bool)
  | call (operation : Operation)
deriving DecidableEq

def checkCurrentRun (held : Option TeamRunRecord) (teamRunId : String) : Except TeamError Unit :=
  match currentRunId held with
  | none => .error (.invalidRequest "no active team run to cancel")
  | some current => if current ≠ teamRunId then .error (.invalidRequest s!"team run {teamRunId} is not active") else .ok ()

-- A child turn that starts in a run that is being cancelled is cancelled by the
-- callback that reports it.
def lateStart (held : Option TeamRunRecord) : Operation → List CancelTask
  | .recordChildStarted now reservationId child =>
    match (recordChildStarted now held reservationId child).result with
    | .cancelImmediately child => [.cancelling [child]]
    | .accepted | .ignored => []
  | _ => []

namespace TeamSession

def put (s : TeamSession) (task : Nat) (held : Option TeamRunRecord) (next : CancelTask) : TeamSession := ⟨held,s.tasks.set task next⟩

def drop (s : TeamSession) (task : Nat) (held : Option TeamRunRecord) : TeamSession := ⟨held,s.tasks.eraseIdx task⟩

-- Up to its next call of the manager. The mail is marked before the turns are
-- read, and where that fails `cancel_run` returns. What the port answers is
-- only logged.
def advance (s : TeamSession) (task : Nat) (marked : Bool) : CancelTask → TeamSession
  | .checked target =>
    let begun := beginCancel s.held target
    match begun.result with
    | .ok () => s.put task begun.held .marking
    | .error _ => s.drop task begun.held
  | .marking => if marked then s.put task s.held (.cancelling (activeChildTurns s.held)) else s.drop task s.held
  | .cancelling (child :: rest) => s.put task (recordChildCancelled s.held child).held (.cancelling rest)
  | .cancelling [] => s.drop task (tryCompleteCancelled s.held).held

-- `begin_cancel` is called by `cancel_run` alone.
def step (teamId : String) (s : TeamSession) : SessionAction → Option TeamSession
  | .cancelRun teamRunId target =>
    match checkCurrentRun s.held teamRunId with
    | .ok () => some { s with tasks := s.tasks ++ [.checked target] }
    | .error _ => some s
  | .proceed task marked => (s.tasks[task]?).map (s.advance task marked)
  | .call (.beginCancel _) => none
  | .call operation => some ⟨(perform teamId s.held operation).held,s.tasks ++ lateStart s.held operation⟩

-- A cancelled run all of whose turns have reported is held, and no one is left
-- to end it.
structure Wedged (s : TeamSession) (run : TeamRunRecord) : Prop where
  held : s.held = some run
  cancelling : run.status = .cancelling
  reported : run.outstanding = false
  alone : ∀ task ∈ s.tasks, task.working = false

def Freed (s : TeamSession) : Prop := ∀ run, ¬s.Wedged run

def Sound (s : TeamSession) : Prop := HeldWellFormed s.held

end TeamSession

-- The child, or the reservation, is all the run waits for.
def LastChild (run : TeamRunRecord) (slotId : String) : Prop :=
  (∀ id, run.startingReservations.lookup id = none) ∧ ∀ other, other ≠ slotId → run.activeChildTurns.lookup other = none

def LastReservation (run : TeamRunRecord) (id : String) : Prop :=
  (∀ other, other ≠ id → run.startingReservations.lookup other = none) ∧ ∀ slotId, run.activeChildTurns.lookup slotId = none

-- In a run that is being cancelled a turn that completes without a failure, or
-- starts under another run's id, is not the last one, and something is left to
-- report when the mail cannot be marked; or someone is still cancelling.
def TeamSession.Ends (s : TeamSession) : SessionAction → Prop
  | .call (.recordChildCompleted slotId turnId status) => ∀ run child, s.held = some run → run.status = .cancelling →
      run.activeChildTurns.lookup slotId = some child → child.turnId = turnId → status ≠ .failed → LastChild run slotId →
      ∃ task ∈ s.tasks, task.working = true
  | .call (.recordChildStarted _ id child) => ∀ run reservation, s.held = some run → run.status = .cancelling →
      run.startingReservations.lookup id = some reservation → child.teamRunId ≠ run.teamRunId → LastReservation run id →
      ∃ task ∈ s.tasks, task.working = true
  | .proceed task marked => s.tasks[task]? = some .marking → marked = false → ∀ run, s.held = some run → run.status = .cancelling →
      run.outstanding = false → ∃ other ∈ s.tasks.eraseIdx task, other.working = true
  | _ => True

section Sound
variable {teamId : String} {s next : TeamSession} {action : SessionAction}

theorem step_call (moved : s.step teamId (.call operation) = some next) :
    next = ⟨(perform teamId s.held operation).held,s.tasks ++ lateStart s.held operation⟩ ∧ ∀ target, operation ≠ .beginCancel target := by
  cases operation with
  | beginCancel => cases moved
  | _ =>
    cases moved
    exact ⟨rfl,fun _ same => nomatch same⟩

-- What tries to end a cancelled run leaves it only while something is outstanding.
theorem cancelled_ended {before run : TeamRunRecord} (kept : (maybeCancelledLocked before).held = some run) (cancelling : run.status = .cancelling) :
    run.outstanding = true := by
  obtain rfl := maybeCancelledLocked_some kept
  refine Bool.not_eq_false _ ▸ fun reported => ?_
  rw [maybeCancelledLocked_held,if_pos ⟨reported,cancelling⟩] at kept
  cases kept

-- A call that leaves a cancelled run without anything outstanding found it so,
-- or took the last child or reservation without trying to end the run.
theorem perform_cancelled {run : TeamRunRecord} {operation : Operation} (valid : HeldWellFormed held)
    (after : (perform teamId held operation).held = some run) (cancelling : run.status = .cancelling) (reported : run.outstanding = false)
    (other : ∀ target, operation ≠ .beginCancel target) :
    held = some run ∨
    (∃ slotId turnId status before child, operation = .recordChildCompleted slotId turnId status ∧ held = some before ∧
      before.activeChildTurns.lookup slotId = some child ∧ child.turnId = turnId ∧ status ≠ .failed ∧
      run = { before with activeChildTurns := before.activeChildTurns.erase slotId }) ∨
    ∃ now id child before reservation, operation = .recordChildStarted now id child ∧ held = some before ∧
      before.startingReservations.lookup id = some reservation ∧ child.teamRunId ≠ before.teamRunId ∧
      run = { before with startingReservations := before.startingReservations.erase id } := by
  cases operation with
  | acceptUserMessage freshId target role allow messageId =>
    simp only [perform,effect_held] at after
    rcases acceptUserMessage_cases teamId freshId held target role allow messageId with ⟨_,_,_,same⟩ | ⟨_,same⟩ <;> rw [same] at after
    · exact .inl after
    · cases after
      cases cancelling
  | recordPendingWake slotId role source =>
    simp only [perform,effect_held] at after
    rcases recordPendingWake_cases held slotId role source with ⟨_,_,same⟩ | ⟨before,_,active,_,rfl,same⟩ <;> rw [same] at after
    · exact .inl after
    · cases after
      exact absurd cancelling (active_not_cancelling active)
  | claimWakeForTurn freshId slotId role conversationId =>
    simp only [perform,effect_held] at after
    rcases claimWakeForTurn_cases freshId held slotId role conversationId with
      ⟨_,same⟩ | ⟨before,_,popped,_,active,taken,_,_,_,rfl,same⟩ <;> rw [same] at after
    · exact .inl after
    · cases after
      rw [(popWake_some taken).2] at cancelling
      exact absurd cancelling (active_not_cancelling active)
  | recordEmptyWakeObserved slotId =>
    simp only [perform,effect_held] at after
    rcases recordEmptyWakeObserved_cases held slotId with ⟨rfl,same⟩ | ⟨before,_,rfl,rfl,same⟩ <;> rw [same] at after
    · cases after
    · cases maybeCompleteLocked_some after
      cases taken : before.popWake slotId with
      | none => exact .inl rfl
      | some popped =>
        obtain ⟨⟨rest,queue,-⟩,kept⟩ := popWake_some taken
        rw [taken,Option.map_some,Option.getD_some,kept] at cancelling
        rw [(valid before rfl).no_wakes cancelling] at queue
        cases queue
  | recordChildStarted now id child =>
    simp only [perform,effect_held] at after
    rcases recordChildStarted_cases now held id child with
      ⟨_,same⟩ | ⟨before,reservation,rfl,found,⟨mismatch,same⟩ | ⟨_,_,_,_,_,rfl,_,same⟩⟩ <;> rw [same] at after
    · exact .inl after
    · cases after
      exact .inr (.inr ⟨now,id,child,before,reservation,rfl,rfl,found,Ne.symm mismatch,rfl⟩)
    · cases after
      have absent := (outstanding_false.mp reported).2.2 child.slotId
      rw [lookup_insert_eq,if_pos rfl] at absent
      cases absent
  | recordChildStartFailed id =>
    simp only [perform,effect_held] at after
    rcases recordChildStartFailed_cases held id with ⟨_,same⟩ | ⟨_,_,_,_,_,rfl,⟨_,same⟩ | ⟨_,_,same⟩⟩ <;> rw [same] at after
    · exact .inl after
    · exact absurd (cancelled_ended after cancelling) (Bool.eq_false_iff.mp reported)
    · cases after
  | recordChildCompleted slotId turnId status =>
    simp only [perform,effect_held] at after
    rcases recordChildCompleted_cases held slotId turnId status with
      ⟨_,same⟩ | ⟨before,child,_,_,rfl,found,turn,rfl,_,⟨_,same⟩ | ⟨well,same⟩⟩ <;> rw [same] at after
    · exact .inl after
    · cases after
    · exact .inr (.inl ⟨slotId,turnId,status,before,child,rfl,rfl,found,turn,well,maybeCompleteLocked_some after⟩)
  | maybeComplete =>
    simp only [perform,effect_held] at after
    rcases maybeComplete_cases held with ⟨rfl,same⟩ | ⟨before,rfl,same⟩ <;> rw [same] at after
    · cases after
    · cases maybeCompleteLocked_some after
      exact .inl rfl
  | beginCancel target => exact absurd rfl (other target)
  | tryCompleteCancelled =>
    simp only [perform,effect_held] at after
    rcases tryCompleteCancelled_cases held with ⟨rfl,same⟩ | ⟨before,rfl,same⟩ <;> rw [same] at after
    · cases after
    · exact absurd (cancelled_ended after cancelling) (Bool.eq_false_iff.mp reported)
  | completeFailed =>
    simp only [perform,effect_held] at after
    rcases completeFailed_cases held with ⟨rfl,same⟩ | ⟨before,rfl,same⟩ <;> rw [same] at after <;> cases after
  | beginCancelChild slotId =>
    simp only [perform,effect_held] at after
    rcases beginCancelChild_cases held slotId with
      ⟨_,same⟩ | ⟨_,_,_,_,_,same⟩ | ⟨before,_,_,_,_,active,_,_,_,rfl,same⟩ <;> rw [same] at after
    · exact .inl after
    · exact .inl after
    · cases after
      exact absurd cancelling (active_not_cancelling active)
  | recordChildCancelled child =>
    simp only [perform] at after
    rcases recordChildCancelled_cases held child with ⟨rfl,same⟩ | ⟨before,_,_,rfl,rfl,_,⟨_,same⟩ | ⟨awake,same⟩⟩ <;> rw [same] at after
    · cases after
    · exact absurd (cancelled_ended after cancelling) (Bool.eq_false_iff.mp reported)
    · cases after
      exact absurd cancelling awake

-- A run that is being cancelled is held as such until it is held no more.
theorem perform_stays {run after : TeamRunRecord} (valid : WellFormed run) (cancelling : run.status = .cancelling) (operation : Operation)
    (kept : (perform teamId (some run) operation).held = some after) : after.status = .cancelling := by
  have asleep {other : TeamRunRecord} (same : some run = some other) (active : other.isActive = true) : False := by
    cases same
    exact active_not_cancelling active cancelling
  cases operation with
  | acceptUserMessage freshId target role allow messageId =>
    simp only [perform,effect_held] at kept
    rcases acceptUserMessage_cases teamId freshId (some run) target role allow messageId with ⟨_,_,_,same⟩ | ⟨idle,_⟩
    · rw [same] at kept
      cases kept
      exact cancelling
    · exact absurd cancelling (idle run rfl).2
  | recordPendingWake slotId role source =>
    simp only [perform,effect_held] at kept
    rcases recordPendingWake_cases (some run) slotId role source with ⟨_,_,same⟩ | ⟨_,held,active,_⟩
    · rw [same] at kept
      cases kept
      exact cancelling
    · exact (asleep held active).elim
  | claimWakeForTurn freshId slotId role conversationId =>
    simp only [perform,effect_held] at kept
    rcases claimWakeForTurn_cases freshId (some run) slotId role conversationId with ⟨_,same⟩ | ⟨_,_,_,held,active,_⟩
    · rw [same] at kept
      cases kept
      exact cancelling
    · exact (asleep held active).elim
  | recordEmptyWakeObserved slotId =>
    simp only [perform,effect_held] at kept
    rcases recordEmptyWakeObserved_cases (some run) slotId with ⟨none_,_⟩ | ⟨_,_,held,rfl,same⟩
    · cases none_
    · cases held
      rw [same] at kept
      cases maybeCompleteLocked_some kept
      rw [popWake_none.mpr (valid.no_wakes cancelling slotId)]
      exact cancelling
  | recordChildStarted now id child =>
    simp only [perform,effect_held] at kept
    rcases recordChildStarted_cases now (some run) id child with
      ⟨_,same⟩ | ⟨_,_,held,_,⟨_,same⟩ | ⟨_,_,_,_,decided,rfl,_,same⟩⟩ <;> rw [same] at kept <;> cases kept
    · exact cancelling
    · cases held
      exact cancelling
    · cases held
      rw [cancelling,decide_eq_true rfl,Bool.true_or] at decided
      simp only [decided,if_true]
      exact cancelling
  | recordChildStartFailed id =>
    simp only [perform,effect_held] at kept
    rcases recordChildStartFailed_cases (some run) id with ⟨_,same⟩ | ⟨_,_,_,held,_,rfl,⟨_,same⟩ | ⟨_,_,same⟩⟩ <;> rw [same] at kept
    · cases kept
      exact cancelling
    · cases held
      cases maybeCancelledLocked_some kept
      exact cancelling
    · cases kept
  | recordChildCompleted slotId turnId status =>
    simp only [perform,effect_held] at kept
    rcases recordChildCompleted_cases (some run) slotId turnId status with
      ⟨_,same⟩ | ⟨_,_,_,_,held,_,_,rfl,_,⟨_,same⟩ | ⟨_,same⟩⟩ <;> rw [same] at kept
    · cases kept
      exact cancelling
    · cases kept
    · cases held
      cases maybeCompleteLocked_some kept
      exact cancelling
  | maybeComplete =>
    cases maybeCompleteLocked_some kept
    exact cancelling
  | beginCancel target =>
    simp only [perform,effect_held] at kept
    rcases beginCancel_cases (some run) target with ⟨_,same⟩ | ⟨_,_,held,active,_⟩
    · rw [same] at kept
      cases kept
      exact cancelling
    · exact (asleep held active).elim
  | tryCompleteCancelled =>
    cases maybeCancelledLocked_some kept
    exact cancelling
  | completeFailed => cases kept
  | beginCancelChild slotId =>
    simp only [perform,effect_held] at kept
    rcases beginCancelChild_cases (some run) slotId with ⟨_,same⟩ | ⟨_,_,held,active,_⟩ | ⟨_,_,_,_,held,active,_⟩
    · rw [same] at kept
      cases kept
      exact cancelling
    · exact (asleep held active).elim
    · exact (asleep held active).elim
  | recordChildCancelled child =>
    simp only [perform] at kept
    rcases recordChildCancelled_cases (some run) child with ⟨none_,_⟩ | ⟨_,_,_,held,rfl,_,⟨_,same⟩ | ⟨awake,_⟩⟩
    · cases none_
    · cases held
      rw [same] at kept
      cases maybeCancelledLocked_some kept
      exact cancelling
    · cases held
      exact absurd cancelling awake

-- What a step calls of the manager.
theorem step_performs (moved : s.step teamId action = some next) : next.held = s.held ∨ ∃ operation, next.held = (perform teamId s.held operation).held := by
  cases action with
  | cancelRun teamRunId target =>
    unfold TeamSession.step at moved
    dsimp only at moved
    split at moved <;> cases moved <;> exact .inl rfl
  | call operation =>
    obtain ⟨rfl,-⟩ := step_call moved
    exact .inr ⟨operation,rfl⟩
  | proceed task marked =>
    obtain ⟨current,-,rfl⟩ := Option.map_eq_some_iff.mp moved
    cases current with
    | checked target =>
      refine .inr ⟨.beginCancel target,?_⟩
      unfold TeamSession.advance
      dsimp only
      split <;> rfl
    | marking => cases marked <;> exact .inl rfl
    | cancelling children =>
      cases children with
      | nil => exact .inr ⟨.tryCompleteCancelled,rfl⟩
      | cons child rest => exact .inr ⟨.recordChildCancelled child,rfl⟩

theorem step_sound (valid : s.Sound) (moved : s.step teamId action = some next) : next.Sound := by
  rcases step_performs moved with same | ⟨operation,same⟩ <;> rw [TeamSession.Sound,same]
  · exact valid
  · exact perform_wellFormed teamId operation valid

theorem step_stays {run after : TeamRunRecord} (valid : HeldWellFormed s.held) (moved : s.step teamId action = some next) (held : s.held = some run)
    (cancelling : run.status = .cancelling) (kept : next.held = some after) : after.status = .cancelling ∧ after.teamRunId = run.teamRunId := by
  have known := valid run held
  rcases step_performs moved with same | ⟨operation,same⟩ <;> rw [same,held] at kept
  · cases kept
    exact ⟨cancelling,rfl⟩
  · refine ⟨perform_stays known cancelling operation kept,?_⟩
    rcases perform_origin teamId (held_some known) operation kept with ⟨_,_,_,_,_,_,idle⟩ | ⟨_,same,goes⟩
    · exact absurd cancelling (idle run rfl).2
    · cases same
      exact goes.id

theorem lastChild_iff {run : TeamRunRecord} (valid : WellFormed run) (cancelling : run.status = .cancelling) :
    { run with activeChildTurns := run.activeChildTurns.erase slotId }.outstanding = false ↔ LastChild run slotId := by
  rw [outstanding_false]
  refine ⟨fun ⟨_,starting,children⟩ => ⟨starting,fun other elsewhere => ?_⟩,fun ⟨starting,children⟩ => ⟨valid.no_wakes cancelling,starting,fun other => ?_⟩⟩
  · have absent := children other
    rwa [lookup_erase_eq,if_neg elsewhere] at absent
  · rw [lookup_erase_eq]
    split
    · rfl
    · exact children other ‹_›

theorem lastReservation_iff {run : TeamRunRecord} {id : String} (valid : WellFormed run) (cancelling : run.status = .cancelling) :
    { run with startingReservations := run.startingReservations.erase id }.outstanding = false ↔ LastReservation run id := by
  rw [outstanding_false]
  refine ⟨fun ⟨_,starting,children⟩ => ⟨fun other elsewhere => ?_,children⟩,fun ⟨starting,children⟩ => ⟨valid.no_wakes cancelling,fun other => ?_,children⟩⟩
  · have absent := starting other
    rwa [lookup_erase_eq,if_neg elsewhere] at absent
  · rw [lookup_erase_eq]
    split
    · rfl
    · exact starting other ‹_›

-- A task that goes on keeps the run attended.
theorem put_freed (place : s.tasks[task]? = some current) (works : later.working = true) : (s.put task held later).Freed := by
  intro run wedged
  have inside : later ∈ s.tasks.set task later := List.mem_set (List.getElem?_eq_some_iff.mp place).1 later
  rw [wedged.alone later inside] at works
  cases works

theorem drop_tasks (place : s.tasks[task]? = some current) (idle : current.working = false)
    (others : ∀ other ∈ s.tasks.eraseIdx task, other.working = false) : ∀ other ∈ s.tasks, other.working = false := by
  intro other member
  obtain ⟨index,found⟩ := List.getElem?_of_mem member
  by_cases here : index = task
  · rw [here,place] at found
    cases found
    exact idle
  · exact others other (List.mem_eraseIdx_iff_getElem?.mpr ⟨index,here,found⟩)

theorem advance_exact (freed : s.Freed) (place : s.tasks[task]? = some current) :
    (s.advance task marked current).Freed ↔ s.Ends (.proceed task marked) := by
  have other (different : current ≠ .marking) : s.Ends (.proceed task marked) := fun here =>
    absurd (Option.some.inj (place.symm.trans here)) different
  cases current with
  | checked target =>
    refine iff_of_true ?_ (other nofun)
    unfold TeamSession.advance
    dsimp only
    split
    · exact put_freed place rfl
    · rename_i error failed
      rcases beginCancel_cases s.held target with ⟨_,same⟩ | ⟨_,_,_,_,_,same⟩
      · rw [same]
        exact fun run wedged => freed run ⟨wedged.held,wedged.cancelling,wedged.reported,drop_tasks place rfl wedged.alone⟩
      · rw [same] at failed
        cases failed
  | marking =>
    cases marked with
    | true => exact iff_of_true (put_freed place rfl) fun _ failed => nomatch failed
    | false =>
      constructor
      · intro after _ _ run held cancelling reported
        by_contra none_
        exact after run ⟨held,cancelling,reported,fun task inside => Bool.eq_false_iff.mpr fun works => none_ ⟨task,inside,works⟩⟩
      · intro ends run wedged
        obtain ⟨task,inside,works⟩ := ends place rfl run wedged.held wedged.cancelling wedged.reported
        rw [wedged.alone task inside] at works
        cases works
  | cancelling children =>
    refine iff_of_true ?_ (other nofun)
    cases children with
    | cons child rest => exact put_freed place rfl
    | nil =>
      intro run wedged
      have after : (tryCompleteCancelled s.held).held = some run := wedged.held
      rcases tryCompleteCancelled_cases s.held with ⟨_,same⟩ | ⟨before,_,same⟩ <;> rw [same] at after
      · cases after
      · exact absurd (cancelled_ended after wedged.cancelling) (Bool.eq_false_iff.mp wedged.reported)

-- Where a call ends in a cancelled run with nothing outstanding, and no late
-- start begins to cancel, the tasks at work decide.
theorem call_exact (run : TeamRunRecord) (same : next = ⟨some run,s.tasks ++ []⟩) (cancelling : run.status = .cancelling) (reported : run.outstanding = false) :
    next.Freed ↔ ∃ task ∈ s.tasks, task.working = true := by
  subst same
  rw [List.append_nil]
  constructor
  · intro freed
    by_contra none_
    exact freed run ⟨rfl,cancelling,reported,fun task inside => Bool.eq_false_iff.mpr fun works => none_ ⟨task,inside,works⟩⟩
  · rintro ⟨task,inside,works⟩ other wedged
    rw [wedged.alone task inside] at works
    cases works

theorem completed_exact {slotId turnId : String} {status : TeamRunStatus} (valid : HeldWellFormed s.held) (freed : s.Freed)
    (moved : s.step teamId (.call (.recordChildCompleted slotId turnId status)) = some next) :
    next.Freed ↔ s.Ends (.call (.recordChildCompleted slotId turnId status)) := by
  obtain ⟨rfl,other⟩ := step_call moved
  constructor
  · intro after run child held cancelling found turn well last
    have reported := (lastChild_iff (valid run held) cancelling).mpr last
    refine (call_exact { run with activeChildTurns := run.activeChildTurns.erase slotId } ?_ cancelling reported).mp after
    have kept : (perform teamId s.held (.recordChildCompleted slotId turnId status)).held =
        some { run with activeChildTurns := run.activeChildTurns.erase slotId } := by
      rcases recordChildCompleted_cases s.held slotId turnId status with
        ⟨none_,_⟩ | ⟨before,_,_,_,held',_,_,rfl,_,⟨failed,_⟩ | ⟨_,same⟩⟩
      · exact absurd turn (none_ run child held found)
      · exact absurd failed well
      · cases held.symm.trans held'
        simp only [perform,effect_held,same]
        rw [maybeCompleteLocked_held,if_neg fun both => ?_]
        exact absurd cancelling (active_not_cancelling both.2)
    rw [kept]
    rfl
  · intro ends run wedged
    rcases perform_cancelled valid wedged.held wedged.cancelling wedged.reported other with
      held | ⟨_,_,_,before,child,same,held,found,turn,well,rfl⟩ | ⟨_,_,_,_,_,same,_⟩
    · exact freed run ⟨held,wedged.cancelling,wedged.reported,fun task inside => wedged.alone task (List.mem_append_left _ inside)⟩
    · cases same
      have last := (lastChild_iff (valid before held) wedged.cancelling).mp wedged.reported
      obtain ⟨task,inside,works⟩ := ends before child held wedged.cancelling found turn well last
      rw [wedged.alone task (List.mem_append_left _ inside)] at works
      cases works
    · cases same

theorem started_exact {now : Nat} {id : String} {child : ActiveChildTurn} (valid : HeldWellFormed s.held) (freed : s.Freed)
    (moved : s.step teamId (.call (.recordChildStarted now id child)) = some next) :
    next.Freed ↔ s.Ends (.call (.recordChildStarted now id child)) := by
  obtain ⟨rfl,other⟩ := step_call moved
  constructor
  · intro after run reservation held cancelling found mismatch last
    have reported := (lastReservation_iff (valid run held) cancelling).mpr last
    refine (call_exact { run with startingReservations := run.startingReservations.erase id } ?_ cancelling reported).mp after
    have ignored : recordChildStarted now s.held id child =
        .read (some { run with startingReservations := run.startingReservations.erase id }) .ignored := by
      rcases recordChildStarted_cases now s.held id child with ⟨none_,_⟩ | ⟨before,_,held',_,⟨_,same⟩ | ⟨matching,_⟩⟩
      · rw [none_ run held] at found
        cases found
      · cases held.symm.trans held'
        exact same
      · cases held.symm.trans held'
        exact absurd matching.symm mismatch
    simp only [perform,effect_held,lateStart,ignored,Critical.read]
  · intro ends run wedged
    rcases perform_cancelled valid wedged.held wedged.cancelling wedged.reported other with
      held | ⟨_,_,_,_,_,same,_⟩ | ⟨_,_,_,before,reservation,same,held,found,mismatch,rfl⟩
    · exact freed run ⟨held,wedged.cancelling,wedged.reported,fun task inside => wedged.alone task (List.mem_append_left _ inside)⟩
    · cases same
    · cases same
      have last := (lastReservation_iff (valid before held) wedged.cancelling).mp wedged.reported
      obtain ⟨task,inside,works⟩ := ends before reservation held wedged.cancelling found mismatch last
      rw [wedged.alone task (List.mem_append_left _ inside)] at works
      cases works

-- No other call takes away what a run waits for without trying to end it.
theorem ordinary_freed {operation : Operation} (valid : HeldWellFormed s.held) (freed : s.Freed) (moved : s.step teamId (.call operation) = some next)
    (completed : ∀ slotId turnId status, operation ≠ .recordChildCompleted slotId turnId status)
    (started : ∀ now id child, operation ≠ .recordChildStarted now id child) : next.Freed := by
  obtain ⟨rfl,other⟩ := step_call moved
  intro run wedged
  rcases perform_cancelled valid wedged.held wedged.cancelling wedged.reported other with
    held | ⟨slotId,turnId,status,_,_,same,_⟩ | ⟨now,id,child,_,_,same,_⟩
  · exact freed run ⟨held,wedged.cancelling,wedged.reported,fun task inside => wedged.alone task (List.mem_append_left _ inside)⟩
  · exact completed slotId turnId status same
  · exact started now id child same

theorem session_exact (valid : HeldWellFormed s.held) (freed : s.Freed) (moved : s.step teamId action = some next) :
    next.Freed ↔ s.Ends action := by
  cases action with
  | cancelRun teamRunId target =>
    refine iff_of_true ?_ trivial
    unfold TeamSession.step at moved
    dsimp only at moved
    split at moved <;> cases moved
    · exact fun run wedged => freed run
        ⟨wedged.held,wedged.cancelling,wedged.reported,fun task inside => wedged.alone task (List.mem_append_left _ inside)⟩
    · exact freed
  | proceed task marked =>
    obtain ⟨current,place,rfl⟩ := Option.map_eq_some_iff.mp moved
    exact advance_exact freed place
  | call operation =>
    cases operation with
    | recordChildCompleted => exact completed_exact valid freed moved
    | recordChildStarted => exact started_exact valid freed moved
    | _ => exact iff_of_true (ordinary_freed valid freed moved (fun _ _ _ same => nomatch same) fun _ _ _ same => nomatch same) trivial

end Sound

theorem freed_active {s : TeamSession} (reached : s.Sound) (freed : s.Freed) (idle : ∀ task ∈ s.tasks, task.working = false) {run : TeamRunRecord}
    (held : s.held = some run) (reported : run.outstanding = false) : run.isActive = true := by
  rcases (reached run held).live with active | cancelling
  · exact active
  · exact absurd ⟨held,cancelling,reported,idle⟩ (freed run)

-- Where every step ends what it should, and only there, no run stays cancelled
-- once all its turns have reported.
theorem cancelled_run_freed_iff (path : Runs (TeamSession.step teamId) .start actions s) :
    ((∀ earlier between, earlier <+: actions → Runs (TeamSession.step teamId) .start earlier between → between.Freed) ↔
      RunsWhere (TeamSession.step teamId) TeamSession.Ends .start actions s) ∧
    (∀ action next run after, s.step teamId action = some next → s.held = some run → run.status = .cancelling → next.held = some after →
      after.status = .cancelling ∧ after.teamRunId = run.teamRunId) ∧
    (s.Freed → (∀ task ∈ s.tasks, task.working = false) → ∀ run, s.held = some run → run.outstanding = false → run.isActive = true) ∧
    (s.held = none → ∀ freshId target messageId, ∃ ack, (acceptUserMessage teamId freshId s.held target .lead false messageId).result = .ok ack) := by
  have start : TeamSession.start.Sound := held_none
  have valid : s.Sound := path.invariant start fun _ _ _ valid moved => step_sound valid moved
  refine ⟨?_,?_,?_,?_⟩
  · exact Runs.always_exact start (fun run wedged => nomatch wedged.held) (fun _ _ _ valid moved => step_sound valid moved)
      (fun _ _ _ valid freed moved => session_exact valid freed moved) path
  · intro action next run after moved held cancelling kept
    exact step_stays valid moved held cancelling kept
  · intro freed idle run held reported
    exact freed_active valid freed idle held reported
  · intro none_ freshId target messageId
    rw [none_]
    exact ⟨_,rfl⟩

section Examples

-- The mail cannot be marked as read, so `cancel_run` returns before it cancels
-- the lead's turn. The turn completes, and the run stays.
private def wedging : List SessionAction := leadRunning.map .call ++
  [.cancelRun "run" none,.proceed 0 false,.proceed 0 false,.call (.recordChildCompleted "lead" "turn" .completed)]

theorem team_stays_wedged : ∃ (s : TeamSession) (run : TeamRunRecord), exec (TeamSession.step "team") .start wedging = some s ∧ s.tasks = [] ∧
    s.held = some run ∧ run.activeChildTurns = ∅ ∧ run.startingReservations = ∅ ∧
    (acceptUserMessage "team" "next" s.held "lead" .lead false none).result = .error (.invalidRequest "team run run is cancelling") :=
  ⟨_,_,rfl,rfl,rfl,rfl,rfl,rfl⟩

theorem cancelled_run_freed_marked : ∃ ack, (acceptUserMessage "team" "next" none "lead" .lead false none).result = .ok ack := by
  have path : Runs (TeamSession.step "team") .start (leadRunning.map .call ++
    [SessionAction.cancelRun "run" none,.proceed 0 true,.proceed 0 true,.proceed 0 true,.proceed 0 true]) ⟨none,[]⟩ := exec_exact.mp rfl
  exact (cancelled_run_freed_iff path).2.2.2 rfl "next" "lead" none

end Examples

end AlineaCopilot.TeamRun
