import AlineaCopilot.TeamRunAccounting
open AlineaCopilot.KeyedMaps AlineaCopilot.TransitionRuns AlineaCopilot.TeamRun AlineaCopilot.TeamRunAccounting

namespace AlineaCopilot.TeamRunEnding

-- A call that is on its way to a wake.
def sends : Task → Bool
  | .writing .. | .waking .. => true
  | .cancelRun _ | .cancelChild _ | .interrupted _ | .completing | .trying => false

-- A loop that will tell the manager to complete the run.
def tells : LoopStage → Bool
  | .late .. | .halted .. | .running .. | .reporting .. | .completing => true
  | .returned teamRunId turnId _ => teamRunId.isSome && turnId.isSome
  | .waiting | .woken _ | .sending .. => false

def late : LoopStage → Bool
  | .late .. => true
  | _ => false

-- A loop that will try to complete the cancellation.
def halts : LoopStage → Bool
  | .late .. | .halted .. => true
  | _ => false

def works : Task → Bool
  | .cancelRun task => task.working
  | _ => false

-- The task is going to take the slot's turn out of the run.
def covers (slotId : String) : Task → Prop
  | .cancelRun .marking => True
  | .cancelRun (.cancelling children) => ∃ child ∈ children, child.slotId = slotId
  | _ => False

def Sending (w : World) : Prop := (∃ task ∈ w.tasks, sends task = true) ∨ ∃ slotId, tells (w.loops slotId) = true

def Cancelling (w : World) : Prop := (∃ task ∈ w.tasks, works task = true) ∨ ∃ slotId, halts (w.loops slotId) = true

-- Whatever the run waits for has a loop that will report it, and a run that waits for
-- nothing has someone who will end it.
structure Ending (w : World) : Prop where
  valid : HeldWellFormed w.held
  attended : Attended w
  starting : ∀ run, w.held = some run → ∀ id reservation, run.startingReservations.lookup id = some reservation →
    ∃ slotId input, w.loops slotId = .sending input (some id)
  active : ∀ run, w.held = some run → run.isActive = true → run.outstanding = false → Sending w
  cancelled : ∀ run, w.held = some run → run.status = .cancelling → run.outstanding = false → Cancelling w
  covered : ∀ run, w.held = some run → run.status = .cancelling → ∀ slotId child, run.activeChildTurns.lookup slotId = some child →
    late (w.loops slotId) = true ∨ ∃ task ∈ w.tasks, covers slotId task

section Calls
variable {teamId : String} {held : Option TeamRunRecord} {run before : TeamRunRecord} {operation : Operation}

theorem tells_turn {stage : LoopStage} (turn : stage.turn = some turnId) : tells stage = true := by
  cases stage with
  | returned teamRunId turn' ok => cases teamRunId <;> cases turn' <;> first | rfl | cases turn
  | waiting | woken | sending | completing => cases turn
  | late | halted | running | reporting => rfl

theorem covers_works (covered : covers slotId task) : works task = true := by
  cases task with
  | cancelRun task =>
    cases task with
    | checked => exact covered.elim
    | marking | cancelling => rfl
  | writing | waking | cancelChild | interrupted | completing | trying => exact covered.elim

theorem completed_ended (kept : (maybeCompleteLocked before).held = some run) (active : run.isActive = true) : run.outstanding = true := by
  obtain rfl := maybeCompleteLocked_some kept
  refine Bool.not_eq_false _ ▸ fun reported => ?_
  rw [maybeCompleteLocked_held,if_pos ⟨reported,active⟩] at kept
  cases kept

-- After these calls an active run waits for something.
def finishes : Operation → Bool
  | .recordPendingWake .. | .maybeComplete => true
  | _ => false

-- A call that leaves an active run without anything outstanding found one so, opened
-- it, or took away the last reservation or child without trying to end the run.
theorem perform_idle (after : (perform teamId held operation).held = some run) (active : run.isActive = true) (reported : run.outstanding = false) :
    (finishes operation = false ∧ ∃ before, held = some before ∧ before.isActive = true ∧ before.outstanding = false) ∨
    (∃ freshId target role allow messageId, operation = .acceptUserMessage freshId target role allow messageId) ∨
    (∃ now id child, operation = .recordChildStarted now id child) ∨
    (∃ id, operation = .recordChildStartFailed id) ∨
    ∃ child before standing, operation = .recordChildCancelled child ∧ held = some before ∧
      before.activeChildTurns.lookup child.slotId = some standing := by
  obtain ⟨wakes,reservations,children⟩ := outstanding_false.mp reported
  have busy : run.outstanding ≠ true := by
    rw [reported]
    exact Bool.false_ne_true
  cases operation with
  | acceptUserMessage freshId target role allow messageId => exact .inr (.inl ⟨_,_,_,_,_,rfl⟩)
  | recordChildStarted now id child => exact .inr (.inr (.inl ⟨_,_,_,rfl⟩))
  | recordChildStartFailed id => exact .inr (.inr (.inr (.inl ⟨_,rfl⟩)))
  | recordPendingWake slotId role source =>
    simp only [perform,effect_held] at after
    rcases recordPendingWake_cases held slotId role source with ⟨asleep,_,same⟩ | ⟨before,_,_,_,rfl,same⟩ <;> rw [same] at after
    · rw [asleep run after] at active
      cases active
    · cases after
      have empty := wakes slotId
      rw [pendingWakesFor_push,if_pos rfl] at empty
      exact absurd empty (by simp)
  | claimWakeForTurn freshId slotId role conversationId =>
    simp only [perform,effect_held] at after
    rcases claimWakeForTurn_cases freshId held slotId role conversationId with ⟨_,same⟩ | ⟨_,_,_,_,_,_,_,_,_,rfl,same⟩ <;> rw [same] at after
    · exact .inl ⟨rfl,run,after,active,reported⟩
    · cases after
      have absent := reservations freshId
      rw [lookup_insert_eq,if_pos rfl] at absent
      cases absent
  | recordEmptyWakeObserved slotId =>
    simp only [perform,effect_held] at after
    rcases recordEmptyWakeObserved_cases held slotId with ⟨_,same⟩ | ⟨_,_,_,_,same⟩ <;> rw [same] at after
    · cases after
    · exact absurd (completed_ended after active) busy
  | recordChildCompleted slotId turnId status =>
    simp only [perform,effect_held] at after
    rcases recordChildCompleted_cases held slotId turnId status with ⟨_,same⟩ | ⟨_,_,_,_,_,_,_,_,_,⟨_,same⟩ | ⟨_,same⟩⟩ <;> rw [same] at after
    · exact .inl ⟨rfl,run,after,active,reported⟩
    · cases after
    · exact absurd (completed_ended after active) busy
  | maybeComplete =>
    simp only [perform,effect_held] at after
    rcases maybeComplete_cases held with ⟨_,same⟩ | ⟨_,_,same⟩ <;> rw [same] at after
    · cases after
    · exact absurd (completed_ended after active) busy
  | beginCancel target =>
    simp only [perform,effect_held] at after
    rcases beginCancel_cases held target with ⟨_,same⟩ | ⟨_,_,_,_,rfl,same⟩ <;> rw [same] at after
    · exact .inl ⟨rfl,run,after,active,reported⟩
    · cases after
      cases active
  | tryCompleteCancelled =>
    simp only [perform,effect_held] at after
    rcases tryCompleteCancelled_cases held with ⟨_,same⟩ | ⟨before,here,same⟩ <;> rw [same] at after
    · cases after
    · cases maybeCancelledLocked_some after
      exact .inl ⟨rfl,run,here,active,reported⟩
  | completeFailed =>
    simp only [perform,effect_held] at after
    rcases completeFailed_cases held with ⟨_,same⟩ | ⟨_,_,same⟩ <;> rw [same] at after <;> cases after
  | beginCancelChild slotId =>
    simp only [perform,effect_held] at after
    rcases beginCancelChild_cases held slotId with ⟨_,same⟩ | ⟨_,_,_,_,_,same⟩ | ⟨_,_,reservation,_,_,_,_,_,_,rfl,same⟩ <;> rw [same] at after
    · exact .inl ⟨rfl,run,after,active,reported⟩
    · exact .inl ⟨rfl,run,after,active,reported⟩
    · cases after
      have absent := reservations reservation.reservationId
      rw [lookup_insert_eq,if_pos rfl] at absent
      cases absent
  | recordChildCancelled child =>
    simp only [perform] at after
    rcases recordChildCancelled_cases held child with ⟨_,same⟩ | ⟨before,_,_,here,rfl,_,⟨halted,same⟩ | ⟨_,same⟩⟩ <;> rw [same] at after
    · cases after
    · cases maybeCancelledLocked_some after
      exact absurd halted (active_not_cancelling active)
    · cases after
      cases standing : before.activeChildTurns.lookup child.slotId with
      | some other => exact .inr (.inr (.inr (.inr ⟨child,before,other,rfl,here,standing⟩)))
      | none =>
        refine .inl ⟨rfl,before,here,active,outstanding_false.mpr ⟨wakes,reservations,fun slotId => ?_⟩⟩
        have absent := children slotId
        rw [lookup_erase_eq] at absent
        split at absent
        · rename_i equal
          rw [equal,standing]
        · exact absent

-- Only `begin_cancel` begins a cancellation.
theorem perform_cancelling (after : (perform teamId held operation).held = some run) (cancelling : run.status = .cancelling)
    (other : ∀ target, operation ≠ .beginCancel target) : ∃ before, held = some before ∧ before.status = .cancelling := by
  cases operation with
  | acceptUserMessage freshId target role allow messageId =>
    simp only [perform,effect_held] at after
    rcases acceptUserMessage_cases teamId freshId held target role allow messageId with ⟨_,_,_,same⟩ | ⟨_,same⟩ <;> rw [same] at after
    · exact ⟨run,after,cancelling⟩
    · cases after
      cases cancelling
  | recordPendingWake slotId role source =>
    simp only [perform,effect_held] at after
    rcases recordPendingWake_cases held slotId role source with ⟨_,_,same⟩ | ⟨before,here,_,_,rfl,same⟩ <;> rw [same] at after
    · exact ⟨run,after,cancelling⟩
    · cases after
      exact ⟨before,here,cancelling⟩
  | claimWakeForTurn freshId slotId role conversationId =>
    simp only [perform,effect_held] at after
    rcases claimWakeForTurn_cases freshId held slotId role conversationId with
      ⟨_,same⟩ | ⟨before,_,_,here,_,taken,_,_,_,rfl,same⟩ <;> rw [same] at after
    · exact ⟨run,after,cancelling⟩
    · cases after
      rw [(popWake_some taken).2] at cancelling
      exact ⟨before,here,cancelling⟩
  | recordEmptyWakeObserved slotId =>
    simp only [perform,effect_held] at after
    rcases recordEmptyWakeObserved_cases held slotId with ⟨_,same⟩ | ⟨before,_,here,rest,same⟩ <;> rw [same] at after
    · cases after
    · rw [maybeCompleteLocked_some after,rest,consumed_frame] at cancelling
      exact ⟨before,here,cancelling⟩
  | recordChildStarted now id child =>
    simp only [perform,effect_held] at after
    rcases recordChildStarted_cases now held id child with
      ⟨_,same⟩ | ⟨before,_,here,_,⟨_,same⟩ | ⟨_,cancel,_,_,_,rfl,_,same⟩⟩ <;> rw [same] at after
    · exact ⟨run,after,cancelling⟩
    · cases after
      exact ⟨before,here,cancelling⟩
    · cases after
      cases cancel with
      | true => exact ⟨before,here,cancelling⟩
      | false => cases cancelling
  | recordChildStartFailed id =>
    simp only [perform,effect_held] at after
    rcases recordChildStartFailed_cases held id with ⟨_,same⟩ | ⟨before,_,_,here,_,rfl,⟨_,same⟩ | ⟨_,_,same⟩⟩ <;> rw [same] at after
    · exact ⟨run,after,cancelling⟩
    · cases maybeCancelledLocked_some after
      exact ⟨before,here,cancelling⟩
    · cases after
  | recordChildCompleted slotId turnId status =>
    simp only [perform,effect_held] at after
    rcases recordChildCompleted_cases held slotId turnId status with ⟨_,same⟩ | ⟨before,_,_,_,here,_,_,rfl,_,⟨_,same⟩ | ⟨_,same⟩⟩ <;> rw [same] at after
    · exact ⟨run,after,cancelling⟩
    · cases after
    · cases maybeCompleteLocked_some after
      exact ⟨before,here,cancelling⟩
  | maybeComplete =>
    simp only [perform,effect_held] at after
    rcases maybeComplete_cases held with ⟨_,same⟩ | ⟨before,here,same⟩ <;> rw [same] at after
    · cases after
    · cases maybeCompleteLocked_some after
      exact ⟨run,here,cancelling⟩
  | beginCancel target => exact absurd rfl (other target)
  | tryCompleteCancelled =>
    simp only [perform,effect_held] at after
    rcases tryCompleteCancelled_cases held with ⟨_,same⟩ | ⟨before,here,same⟩ <;> rw [same] at after
    · cases after
    · cases maybeCancelledLocked_some after
      exact ⟨run,here,cancelling⟩
  | completeFailed =>
    simp only [perform,effect_held] at after
    rcases completeFailed_cases held with ⟨_,same⟩ | ⟨_,_,same⟩ <;> rw [same] at after <;> cases after
  | beginCancelChild slotId =>
    simp only [perform,effect_held] at after
    rcases beginCancelChild_cases held slotId with ⟨_,same⟩ | ⟨_,_,_,_,_,same⟩ | ⟨before,_,_,_,here,_,_,_,_,rfl,same⟩ <;> rw [same] at after
    · exact ⟨run,after,cancelling⟩
    · exact ⟨run,after,cancelling⟩
    · cases after
      exact ⟨before,here,cancelling⟩
  | recordChildCancelled child =>
    simp only [perform] at after
    rcases recordChildCancelled_cases held child with ⟨_,same⟩ | ⟨before,_,_,here,rfl,_,⟨halted,same⟩ | ⟨_,same⟩⟩ <;> rw [same] at after
    · cases after
    · exact ⟨before,here,halted⟩
    · cases after
      exact ⟨before,here,cancelling⟩

end Calls

section Worlds
variable {teamId : String} {w next : World} {operation : Operation}

theorem call_held (made : w.call teamId operation = some next) :
    next.held = (perform teamId w.held operation).held ∧ next.loops = w.loops ∧ next.tasks = w.tasks := by
  obtain ⟨-,history,-,-,-,loops,tasks⟩ := call_some made
  exact ⟨congrArg History.held history,loops,tasks⟩

theorem Ending.tasks (ending : Ending w) {tasks : List Task}
    (sending : (∃ task ∈ w.tasks, sends task = true) → (∃ task ∈ tasks, sends task = true) ∨
      ∀ run, w.held = some run → run.isActive = true → run.outstanding = true)
    (working : (∃ task ∈ w.tasks, works task = true) → (∃ task ∈ tasks, works task = true) ∨
      ∀ run, w.held = some run → run.status = .cancelling → run.outstanding = true)
    (covering : ∀ slotId, (∃ task ∈ w.tasks, covers slotId task) → (∃ task ∈ tasks, covers slotId task) ∨
      ∀ run, w.held = some run → run.activeChildTurns.lookup slotId = none) : Ending { w with tasks := tasks } := by
  refine ⟨ending.valid,ending.attended,ending.starting,?_,?_,?_⟩
  · intro run here active reported
    rcases ending.active run here active reported with task | loop
    · rcases sending task with still | busy
      · exact .inl still
      · rw [busy run here active] at reported
        cases reported
    · exact .inr loop
  · intro run here cancelling reported
    rcases ending.cancelled run here cancelling reported with task | loop
    · rcases working task with still | busy
      · exact .inl still
      · rw [busy run here cancelling] at reported
        cases reported
    · exact .inr loop
  · intro run here cancelling slotId child found
    rcases ending.covered run here cancelling slotId child found with stage | task
    · exact .inl stage
    · rcases covering slotId task with still | gone
      · exact .inr still
      · have absent := gone run here
        rw [found] at absent
        cases absent

theorem Ending.empty (ending : Ending w) (idle : (w.loops slotId).turn = none) :
    ∀ run, w.held = some run → run.activeChildTurns.lookup slotId = none := by
  intro run here
  cases found : run.activeChildTurns.lookup slotId with
  | none => rfl
  | some child =>
    have stands := ending.attended run here slotId child found
    rw [idle] at stands
    cases stands

-- A loop moves on: what it leaves behind is nothing the run still waits for.
structure Leaves (w : World) (slotId : String) (stage : LoopStage) : Prop where
  turn : stage.turn = (w.loops slotId).turn ∨ ∀ run, w.held = some run → run.activeChildTurns.lookup slotId = none
  owner : ∀ input id, w.loops slotId = .sending input (some id) → ∀ run, w.held = some run → run.startingReservations.lookup id = none
  telling : tells (w.loops slotId) = true → tells stage = true ∨ ∀ run, w.held = some run → run.isActive = true → run.outstanding = true
  halting : halts (w.loops slotId) = true → halts stage = true ∨ ∀ run, w.held = some run → run.status = .cancelling → run.outstanding = true
  lateness : late (w.loops slotId) = true → late stage = true ∨ ∀ run, w.held = some run → run.activeChildTurns.lookup slotId = none

theorem Ending.moves (ending : Ending w) {stage : LoopStage} (leaves : Leaves w slotId stage) : Ending (w.moves slotId stage) := by
  have here_ : (w.moves slotId stage).loops slotId = stage := Function.update_self ..
  have there {other : String} (apart : other ≠ slotId) : (w.moves slotId stage).loops other = w.loops other := Function.update_of_ne apart ..
  refine ⟨ending.valid,?_,?_,?_,?_,?_⟩
  · intro run here other child found
    have stands := ending.attended run here other child found
    by_cases equal : other = slotId
    · subst equal
      rw [here_]
      rcases leaves.turn with kept | gone
      · rw [kept]
        exact stands
      · rw [gone run here] at found
        cases found
    · rw [there equal]
      exact stands
  · intro run here id reservation found
    obtain ⟨owner,input,stands⟩ := ending.starting run here id reservation found
    by_cases equal : owner = slotId
    · subst equal
      rw [leaves.owner input id stands run here] at found
      cases found
    · exact ⟨owner,input,(there equal).trans stands⟩
  · intro run here active reported
    rcases ending.active run here active reported with task | ⟨owner,loop⟩
    · exact .inl task
    · by_cases equal : owner = slotId
      · subst equal
        rcases leaves.telling loop with still | busy
        · exact .inr ⟨owner,by rw [here_]; exact still⟩
        · rw [busy run here active] at reported
          cases reported
      · exact .inr ⟨owner,by rw [there equal]; exact loop⟩
  · intro run here cancelling reported
    rcases ending.cancelled run here cancelling reported with task | ⟨owner,loop⟩
    · exact .inl task
    · by_cases equal : owner = slotId
      · subst equal
        rcases leaves.halting loop with still | busy
        · exact .inr ⟨owner,by rw [here_]; exact still⟩
        · rw [busy run here cancelling] at reported
          cases reported
      · exact .inr ⟨owner,by rw [there equal]; exact loop⟩
  · intro run here cancelling other child found
    rcases ending.covered run here cancelling other child found with stage_ | task
    · by_cases equal : other = slotId
      · subst equal
        rcases leaves.lateness stage_ with still | gone
        · exact .inl (by rw [here_]; exact still)
        · rw [gone run here] at found
          cases found
      · exact .inl (by rw [there equal]; exact stage_)
    · exact .inr task

-- What a call needs of the tasks and loops around it.
def Permitted (w : World) : Operation → Prop
  | .acceptUserMessage .. => ∃ task ∈ w.tasks, sends task = true
  | .claimWakeForTurn freshId .. => ∃ slotId input, w.loops slotId = .sending input (some freshId)
  | .recordChildStarted .. | .recordChildStartFailed _ => False
  | .recordChildCompleted slotId _ _ => late (w.loops slotId) = false
  | .beginCancel _ => .cancelRun .marking ∈ w.tasks
  | _ => True

theorem Ending.call (ending : Ending w) (made : w.call teamId operation = some next) (permitted : Permitted w operation) : Ending next := by
  obtain ⟨held,loops,tasks⟩ := call_held made
  have entering : Entering w operation := by
    cases operation with
    | recordChildStarted => exact permitted.elim
    | _ => trivial
  refine ⟨?_,ending.attended.call ending.valid entering made,?_,?_,?_,?_⟩
  · rw [held]
    exact perform_wellFormed teamId operation ending.valid
  · intro run here id reservation found
    rw [loops]
    rcases perform_origin teamId ending.valid operation (held ▸ here) with ⟨_,_,_,_,_,fresh,_⟩ | ⟨before,before_,goes⟩
    · rw [fresh] at found
      simp at found
    · rcases goes.reservations id reservation found with ⟨old,there⟩ | ⟨_,_,_,rfl⟩
      · exact ending.starting before before_ id old there
      · exact permitted
  · intro run here active reported
    rw [Sending,loops,tasks]
    rcases perform_idle (held ▸ here) active reported with
      ⟨-,before,before_,awake,idle⟩ | ⟨_,_,_,_,_,rfl⟩ | ⟨_,_,_,rfl⟩ | ⟨_,rfl⟩ | ⟨child,before,standing,rfl,before_,there⟩
    · exact ending.active before before_ awake idle
    · exact .inl permitted
    · exact permitted.elim
    · exact permitted.elim
    · exact .inr ⟨child.slotId,tells_turn (ending.attended before before_ child.slotId standing there)⟩
  · intro run here cancelling reported
    rw [Cancelling,loops,tasks]
    by_cases begun : ∃ target, operation = .beginCancel target
    · obtain ⟨target,rfl⟩ := begun
      exact .inl ⟨_,permitted,rfl⟩
    · rcases perform_cancelled ending.valid (held ▸ here) cancelling reported (not_exists.mp begun) with
        same | ⟨slotId,_,_,before,child,rfl,before_,found,_,_,rfl⟩ | ⟨_,_,_,_,_,rfl,_⟩
      · exact ending.cancelled run same cancelling reported
      · rcases ending.covered before before_ cancelling slotId child found with stage | ⟨task,inside,covered⟩
        · rw [show late (w.loops slotId) = false from permitted] at stage
          cases stage
        · exact .inl ⟨task,inside,covers_works covered⟩
      · exact permitted.elim
  · intro run here cancelling slotId child found
    rw [loops,tasks]
    by_cases begun : ∃ target, operation = .beginCancel target
    · obtain ⟨target,rfl⟩ := begun
      exact .inr ⟨_,permitted,trivial⟩
    · obtain ⟨before,before_,halted⟩ := perform_cancelling (held ▸ here) cancelling (not_exists.mp begun)
      rcases perform_origin teamId ending.valid operation (held ▸ here) with ⟨_,_,_,_,_,fresh,_⟩ | ⟨old,old_,goes⟩
      · rw [fresh] at found
        simp at found
      · cases before_.symm.trans old_
        rcases goes.children slotId child found with there | ⟨_,_,rfl⟩
        · exact ending.covered before before_ halted slotId child there
        · exact permitted.elim

end Worlds

-- No call of a port, the mailbox or the database fails, and a port that is given a
-- callback calls it before it answers.
def Served (w : World) : Action → Prop
  | .proceed _ ok _ => ok = true
  | .fail _ => False
  | .answer slotId _ _ => ∀ input id, w.loops slotId ≠ .sending input (some id)
  | _ => True

-- A turn that starts under another run's id is not the last thing a cancelled run
-- waits for, or someone is at work to end it.
def Named (w : World) : Action → Prop
  | .started slotId _ _ => ∀ input id run reservation, w.loops slotId = .sending input (some id) → w.held = some run →
      run.status = .cancelling → run.startingReservations.lookup id = some reservation → input.teamRunId ≠ some run.teamRunId →
      LastReservation run id → Cancelling w
  | _ => True

section Starts
variable {teamId slotId id turnId : String} {stage : LoopStage} {w next : World}

theorem Ending.congr (ending : Ending w) (held : next.held = w.held) (loops : next.loops = w.loops) (tasks : next.tasks = w.tasks) :
    Ending next := by
  obtain ⟨valid,attended,starting,active,cancelled,covered⟩ := ending
  refine ⟨?_,?_,?_,?_,?_,?_⟩
  · rwa [held]
  · rwa [Attended,held,loops]
  · rwa [held,loops]
  · rwa [held,Sending,loops,tasks]
  · rwa [held,Cancelling,loops,tasks]
  · rwa [held,loops,tasks]

-- The turn a callback reports takes the place of the reservation in the slot's loop.
structure Begun (w next : World) (slotId id turnId : String) (stage : LoopStage) : Prop where
  loops : next.loops = Function.update w.loops slotId stage
  tasks : next.tasks = w.tasks
  sending : ∃ input, w.loops slotId = .sending input (some id)
  turn : stage.turn = some turnId
  children : ∀ run, next.held = some run → ∃ before, w.held = some before ∧
    (∀ other child, run.activeChildTurns.lookup other = some child → before.activeChildTurns.lookup other = some child ∨ other = slotId ∧ child.turnId = turnId) ∧
    (∀ other reservation, run.startingReservations.lookup other = some reservation → other ≠ id ∧
      ∃ old, before.startingReservations.lookup other = some old) ∧
    (run.status = .cancelling → before.status = .cancelling)

theorem Ending.begun (ending : Ending w) (begun : Begun w next slotId id turnId stage) (valid : HeldWellFormed next.held)
    (cancelled : ∀ run, next.held = some run → run.status = .cancelling → run.outstanding = false → Cancelling w)
    (lateness : ∀ run, next.held = some run → run.status = .cancelling → ∀ child, run.activeChildTurns.lookup slotId = some child →
      late stage = true) : Ending next := by
  obtain ⟨loops,tasks,⟨input,sending⟩,turn,children⟩ := begun
  have here_ : next.loops slotId = stage := by
    rw [loops]
    exact Function.update_self ..
  have there {other : String} (apart : other ≠ slotId) : next.loops other = w.loops other := by
    rw [loops]
    exact Function.update_of_ne apart ..
  have vacant := ending.empty (show (w.loops slotId).turn = none by rw [sending]; rfl)
  refine ⟨valid,?_,?_,?_,?_,?_⟩
  · intro run here other child found
    obtain ⟨before,before_,stays,-,-⟩ := children run here
    by_cases equal : other = slotId
    · subst equal
      rcases stays other child found with old | ⟨-,same⟩
      · rw [vacant before before_] at old
        cases old
      · rw [here_,turn,same]
    · rcases stays other child found with old | ⟨same,-⟩
      · rw [there equal]
        exact ending.attended before before_ other child old
      · exact absurd same equal
  · intro run here other reservation found
    obtain ⟨before,before_,-,stays,-⟩ := children run here
    obtain ⟨apart,old,earlier⟩ := stays other reservation found
    obtain ⟨owner,input',stands⟩ := ending.starting before before_ other old earlier
    refine ⟨owner,input',?_⟩
    by_cases equal : owner = slotId
    · rw [equal,sending] at stands
      cases stands
      exact absurd rfl apart
    · rw [there equal]
      exact stands
  · intro run here active reported
    exact .inr ⟨slotId,by rw [here_]; exact tells_turn turn⟩
  · intro run here cancelling reported
    rcases cancelled run here cancelling reported with task | ⟨owner,loop⟩
    · exact .inl (by rw [tasks]; exact task)
    · refine .inr ⟨owner,?_⟩
      by_cases equal : owner = slotId
      · rw [equal,sending] at loop
        cases loop
      · rw [there equal]
        exact loop
  · intro run here cancelling other child found
    obtain ⟨before,before_,stays,-,status⟩ := children run here
    by_cases equal : other = slotId
    · subst equal
      exact .inl (by rw [here_]; exact lateness run here cancelling child found)
    · rcases stays other child found with old | ⟨same,-⟩
      · rw [there equal,tasks]
        exact ending.covered before before_ (status cancelling) other child old
      · exact absurd same equal

theorem Ending.started (ending : Ending w) {teamRunId conversationId : String} {role : TeamRunTargetRole} {now : Nat}
    (sending : w.loops slotId = .sending ⟨some teamRunId,conversationId,role⟩ (some id)) (named : Named w (.started slotId turnId now))
    (moved : (w.moves slotId (afterStart teamRunId turnId (recordChildStarted now w.held id ⟨teamRunId,slotId,role,conversationId,turnId⟩).result)).call
      teamId (.recordChildStarted now id ⟨teamRunId,slotId,role,conversationId,turnId⟩) = some next) : Ending next := by
  have turn := afterStart_turn w.held now id teamRunId ⟨teamRunId,slotId,role,conversationId,turnId⟩
  rw [call_moves] at moved
  obtain ⟨after,made,rfl⟩ := Option.map_eq_some_iff.mp moved
  obtain ⟨held,loops,tasks⟩ := call_held made
  have valid : HeldWellFormed after.held := held ▸ perform_wellFormed teamId _ ending.valid
  simp only [perform,effect_held] at held
  rcases recordChildStarted_cases now w.held id ⟨teamRunId,slotId,role,conversationId,turnId⟩ with
    ⟨absent,same⟩ | ⟨run,reservation,here,found,⟨mismatch,same⟩ | ⟨matching,cancel,_,_,decided,rfl,_,same⟩⟩ <;> rw [same] at turn held ⊢
  · have leaves : Leaves w slotId (.running teamRunId turnId) := by
      refine ⟨.inr (ending.empty ?_),?_,fun _ => .inl rfl,?_,?_⟩
      · rw [sending]
        rfl
      · intro input other stands run here
        rw [sending] at stands
        cases stands
        exact absent run here
      · intro halting
        rw [sending] at halting
        cases halting
      · intro lateness
        rw [sending] at lateness
        cases lateness
    refine (ending.moves leaves).congr held ?_ tasks
    show Function.update after.loops slotId _ = Function.update w.loops slotId _
    rw [loops]
    rfl
  · refine ending.begun ⟨?_,tasks,⟨_,sending⟩,turn,?_⟩ valid ?_ ?_
    · show Function.update after.loops slotId _ = _
      rw [loops]
    · intro after_ there
      cases held.symm.trans there
      refine ⟨run,here,fun _ _ found => .inl found,fun other stored found => ?_,fun cancelling => cancelling⟩
      rw [lookup_erase_eq] at found
      split at found
      · cases found
      · exact ⟨‹_›,stored,found⟩
    · intro after_ there cancelling reported
      cases held.symm.trans there
      have known := ending.valid run here
      exact named _ id run reservation sending here cancelling found (fun equal => mismatch (Option.some.inj equal).symm)
        ((lastReservation_iff known cancelling).mp reported)
    · intro after_ there cancelling child inside
      cases held.symm.trans there
      rw [ending.empty (by rw [sending]; rfl) run here] at inside
      cases inside
  · refine ending.begun ⟨?_,tasks,⟨_,sending⟩,turn,?_⟩ valid ?_ ?_
    · show Function.update after.loops slotId _ = _
      rw [loops]
    · intro after_ there
      cases held.symm.trans there
      refine ⟨run,here,fun other child found => ?_,fun other stored found => ?_,fun cancelling => ?_⟩
      · rw [lookup_insert_eq] at found
        split at found
        · cases found
          exact .inr ⟨‹_›,rfl⟩
        · exact .inl found
      · rw [lookup_erase_eq] at found
        split at found
        · cases found
        · exact ⟨‹_›,stored,found⟩
      · cases cancel with
        | true => exact cancelling
        | false => cases cancelling
    · intro after_ there cancelling reported
      cases held.symm.trans there
      have absent := (outstanding_false.mp reported).2.2 slotId
      rw [lookup_insert_eq,if_pos rfl] at absent
      cases absent
    · intro after_ there cancelling child inside
      cases held.symm.trans there
      cases cancel with
      | true => rfl
      | false => cases cancelling

end Starts

section Tasks
variable {teamId slotId : String} {n : Nat} {w next : World} {task later : Task} {tasks : List Task} {operation : Operation}

theorem exists_drop {p : Task → Prop} (place : tasks[n]? = some task) (idle : ¬p task) (there : ∃ other ∈ tasks, p other) :
    ∃ other ∈ tasks.eraseIdx n, p other := by
  obtain ⟨other,inside,holds⟩ := there
  obtain ⟨index,found⟩ := List.getElem?_of_mem inside
  refine ⟨other,List.mem_eraseIdx_iff_getElem?.mpr ⟨index,?_,found⟩,holds⟩
  rintro rfl
  rw [place] at found
  cases found
  exact idle holds

theorem exists_put {p : Task → Prop} (place : tasks[n]? = some task) (kept : p task → p later) (there : ∃ other ∈ tasks, p other) :
    ∃ other ∈ tasks.set n later, p other := by
  obtain ⟨bound,-⟩ := List.getElem?_eq_some_iff.mp place
  by_cases here : p task
  · exact ⟨later,List.mem_set bound later,kept here⟩
  · obtain ⟨other,inside,holds⟩ := there
    obtain ⟨index,found⟩ := List.getElem?_of_mem inside
    refine ⟨other,List.mem_of_getElem? (i := index) ?_,holds⟩
    rw [List.getElem?_set_ne]
    · exact found
    · rintro rfl
      rw [place] at found
      cases found
      exact here holds

-- A task that goes is none the run still waits for.
theorem Ending.drops (ending : Ending w) (place : w.tasks[n]? = some task)
    (sending : sends task = true → ∀ run, w.held = some run → run.isActive = true → run.outstanding = true)
    (working : works task = true → ∀ run, w.held = some run → run.status = .cancelling → run.outstanding = true)
    (covering : ∀ slotId, ¬covers slotId task) : Ending (w.drop n) := by
  refine ending.tasks (fun there => ?_) (fun there => ?_) fun slotId there => .inl (exists_drop place (covering slotId) there)
  · by_cases here : sends task = true
    · exact .inr (sending here)
    · exact .inl (exists_drop place here there)
  · by_cases here : works task = true
    · exact .inr (working here)
    · exact .inl (exists_drop place here there)

theorem Ending.puts (ending : Ending w) (place : w.tasks[n]? = some task) (sending : sends task = true → sends later = true)
    (working : works task = true → works later = true)
    (covering : ∀ slotId, covers slotId task → covers slotId later ∨ ∀ run, w.held = some run → run.activeChildTurns.lookup slotId = none) :
    Ending (w.put n later) := by
  refine ending.tasks (fun there => .inl (exists_put place sending there)) (fun there => .inl (exists_put place working there)) fun slotId there => ?_
  by_cases here : covers slotId task
  · rcases covering slotId here with still | gone
    · exact .inl (exists_put place (fun _ => still) there)
    · exact .inr gone
  · exact .inl (exists_put place (fun covered => absurd covered here) there)

theorem Ending.adds (ending : Ending w) (task : Task) : Ending (w.adds task) := by
  have more {p : Task → Prop} (there : ∃ other ∈ w.tasks, p other) : ∃ other ∈ w.tasks ++ [task], p other := by
    obtain ⟨other,inside,holds⟩ := there
    exact ⟨other,List.mem_append_left _ inside,holds⟩
  exact ending.tasks (fun there => .inl (more there)) (fun there => .inl (more there)) fun _ there => .inl (more there)

end Tasks

section Steps
variable {teamId slotId : String} {w next : World} {stage : LoopStage} {operation : Operation} {action : Action}

end Steps

end AlineaCopilot.TeamRunEnding
