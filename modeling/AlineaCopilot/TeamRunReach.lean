import AlineaCopilot.TransitionRuns
import AlineaCopilot.TeamRunCalls
open AlineaCopilot.KeyedMaps AlineaCopilot.TransitionRuns

namespace AlineaCopilot.TeamRun

-- What every record the lock guards satisfies, whatever calls were made on it.
structure WellFormed (run : TeamRunRecord) : Prop where
  live : run.isActive = true ∨ run.status = .cancelling
  queued : ∀ slotId queue, run.pendingWakes.lookup slotId = some queue →
    queue ≠ [] ∧ ∀ wake ∈ queue, wake.slotId = slotId
  reserved : ∀ id reservation, run.startingReservations.lookup id = some reservation →
    reservation.reservationId = id ∧ reservation.teamRunId = run.teamRunId
  children : ∀ slotId child, run.activeChildTurns.lookup slotId = some child →
    child.slotId = slotId ∧ child.teamRunId = run.teamRunId
  drained : run.status = .cancelling → ∀ slotId, run.pendingWakes.lookup slotId = none
  halted : run.status = .cancelling → ∀ id reservation,
    run.startingReservations.lookup id = some reservation → reservation.state = .cancelling

def HeldWellFormed (held : Option TeamRunRecord) : Prop := ∀ run, held = some run → WellFormed run

theorem WellFormed.queue {run : TeamRunRecord} (valid : WellFormed run) (slotId : String) :
    ∀ wake ∈ run.pendingWakesFor slotId, wake.slotId = slotId := by
  unfold TeamRunRecord.pendingWakesFor
  cases found : run.pendingWakes.lookup slotId with
  | none => simp
  | some queue => exact (valid.queued slotId queue found).2

theorem WellFormed.no_wakes {run : TeamRunRecord} (valid : WellFormed run) (cancelling : run.status = .cancelling)
    (slotId : String) : run.pendingWakesFor slotId = [] := by
  simp [TeamRunRecord.pendingWakesFor,valid.drained cancelling slotId]

theorem WellFormed.eraseReservation {run : TeamRunRecord} (valid : WellFormed run) (id : String) :
    WellFormed { run with startingReservations := run.startingReservations.erase id } := by
  have kept : ∀ key reservation, (run.startingReservations.erase id).lookup key = some reservation →
      run.startingReservations.lookup key = some reservation := by
    intro key reservation found
    rw [lookup_erase_eq] at found
    split at found <;> simp_all
  exact ⟨valid.live,valid.queued,fun key reservation found => valid.reserved key reservation (kept _ _ found),
    valid.children,valid.drained,
    fun cancelling key reservation found => valid.halted cancelling key reservation (kept _ _ found)⟩

theorem WellFormed.eraseChild {run : TeamRunRecord} (valid : WellFormed run) (slotId : String) :
    WellFormed { run with activeChildTurns := run.activeChildTurns.erase slotId } := by
  refine ⟨valid.live,valid.queued,valid.reserved,?_,valid.drained,valid.halted⟩
  intro key child found
  rw [lookup_erase_eq] at found
  split at found
  · cases found
  · exact valid.children key child found

theorem WellFormed.insertChild {run : TeamRunRecord} (valid : WellFormed run) (same : child.teamRunId = run.teamRunId)
    (startedAt : Option Nat) (status : TeamRunStatus)
    (kept : status = run.status ∨ (run.status ≠ .cancelling ∧ status = .running)) :
    WellFormed { run with
      startedAt := startedAt
      status := status
      activeChildTurns := run.activeChildTurns.insert child.slotId child } := by
  have live : status = .cancelling → run.status = .cancelling := by
    rcases kept with rfl | ⟨_,rfl⟩
    · exact id
    · intro impossible; cases impossible
  refine ⟨?_,valid.queued,valid.reserved,?_,fun c => valid.drained (live c),fun c => valid.halted (live c)⟩
  · rcases kept with rfl | ⟨_,rfl⟩
    · exact valid.live
    · exact .inl rfl
  · intro key stored found
    rw [lookup_insert_eq] at found
    split at found
    · cases Option.some.inj found
      exact ⟨by symm; assumption,same⟩
    · exact valid.children key stored found

theorem WellFormed.insertReservation {run : TeamRunRecord} (valid : WellFormed run)
    (reservation : StartingChildReservation) (same : reservation.teamRunId = run.teamRunId)
    (halted : run.status = .cancelling → reservation.state = .cancelling) :
    WellFormed { run with
      startingReservations := run.startingReservations.insert reservation.reservationId reservation } := by
  refine ⟨valid.live,valid.queued,?_,valid.children,valid.drained,?_⟩
  · intro key stored found
    rw [lookup_insert_eq] at found
    split at found
    · cases Option.some.inj found
      exact ⟨by symm; assumption,same⟩
    · exact valid.reserved key stored found
  · intro cancelling key stored found
    rw [lookup_insert_eq] at found
    split at found
    · cases Option.some.inj found
      exact halted cancelling
    · exact valid.halted cancelling key stored found

theorem WellFormed.pushWake {run : TeamRunRecord} (valid : WellFormed run) (active : run.isActive = true)
    (same : wake.slotId = slotId) :
    WellFormed { run with pendingWakes := run.pendingWakes.insert slotId (run.pendingWakesFor slotId ++ [wake]) } := by
  have awake : run.status ≠ .cancelling := fun cancelling => by simp [cancelling_not_active cancelling] at active
  refine ⟨valid.live,?_,valid.reserved,valid.children,fun c => absurd c awake,fun c => absurd c awake⟩
  intro key queue found
  rw [lookup_insert_eq] at found
  split at found
  · rename_i equal
    cases Option.some.inj found
    refine ⟨by simp,fun stored member => ?_⟩
    rcases List.mem_append.mp member with old | new
    · exact equal ▸ valid.queue slotId stored old
    · rw [List.mem_singleton.mp new,same,equal]
  · exact valid.queued key queue found

theorem WellFormed.popWake {run next : TeamRunRecord} (valid : WellFormed run)
    (popped : run.popWake slotId = some (pending,next)) : WellFormed next ∧ pending.slotId = slotId := by
  have queued := valid.queue slotId
  unfold TeamRunRecord.popWake at popped
  split at popped
  · cases popped
  · rename_i head rest queue
    cases Option.some.inj popped
    rw [queue] at queued
    have awake : run.status ≠ .cancelling := fun cancelling => by simp [valid.no_wakes cancelling] at queue
    refine ⟨⟨valid.live,?_,valid.reserved,valid.children,fun c => absurd c awake,fun c => absurd c awake⟩,
      queued _ List.mem_cons_self⟩
    intro key stored found
    by_cases empty : rest = []
    · simp only [empty,List.isEmpty_nil,if_true,lookup_erase_eq] at found
      split at found
      · cases found
      · exact valid.queued key stored found
    · simp only [List.isEmpty_eq_false_iff.mpr empty,Bool.false_eq_true,if_false,lookup_insert_eq] at found
      split at found
      · rename_i equal
        cases Option.some.inj found
        exact ⟨empty,fun wake member => equal ▸ queued wake (List.mem_cons_of_mem _ member)⟩
      · exact valid.queued key stored found

theorem WellFormed.cancel {run : TeamRunRecord} (valid : WellFormed run) :
    WellFormed { run with
      status := .cancelling
      pendingWakes := ∅
      startingReservations := mapValues ({ · with state := .cancelling }) run.startingReservations } := by
  refine ⟨.inr rfl,by simp,?_,valid.children,by simp,?_⟩
  · intro key stored found
    simp only [lookup_mapValues,Option.map_eq_some_iff] at found
    obtain ⟨old,found,rfl⟩ := found
    exact valid.reserved key old found
  · intro _ key stored found
    simp only [lookup_mapValues,Option.map_eq_some_iff] at found
    obtain ⟨old,found,rfl⟩ := found
    rfl

theorem wellFormed_fresh (id teamId target : String) (role : TeamRunTargetRole) :
    WellFormed ⟨id,teamId,target,role,.accepted,none,∅,∅,∅⟩ := by
  refine ⟨.inl rfl,?_,?_,?_,?_,?_⟩ <;> simp

-- The calls a team run manager serves, each under its state lock.
inductive Operation where
  | acceptUserMessage (freshId targetSlotId : String) (targetRole : TeamRunTargetRole)
      (allowActiveIntervention : Bool) (messageId : Option String)
  | recordPendingWake (slotId : String) (targetRole : TeamRunTargetRole) (wakeSource : TeamWakeSource)
  | claimWakeForTurn (freshId slotId : String) (role : TeamRunTargetRole) (conversationId : String)
  | recordEmptyWakeObserved (slotId : String)
  | recordChildStarted (now : Nat) (reservationId : String) (child : ActiveChildTurn)
  | recordChildStartFailed (reservationId : String)
  | recordChildCompleted (slotId turnId : String) (status : TeamRunStatus)
  | maybeComplete
  | beginCancel (targetSlotId : Option String)
  | tryCompleteCancelled
  | completeFailed
  | beginCancelChild (slotId : String)
  | recordChildCancelled (child : ActiveChildTurn)
deriving DecidableEq

-- A call's effect on the guarded record and its broadcasts, without its result.
def Critical.effect (critical : Critical β) : Critical Unit := { critical with result := () }

def perform (teamId : String) (held : Option TeamRunRecord) : Operation → Critical Unit
  | .acceptUserMessage freshId target role allow messageId =>
    (acceptUserMessage teamId freshId held target role allow messageId).effect
  | .recordPendingWake slotId role source => (recordPendingWake held slotId role source).effect
  | .claimWakeForTurn freshId slotId role conversationId => (claimWakeForTurn freshId held slotId role conversationId).effect
  | .recordEmptyWakeObserved slotId => (recordEmptyWakeObserved held slotId).effect
  | .recordChildStarted now reservationId child => (recordChildStarted now held reservationId child).effect
  | .recordChildStartFailed reservationId => (recordChildStartFailed held reservationId).effect
  | .recordChildCompleted slotId turnId status => (recordChildCompleted held slotId turnId status).effect
  | .maybeComplete => (maybeComplete held).effect
  | .beginCancel target => (beginCancel held target).effect
  | .tryCompleteCancelled => (tryCompleteCancelled held).effect
  | .completeFailed => (completeFailed held).effect
  | .beginCancelChild slotId => (beginCancelChild held slotId).effect
  | .recordChildCancelled child => recordChildCancelled held child

@[simp] theorem effect_held (critical : Critical β) : critical.effect.held = critical.held := rfl

theorem held_none : HeldWellFormed none := by simp [HeldWellFormed]

theorem held_some (valid : WellFormed run) : HeldWellFormed (some run) := by
  intro other same
  cases Option.some.inj same
  exact valid

theorem maybeCompleteLocked_wellFormed (valid : WellFormed run) : HeldWellFormed (maybeCompleteLocked run).held := by
  rw [maybeCompleteLocked_held]
  split
  · exact held_none
  · exact held_some valid

theorem maybeCancelledLocked_wellFormed (valid : WellFormed run) : HeldWellFormed (maybeCancelledLocked run).held := by
  rw [maybeCancelledLocked_held]
  split
  · exact held_none
  · exact held_some valid

theorem acceptUserMessage_wellFormed (valid : HeldWellFormed held) :
    HeldWellFormed (acceptUserMessage teamId freshId held target role allow messageId).held := by
  rcases acceptUserMessage_cases teamId freshId held target role allow messageId with ⟨_,_,_,same⟩ | ⟨_,same⟩
  · rw [same]; exact valid
  · rw [same]; exact held_some (wellFormed_fresh _ _ _ _)

theorem recordPendingWake_wellFormed (valid : HeldWellFormed held) :
    HeldWellFormed (recordPendingWake held slotId role source).held := by
  rcases recordPendingWake_cases held slotId role source with ⟨_,_,same⟩ | ⟨run,rfl,active,_,rfl,same⟩
  · rw [same]; exact valid
  · rw [same]; exact held_some ((valid run rfl).pushWake active rfl)

theorem claimWakeForTurn_wellFormed (valid : HeldWellFormed held) :
    HeldWellFormed (claimWakeForTurn freshId held slotId role conversationId).held := by
  rcases claimWakeForTurn_cases freshId held slotId role conversationId with
    ⟨_,same⟩ | ⟨run,pending,popped,rfl,active,taken,reservation,_,made,rfl,same⟩
  · rw [same]; exact valid
  · rw [same]
    obtain ⟨popping,_⟩ := (valid run rfl).popWake taken
    have status : popped.status = run.status := by rw [(popWake_some taken).2]
    have id : popped.teamRunId = run.teamRunId := by rw [(popWake_some taken).2]
    have inserted := popping.insertReservation reservation (by rw [made,id])
      fun cancelling => absurd (status ▸ cancelling) (active_not_cancelling active)
    rw [made] at inserted ⊢
    exact held_some inserted

theorem recordEmptyWakeObserved_wellFormed (valid : HeldWellFormed held) :
    HeldWellFormed (recordEmptyWakeObserved held slotId).held := by
  rcases recordEmptyWakeObserved_cases held slotId with ⟨rfl,same⟩ | ⟨run,_,rfl,rfl,same⟩
  · rw [same]; exact valid
  · rw [same]
    refine maybeCompleteLocked_wellFormed ?_
    cases taken : run.popWake slotId with
    | none => exact valid run rfl
    | some popped => exact ((valid run rfl).popWake taken).1

theorem recordChildStarted_wellFormed (valid : HeldWellFormed held) :
    HeldWellFormed (recordChildStarted now held reservationId child).held := by
  rcases recordChildStarted_cases now held reservationId child with
    ⟨_,same⟩ | ⟨run,reservation,rfl,found,⟨_,same⟩ | ⟨matching,shouldCancel,_,_,decided,rfl,_,same⟩⟩
  · rw [same]; exact valid
  · rw [same]; exact held_some ((valid run rfl).eraseReservation _)
  · rw [same]
    refine held_some (((valid run rfl).eraseReservation reservationId).insertChild matching.symm _ _ ?_)
    cases shouldCancel
    · refine .inr ⟨?_,by simp⟩
      simp only [Bool.false_eq,Bool.or_eq_false_iff,decide_eq_false_iff_not] at decided
      exact decided.1
    · exact .inl (by simp)

theorem recordChildStartFailed_wellFormed (valid : HeldWellFormed held) :
    HeldWellFormed (recordChildStartFailed held reservationId).held := by
  rcases recordChildStartFailed_cases held reservationId with
    ⟨_,same⟩ | ⟨run,reservation,_,rfl,found,rfl,⟨_,same⟩ | ⟨_,_,same⟩⟩
  · rw [same]; exact valid
  · rw [same]; exact maybeCancelledLocked_wellFormed ((valid run rfl).eraseReservation _)
  · rw [same]; exact held_none

theorem recordChildCompleted_wellFormed (valid : HeldWellFormed held) :
    HeldWellFormed (recordChildCompleted held slotId turnId status).held := by
  rcases recordChildCompleted_cases held slotId turnId status with
    ⟨_,same⟩ | ⟨run,child,_,_,rfl,found,_,rfl,_,⟨_,same⟩ | ⟨_,same⟩⟩
  · rw [same]; exact valid
  · rw [same]; exact held_none
  · rw [same]; exact maybeCompleteLocked_wellFormed ((valid run rfl).eraseChild _)

theorem maybeComplete_wellFormed (valid : HeldWellFormed held) : HeldWellFormed (maybeComplete held).held := by
  rcases maybeComplete_cases held with ⟨rfl,same⟩ | ⟨run,rfl,same⟩
  · rw [same]; exact valid
  · rw [same]; exact maybeCompleteLocked_wellFormed (valid run rfl)

theorem tryCompleteCancelled_wellFormed (valid : HeldWellFormed held) :
    HeldWellFormed (tryCompleteCancelled held).held := by
  rcases tryCompleteCancelled_cases held with ⟨rfl,same⟩ | ⟨run,rfl,same⟩
  · rw [same]; exact valid
  · rw [same]; exact maybeCancelledLocked_wellFormed (valid run rfl)

theorem completeFailed_wellFormed : HeldWellFormed (completeFailed held).held := by
  rcases completeFailed_cases held with ⟨rfl,same⟩ | ⟨run,rfl,same⟩ <;> rw [same] <;> exact held_none

theorem beginCancel_wellFormed (valid : HeldWellFormed held) : HeldWellFormed (beginCancel held target).held := by
  rcases beginCancel_cases held target with ⟨_,same⟩ | ⟨run,_,rfl,_,rfl,same⟩
  · rw [same]; exact valid
  · rw [same]; exact held_some (valid run rfl).cancel

theorem beginCancelChild_wellFormed (valid : HeldWellFormed held) :
    HeldWellFormed (beginCancelChild held slotId).held := by
  rcases beginCancelChild_cases held slotId with
    ⟨_,same⟩ | ⟨_,_,_,_,_,same⟩ | ⟨run,id,reservation,_,rfl,_,_,found,_,rfl,same⟩
  · rw [same]; exact valid
  · rw [same]; exact valid
  · rw [same]
    exact held_some ((valid run rfl).insertReservation { reservation with state := .cancelling } ((valid run rfl).reserved id _ found).2 fun _ => rfl)

theorem recordChildCancelled_wellFormed (valid : HeldWellFormed held) :
    HeldWellFormed (recordChildCancelled held child).held := by
  rcases recordChildCancelled_cases held child with ⟨rfl,same⟩ | ⟨run,_,_,rfl,rfl,_,⟨_,same⟩ | ⟨_,same⟩⟩
  · rw [same]; exact valid
  · rw [same]; exact maybeCancelledLocked_wellFormed ((valid run rfl).eraseChild _)
  · rw [same]; exact held_some ((valid run rfl).eraseChild _)

theorem perform_wellFormed (teamId : String) (operation : Operation) (valid : HeldWellFormed held) :
    HeldWellFormed (perform teamId held operation).held := by
  cases operation with
  | acceptUserMessage => exact acceptUserMessage_wellFormed valid
  | recordPendingWake => exact recordPendingWake_wellFormed valid
  | claimWakeForTurn => exact claimWakeForTurn_wellFormed valid
  | recordEmptyWakeObserved => exact recordEmptyWakeObserved_wellFormed valid
  | recordChildStarted => exact recordChildStarted_wellFormed valid
  | recordChildStartFailed => exact recordChildStartFailed_wellFormed valid
  | recordChildCompleted => exact recordChildCompleted_wellFormed valid
  | maybeComplete => exact maybeComplete_wellFormed valid
  | beginCancel => exact beginCancel_wellFormed valid
  | tryCompleteCancelled => exact tryCompleteCancelled_wellFormed valid
  | completeFailed => exact completeFailed_wellFormed
  | beginCancelChild => exact beginCancelChild_wellFormed valid
  | recordChildCancelled => exact recordChildCancelled_wellFormed valid

-- Every state a manager can be in: any calls, in any order, with any arguments.
def operate (teamId : String) (held : Option TeamRunRecord) (operation : Operation) : Option (Option TeamRunRecord) :=
  some (perform teamId held operation).held

def Reachable (teamId : String) (held : Option TeamRunRecord) : Prop :=
  ∃ operations, Runs (operate teamId) none operations held

theorem Reachable.wellFormed (reached : Reachable teamId held) : HeldWellFormed held := by
  obtain ⟨operations,path⟩ := reached
  refine path.invariant held_none fun before operation after valid performed => ?_
  cases Option.some.inj performed
  exact perform_wellFormed teamId operation valid

end AlineaCopilot.TeamRun
