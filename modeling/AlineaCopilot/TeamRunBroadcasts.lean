import AlineaCopilot.TeamRunHistory
open AlineaCopilot.KeyedMaps AlineaCopilot.TransitionRuns

namespace AlineaCopilot.TeamRun

def TeamRunEventName.terminal : TeamRunEventName → Bool
  | .completed | .cancelled | .failed => true
  | _ => false

-- The events between the first and the last of a run.
def TeamRunEventName.middle : TeamRunEventName → Bool
  | .started | .updated => true
  | _ => false

-- The team.run events of one run, in their order.
def runNames (runId : String) (events : List TeamEvent) : List TeamRunEventName :=
  events.filterMap fun
    | .teamRun name payload => if payload.teamRunId = runId then some name else none
    | .childTurn .. => none

-- The turns whose end was told, in the order of the telling.
def closedTurns (events : List TeamEvent) : List String :=
  events.filterMap fun
    | .childTurn .completed payload | .childTurn .cancelled payload => some payload.turnId
    | _ => none

@[simp] theorem runNames_nil (runId : String) : runNames runId [] = [] := rfl

@[simp] theorem closedTurns_nil : closedTurns [] = [] := rfl

theorem runNames_append (runId : String) (one two : List TeamEvent) :
    runNames runId (one ++ two) = runNames runId one ++ runNames runId two := List.filterMap_append

theorem closedTurns_append (one two : List TeamEvent) :
    closedTurns (one ++ two) = closedTurns one ++ closedTurns two := List.filterMap_append

@[simp] theorem runNames_run (runId : String) (name : TeamRunEventName) (payload : TeamRunPayload) (rest : List TeamEvent) :
    runNames runId (.teamRun name payload :: rest) =
      if runId = payload.teamRunId then name :: runNames runId rest else runNames runId rest := by
  by_cases same : runId = payload.teamRunId
  · simp [runNames,same]
  · simp [runNames,same,Ne.symm same]

@[simp] theorem runNames_child (runId : String) (name : TeamChildTurnEventName) (payload : TeamChildTurnPayload)
    (rest : List TeamEvent) : runNames runId (.childTurn name payload :: rest) = runNames runId rest := rfl

@[simp] theorem closedTurns_run (name : TeamRunEventName) (payload : TeamRunPayload) (rest : List TeamEvent) :
    closedTurns (.teamRun name payload :: rest) = closedTurns rest := rfl

@[simp] theorem closedTurns_started (payload : TeamChildTurnPayload) (rest : List TeamEvent) :
    closedTurns (.childTurn .started payload :: rest) = closedTurns rest := rfl

@[simp] theorem closedTurns_completed (payload : TeamChildTurnPayload) (rest : List TeamEvent) :
    closedTurns (.childTurn .completed payload :: rest) = payload.turnId :: closedTurns rest := rfl

@[simp] theorem closedTurns_cancelled (payload : TeamChildTurnPayload) (rest : List TeamEvent) :
    closedTurns (.childTurn .cancelled payload :: rest) = payload.turnId :: closedTurns rest := rfl

@[simp] theorem payload_run (run : TeamRunRecord) : run.payload.teamRunId = run.teamRunId := rfl

@[simp] theorem payload_turn (teamId : String) (child : ActiveChildTurn) (status : TeamRunStatus) :
    (childPayload teamId child status).turnId = child.turnId := rfl

-- What a call broadcasts about runs, under the lock and after it: these names,
-- all of them about this run.
structure Told (runId : String) (critical : Critical Unit) (locked deferred : List TeamRunEventName) : Prop where
  locked : ∀ other, runNames other critical.locked = if other = runId then locked else []
  deferred : ∀ other, runNames other critical.deferred = if other = runId then deferred else []

-- A call goes on with the run and tells nothing final, or ends it and says so once.
inductive Speaks (run : TeamRunRecord) (critical : Critical Unit) : Prop where
  | goesOn (next : TeamRunRecord) (locked deferred : List TeamRunEventName) (held : critical.held = some next)
      (same : next.teamRunId = run.teamRunId) (told : Told run.teamRunId critical locked deferred)
      (middle : ∀ name ∈ locked ++ deferred, name.middle = true)
  | ends (locked deferred : List TeamRunEventName) (name : TeamRunEventName) (held : critical.held = none)
      (told : Told run.teamRunId critical locked deferred) (last : name.terminal = true)
      (once : locked = [name] ∧ deferred = [] ∨ locked = [] ∧ deferred = [name])

theorem told_silent {critical : Critical Unit} (locked : ∀ other, runNames other critical.locked = [])
    (deferred : ∀ other, runNames other critical.deferred = []) : Told runId critical [] [] :=
  ⟨fun other => by rw [locked,ite_self],fun other => by rw [deferred,ite_self]⟩

theorem runNames_one (runId : String) (name : TeamRunEventName) (payload : TeamRunPayload) (same : payload.teamRunId = own) :
    runNames runId [.teamRun name payload] = if runId = own then [name] else [] := by
  subst same
  rw [runNames_run,runNames_nil]

theorem told_locked {critical : Critical Unit} (same : payload.teamRunId = runId)
    (locked : ∀ other, runNames other critical.locked = runNames other [.teamRun name payload])
    (deferred : ∀ other, runNames other critical.deferred = []) : Told runId critical [name] [] :=
  ⟨fun other => by rw [locked,runNames_one other name payload same],fun other => by rw [deferred,ite_self]⟩

theorem told_deferred {critical : Critical Unit} (same : payload.teamRunId = runId)
    (locked : ∀ other, runNames other critical.locked = [])
    (deferred : ∀ other, runNames other critical.deferred = runNames other [.teamRun name payload]) :
    Told runId critical [] [name] :=
  ⟨fun other => by rw [locked,ite_self],fun other => by rw [deferred,runNames_one other name payload same]⟩

-- An empty wake that is observed changes the queues alone.
theorem consumed_frame (run : TeamRunRecord) (slotId : String) :
    ((run.popWake slotId).map Prod.snd).getD run =
      { run with pendingWakes := (((run.popWake slotId).map Prod.snd).getD run).pendingWakes } := by
  cases taken : run.popWake slotId with
  | none => rfl
  | some popped => exact (popWake_some taken).2

section Speaks
variable {run consumed removed next : TeamRunRecord} {critical : Critical Unit}

theorem speaks_quiet (held : critical.held = some next) (same : next.teamRunId = run.teamRunId)
    (locked : ∀ other, runNames other critical.locked = []) (deferred : ∀ other, runNames other critical.deferred = []) :
    Speaks run critical := .goesOn next [] [] held same (told_silent locked deferred) (by simp)

theorem speaks_read : Speaks run (.read (some run) ()) := speaks_quiet rfl rfl (fun _ => rfl) fun _ => rfl

-- A broadcast under the lock or after it, by a call that goes on.
theorem speaks_locked (held : critical.held = some next) (same : next.teamRunId = run.teamRunId)
    (locked : ∀ other, runNames other critical.locked = runNames other [.teamRun .updated next.payload])
    (deferred : ∀ other, runNames other critical.deferred = []) : Speaks run critical :=
  .goesOn next [.updated] [] held same (told_locked same locked deferred) (by simp [TeamRunEventName.middle])

theorem speaks_deferred (held : critical.held = some next) (same : next.teamRunId = run.teamRunId)
    (middle : name.middle = true) (locked : ∀ other, runNames other critical.locked = [])
    (deferred : ∀ other, runNames other critical.deferred = runNames other [.teamRun name next.payload]) :
    Speaks run critical :=
  .goesOn next [] [name] held same (told_deferred same locked deferred) (by simp [middle])

theorem speaks_failed (held : critical.held = none) (same : payload.teamRunId = run.teamRunId)
    (locked : ∀ other, runNames other critical.locked = [])
    (deferred : ∀ other, runNames other critical.deferred = runNames other [.teamRun .failed payload]) :
    Speaks run critical :=
  .ends [] [.failed] .failed held (told_deferred same locked deferred) rfl (.inr ⟨rfl,rfl⟩)

-- The finishers broadcast under the lock. What else the call tells is about a child.
theorem speaks_maybeComplete (same : consumed.teamRunId = run.teamRunId)
    (held : critical.held = (maybeCompleteLocked consumed).held)
    (locked : ∀ other, runNames other critical.locked = runNames other (maybeCompleteLocked consumed).events)
    (deferred : ∀ other, runNames other critical.deferred = []) : Speaks run critical := by
  rcases maybeCompleteLocked_cases consumed with ⟨_,shape⟩ | ⟨_,_,shape⟩ | ⟨_,_,shape⟩ <;> rw [shape] at held locked
  · exact speaks_locked held same locked deferred
  · exact .ends [.completed] [] .completed held (told_locked same locked deferred) rfl (.inl ⟨rfl,rfl⟩)
  · exact speaks_quiet held same locked deferred

theorem speaks_maybeCancelled (same : removed.teamRunId = run.teamRunId)
    (held : critical.held = (maybeCancelledLocked removed).held)
    (locked : ∀ other, runNames other critical.locked = runNames other (maybeCancelledLocked removed).events)
    (deferred : ∀ other, runNames other critical.deferred = []) : Speaks run critical := by
  rcases maybeCancelledLocked_cases removed with ⟨_,shape⟩ | ⟨_,_,shape⟩ | ⟨_,_,shape⟩ <;> rw [shape] at held locked
  · exact speaks_quiet held same locked deferred
  · exact speaks_locked held same locked deferred
  · exact .ends [.cancelled] [] .cancelled held (told_locked same locked deferred) rfl (.inl ⟨rfl,rfl⟩)

end Speaks

theorem perform_speaks (teamId : String) (live : run.isActive = true ∨ run.status = .cancelling) (operation : Operation) :
    Speaks run (perform teamId (some run) operation) := by
  cases operation with
  | acceptUserMessage freshId target role allow messageId =>
    rcases acceptUserMessage_cases teamId freshId (some run) target role allow messageId with ⟨_,_,_,same⟩ | ⟨idle,_⟩
    · rw [perform,same]
      exact speaks_read
    · simp [idle run rfl] at live
  | recordPendingWake slotId role source =>
    rcases recordPendingWake_cases (some run) slotId role source with ⟨_,_,same⟩ | ⟨_,held,_,_,rfl,same⟩ <;>
      rw [perform,same]
    · exact speaks_read
    · cases Option.some.inj held
      exact speaks_locked rfl rfl (fun _ => rfl) fun _ => rfl
  | claimWakeForTurn freshId slotId role conversationId =>
    rcases claimWakeForTurn_cases freshId (some run) slotId role conversationId with
      ⟨_,same⟩ | ⟨_,_,popped,held,_,taken,_,_,_,rfl,same⟩ <;> rw [perform,same]
    · exact speaks_read
    · cases Option.some.inj held
      have own : popped.teamRunId = run.teamRunId := by rw [(popWake_some taken).2]
      exact speaks_deferred rfl own rfl (fun _ => rfl) fun _ => rfl
  | recordEmptyWakeObserved slotId =>
    rcases recordEmptyWakeObserved_cases (some run) slotId with ⟨none,_⟩ | ⟨_,consumed,held,made,same⟩
    · cases none
    · cases Option.some.inj held
      have own : consumed.teamRunId = run.teamRunId := by rw [made,consumed_frame]
      rw [perform,same]
      exact speaks_maybeComplete own rfl (fun _ => rfl) fun _ => rfl
  | recordChildStarted now id child =>
    rcases recordChildStarted_cases now (some run) id child with
      ⟨_,same⟩ | ⟨_,_,held,_,⟨_,same⟩ | ⟨_,_,_,runEvent,_,rfl,named,same⟩⟩ <;> rw [perform,same]
    · exact speaks_read
    · cases Option.some.inj held
      exact speaks_quiet rfl rfl (fun _ => rfl) fun _ => rfl
    · cases Option.some.inj held
      have middle : runEvent.middle = true := by rcases named with rfl | rfl <;> rfl
      exact speaks_deferred rfl rfl middle (fun _ => rfl) fun _ => rfl
  | recordChildStartFailed id =>
    rcases recordChildStartFailed_cases (some run) id with
      ⟨_,same⟩ | ⟨_,_,removed,held,_,made,⟨_,same⟩ | ⟨_,_,same⟩⟩ <;> rw [perform,same]
    · exact speaks_read
    · cases Option.some.inj held
      have own : removed.teamRunId = run.teamRunId := by rw [made]
      exact speaks_maybeCancelled own rfl (fun _ => rfl) fun _ => rfl
    · cases Option.some.inj held
      rw [made]
      exact speaks_failed rfl rfl (fun _ => rfl) fun _ => rfl
  | recordChildCompleted slotId turnId status =>
    rcases recordChildCompleted_cases (some run) slotId turnId status with
      ⟨_,same⟩ | ⟨_,_,removed,_,held,_,_,made,rfl,⟨_,same⟩ | ⟨_,same⟩⟩ <;> rw [perform,same]
    · exact speaks_read
    · cases Option.some.inj held
      rw [made]
      exact speaks_failed rfl rfl (fun _ => rfl) fun _ => rfl
    · cases Option.some.inj held
      have own : removed.teamRunId = run.teamRunId := by rw [made]
      exact speaks_maybeComplete own rfl (fun _ => rfl) fun _ => rfl
  | maybeComplete => exact speaks_maybeComplete rfl rfl (fun _ => rfl) fun _ => rfl
  | beginCancel target =>
    rcases beginCancel_cases (some run) target with ⟨_,same⟩ | ⟨_,_,held,_,rfl,same⟩ <;> rw [perform,same]
    · exact speaks_read
    · cases Option.some.inj held
      exact speaks_deferred rfl rfl rfl (fun _ => rfl) fun _ => rfl
  | tryCompleteCancelled => exact speaks_maybeCancelled rfl rfl (fun _ => rfl) fun _ => rfl
  | completeFailed => exact speaks_failed rfl rfl (fun _ => rfl) fun _ => rfl
  | beginCancelChild slotId =>
    rcases beginCancelChild_cases (some run) slotId with
      ⟨_,same⟩ | ⟨_,_,_,_,_,same⟩ | ⟨_,_,_,_,held,_,_,_,_,rfl,same⟩ <;> rw [perform,same]
    · exact speaks_read
    · exact speaks_read
    · cases Option.some.inj held
      exact speaks_quiet rfl rfl (fun _ => rfl) fun _ => rfl
  | recordChildCancelled child =>
    rcases recordChildCancelled_cases (some run) child with ⟨none,_⟩ | ⟨_,removed,_,held,made,rfl,⟨_,same⟩ | ⟨_,same⟩⟩
    · cases none
    all_goals
      cases Option.some.inj held
      have own : removed.teamRunId = run.teamRunId := by rw [made]
      rw [perform,same]
    · exact speaks_maybeCancelled own rfl (fun _ => rfl) fun _ => rfl
    · exact speaks_quiet rfl own (fun _ => rfl) fun _ => rfl

-- When a call ends the run it is made on.
def Ends (run : TeamRunRecord) : Operation → Prop
  | .recordEmptyWakeObserved slotId =>
    run.isActive = true ∧ (((run.popWake slotId).map Prod.snd).getD run).outstanding = false
  | .recordChildStartFailed id => ∃ reservation, run.startingReservations.lookup id = some reservation ∧
      if run.status = .cancelling then
        ({ run with startingReservations := run.startingReservations.erase id } : TeamRunRecord).outstanding = false
      else reservation.state ≠ .cancelling
  | .recordChildCompleted slotId turnId status => ∃ child, run.activeChildTurns.lookup slotId = some child ∧
      child.turnId = turnId ∧ (status = .failed ∨ run.isActive = true ∧
        ({ run with activeChildTurns := run.activeChildTurns.erase slotId } : TeamRunRecord).outstanding = false)
  | .maybeComplete => run.isActive = true ∧ run.outstanding = false
  | .tryCompleteCancelled => run.status = .cancelling ∧ run.outstanding = false
  | .completeFailed => True
  | .recordChildCancelled child => run.status = .cancelling ∧
      ({ run with activeChildTurns := run.activeChildTurns.erase child.slotId } : TeamRunRecord).outstanding = false
  | _ => False

theorem maybeCompleteLocked_none : (maybeCompleteLocked run).held = none ↔ run.isActive = true ∧ run.outstanding = false := by
  rw [maybeCompleteLocked_held]
  cases run.outstanding <;> cases run.isActive <;> simp

theorem maybeCancelledLocked_none :
    (maybeCancelledLocked run).held = none ↔ run.status = .cancelling ∧ run.outstanding = false := by
  rw [maybeCancelledLocked_held]
  cases run.outstanding <;> by_cases cancelling : run.status = .cancelling <;> simp [cancelling]

theorem perform_ends (teamId : String) (run : TeamRunRecord) (operation : Operation) :
    (perform teamId (some run) operation).held = none ↔ Ends run operation := by
  cases operation with
  | acceptUserMessage freshId target role allow messageId =>
    rw [perform]
    rcases acceptUserMessage_cases teamId freshId (some run) target role allow messageId with ⟨_,_,_,same⟩ | ⟨_,same⟩ <;>
      rw [same] <;> exact iff_of_false (by rintro ⟨⟩) id
  | recordPendingWake slotId role source =>
    rw [perform]
    rcases recordPendingWake_cases (some run) slotId role source with ⟨_,_,same⟩ | ⟨_,_,_,_,_,same⟩ <;>
      rw [same] <;> exact iff_of_false (by rintro ⟨⟩) id
  | claimWakeForTurn freshId slotId role conversationId =>
    rw [perform]
    rcases claimWakeForTurn_cases freshId (some run) slotId role conversationId with
      ⟨_,same⟩ | ⟨_,_,_,_,_,_,_,_,_,_,same⟩ <;> rw [same] <;> exact iff_of_false (by rintro ⟨⟩) id
  | recordEmptyWakeObserved slotId =>
    rcases recordEmptyWakeObserved_cases (some run) slotId with ⟨none,_⟩ | ⟨_,consumed,held,made,same⟩
    · cases none
    · cases Option.some.inj held
      have kept : consumed.isActive = run.isActive := by rw [made,consumed_frame]; rfl
      rw [perform,same,Ends,← made,← kept]
      exact maybeCompleteLocked_none
  | recordChildStarted now reservationId child =>
    rw [perform]
    rcases recordChildStarted_cases now (some run) reservationId child with
      ⟨_,same⟩ | ⟨_,_,_,_,⟨_,same⟩ | ⟨_,_,_,_,_,_,_,same⟩⟩ <;> rw [same] <;> exact iff_of_false (by rintro ⟨⟩) id
  | recordChildStartFailed id =>
    rcases recordChildStartFailed_cases (some run) id with ⟨absent,same⟩ | ⟨_,reservation,removed,held,found,made,ending⟩
    · rw [perform,same]
      refine iff_of_false (by rintro ⟨⟩) ?_
      rintro ⟨_,found,_⟩
      rw [absent run rfl] at found
      cases found
    · cases Option.some.inj held
      simp only [Ends,found,Option.some.injEq,exists_eq_left']
      rw [← made]
      have status : removed.status = run.status := by rw [made]
      by_cases cancelling : run.status = .cancelling
      · rcases ending with ⟨_,same⟩ | ⟨awake,_,_⟩
        · rw [perform,same,if_pos cancelling]
          exact maybeCancelledLocked_none.trans (by simp [status,cancelling])
        · exact absurd cancelling awake
      · rw [if_neg cancelling]
        rcases ending with ⟨halted,same⟩ | ⟨_,kept,same⟩
        · rw [perform,same]
          exact maybeCancelledLocked_none.trans (by simp [status,cancelling,halted.resolve_left cancelling])
        · rw [perform,same]
          exact iff_of_true rfl kept
  | recordChildCompleted slotId turnId status =>
    rcases recordChildCompleted_cases (some run) slotId turnId status with
      ⟨absent,same⟩ | ⟨_,child,removed,_,held,found,named,made,_,ending⟩
    · rw [perform,same]
      refine iff_of_false (by rintro ⟨⟩) ?_
      rintro ⟨child,found,named,_⟩
      exact absent run child rfl found named
    · cases Option.some.inj held
      simp only [Ends,found,Option.some.injEq,exists_eq_left',named,true_and]
      rw [← made]
      have active : removed.isActive = run.isActive := by rw [made]; rfl
      rcases ending with ⟨failed,same⟩ | ⟨lively,same⟩
      · rw [perform,same]
        exact iff_of_true rfl (.inl failed)
      · rw [perform,same,or_iff_right lively,← active]
        exact maybeCompleteLocked_none
  | maybeComplete => exact maybeCompleteLocked_none
  | beginCancel target =>
    rw [perform]
    rcases beginCancel_cases (some run) target with ⟨_,same⟩ | ⟨_,_,_,_,_,same⟩ <;> rw [same] <;>
      exact iff_of_false (by rintro ⟨⟩) id
  | tryCompleteCancelled => exact maybeCancelledLocked_none
  | completeFailed => exact iff_of_true rfl trivial
  | beginCancelChild slotId =>
    rw [perform]
    rcases beginCancelChild_cases (some run) slotId with
      ⟨_,same⟩ | ⟨_,_,_,_,_,same⟩ | ⟨_,_,_,_,_,_,_,_,_,_,same⟩ <;> rw [same] <;> exact iff_of_false (by rintro ⟨⟩) id
  | recordChildCancelled child =>
    rcases recordChildCancelled_cases (some run) child with ⟨none,_⟩ | ⟨_,removed,_,held,made,_,⟨cancelling,same⟩ | ⟨awake,same⟩⟩
    · cases none
    · cases Option.some.inj held
      have status : removed.status = run.status := by rw [made]
      rw [perform,same,Ends,← made,← status]
      exact maybeCancelledLocked_none
    · cases Option.some.inj held
      rw [perform,same]
      exact iff_of_false (by rintro ⟨⟩) fun ends => awake ends.1

-- The turn of this child stands in its slot.
def InItsSlot (run : TeamRunRecord) (child : ActiveChildTurn) : Prop :=
  ∃ standing, run.activeChildTurns.lookup child.slotId = some standing ∧ standing.turnId = child.turnId

-- A call tells the end of no turn, or of one that it takes out of its slot.
inductive Closes (run : TeamRunRecord) (critical : Critical Unit) : Prop where
  | nothing (told : closedTurns critical.locked ++ closedTurns critical.deferred = [])
  | turn (slotId : String) (child : ActiveChildTurn) (found : run.activeChildTurns.lookup slotId = some child)
      (told : closedTurns critical.locked ++ closedTurns critical.deferred = [child.turnId])
      (taken : ∀ next, critical.held = some next → next.activeChildTurns = run.activeChildTurns.erase slotId)

theorem maybeCompleteLocked_closes (run : TeamRunRecord) : closedTurns (maybeCompleteLocked run).events = [] := by
  rcases maybeCompleteLocked_cases run with ⟨_,shape⟩ | ⟨_,_,shape⟩ | ⟨_,_,shape⟩ <;> rw [shape] <;> rfl

theorem maybeCancelledLocked_closes (run : TeamRunRecord) : closedTurns (maybeCancelledLocked run).events = [] := by
  rcases maybeCancelledLocked_cases run with ⟨_,shape⟩ | ⟨_,_,shape⟩ | ⟨_,_,shape⟩ <;> rw [shape] <;> rfl

theorem perform_closes (teamId : String) (run : TeamRunRecord) (operation : Operation)
    (own : ∀ child, operation = .recordChildCancelled child → InItsSlot run child) :
    Closes run (perform teamId (some run) operation) := by
  cases operation with
  | acceptUserMessage freshId target role allow messageId =>
    rcases acceptUserMessage_cases teamId freshId (some run) target role allow messageId with ⟨_,_,_,same⟩ | ⟨_,same⟩ <;>
      rw [perform,same] <;> exact .nothing rfl
  | recordPendingWake slotId role source =>
    rcases recordPendingWake_cases (some run) slotId role source with ⟨_,_,same⟩ | ⟨_,_,_,_,_,same⟩ <;>
      rw [perform,same] <;> exact .nothing rfl
  | claimWakeForTurn freshId slotId role conversationId =>
    rcases claimWakeForTurn_cases freshId (some run) slotId role conversationId with
      ⟨_,same⟩ | ⟨_,_,_,_,_,_,_,_,_,_,same⟩ <;> rw [perform,same] <;> exact .nothing rfl
  | recordEmptyWakeObserved slotId =>
    rcases recordEmptyWakeObserved_cases (some run) slotId with ⟨_,same⟩ | ⟨_,consumed,_,_,same⟩ <;> rw [perform,same]
    · exact .nothing rfl
    · exact .nothing (List.append_eq_nil_iff.mpr ⟨maybeCompleteLocked_closes consumed,rfl⟩)
  | recordChildStarted now id child =>
    rcases recordChildStarted_cases now (some run) id child with
      ⟨_,same⟩ | ⟨_,_,_,_,⟨_,same⟩ | ⟨_,_,_,_,_,_,_,same⟩⟩ <;> rw [perform,same] <;> exact .nothing rfl
  | recordChildStartFailed id =>
    rcases recordChildStartFailed_cases (some run) id with ⟨_,same⟩ | ⟨_,_,removed,_,_,_,⟨_,same⟩ | ⟨_,_,same⟩⟩ <;>
      rw [perform,same]
    · exact .nothing rfl
    · exact .nothing (List.append_eq_nil_iff.mpr ⟨maybeCancelledLocked_closes removed,rfl⟩)
    · exact .nothing rfl
  | recordChildCompleted slotId turnId status =>
    rcases recordChildCompleted_cases (some run) slotId turnId status with
      ⟨_,same⟩ | ⟨_,child,removed,_,held,found,named,made,rfl,⟨_,same⟩ | ⟨_,same⟩⟩ <;> rw [perform,same]
    · exact .nothing rfl
    · cases Option.some.inj held
      exact .turn slotId child found rfl fun next none => by cases none
    · cases Option.some.inj held
      refine .turn slotId child found ?_ fun next kept => ?_
      · exact (List.append_nil _).trans (congrArg (child.turnId :: ·) (maybeCompleteLocked_closes removed))
      · rw [maybeCompleteLocked_some kept,made]
  | maybeComplete =>
    exact .nothing (List.append_eq_nil_iff.mpr ⟨maybeCompleteLocked_closes run,rfl⟩)
  | beginCancel target =>
    rcases beginCancel_cases (some run) target with ⟨_,same⟩ | ⟨_,_,_,_,_,same⟩ <;> rw [perform,same] <;> exact .nothing rfl
  | tryCompleteCancelled =>
    exact .nothing (List.append_eq_nil_iff.mpr ⟨maybeCancelledLocked_closes run,rfl⟩)
  | completeFailed => exact .nothing rfl
  | beginCancelChild slotId =>
    rcases beginCancelChild_cases (some run) slotId with
      ⟨_,same⟩ | ⟨_,_,_,_,_,same⟩ | ⟨_,_,_,_,_,_,_,_,_,_,same⟩ <;> rw [perform,same] <;> exact .nothing rfl
  | recordChildCancelled child =>
    obtain ⟨standing,found,named⟩ := own child rfl
    rcases recordChildCancelled_cases (some run) child with ⟨none,_⟩ | ⟨_,removed,_,held,made,rfl,⟨_,same⟩ | ⟨_,same⟩⟩
    · cases none
    · cases Option.some.inj held
      rw [perform,same]
      refine .turn child.slotId standing found ?_ fun next kept => ?_
      · rw [named]
        exact congrArg (· ++ [child.turnId]) (maybeCancelledLocked_closes removed)
      · rw [maybeCancelledLocked_some kept,made]
    · cases Option.some.inj held
      rw [perform,same]
      refine .turn child.slotId standing found ?_ fun next kept => ?_
      · rw [named]
        rfl
      · cases Option.some.inj kept
        rw [made]

end AlineaCopilot.TeamRun
