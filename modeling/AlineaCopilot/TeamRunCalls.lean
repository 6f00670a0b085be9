import AlineaCopilot.TeamRun
open AlineaCopilot.KeyedMaps

namespace AlineaCopilot.TeamRun

theorem isActive_iff {run : TeamRunRecord} :
    run.isActive = true ↔ run.status = .accepted ∨ run.status = .running := by
  simp [TeamRunRecord.isActive]

theorem cancelling_not_active {run : TeamRunRecord} (cancelling : run.status = .cancelling) :
    run.isActive = false := by simp [TeamRunRecord.isActive,cancelling]

theorem active_not_cancelling {run : TeamRunRecord} (active : run.isActive = true) : run.status ≠ .cancelling := by
  intro cancelling
  simp [cancelling_not_active cancelling] at active

theorem pendingWakeCount_zero {run : TeamRunRecord} :
    run.pendingWakeCount = 0 ↔ ∀ slotId, run.pendingWakesFor slotId = [] := by
  rw [TeamRunRecord.pendingWakeCount,List.sum_eq_zero_iff_forall_eq_nat]
  simp only [List.mem_map,mem_values]
  constructor
  · intro empty slotId
    cases found : run.pendingWakes.lookup slotId with
    | none => simp [TeamRunRecord.pendingWakesFor,found]
    | some queue => simpa [TeamRunRecord.pendingWakesFor,found] using empty _ ⟨queue,⟨slotId,found⟩,rfl⟩
  · rintro empty _ ⟨queue,⟨slotId,found⟩,rfl⟩
    simpa [TeamRunRecord.pendingWakesFor,found] using empty slotId

theorem outstanding_false {run : TeamRunRecord} : run.outstanding = false ↔
    (∀ slotId, run.pendingWakesFor slotId = []) ∧ (∀ id, run.startingReservations.lookup id = none) ∧
      ∀ slotId, run.activeChildTurns.lookup slotId = none := by
  simp [TeamRunRecord.outstanding,pendingWakeCount_zero,entries_nil_iff,and_assoc]

theorem popWake_none {run : TeamRunRecord} : run.popWake slotId = none ↔ run.pendingWakesFor slotId = [] := by
  unfold TeamRunRecord.popWake
  split <;> simp_all

-- Only the queue of the popped slot changes: it loses its head.
theorem popWake_some {run next : TeamRunRecord} (popped : run.popWake slotId = some (pending,next)) :
    (∃ rest, run.pendingWakesFor slotId = pending :: rest ∧
      ∀ other, next.pendingWakesFor other = if other = slotId then rest else run.pendingWakesFor other) ∧
    next = { run with pendingWakes := next.pendingWakes } := by
  unfold TeamRunRecord.popWake at popped
  split at popped
  · cases popped
  · rename_i head rest queue
    cases Option.some.inj popped
    refine ⟨⟨rest,queue,fun other => ?_⟩,rfl⟩
    by_cases same : other = slotId
    · subst same; cases rest <;> simp [TeamRunRecord.pendingWakesFor]
    · cases rest with
      | nil => simp [TeamRunRecord.pendingWakesFor,same]
      | cons => simp [TeamRunRecord.pendingWakesFor,same]

theorem pendingWakesFor_push (run : TeamRunRecord) (slotId other : String) (wake : PendingWake) :
    ({ run with pendingWakes := run.pendingWakes.insert slotId (run.pendingWakesFor slotId ++ [wake]) } :
      TeamRunRecord).pendingWakesFor other =
        if other = slotId then run.pendingWakesFor slotId ++ [wake] else run.pendingWakesFor other := by
  by_cases same : other = slotId
  · subst same; simp [TeamRunRecord.pendingWakesFor]
  · simp [TeamRunRecord.pendingWakesFor,same]

section Finishers
variable {run : TeamRunRecord}

theorem maybeCompleteLocked_cases (run : TeamRunRecord) :
    (run.outstanding = true ∧ maybeCompleteLocked run = ⟨none,run,[.teamRun .updated run.payload]⟩) ∨
    (run.outstanding = false ∧ run.isActive = true ∧ maybeCompleteLocked run =
      ⟨some { run with status := .completed }.payload,{ run with status := .completed },
        [.teamRun .completed { run with status := .completed }.payload]⟩) ∨
    (run.outstanding = false ∧ run.isActive = false ∧ maybeCompleteLocked run = ⟨none,run,[]⟩) := by
  unfold maybeCompleteLocked
  cases outstanding : run.outstanding <;> cases active : run.isActive <;> simp

theorem maybeCancelledLocked_cases (run : TeamRunRecord) :
    (run.status ≠ .cancelling ∧ maybeCancelledLocked run = ⟨none,run,[]⟩) ∨
    (run.status = .cancelling ∧ run.outstanding = true ∧
      maybeCancelledLocked run = ⟨none,run,[.teamRun .updated run.payload]⟩) ∨
    (run.status = .cancelling ∧ run.outstanding = false ∧ maybeCancelledLocked run =
      ⟨some { run with status := .cancelled }.payload,{ run with status := .cancelled },
        [.teamRun .cancelled { run with status := .cancelled }.payload]⟩) := by
  unfold maybeCancelledLocked
  by_cases cancelling : run.status = .cancelling <;> cases outstanding : run.outstanding <;> simp [cancelling]

-- A finisher ends the run exactly when nothing is outstanding under its own
-- status, and otherwise leaves the record as it found it.
theorem maybeCompleteLocked_held (run : TeamRunRecord) : (maybeCompleteLocked run).held =
    if run.outstanding = false ∧ run.isActive = true then none else some run := by
  rcases maybeCompleteLocked_cases run with ⟨busy,same⟩ | ⟨empty,active,same⟩ | ⟨empty,idle,same⟩
  · simp [same,busy,Finish.held]
  · simp [same,empty,active,Finish.held]
  · simp [same,empty,idle,Finish.held]

theorem maybeCancelledLocked_held (run : TeamRunRecord) : (maybeCancelledLocked run).held =
    if run.outstanding = false ∧ run.status = .cancelling then none else some run := by
  rcases maybeCancelledLocked_cases run with ⟨other,same⟩ | ⟨cancelling,busy,same⟩ | ⟨cancelling,empty,same⟩
  · simp [same,other,Finish.held]
  · simp [same,busy,Finish.held]
  · simp [same,empty,cancelling,Finish.held]

end Finishers

section Calls
variable {held : Option TeamRunRecord}

theorem filter_active_some {run : TeamRunRecord} :
    held.filter TeamRunRecord.isActive = some run ↔ held = some run ∧ run.isActive = true :=
  Option.filter_eq_some_iff

theorem filter_active_none :
    held.filter TeamRunRecord.isActive = none ↔ ∀ run, held = some run → run.isActive = false := by
  cases held <;> simp

theorem acceptUserMessage_cases (teamId freshId : String) (held : Option TeamRunRecord) (target : String)
    (role : TeamRunTargetRole) (allow : Bool) (messageId : Option String) :
    (∃ result run, held = some run ∧ acceptUserMessage teamId freshId held target role allow messageId =
      .read held result) ∨
    ((∀ run, held = some run → run.isActive = false ∧ run.status ≠ .cancelling) ∧
      acceptUserMessage teamId freshId held target role allow messageId =
        acceptUserMessage.fresh teamId freshId target role messageId) := by
  unfold acceptUserMessage
  cases held with
  | none => simp
  | some run =>
    cases active : run.isActive <;> cases allow <;> by_cases cancelling : run.status = .cancelling <;>
      simp [active,cancelling]

theorem recordPendingWake_cases (held : Option TeamRunRecord) (slotId : String) (role : TeamRunTargetRole)
    (source : TeamWakeSource) :
    ((∀ run, held = some run → run.isActive = false) ∧ ∃ error,
      recordPendingWake held slotId role source = .read held (.error error)) ∨
    ∃ run, held = some run ∧ run.isActive = true ∧ ∃ queued, queued = { run with
        pendingWakes := run.pendingWakes.insert slotId (run.pendingWakesFor slotId ++ [⟨slotId,role,source⟩]) } ∧
      recordPendingWake held slotId role source = ⟨.ok (),some queued,[.teamRun .updated queued.payload],[]⟩ := by
  unfold recordPendingWake
  split
  · rename_i none
    exact .inl ⟨filter_active_none.mp none,_,rfl⟩
  · rename_i run found
    obtain ⟨rfl,active⟩ := filter_active_some.mp found
    exact .inr ⟨run,rfl,active,_,rfl,rfl⟩

theorem claimWakeForTurn_cases (freshId : String) (held : Option TeamRunRecord) (slotId : String)
    (role : TeamRunTargetRole) (conversationId : String) :
    ((∀ run, held = some run → run.isActive = true → run.pendingWakesFor slotId = []) ∧
      claimWakeForTurn freshId held slotId role conversationId = .read held none) ∨
    ∃ run pending popped, held = some run ∧ run.isActive = true ∧ run.popWake slotId = some (pending,popped) ∧
      ∃ reservation claimed, reservation = ⟨freshId,run.teamRunId,pending.slotId,role,conversationId,.starting⟩ ∧
        claimed = { popped with
          startingReservations := popped.startingReservations.insert freshId reservation } ∧
        claimWakeForTurn freshId held slotId role conversationId =
          ⟨some reservation,some claimed,[],[.teamRun .updated claimed.payload]⟩ := by
  unfold claimWakeForTurn
  split
  · rename_i none
    refine .inl ⟨fun run same active => ?_,rfl⟩
    simp [filter_active_none.mp none run same] at active
  · rename_i run found
    obtain ⟨rfl,active⟩ := filter_active_some.mp found
    split
    · rename_i none
      refine .inl ⟨fun other same _ => ?_,rfl⟩
      cases Option.some.inj same
      exact popWake_none.mp none
    · rename_i pending popped taken
      exact .inr ⟨run,pending,popped,rfl,active,taken,_,_,rfl,rfl,rfl⟩

theorem recordEmptyWakeObserved_cases (held : Option TeamRunRecord) (slotId : String) :
    (held = none ∧ recordEmptyWakeObserved held slotId = .read none none) ∨
    ∃ run consumed, held = some run ∧ consumed = ((run.popWake slotId).map Prod.snd).getD run ∧
      recordEmptyWakeObserved held slotId =
        ⟨(maybeCompleteLocked consumed).payload,(maybeCompleteLocked consumed).held,
          (maybeCompleteLocked consumed).events,[]⟩ := by
  cases held with
  | none => exact .inl ⟨rfl,rfl⟩
  | some run => exact .inr ⟨run,_,rfl,rfl,rfl⟩

theorem recordChildStarted_cases (now : Nat) (held : Option TeamRunRecord) (reservationId : String)
    (child : ActiveChildTurn) :
    ((∀ run, held = some run → run.startingReservations.lookup reservationId = none) ∧
      recordChildStarted now held reservationId child = .read held .ignored) ∨
    ∃ run reservation, held = some run ∧ run.startingReservations.lookup reservationId = some reservation ∧
      ((run.teamRunId ≠ child.teamRunId ∧ recordChildStarted now held reservationId child = .read
          (some { run with startingReservations := run.startingReservations.erase reservationId }) .ignored) ∨
      (run.teamRunId = child.teamRunId ∧ ∃ shouldCancel started runEvent,
        shouldCancel = (run.status = .cancelling || reservation.state = .cancelling : Bool) ∧
        started = { run with
          startedAt := some (run.startedAt.getD now)
          status := if shouldCancel then run.status else .running
          startingReservations := run.startingReservations.erase reservationId
          activeChildTurns := run.activeChildTurns.insert child.slotId child } ∧
        (runEvent = .started ∨ runEvent = .updated) ∧
        recordChildStarted now held reservationId child =
          ⟨if shouldCancel then .cancelImmediately child else .accepted,some started,[],
            [.teamRun runEvent started.payload,.childTurn .started (childPayload run.teamId child .running)]⟩)) := by
  cases held with
  | none => exact .inl ⟨by simp,rfl⟩
  | some run =>
    cases found : run.startingReservations.lookup reservationId with
    | none =>
      refine .inl ⟨fun other same => ?_,by simp [recordChildStarted,found,Critical.read]⟩
      cases Option.some.inj same
      exact found
    | some reservation =>
      refine .inr ⟨run,reservation,rfl,found,?_⟩
      by_cases mismatch : run.teamRunId = child.teamRunId
      · refine .inr ⟨mismatch,_,_,if run.startedAt.isNone &&
          !(run.status = .cancelling || reservation.state = .cancelling : Bool) then .started else .updated,
          rfl,rfl,?_,?_⟩
        · split <;> simp
        · simp [recordChildStarted,found,mismatch]
      · exact .inl ⟨mismatch,by simp [recordChildStarted,found,mismatch]⟩

theorem recordChildStartFailed_cases (held : Option TeamRunRecord) (reservationId : String) :
    ((∀ run, held = some run → run.startingReservations.lookup reservationId = none) ∧
      recordChildStartFailed held reservationId = .read held none) ∨
    ∃ run reservation removed, held = some run ∧ run.startingReservations.lookup reservationId = some reservation ∧
      removed = { run with startingReservations := run.startingReservations.erase reservationId } ∧
      (((run.status = .cancelling ∨ reservation.state = .cancelling) ∧ recordChildStartFailed held reservationId =
          ⟨(maybeCancelledLocked removed).payload,(maybeCancelledLocked removed).held,
            (maybeCancelledLocked removed).events,[]⟩) ∨
      (run.status ≠ .cancelling ∧ reservation.state ≠ .cancelling ∧ recordChildStartFailed held reservationId =
          ⟨some { removed with status := .failed }.payload,none,[],
            [.teamRun .failed { removed with status := .failed }.payload]⟩)) := by
  cases held with
  | none => exact .inl ⟨by simp,rfl⟩
  | some run =>
    cases found : run.startingReservations.lookup reservationId with
    | none =>
      refine .inl ⟨fun other same => ?_,by simp [recordChildStartFailed,found,Critical.read]⟩
      cases Option.some.inj same
      exact found
    | some reservation =>
      refine .inr ⟨run,reservation,_,rfl,found,rfl,?_⟩
      by_cases halted : run.status = .cancelling ∨ reservation.state = .cancelling
      · exact .inl ⟨halted,by simp [recordChildStartFailed,found,halted]⟩
      · obtain ⟨awake,kept⟩ := not_or.mp halted
        exact .inr ⟨awake,kept,by simp [recordChildStartFailed,found,awake,kept]⟩

theorem recordChildCompleted_cases (held : Option TeamRunRecord) (slotId turnId : String) (status : TeamRunStatus) :
    ((∀ run child, held = some run → run.activeChildTurns.lookup slotId = some child → child.turnId ≠ turnId) ∧
      recordChildCompleted held slotId turnId status = .read held none) ∨
    ∃ run child removed childEvent, held = some run ∧ run.activeChildTurns.lookup slotId = some child ∧
      child.turnId = turnId ∧ removed = { run with activeChildTurns := run.activeChildTurns.erase slotId } ∧
      childEvent = .childTurn .completed (childPayload run.teamId child status) ∧
      ((status = .failed ∧ recordChildCompleted held slotId turnId status =
          ⟨some { removed with status := .failed }.payload,none,[],
            [childEvent,.teamRun .failed { removed with status := .failed }.payload]⟩) ∨
      (status ≠ .failed ∧ recordChildCompleted held slotId turnId status =
          ⟨(maybeCompleteLocked removed).payload,(maybeCompleteLocked removed).held,
            childEvent :: (maybeCompleteLocked removed).events,[]⟩)) := by
  cases held with
  | none => exact .inl ⟨by simp,rfl⟩
  | some run =>
    cases found : run.activeChildTurns.lookup slotId with
    | none =>
      refine .inl ⟨fun other child same => ?_,by simp [recordChildCompleted,found,Critical.read]⟩
      cases Option.some.inj same
      simp [found]
    | some child =>
      by_cases equal : child.turnId = turnId
      · refine .inr ⟨run,child,_,_,rfl,found,equal,rfl,rfl,?_⟩
        by_cases failed : status = .failed
        · exact .inl ⟨failed,by simp [recordChildCompleted,found,equal,failed]⟩
        · exact .inr ⟨failed,by simp [recordChildCompleted,found,equal,failed]⟩
      · refine .inl ⟨fun other stored same => ?_,by simp [recordChildCompleted,found,equal]⟩
        cases Option.some.inj same
        rw [found]
        rintro stored
        cases Option.some.inj stored
        exact equal

theorem maybeComplete_cases (held : Option TeamRunRecord) :
    (held = none ∧ maybeComplete held = .read none none) ∨
    ∃ run, held = some run ∧ maybeComplete held =
      ⟨(maybeCompleteLocked run).payload,(maybeCompleteLocked run).held,(maybeCompleteLocked run).events,[]⟩ := by
  cases held with
  | none => exact .inl ⟨rfl,rfl⟩
  | some run => exact .inr ⟨run,rfl,rfl⟩

theorem tryCompleteCancelled_cases (held : Option TeamRunRecord) :
    (held = none ∧ tryCompleteCancelled held = .read none none) ∨
    ∃ run, held = some run ∧ tryCompleteCancelled held =
      ⟨(maybeCancelledLocked run).payload,(maybeCancelledLocked run).held,(maybeCancelledLocked run).events,[]⟩ := by
  cases held with
  | none => exact .inl ⟨rfl,rfl⟩
  | some run => exact .inr ⟨run,rfl,rfl⟩

theorem completeFailed_cases (held : Option TeamRunRecord) :
    (held = none ∧ completeFailed held = .read none none) ∨
    ∃ run, held = some run ∧ completeFailed held =
      ⟨some run.teamRunId,none,[],[.teamRun .failed { run with status := .failed }.payload]⟩ := by
  cases held with
  | none => exact .inl ⟨rfl,rfl⟩
  | some run => exact .inr ⟨run,rfl,rfl⟩

theorem beginCancel_cases (held : Option TeamRunRecord) (target : Option String) :
    (∃ error, beginCancel held target = .read held (.error error)) ∨
    ∃ run cancelling, held = some run ∧ run.isActive = true ∧ cancelling = { run with
        status := .cancelling
        pendingWakes := ∅
        startingReservations := mapValues ({ · with state := .cancelling }) run.startingReservations } ∧
      beginCancel held target = ⟨.ok (),some cancelling,[],[.teamRun .updated cancelling.payload]⟩ := by
  unfold beginCancel
  split
  · exact .inl ⟨_,rfl⟩
  · rename_i run found
    obtain ⟨rfl,active⟩ := filter_active_some.mp found
    split
    · exact .inl ⟨_,rfl⟩
    · exact .inr ⟨run,_,rfl,active,rfl,rfl⟩

theorem beginCancelChild_cases (held : Option TeamRunRecord) (slotId : String) :
    (∃ error, beginCancelChild held slotId = .read held (.error error)) ∨
    (∃ run child, held = some run ∧ run.isActive = true ∧ run.activeChildTurns.lookup slotId = some child ∧
      beginCancelChild held slotId = .read held (.ok (.active child))) ∨
    ∃ run id reservation cancelling, held = some run ∧ run.isActive = true ∧
      run.activeChildTurns.lookup slotId = none ∧ run.startingReservations.lookup id = some reservation ∧
      reservation.slotId = slotId ∧ cancelling = { reservation with state := .cancelling } ∧
      beginCancelChild held slotId = .read (some { run with
        startingReservations := run.startingReservations.insert reservation.reservationId cancelling })
          (.ok (.starting cancelling)) := by
  unfold beginCancelChild
  split
  · exact .inl ⟨_,rfl⟩
  · rename_i run found
    obtain ⟨rfl,active⟩ := filter_active_some.mp found
    cases standing : run.activeChildTurns.lookup slotId with
    | some child => exact .inr (.inl ⟨run,child,rfl,active,standing,rfl⟩)
    | none =>
      cases search : (values run.startingReservations).find? (·.slotId == slotId) with
      | none => exact .inl ⟨_,rfl⟩
      | some reservation =>
        obtain ⟨id,stored⟩ := (mem_values _).mp (List.mem_of_find?_eq_some search)
        have same : reservation.slotId = slotId := by simpa using List.find?_some search
        exact .inr (.inr ⟨run,id,reservation,_,rfl,active,standing,stored,same,rfl,rfl⟩)

theorem recordChildCancelled_cases (held : Option TeamRunRecord) (child : ActiveChildTurn) :
    (held = none ∧ recordChildCancelled held child = .read none ()) ∨
    ∃ run removed childEvent, held = some run ∧
      removed = { run with activeChildTurns := run.activeChildTurns.erase child.slotId } ∧
      childEvent = .childTurn .cancelled (childPayload run.teamId child .cancelled) ∧
      ((run.status = .cancelling ∧ recordChildCancelled held child =
          ⟨(),(maybeCancelledLocked removed).held,(maybeCancelledLocked removed).events,[childEvent]⟩) ∨
      (run.status ≠ .cancelling ∧ recordChildCancelled held child = ⟨(),some removed,[],[childEvent]⟩)) := by
  cases held with
  | none => exact .inl ⟨rfl,rfl⟩
  | some run =>
    refine .inr ⟨run,_,_,rfl,rfl,rfl,?_⟩
    by_cases cancelling : run.status = .cancelling
    · exact .inl ⟨cancelling,by simp [recordChildCancelled,cancelling]⟩
    · exact .inr ⟨cancelling,by simp [recordChildCancelled,cancelling]⟩

end Calls

end AlineaCopilot.TeamRun
