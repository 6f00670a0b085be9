import AlineaCopilot.TeamRunHistory
open AlineaCopilot.KeyedMaps AlineaCopilot.TransitionRuns

namespace AlineaCopilot.TeamRun

-- A call that reports for a run: by the turn, the reservation or the child it
-- carries. The port-error path and the finishers that close a completion or a
-- cancellation carry nothing: any run's path may be the one that makes them.
def ReportsFor (history : History) (runId : String) : Operation → Prop
  | .recordChildCompleted _ turnId _ => (turnId,runId) ∈ history.turns
  | .recordChildStarted _ _ child => child.teamRunId = runId
  | .recordChildStartFailed id => (id,runId) ∈ history.reservations
  | .recordChildCancelled child => child.teamRunId = runId
  | .completeFailed | .maybeComplete | .tryCompleteCancelled => True
  | _ => False

-- The held run is the same one, and as it was.
structure Undisturbed (run : TeamRunRecord) (after : Option TeamRunRecord) : Prop where
  same : ∃ next, after = some next ∧ next.teamRunId = run.teamRunId ∧ next.status = run.status ∧
    (∀ slotId, next.pendingWakesFor slotId = run.pendingWakesFor slotId) ∧
    (∀ id, next.startingReservations.lookup id = run.startingReservations.lookup id) ∧
    ∀ slotId, next.activeChildTurns.lookup slotId = run.activeChildTurns.lookup slotId

-- When a report of another run leaves this run as it was.
def Harmless (run : TeamRunRecord) : Operation → Prop
  | .recordChildStarted _ id _ => run.startingReservations.lookup id = none
  | .recordChildCancelled child => run.activeChildTurns.lookup child.slotId = none ∧
      (run.status = .cancelling → run.outstanding = true)
  | .completeFailed => False
  | .maybeComplete => run.isActive = true → run.outstanding = true
  | .tryCompleteCancelled => run.status = .cancelling → run.outstanding = true
  | _ => True

section Reports
variable {run : TeamRunRecord} {history : History}

theorem Undisturbed.refl : Undisturbed run (some run) := ⟨run,rfl,rfl,rfl,fun _ => rfl,fun _ => rfl,fun _ => rfl⟩

theorem not_undisturbed_none : ¬Undisturbed run none := by
  rintro ⟨next,impossible,_⟩
  cases impossible

-- An erased key was there or nothing happened.
theorem eraseReservation_undisturbed (id : String) :
    Undisturbed run (some { run with startingReservations := run.startingReservations.erase id }) ↔
      run.startingReservations.lookup id = none := by
  constructor
  · rintro ⟨next,same,_,_,_,reservations,_⟩
    cases Option.some.inj same
    rw [← reservations id,lookup_erase_eq,if_pos rfl]
  · intro absent
    refine ⟨_,rfl,rfl,rfl,fun _ => rfl,fun key => ?_,fun _ => rfl⟩
    rw [lookup_erase_eq]
    split
    · rename_i same
      rw [same,absent]
    · rfl

theorem eraseChild_undisturbed (slotId : String) :
    Undisturbed run (some { run with activeChildTurns := run.activeChildTurns.erase slotId }) ↔
      run.activeChildTurns.lookup slotId = none := by
  constructor
  · rintro ⟨next,same,_,_,_,_,children⟩
    cases Option.some.inj same
    rw [← children slotId,lookup_erase_eq,if_pos rfl]
  · intro absent
    refine ⟨_,rfl,rfl,rfl,fun _ => rfl,fun _ => rfl,fun key => ?_⟩
    rw [lookup_erase_eq]
    split
    · rename_i same
      rw [same,absent]
    · rfl

theorem eraseChild_outstanding (absent : run.activeChildTurns.lookup slotId = none) :
    ({ run with activeChildTurns := run.activeChildTurns.erase slotId } : TeamRunRecord).outstanding = run.outstanding := by
  rw [Bool.eq_iff_iff,← not_iff_not,Bool.not_eq_true,Bool.not_eq_true,outstanding_false,outstanding_false]
  have same : ∀ key, (run.activeChildTurns.erase slotId).lookup key = run.activeChildTurns.lookup key := by
    intro key
    rw [lookup_erase_eq]
    split
    · rename_i equal
      rw [equal,absent]
    · rfl
  simp only [same]
  rfl

-- A turn of another run is in no slot of this one.
theorem completed_undisturbed (recorded : Recorded history) (current : history.held = some run)
    (turn : (turnId,earlier) ∈ history.turns) (other : earlier ≠ run.teamRunId) :
    (recordChildCompleted history.held slotId turnId status).held = some run := by
  rcases recordChildCompleted_cases history.held slotId turnId status with
    ⟨_,same⟩ | ⟨standing,child,_,_,held,found,named,_⟩
  · rw [same]
    exact current
  · cases Option.some.inj (current.symm.trans held)
    have own := recorded.started _ current slotId child found
    rw [named] at own
    exact absurd (recorded.oneTurn _ _ _ turn own) other

theorem startFailed_undisturbed (recorded : Recorded history) (current : history.held = some run)
    (claimed : (reservationId,earlier) ∈ history.reservations) (other : earlier ≠ run.teamRunId) :
    (recordChildStartFailed history.held reservationId).held = some run := by
  rcases recordChildStartFailed_cases history.held reservationId with ⟨_,same⟩ | ⟨standing,reservation,_,held,found,_⟩
  · rw [same]
    exact current
  · cases Option.some.inj (current.symm.trans held)
    exact absurd (recorded.oneRun _ _ _ claimed (recorded.reserved _ current reservationId reservation found)) other

theorem started_undisturbed (other : child.teamRunId ≠ run.teamRunId) :
    Undisturbed run (recordChildStarted now (some run) reservationId child).held ↔ run.startingReservations.lookup reservationId = none := by
  rcases recordChildStarted_cases now (some run) reservationId child with
    ⟨absent,same⟩ | ⟨standing,reservation,held,found,⟨_,same⟩ | ⟨matching,_⟩⟩
  · rw [same]
    exact iff_of_true .refl (absent run rfl)
  · cases Option.some.inj held
    rw [same]
    exact eraseReservation_undisturbed reservationId
  · cases Option.some.inj held
    exact absurd matching.symm other

theorem maybeCompleteLocked_undisturbed :
    Undisturbed run (maybeCompleteLocked run).held ↔ (run.isActive = true → run.outstanding = true) := by
  rw [maybeCompleteLocked_held]
  split
  · rename_i ends
    refine iff_of_false not_undisturbed_none fun busy => ?_
    rw [busy ends.2] at ends
    cases ends.1
  · rename_i stays
    refine iff_of_true .refl fun active => ?_
    simpa [active] using stays

theorem maybeCancelledLocked_undisturbed :
    Undisturbed run (maybeCancelledLocked run).held ↔ (run.status = .cancelling → run.outstanding = true) := by
  rw [maybeCancelledLocked_held]
  split
  · rename_i ends
    refine iff_of_false not_undisturbed_none fun busy => ?_
    rw [busy ends.2] at ends
    cases ends.1
  · rename_i stays
    refine iff_of_true .refl fun cancelling => ?_
    simpa [cancelling] using stays

theorem cancelled_undisturbed (child : ActiveChildTurn) :
    Undisturbed run (recordChildCancelled (some run) child).held ↔
      run.activeChildTurns.lookup child.slotId = none ∧ (run.status = .cancelling → run.outstanding = true) := by
  rcases recordChildCancelled_cases (some run) child with ⟨none,_⟩ | ⟨standing,removed,_,held,made,_,ending⟩
  · cases none
  · cases Option.some.inj held
    rcases ending with ⟨cancelling,same⟩ | ⟨awake,same⟩
    · rw [same,maybeCancelledLocked_held]
      have kept : run.activeChildTurns.lookup child.slotId = none → removed.outstanding = run.outstanding := by
        rw [made]
        exact eraseChild_outstanding
      cases left : removed.outstanding with
      | true =>
        rw [if_neg (by simp),made,eraseChild_undisturbed]
        refine ⟨fun absent => ⟨absent,fun _ => ?_⟩,And.left⟩
        rw [← kept absent,left]
      | false =>
        rw [if_pos ⟨rfl,by rw [made]; exact cancelling⟩]
        refine iff_of_false not_undisturbed_none ?_
        rintro ⟨absent,busy⟩
        rw [← kept absent,left] at busy
        cases busy cancelling
    · rw [same,made]
      simp [eraseChild_undisturbed,awake]

end Reports

theorem late_report_inert (path : Runs (record teamId) .start operations history) (current : history.held = some run)
    (report : ReportsFor history earlier operation) (other : earlier ≠ run.teamRunId)
    (made : record teamId history operation = some next) : Undisturbed run next.held ↔ Harmless run operation := by
  have recorded := recorded_run path
  unfold record at made
  split at made <;> cases made
  cases operation with
  | recordChildCompleted slotId turnId status =>
    simp only [perform,effect_held,completed_undisturbed recorded current report other]
    exact iff_of_true .refl trivial
  | recordChildStartFailed id =>
    simp only [perform,effect_held,startFailed_undisturbed recorded current report other]
    exact iff_of_true .refl trivial
  | recordChildStarted now id child =>
    simp only [perform,effect_held,current]
    exact started_undisturbed fun same => other (report.symm.trans same)
  | recordChildCancelled child =>
    simp only [perform,current]
    exact cancelled_undisturbed child
  | completeFailed =>
    simp only [perform,effect_held,current]
    exact iff_of_false not_undisturbed_none id
  | maybeComplete =>
    simp only [perform,effect_held,current]
    exact maybeCompleteLocked_undisturbed
  | tryCompleteCancelled =>
    simp only [perform,effect_held,current]
    exact maybeCancelledLocked_undisturbed
  | _ => exact report.elim

def leadTurn (runId turnId : String) : ActiveChildTurn := ⟨runId,"lead",.lead,"lead chat",turnId⟩

def mateTurn (runId turnId : String) : ActiveChildTurn := ⟨runId,"mate",.teammate,"mate chat",turnId⟩

-- The lead and a teammate work in the first run; the teammate's turn fails and
-- ends it; the user's next message is accepted as the second run.
def secondRunAccepted : List Operation :=
  [.acceptUserMessage "first" "lead" .lead false none,.recordPendingWake "lead" .lead .userMessage,
    .claimWakeForTurn "r1" "lead" .lead "lead chat",.recordChildStarted 0 "r1" (leadTurn "first" "t1"),
    .recordPendingWake "mate" .teammate .mcpSendMessage,.claimWakeForTurn "r2" "mate" .teammate "mate chat",
    .recordChildStarted 0 "r2" (mateTurn "first" "t2"),.recordChildCompleted "mate" "t2" .failed,
    .acceptUserMessage "second" "lead" .lead false none]

-- The port call of the lead's turn then fails.
theorem late_failure_ends_second_run : ∃ history run next,
    exec (record "team") .start secondRunAccepted = some history ∧ history.held = some run ∧ run.teamRunId = "second" ∧
      ReportsFor history "first" .completeFailed ∧ record "team" history .completeFailed = some next ∧
      ¬Undisturbed run next.held :=
  ⟨_,_,_,rfl,rfl,rfl,trivial,rfl,not_undisturbed_none⟩

-- The lead's turn ends after all: the second run does not notice.
theorem late_report_inert_completion : ∃ history run next,
    exec (record "team") .start secondRunAccepted = some history ∧ history.held = some run ∧
      record "team" history (.recordChildCompleted "lead" "t1" .completed) = some next ∧ Undisturbed run next.held := by
  have inert : ∀ history run next, exec (record "team") .start secondRunAccepted = some history →
      history.held = some run → record "team" history (.recordChildCompleted "lead" "t1" .completed) = some next →
      ("t1","first") ∈ history.turns → "first" ≠ run.teamRunId → Undisturbed run next.held := by
    intro history run next reached current made turn other
    have report : ReportsFor history "first" (.recordChildCompleted "lead" "t1" .completed) := turn
    exact (late_report_inert (exec_exact.mp reached) current report other made).mpr trivial
  exact ⟨_,_,_,rfl,rfl,rfl,inert _ _ _ rfl rfl rfl (by decide) (by decide)⟩

end AlineaCopilot.TeamRun
