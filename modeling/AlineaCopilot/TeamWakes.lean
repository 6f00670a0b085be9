import AlineaCopilot.TeamRunHistory
open AlineaCopilot.KeyedMaps AlineaCopilot.TransitionRuns

namespace AlineaCopilot.TeamRun

-- What became of the wakes of one slot.
structure WakeTally where
  recorded : Nat
  claimed : Nat
  observed : Nat
  cleared : Nat
deriving DecidableEq

namespace WakeTally

def zero : WakeTally := ⟨0,0,0,0⟩

def add (left right : WakeTally) : WakeTally :=
  ⟨left.recorded + right.recorded,left.claimed + right.claimed,left.observed + right.observed,left.cleared + right.cleared⟩

def gone (tally : WakeTally) : Nat := tally.claimed + tally.observed + tally.cleared

end WakeTally

-- Counted by what the calls answer. An observation answers nothing of the wake
-- it takes, and the cancellation nothing of those it clears.
def tallied (held : Option TeamRunRecord) (slotId : String) : Operation → WakeTally
  | .recordPendingWake other role source =>
    match (recordPendingWake held other role source).result with
    | .ok () => if other = slotId then { WakeTally.zero with recorded := 1 } else .zero
    | .error _ => .zero
  | .claimWakeForTurn freshId other role conversationId =>
    match (claimWakeForTurn freshId held other role conversationId).result with
    | some reservation => if reservation.slotId = slotId then { WakeTally.zero with claimed := 1 } else .zero
    | none => .zero
  | .recordEmptyWakeObserved other =>
    match held.bind fun run => run.popWake other with
    | some (wake,_) => if wake.slotId = slotId then { WakeTally.zero with observed := 1 } else .zero
    | none => .zero
  | .beginCancel target =>
    match held,(beginCancel held target).result with
    | some run,.ok () => { WakeTally.zero with cleared := (run.pendingWakesFor slotId).length }
    | _,_ => .zero
  | _ => .zero

-- The tallies of the run the lock guards.
structure WakeBook where
  held : Option TeamRunRecord
  tally : String → WakeTally

def WakeBook.start : WakeBook := ⟨none,fun _ => .zero⟩

-- Where no run is held the next one starts with empty tallies.
def WakeBook.enter (teamId : String) (book : WakeBook) (operation : Operation) : Option WakeBook :=
  some ⟨(perform teamId book.held operation).held,fun slotId =>
    (if book.held.isNone then .zero else book.tally slotId).add (tallied book.held slotId operation)⟩

-- The calls that name the slot of a wake, and the one that drops all wakes.
def Touches (slotId : String) : Operation → Prop
  | .recordPendingWake other _ _ => other = slotId
  | .claimWakeForTurn _ other _ _ => other = slotId
  | .recordEmptyWakeObserved other => other = slotId
  | .beginCancel _ => True
  | _ => False

section Queues
variable {teamId slotId : String} {run next : TeamRunRecord} {operation : Operation}

-- One call's effect on one queue: what it adds at the end, takes from the front
-- or drops is what the call is tallied with.
structure Balanced (held : Option TeamRunRecord) (slotId : String) (operation : Operation) (before after : List PendingWake) : Prop where
  count : before.length + (tallied held slotId operation).recorded = after.length + (tallied held slotId operation).gone
  frame : ¬Touches slotId operation → after = before

theorem Balanced.quiet (silent : tallied held slotId operation = .zero) (same : after = before) : Balanced held slotId operation before after := by
  refine ⟨?_,fun _ => same⟩
  rw [silent,same]
  rfl

theorem wakes_same (same : next.pendingWakes = run.pendingWakes) : next.pendingWakesFor slotId = run.pendingWakesFor slotId := by
  rw [TeamRunRecord.pendingWakesFor,TeamRunRecord.pendingWakesFor,same]

theorem recordPendingWake_balanced (after : (perform teamId (some run) (.recordPendingWake other role source)).held = some next) :
    Balanced (some run) slotId (.recordPendingWake other role source) (run.pendingWakesFor slotId) (next.pendingWakesFor slotId) := by
  simp only [perform,effect_held] at after
  rcases recordPendingWake_cases (some run) other role source with ⟨_,error,same⟩ | ⟨run',held,active,queued,rfl,same⟩
  · rw [same] at after
    cases after
    refine .quiet ?_ rfl
    unfold tallied
    simp only [same,Critical.read]
  · cases held
    rw [same] at after
    cases after
    have entry : tallied (some run) slotId (.recordPendingWake other role source) =
        if other = slotId then { WakeTally.zero with recorded := 1 } else .zero := by
      unfold tallied
      simp only [same]
    rw [pendingWakesFor_push]
    by_cases here : slotId = other
    · refine ⟨?_,fun elsewhere => absurd here.symm elsewhere⟩
      rw [entry,if_pos here.symm,if_pos here,here,List.length_append]
      rfl
    · refine .quiet ?_ (if_neg here)
      rw [entry,if_neg fun same => here same.symm]

-- Taking the head of a slot's queue, tallied under `gone` as one wake.
theorem taken_balanced (valid : WellFormed run) (taken : run.popWake other = some (wake,popped)) (wakes : next.pendingWakes = popped.pendingWakes)
    (entry : tallied (some run) slotId operation = if wake.slotId = slotId then one else .zero) (counted : one.recorded = 0 ∧ one.gone = 1)
    (touches : Touches slotId operation ↔ other = slotId) :
    Balanced (some run) slotId operation (run.pendingWakesFor slotId) (next.pendingWakesFor slotId) := by
  obtain ⟨⟨rest,queue,queues⟩,_⟩ := popWake_some taken
  have slot : wake.slotId = other := (valid.popWake taken).2
  rw [wakes_same wakes,queues slotId]
  by_cases here : slotId = other
  · subst here
    refine ⟨?_,fun elsewhere => absurd (touches.mpr rfl) elsewhere⟩
    rw [entry,if_pos slot,counted.1,counted.2,if_pos rfl,queue]
    rfl
  · refine .quiet ?_ (if_neg here)
    rw [entry,if_neg fun same => here (same.symm.trans slot)]

theorem claimWakeForTurn_balanced (valid : WellFormed run)
    (after : (perform teamId (some run) (.claimWakeForTurn freshId other role conversationId)).held = some next) :
    Balanced (some run) slotId (.claimWakeForTurn freshId other role conversationId) (run.pendingWakesFor slotId) (next.pendingWakesFor slotId) := by
  simp only [perform,effect_held] at after
  rcases claimWakeForTurn_cases freshId (some run) other role conversationId with
    ⟨_,same⟩ | ⟨run',wake,popped,held,_,taken,reservation,claimed,made,rfl,same⟩
  · rw [same] at after
    cases after
    refine .quiet ?_ rfl
    unfold tallied
    simp only [same,Critical.read]
  · cases held
    rw [same] at after
    cases after
    have entry : tallied (some run) slotId (.claimWakeForTurn freshId other role conversationId) =
        if wake.slotId = slotId then { WakeTally.zero with claimed := 1 } else .zero := by
      unfold tallied
      simp only [same,made]
    exact taken_balanced valid taken rfl entry ⟨rfl,rfl⟩ Iff.rfl

theorem recordEmptyWakeObserved_balanced (valid : WellFormed run)
    (after : (perform teamId (some run) (.recordEmptyWakeObserved other)).held = some next) :
    Balanced (some run) slotId (.recordEmptyWakeObserved other) (run.pendingWakesFor slotId) (next.pendingWakesFor slotId) := by
  simp only [perform,effect_held] at after
  rcases recordEmptyWakeObserved_cases (some run) other with ⟨absent,_⟩ | ⟨run',consumed,held,rfl,same⟩
  · cases absent
  · cases held
    rw [same] at after
    cases maybeCompleteLocked_some after
    cases taken : run.popWake other with
    | none =>
      refine .quiet ?_ rfl
      unfold tallied
      simp only [Option.bind_some,taken]
    | some popped =>
      have entry : tallied (some run) slotId (.recordEmptyWakeObserved other) =
          if popped.1.slotId = slotId then { WakeTally.zero with observed := 1 } else .zero := by
        unfold tallied
        simp only [Option.bind_some,taken]
      exact taken_balanced valid taken rfl entry ⟨rfl,rfl⟩ Iff.rfl

theorem beginCancel_balanced (after : (perform teamId (some run) (.beginCancel target)).held = some next) :
    Balanced (some run) slotId (.beginCancel target) (run.pendingWakesFor slotId) (next.pendingWakesFor slotId) := by
  simp only [perform,effect_held] at after
  rcases beginCancel_cases (some run) target with ⟨error,same⟩ | ⟨run',cancelling,held,_,rfl,same⟩
  · rw [same] at after
    cases after
    refine .quiet ?_ rfl
    unfold tallied
    simp only [same,Critical.read]
  · cases held
    rw [same] at after
    cases after
    refine ⟨?_,fun elsewhere => absurd trivial elsewhere⟩
    have entry : tallied (some run) slotId (.beginCancel target) =
        { WakeTally.zero with cleared := (run.pendingWakesFor slotId).length } := by
      unfold tallied
      simp only [same]
    rw [entry]
    show (run.pendingWakesFor slotId).length + 0 = 0 + (0 + 0 + (run.pendingWakesFor slotId).length)
    omega

-- The other calls leave the queues alone.
theorem perform_balanced (teamId : String) (valid : WellFormed run) (operation : Operation) (slotId : String)
    (after : (perform teamId (some run) operation).held = some next) :
    Balanced (some run) slotId operation (run.pendingWakesFor slotId) (next.pendingWakesFor slotId) := by
  cases operation with
  | recordPendingWake => exact recordPendingWake_balanced after
  | claimWakeForTurn => exact claimWakeForTurn_balanced valid after
  | recordEmptyWakeObserved => exact recordEmptyWakeObserved_balanced valid after
  | beginCancel => exact beginCancel_balanced after
  | acceptUserMessage freshId target role allow messageId =>
    refine .quiet rfl ?_
    simp only [perform,effect_held] at after
    rcases acceptUserMessage_cases teamId freshId (some run) target role allow messageId with ⟨_,_,_,same⟩ | ⟨idle,_⟩
    · rw [same] at after
      cases after
      rfl
    · obtain ⟨inactive,awake⟩ := idle run rfl
      rcases valid.live with active | cancelling
      · rw [inactive] at active
        cases active
      · exact absurd cancelling awake
  | recordChildStarted now reservationId child =>
    refine .quiet rfl ?_
    simp only [perform,effect_held] at after
    rcases recordChildStarted_cases now (some run) reservationId child with
      ⟨_,same⟩ | ⟨_,_,held,_,⟨_,same⟩ | ⟨_,_,_,_,_,rfl,_,same⟩⟩ <;> rw [same] at after <;> cases after
    · rfl
    · cases held
      rfl
    · cases held
      rfl
  | recordChildStartFailed reservationId =>
    refine .quiet rfl ?_
    simp only [perform,effect_held] at after
    rcases recordChildStartFailed_cases (some run) reservationId with
      ⟨_,same⟩ | ⟨_,_,_,held,_,rfl,⟨_,same⟩ | ⟨_,_,same⟩⟩ <;> rw [same] at after
    · cases after
      rfl
    · cases held
      cases maybeCancelledLocked_some after
      rfl
    · cases after
  | recordChildCompleted other turnId status =>
    refine .quiet rfl ?_
    simp only [perform,effect_held] at after
    rcases recordChildCompleted_cases (some run) other turnId status with
      ⟨_,same⟩ | ⟨_,_,_,_,held,_,_,rfl,_,⟨_,same⟩ | ⟨_,same⟩⟩ <;> rw [same] at after
    · cases after
      rfl
    · cases after
    · cases held
      cases maybeCompleteLocked_some after
      rfl
  | maybeComplete =>
    refine .quiet rfl ?_
    cases maybeCompleteLocked_some after
    rfl
  | tryCompleteCancelled =>
    refine .quiet rfl ?_
    cases maybeCancelledLocked_some after
    rfl
  | completeFailed => cases after
  | beginCancelChild other =>
    refine .quiet rfl ?_
    simp only [perform,effect_held] at after
    rcases beginCancelChild_cases (some run) other with
      ⟨_,same⟩ | ⟨_,_,_,_,_,same⟩ | ⟨_,_,_,_,held,_,_,_,_,rfl,same⟩ <;> rw [same] at after <;> cases after
    · rfl
    · rfl
    · cases held
      rfl
  | recordChildCancelled child =>
    refine .quiet rfl ?_
    simp only [perform] at after
    rcases recordChildCancelled_cases (some run) child with ⟨absent,_⟩ | ⟨_,_,_,held,rfl,_,⟨_,same⟩ | ⟨_,same⟩⟩
    · cases absent
    · cases held
      rw [same] at after
      cases maybeCancelledLocked_some after
      rfl
    · cases held
      rw [same] at after
      cases after
      rfl

-- A run begins with no wakes, and no call makes one before it is held.
theorem unheld_queue (slotId : String) (after : (perform teamId none operation).held = some next) :
    next.pendingWakesFor slotId = [] ∧ tallied none slotId operation = .zero := by
  rcases perform_origin teamId held_none operation after with ⟨_,_,_,_,rfl,fresh,_⟩ | ⟨_,held,_⟩
  · rw [fresh]
    exact ⟨rfl,rfl⟩
  · cases held

end Queues

-- Every wake recorded in the run held is still queued or was taken once.
structure Conserved (book : WakeBook) : Prop where
  wellFormed : HeldWellFormed book.held
  count : ∀ run, book.held = some run → ∀ slotId,
    (book.tally slotId).recorded = (run.pendingWakesFor slotId).length + (book.tally slotId).gone

theorem Conserved.step {book next : WakeBook} (conserved : Conserved book) (entered : book.enter teamId operation = some next) : Conserved next := by
  cases entered
  refine ⟨perform_wellFormed teamId operation conserved.wellFormed,fun run after slotId => ?_⟩
  show (WakeTally.add _ _).recorded = _ + (WakeTally.add _ _).gone
  cases held : book.held with
  | none =>
    rw [held] at after
    obtain ⟨empty,silent⟩ := unheld_queue slotId after
    rw [empty,silent]
    rfl
  | some before =>
    have valid := conserved.wellFormed before held
    have earlier := conserved.count before held slotId
    rw [held] at after
    have step := (perform_balanced teamId valid operation slotId after).count
    simp only [Option.isNone_some,Bool.false_eq_true,if_false,WakeTally.add,WakeTally.gone] at earlier step ⊢
    omega

theorem conserved_run (path : Runs (WakeBook.enter teamId) .start operations book) : Conserved book := by
  refine path.invariant ⟨held_none,fun run held => ?_⟩ fun _ _ _ conserved entered => conserved.step entered
  cases held

theorem wakes_conserved (path : Runs (WakeBook.enter teamId) .start operations book) (current : book.held = some run) (slotId : String) :
    (∀ queue, run.pendingWakes.lookup slotId = some queue → queue ≠ [] ∧ ∀ wake ∈ queue, wake.slotId = slotId) ∧
    (∀ wake popped, run.popWake slotId = some (wake,popped) → wake.slotId = slotId) ∧
    (book.tally slotId).recorded = (run.pendingWakesFor slotId).length + (book.tally slotId).claimed +
      (book.tally slotId).observed + (book.tally slotId).cleared ∧
    ∀ operation next, book.enter teamId operation = some next → ∀ after, next.held = some after → ¬Touches slotId operation →
      after.pendingWakesFor slotId = run.pendingWakesFor slotId := by
  have conserved := conserved_run path
  have valid := conserved.wellFormed run current
  refine ⟨valid.queued slotId,fun wake popped taken => (valid.popWake taken).2,?_,fun operation next entered after held elsewhere => ?_⟩
  · have count := conserved.count run current slotId
    unfold WakeTally.gone at count
    omega
  · cases entered
    rw [current] at held
    exact (perform_balanced teamId valid operation slotId held).frame elsewhere

section Examples

-- Two wakes for the lead and one for a teammate, one of the lead's is claimed.
theorem wakes_conserved_lead : ∃ (book : WakeBook) (run : TeamRunRecord), book.held = some run ∧ (book.tally "lead").recorded = 2 ∧ (book.tally "lead").claimed = 1 ∧
    (book.tally "lead").recorded = (run.pendingWakesFor "lead").length + (book.tally "lead").claimed +
      (book.tally "lead").observed + (book.tally "lead").cleared := by
  have path : Runs (WakeBook.enter "team") .start [.acceptUserMessage "run" "lead" .lead false none,.recordPendingWake "lead" .lead .userMessage,
    .recordPendingWake "mate" .teammate .mcpSendMessage,.recordPendingWake "lead" .lead .userIntervention,
    .claimWakeForTurn "reservation" "lead" .lead "conversation"] _ := exec_exact.mp rfl
  exact ⟨_,_,rfl,rfl,rfl,(wakes_conserved path rfl "lead").2.2.1⟩

end Examples

end AlineaCopilot.TeamRun
