import AlineaCopilot.TeamRunReach
open AlineaCopilot.KeyedMaps AlineaCopilot.TransitionRuns

namespace AlineaCopilot.TeamRun

-- What a call may leave of the record it found: the same run, with no
-- reservation and no child but the ones it had and the one the call makes.
structure Continues (operation : Operation) (run next : TeamRunRecord) : Prop where
  id : next.teamRunId = run.teamRunId
  reservations : ∀ id reservation, next.startingReservations.lookup id = some reservation →
    (∃ old, run.startingReservations.lookup id = some old) ∨
      ∃ slotId role conversationId, operation = .claimWakeForTurn id slotId role conversationId
  children : ∀ slotId child, next.activeChildTurns.lookup slotId = some child →
    run.activeChildTurns.lookup slotId = some child ∨ ∃ now id, operation = .recordChildStarted now id child

section Continues
variable {operation : Operation} {run next : TeamRunRecord}

theorem Continues.refl : Continues operation run run :=
  ⟨rfl,fun _ reservation found => .inl ⟨reservation,found⟩,fun _ _ found => .inl found⟩

-- Calls that touch neither map.
theorem Continues.frame (id : next.teamRunId = run.teamRunId)
    (reservations : next.startingReservations = run.startingReservations)
    (children : next.activeChildTurns = run.activeChildTurns) : Continues operation run next :=
  ⟨id,fun _ reservation found => .inl ⟨reservation,reservations ▸ found⟩,fun _ _ found => .inl (children ▸ found)⟩

theorem Continues.eraseReservation (id : String) :
    Continues operation run { run with startingReservations := run.startingReservations.erase id } := by
  refine ⟨rfl,fun key reservation found => .inl ?_,fun _ _ found => .inl found⟩
  rw [lookup_erase_eq] at found
  split at found
  · cases found
  · exact ⟨reservation,found⟩

theorem Continues.eraseChild (slotId : String) :
    Continues operation run { run with activeChildTurns := run.activeChildTurns.erase slotId } := by
  refine ⟨rfl,fun _ reservation found => .inl ⟨reservation,found⟩,fun key child found => .inl ?_⟩
  rw [lookup_erase_eq] at found
  split at found
  · cases found
  · exact found

theorem maybeCompleteLocked_some (kept : (maybeCompleteLocked run).held = some next) : next = run := by
  rw [maybeCompleteLocked_held] at kept
  split at kept <;> cases kept
  rfl

theorem maybeCancelledLocked_some (kept : (maybeCancelledLocked run).held = some next) : next = run := by
  rw [maybeCancelledLocked_held] at kept
  split at kept <;> cases kept
  rfl

end Continues

-- Every call either accepts a message into a new run or goes on with the one held.
theorem perform_origin (teamId : String) (valid : HeldWellFormed held) (operation : Operation)
    (after : (perform teamId held operation).held = some next) :
    (∃ target role allow messageId, operation = .acceptUserMessage next.teamRunId target role allow messageId ∧
      next = ⟨next.teamRunId,teamId,target,role,.accepted,none,∅,∅,∅⟩ ∧
      ∀ run, held = some run → run.isActive = false ∧ run.status ≠ .cancelling) ∨
    ∃ run, held = some run ∧ Continues operation run next := by
  cases operation with
  | acceptUserMessage freshId target role allow messageId =>
    simp only [perform,effect_held] at after
    rcases acceptUserMessage_cases teamId freshId held target role allow messageId with ⟨_,run,_,same⟩ | ⟨idle,same⟩
    · rw [same] at after
      exact .inr ⟨next,after,.refl⟩
    · rw [same] at after
      cases Option.some.inj after
      exact .inl ⟨target,role,allow,messageId,rfl,rfl,idle⟩
  | recordPendingWake slotId role source =>
    simp only [perform,effect_held] at after
    rcases recordPendingWake_cases held slotId role source with ⟨_,_,same⟩ | ⟨run,rfl,_,_,rfl,same⟩ <;> rw [same] at after
    · exact .inr ⟨next,after,.refl⟩
    · cases Option.some.inj after
      exact .inr ⟨run,rfl,.frame rfl rfl rfl⟩
  | claimWakeForTurn freshId slotId role conversationId =>
    simp only [perform,effect_held] at after
    rcases claimWakeForTurn_cases freshId held slotId role conversationId with
      ⟨_,same⟩ | ⟨run,pending,popped,rfl,_,taken,reservation,_,_,rfl,same⟩ <;> rw [same] at after
    · exact .inr ⟨next,after,.refl⟩
    · cases Option.some.inj after
      have kept := (popWake_some taken).2
      refine .inr ⟨run,rfl,by rw [kept],fun key stored found => ?_,fun key child found => ?_⟩
      · rw [kept,lookup_insert_eq] at found
        split at found
        · rename_i same
          exact .inr ⟨slotId,role,conversationId,by rw [same]⟩
        · exact .inl ⟨stored,found⟩
      · rw [kept] at found
        exact .inl found
  | recordEmptyWakeObserved slotId =>
    simp only [perform,effect_held] at after
    rcases recordEmptyWakeObserved_cases held slotId with ⟨rfl,same⟩ | ⟨run,_,rfl,rfl,same⟩ <;> rw [same] at after
    · cases after
    · cases maybeCompleteLocked_some after
      cases taken : run.popWake slotId with
      | none => exact .inr ⟨run,rfl,.refl⟩
      | some popped =>
        have kept := (popWake_some taken).2
        refine .inr ⟨run,rfl,.frame ?_ ?_ ?_⟩ <;> simp only [Option.map_some,Option.getD_some] <;> rw [kept]
  | recordChildStarted now reservationId child =>
    simp only [perform,effect_held] at after
    rcases recordChildStarted_cases now held reservationId child with
      ⟨_,same⟩ | ⟨run,reservation,rfl,_,⟨_,same⟩ | ⟨_,_,_,_,_,rfl,_,same⟩⟩ <;> rw [same] at after
    · exact .inr ⟨next,after,.refl⟩
    · cases Option.some.inj after
      exact .inr ⟨run,rfl,.eraseReservation _⟩
    · cases Option.some.inj after
      have erased : Continues (.recordChildStarted now reservationId child) run
        { run with startingReservations := run.startingReservations.erase reservationId } := .eraseReservation _
      refine .inr ⟨run,rfl,rfl,erased.reservations,fun slotId stored found => ?_⟩
      rw [lookup_insert_eq] at found
      split at found
      · cases Option.some.inj found
        exact .inr ⟨now,reservationId,rfl⟩
      · exact .inl found
  | recordChildStartFailed reservationId =>
    simp only [perform,effect_held] at after
    rcases recordChildStartFailed_cases held reservationId with
      ⟨_,same⟩ | ⟨run,reservation,_,rfl,_,rfl,⟨_,same⟩ | ⟨_,_,same⟩⟩ <;> rw [same] at after
    · exact .inr ⟨next,after,.refl⟩
    · cases maybeCancelledLocked_some after
      exact .inr ⟨run,rfl,.eraseReservation _⟩
    · cases after
  | recordChildCompleted slotId turnId status =>
    simp only [perform,effect_held] at after
    rcases recordChildCompleted_cases held slotId turnId status with
      ⟨_,same⟩ | ⟨run,child,_,_,rfl,_,_,rfl,_,⟨_,same⟩ | ⟨_,same⟩⟩ <;> rw [same] at after
    · exact .inr ⟨next,after,.refl⟩
    · cases after
    · cases maybeCompleteLocked_some after
      exact .inr ⟨run,rfl,.eraseChild _⟩
  | maybeComplete =>
    simp only [perform,effect_held] at after
    rcases maybeComplete_cases held with ⟨rfl,same⟩ | ⟨run,rfl,same⟩ <;> rw [same] at after
    · cases after
    · cases maybeCompleteLocked_some after
      exact .inr ⟨_,rfl,.refl⟩
  | beginCancel target =>
    simp only [perform,effect_held] at after
    rcases beginCancel_cases held target with ⟨_,same⟩ | ⟨run,_,rfl,_,rfl,same⟩ <;> rw [same] at after
    · exact .inr ⟨next,after,.refl⟩
    · cases Option.some.inj after
      refine .inr ⟨run,rfl,rfl,fun id reservation found => .inl ?_,fun _ _ found => .inl found⟩
      simp only [lookup_mapValues,Option.map_eq_some_iff] at found
      obtain ⟨old,found,_⟩ := found
      exact ⟨old,found⟩
  | tryCompleteCancelled =>
    simp only [perform,effect_held] at after
    rcases tryCompleteCancelled_cases held with ⟨rfl,same⟩ | ⟨run,rfl,same⟩ <;> rw [same] at after
    · cases after
    · cases maybeCancelledLocked_some after
      exact .inr ⟨_,rfl,.refl⟩
  | completeFailed =>
    simp only [perform,effect_held] at after
    rcases completeFailed_cases held with ⟨rfl,same⟩ | ⟨run,rfl,same⟩ <;> rw [same] at after <;> cases after
  | beginCancelChild slotId =>
    simp only [perform,effect_held] at after
    rcases beginCancelChild_cases held slotId with
      ⟨_,same⟩ | ⟨_,_,_,_,_,same⟩ | ⟨run,id,reservation,_,rfl,_,_,stored,_,rfl,same⟩ <;> rw [same] at after
    · exact .inr ⟨next,after,.refl⟩
    · exact .inr ⟨next,after,.refl⟩
    · cases Option.some.inj after
      refine .inr ⟨run,rfl,rfl,fun key other found => .inl ?_,fun _ _ found => .inl found⟩
      rw [lookup_insert_eq] at found
      split at found
      · rename_i same
        rw [same,((valid run rfl).reserved id reservation stored).1]
        exact ⟨reservation,stored⟩
      · exact ⟨other,found⟩
  | recordChildCancelled child =>
    simp only [perform] at after
    rcases recordChildCancelled_cases held child with ⟨rfl,same⟩ | ⟨run,_,_,rfl,rfl,_,⟨_,same⟩ | ⟨_,same⟩⟩ <;>
      rw [same] at after
    · cases after
    · cases maybeCancelledLocked_some after
      exact .inr ⟨run,rfl,.eraseChild _⟩
    · cases Option.some.inj after
      exact .inr ⟨run,rfl,.eraseChild _⟩

-- The calls made so far, as far as they name things: the runs accepted, the
-- reservations claimed and the turns reported started, each with its run.
structure History where
  held : Option TeamRunRecord
  runs : List String
  reservations : List (String × String)
  turns : List (String × String)

def History.start : History := ⟨none,[],[],[]⟩

-- `generate_id` and the ids of turns do not repeat.
def History.Fresh (history : History) : Operation → Prop
  | .acceptUserMessage freshId _ _ _ _ => freshId ∉ history.runs
  | .claimWakeForTurn freshId _ _ _ => freshId ∉ history.reservations.map Prod.fst
  | .recordChildStarted _ _ child => child.turnId ∉ history.turns.map Prod.fst
  | _ => True

instance (history : History) (operation : Operation) : Decidable (history.Fresh operation) := by
  cases operation <;> unfold History.Fresh <;> infer_instance

def History.note (history : History) : Operation → History
  | .acceptUserMessage freshId _ _ _ _ => { history with runs := freshId :: history.runs }
  | .claimWakeForTurn freshId _ _ _ =>
    { history with reservations := (freshId,(currentRunId history.held).getD "") :: history.reservations }
  | .recordChildStarted _ _ child => { history with turns := (child.turnId,child.teamRunId) :: history.turns }
  | _ => history

def record (teamId : String) (history : History) (operation : Operation) : Option History :=
  if history.Fresh operation then
    some { history.note operation with held := (perform teamId history.held operation).held }
  else none

def Functional (pairs : List (String × String)) : Prop :=
  ∀ key one two, (key,one) ∈ pairs → (key,two) ∈ pairs → one = two

theorem Functional.cons (functional : Functional pairs) (fresh : key ∉ pairs.map Prod.fst) :
    Functional ((key,value) :: pairs) := by
  have absent : ∀ other, (key,other) ∉ pairs := fun other member => fresh (List.mem_map_of_mem member)
  intro name one two first second
  rcases List.mem_cons.mp first with equal | first <;> rcases List.mem_cons.mp second with also | second
  · cases equal
    cases also
    rfl
  · cases equal
    exact absurd second (absent two)
  · cases also
    exact absurd first (absent one)
  · exact functional name one two first second

-- What the record holds was named by a call of its own run.
structure Recorded (history : History) : Prop where
  wellFormed : HeldWellFormed history.held
  current : ∀ run, history.held = some run → run.teamRunId ∈ history.runs
  reserved : ∀ run, history.held = some run → ∀ id reservation,
    run.startingReservations.lookup id = some reservation → (id,run.teamRunId) ∈ history.reservations
  started : ∀ run, history.held = some run → ∀ slotId child,
    run.activeChildTurns.lookup slotId = some child → (child.turnId,run.teamRunId) ∈ history.turns
  oneRun : Functional history.reservations
  oneTurn : Functional history.turns

theorem start_recorded : Recorded .start :=
  ⟨held_none,by simp [History.start],by simp [History.start],by simp [History.start],by simp [Functional,History.start],
    by simp [Functional,History.start]⟩

theorem note_runs (history : History) (operation : Operation) : history.runs ⊆ (history.note operation).runs := by
  cases operation <;> first | exact List.Subset.refl _ | exact List.subset_cons_self _ _

theorem note_reservations (history : History) (operation : Operation) :
    history.reservations ⊆ (history.note operation).reservations := by
  cases operation <;> first | exact List.Subset.refl _ | exact List.subset_cons_self _ _

theorem note_turns (history : History) (operation : Operation) : history.turns ⊆ (history.note operation).turns := by
  cases operation <;> first | exact List.Subset.refl _ | exact List.subset_cons_self _ _

theorem Recorded.step (recorded : Recorded history) (made : record teamId history operation = some next) :
    Recorded next := by
  unfold record at made
  split at made <;> cases made
  rename_i fresh
  have valid := perform_wellFormed teamId operation recorded.wellFormed
  have oneRun : Functional (history.note operation).reservations := by
    cases operation with
    | claimWakeForTurn => exact recorded.oneRun.cons fresh
    | _ => exact recorded.oneRun
  have oneTurn : Functional (history.note operation).turns := by
    cases operation with
    | recordChildStarted => exact recorded.oneTurn.cons fresh
    | _ => exact recorded.oneTurn
  refine ⟨valid,fun run after => ?_,fun run after id reservation found => ?_,fun run after slotId child found => ?_,
    oneRun,oneTurn⟩
  · rcases perform_origin teamId recorded.wellFormed operation after with ⟨_,_,_,_,rfl,_,_⟩ | ⟨old,held,goes⟩
    · exact List.mem_cons_self
    · rw [goes.id]
      exact note_runs history operation (recorded.current old held)
  · rcases perform_origin teamId recorded.wellFormed operation after with ⟨_,_,_,_,_,made,_⟩ | ⟨old,held,goes⟩
    · rw [made] at found
      simp at found
    · rw [goes.id]
      rcases goes.reservations id reservation found with ⟨earlier,there⟩ | ⟨_,_,_,rfl⟩
      · exact note_reservations history operation (recorded.reserved old held id earlier there)
      · simp [History.note,held,currentRunId]
  · rcases perform_origin teamId recorded.wellFormed operation after with ⟨_,_,_,_,_,made,_⟩ | ⟨old,held,goes⟩
    · rw [made] at found
      simp at found
    · rw [goes.id]
      rcases goes.children slotId child found with there | ⟨_,_,rfl⟩
      · exact note_turns history operation (recorded.started old held slotId child there)
      · have same : child.teamRunId = run.teamRunId := ((valid run after).children slotId child found).2
        rw [goes.id] at same
        exact List.mem_cons.mpr (.inl (by rw [same]))

theorem recorded_run (path : Runs (record teamId) .start operations history) : Recorded history :=
  path.invariant start_recorded fun _ _ _ recorded made => recorded.step made

end AlineaCopilot.TeamRun
