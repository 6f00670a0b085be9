import AlineaCopilot.TeamRunBroadcasts
import AlineaCopilot.TeamRunCancel
open AlineaCopilot.KeyedMaps AlineaCopilot.TransitionRuns AlineaCopilot.TeamRun

namespace AlineaCopilot.TeamRunAccounting

structure WakeInput where
  teamRunId : Option String
  conversationId : String
  role : TeamRunTargetRole
deriving DecidableEq, Repr

-- Where a slot's event loop stands, at most one turn at a time. The callback that
-- reports a started turn is awaited inside the port's call.
inductive LoopStage where
  | waiting
  | woken (input : WakeInput)
  | sending (input : WakeInput) (reservationId : Option String)
  | late (teamRunId conversationId : String) (role : TeamRunTargetRole) (turnId : String)
  | halted (teamRunId turnId : String)
  | running (teamRunId turnId : String)
  | returned (teamRunId turnId : Option String) (ok : Bool)
  | reporting (turnId : String) (ok : Bool)
  | completing
deriving DecidableEq, Repr

-- What a call of the session has still to do. The mailbox and the ports stand
-- between its calls of the manager.
inductive Task where
  | writing (slotId : String) (role : TeamRunTargetRole) (source : TeamWakeSource)
  | waking (slotId : String) (role : TeamRunTargetRole) (source : TeamWakeSource)
  | cancelRun (task : CancelTask)
  | cancelChild (child : ActiveChildTurn)
  | interrupted (thenTry : Bool)
  | completing
  | trying
deriving DecidableEq

-- The turns the manager took into `active_child_turns`, each with its run, the turns
-- reported by their own id, and the runs told to be completed.
structure World where
  history : History
  accepted : List (String × String)
  reported : List String
  completed : List String
  loops : String → LoopStage
  tasks : List Task

def World.start : World := ⟨.start,[],[],[],fun _ => .waiting,[]⟩

def World.held (w : World) : Option TeamRunRecord := w.history.held

-- What a callback's call brings into `active_child_turns`.
def entered (held : Option TeamRunRecord) : Operation → List (String × String)
  | .recordChildStarted now reservationId child =>
    match (recordChildStarted now held reservationId child).result with
    | .accepted | .cancelImmediately _ => [(child.turnId,child.teamRunId)]
    | .ignored => []
  | _ => []

def reports : Operation → List String
  | .recordChildCompleted _ turnId _ => [turnId]
  | .recordChildCancelled child => [child.turnId]
  | _ => []

def completions (events : List TeamEvent) : List String :=
  events.filterMap fun
    | .teamRun .completed payload => some payload.teamRunId
    | _ => none

namespace World

def call (teamId : String) (w : World) (operation : Operation) : Option World :=
  (record teamId w.history operation).map fun history =>
    let critical := perform teamId w.held operation
    { w with
      history := history
      accepted := entered w.held operation ++ w.accepted
      reported := reports operation ++ w.reported
      completed := completions (critical.locked ++ critical.deferred) ++ w.completed }

def moves (w : World) (slotId : String) (stage : LoopStage) : World := { w with loops := Function.update w.loops slotId stage }

def adds (w : World) (task : Task) : World := { w with tasks := w.tasks ++ [task] }

def put (w : World) (n : Nat) (task : Task) : World := { w with tasks := w.tasks.set n task }

def drop (w : World) (n : Nat) : World := { w with tasks := w.tasks.eraseIdx n }

end World

inductive Action where
  -- `send_message`, and `send_message_to_agent`, which lets a teammate's message in
  -- while a run is active.
  | sendMessage (freshId slotId : String) (role : TeamRunTargetRole) (source : TeamWakeSource)
  | wakeAgentForTeamWork (slotId : String) (role : TeamRunTargetRole) (source : TeamWakeSource)
  | cancelRun (teamRunId : String) (targetSlotId : Option String)
  | cancelChildTurn (teamRunId slotId : String)
  | proceed (task : Nat) (ok : Bool) (lead : Option String)
  -- An event loop's own steps.
  | observeEmpty (slotId : String)
  | wake (slotId conversationId : String) (role : TeamRunTargetRole)
  | claim (slotId freshId : String)
  | started (slotId turnId : String) (now : Nat)
  | cancelLate (slotId : String)
  | tryLate (slotId : String)
  | answer (slotId turnId : String) (ok : Bool)
  | fail (slotId : String)
  | finalize (slotId : String) (lead : Option String)
  | report (slotId : String)
  | complete (slotId : String)
deriving DecidableEq

section Steps
variable (teamId : String)

-- What `cancel_child_turn` goes on with. A reservation it has marked stays marked
-- where the run is another one.
def afterBegin (teamRunId : String) : Except TeamError ChildCancelTarget → Option Task
  | .error _ => none
  | .ok (.active child) => if child.teamRunId = teamRunId then some (.cancelChild child) else none
  | .ok (.starting reservation) =>
    if reservation.teamRunId = teamRunId then some (if reservation.role = .teammate then .interrupted true else .trying) else none

-- The next call of a task. What the port answers to a cancelled run is only logged;
-- `cancel_child_turn` returns where it fails. `lead` is the lead the notification of
-- an interrupted child reaches.
def advance (w : World) (n : Nat) (ok : Bool) (lead : Option String) : Task → Option World
  | .writing slotId role source => if ok then some (w.put n (.waking slotId role source)) else (w.drop n).call teamId .completeFailed
  | .waking slotId role source => if ok then (w.drop n).call teamId (.recordPendingWake slotId role source) else some (w.drop n)
  | .cancelRun (.checked target) =>
    match (beginCancel w.held target).result with
    | .ok () => (w.put n (.cancelRun .marking)).call teamId (.beginCancel target)
    | .error _ => some (w.drop n)
  | .cancelRun .marking =>
    some (if ok then w.put n (.cancelRun (.cancelling (activeChildTurns w.held))) else w.drop n)
  | .cancelRun (.cancelling (child :: rest)) => (w.put n (.cancelRun (.cancelling rest))).call teamId (.recordChildCancelled child)
  | .cancelRun (.cancelling []) => (w.drop n).call teamId .tryCompleteCancelled
  | .cancelChild child =>
    if ok then
      (w.put n (if child.role = .teammate then .interrupted false else .completing)).call teamId (.recordChildCancelled child)
    else some (w.drop n)
  | .interrupted thenTry =>
    let next := if thenTry then w.put n .trying else w.drop n
    match lead with
    | none => some next
    | some slotId =>
      if ok ∧ (recordPendingWake w.held slotId .lead .interruptedNotification).result = .ok () then
        next.call teamId (.recordPendingWake slotId .lead .interruptedNotification)
      else some (w.drop n)
  | .completing => (w.drop n).call teamId .maybeComplete
  | .trying => (w.drop n).call teamId .tryCompleteCancelled

-- What the callback does with the manager's decision.
def afterStart (teamRunId turnId : String) : ChildStartDecision → LoopStage
  | .cancelImmediately child => .late teamRunId child.conversationId child.role child.turnId
  | .accepted | .ignored => .running teamRunId turnId

-- A turn without a run is not reported.
def afterFinalize (ok : Bool) : Option String → Option String → LoopStage
  | some _,some turnId => .reporting turnId ok
  | _,_ => .waiting

-- The port calls back at most once, before it answers, and answers with the turn
-- it called back with.
def step (w : World) : Action → Option World
  | .sendMessage freshId slotId role source =>
    let allow : Bool := role = .teammate
    match (acceptUserMessage teamId freshId w.held slotId role allow none).result with
    | .ok _ => (w.adds (.writing slotId role source)).call teamId (.acceptUserMessage freshId slotId role allow none)
    | .error _ => some w
  | .wakeAgentForTeamWork slotId role source => w.call teamId (.recordPendingWake slotId role source)
  | .cancelRun teamRunId target =>
    match checkCurrentRun w.held teamRunId with
    | .ok () => some (w.adds (.cancelRun (.checked target)))
    | .error _ => some w
  | .cancelChildTurn teamRunId slotId =>
    match afterBegin teamRunId (beginCancelChild w.held slotId).result with
    | some task => (w.adds task).call teamId (.beginCancelChild slotId)
    | none => w.call teamId (.beginCancelChild slotId)
  | .proceed n ok lead => (w.tasks[n]?).bind (advance teamId w n ok lead)
  | .observeEmpty slotId =>
    match w.loops slotId with
    | .waiting => w.call teamId (.recordEmptyWakeObserved slotId)
    | _ => none
  | .wake slotId conversationId role =>
    match w.loops slotId with
    | .waiting => some (w.moves slotId (.woken ⟨activeRunId w.held,conversationId,role⟩))
    | _ => none
  | .claim slotId freshId =>
    match w.loops slotId with
    | .woken input =>
      match input.teamRunId with
      | none => some (w.moves slotId (.sending input none))
      | some _ =>
        match (claimWakeForTurn freshId w.held slotId input.role input.conversationId).result with
        | some reservation =>
          (w.moves slotId (.sending input (some reservation.reservationId))).call teamId
            (.claimWakeForTurn freshId slotId input.role input.conversationId)
        | none => some (w.moves slotId .waiting)
    | _ => none
  | .started slotId turnId now =>
    match w.loops slotId with
    | .sending ⟨some teamRunId,conversationId,role⟩ (some reservationId) =>
      let child : ActiveChildTurn := ⟨teamRunId,slotId,role,conversationId,turnId⟩
      (w.moves slotId (afterStart teamRunId turnId (recordChildStarted now w.held reservationId child).result)).call teamId
        (.recordChildStarted now reservationId child)
    | _ => none
  | .cancelLate slotId =>
    match w.loops slotId with
    | .late teamRunId conversationId role turnId =>
      (w.moves slotId (.halted teamRunId turnId)).call teamId (.recordChildCancelled ⟨teamRunId,slotId,role,conversationId,turnId⟩)
    | _ => none
  | .tryLate slotId =>
    match w.loops slotId with
    | .halted teamRunId turnId => (w.moves slotId (.running teamRunId turnId)).call teamId .tryCompleteCancelled
    | _ => none
  | .answer slotId turnId ok =>
    match w.loops slotId with
    | .sending input _ => some (w.moves slotId (.returned input.teamRunId (some turnId) ok))
    | .running teamRunId turnId => some (w.moves slotId (.returned (some teamRunId) (some turnId) ok))
    | _ => none
  | .fail slotId =>
    match w.loops slotId with
    | .sending ⟨some teamRunId,_,_⟩ (some reservationId) =>
      (w.moves slotId (.returned (some teamRunId) none false)).call teamId (.recordChildStartFailed reservationId)
    | .sending input _ => some (w.moves slotId (.returned input.teamRunId none false))
    | .running teamRunId _ => (w.moves slotId (.returned (some teamRunId) none false)).call teamId .completeFailed
    | _ => none
  | .finalize slotId lead =>
    match w.loops slotId with
    | .returned teamRunId turnId ok =>
      let next := w.moves slotId (afterFinalize ok teamRunId turnId)
      match lead with
      | none => some next
      | some leadSlotId =>
        if leadSlotId = slotId then some next else next.call teamId (.recordPendingWake leadSlotId .lead .idleNotification)
    | _ => none
  | .report slotId =>
    match w.loops slotId with
    | .reporting turnId ok =>
      (w.moves slotId .completing).call teamId (.recordChildCompleted slotId turnId (if ok then .completed else .failed))
    | _ => none
  | .complete slotId =>
    match w.loops slotId with
    | .completing => (w.moves slotId .waiting).call teamId .maybeComplete
    | _ => none

end Steps

-- A late cancellation: the slot has another turn by now.
def cancels (w : World) (n : Nat) (ok : Bool) : Option ActiveChildTurn :=
  match w.tasks[n]? with
  | some (.cancelChild child) => if ok then some child else none
  | some (.cancelRun (.cancelling (child :: _))) => some child
  | _ => none

-- What the slot holds is the turn the call names, or nothing.
def NamesItsTurn (held : Option TeamRunRecord) (child : ActiveChildTurn) : Prop :=
  ∀ run other, held = some run → run.activeChildTurns.lookup child.slotId = some other → other.turnId = child.turnId

def InTime (w : World) : Action → Prop
  | .proceed n ok _ => ∀ child, cancels w n ok = some child → NamesItsTurn w.held child
  | _ => True

-- The turn the slot's loop will report.
def LoopStage.turn : LoopStage → Option String
  | .waiting | .woken _ | .sending .. | .completing => none
  | .late _ _ _ turnId | .halted _ turnId | .running _ turnId | .reporting turnId _ => some turnId
  | .returned teamRunId turnId _ => teamRunId.bind fun _ => turnId

structure Accounted (w : World) : Prop where
  valid : HeldWellFormed w.held
  known : ∀ run, w.held = some run → run.teamRunId ∈ w.history.runs
  accepted : ∀ t r, (t,r) ∈ w.accepted → r ∈ w.history.runs
  completed : ∀ r ∈ w.completed, r ∈ w.history.runs ∧ (∀ run, w.held = some run → run.teamRunId ≠ r) ∧ ∀ t, (t,r) ∈ w.accepted → t ∈ w.reported
  kept : ∀ run, w.held = some run → ∀ t, (t,run.teamRunId) ∈ w.accepted →
    t ∈ w.reported ∨ ∃ slotId child, run.activeChildTurns.lookup slotId = some child ∧ child.turnId = t

def Attended (w : World) : Prop :=
  ∀ run, w.held = some run → ∀ slotId child, run.activeChildTurns.lookup slotId = some child → (w.loops slotId).turn = some child.turnId

structure Sound (w : World) : Prop where
  accounted : Accounted w
  attended : Attended w

-- A turn starts in a slot that has none, and a cancellation names what it takes away.
def Vacant (held : Option TeamRunRecord) : Operation → Prop
  | .recordChildStarted _ _ child => ∀ run, held = some run → run.activeChildTurns.lookup child.slotId = none
  | .recordChildCancelled child => NamesItsTurn held child
  | _ => True

def Entering (w : World) : Operation → Prop
  | .recordChildStarted _ _ child => (w.loops child.slotId).turn = some child.turnId
  | _ => True

section Calls
variable {teamId : String} {held : Option TeamRunRecord} {run next : TeamRunRecord} {operation : Operation}

theorem completions_complete (told : r ∈ completions (maybeCompleteLocked run).events) :
    r = run.teamRunId ∧ run.outstanding = false ∧ (maybeCompleteLocked run).held = none := by
  rcases maybeCompleteLocked_cases run with ⟨_,same⟩ | ⟨reported,active,same⟩ | ⟨_,_,same⟩
  · rw [same] at told
    cases told
  · refine ⟨?_,reported,maybeCompleteLocked_none.mpr ⟨active,reported⟩⟩
    rw [same] at told
    exact List.mem_singleton.mp told
  · rw [same] at told
    cases told

theorem completions_cancelled (run : TeamRunRecord) : completions (maybeCancelledLocked run).events = [] := by
  rcases maybeCancelledLocked_cases run with ⟨_,same⟩ | ⟨_,_,same⟩ | ⟨_,_,same⟩ <;> rw [same] <;> rfl

theorem outstanding_children (reported : run.outstanding = false) (slotId : String) : run.activeChildTurns.lookup slotId = none :=
  (outstanding_false.mp reported).2.2 slotId

-- A run is told to be completed by the call that takes away the last of what is
-- outstanding, and that call names the turn it takes away.
theorem completion (told : r ∈ completions ((perform teamId held operation).locked ++ (perform teamId held operation).deferred)) :
    ∃ run, held = some run ∧ r = run.teamRunId ∧ (perform teamId held operation).held = none ∧
      ∀ slotId child, run.activeChildTurns.lookup slotId = some child → child.turnId ∈ reports operation := by
  cases operation with
  | acceptUserMessage freshId target role allow messageId =>
    rcases acceptUserMessage_cases teamId freshId held target role allow messageId with ⟨_,_,_,same⟩ | ⟨_,same⟩ <;>
      rw [perform,same] at told <;> cases told
  | recordPendingWake slotId role source =>
    rcases recordPendingWake_cases held slotId role source with ⟨_,_,same⟩ | ⟨_,_,_,_,_,same⟩ <;> rw [perform,same] at told <;> cases told
  | claimWakeForTurn freshId slotId role conversationId =>
    rcases claimWakeForTurn_cases freshId held slotId role conversationId with ⟨_,same⟩ | ⟨_,_,_,_,_,_,_,_,_,_,same⟩ <;>
      rw [perform,same] at told <;> cases told
  | recordEmptyWakeObserved slotId =>
    rcases recordEmptyWakeObserved_cases held slotId with ⟨_,same⟩ | ⟨run,consumed,here,rest,same⟩ <;> rw [perform,same] at told ⊢
    · cases told
    · simp only [Critical.effect,List.append_nil] at told ⊢
      obtain ⟨named,reported,ended⟩ := completions_complete told
      rw [consumed_frame] at rest
      refine ⟨run,here,by rw [named,rest],ended,fun slotId child found => ?_⟩
      have absent := outstanding_children reported slotId
      rw [rest,found] at absent
      cases absent
  | recordChildStarted now id child =>
    rcases recordChildStarted_cases now held id child with ⟨_,same⟩ | ⟨_,_,_,_,⟨_,same⟩ | ⟨_,_,_,name,_,_,middle,same⟩⟩ <;> rw [perform,same] at told
    · cases told
    · cases told
    · rcases middle with rfl | rfl <;> cases told
  | recordChildStartFailed id =>
    rcases recordChildStartFailed_cases held id with ⟨_,same⟩ | ⟨_,_,removed,_,_,_,⟨_,same⟩ | ⟨_,_,same⟩⟩ <;> rw [perform,same] at told
    · cases told
    · simp only [Critical.effect,List.append_nil,completions_cancelled] at told
      cases told
    · cases told
  | recordChildCompleted slotId turnId status =>
    rcases recordChildCompleted_cases held slotId turnId status with
      ⟨_,same⟩ | ⟨run,child,removed,_,here,found,turn,rest,tells,⟨_,same⟩ | ⟨_,same⟩⟩ <;> rw [perform,same] at told ⊢
    · cases told
    · rw [tells] at told
      cases told
    · rw [tells] at told
      simp only [Critical.effect,List.append_nil] at told ⊢
      obtain ⟨named,reported,ended⟩ := completions_complete (show r ∈ completions (maybeCompleteLocked removed).events from told)
      refine ⟨run,here,by rw [named,rest],ended,fun other stored there => ?_⟩
      have absent := outstanding_children reported other
      rw [rest,lookup_erase_eq] at absent
      split at absent
      · rename_i equal
        rw [equal,found] at there
        cases there
        exact List.mem_singleton.mpr turn
      · rw [there] at absent
        cases absent
  | maybeComplete =>
    rcases maybeComplete_cases held with ⟨_,same⟩ | ⟨run,here,same⟩ <;> rw [perform,same] at told ⊢
    · cases told
    · simp only [Critical.effect,List.append_nil] at told ⊢
      obtain ⟨named,reported,ended⟩ := completions_complete told
      refine ⟨run,here,named,ended,fun slotId child found => ?_⟩
      rw [outstanding_children reported slotId] at found
      cases found
  | beginCancel target =>
    rcases beginCancel_cases held target with ⟨_,same⟩ | ⟨_,_,_,_,_,same⟩ <;> rw [perform,same] at told <;> cases told
  | tryCompleteCancelled =>
    rcases tryCompleteCancelled_cases held with ⟨_,same⟩ | ⟨run,_,same⟩ <;> rw [perform,same] at told
    · cases told
    · simp only [Critical.effect,List.append_nil,completions_cancelled] at told
      cases told
  | completeFailed =>
    rcases completeFailed_cases held with ⟨_,same⟩ | ⟨_,_,same⟩ <;> rw [perform,same] at told <;> cases told
  | beginCancelChild slotId =>
    rcases beginCancelChild_cases held slotId with ⟨_,same⟩ | ⟨_,_,_,_,_,same⟩ | ⟨_,_,_,_,_,_,_,_,_,_,same⟩ <;>
      rw [perform,same] at told <;> cases told
  | recordChildCancelled child =>
    rcases recordChildCancelled_cases held child with ⟨_,same⟩ | ⟨run,removed,_,_,_,tells,⟨_,same⟩ | ⟨_,same⟩⟩ <;> rw [perform,same] at told
    · cases told
    · rw [tells] at told
      simp only [completions,List.filterMap_append] at told
      rcases List.mem_append.mp told with early | later
      · rw [show (maybeCancelledLocked removed).events.filterMap _ = [] from completions_cancelled removed] at early
        cases early
      · cases later
    · rw [tells] at told
      cases told

-- A call takes a turn out of `active_child_turns` only where it names the turn.
theorem child_stays (valid : HeldWellFormed held) (vacant : Vacant held operation) (here : held = some run)
    (after : (perform teamId held operation).held = some next) (found : run.activeChildTurns.lookup slotId = some child) :
    next.activeChildTurns.lookup slotId = some child ∨ child.turnId ∈ reports operation := by
  subst here
  cases operation with
  | acceptUserMessage freshId target role allow messageId =>
    simp only [perform,effect_held] at after
    rcases acceptUserMessage_cases teamId freshId (some run) target role allow messageId with ⟨_,_,_,same⟩ | ⟨idle,same⟩
    · rw [same] at after
      cases after
      exact .inl found
    · obtain ⟨inactive,awake⟩ := idle run rfl
      rcases (valid run rfl).live with active | cancelling
      · rw [inactive] at active
        cases active
      · exact absurd cancelling awake
  | recordPendingWake slotId role source =>
    simp only [perform,effect_held] at after
    rcases recordPendingWake_cases (some run) slotId role source with ⟨_,_,same⟩ | ⟨_,here,_,_,rfl,same⟩ <;> rw [same] at after <;> cases after
    · exact .inl found
    · cases here
      exact .inl found
  | claimWakeForTurn freshId slotId role conversationId =>
    simp only [perform,effect_held] at after
    rcases claimWakeForTurn_cases freshId (some run) slotId role conversationId with
      ⟨_,same⟩ | ⟨_,_,_,here,_,taken,_,_,_,rfl,same⟩ <;> rw [same] at after <;> cases after
    · exact .inl found
    · cases here
      rw [(popWake_some taken).2]
      exact .inl found
  | recordEmptyWakeObserved slotId =>
    simp only [perform,effect_held] at after
    rcases recordEmptyWakeObserved_cases (some run) slotId with ⟨none_,_⟩ | ⟨_,_,here,rest,same⟩
    · cases none_
    · cases here
      rw [same] at after
      rw [maybeCompleteLocked_some after,rest,consumed_frame]
      exact .inl found
  | recordChildStarted now id started =>
    simp only [perform,effect_held] at after
    rcases recordChildStarted_cases now (some run) id started with
      ⟨_,same⟩ | ⟨_,_,here,_,⟨_,same⟩ | ⟨_,_,_,_,_,rfl,_,same⟩⟩ <;> rw [same] at after <;> cases after
    · exact .inl found
    · cases here
      exact .inl found
    · cases here
      refine .inl ?_
      rw [lookup_insert_eq]
      split
      · rename_i equal
        rw [equal,vacant run rfl] at found
        cases found
      · exact found
  | recordChildStartFailed id =>
    simp only [perform,effect_held] at after
    rcases recordChildStartFailed_cases (some run) id with ⟨_,same⟩ | ⟨_,_,_,here,_,rest,⟨_,same⟩ | ⟨_,_,same⟩⟩ <;> rw [same] at after
    · cases after
      exact .inl found
    · cases here
      rw [maybeCancelledLocked_some after,rest]
      exact .inl found
    · cases after
  | recordChildCompleted other turnId status =>
    simp only [perform,effect_held] at after
    rcases recordChildCompleted_cases (some run) other turnId status with
      ⟨_,same⟩ | ⟨_,reported,_,_,here,there,turn,rest,_,⟨_,same⟩ | ⟨_,same⟩⟩ <;> rw [same] at after
    · cases after
      exact .inl found
    · cases after
    · cases here
      rw [maybeCompleteLocked_some after,rest,lookup_erase_eq]
      split
      · rename_i equal
        rw [equal,there] at found
        cases found
        exact .inr (List.mem_singleton.mpr turn)
      · exact .inl found
  | maybeComplete =>
    rw [maybeCompleteLocked_some after]
    exact .inl found
  | beginCancel target =>
    simp only [perform,effect_held] at after
    rcases beginCancel_cases (some run) target with ⟨_,same⟩ | ⟨_,_,here,_,rfl,same⟩ <;> rw [same] at after <;> cases after
    · exact .inl found
    · cases here
      exact .inl found
  | tryCompleteCancelled =>
    rw [maybeCancelledLocked_some after]
    exact .inl found
  | completeFailed => cases after
  | beginCancelChild slotId =>
    simp only [perform,effect_held] at after
    rcases beginCancelChild_cases (some run) slotId with
      ⟨_,same⟩ | ⟨_,_,_,_,_,same⟩ | ⟨_,_,_,_,here,_,_,_,_,_,same⟩ <;> rw [same] at after <;> cases after
    · exact .inl found
    · exact .inl found
    · cases here
      exact .inl found
  | recordChildCancelled cancelled =>
    simp only [perform] at after
    rcases recordChildCancelled_cases (some run) cancelled with ⟨none_,_⟩ | ⟨_,_,_,here,rest,_,⟨_,same⟩ | ⟨_,same⟩⟩
    · cases none_
    · cases here
      rw [same] at after
      rw [maybeCancelledLocked_some after,rest,lookup_erase_eq]
      split
      · rename_i equal
        rw [equal] at found
        exact .inr (List.mem_singleton.mpr (vacant run child rfl found))
      · exact .inl found
    · cases here
      rw [same] at after
      cases after
      rw [rest,lookup_erase_eq]
      split
      · rename_i equal
        rw [equal] at found
        exact .inr (List.mem_singleton.mpr (vacant run child rfl found))
      · exact .inl found

theorem reported_gone (own : ∀ run child, held = some run → run.activeChildTurns.lookup slotId = some child → child.turnId = turnId)
    (after : (recordChildCompleted held slotId turnId status).held = some next) : next.activeChildTurns.lookup slotId = none := by
  rcases recordChildCompleted_cases held slotId turnId status with
    ⟨other,same⟩ | ⟨_,_,_,_,_,_,_,rest,_,⟨_,same⟩ | ⟨_,same⟩⟩ <;> rw [same] at after
  · cases found : next.activeChildTurns.lookup slotId with
    | none => rfl
    | some child => exact absurd (own next child after found) (other next child after found)
  · cases after
  · rw [maybeCompleteLocked_some after,rest]
    exact AList.lookup_erase _ _

-- What a call brings in is in its slot afterwards, in the run that is held.
theorem entered_held (teamId : String) (inside : (t,r) ∈ entered held operation) :
    ∃ run next slotId child, held = some run ∧ run.teamRunId = r ∧ (perform teamId held operation).held = some next ∧ next.teamRunId = r ∧
      next.activeChildTurns.lookup slotId = some child ∧ child.turnId = t := by
  cases operation with
  | recordChildStarted now id child =>
    simp only [entered] at inside
    rcases recordChildStarted_cases now held id child with
      ⟨_,same⟩ | ⟨run,_,here,_,⟨_,same⟩ | ⟨named,cancel,started,_,_,made,_,same⟩⟩ <;> rw [same] at inside
    · cases inside
    · cases inside
    · have pair : (t,r) = (child.turnId,child.teamRunId) := by
        cases cancel <;> exact List.mem_singleton.mp inside
      cases pair
      refine ⟨run,started,child.slotId,child,here,named,?_,?_,?_,rfl⟩
      · simp only [perform,effect_held,same]
      · rw [made]
        exact named
      · rw [made]
        exact AList.lookup_insert _
  | _ => cases inside

end Calls

section Worlds
variable {teamId : String} {w next : World} {operation : Operation}

theorem call_some (made : w.call teamId operation = some next) : w.history.Fresh operation ∧
    next.history = { w.history.note operation with held := (perform teamId w.held operation).held } ∧
    next.accepted = entered w.held operation ++ w.accepted ∧ next.reported = reports operation ++ w.reported ∧
    next.completed = completions ((perform teamId w.held operation).locked ++ (perform teamId w.held operation).deferred) ++ w.completed ∧
    next.loops = w.loops ∧ next.tasks = w.tasks := by
  obtain ⟨history,recorded,rfl⟩ := Option.map_eq_some_iff.mp made
  obtain ⟨fresh,same⟩ := Option.ite_none_right_eq_some.mp recorded
  cases same
  exact ⟨fresh,rfl,rfl,rfl,rfl,rfl,rfl⟩

theorem Accounted.call (accounted : Accounted w) (vacant : Vacant w.held operation) (made : w.call teamId operation = some next) :
    Accounted next := by
  obtain ⟨fresh,history,accepted,reported,completed,-,-⟩ := call_some made
  have held : next.held = (perform teamId w.held operation).held := congrArg History.held history
  have runs : w.history.runs ⊆ next.history.runs := by
    rw [history]
    exact note_runs w.history operation
  have valid : HeldWellFormed next.held := held ▸ perform_wellFormed teamId operation accounted.valid
  -- The run that is held is the one before, or its id is new.
  have origin : ∀ after, next.held = some after → (∃ run, w.held = some run ∧ after.teamRunId = run.teamRunId) ∨
      (after.teamRunId ∉ w.history.runs ∧ entered w.held operation = [] ∧ after.teamRunId ∈ next.history.runs) := by
    intro after there
    rw [held] at there
    rcases perform_origin teamId accounted.valid operation there with ⟨_,_,_,_,rfl,_,_⟩ | ⟨run,here,goes⟩
    · refine .inr ⟨fresh,rfl,?_⟩
      rw [history]
      exact List.mem_cons_self
    · exact .inl ⟨run,here,goes.id⟩
  refine ⟨valid,?_,?_,?_,?_⟩
  · intro after there
    rcases origin after there with ⟨run,here,same⟩ | ⟨_,_,known⟩
    · rw [same]
      exact runs (accounted.known run here)
    · exact known
  · intro t r inside
    rw [accepted] at inside
    rcases List.mem_append.mp inside with new | old
    · obtain ⟨run,_,_,_,here,rfl,_⟩ := entered_held teamId new
      exact runs (accounted.known run here)
    · exact runs (accounted.accepted t r old)
  · intro r told
    rw [completed] at told
    rcases List.mem_append.mp told with new | old
    · obtain ⟨run,here,rfl,ended,last⟩ := completion new
      rw [← held] at ended
      refine ⟨runs (accounted.known run here),fun after there => ?_,fun t inside => ?_⟩
      · rw [ended] at there
        cases there
      · rw [reported]
        rw [accepted] at inside
        rcases List.mem_append.mp inside with entry | before
        · obtain ⟨_,_,_,_,_,_,there,_⟩ := entered_held teamId entry
          rw [← held,ended] at there
          cases there
        · rcases accounted.kept run here t before with named | ⟨slotId,child,found,rfl⟩
          · exact List.mem_append_right _ named
          · exact List.mem_append_left _ (last slotId child found)
    · obtain ⟨known,gone,done⟩ := accounted.completed r old
      refine ⟨runs known,fun after there same => ?_,fun t inside => ?_⟩
      · rcases origin after there with ⟨run,here,equal⟩ | ⟨new,_,_⟩
        · exact gone run here (equal ▸ same)
        · exact new (same ▸ known)
      · rw [reported]
        rw [accepted] at inside
        rcases List.mem_append.mp inside with entry | before
        · obtain ⟨run,_,_,_,here,same,_⟩ := entered_held teamId entry
          exact absurd same (gone run here)
        · exact List.mem_append_right _ (done t before)
  · intro after there t inside
    rw [accepted] at inside
    rw [reported]
    rcases List.mem_append.mp inside with entry | before
    · obtain ⟨_,stands,slotId,child,_,_,kept,_,found,turn⟩ := entered_held teamId entry
      rw [← held,there] at kept
      cases kept
      exact .inr ⟨slotId,child,found,turn⟩
    · rcases origin after there with ⟨run,here,same⟩ | ⟨new,_,_⟩
      · rw [same] at before
        rcases accounted.kept run here t before with named | ⟨slotId,child,found,rfl⟩
        · exact .inl (List.mem_append_right _ named)
        · rw [held] at there
          rcases child_stays accounted.valid vacant here there found with stays | named
          · exact .inr ⟨slotId,child,stays,rfl⟩
          · exact .inl (List.mem_append_left _ named)
      · exact absurd (accounted.accepted t _ before) new

theorem Attended.call (valid : HeldWellFormed w.held) (attended : Attended w) (entering : Entering w operation)
    (made : w.call teamId operation = some next) : Attended next := by
  obtain ⟨-,history,-,-,-,loops,-⟩ := call_some made
  have held : next.held = (perform teamId w.held operation).held := congrArg History.held history
  intro after there slotId child found
  rw [loops]
  have own := (perform_wellFormed teamId operation valid after (held ▸ there)).children slotId child found
  rcases perform_origin teamId valid operation (held ▸ there) with ⟨_,_,_,_,_,fresh,_⟩ | ⟨run,here,goes⟩
  · rw [fresh] at found
    simp at found
  · rcases goes.children slotId child found with old | ⟨now,id,rfl⟩
    · exact attended run here slotId child old
    · rw [← own.1]
      exact entering

theorem Sound.call (sound : Sound w) (made : w.call teamId operation = some next) (vacant : Vacant w.held operation)
    (entering : Entering w operation) : Sound next :=
  ⟨sound.accounted.call vacant made,sound.attended.call sound.accounted.valid entering made⟩

theorem Sound.tasks (sound : Sound w) (tasks : List Task) : Sound { w with tasks := tasks } :=
  ⟨⟨sound.accounted.valid,sound.accounted.known,sound.accounted.accepted,sound.accounted.completed,sound.accounted.kept⟩,sound.attended⟩

theorem Sound.empty (sound : Sound w) (idle : (w.loops slotId).turn = none) :
    ∀ run, w.held = some run → run.activeChildTurns.lookup slotId = none := by
  intro run here
  cases found : run.activeChildTurns.lookup slotId with
  | none => rfl
  | some child =>
    have stands := sound.attended run here slotId child found
    rw [idle] at stands
    cases stands

-- A loop drops its turn only where the run holds it no more.
theorem Sound.moves (sound : Sound w) (same : stage.turn = (w.loops slotId).turn ∨ ∀ run, w.held = some run → run.activeChildTurns.lookup slotId = none) :
    Sound (w.moves slotId stage) := by
  refine ⟨⟨sound.accounted.valid,sound.accounted.known,sound.accounted.accepted,sound.accounted.completed,sound.accounted.kept⟩,?_⟩
  intro run here other child found
  have stands := sound.attended run here other child found
  show (Function.update w.loops slotId stage other).turn = _
  by_cases equal : other = slotId
  · rw [equal,Function.update_self]
    rcases same with kept | empty
    · rw [kept,← equal]
      exact stands
    · rw [equal,empty run here] at found
      cases found
  · rw [Function.update_of_ne equal]
    exact stands

theorem call_moves (teamId : String) (w : World) (operation : Operation) (slotId : String) (stage : LoopStage) :
    (w.moves slotId stage).call teamId operation = (w.call teamId operation).map fun next => next.moves slotId stage := by
  unfold World.call
  rw [Option.map_map]
  rfl

end Worlds

section Steps
variable {teamId : String} {w next : World} {task : Task} {n : Nat}

theorem sound_advance (sound : Sound w) (ok : Bool) (lead : Option String) (place : w.tasks[n]? = some task)
    (inTime : InTime w (.proceed n ok lead)) (moved : advance teamId w n ok lead task = some next) : Sound next := by
  cases task with
  | writing slotId role source =>
    cases ok with
    | true =>
      cases moved
      exact sound.tasks _
    | false =>
      have failed : (w.drop n).call teamId .completeFailed = some next := moved
      exact (sound.tasks _).call failed trivial trivial
  | waking slotId role source =>
    cases ok with
    | true =>
      have waked : (w.drop n).call teamId (.recordPendingWake slotId role source) = some next := moved
      exact (sound.tasks _).call waked trivial trivial
    | false =>
      cases moved
      exact sound.tasks _
  | cancelRun task =>
    cases task with
    | checked target =>
      simp only [advance] at moved
      split at moved
      · exact (sound.tasks _).call moved trivial trivial
      · cases moved
        exact sound.tasks _
    | marking =>
      cases ok <;> cases moved <;> exact sound.tasks _
    | cancelling children =>
      cases children with
      | nil => exact (sound.tasks _).call moved trivial trivial
      | cons child rest =>
        refine (sound.tasks _).call moved (inTime child ?_) trivial
        unfold cancels
        rw [place]
  | cancelChild child =>
    cases ok with
    | true =>
      have cancelled : (w.put n (if child.role = .teammate then .interrupted false else .completing)).call teamId
          (.recordChildCancelled child) = some next := moved
      refine (sound.tasks _).call cancelled (inTime child ?_) trivial
      unfold cancels
      rw [place]
      rfl
    | false =>
      cases moved
      exact sound.tasks _
  | interrupted thenTry =>
    have onward : Sound (if thenTry then w.put n .trying else w.drop n) := by
      split <;> exact sound.tasks _
    simp only [advance] at moved
    split at moved
    · cases moved
      exact onward
    · split at moved
      · exact onward.call moved trivial trivial
      · cases moved
        exact sound.tasks _
  | completing => exact (sound.tasks _).call moved trivial trivial
  | trying => exact (sound.tasks _).call moved trivial trivial

theorem afterStart_turn (held : Option TeamRunRecord) (now : Nat) (id teamRunId : String) (child : ActiveChildTurn) :
    (afterStart teamRunId child.turnId (recordChildStarted now held id child).result).turn = some child.turnId := by
  rcases recordChildStarted_cases now held id child with ⟨_,same⟩ | ⟨_,_,_,_,⟨_,same⟩ | ⟨_,cancel,_,_,_,_,_,same⟩⟩ <;> rw [same]
  · rfl
  · rfl
  · cases cancel <;> rfl

theorem sound_step (sound : Sound w) (inTime : InTime w action) (moved : step teamId w action = some next) : Sound next := by
  cases action with
  | sendMessage freshId slotId role source =>
    simp only [step] at moved
    split at moved
    · exact (sound.tasks _).call moved trivial trivial
    · cases moved
      exact sound
  | wakeAgentForTeamWork slotId role source => exact sound.call moved trivial trivial
  | cancelRun teamRunId target =>
    simp only [step] at moved
    split at moved <;> cases moved
    · exact sound.tasks _
    · exact sound
  | cancelChildTurn teamRunId slotId =>
    simp only [step] at moved
    split at moved
    · exact (sound.tasks _).call moved trivial trivial
    · exact sound.call moved trivial trivial
  | proceed n ok lead =>
    obtain ⟨task,place,goes⟩ := Option.bind_eq_some_iff.mp moved
    exact sound_advance sound ok lead place inTime goes
  | observeEmpty slotId =>
    simp only [step] at moved
    split at moved
    · exact sound.call moved trivial trivial
    · cases moved
  | wake slotId conversationId role =>
    simp only [step] at moved
    split at moved <;> cases moved
    rename_i idle
    exact sound.moves (.inl (by rw [idle]; rfl))
  | claim slotId freshId =>
    simp only [step] at moved
    split at moved
    · rename_i input woken
      split at moved
      · cases moved
        exact sound.moves (.inl (by rw [woken]; rfl))
      · split at moved
        · refine (sound.moves (.inl ?_)).call moved trivial trivial
          rw [woken]
          rfl
        · cases moved
          exact sound.moves (.inl (by rw [woken]; rfl))
    · cases moved
  | started slotId turnId now =>
    simp only [step] at moved
    split at moved
    · rename_i teamRunId conversationId role reservationId sending
      have empty := sound.empty (show (w.loops slotId).turn = none by rw [sending]; rfl)
      refine (sound.moves (.inr empty)).call moved empty ?_
      show (Function.update w.loops slotId _ slotId).turn = some turnId
      rw [Function.update_self]
      exact afterStart_turn w.held now reservationId teamRunId ⟨teamRunId,slotId,role,conversationId,turnId⟩
    · cases moved
  | cancelLate slotId =>
    simp only [step] at moved
    split at moved
    · rename_i teamRunId conversationId role turnId late
      refine (sound.moves (.inl ?_)).call moved ?_ trivial
      · rw [late]
        rfl
      · intro run other here found
        have stands := sound.attended run here slotId other found
        rw [late] at stands
        exact (Option.some.inj stands).symm
    · cases moved
  | tryLate slotId =>
    simp only [step] at moved
    split at moved
    · rename_i teamRunId turnId halted
      refine (sound.moves (.inl ?_)).call moved trivial trivial
      rw [halted]
      rfl
    · cases moved
  | answer slotId turnId ok =>
    simp only [step] at moved
    split at moved <;> cases moved
    · rename_i input _ sending
      exact sound.moves (.inr (sound.empty (by rw [sending]; rfl)))
    · rename_i teamRunId _ running
      exact sound.moves (.inl (by rw [running]; rfl))
  | fail slotId =>
    simp only [step] at moved
    split at moved
    · rename_i sending
      refine (sound.moves (.inl ?_)).call moved trivial trivial
      rw [sending]
      rfl
    · rename_i input _ _ sending
      cases moved
      refine sound.moves (.inl ?_)
      rw [sending]
      cases input.teamRunId <;> rfl
    · -- The run fails, so nothing is held for the turn.
      rw [call_moves] at moved
      obtain ⟨after,failed,rfl⟩ := Option.map_eq_some_iff.mp moved
      refine (sound.call failed trivial trivial).moves (.inr fun run here => ?_)
      obtain ⟨-,history,-⟩ := call_some failed
      have held : after.held = (perform teamId w.held .completeFailed).held := congrArg History.held history
      rw [here] at held
      rcases completeFailed_cases w.held with ⟨_,same⟩ | ⟨_,_,same⟩ <;> rw [perform,same] at held <;> cases held
    · cases moved
  | finalize slotId lead =>
    simp only [step] at moved
    split at moved
    · rename_i teamRunId turnId ok returned
      have onward : Sound (w.moves slotId (afterFinalize ok teamRunId turnId)) := by
        refine sound.moves (.inl ?_)
        rw [returned]
        cases teamRunId <;> cases turnId <;> rfl
      split at moved
      · cases moved
        exact onward
      · split at moved
        · cases moved
          exact onward
        · exact onward.call moved trivial trivial
    · cases moved
  | report slotId =>
    simp only [step] at moved
    split at moved
    · rename_i turnId ok reporting
      rw [call_moves] at moved
      obtain ⟨after,reported,rfl⟩ := Option.map_eq_some_iff.mp moved
      refine (sound.call reported trivial trivial).moves (.inr fun run here => ?_)
      obtain ⟨-,history,-⟩ := call_some reported
      have held : after.held = (recordChildCompleted w.held slotId turnId (if ok then .completed else .failed)).held :=
        congrArg History.held history
      refine reported_gone (fun before child there found => ?_) (held.symm.trans here)
      have stands := sound.attended before there slotId child found
      rw [reporting] at stands
      exact (Option.some.inj stands).symm
    · cases moved
  | complete slotId =>
    simp only [step] at moved
    split at moved
    · rename_i completing
      refine (sound.moves (.inl ?_)).call moved trivial trivial
      rw [completing]
      rfl
    · cases moved

end Steps

theorem start_sound : Sound .start := by
  refine ⟨⟨held_none,?_,?_,?_,?_⟩,?_⟩
  · intro run here
    cases here
  · intro t r inside
    cases inside
  · intro r told
    cases told
  · intro run here
    cases here
  · intro run here
    cases here

-- Where no cancellation comes so late that the slot has another turn, a run is
-- completed only after each of its turns was reported, and until then the turns of
-- the run that is held stand among its active ones.
theorem completed_runs_reported (path : RunsWhere (step teamId) InTime .start actions w) :
    (∀ r ∈ w.completed, ∀ t, (t,r) ∈ w.accepted → t ∈ w.reported) ∧
    ∀ run, w.held = some run → ∀ t, (t,run.teamRunId) ∈ w.accepted →
      t ∈ w.reported ∨ ∃ slotId child, run.activeChildTurns.lookup slotId = some child ∧ child.turnId = t := by
  have sound : Sound w := path.invariant start_sound fun _ _ _ sound inTime moved => sound_step sound inTime moved
  exact ⟨fun r told => (sound.accounted.completed r told).2.2,sound.accounted.kept⟩

section Examples

private def leadStarts : List Action :=
  [.sendMessage "run" "lead" .lead .userMessage,.proceed 0 true none,.proceed 0 true none,
    .wake "lead" "chat" .lead,.claim "lead" "first",.started "lead" "one" 0]

theorem completed_runs_reported_cancelled : ∃ w, exec (step "team") .start (leadStarts ++ [.cancelChildTurn "run" "lead",.proceed 0 true none,.proceed 0 true none]) = some w ∧
    w.completed = ["run"] ∧ ∀ t, (t,"run") ∈ w.accepted → t ∈ w.reported := by
  have path : ∃ w, RunsWhere (step "team") InTime .start
      (leadStarts ++ [Action.cancelChildTurn "run" "lead",.proceed 0 true none,.proceed 0 true none]) w ∧ w.completed = ["run"] := by
    refine ⟨_,.cons trivial rfl (.cons ?_ rfl (.cons ?_ rfl (.cons trivial rfl (.cons trivial rfl (.cons trivial rfl
      (.cons trivial rfl (.cons ?_ rfl (.cons ?_ rfl .nil)))))))),rfl⟩
    · rintro _ ⟨⟩
    · rintro _ ⟨⟩
    · rintro _ ⟨⟩ _ _ ⟨⟩ ⟨⟩
      rfl
    · rintro _ ⟨⟩
  obtain ⟨w,path,told⟩ := path
  refine ⟨w,exec_exact.mpr path.runs,told,?_⟩
  exact (completed_runs_reported path).1 "run" (by rw [told]; exact List.mem_singleton.mpr rfl)

-- The port cancels the first turn while it ends by itself and the slot starts the
-- next one.
theorem late_cancel_completes : ∃ w, exec (step "team") .start (leadStarts ++ [.wakeAgentForTeamWork "lead" .lead .mcpSendMessage,
      .cancelChildTurn "run" "lead",.answer "lead" "one" true,.finalize "lead" none,.report "lead",.complete "lead",
      .wake "lead" "chat" .lead,.claim "lead" "second",.started "lead" "two" 1,.proceed 0 true none,.proceed 0 true none]) = some w ∧
    w.completed = ["run"] ∧ w.accepted = [("two","run"),("one","run")] ∧ w.reported = ["one","one"] ∧
    w.loops "lead" = .running "run" "two" :=
  ⟨_,rfl,rfl,rfl,rfl,rfl⟩

end Examples

end AlineaCopilot.TeamRunAccounting
