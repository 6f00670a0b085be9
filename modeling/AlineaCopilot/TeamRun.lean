import Mathlib.Algebra.Ring.Nat
import AlineaCopilot.KeyedMaps
import AlineaCopilot.TeamErrors
open AlineaCopilot.KeyedMaps

namespace AlineaCopilot.TeamRun

inductive TeamRunTargetRole where
  | lead
  | teammate
deriving DecidableEq, Repr

inductive TeamRunStatus where
  | accepted
  | running
  | cancelling
  | completed
  | cancelled
  | failed
deriving DecidableEq, Repr

inductive TeamWakeSource where
  | userMessage
  | userIntervention
  | mcpSendMessage
  | mcpShutdownRequest
  | spawnWelcome
  | spawnAttachFailure
  | idleNotification
  | interruptedNotification
  | crashNotification
  | inactivityTimeout
  | shutdownRejected
deriving DecidableEq, Repr

structure ActiveChildTurn where
  teamRunId : String
  slotId : String
  role : TeamRunTargetRole
  conversationId : String
  turnId : String
deriving DecidableEq, Repr

inductive StartingReservationState where
  | starting
  | cancelling
deriving DecidableEq, Repr

structure StartingChildReservation where
  reservationId : String
  teamRunId : String
  slotId : String
  role : TeamRunTargetRole
  conversationId : String
  state : StartingReservationState
deriving DecidableEq, Repr

structure PendingWake where
  slotId : String
  role : TeamRunTargetRole
  source : TeamWakeSource
deriving DecidableEq, Repr

inductive ChildStartDecision where
  | accepted
  | cancelImmediately (child : ActiveChildTurn)
  | ignored
deriving DecidableEq, Repr

inductive ChildCancelTarget where
  | active (child : ActiveChildTurn)
  | starting (reservation : StartingChildReservation)
deriving DecidableEq, Repr

structure TeamRunPayload where
  teamId : String
  teamRunId : String
  targetSlotId : String
  targetRole : TeamRunTargetRole
  status : TeamRunStatus
  activeChildCount : Nat
  pendingWakeCount : Nat
  startingChildCount : Nat
deriving DecidableEq, Repr

structure TeamChildTurnPayload where
  teamId : String
  teamRunId : String
  slotId : String
  role : TeamRunTargetRole
  conversationId : String
  turnId : String
  status : TeamRunStatus
deriving DecidableEq, Repr

structure TeamRunAckResponse where
  teamRunId : String
  teamId : String
  targetSlotId : String
  targetRole : TeamRunTargetRole
  status : TeamRunStatus
  messageId : Option String
deriving DecidableEq, Repr

inductive TeamRunEventName where
  | accepted
  | started
  | updated
  | completed
  | cancelled
  | failed
deriving DecidableEq, Repr

inductive TeamChildTurnEventName where
  | started
  | completed
  | cancelled
deriving DecidableEq, Repr

inductive TeamEvent where
  | teamRun (name : TeamRunEventName) (payload : TeamRunPayload)
  | childTurn (name : TeamChildTurnEventName) (payload : TeamChildTurnPayload)
deriving DecidableEq, Repr

-- The record's end times and cancel reason are written and never read back, so
-- they are left out; `startedAt` decides which event a start broadcasts.
structure TeamRunRecord where
  teamRunId : String
  teamId : String
  targetSlotId : String
  targetRole : TeamRunTargetRole
  status : TeamRunStatus
  startedAt : Option Nat
  activeChildTurns : KeyedMap String ActiveChildTurn
  startingReservations : KeyedMap String StartingChildReservation
  pendingWakes : KeyedMap String (List PendingWake)
deriving DecidableEq

namespace TeamRunRecord

def pendingWakeCount (run : TeamRunRecord) : Nat := ((values run.pendingWakes).map List.length).sum

def pendingWakesFor (run : TeamRunRecord) (slotId : String) : List PendingWake :=
  (run.pendingWakes.lookup slotId).getD []

def payload (run : TeamRunRecord) : TeamRunPayload :=
  ⟨run.teamId,run.teamRunId,run.targetSlotId,run.targetRole,run.status,run.activeChildTurns.entries.length,
    run.pendingWakeCount,run.startingReservations.entries.length⟩

def ack (run : TeamRunRecord) (messageId : Option String) : TeamRunAckResponse :=
  ⟨run.teamRunId,run.teamId,run.targetSlotId,run.targetRole,run.status,messageId⟩

def isActive (run : TeamRunRecord) : Bool := run.status = .accepted || run.status = .running

-- The guard both finishers test before they may end a run.
def outstanding (run : TeamRunRecord) : Bool :=
  0 < run.pendingWakeCount || !run.startingReservations.entries.isEmpty || !run.activeChildTurns.entries.isEmpty

-- `pop_front` on the slot's queue, which is dropped once it is empty.
def popWake (run : TeamRunRecord) (slotId : String) : Option (PendingWake × TeamRunRecord) :=
  match run.pendingWakesFor slotId with
  | [] => none
  | pending :: rest => some (pending,{ run with
      pendingWakes := if rest.isEmpty then run.pendingWakes.erase slotId else run.pendingWakes.insert slotId rest })

end TeamRunRecord

def childPayload (teamId : String) (child : ActiveChildTurn) (status : TeamRunStatus) : TeamChildTurnPayload :=
  ⟨teamId,child.teamRunId,child.slotId,child.role,child.conversationId,child.turnId,status⟩

-- One operation under the state lock: what it returns, the record the lock
-- guards afterwards, the broadcasts made while the guard was held and those
-- made after it was dropped.
structure Critical (β : Type) where
  result : β
  held : Option TeamRunRecord
  locked : List TeamEvent
  deferred : List TeamEvent

def Critical.read (held : Option TeamRunRecord) (result : β) : Critical β := ⟨result,held,[],[]⟩

-- What a finisher leaves: the payload when it ended the run, the record and its
-- broadcasts.
structure Finish where
  payload : Option TeamRunPayload
  run : TeamRunRecord
  events : List TeamEvent

-- `if payload.is_some() { *guard = None; }`
def Finish.held (finish : Finish) : Option TeamRunRecord :=
  if finish.payload.isSome then none else some finish.run

def maybeCompleteLocked (run : TeamRunRecord) : Finish :=
  if run.outstanding then ⟨none,run,[.teamRun .updated run.payload]⟩
  else if run.isActive then
    let ended := { run with status := .completed }
    ⟨some ended.payload,ended,[.teamRun .completed ended.payload]⟩
  else ⟨none,run,[]⟩

def maybeCancelledLocked (run : TeamRunRecord) : Finish :=
  if run.status ≠ .cancelling then ⟨none,run,[]⟩
  else if run.outstanding then ⟨none,run,[.teamRun .updated run.payload]⟩
  else
    let ended := { run with status := .cancelled }
    ⟨some ended.payload,ended,[.teamRun .cancelled ended.payload]⟩

def acceptUserMessage (teamId freshId : String) (held : Option TeamRunRecord) (targetSlotId : String)
    (targetRole : TeamRunTargetRole) (allowActiveIntervention : Bool) (messageId : Option String) :
    Critical (Except TeamError TeamRunAckResponse) :=
  match held with
  | some run =>
    if run.isActive then
      if allowActiveIntervention then .read held (.ok (run.ack messageId))
      else .read held (.error (.invalidRequest "team run is already active"))
    else if run.status = .cancelling then
      .read held (.error (.invalidRequest s!"team run {run.teamRunId} is cancelling"))
    else fresh
  | none => fresh
where
  fresh : Critical (Except TeamError TeamRunAckResponse) :=
    let record : TeamRunRecord := ⟨freshId,teamId,targetSlotId,targetRole,.accepted,none,∅,∅,∅⟩
    ⟨.ok (record.ack messageId),some record,[],[.teamRun .accepted record.payload]⟩

def activeRunId (held : Option TeamRunRecord) : Option String :=
  (held.filter TeamRunRecord.isActive).map TeamRunRecord.teamRunId

def currentRunId (held : Option TeamRunRecord) : Option String := held.map TeamRunRecord.teamRunId

def activeChildTurns (held : Option TeamRunRecord) : List ActiveChildTurn :=
  (held.map fun run => values run.activeChildTurns).getD []

def recordPendingWake (held : Option TeamRunRecord) (slotId : String) (targetRole : TeamRunTargetRole)
    (wakeSource : TeamWakeSource) : Critical (Except TeamError Unit) :=
  match held.filter TeamRunRecord.isActive with
  | none => .read held (.error (.invalidRequest "no active team run for run-scoped wake"))
  | some run =>
    let queued := { run with
      pendingWakes := run.pendingWakes.insert slotId (run.pendingWakesFor slotId ++ [⟨slotId,targetRole,wakeSource⟩]) }
    ⟨.ok (),some queued,[.teamRun .updated queued.payload],[]⟩

-- The two mismatch branches of the source only log.
def claimWakeForTurn (freshId : String) (held : Option TeamRunRecord) (slotId : String) (role : TeamRunTargetRole)
    (conversationId : String) : Critical (Option StartingChildReservation) :=
  match held.filter TeamRunRecord.isActive with
  | none => .read held none
  | some run =>
    match run.popWake slotId with
    | none => .read held none
    | some (pending,popped) =>
      let reservation : StartingChildReservation :=
        ⟨freshId,run.teamRunId,pending.slotId,role,conversationId,.starting⟩
      let claimed := { popped with startingReservations := popped.startingReservations.insert freshId reservation }
      ⟨some reservation,some claimed,[],[.teamRun .updated claimed.payload]⟩

def recordEmptyWakeObserved (held : Option TeamRunRecord) (slotId : String) : Critical (Option TeamRunPayload) :=
  match held with
  | none => .read none none
  | some run =>
    let consumed := ((run.popWake slotId).map Prod.snd).getD run
    let finish := maybeCompleteLocked consumed
    ⟨finish.payload,finish.held,finish.events,[]⟩

def recordChildStarted (now : Nat) (held : Option TeamRunRecord) (reservationId : String) (child : ActiveChildTurn) :
    Critical ChildStartDecision :=
  match held with
  | none => .read none .ignored
  | some run =>
    match run.startingReservations.lookup reservationId with
    | none => .read held .ignored
    | some reservation =>
      let removed := { run with startingReservations := run.startingReservations.erase reservationId }
      if run.teamRunId ≠ child.teamRunId then .read (some removed) .ignored
      else
        let shouldCancel := run.status = .cancelling || reservation.state = .cancelling
        let started := { removed with
          startedAt := some (run.startedAt.getD now)
          status := if shouldCancel then run.status else .running
          activeChildTurns := run.activeChildTurns.insert child.slotId child }
        let runEvent : TeamRunEventName := if run.startedAt.isNone && !shouldCancel then .started else .updated
        ⟨if shouldCancel then .cancelImmediately child else .accepted,some started,[],
          [.teamRun runEvent started.payload,.childTurn .started (childPayload run.teamId child .running)]⟩

def recordChildStartFailed (held : Option TeamRunRecord) (reservationId : String) : Critical (Option TeamRunPayload) :=
  match held with
  | none => .read none none
  | some run =>
    match run.startingReservations.lookup reservationId with
    | none => .read held none
    | some reservation =>
      let removed := { run with startingReservations := run.startingReservations.erase reservationId }
      if run.status = .cancelling || reservation.state = .cancelling then
        let finish := maybeCancelledLocked removed
        ⟨finish.payload,finish.held,finish.events,[]⟩
      else
        let ended := { removed with status := .failed }
        ⟨some ended.payload,none,[],[.teamRun .failed ended.payload]⟩

-- The source removes the slot's child first and puts it back under the same key
-- when the turn id differs, which leaves the map as it was.
def recordChildCompleted (held : Option TeamRunRecord) (slotId turnId : String) (status : TeamRunStatus) :
    Critical (Option TeamRunPayload) :=
  match held with
  | none => .read none none
  | some run =>
    match run.activeChildTurns.lookup slotId with
    | none => .read held none
    | some child =>
      if child.turnId ≠ turnId then .read held none
      else
        let removed := { run with activeChildTurns := run.activeChildTurns.erase slotId }
        let childEvent : TeamEvent := .childTurn .completed (childPayload run.teamId child status)
        if status = .failed then
          let ended := { removed with status := .failed }
          ⟨some ended.payload,none,[],[childEvent,.teamRun .failed ended.payload]⟩
        else
          let finish := maybeCompleteLocked removed
          ⟨finish.payload,finish.held,childEvent :: finish.events,[]⟩

def maybeComplete (held : Option TeamRunRecord) : Critical (Option TeamRunPayload) :=
  match held with
  | none => .read none none
  | some run =>
    let finish := maybeCompleteLocked run
    ⟨finish.payload,finish.held,finish.events,[]⟩

def beginCancel (held : Option TeamRunRecord) (targetSlotId : Option String) : Critical (Except TeamError Unit) :=
  match held.filter TeamRunRecord.isActive with
  | none => .read held (.error (.invalidRequest "no active team run to cancel"))
  | some run =>
    match targetSlotId.filter (unknownTarget run) with
    | some target => .read held (.error (.agentNotFound target))
    | none =>
      let cancelling := { run with
        status := .cancelling
        pendingWakes := ∅
        startingReservations := mapValues ({ · with state := .cancelling }) run.startingReservations }
      ⟨.ok (),some cancelling,[],[.teamRun .updated cancelling.payload]⟩
where
  unknownTarget (run : TeamRunRecord) (target : String) : Bool :=
    target ≠ run.targetSlotId && (run.activeChildTurns.lookup target).isNone &&
      !(values run.startingReservations).any (·.slotId == target)

def tryCompleteCancelled (held : Option TeamRunRecord) : Critical (Option TeamRunPayload) :=
  match held with
  | none => .read none none
  | some run =>
    let finish := maybeCancelledLocked run
    ⟨finish.payload,finish.held,finish.events,[]⟩

def completeFailed (held : Option TeamRunRecord) : Critical (Option String) :=
  match held with
  | none => .read none none
  | some run =>
    let ended := { run with status := .failed }
    ⟨some run.teamRunId,none,[],[.teamRun .failed ended.payload]⟩

def beginCancelChild (held : Option TeamRunRecord) (slotId : String) : Critical (Except TeamError ChildCancelTarget) :=
  match held.filter TeamRunRecord.isActive with
  | none => .read held (.error (.invalidRequest "no active team run"))
  | some run =>
    match run.activeChildTurns.lookup slotId with
    | some child => .read held (.ok (.active child))
    | none =>
      match (values run.startingReservations).find? (·.slotId == slotId) with
      | some reservation =>
        let cancelling := { reservation with state := .cancelling }
        let marked := { run with
          startingReservations := run.startingReservations.insert reservation.reservationId cancelling }
        .read (some marked) (.ok (.starting cancelling))
      | none => .read held (.error (.invalidRequest s!"agent {slotId} has no active or starting child turn"))

-- The child is removed by its slot alone, whichever turn stands there.
def recordChildCancelled (held : Option TeamRunRecord) (child : ActiveChildTurn) : Critical Unit :=
  match held with
  | none => .read none ()
  | some run =>
    let removed := { run with activeChildTurns := run.activeChildTurns.erase child.slotId }
    let childEvent : TeamEvent := .childTurn .cancelled (childPayload run.teamId child .cancelled)
    if run.status = .cancelling then
      let finish := maybeCancelledLocked removed
      ⟨(),finish.held,finish.events,[childEvent]⟩
    else ⟨(),some removed,[],[childEvent]⟩

end AlineaCopilot.TeamRun
