import Mathlib.Data.Finset.Basic
import AlineaCopilot.KeyedMaps
open AlineaCopilot.KeyedMaps

namespace AlineaCopilot.ConversationRuntime

inductive ConversationError where
  | notFound (id : String)
  | archived (id reason : String)
  | badRequest (reason : String)
  | busy (reason : String)
  | forbidden (reason : String)
  | notFoundReason (reason : String)
  | workspacePathUnavailable (path : String)
  | internal (reason : String)
deriving DecidableEq, Repr

structure RuntimeState where
  activeTurns : KeyedMap String String
  deleting : Finset String
  cancelling : Finset String
  shuttingDown : Bool

inductive RuntimeLifecycleState where
  | active
  | deleting
  | cancelling
  | shuttingDown
deriving DecidableEq, Repr

structure TurnClaim where
  conversationId : String
  turnId : String
  released : Bool
deriving DecidableEq, Repr

section Service

def RuntimeState.fresh : RuntimeState := ⟨∅,∅,∅,false⟩

def RuntimeState.activeTurnIdFor (state : RuntimeState) (conversationId : String) : Option String :=
  state.activeTurns.lookup conversationId

def RuntimeState.isClaimed (state : RuntimeState) (conversationId : String) : Bool :=
  (state.activeTurnIdFor conversationId).isSome

def RuntimeState.tryClaimTurn (state : RuntimeState) (conversationId turnId : String) :
    Except ConversationError (RuntimeState × TurnClaim) :=
  if state.shuttingDown then .error (.busy "conversation runtime is shutting down")
  else if conversationId ∈ state.deleting then .error (.busy s!"conversation {conversationId} is being deleted")
  else if state.isClaimed conversationId then .error (.busy s!"conversation {conversationId} is already running")
  else .ok ({ state with activeTurns := state.activeTurns.insert conversationId turnId },⟨conversationId,turnId,false⟩)

-- The flag tells whether a turn of the conversation was active.
def RuntimeState.markDeleting (state : RuntimeState) (conversationId : String) : RuntimeState × Bool :=
  ({ state with deleting := insert conversationId state.deleting },state.isClaimed conversationId)

def RuntimeState.clearDeleting (state : RuntimeState) (conversationId : String) : RuntimeState :=
  { state with deleting := state.deleting.erase conversationId }

def RuntimeState.markCancelling (state : RuntimeState) (conversationId : String) : RuntimeState :=
  { state with cancelling := insert conversationId state.cancelling }

def RuntimeState.clearCancelling (state : RuntimeState) (conversationId : String) : RuntimeState :=
  { state with cancelling := state.cancelling.erase conversationId }

def RuntimeState.isCancelling (state : RuntimeState) (conversationId : String) : Bool :=
  decide (conversationId ∈ state.cancelling)

def RuntimeState.markShuttingDown (state : RuntimeState) : RuntimeState := { state with shuttingDown := true }

def RuntimeState.lifecycleFor (state : RuntimeState) (conversationId : String) : RuntimeLifecycleState :=
  if state.shuttingDown then .shuttingDown
  else if conversationId ∈ state.deleting then .deleting
  else if conversationId ∈ state.cancelling then .cancelling
  else .active

-- Releasing the turn that is active clears the conversation's flags with it.
def RuntimeState.release (state : RuntimeState) (conversationId turnId : String) : RuntimeState × Bool :=
  if state.activeTurnIdFor conversationId = some turnId then
    ({ state with
        activeTurns := state.activeTurns.erase conversationId
        deleting := state.deleting.erase conversationId
        cancelling := state.cancelling.erase conversationId },decide (conversationId ∈ state.deleting))
  else (state,false)

-- `service` is what the weak reference of the claim still finds.
def TurnClaim.releaseInner (claim : TurnClaim) (service : Option RuntimeState) : Option RuntimeState × TurnClaim × Bool :=
  if claim.released then (service,claim,false)
  else match service with
    | none => (none,{ claim with released := true },false)
    | some state =>
      let (next,wasDeleting) := state.release claim.conversationId claim.turnId
      (some next,{ claim with released := true },wasDeleting)

def TurnClaim.releaseForTurn (claim : TurnClaim) (service : Option RuntimeState) (turnId : String) :
    Option RuntimeState × TurnClaim × Bool :=
  if claim.turnId ≠ turnId then (service,claim,false) else claim.releaseInner service

end Service

inductive RuntimeWriteKind where
  | userMessage
  | assistantTextCreate
  | assistantTextFlush
  | assistantTextFinalize
  | assistantThinkingFinalize
  | toolCallPersist
  | acpToolCallPersist
  | toolGroupPersist
  | terminalFinalize
  | conversationFinished
  | sendFailureTip
  | sessionKey
  | acpRecoveryCleanup
  | resolvedWorkspace
  | startupRecovery
deriving DecidableEq, Repr

inductive RuntimeWriteDecision where
  | allow
  | skip (lifecycle : RuntimeLifecycleState)
deriving DecidableEq, Repr

section Persistence

def RuntimeWriteKind.allowedIn (kind : RuntimeWriteKind) : RuntimeLifecycleState → Bool
  | .active => true
  | .deleting => kind = .userMessage
  | .cancelling => match kind with
    | .assistantTextCreate | .assistantTextFlush | .assistantTextFinalize | .assistantThinkingFinalize
    | .toolCallPersist | .acpToolCallPersist | .toolGroupPersist | .terminalFinalize | .conversationFinished => true
    | _ => false
  | .shuttingDown => kind = .userMessage

def RuntimeState.decide (state : RuntimeState) (conversationId : String) (kind : RuntimeWriteKind) : RuntimeWriteDecision :=
  if kind.allowedIn (state.lifecycleFor conversationId) then .allow else .skip (state.lifecycleFor conversationId)

def RuntimeState.allows (state : RuntimeState) (conversationId : String) (kind : RuntimeWriteKind) : Bool :=
  state.decide conversationId kind = .allow

end Persistence

section Facts
variable {state next : RuntimeState} {c t : String}

theorem lifecycleFor_cancelling (observed : state.lifecycleFor c = .cancelling) : c ∈ state.cancelling := by
  unfold RuntimeState.lifecycleFor at observed
  split at observed
  · cases observed
  · split at observed
    · cases observed
    · split at observed
      · assumption
      · cases observed

-- Only a cancellation keeps a user's message out.
theorem allows_userMessage (uncancelled : c ∉ state.cancelling) : state.allows c .userMessage = true := by
  unfold RuntimeState.allows RuntimeState.decide
  cases observed : state.lifecycleFor c with
  | cancelling => exact absurd (lifecycleFor_cancelling observed) uncancelled
  | active | deleting | shuttingDown => rfl

theorem tryClaimTurn_ok (claimed : state.tryClaimTurn c t = .ok (next,claim)) :
    state.shuttingDown = false ∧ c ∉ state.deleting ∧ state.activeTurnIdFor c = none ∧
      next = { state with activeTurns := state.activeTurns.insert c t } ∧ claim = ⟨c,t,false⟩ := by
  unfold RuntimeState.tryClaimTurn at claimed
  split at claimed
  · cases claimed
  · rename_i running
    split at claimed
    · cases claimed
    · rename_i unmarked
      split at claimed
      · cases claimed
      · rename_i free
        cases claimed
        refine ⟨by simpa using running,unmarked,?_,rfl,rfl⟩
        simpa [RuntimeState.isClaimed] using free

theorem release_cases (state : RuntimeState) (c t : String) :
    (state.activeTurnIdFor c = some t ∧ (state.release c t).1 = { state with
        activeTurns := state.activeTurns.erase c
        deleting := state.deleting.erase c
        cancelling := state.cancelling.erase c }) ∨
    (state.activeTurnIdFor c ≠ some t ∧ (state.release c t).1 = state) := by
  unfold RuntimeState.release
  by_cases active : state.activeTurnIdFor c = some t
  · exact .inl ⟨active,by rw [if_pos active]⟩
  · exact .inr ⟨active,by rw [if_neg active]⟩

end Facts

end AlineaCopilot.ConversationRuntime
