import AlineaCopilot.ConversationRequests
import AlineaCopilot.StreamRelays
open AlineaCopilot.ConversationRuntime AlineaCopilot.ConversationRequests AlineaCopilot.StreamRelays

namespace AlineaCopilot.TurnOrchestrator

def maxCronContinuationsPerTurn : Nat := 4

-- What an early exit shows in the conversation.
structure SendFailureTip where
  text : String
  topLevelCode : String
deriving DecidableEq, Repr

-- How amounts of money are compared and printed (with two decimals).
structure Money (Usd : Type) where
  zero : Usd
  reaches : Usd → Usd → Bool
  text : Usd → String

structure UsageRepo (Usd : Type) where
  getLimit : String → Except String (Option (Option Usd))
  summaryForUser : String → Except String Usd
  summaryForProfile : String → Except String Usd

structure ProfileCapsView (Usd : Type) where
  hardUsd : Usd

-- One pass of the relay: how it ended, and the runtime state and the session key
-- that are found after it.
structure Relayed where
  outcome : RelayOutcome
  runtime : RuntimeState
  sessionKey : Option String

-- What a turn works against. Limits and summaries are those of the thirty days
-- before the call; a profile stands with the caps its definition reads as; an
-- agent that cannot be built, or a workspace that cannot be stored, with the tip
-- made of the error. Other requests change the runtime state while the turn
-- waits, so each read finds one of its own.
structure World (Usd : Type) where
  money : Money Usd
  usageRepo : Option (UsageRepo Usd)
  profileRepo : Option (String → Except String (Option (Option (ProfileCapsView Usd))))
  getOrBuildTask : Except SendFailureTip AgentType
  maybePersistWorkspace : Except SendFailureTip PUnit
  relay : Nat → Relayed
  mintMsgId : Nat → String
  releaseRuntime : RuntimeState
  dropRuntime : RuntimeState

structure TurnStartInput where
  userId : String
  conversationId : String
  content : String
  profileId : Option String
  turnId : String
  turnClaim : TurnClaim

inductive ConversationTurnStatus where
  | completed
  | failed
deriving DecidableEq, Repr

-- What a turn does that others see.
inductive TurnEvent where
  | tip (tip : SendFailureTip)
  | sendMessage (content msgId : String)
  | relayed (outcome : RelayOutcome) (lifecycle : RuntimeLifecycleState)
  | sessionKey (key : String)
  | evicted
  | released (wasDeleting : Bool)
  | completeReleasedTurn (wasDeleting : Bool)
deriving DecidableEq, Repr

section Policies

def isError : RelayTerminal → Bool
  | .error _ _ => true
  | _ => false

def terminalCode : RelayTerminal → Option String
  | .error code _ => code
  | _ => none

def terminalRetryable : RelayTerminal → Option Bool
  | .error _ retryable => retryable
  | _ => none

inductive AgentHealthAction where
  | keep
  | evictAcpTask (errorCode : Option String) (retryable : Option Bool) (clearModelSeed : Bool)
deriving DecidableEq, Repr

def AgentHealthPolicy.decide (agentType : AgentType) (outcome : RelayOutcome) (lifecycle : RuntimeLifecycleState) : AgentHealthAction :=
  if lifecycle ≠ .active then .keep
  else if agentType ≠ .acp || !isError outcome.terminal then .keep
  else .evictAcpTask (terminalCode outcome.terminal) (terminalRetryable outcome.terminal)
    (terminalCode outcome.terminal = some "USER_LLM_PROVIDER_MODEL_NOT_FOUND")

-- Whether the task was killed.
def evictAcpTaskAfterTerminalError (agentType : AgentType) (outcome : RelayOutcome) : Bool :=
  !(agentType ≠ .acp || !isError outcome.terminal)

inductive ContinuationStopReason where
  | noSystemResponses
  | terminalNotFinish
  | lifecycleNotActive
  | limitReached
deriving DecidableEq, Repr

inductive ContinuationDecision where
  | continue (content : String) (nextCount : Nat)
  | stop (reason : ContinuationStopReason)
deriving DecidableEq, Repr

def TurnContinuationPolicy.decide (maxContinuations continuationCount : Nat) (outcome : RelayOutcome) (lifecycle : RuntimeLifecycleState) :
    ContinuationDecision :=
  if lifecycle ≠ .active then .stop .lifecycleNotActive
  else if isError outcome.terminal then .stop .terminalNotFinish
  else if outcome.systemResponses.isEmpty then .stop .noSystemResponses
  else if maxContinuations ≤ continuationCount then .stop .limitReached
  else .continue ("\n".intercalate outcome.systemResponses) (continuationCount + 1)

end Policies

section Turn
variable {Usd : Type} (world : World Usd) (input : TurnStartInput)

def checkUsageLimit : Except SendFailureTip PUnit :=
  match world.usageRepo with
  | none => pure ⟨⟩
  | some repo =>
    match repo.getLimit input.userId with
    | .ok (some (some hard)) =>
      let spent := match repo.summaryForUser input.userId with
        | .ok spent => spent
        | .error _ => world.money.zero
      if world.money.reaches spent hard then throw ⟨s!"Límite de consumo excedido (${world.money.text spent} de ${world.money.text hard}). Pide a un administrador que lo amplíe.",
        "USAGE_LIMIT_EXCEEDED"⟩
      else pure ⟨⟩
    | _ => pure ⟨⟩

-- Whatever cannot be looked up is no limit.
def checkProfileCap : Except SendFailureTip PUnit :=
  match input.profileId,world.profileRepo,world.usageRepo with
  | some profileName,some getByName,some usageRepo =>
    match getByName profileName with
    | .ok (some (some caps)) =>
      match usageRepo.summaryForProfile profileName with
      | .ok spent =>
        if world.money.reaches spent caps.hardUsd then throw ⟨s!"El perfil '{profileName}' no tiene presupuesto disponible (${world.money.text spent} de ${world.money.text caps.hardUsd}). Pide a un administrador que lo amplíe.",
          "PROFILE_USAGE_LIMIT_EXCEEDED"⟩
        else pure ⟨⟩
      | .error _ => pure ⟨⟩
    | _ => pure ⟨⟩
  | _,_,_ => pure ⟨⟩

-- The exits before the first message.
def prepare : Except SendFailureTip AgentType := do
  checkUsageLimit world input
  checkProfileCap world input
  let agentType ← world.getOrBuildTask
  world.maybePersistWorkspace
  pure agentType

def lifecycleAt (pass : Nat) : RuntimeLifecycleState := (world.relay pass).runtime.lifecycleFor input.conversationId

-- The message of a pass and what comes back.
def passEvents (content : String) (pass : Nat) : List TurnEvent :=
  [.sendMessage content (world.mintMsgId pass),.relayed (world.relay pass).outcome (lifecycleAt world input pass)] ++
    (world.relay pass).sessionKey.toList.map .sessionKey

def evicts (agentType : AgentType) (pass : Nat) : Bool :=
  match AgentHealthPolicy.decide agentType (world.relay pass).outcome (lifecycleAt world input pass) with
  | .keep => false
  | .evictAcpTask _ _ _ => evictAcpTaskAfterTerminalError agentType (world.relay pass).outcome

theorem continue_below (continues : TurnContinuationPolicy.decide maxContinuations count outcome lifecycle = .continue content next) :
    count < maxContinuations ∧ next = count + 1 ∧ lifecycle = .active ∧ isError outcome.terminal = false := by
  unfold TurnContinuationPolicy.decide at continues
  split at continues
  · cases continues
  · rename_i active
    split at continues
    · cases continues
    · rename_i sound
      split at continues
      · cases continues
      · split at continues
        · cases continues
        · rename_i below
          cases continues
          exact ⟨Nat.lt_of_not_le below,rfl,not_not.mp active,Bool.eq_false_iff.mpr sound⟩

-- The loop from the pass after `count` continuations on, with its count and
-- whether a relay has failed so far.
def turnLoop (agentType : AgentType) (content : String) (count : Nat) (turnFailed : Bool) : List TurnEvent × Bool :=
  let failed := turnFailed || isError (world.relay count).outcome.terminal
  if evicts world input agentType count then (passEvents world input content count ++ [.evicted],failed)
  else
    match continues : TurnContinuationPolicy.decide maxCronContinuationsPerTurn count (world.relay count).outcome (lifecycleAt world input count) with
    | .continue next nextCount =>
      have _ := continue_below continues
      let later := turnLoop agentType next nextCount failed
      (passEvents world input content count ++ later.1,later.2)
    | .stop _ => (passEvents world input content count,failed)
termination_by maxCronContinuationsPerTurn - count
decreasing_by omega

def releaseEvents (before after : TurnClaim) (wasDeleting : Bool) : List TurnEvent :=
  if !before.released && after.released then [.released wasDeleting] else []

-- The end that all exits share; the claim is dropped when the turn returns.
def endTurn : List TurnEvent :=
  let (_,claim,wasDeleting) := input.turnClaim.releaseForTurn (some world.releaseRuntime) input.turnId
  let (_,dropped,late) := claim.releaseInner (some world.dropRuntime)
  releaseEvents input.turnClaim claim wasDeleting ++ [.completeReleasedTurn wasDeleting] ++ releaseEvents claim dropped late

def runUserTurn : List TurnEvent × ConversationTurnStatus :=
  match prepare world input with
  | .error tip => (.tip tip :: endTurn world input,.failed)
  | .ok agentType =>
    let (events,failed) := turnLoop world input agentType input.content 0 false
    (events ++ endTurn world input,if failed then .failed else .completed)

end Turn

def TurnEvent.sends : TurnEvent → Bool
  | .sendMessage _ _ => true
  | _ => false

def TurnEvent.accounts : TurnEvent → Bool
  | .released _ | .completeReleasedTurn _ => true
  | _ => false

def TurnEvent.fails : TurnEvent → Bool
  | .relayed outcome _ => isError outcome.terminal
  | _ => false

-- What no message may follow.
def TurnEvent.bars : TurnEvent → Bool
  | .relayed outcome lifecycle => isError outcome.terminal || decide (lifecycle ≠ .active)
  | .evicted => true
  | _ => false

-- A message is sent only where nothing before it forbids one.
def Allowed (events : List TurnEvent) : Prop := events.Pairwise fun earlier later => earlier.bars = true → later.sends = false

section Passes
variable {Usd : Type} (world : World Usd) (input : TurnStartInput)

theorem passEvents_sends (content : String) (pass : Nat) : (passEvents world input content pass).countP TurnEvent.sends = 1 := by
  cases key : (world.relay pass).sessionKey <;> simp [passEvents,key,TurnEvent.sends,List.countP_cons]

theorem passEvents_accounts (content : String) (pass : Nat) : (passEvents world input content pass).filter TurnEvent.accounts = [] := by
  cases key : (world.relay pass).sessionKey <;> simp [passEvents,key,TurnEvent.accounts]

theorem passEvents_fails (content : String) (pass : Nat) :
    (passEvents world input content pass).any TurnEvent.fails = isError (world.relay pass).outcome.terminal := by
  cases key : (world.relay pass).sessionKey <;> simp [passEvents,key,TurnEvent.fails]

theorem passEvents_bars (content : String) (pass : Nat) : (passEvents world input content pass).any TurnEvent.bars =
    (isError (world.relay pass).outcome.terminal || decide (lifecycleAt world input pass ≠ .active)) := by
  cases key : (world.relay pass).sessionKey <;> simp [passEvents,key,TurnEvent.bars]

theorem passEvents_allowed (content : String) (pass : Nat) : Allowed (passEvents world input content pass) := by
  cases key : (world.relay pass).sessionKey <;> simp [Allowed,passEvents,key,TurnEvent.sends]

-- What the loop does from a pass on.
structure Looped (count : Nat) (turnFailed : Bool) (events : List TurnEvent) (failed : Bool) : Prop where
  bounded : count + events.countP TurnEvent.sends ≤ 1 + maxCronContinuationsPerTurn
  unaccounted : events.filter TurnEvent.accounts = []
  failure : failed = (turnFailed || events.any TurnEvent.fails)
  allowed : Allowed events

theorem turnLoop_looped (agentType : AgentType) (content : String) (count : Nat) (turnFailed : Bool) (within : count ≤ maxCronContinuationsPerTurn) :
    Looped count turnFailed (turnLoop world input agentType content count turnFailed).1 (turnLoop world input agentType content count turnFailed).2 := by
  fun_induction turnLoop world input agentType content count turnFailed with
  | case1 content count turnFailed failed evicting =>
    refine ⟨?_,?_,?_,?_⟩
    · rw [List.countP_append,passEvents_sends]
      simp [TurnEvent.sends]
      omega
    · rw [List.filter_append,passEvents_accounts]
      rfl
    · rw [List.any_append,passEvents_fails]
      simp [failed,TurnEvent.fails]
    · refine List.pairwise_append.mpr ⟨passEvents_allowed world input content count,List.pairwise_singleton _ _,fun earlier _ later member _ => ?_⟩
      rw [List.mem_singleton.mp member]
      rfl
  | case2 content count turnFailed failed evicting next nextCount continues below later ih =>
    obtain ⟨fits,rfl,active,sound⟩ := below
    obtain ⟨bounded,unaccounted,failure,allowed⟩ := ih fits
    refine ⟨?_,?_,?_,?_⟩
    · rw [List.countP_append,passEvents_sends]
      change count + 1 + later.1.countP TurnEvent.sends ≤ _ at bounded
      omega
    · rw [List.filter_append,passEvents_accounts]
      exact unaccounted
    · rw [List.any_append,passEvents_fails]
      exact failure.trans (Bool.or_assoc _ _ _)
    · refine List.pairwise_append.mpr ⟨passEvents_allowed world input content count,allowed,fun earlier member _ _ bars => ?_⟩
      have quiet := passEvents_bars world input content count
      rw [sound,active] at quiet
      have barred : (passEvents world input content count).any TurnEvent.bars = true := List.any_eq_true.mpr ⟨earlier,member,bars⟩
      rw [quiet] at barred
      cases barred
  | case3 content count turnFailed failed evicting reason stops =>
    refine ⟨?_,passEvents_accounts world input content count,?_,passEvents_allowed world input content count⟩
    · rw [passEvents_sends]
      omega
    · rw [passEvents_fails]

-- The claim a caller hands over is that of the turn.
theorem endTurn_claimed {world : World Usd} {input : TurnStartInput} {state next : RuntimeState} (claimed : state.tryClaimTurn input.conversationId input.turnId = .ok (next,input.turnClaim)) :
    ∃ wasDeleting, endTurn world input = [.released wasDeleting,.completeReleasedTurn wasDeleting] := by
  obtain ⟨_,_,_,_,claim⟩ := tryClaimTurn_ok claimed
  refine ⟨(world.releaseRuntime.release input.conversationId input.turnId).2,?_⟩
  simp [endTurn,claim,TurnClaim.releaseForTurn,TurnClaim.releaseInner,releaseEvents]

end Passes

section Turns
variable {Usd : Type}

-- The accounts of a turn that is through.
structure Balanced (world : World Usd) (input : TurnStartInput) (events : List TurnEvent) (status : ConversationTurnStatus) : Prop where
  bounded : events.countP TurnEvent.sends ≤ 1 + maxCronContinuationsPerTurn
  accounted : ∃ wasDeleting, events.filter TurnEvent.accounts = [.released wasDeleting,.completeReleasedTurn wasDeleting]
  failure : status = .failed ↔ (∃ tip, prepare world input = .error tip) ∨ ∃ outcome lifecycle, .relayed outcome lifecycle ∈ events ∧ isError outcome.terminal = true
  allowed : Allowed events

theorem any_fails (events : List TurnEvent) : events.any TurnEvent.fails = true ↔
    ∃ outcome lifecycle, .relayed outcome lifecycle ∈ events ∧ isError outcome.terminal = true := by
  rw [List.any_eq_true]
  constructor
  · rintro ⟨event,member,fails⟩
    cases event with
    | relayed outcome lifecycle => exact ⟨outcome,lifecycle,member,fails⟩
    | _ => cases fails
  · rintro ⟨outcome,lifecycle,member,fails⟩
    exact ⟨_,member,fails⟩

theorem turn_balanced (world : World Usd) (input : TurnStartInput) {state next : RuntimeState}
    (claimed : state.tryClaimTurn input.conversationId input.turnId = .ok (next,input.turnClaim)) :
    Balanced world input (runUserTurn world input).1 (runUserTurn world input).2 := by
  obtain ⟨wasDeleting,ends⟩ := @endTurn_claimed _ world input _ _ claimed
  unfold runUserTurn
  cases prepared : prepare world input with
  | error tip =>
    simp only [ends]
    refine ⟨by simp [TurnEvent.sends],⟨wasDeleting,by simp [TurnEvent.accounts]⟩,?_,by simp [Allowed,TurnEvent.sends]⟩
    exact ⟨fun _ => .inl ⟨tip,prepared⟩,fun _ => rfl⟩
  | ok agentType =>
    obtain ⟨bounded,unaccounted,failure,allowed⟩ := turnLoop_looped world input agentType input.content 0 false (Nat.zero_le _)
    simp only [ends]
    generalize turnLoop world input agentType input.content 0 false = looped at bounded unaccounted failure allowed
    obtain ⟨events,failed⟩ := looped
    simp only [Nat.zero_add,Bool.false_or] at bounded unaccounted failure allowed
    have through : (events ++ [TurnEvent.released wasDeleting,TurnEvent.completeReleasedTurn wasDeleting]).countP TurnEvent.sends = events.countP TurnEvent.sends := by
      simp [List.countP_append,TurnEvent.sends]
    refine ⟨?_,⟨wasDeleting,?_⟩,?_,?_⟩
    · rw [through]
      omega
    · rw [List.filter_append,unaccounted]
      rfl
    · simp only [prepared,reduceCtorEq,exists_false,false_or]
      rw [failure,← any_fails]
      simp only [List.any_append,List.any_cons,TurnEvent.fails,List.any_nil,Bool.or_false]
      cases events.any TurnEvent.fails <;> simp
    · refine List.pairwise_append.mpr ⟨allowed,by simp [TurnEvent.sends],fun _ _ later member _ => ?_⟩
      rcases List.mem_cons.mp member with rfl | last
      · rfl
      · rw [List.mem_singleton.mp last]
        rfl

end Turns

section Examples

-- Nobody pays, and the answer to every message asks for another one.
def askingWorld : World Nat where
  money := ⟨0,fun spent hard => decide (hard ≤ spent),toString⟩
  usageRepo := some ⟨fun _ => .ok (some (some 10)),fun _ => .ok 3,fun _ => .ok 0⟩
  profileRepo := none
  getOrBuildTask := .ok .acp
  maybePersistWorkspace := .ok ⟨⟩
  relay _ := ⟨⟨["[System: created]"],.finish⟩,.fresh,none⟩
  mintMsgId := toString
  releaseRuntime := .fresh
  dropRuntime := .fresh

def askingTurn : TurnStartInput := ⟨"user","conversation","Remind me",none,"turn",⟨"conversation","turn",false⟩⟩

-- The same turn of a user who has spent the limit.
example : (runUserTurn { askingWorld with usageRepo := some ⟨fun _ => .ok (some (some 10)),fun _ => .ok 12,fun _ => .ok 0⟩ } askingTurn).2 = .failed := rfl

theorem turn_balanced_asking : Balanced askingWorld askingTurn (runUserTurn askingWorld askingTurn).1 (runUserTurn askingWorld askingTurn).2 :=
  @turn_balanced Nat askingWorld askingTurn .fresh _ rfl

end Examples

end AlineaCopilot.TurnOrchestrator
