import AlineaCopilot.ConversationFlags
open AlineaCopilot.KeyedMaps AlineaCopilot.TransitionRuns AlineaCopilot.InterleavedRequests AlineaCopilot.MessageTable
open AlineaCopilot.ConversationRuntime

namespace AlineaCopilot.ConversationRequests

-- The conversation and turn a cancellation was asked for.
def Progress.cancels : Progress → Option (String × String)
  | .cancel progress => match progress with
    | .finding _ c t | .comparing c t | .fetchingAgent c t | .marking c t _ | .stopping c t _ | .unmarking c t _
    | .draining c t | .confirmingDrain c t | .killing c t => some (c,t)
  | _ => none

-- The next step is a call to the agent of the conversation: `agent.cancel` or
-- `kill_and_wait`.
def Progress.interrupts : Progress → Option String
  | .cancel progress => match progress with
    | .stopping c _ _ | .killing c _ => some c
    | _ => none
  | _ => none

-- A message that is answered with Ok, or is about to be: its conversation, its
-- turn and its id.
def Progress.accepted : Progress → Option (String × String × String)
  | .turn progress => match progress with
    | .building claim (some m) | .running claim (some m) | .writing claim (some m) _ | .completing claim (some m)
    | .confirming claim (some m) | .finishing claim (some m) => some (claim.conversationId,claim.turnId,m)
    | _ => none
  | .returned (.ok (.turn c (some m) t)) => some (c,t,m)
  | _ => none

def Progress.isTurn : Progress → Bool
  | .turn _ => true
  | _ => false

-- The user's message is in the table, unless its conversation is gone.
def Store.keeps (store : Store) (c m : String) : Prop :=
  (∃ row ∈ store.messages, row.id = m ∧ row.conversationId = c ∧ row.type = "text" ∧ row.position = some "right") ∨
    store.conversations.lookup c = none

-- What a turn `t` of the conversation `c` is to see of other turns' cancellations.
structure Untouched (c t : String) (system : System Store Progress) : Prop where
  lifecycle : system.store.runtime.activeTurnIdFor c = some t → system.store.runtime.lifecycleFor c ≠ .cancelling
  calls : ∀ n, (system.threads n).interrupts = some c → system.store.runtime.activeTurnIdFor c ≠ some t
  persisted : ∀ n m, (system.threads n).accepted = some (c,t,m) → system.store.keeps c m

-- A cancellation is marked while its own turn is active, and no turn is claimed
-- while a cancellation of an earlier one is at the agent's door.
def TurnScoped (system : System Store Progress) (action : Nat × Input) : Prop :=
  match system.threads action.1 with
  | .cancel (.marking c t _) => system.store.runtime.activeTurnIdFor c = some t
  | .turn (.claiming turn) => system.store.runtime.activeTurnIdFor turn.conversationId = none →
      ∀ n, (system.threads n).interrupts ≠ some turn.conversationId
  | _ => True

-- What holds of a request, whatever the others do.
structure Fits (c t : String) (store : Store) (progress : Progress) : Prop where
  unnamed : progress.cancels ≠ some (c,t)
  held : ∀ claim, progress.claim = some claim → store.runtime.activeTurnIdFor claim.conversationId = some claim.turnId
  own : ∀ turn claim, (progress = .turn (.admitting turn claim) ∨ ∃ m, progress = .turn (.storing turn claim m)) →
    claim.conversationId = turn.conversationId
  interrupts : progress.interrupts = some c → store.runtime.activeTurnIdFor c ≠ some t
  skips : ∀ claim m, progress = .turn (.skipping claim m) → ¬(claim.conversationId = c ∧ claim.turnId = t)
  persisted : ∀ m, progress.accepted = some (c,t,m) → store.keeps c m

structure Scoped (c t : String) (system : System Store Progress) : Prop where
  fits : ∀ n, Fits c t system.store (system.threads n)
  alone : ∀ n m x y, (system.threads n).claim = some x → (system.threads m).claim = some y →
    x.conversationId = y.conversationId → n = m
  flagged : c ∈ system.store.runtime.cancelling → ∃ u, u ≠ t ∧ system.store.runtime.activeTurnIdFor c = some u

section Steps
variable {store next : Store} {progress after : Progress} {input : Input} {runtime runtime' : RuntimeState}

theorem keeps_step (effect : TableEffect store next) (keeps : store.keeps c m) : next.keeps c m := by
  rcases keeps with ⟨row,inside,same,own,text,right⟩ | gone
  · cases effect with
    | nothing _ messages => exact .inl ⟨row,messages ▸ inside,same,own,text,right⟩
    | inserted new _ _ messages => exact .inl ⟨row,messages ▸ List.mem_append_left _ inside,same,own,text,right⟩
    | updated rowId changes _ messages =>
      refine .inl ⟨if row.id = rowId then changes.apply row else row,?_,?_⟩
      · rw [messages]
        exact List.mem_map_of_mem inside
      · split <;> exact ⟨same,own,text,right⟩
    | finished d old new _ _ messages => exact .inl ⟨row,messages ▸ inside,same,own,text,right⟩
    | deleted d conversations messages =>
      by_cases whose : c = d
      · right
        rw [conversations,lookup_erase_eq,if_pos whose]
      · refine .inl ⟨row,?_,same,own,text,right⟩
        rw [messages]
        exact List.mem_filter.mpr ⟨inside,by simpa [own] using whose⟩
  · exact .inr (missing_step effect gone)

-- Where a step of a turn leads: never into another kind of request, past its
-- message only with the message stored, and past it without one only when the
-- message is not allowed.
structure TurnAfter (store next : Store) (progress : TurnProgress) (after : Progress) : Prop where
  cancels : after.cancels = none
  interrupts : after.interrupts = none
  admitting : ∀ turn claim, after = .turn (.admitting turn claim) → claim.conversationId = turn.conversationId
  storing : ∀ turn claim m, after = .turn (.storing turn claim m) → progress = .admitting turn claim
  skipping : ∀ claim m, after = .turn (.skipping claim m) → ∃ turn, progress = .admitting turn claim ∧
    store.runtime.allows turn.conversationId .userMessage = false
  accepted : ∀ c t m, after.accepted = some (c,t,m) → (Progress.turn progress).accepted = some (c,t,m) ∨
    (∃ turn claim, progress = .storing turn claim m ∧ claim.conversationId = c ∧
      store.insertMessage (userMessage turn m) = .ok next) ∨
    ∃ claim, progress = .skipping claim m ∧ claim.conversationId = c ∧ claim.turnId = t

-- The places between the claim and the stored message.
def Progress.admits : Progress → Bool
  | .turn (.admitting ..) | .turn (.storing ..) | .turn (.skipping ..) => true
  | _ => false

theorem TurnAfter.elsewhere {progress : TurnProgress} (cancels : after.cancels = none) (interrupts : after.interrupts = none)
    (passed : after.admits = false)
    (accepted : ∀ accepted, after.accepted = some accepted → (Progress.turn progress).accepted = some accepted) :
    TurnAfter store next progress after := by
  refine ⟨cancels,interrupts,fun turn claim equal => ?_,fun turn claim m equal => ?_,fun claim m equal => ?_,
    fun c t m equal => .inl (accepted _ equal)⟩
  all_goals
    rw [equal] at passed
    cases passed

theorem findTurn_after (turn : TurnRequest) (found : Except ConversationError ConversationRow) :
    (∃ error, findTurn turn found = refuse error) ∨ findTurn turn found = .turn (.claiming turn) := by
  unfold findTurn
  cases found with
  | error error => exact .inl ⟨error,rfl⟩
  | ok row =>
    simp only [rejectDeprecatedRuntimeRow]
    split
    · exact .inl ⟨_,rfl⟩
    · split
      · exact .inl ⟨_,rfl⟩
      · exact .inr rfl

-- The claim is released: what was accepted before is accepted after.
theorem release_after {progress : TurnProgress} (accepts : ∀ c t m, messageId = some m → claim.conversationId = c → claim.turnId = t →
      (Progress.turn progress).accepted = some (c,t,m) ∨ progress = .skipping claim m)
    (moved : some (releaseTurn store claim messageId) = some (next,after)) : TurnAfter store next progress after := by
  simp only [releaseTurn,Option.some.injEq,Prod.mk.injEq] at moved
  obtain ⟨_,rfl⟩ := moved
  have accepted : ∀ place : Progress, place = respond claim messageId ∨ place = .turn (.completing claim messageId) →
      TurnAfter store next progress place := by
    intro place which
    have shape : place.cancels = none ∧ place.interrupts = none ∧ ∀ c t m, place.accepted = some (c,t,m) →
        messageId = some m ∧ claim.conversationId = c ∧ claim.turnId = t := by
      rcases which with rfl | rfl <;> cases messageId <;> simp [respond,Progress.cancels,Progress.interrupts,Progress.accepted]
    have passed : place.admits = false := by rcases which with rfl | rfl <;> cases messageId <;> rfl
    refine ⟨shape.1,shape.2.1,fun _ _ equal => ?_,fun _ _ _ equal => ?_,fun _ _ equal => ?_,fun c t m equal => ?_⟩
    · rw [equal] at passed; cases passed
    · rw [equal] at passed; cases passed
    · rw [equal] at passed; cases passed
    · obtain ⟨message,own,turn⟩ := shape.2.2 c t m equal
      rcases accepts c t m message own turn with earlier | skipped
      · exact .inl earlier
      · exact .inr (.inr ⟨claim,skipped,own,turn⟩)
  split
  · exact accepted _ (.inl rfl)
  · exact accepted _ (.inr rfl)

theorem serveTurn_after {progress : TurnProgress} (moved : serveTurn store progress input = some (next,after)) :
    TurnAfter store next progress after := by
  have fresh : ∀ place : Progress, place.cancels = none → place.interrupts = none → place.admits = false →
      place.accepted = none → TurnAfter store next progress place := by
    intro place cancels interrupts passed none
    refine .elsewhere cancels interrupts passed fun accepted equal => ?_
    rw [none] at equal
    cases equal
  have refused : ∀ error, TurnAfter store next progress (refuse error) := fun _ => fresh _ rfl rfl rfl rfl
  have dropped : ∀ claim error, TurnAfter store next progress (.turn (.dropping claim error)) :=
    fun _ _ => fresh _ rfl rfl rfl rfl
  cases progress with
  | finding turn =>
    cases input <;> cases moved
    · rcases findTurn_after turn (store.findOwn turn.userId turn.conversationId) with ⟨error,equal⟩ | equal <;> rw [equal]
      · exact refused error
      · exact fresh _ rfl rfl rfl rfl
    · exact refused _
  | claiming turn =>
    cases input with
    | answer freshId =>
      simp only [serveTurn] at moved
      split at moved
      · cases moved; exact refused _
      · rename_i claimed
        obtain ⟨_,_,_,_,rfl⟩ := tryClaimTurn_ok claimed
        simp only [Option.some.injEq,Prod.mk.injEq] at moved
        obtain ⟨rfl,rfl⟩ := moved
        split
        · refine ⟨rfl,rfl,fun _ _ equal => ?_,by rintro _ _ _ ⟨⟩,by rintro _ _ ⟨⟩,by rintro _ _ _ ⟨⟩⟩
          cases equal; rfl
        · exact fresh _ rfl rfl rfl rfl
    | _ => cases moved
  | admitting turn claim =>
    cases input with
    | answer freshId =>
      simp only [serveTurn] at moved
      split at moved
      · cases moved
        refine ⟨rfl,rfl,by rintro _ _ ⟨⟩,fun _ _ _ equal => ?_,by rintro _ _ ⟨⟩,by rintro _ _ _ ⟨⟩⟩
        cases equal; rfl
      · rename_i kept
        cases moved
        refine ⟨rfl,rfl,by rintro _ _ ⟨⟩,by rintro _ _ _ ⟨⟩,fun _ _ equal => ?_,by rintro _ _ _ ⟨⟩⟩
        cases equal
        exact ⟨turn,rfl,by simpa using kept⟩
    | _ => cases moved
  | storing turn claim messageId =>
    cases input with
    | answer freshId =>
      simp only [serveTurn] at moved
      split at moved
      · rename_i stored
        cases moved
        refine ⟨rfl,rfl,by rintro _ _ ⟨⟩,by rintro _ _ _ ⟨⟩,by rintro _ _ ⟨⟩,fun c t m equal => ?_⟩
        cases equal
        exact .inr (.inl ⟨turn,claim,rfl,rfl,stored⟩)
      · cases moved; exact dropped _ _
    | fail error => cases moved; exact dropped _ _
    | _ => cases moved
  | skipping claim messageId =>
    cases input with
    | answer freshId =>
      refine release_after ?_ moved
      rintro c t m ⟨⟩ _ _
      exact .inr rfl
    | _ => cases moved
  | dropping claim error =>
    cases input with
    | answer freshId => cases moved; exact refused _
    | _ => cases moved
  | running claim messageId =>
    cases input with
    | write kind change =>
      simp only [serveTurn,Option.some.injEq,Prod.mk.injEq] at moved
      obtain ⟨rfl,rfl⟩ := moved
      cases messageId <;> split <;> exact .elsewhere rfl rfl rfl fun _ equal => equal
    | finish =>
      refine release_after ?_ moved
      rintro c t m rfl rfl rfl
      exact .inl rfl
    | _ => cases moved
  | building claim messageId | writing claim messageId =>
    cases messageId <;> cases input <;> cases moved <;>
      exact .elsewhere rfl rfl rfl fun _ equal => equal
  | completing claim messageId | confirming claim messageId =>
    cases input with
    | answer freshId =>
      simp only [serveTurn] at moved
      cases messageId <;> split at moved <;> cases moved <;>
        exact .elsewhere rfl rfl rfl fun _ equal => equal
    | _ => cases messageId <;> cases moved <;> exact .elsewhere rfl rfl rfl fun _ equal => equal
  | finishing claim messageId =>
    cases messageId <;> cases input <;> cases moved <;>
      exact .elsewhere rfl rfl rfl fun _ equal => equal

-- Where a step of a cancellation leads: it keeps its conversation and turn, and
-- comes to the agent from its marking or from a drain that finds the flag set.
structure CancelAfter (store next : Store) (progress : CancelProgress) (after : Progress) : Prop where
  cancels : ∀ c t, after.cancels = some (c,t) → (Progress.cancel progress).cancels = some (c,t)
  interrupts : ∀ c, after.interrupts = some c → (∃ t agent, progress = .marking c t agent) ∨
    ((∃ t, progress = .confirmingDrain c t) ∧ c ∈ store.runtime.cancelling ∧ next = store)
  claim : after.claim = none
  accepted : after.accepted = none
  turn : after.isTurn = false

theorem serveCancel_after {progress : CancelProgress} (moved : serveCancel store progress input = some (next,after)) :
    CancelAfter store next progress after := by
  have answered : ∀ result, Progress.accepted (.returned result) = none → CancelAfter store next progress (.returned result) :=
    fun _ equal => ⟨nofun,nofun,rfl,equal,rfl⟩
  have passes : ∀ place : CancelProgress, (Progress.cancel place).cancels = (Progress.cancel progress).cancels →
      (Progress.cancel place).interrupts = none → CancelAfter store next progress (.cancel place) := by
    intro place same quiet
    refine ⟨fun c t equal => same ▸ equal,fun c equal => ?_,rfl,rfl,rfl⟩
    rw [quiet] at equal
    cases equal
  cases progress with
  | confirmingDrain c t =>
    cases input with
    | answer freshId =>
      simp only [serveCancel] at moved
      split at moved
      · rename_i flag
        cases moved
        refine ⟨fun _ _ equal => equal,fun d equal => .inr ?_,rfl,rfl,rfl⟩
        cases equal
        exact ⟨⟨t,rfl⟩,by simpa [RuntimeState.isCancelling] using flag,rfl⟩
      · cases moved; exact answered _ rfl
    | _ => cases moved
  | finding | comparing | draining =>
    cases input with
    | answer freshId =>
      simp only [serveCancel] at moved
      split at moved <;> cases moved <;>
        first | exact answered _ rfl | exact passes _ rfl rfl
    | _ => cases moved <;> exact answered _ rfl
  | fetchingAgent c t =>
    cases input with
    | agent found =>
      cases found <;> cases moved
      · exact answered _ rfl
      · exact passes _ rfl rfl
    | _ => cases moved
  | marking c t agent =>
    cases input with
    | answer freshId =>
      cases moved
      refine ⟨fun _ _ equal => equal,fun d equal => .inl ?_,rfl,rfl,rfl⟩
      cases equal
      exact ⟨t,agent,rfl⟩
    | _ => cases moved
  | stopping c t agent =>
    cases input with
    | answer freshId =>
      simp only [serveCancel,Option.some.injEq,Prod.mk.injEq] at moved
      obtain ⟨rfl,rfl⟩ := moved
      split
      · exact passes _ rfl rfl
      · exact answered _ rfl
    | fail error => cases moved; exact passes _ rfl rfl
    | _ => cases moved
  | unmarking | killing => cases input <;> cases moved; exact answered _ rfl

-- Where a step of a deletion leads.
theorem serveDelete_after {progress : DeleteProgress} (moved : serveDelete store progress input = some (next,after)) :
    (∃ place, after = .delete place) ∨ (∃ error, after = refuse error) ∨ after = .returned (.ok .deleted) := by
  cases progress with
  | finding =>
    cases input with
    | answer freshId =>
      simp only [serveDelete] at moved
      split at moved <;> cases moved
      · exact .inr (.inl ⟨_,rfl⟩)
      · exact .inl ⟨_,rfl⟩
    | fail error => cases moved; exact .inr (.inl ⟨_,rfl⟩)
    | _ => cases moved
  | removing c had =>
    cases input with
    | answer freshId =>
      simp only [serveDelete] at moved
      split at moved <;> cases moved <;> exact .inl ⟨_,rfl⟩
    | fail error => cases moved; exact .inl ⟨_,rfl⟩
    | _ => cases moved
  | marking | hooking | clearing => cases input <;> cases moved; exact .inl ⟨_,rfl⟩
  | failing => cases input <;> cases moved; exact .inr (.inl ⟨_,rfl⟩)
  | forgettingSession => cases input <;> cases moved; exact .inr (.inr rfl)

-- Where a step of any request leads.
structure After (store next : Store) (progress : Progress) (input : Input) (after : Progress) : Prop where
  cancels : ∀ c t, after.cancels = some (c,t) → progress.cancels = some (c,t) ∨ ∃ userId, input = .arrive (.cancel userId c t)
  interrupts : ∀ c, after.interrupts = some c → (∃ t agent, progress = .cancel (.marking c t agent)) ∨
    (c ∈ store.runtime.cancelling ∧ next = store)
  admitting : ∀ turn claim, after = .turn (.admitting turn claim) → claim.conversationId = turn.conversationId
  storing : ∀ turn claim m, after = .turn (.storing turn claim m) → progress = .turn (.admitting turn claim)
  skipping : ∀ claim m, after = .turn (.skipping claim m) → ∃ turn, progress = .turn (.admitting turn claim) ∧
    store.runtime.allows turn.conversationId .userMessage = false
  accepted : ∀ c t m, after.accepted = some (c,t,m) → progress.accepted = some (c,t,m) ∨
    (∃ turn claim, progress = .turn (.storing turn claim m) ∧ claim.conversationId = c ∧
      store.insertMessage (userMessage turn m) = .ok next) ∨
    ∃ claim, progress = .turn (.skipping claim m) ∧ claim.conversationId = c ∧ claim.turnId = t

theorem After.fresh (cancels : ∀ c t, after.cancels = some (c,t) → progress.cancels = some (c,t) ∨ ∃ userId, input = .arrive (.cancel userId c t))
    (interrupts : after.interrupts = none) (passed : after.admits = false) (accepted : after.accepted = none) :
    After store next progress input after := by
  refine ⟨cancels,fun c equal => ?_,fun turn claim equal => ?_,fun turn claim m equal => ?_,fun claim m equal => ?_,
    fun c t m equal => ?_⟩
  · rw [interrupts] at equal; cases equal
  · rw [equal] at passed; cases passed
  · rw [equal] at passed; cases passed
  · rw [equal] at passed; cases passed
  · rw [accepted] at equal; cases equal

-- A place that asks for no cancellation.
theorem After.quiet (cancels : after.cancels = none) (interrupts : after.interrupts = none) (passed : after.admits = false)
    (accepted : after.accepted = none) : After store next progress input after := by
  refine .fresh (fun c t equal => ?_) interrupts passed accepted
  rw [cancels] at equal
  cases equal

theorem arrive_after (request : Request) : After store store .idle (.arrive request) (arrive request) := by
  have turns : ∀ turn empty, After store store .idle (.arrive request) (arriveTurn turn empty) := by
    intro turn empty
    rcases arriveTurn_cases turn empty with refused | admitted
    · rw [refused]; exact .quiet rfl rfl rfl rfl
    · rw [admitted]; exact .quiet rfl rfl rfl rfl
  cases request with
  | sendMessage | runAgentTurn => exact turns _ _
  | cancel userId d u =>
    refine .fresh (fun c t equal => .inr ⟨userId,?_⟩) rfl rfl rfl
    cases equal; rfl
  | delete | shutDown => exact .quiet rfl rfl rfl rfl

theorem advance_after (moved : advance store progress input = some (next,after)) : After store next progress input after := by
  cases progress with
  | idle => cases input <;> cases moved; exact arrive_after _
  | turn progress =>
    have goes := serveTurn_after moved
    refine ⟨fun c t equal => ?_,fun c equal => ?_,goes.admitting,fun turn claim m equal => ?_,fun claim m equal => ?_,
      fun c t m equal => ?_⟩
    · rw [goes.cancels] at equal; cases equal
    · rw [goes.interrupts] at equal; cases equal
    · rw [goes.storing turn claim m equal]
    · obtain ⟨turn,rfl,kept⟩ := goes.skipping claim m equal
      exact ⟨turn,rfl,kept⟩
    · rcases goes.accepted c t m equal with earlier | ⟨turn,claim,rfl,own,stored⟩ | ⟨claim,rfl,own,same⟩
      · exact .inl earlier
      · exact .inr (.inl ⟨turn,claim,rfl,own,stored⟩)
      · exact .inr (.inr ⟨claim,rfl,own,same⟩)
  | cancel progress =>
    have goes := serveCancel_after moved
    have elsewhere : ∀ place, after ≠ .turn place := by
      rintro place rfl
      cases goes.turn
    refine ⟨fun c t equal => .inl (goes.cancels c t equal),fun c equal => ?_,fun _ _ equal => absurd equal (elsewhere _),
      fun _ _ _ equal => absurd equal (elsewhere _),fun _ _ equal => absurd equal (elsewhere _),fun c t m equal => ?_⟩
    · rcases goes.interrupts c equal with ⟨t,agent,rfl⟩ | ⟨_,flag,same⟩
      · exact .inl ⟨t,agent,rfl⟩
      · exact .inr ⟨flag,same⟩
    · rw [goes.accepted] at equal; cases equal
  | delete progress =>
    rcases serveDelete_after moved with ⟨place,rfl⟩ | ⟨error,rfl⟩ | rfl <;> exact .quiet rfl rfl rfl rfl
  | shuttingDown => cases input <;> cases moved; exact .quiet rfl rfl rfl rfl
  | returned result => cases input <;> cases moved

end Steps

section Invariant
variable {store next : Store} {progress after other : Progress} {input : Input} {c t : String}

-- A request of which another one's step takes nothing away.
theorem Fits.others (fits : Fits c t store other) (moved : advance store progress input = some (next,after))
    (apart : ∀ x y, progress.claim = some x → other.claim = some y → x.conversationId ≠ y.conversationId)
    (clear : ∀ turn, progress = .turn (.claiming turn) → store.runtime.activeTurnIdFor turn.conversationId = none →
      other.interrupts ≠ some turn.conversationId) : Fits c t next other := by
  have effect := advance_effect moved
  refine ⟨fits.unnamed,fun claim held => ?_,fits.own,fun interrupts active => ?_,fits.skips,fun m accepted => ?_⟩
  · have before := fits.held claim held
    generalize next.runtime = runtime at effect ⊢
    cases effect with
    | claimed turn u _ _ _ outcome =>
      obtain ⟨_,_,free,rfl,_⟩ := tryClaimTurn_ok outcome
      simp only [RuntimeState.activeTurnIdFor,lookup_insert_eq]
      split
      · rename_i same
        rw [← same,before] at free
        cases free
      · exact before
    | released mine stands =>
      rcases release_cases store.runtime mine.conversationId mine.turnId with ⟨_,equal⟩ | ⟨_,equal⟩
      · rw [equal]
        simp only [RuntimeState.activeTurnIdFor,lookup_erase_eq]
        rw [if_neg (apart mine claim stands held).symm]
        exact before
      · rw [equal]; exact before
    | _ => exact before
  · rcases active_origin effect active with before | ⟨free,_,turn,stands,rfl⟩
    · exact fits.interrupts interrupts before
    · exact clear turn stands free interrupts
  · exact keeps_step (advance_tables moved) (fits.persisted m accepted)

-- The flag of the conversation belongs to the cancellation of another turn.
theorem flag_elsewhere (flagged : c ∈ store.runtime.cancelling → ∃ u, u ≠ t ∧ store.runtime.activeTurnIdFor c = some u)
    (active : store.runtime.activeTurnIdFor c = some t) : c ∉ store.runtime.cancelling := by
  intro inside
  obtain ⟨u,other,stands⟩ := flagged inside
  exact other (Option.some.inj (stands.symm.trans active))

theorem Fits.own_step (fits : Fits c t store progress) (moved : advance store progress input = some (next,after))
    (flagged : c ∈ store.runtime.cancelling → ∃ u, u ≠ t ∧ store.runtime.activeTurnIdFor c = some u)
    (marks : ∀ d u agent, progress = .cancel (.marking d u agent) → store.runtime.activeTurnIdFor d = some u)
    (unnamed : ∀ userId, input ≠ .arrive (.cancel userId c t)) : Fits c t next after := by
  have effect := advance_effect moved
  have goes := advance_after moved
  refine ⟨fun named => ?_,fun claim held => ?_,fun turn claim at_store => ?_,fun interrupts active => ?_,
    fun claim m skips own => ?_,fun m accepted => ?_⟩
  · rcases goes.cancels c t named with before | ⟨userId,equal⟩
    · exact fits.unnamed before
    · exact unnamed userId equal
  · generalize next.runtime = runtime at effect ⊢
    cases effect with
    | nothing same => exact fits.held claim (same ▸ held)
    | claimed turn u _ mine _ outcome gets =>
      obtain ⟨_,_,_,rfl,rfl⟩ := tryClaimTurn_ok outcome
      cases Option.some.inj (gets.symm.trans held)
      simp only [RuntimeState.activeTurnIdFor,lookup_insert_eq,if_true]
    | released _ _ through => cases through.symm.trans held
    | markedCancelling _ _ _ _ equal => rw [equal] at held; cases held
    | clearedCancelling _ _ _ _ equal => rw [equal] at held; cases held
    | markedDeleting _ _ equal => rw [equal] at held; cases held
    | clearedDeleting _ _ through => cases through.symm.trans held
    | shutDown _ through => cases through.symm.trans held
  · rcases at_store with equal | ⟨m,equal⟩
    · exact goes.admitting turn claim equal
    · exact fits.own turn claim (.inl (goes.storing turn claim m equal))
  · rcases goes.interrupts c interrupts with ⟨u,agent,rfl⟩ | ⟨flag,same⟩
    · have standing := marks c u agent rfl
      rcases active_origin effect active with before | ⟨free,_⟩
      · have equal := Option.some.inj (standing.symm.trans before)
        exact fits.unnamed (by rw [equal]; rfl)
      · rw [standing] at free
        cases free
    · rw [same] at active
      exact flag_elsewhere flagged active flag
  · obtain ⟨turn,stands,kept⟩ := goes.skipping claim m skips
    have place : claim.conversationId = turn.conversationId := fits.own turn claim (.inl stands)
    have active := fits.held claim (by rw [stands]; rfl)
    rw [own.1,own.2] at active
    rw [← place,own.1,allows_userMessage (flag_elsewhere flagged active)] at kept
    cases kept
  · rcases goes.accepted c t m accepted with before | ⟨turn,claim,stands,own,stored⟩ | ⟨claim,stands,own⟩
    · exact keeps_step (advance_tables moved) (fits.persisted m before)
    · obtain ⟨_,_,messages⟩ := insertMessage_tables stored
      have place : claim.conversationId = turn.conversationId := fits.own turn claim (.inr ⟨m,stands⟩)
      refine .inl ⟨userMessage turn m,?_,rfl,place.symm.trans own,rfl,rfl⟩
      rw [messages]
      exact List.mem_append_right _ List.mem_cons_self
    · exact absurd own (fits.skips claim m stands)

end Invariant

theorem Scoped.step (within : Scoped c t system) (allowed : TurnScoped system action)
    (unnamed : ∀ userId, action.2 ≠ .arrive (.cancel userId c t)) (taken : step advance system action = some next) :
    Scoped c t next := by
  obtain ⟨n,input⟩ := action
  obtain ⟨store,after,moved,rfl⟩ := step_some taken
  have effect := advance_effect moved
  have marks : ∀ d u agent, system.threads n = .cancel (.marking d u agent) →
      system.store.runtime.activeTurnIdFor d = some u := by
    intro d u agent stands
    simpa only [TurnScoped,stands] using allowed
  have clear : ∀ turn, system.threads n = .turn (.claiming turn) →
      system.store.runtime.activeTurnIdFor turn.conversationId = none →
      ∀ m, (system.threads m).interrupts ≠ some turn.conversationId := by
    intro turn stands
    simpa only [TurnScoped,stands] using allowed
  constructor
  · intro m
    by_cases own : m = n
    · subst own
      rw [goes_store,goes_same]
      exact (within.fits m).own_step moved within.flagged marks unnamed
    · rw [goes_store,goes_other own]
      refine (within.fits m).others moved (fun x y one two same => ?_) fun turn stands free => clear turn stands free m
      exact own (within.alone n m x y one two same).symm
  · -- A fresh claim is on a conversation no one else holds a claim of.
    have fresh : ∀ m x y, m ≠ n → after.claim = some x → (system.threads m).claim = some y →
        x.conversationId ≠ y.conversationId := by
      intro m x y other one two same
      generalize store.runtime = runtime at effect
      cases effect with
      | nothing equal => exact other (within.alone m n y x two (equal ▸ one) same.symm)
      | claimed turn u _ mine _ outcome gets =>
        obtain ⟨_,_,free,_,rfl⟩ := tryClaimTurn_ok outcome
        cases Option.some.inj (gets.symm.trans one)
        have active := (within.fits m).held y two
        rw [← same,free] at active
        cases active
      | released _ _ through => cases through.symm.trans one
      | markedCancelling _ _ _ _ equal => rw [equal] at one; cases one
      | clearedCancelling _ _ _ _ equal => rw [equal] at one; cases one
      | markedDeleting _ _ equal => rw [equal] at one; cases one
      | clearedDeleting _ _ through => cases through.symm.trans one
      | shutDown _ through => cases through.symm.trans one
    intro i j x y one two same
    by_cases first : i = n
    · by_cases second : j = n
      · rw [first,second]
      · subst first
        rw [goes_same] at one
        rw [goes_other second] at two
        exact absurd same (fresh j x y second one two)
    · by_cases second : j = n
      · subst second
        rw [goes_other first] at one
        rw [goes_same] at two
        exact absurd same.symm (fresh i y x first two one)
      · rw [goes_other first] at one
        rw [goes_other second] at two
        exact within.alone i j x y one two same
  · rw [goes_store]
    intro flagged
    rcases (flag_origin effect).2 flagged with before | ⟨u,agent,stands,_,same⟩
    · obtain ⟨u,other,active⟩ := within.flagged before
      have kept := (active_kept effect (active ▸ nofun)).resolve_right fun cleared => cleared.2 flagged
      obtain ⟨v,stays⟩ := Option.ne_none_iff_exists'.mp kept
      refine ⟨v,?_,stays⟩
      rcases active_origin effect stays with earlier | ⟨free,_⟩
      · exact Option.some.inj (earlier.symm.trans active) ▸ other
      · rw [active] at free; cases free
    · refine ⟨u,fun equal => (within.fits n).unnamed ?_,by rw [same,marks c u agent stands]⟩
      rw [stands,equal]; rfl

theorem scoped_start : Scoped c t (start conversations messages) := by
  constructor
  · intro n
    exact ⟨nofun,nofun,nofun,nofun,nofun,nofun⟩
  · nofun
  · simp [start,RuntimeState.fresh]

-- A turn that no cancellation names runs as if there were none, when each
-- cancellation meets its own turn.
theorem cancel_turn_scoped (path : RunsWhere (step advance) TurnScoped (start conversations messages) actions system)
    (unnamed : ∀ n userId, (n,Input.arrive (.cancel userId c t)) ∉ actions) : Untouched c t system := by
  have each : ∀ action ∈ actions, ∀ userId, action.2 ≠ .arrive (.cancel userId c t) := by
    rintro ⟨n,input⟩ inside userId rfl
    exact unnamed n userId inside
  have within : Scoped c t system := (path.and_actions each).invariant scoped_start
    fun _ _ _ holds allowed taken => holds.step allowed.1 allowed.2 taken
  refine ⟨fun active observed => ?_,fun n => (within.fits n).interrupts,fun n m => (within.fits n).persisted m⟩
  exact flag_elsewhere within.flagged active (lifecycleFor_cancelling observed)

-- The next message after a cancellation that was marked late is answered with
-- Ok and stored nowhere.
def secondMessage : List (Nat × Input) :=
  [(2,.arrive (.sendMessage "ana" "chat" "again" false)),(2,.answer ""),(2,.answer "turn-b"),(2,.answer "m-b")]

def messageAfterLateMark : List (Nat × Input) := markedLate ++ secondMessage ++
  [(2,.answer ""),(2,.answer ""),(2,.answer ""),(2,.answer "")]

theorem late_mark_loses_message : ∃ after, exec (step advance) oneChat messageAfterLateMark = some after ∧
    (∀ n userId, (n,Input.arrive (.cancel userId "chat" "turn-b")) ∉ messageAfterLateMark) ∧
    after.threads 2 = .returned (.ok (.turn "chat" (some "m-b") "turn-b")) ∧ ¬Untouched "chat" "turn-b" after := by
  refine ⟨_,rfl,fun n userId => ?_,rfl,fun untouched => ?_⟩
  · simp [messageAfterLateMark,markedLate,runningTurn,cancelling,secondMessage]
  · rcases untouched.persisted 2 "m-b" rfl with ⟨row,inside,same,_⟩ | gone
    · have others : ∀ row ∈ ((exec (step advance) oneChat messageAfterLateMark).map fun after => after.store.messages).getD [],
          row.id ≠ "m-b" := by decide
      exact others row inside same
    · have stands : (((exec (step advance) oneChat messageAfterLateMark).map fun after =>
          after.store.conversations.lookup "chat").getD none).isSome := by decide
      change (AList.lookup "chat" _).isSome at stands
      rw [gone] at stands
      cases stands

-- After one that was marked in time it is stored as any other.
def messageAfterMark : List (Nat × Input) := markedInTime ++ secondMessage ++ [(2,.answer ""),(2,.answer "")]

theorem message_after_mark : ∃ after, RunsWhere (step advance) TurnScoped oneChat messageAfterMark after ∧
    after.threads 2 = .turn (.running ⟨"chat","turn-b",false⟩ (some "m-b")) := by
  refine ⟨_,.cons trivial rfl (.cons trivial rfl (.cons ?_ rfl (.cons trivial rfl (.cons trivial rfl (.cons trivial rfl
    (.cons trivial rfl (.cons trivial rfl (.cons trivial rfl (.cons trivial rfl (.cons ?_ rfl (.cons trivial rfl
      (.cons trivial rfl (.cons trivial rfl (.cons trivial rfl (.cons ?_ rfl (.cons trivial rfl (.cons trivial rfl
        (.cons trivial rfl .nil)))))))))))))))))),rfl⟩
  · intro _ n
    match n with
    | 0 => nofun
    | n + 1 => nofun
  · rfl
  · intro _ n
    match n with
    | 0 => nofun
    | 1 => nofun
    | 2 => nofun
    | n + 3 => nofun

theorem cancel_turn_scoped_message : ∃ after, exec (step advance) oneChat messageAfterMark = some after ∧
    Untouched "chat" "turn-b" after := by
  obtain ⟨after,path,_⟩ := message_after_mark
  refine ⟨after,exec_exact.mpr path.runs,cancel_turn_scoped path fun n userId => ?_⟩
  simp [messageAfterMark,markedInTime,runningTurn,cancelling,secondMessage]

end AlineaCopilot.ConversationRequests
