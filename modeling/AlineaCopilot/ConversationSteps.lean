import AlineaCopilot.ConversationRequests
open AlineaCopilot.KeyedMaps AlineaCopilot.InterleavedRequests AlineaCopilot.ConversationRuntime

namespace AlineaCopilot.ConversationRequests

-- The claim a request holds, from its claiming to its release.
def Progress.claim : Progress → Option TurnClaim
  | .turn progress => match progress with
    | .admitting _ claim | .storing _ claim _ | .skipping claim _ | .dropping claim _ | .building claim _
    | .running claim _ | .writing claim _ _ => some claim
    | .finding _ | .claiming _ | .completing _ _ | .confirming _ _ | .finishing _ _ => none
  | _ => none

-- A deletion that is going to clear the flag it has set.
def Progress.clears : Progress → Option String
  | .delete progress => match progress with
    | .hooking c false | .removing c false | .failing c _ | .clearing c => some c
    | _ => none
  | _ => none

-- A deletion between its marking and its return.
def Progress.deletes : Progress → Option String
  | .delete progress => match progress with
    | .hooking c _ | .removing c _ | .failing c _ | .clearing c | .forgettingSession c => some c
    | .finding _ _ | .marking _ => none
  | _ => none

-- All a step can do to the runtime state, with what it takes and what it leaves.
inductive RuntimeEffect (runtime : RuntimeState) (progress after : Progress) : RuntimeState → Prop where
  | nothing (same : after.claim = progress.claim) : RuntimeEffect runtime progress after runtime
  | claimed (turn : TurnRequest) (t : String) (next : RuntimeState) (claim : TurnClaim)
      (stands : progress = .turn (.claiming turn)) (outcome : runtime.tryClaimTurn turn.conversationId t = .ok (next,claim))
      (held : after.claim = some claim) : RuntimeEffect runtime progress after next
  | released (claim : TurnClaim) (held : progress.claim = some claim) (through : after.claim = none) :
      RuntimeEffect runtime progress after (runtime.release claim.conversationId claim.turnId).1
  | markedCancelling (c t : String) (agent : AgentType) (stands : progress = .cancel (.marking c t agent))
      (goes : after = .cancel (.stopping c t agent)) : RuntimeEffect runtime progress after (runtime.markCancelling c)
  | clearedCancelling (c t : String) (error : ConversationError) (stands : progress = .cancel (.unmarking c t error))
      (goes : after = refuse error) : RuntimeEffect runtime progress after (runtime.clearCancelling c)
  | markedDeleting (c : String) (stands : progress = .delete (.marking c))
      (goes : after = .delete (.hooking c (runtime.isClaimed c))) :
      RuntimeEffect runtime progress after (runtime.markDeleting c).1
  | clearedDeleting (c : String) (stands : progress.clears = some c) (through : after.claim = none) :
      RuntimeEffect runtime progress after (runtime.clearDeleting c)
  | shutDown (stands : progress = .shuttingDown) (through : after.claim = none) :
      RuntimeEffect runtime progress after runtime.markShuttingDown

section Effects
variable {store next : Store} {progress after : Progress} {input : Input}

theorem attempt_runtime (outcome : Except MessageTable.DbError Store) (same : ∀ next, outcome = .ok next → next.runtime = store.runtime) :
    (store.attempt outcome).runtime = store.runtime := by
  cases outcome with
  | ok next => exact same next rfl
  | error error => rfl

theorem insertMessage_runtime (inserted : store.insertMessage row = .ok next) : next.runtime = store.runtime := by
  unfold Store.insertMessage at inserted
  cases outcome : MessageTable.insertMessage store.conversationExists store.messages row with
  | ok messages => rw [outcome] at inserted; cases inserted; rfl
  | error error => rw [outcome] at inserted; cases inserted

theorem change_runtime (changed : store.change conversationId change = .ok next) : next.runtime = store.runtime := by
  cases change with
  | insert row => exact insertMessage_runtime changed
  | update messageId changes =>
    simp only [Store.change,Store.updateMessage] at changed
    cases outcome : MessageTable.updateMessage store.messages messageId changes with
    | ok messages => rw [outcome] at changed; cases changed; rfl
    | error error => rw [outcome] at changed; cases changed

theorem finishConversation_runtime (finished : store.finishConversation conversationId = .ok next) :
    next.runtime = store.runtime := by
  unfold Store.finishConversation at finished
  split at finished <;> cases finished
  rfl

theorem findTurn_claim (turn : TurnRequest) (found : Except ConversationError ConversationRow) :
    (findTurn turn found).claim = none := by
  unfold findTurn
  cases found with
  | error error => rfl
  | ok row =>
    simp only [rejectDeprecatedRuntimeRow]
    split
    · rfl
    · split <;> rfl

theorem serveTurn_effect {progress : TurnProgress} (moved : serveTurn store progress input = some (next,after)) :
    RuntimeEffect store.runtime (.turn progress) after next.runtime := by
  have releases : ∀ claim messageId, (Progress.turn progress).claim = some claim →
      some (releaseTurn store claim messageId) = some (next,after) →
      RuntimeEffect store.runtime (.turn progress) after next.runtime := by
    intro claim messageId held outcome
    simp only [releaseTurn,Option.some.injEq,Prod.mk.injEq] at outcome
    obtain ⟨rfl,rfl⟩ := outcome
    refine .released claim held ?_
    split <;> rfl
  cases progress with
  | finding turn =>
    cases input <;> cases moved
    · exact .nothing (findTurn_claim turn _)
    · exact .nothing rfl
  | claiming turn =>
    cases input with
    | answer freshId =>
      simp only [serveTurn] at moved
      cases outcome : store.runtime.tryClaimTurn turn.conversationId freshId with
      | error error => rw [outcome] at moved; cases moved; exact .nothing rfl
      | ok both =>
        rw [outcome] at moved
        cases moved
        refine .claimed turn freshId both.1 both.2 rfl outcome ?_
        split <;> rfl
    | _ => cases moved
  | admitting turn claim =>
    cases input with
    | answer freshId =>
      simp only [serveTurn] at moved
      split at moved <;> cases moved <;> exact .nothing rfl
    | _ => cases moved
  | storing turn claim messageId =>
    cases input with
    | answer freshId =>
      simp only [serveTurn] at moved
      split at moved
      · rename_i stored
        cases moved
        rw [insertMessage_runtime stored]
        exact .nothing rfl
      · cases moved; exact .nothing rfl
    | fail error => cases moved; exact .nothing rfl
    | _ => cases moved
  | skipping claim messageId =>
    cases input with
    | answer freshId => exact releases claim (some messageId) rfl moved
    | _ => cases moved
  | dropping claim error =>
    cases input with
    | answer freshId => cases moved; exact .released claim rfl rfl
    | _ => cases moved
  | building claim messageId => cases input <;> cases moved <;> exact .nothing rfl
  | running claim messageId =>
    cases input with
    | write kind change =>
      simp only [serveTurn,Option.some.injEq,Prod.mk.injEq] at moved
      obtain ⟨rfl,rfl⟩ := moved
      refine .nothing ?_
      split <;> rfl
    | finish => exact releases claim messageId rfl moved
    | _ => cases moved
  | writing claim messageId change =>
    cases input with
    | answer freshId =>
      cases moved
      rw [attempt_runtime _ fun _ changed => change_runtime changed]
      exact .nothing rfl
    | fail error => cases moved; exact .nothing rfl
    | _ => cases moved
  | completing claim messageId =>
    cases input with
    | answer freshId =>
      simp only [serveTurn] at moved
      split at moved <;> cases moved <;> exact .nothing rfl
    | _ => cases moved
  | confirming claim messageId =>
    cases input with
    | answer freshId =>
      simp only [serveTurn] at moved
      split at moved <;> cases moved <;> exact .nothing rfl
    | fail error => cases moved; exact .nothing rfl
    | _ => cases moved
  | finishing claim messageId =>
    cases input with
    | answer freshId =>
      cases moved
      rw [attempt_runtime _ fun _ finished => finishConversation_runtime finished]
      exact .nothing rfl
    | fail error => cases moved; exact .nothing rfl
    | _ => cases moved

theorem serveCancel_effect {progress : CancelProgress} (moved : serveCancel store progress input = some (next,after)) :
    RuntimeEffect store.runtime (.cancel progress) after next.runtime := by
  cases progress with
  | marking c t agent =>
    cases input with
    | answer freshId => cases moved; exact .markedCancelling c t agent rfl rfl
    | _ => cases moved
  | unmarking c t error =>
    cases input with
    | answer freshId => cases moved; exact .clearedCancelling c t error rfl rfl
    | _ => cases moved
  | finding | comparing | draining | confirmingDrain =>
    cases input with
    | answer freshId =>
      simp only [serveCancel] at moved
      split at moved <;> cases moved <;> exact .nothing rfl
    | _ => cases moved <;> exact .nothing rfl
  | fetchingAgent c t =>
    cases input with
    | agent found => cases found <;> cases moved <;> exact .nothing rfl
    | _ => cases moved
  | stopping c t agent =>
    cases input with
    | answer freshId =>
      simp only [serveCancel,Option.some.injEq,Prod.mk.injEq] at moved
      obtain ⟨rfl,rfl⟩ := moved
      refine .nothing ?_
      split <;> rfl
    | fail error => cases moved; exact .nothing rfl
    | _ => cases moved
  | killing => cases input <;> cases moved; exact .nothing rfl

theorem noteMarked_runtime (store : Store) (c : String) : (store.noteMarked c).runtime = store.runtime := by
  unfold Store.noteMarked
  split <;> rfl

theorem deleteConversation_runtime (deleted : store.deleteConversation c = .ok next) : next.runtime = store.runtime := by
  unfold Store.deleteConversation at deleted
  split at deleted <;> cases deleted
  rfl

theorem serveDelete_effect {progress : DeleteProgress} (moved : serveDelete store progress input = some (next,after)) :
    RuntimeEffect store.runtime (.delete progress) after next.runtime := by
  cases progress with
  | finding =>
    cases input with
    | answer freshId =>
      simp only [serveDelete] at moved
      split at moved <;> cases moved <;> exact .nothing rfl
    | _ => cases moved <;> exact .nothing rfl
  | marking c =>
    cases input with
    | answer freshId => cases moved; exact .markedDeleting c rfl rfl
    | _ => cases moved
  | hooking => cases input <;> cases moved; exact .nothing rfl
  | removing c had =>
    cases input with
    | answer freshId =>
      simp only [serveDelete] at moved
      split at moved
      · cases moved; exact .nothing rfl
      · rename_i deleted
        simp only [Option.some.injEq,Prod.mk.injEq] at moved
        obtain ⟨rfl,rfl⟩ := moved
        rw [deleteConversation_runtime deleted]
        cases had <;> exact .nothing rfl
    | fail error => cases moved; exact .nothing rfl
    | _ => cases moved
  | failing c error =>
    cases input with
    | answer freshId => cases moved; exact .clearedDeleting c rfl rfl
    | _ => cases moved
  | clearing c =>
    cases input with
    | answer freshId => cases moved; exact .clearedDeleting c rfl rfl
    | _ => cases moved
  | forgettingSession => cases input <;> cases moved; exact .nothing rfl

theorem arriveTurn_cases (turn : TurnRequest) (empty : String) :
    arriveTurn turn empty = refuse (.badRequest empty) ∨ arriveTurn turn empty = .turn (.finding turn) := by
  unfold arriveTurn
  split
  · exact .inl rfl
  · exact .inr rfl

theorem arrive_claim (request : Request) : (arrive request).claim = none := by
  have turns : ∀ turn empty, (arriveTurn turn empty).claim = none := by
    intro turn empty
    rcases arriveTurn_cases turn empty with refused | admitted
    · rw [refused]; rfl
    · rw [admitted]; rfl
  cases request with
  | sendMessage | runAgentTurn => exact turns _ _
  | cancel | delete | shutDown => rfl

theorem advance_effect (moved : advance store progress input = some (next,after)) :
    RuntimeEffect store.runtime progress after next.runtime := by
  cases progress with
  | idle =>
    cases input with
    | arrive request => cases moved; exact .nothing (arrive_claim request)
    | _ => cases moved
  | turn progress => exact serveTurn_effect moved
  | cancel progress => exact serveCancel_effect moved
  | delete progress => exact serveDelete_effect moved
  | shuttingDown =>
    cases input with
    | answer freshId => cases moved; exact .shutDown rfl rfl
    | _ => cases moved
  | returned result => cases input <;> cases moved

end Effects

-- All a step can do to the tables.
inductive TableEffect (store next : Store) : Prop where
  | nothing (conversations : next.conversations = store.conversations) (messages : next.messages = store.messages)
  | inserted (row : MessageTable.MessageRow String) (known : store.conversationExists row.conversationId = true)
      (conversations : next.conversations = store.conversations) (messages : next.messages = store.messages ++ [row])
  | updated (rowId : String) (changes : MessageTable.MessageRowUpdate String)
      (conversations : next.conversations = store.conversations)
      (messages : next.messages = store.messages.map fun row => if row.id = rowId then changes.apply row else row)
  | finished (c : String) (row after : ConversationRow) (stands : store.conversations.lookup c = some row)
      (conversations : next.conversations = store.conversations.insert c after) (messages : next.messages = store.messages)
  | deleted (c : String) (conversations : next.conversations = store.conversations.erase c)
      (messages : next.messages = MessageTable.deleteMessagesByConversation store.messages c)

section Tables
variable {store next : Store} {progress after : Progress} {input : Input}

theorem insertMessage_tables (inserted : store.insertMessage row = .ok next) :
    store.conversationExists row.conversationId = true ∧ next.conversations = store.conversations ∧
      next.messages = store.messages ++ [row] := by
  unfold Store.insertMessage at inserted
  cases outcome : MessageTable.insertMessage store.conversationExists store.messages row with
  | error error => rw [outcome] at inserted; cases inserted
  | ok messages =>
    rw [outcome] at inserted
    cases inserted
    obtain ⟨_,known,same⟩ := MessageTable.insertMessage_ok outcome
    exact ⟨known,rfl,same⟩

theorem change_tables (conversationId : String) (change : RuntimeChange) :
    TableEffect store (store.attempt (store.change conversationId change)) := by
  cases outcome : store.change conversationId change with
  | error error => exact .nothing rfl rfl
  | ok next =>
    cases change with
    | insert row =>
      obtain ⟨known,conversations,messages⟩ := insertMessage_tables outcome
      exact .inserted _ known conversations messages
    | update rowId changes =>
      simp only [Store.change,Store.updateMessage] at outcome
      cases updated : MessageTable.updateMessage store.messages rowId changes with
      | error error => rw [updated] at outcome; cases outcome
      | ok messages =>
        rw [updated] at outcome
        cases outcome
        exact .updated rowId changes rfl (MessageTable.updateMessage_ok updated)

theorem finish_tables (conversationId : String) : TableEffect store (store.attempt (store.finishConversation conversationId)) := by
  unfold Store.finishConversation
  cases found : store.conversations.lookup conversationId with
  | none => exact .nothing rfl rfl
  | some row => exact .finished conversationId row _ found rfl rfl

theorem serveTurn_tables {progress : TurnProgress} (moved : serveTurn store progress input = some (next,after)) :
    TableEffect store next := by
  have releases : ∀ claim messageId, some (releaseTurn store claim messageId) = some (next,after) → TableEffect store next := by
    intro claim messageId outcome
    cases outcome
    exact .nothing rfl rfl
  cases progress with
  | finding turn => cases input <;> cases moved <;> exact .nothing rfl rfl
  | claiming turn =>
    cases input with
    | answer freshId =>
      simp only [serveTurn] at moved
      split at moved <;> cases moved <;> exact .nothing rfl rfl
    | _ => cases moved
  | admitting turn claim =>
    cases input with
    | answer freshId =>
      simp only [serveTurn] at moved
      split at moved <;> cases moved <;> exact .nothing rfl rfl
    | _ => cases moved
  | storing turn claim messageId =>
    cases input with
    | answer freshId =>
      simp only [serveTurn] at moved
      split at moved
      · rename_i stored
        cases moved
        obtain ⟨known,conversations,messages⟩ := insertMessage_tables stored
        exact .inserted _ known conversations messages
      · cases moved; exact .nothing rfl rfl
    | fail error => cases moved; exact .nothing rfl rfl
    | _ => cases moved
  | skipping claim messageId =>
    cases input with
    | answer freshId => exact releases claim (some messageId) moved
    | _ => cases moved
  | running claim messageId =>
    cases input with
    | write kind change => cases moved; exact .nothing rfl rfl
    | finish => exact releases claim messageId moved
    | _ => cases moved
  | writing claim messageId change =>
    cases input with
    | answer freshId => cases moved; exact change_tables claim.conversationId change
    | fail error => cases moved; exact .nothing rfl rfl
    | _ => cases moved
  | finishing claim messageId =>
    cases input with
    | answer freshId => cases moved; exact finish_tables claim.conversationId
    | fail error => cases moved; exact .nothing rfl rfl
    | _ => cases moved
  | completing | confirming =>
    cases input with
    | answer freshId =>
      simp only [serveTurn] at moved
      split at moved <;> cases moved <;> exact .nothing rfl rfl
    | _ => cases moved <;> exact .nothing rfl rfl
  | dropping => cases input <;> cases moved; exact .nothing rfl rfl
  | building => cases input <;> cases moved <;> exact .nothing rfl rfl

theorem serveCancel_tables {progress : CancelProgress} (moved : serveCancel store progress input = some (next,after)) :
    next.conversations = store.conversations ∧ next.messages = store.messages := by
  cases progress with
  | finding | comparing | draining | confirmingDrain =>
    cases input with
    | answer freshId =>
      simp only [serveCancel] at moved
      split at moved <;> cases moved <;> exact ⟨rfl,rfl⟩
    | _ => cases moved <;> exact ⟨rfl,rfl⟩
  | fetchingAgent =>
    cases input with
    | agent found => cases found <;> cases moved <;> exact ⟨rfl,rfl⟩
    | _ => cases moved
  | marking | stopping | unmarking | killing => cases input <;> cases moved <;> exact ⟨rfl,rfl⟩

theorem serveDelete_tables {progress : DeleteProgress} (moved : serveDelete store progress input = some (next,after)) :
    TableEffect store next := by
  cases progress with
  | finding =>
    cases input with
    | answer freshId =>
      simp only [serveDelete] at moved
      split at moved <;> cases moved <;> exact .nothing rfl rfl
    | _ => cases moved <;> exact .nothing rfl rfl
  | marking c =>
    cases input with
    | answer freshId =>
      cases moved
      simp only [Store.noteMarked]
      split <;> exact .nothing rfl rfl
    | _ => cases moved
  | removing c had =>
    cases input with
    | answer freshId =>
      simp only [serveDelete,Store.deleteConversation] at moved
      split at moved
      · cases moved; exact .nothing rfl rfl
      · rename_i deleted
        cases moved
        split at deleted <;> cases deleted
        exact .deleted c rfl rfl
    | fail error => cases moved; exact .nothing rfl rfl
    | _ => cases moved
  | hooking | failing | clearing | forgettingSession => cases input <;> cases moved <;> exact .nothing rfl rfl

theorem advance_tables (moved : advance store progress input = some (next,after)) : TableEffect store next := by
  cases progress with
  | idle => cases input <;> cases moved; exact .nothing rfl rfl
  | turn progress => exact serveTurn_tables moved
  | cancel progress =>
    obtain ⟨conversations,messages⟩ := serveCancel_tables moved
    exact .nothing conversations messages
  | delete progress => exact serveDelete_tables moved
  | shuttingDown => cases input <;> cases moved; exact .nothing rfl rfl
  | returned result => cases input <;> cases moved

-- No conversation comes back once its row is gone.
theorem missing_step (effect : TableEffect store next) (missing : store.conversations.lookup c = none) :
    next.conversations.lookup c = none := by
  cases effect with
  | nothing conversations => rw [conversations,missing]
  | inserted _ _ conversations => rw [conversations,missing]
  | updated _ _ conversations => rw [conversations,missing]
  | finished d old new stands conversations =>
    rw [conversations,lookup_insert_eq]
    split
    · rename_i same
      rw [← same,missing] at stands
      cases stands
    · exact missing
  | deleted d conversations =>
    rw [conversations,lookup_erase_eq]
    split
    · rfl
    · exact missing

theorem change_marked (conversationId : String) (change : RuntimeChange) :
    (store.attempt (store.change conversationId change)).marked = store.marked := by
  cases change with
  | insert row =>
    simp only [Store.change,Store.insertMessage]
    cases MessageTable.insertMessage store.conversationExists store.messages _ <;> rfl
  | update rowId changes =>
    simp only [Store.change,Store.updateMessage]
    cases MessageTable.updateMessage store.messages rowId changes <;> rfl

theorem finish_marked (conversationId : String) :
    (store.attempt (store.finishConversation conversationId)).marked = store.marked := by
  unfold Store.finishConversation
  cases store.conversations.lookup conversationId <;> rfl

theorem serveTurn_marked {progress : TurnProgress} (moved : serveTurn store progress input = some (next,after)) :
    next.marked = store.marked := by
  cases progress with
  | claiming | admitting | completing | confirming =>
    cases input with
    | answer freshId =>
      simp only [serveTurn] at moved
      split at moved <;> cases moved <;> rfl
    | _ => cases moved <;> rfl
  | storing turn claim messageId =>
    cases input with
    | answer freshId =>
      simp only [serveTurn,Store.insertMessage] at moved
      cases outcome : MessageTable.insertMessage store.conversationExists store.messages (userMessage turn messageId) <;>
        rw [outcome] at moved <;> cases moved <;> rfl
    | _ => cases moved <;> rfl
  | writing claim messageId change =>
    cases input with
    | answer freshId => cases moved; exact change_marked claim.conversationId change
    | _ => cases moved <;> rfl
  | finishing claim messageId =>
    cases input with
    | answer freshId => cases moved; exact finish_marked claim.conversationId
    | _ => cases moved <;> rfl
  | finding | skipping | dropping | building | running => cases input <;> cases moved <;> rfl

theorem serveCancel_marked {progress : CancelProgress} (moved : serveCancel store progress input = some (next,after)) :
    next.marked = store.marked := by
  cases progress with
  | finding | comparing | draining | confirmingDrain =>
    cases input with
    | answer freshId =>
      simp only [serveCancel] at moved
      split at moved <;> cases moved <;> rfl
    | _ => cases moved <;> rfl
  | fetchingAgent =>
    cases input with
    | agent found => cases found <;> cases moved <;> rfl
    | _ => cases moved
  | marking | stopping | unmarking | killing => cases input <;> cases moved <;> rfl

theorem serveDelete_marked {progress : DeleteProgress} (moved : serveDelete store progress input = some (next,after)) :
    next.marked = store.marked ∨ ∃ c, progress = .marking c ∧ next.marked = (store.noteMarked c).marked := by
  cases progress with
  | finding =>
    left
    cases input with
    | answer freshId =>
      simp only [serveDelete] at moved
      split at moved <;> cases moved <;> rfl
    | _ => cases moved <;> rfl
  | marking c =>
    right
    cases input with
    | answer freshId => cases moved; exact ⟨c,rfl,rfl⟩
    | _ => cases moved
  | removing c had =>
    left
    cases input with
    | answer freshId =>
      simp only [serveDelete,Store.deleteConversation] at moved
      split at moved
      · cases moved; rfl
      · rename_i deleted
        cases moved
        split at deleted <;> cases deleted
        rfl
    | _ => cases moved <;> rfl
  | hooking | failing | clearing | forgettingSession => left; cases input <;> cases moved <;> rfl

theorem advance_marked (moved : advance store progress input = some (next,after)) :
    next.marked = store.marked ∨ ∃ c, progress = .delete (.marking c) ∧ next.marked = (store.noteMarked c).marked := by
  cases progress with
  | turn progress => exact .inl (serveTurn_marked moved)
  | cancel progress => exact .inl (serveCancel_marked moved)
  | delete progress =>
    rcases serveDelete_marked moved with same | ⟨c,rfl,noted⟩
    · exact .inl same
    · exact .inr ⟨c,rfl,noted⟩
  | idle | shuttingDown | returned => cases input <;> cases moved <;> exact .inl rfl

end Tables

end AlineaCopilot.ConversationRequests
