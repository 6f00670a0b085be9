import AlineaCopilot.ConversationRuntime
import AlineaCopilot.InterleavedRequests
import AlineaCopilot.MessageTable
import AlineaCopilot.RustText
open AlineaCopilot.KeyedMaps AlineaCopilot.TransitionRuns AlineaCopilot.InterleavedRequests AlineaCopilot.MessageTable
open AlineaCopilot.ConversationRuntime

namespace AlineaCopilot.ConversationRequests

inductive AgentType where
  | acp
  | aionrs
  | gemini
  | codex
  | openclawGateway
  | nanobot
  | remote
deriving DecidableEq, Repr

def AgentType.isDeprecatedRuntime : AgentType → Bool
  | .acp | .aionrs => false
  | _ => true

-- What the handlers read of a conversation. `teamId` is the marker in `extra`;
-- a `type` that does not parse is none.
structure ConversationRow where
  userId : String
  agentType : Option AgentType
  teamId : Option String
  status : String
deriving DecidableEq, Repr

-- The runtime state and the two tables. `marked` lists every marking of a
-- conversation as deleting, with the turn active then; no handler reads it.
structure Store where
  runtime : RuntimeState
  conversations : KeyedMap String ConversationRow
  messages : Messages String
  marked : List (String × String)

-- A user's message, or a turn another domain runs without one.
structure TurnRequest where
  userId : String
  conversationId : String
  content : String
  hidden : Bool
  storesMessage : Bool
deriving DecidableEq, Repr

inductive Request where
  | sendMessage (userId conversationId content : String) (hidden : Bool)
  | runAgentTurn (userId conversationId content : String)
  | cancel (userId conversationId turnId : String)
  | delete (userId conversationId : String)
  | shutDown
deriving DecidableEq, Repr

inductive RuntimeChange where
  | insert (row : MessageRow String)
  | update (id : String) (changes : MessageRowUpdate String)
deriving DecidableEq, Repr

-- A turn's response carries the summary of its conversation.
inductive Response where
  | turn (conversationId : String) (messageId : Option String) (turnId : String)
  | cancelled
  | deleted
  | shutDown
deriving DecidableEq, Repr

-- Where a turn stands: from the look-up of its conversation to what is
-- written after its release.
inductive TurnProgress where
  | finding (turn : TurnRequest)
  | claiming (turn : TurnRequest)
  | admitting (turn : TurnRequest) (claim : TurnClaim)
  | storing (turn : TurnRequest) (claim : TurnClaim) (messageId : String)
  | skipping (claim : TurnClaim) (messageId : String)
  | dropping (claim : TurnClaim) (error : ConversationError)
  | building (claim : TurnClaim) (messageId : Option String)
  | running (claim : TurnClaim) (messageId : Option String)
  | writing (claim : TurnClaim) (messageId : Option String) (change : RuntimeChange)
  | completing (claim : TurnClaim) (messageId : Option String)
  | confirming (claim : TurnClaim) (messageId : Option String)
  | finishing (claim : TurnClaim) (messageId : Option String)
deriving DecidableEq

inductive CancelProgress where
  | finding (userId conversationId turnId : String)
  | comparing (conversationId turnId : String)
  | fetchingAgent (conversationId turnId : String)
  | marking (conversationId turnId : String) (agent : AgentType)
  | stopping (conversationId turnId : String) (agent : AgentType)
  | unmarking (conversationId turnId : String) (error : ConversationError)
  | draining (conversationId turnId : String)
  | confirmingDrain (conversationId turnId : String)
  | killing (conversationId turnId : String)
deriving DecidableEq

inductive DeleteProgress where
  | finding (userId conversationId : String)
  | marking (conversationId : String)
  | hooking (conversationId : String) (hadActiveTurn : Bool)
  | removing (conversationId : String) (hadActiveTurn : Bool)
  | failing (conversationId : String) (error : ConversationError)
  | clearing (conversationId : String)
  | forgettingSession (conversationId : String)
deriving DecidableEq

inductive Progress where
  | idle
  | turn (progress : TurnProgress)
  | cancel (progress : CancelProgress)
  | delete (progress : DeleteProgress)
  | shuttingDown
  | returned (result : Except ConversationError Response)

-- What a request meets at its next step: it comes in, its call answers (with a
-- generated id where one is minted) or fails, the task manager answers, or the
-- agent of a running turn has something written or is through.
inductive Input where
  | arrive (request : Request)
  | answer (freshId : String)
  | fail (error : ConversationError)
  | agent (found : Option AgentType)
  | write (kind : RuntimeWriteKind) (change : RuntimeChange)
  | finish
deriving DecidableEq

def refuse (error : ConversationError) : Progress := .returned (.error error)

def Store.withRuntime (store : Store) (runtime : RuntimeState) : Store := { store with runtime := runtime }

section Repository

def Store.conversationExists (store : Store) (id : String) : Bool := (store.conversations.lookup id).isSome

def Store.insertMessage (store : Store) (row : MessageRow String) : Except DbError Store :=
  (MessageTable.insertMessage store.conversationExists store.messages row).map fun messages => { store with messages := messages }

def Store.updateMessage (store : Store) (id : String) (changes : MessageRowUpdate String) : Except DbError Store :=
  (MessageTable.updateMessage store.messages id changes).map fun messages => { store with messages := messages }

-- The rows of a conversation go with it.
def Store.deleteConversation (store : Store) (id : String) : Except DbError Store :=
  if store.conversationExists id then
    .ok { store with
      conversations := store.conversations.erase id
      messages := deleteMessagesByConversation store.messages id }
  else .error (.notFound s!"Conversation '{id}' not found")

def Store.finishConversation (store : Store) (id : String) : Except DbError Store :=
  match store.conversations.lookup id with
  | none => .error (.notFound s!"Conversation '{id}' not found")
  | some row => .ok { store with conversations := store.conversations.insert id { row with status := "finished" } }

def ofDbError : DbError → ConversationError
  | .notFound reason => .notFoundReason reason
  | .query text => .internal s!"Database error: {text}"

def Store.findOwn (store : Store) (userId conversationId : String) : Except ConversationError ConversationRow :=
  match (store.conversations.lookup conversationId).filter fun row => row.userId = userId with
  | none => .error (.notFound conversationId)
  | some row => .ok row

end Repository

section Turns

def arriveTurn (turn : TurnRequest) (empty : String) : Progress :=
  if (RustText.trim turn.content).isEmpty then refuse (.badRequest empty) else .turn (.finding turn)

def rejectDeprecatedRuntimeRow (id : String) (row : ConversationRow) (next : Progress) : Progress :=
  if row.agentType.any AgentType.isDeprecatedRuntime then
    refuse (.archived id "This historical conversation can no longer be continued. Please start a new conversation.")
  else next

def findTurn (turn : TurnRequest) (found : Except ConversationError ConversationRow) : Progress :=
  match found with
  | .error error => refuse error
  | .ok row =>
    if turn.storesMessage && row.teamId.isSome then
      refuse (.forbidden "Team-owned conversations must be sent through Team API")
    else rejectDeprecatedRuntimeRow turn.conversationId row (.turn (.claiming turn))

-- The content column wraps the text in an object; the text stands for it.
def userMessage (turn : TurnRequest) (messageId : String) : MessageRow String :=
  ⟨messageId,turn.conversationId,some messageId,"text",turn.content,some "right",some "finish",turn.hidden,0⟩

def respond (claim : TurnClaim) (messageId : Option String) : Progress := .returned (.ok (.turn claim.conversationId messageId claim.turnId))

-- The claim is released; the completion is published unless the conversation
-- was being deleted.
def releaseTurn (store : Store) (claim : TurnClaim) (messageId : Option String) : Store × Progress :=
  let (runtime,wasDeleting) := store.runtime.release claim.conversationId claim.turnId
  (store.withRuntime runtime,if wasDeleting then respond claim messageId else .turn (.completing claim messageId))

def Store.change (store : Store) (conversationId : String) : RuntimeChange → Except DbError Store
  | .insert row => store.insertMessage { row with conversationId := conversationId }
  | .update id changes => store.updateMessage id changes

-- A failed write is logged and the turn goes on.
def Store.attempt (store : Store) (next : Except DbError Store) : Store :=
  match next with
  | .ok next => next
  | .error _ => store

-- A failed build leaves a tip and ends the turn: it is a run of that one write.
def serveTurn (store : Store) : TurnProgress → Input → Option (Store × Progress)
  | .finding turn,.answer _ => some (store,findTurn turn (store.findOwn turn.userId turn.conversationId))
  | .claiming turn,.answer freshId =>
    match store.runtime.tryClaimTurn turn.conversationId freshId with
    | .error error => some (store,refuse error)
    | .ok (runtime,claim) =>
      some (store.withRuntime runtime,.turn (if turn.storesMessage then .admitting turn claim else .building claim none))
  | .admitting turn claim,.answer freshId =>
    if store.runtime.allows turn.conversationId .userMessage then some (store,.turn (.storing turn claim freshId))
    else some (store,.turn (.skipping claim freshId))
  | .storing turn claim messageId,.answer _ =>
    match store.insertMessage (userMessage turn messageId) with
    | .ok next => some (next,.turn (.building claim (some messageId)))
    | .error error => some (store,.turn (.dropping claim (ofDbError error)))
  | .storing _ claim _,.fail error => some (store,.turn (.dropping claim error))
  | .skipping claim messageId,.answer _ => some (releaseTurn store claim (some messageId))
  | .dropping claim error,.answer _ =>
    some (store.withRuntime (store.runtime.release claim.conversationId claim.turnId).1,refuse error)
  | .building claim messageId,.answer _ => some (store,.turn (.running claim messageId))
  | .building claim messageId,.fail _ => some (store,.turn (.running claim messageId))
  | .running claim messageId,.write kind change =>
    some (store,.turn (if store.runtime.allows claim.conversationId kind then .writing claim messageId change
      else .running claim messageId))
  | .running claim messageId,.finish => some (releaseTurn store claim messageId)
  | .writing claim messageId change,.answer _ =>
    some (store.attempt (store.change claim.conversationId change),.turn (.running claim messageId))
  | .writing claim messageId _,.fail _ => some (store,.turn (.running claim messageId))
  | .completing claim messageId,.answer _ =>
    if store.runtime.allows claim.conversationId .conversationFinished then some (store,.turn (.confirming claim messageId))
    else some (store,respond claim messageId)
  | .confirming claim messageId,.answer _ =>
    if store.conversationExists claim.conversationId then some (store,.turn (.finishing claim messageId))
    else some (store,respond claim messageId)
  | .confirming claim messageId,.fail _ => some (store,respond claim messageId)
  | .finishing claim messageId,.answer _ =>
    some (store.attempt (store.finishConversation claim.conversationId),respond claim messageId)
  | .finishing claim messageId,.fail _ => some (store,respond claim messageId)
  | .finding _,.fail error => some (store,refuse error)
  | _,_ => none

end Turns

section Cancel

-- After the answer to the caller of an ACP agent's cancellation the drain task
-- still sleeps; it is one of the steps here.
def serveCancel (store : Store) : CancelProgress → Input → Option (Store × Progress)
  | .finding userId conversationId turnId,.answer _ =>
    match store.findOwn userId conversationId with
    | .error error => some (store,refuse error)
    | .ok _ => some (store,.cancel (.comparing conversationId turnId))
  | .finding _ _ _,.fail error => some (store,refuse error)
  | .comparing conversationId turnId,.answer _ =>
    if store.runtime.activeTurnIdFor conversationId = some turnId then
      some (store,.cancel (.fetchingAgent conversationId turnId))
    else some (store,.returned (.ok .cancelled))
  | .fetchingAgent conversationId turnId,.agent found =>
    match found with
    | none => some (store,.returned (.ok .cancelled))
    | some agent => some (store,.cancel (.marking conversationId turnId agent))
  | .marking conversationId turnId agent,.answer _ =>
    some (store.withRuntime (store.runtime.markCancelling conversationId),.cancel (.stopping conversationId turnId agent))
  | .stopping conversationId turnId agent,.answer _ =>
    some (store,if agent = .acp then .cancel (.draining conversationId turnId) else .returned (.ok .cancelled))
  | .stopping conversationId turnId _,.fail error => some (store,.cancel (.unmarking conversationId turnId error))
  | .unmarking conversationId _ error,.answer _ =>
    some (store.withRuntime (store.runtime.clearCancelling conversationId),refuse error)
  | .draining conversationId turnId,.answer _ =>
    if store.runtime.activeTurnIdFor conversationId = some turnId then
      some (store,.cancel (.confirmingDrain conversationId turnId))
    else some (store,.returned (.ok .cancelled))
  | .confirmingDrain conversationId turnId,.answer _ =>
    if store.runtime.isCancelling conversationId then some (store,.cancel (.killing conversationId turnId))
    else some (store,.returned (.ok .cancelled))
  | .killing _ _,.answer _ => some (store,.returned (.ok .cancelled))
  | _,_ => none

end Cancel

section Delete

def Store.noteMarked (store : Store) (conversationId : String) : Store :=
  match store.runtime.activeTurnIdFor conversationId with
  | none => store
  | some turnId => { store with marked := (conversationId,turnId) :: store.marked }

def serveDelete (store : Store) : DeleteProgress → Input → Option (Store × Progress)
  | .finding userId conversationId,.answer _ =>
    match store.findOwn userId conversationId with
    | .error error => some (store,refuse error)
    | .ok _ => some (store,.delete (.marking conversationId))
  | .finding _ _,.fail error => some (store,refuse error)
  | .marking conversationId,.answer _ =>
    let (runtime,hadActiveTurn) := store.runtime.markDeleting conversationId
    some ((store.noteMarked conversationId).withRuntime runtime,.delete (.hooking conversationId hadActiveTurn))
  | .hooking conversationId hadActiveTurn,.answer _ => some (store,.delete (.removing conversationId hadActiveTurn))
  | .removing conversationId hadActiveTurn,.answer _ =>
    match store.deleteConversation conversationId with
    | .error error => some (store,.delete (.failing conversationId (ofDbError error)))
    | .ok next =>
      some (next,.delete (if hadActiveTurn then .forgettingSession conversationId else .clearing conversationId))
  | .removing conversationId _,.fail error => some (store,.delete (.failing conversationId error))
  | .failing conversationId error,.answer _ =>
    some (store.withRuntime (store.runtime.clearDeleting conversationId),refuse error)
  | .clearing conversationId,.answer _ =>
    some (store.withRuntime (store.runtime.clearDeleting conversationId),.delete (.forgettingSession conversationId))
  | .forgettingSession _,.answer _ => some (store,.returned (.ok .deleted))
  | _,_ => none

end Delete

def arrive : Request → Progress
  | .sendMessage userId conversationId content hidden =>
    arriveTurn ⟨userId,conversationId,content,hidden,true⟩ "Message content must not be empty"
  | .runAgentTurn userId conversationId content =>
    arriveTurn ⟨userId,conversationId,content,false,false⟩ "Agent turn content must not be empty"
  | .cancel userId conversationId turnId => .cancel (.finding userId conversationId turnId)
  | .delete userId conversationId => .delete (.finding userId conversationId)
  | .shutDown => .shuttingDown

def advance (store : Store) (progress : Progress) (input : Input) : Option (Store × Progress) :=
  match progress,input with
  | .idle,.arrive request => some (store,arrive request)
  | .turn progress,input => serveTurn store progress input
  | .cancel progress,input => serveCancel store progress input
  | .delete progress,input => serveDelete store progress input
  | .shuttingDown,.answer _ =>
    some (store.withRuntime store.runtime.markShuttingDown,.returned (.ok .shutDown))
  | _,_ => none

-- Any tables, the service as it starts, no request made yet.
def start (conversations : KeyedMap String ConversationRow) (messages : Messages String) : System Store Progress :=
  ⟨⟨.fresh,conversations,messages,[]⟩,fun _ => .idle⟩

end AlineaCopilot.ConversationRequests
