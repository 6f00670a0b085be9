import AlineaCopilot.KeyedMaps
import AlineaCopilot.TransitionRuns
open AlineaCopilot.KeyedMaps AlineaCopilot.TransitionRuns

namespace AlineaCopilot.ChannelSessions

structure AssistantSessionRow where
  id : String
  userId : String
  agentType : String
  conversationId : Option String
  workspace : Option String
  chatId : Option String
  createdAt : Nat
  lastActivity : Nat
deriving DecidableEq, Repr

section Table
variable (sessions : List AssistantSessionRow)

-- The statements of the repository, in the order in which rows were inserted.
def selectSession (userId chatId : String) : Option AssistantSessionRow :=
  sessions.find? fun row => row.userId = userId ∧ row.chatId = some chatId

def getSession (id : String) : Option AssistantSessionRow := sessions.find? (·.id = id)

def updateWhere (id : String) (change : AssistantSessionRow → AssistantSessionRow) : List AssistantSessionRow :=
  sessions.map fun row => if row.id = id then change row else row

def updateSessionActivity (id : String) (now : Nat) : List AssistantSessionRow :=
  updateWhere sessions id ({ · with lastActivity := now })

def updateSessionConversation (id conversationId : String) (now : Nat) : List AssistantSessionRow :=
  updateWhere sessions id ({ · with conversationId := some conversationId, lastActivity := now })

def updateSessionAgentType (id agentType : String) (now : Nat) : List AssistantSessionRow :=
  updateWhere sessions id ({ · with agentType := agentType, lastActivity := now })

def deleteSessionsByUser (userId : String) : List AssistantSessionRow := sessions.filter (·.userId ≠ userId)

def deleteSessionByUserChat (userId chatId : String) : List AssistantSessionRow :=
  sessions.filter fun row => ¬(row.userId = userId ∧ row.chatId = some chatId)

-- Every user once, in the order of the snapshot.
def usersOf : List String := (sessions.map (·.userId)).dedup

end Table

def newRow (id userId chatId agentType : String) (now : Nat) : AssistantSessionRow :=
  ⟨id,userId,agentType,none,none,some chatId,now,now⟩

inductive Request where
  | text (content : String)
  | sessionNew
  | sessionStatus
  | agentSelect (agentType : String)
deriving DecidableEq, Repr

-- What a handler does next. The conversation beside a session is the one the
-- look-up of the session returned; it decides whether the handler binds.
inductive Phase where
  | resetting
  | looking
  | touching (row : AssistantSessionRow)
  | inserting
  | switching (session : String)
  | dispatched (session : String) (conversation : Option String)
  | sending (conversation : Option String) (session : AssistantSessionRow)
  | warming (conversation : Option String) (session target : String)
  | posting (conversation : Option String) (session target : String)
  | binding (session target : String)
deriving DecidableEq, Repr

structure Handler where
  userId : String
  chatId : String
  request : Request
  phase : Phase
deriving DecidableEq, Repr

inductive Task where
  | handles (handler : Handler)
  | clears (users : List String)
deriving DecidableEq, Repr

structure Message where
  handler : Nat
  session : String
  userId : String
  chatId : String
  content : String
deriving DecidableEq, Repr

structure World where
  sessions : List AssistantSessionRow
  tasks : KeyedMap Nat Task
  next : Nat
  -- The conversations created for channel sessions, with their session.
  conversations : KeyedMap String String
  -- Every session ever inserted with its user and chat; the text messages
  -- dispatched; the ones sent, with their conversation; the bindings made.
  owners : KeyedMap String (String × Option String)
  dispatches : List Message
  sent : List (Message × String)
  bound : List (String × String)

def start : World := ⟨[],∅,0,∅,∅,[],[],[]⟩

section Tasks
variable (w : World) (i : Nat)

def World.spawns (task : Task) : World := { w with tasks := w.tasks.insert w.next task, next := w.next + 1 }

def World.moves (h : Handler) (phase : Phase) : World :=
  { w with tasks := w.tasks.insert i (.handles { h with phase := phase }) }

def World.ends : World := { w with tasks := w.tasks.erase i }

-- What a handler does with the session it has looked up or inserted.
def World.resolves (h : Handler) (session : AssistantSessionRow) : World :=
  match h.request with
  | .text content =>
    { w.moves i h (.dispatched session.id session.conversationId) with
      dispatches := ⟨i,session.id,h.userId,h.chatId,content⟩ :: w.dispatches }
  | .agentSelect _ => w.moves i h (.switching session.id)
  | .sessionNew | .sessionStatus => w.ends i

def World.posts (h : Handler) (session target : String) : World :=
  match h.request with
  | .text content => { w with sent := (⟨i,session,h.userId,h.chatId,content⟩,target) :: w.sent }
  | _ => w

end Tasks

inductive Event where
  | arrive (userId chatId : String) (request : Request)
  | clear
  -- The next call of a task succeeds, or it fails.
  | proceed (i now : Nat)
  | insert (i : Nat) (id agentType : String) (now : Nat)
  | create (i : Nat) (id : String)
  | fail (i : Nat)

def Handler.proceeds (w : World) (i : Nat) (h : Handler) (now : Nat) : Option World :=
  match h.phase with
  | .resetting =>
    some { w.moves i h .looking with sessions := deleteSessionByUserChat w.sessions h.userId h.chatId }
  | .looking =>
    match selectSession w.sessions h.userId h.chatId with
    | some row => some (w.moves i h (.touching row))
    | none => some (w.moves i h .inserting)
  | .touching row =>
    let w := { w with sessions := updateSessionActivity w.sessions row.id now }
    some (w.resolves i h { row with lastActivity := now })
  | .switching session =>
    match h.request with
    | .agentSelect agentType => some { w.ends i with sessions := updateSessionAgentType w.sessions session agentType now }
    | _ => none
  | .dispatched session conversation =>
    match getSession w.sessions session with
    | some row => some (w.moves i h (.sending conversation row))
    | none => some (w.ends i)
  | .sending conversation session =>
    match session.conversationId with
    | some target => some (w.moves i h (.warming conversation session.id target))
    | none => none
  | .warming conversation session target => some (w.moves i h (.posting conversation session target))
  | .posting conversation session target =>
    let w := w.posts i h session target
    match conversation with
    | none => some (w.moves i h (.binding session target))
    | some _ => some (w.ends i)
  | .binding session target =>
    -- The error of a session that is gone is only logged.
    match getSession w.sessions session with
    | some _ => some { w.ends i with
        sessions := updateSessionConversation w.sessions session target now
        bound := (session,target) :: w.bound }
    | none => some (w.ends i)
  | .inserting => none

def step (w : World) : Event → Option World
  | .arrive userId chatId request =>
    let phase := match request with
      | .sessionNew => .resetting
      | _ => .looking
    some (w.spawns (.handles ⟨userId,chatId,request,phase⟩))
  | .clear => some (w.spawns (.clears (usersOf w.sessions)))
  | .proceed i now =>
    match w.tasks.lookup i with
    | some (.handles h) => h.proceeds w i now
    | some (.clears (user :: rest)) =>
      some { w with sessions := deleteSessionsByUser w.sessions user, tasks := w.tasks.insert i (.clears rest) }
    | some (.clears []) => some (w.ends i)
    | none => none
  -- The id is drawn before the look-up, but nothing sees it before the row is there.
  | .insert i id configured now =>
    match w.tasks.lookup i with
    | some (.handles h) =>
      if h.phase = .inserting ∧ (w.owners.lookup id).isNone then
        let agentType := match h.request with
          | .agentSelect agentType => agentType
          | _ => configured
        let row := newRow id h.userId h.chatId agentType now
        let w := { w with sessions := w.sessions ++ [row], owners := w.owners.insert id (row.userId,row.chatId) }
        some (w.resolves i h row)
      else none
    | _ => none
  | .create i id =>
    match w.tasks.lookup i with
    | some (.handles h) =>
      match h.phase with
      | .sending conversation session =>
        if session.conversationId = none ∧ (w.conversations.lookup id).isNone then
          some { w.moves i h (.warming conversation session.id id) with
            conversations := w.conversations.insert id session.id }
        else none
      | _ => none
    | _ => none
  | .fail i => if (w.tasks.lookup i).isSome then some (w.ends i) else none

end AlineaCopilot.ChannelSessions
