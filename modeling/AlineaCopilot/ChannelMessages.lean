import AlineaCopilot.ChannelRelays
import AlineaCopilot.KeyedMaps
import AlineaCopilot.RustPanics
import AlineaCopilot.RustText
open AlineaCopilot.ChannelRelays AlineaCopilot.KeyedMaps AlineaCopilot.RustPanics AlineaCopilot.RustText

namespace AlineaCopilot.ChannelMessages

inductive MessageContentType where
  | text
  | photo
  | document
  | voice
  | audio
  | video
  | sticker
  | action
  | command
deriving DecidableEq, Repr

structure UnifiedAttachment where
  fileId : Option String
  fileName : Option String
  mimeType : Option String
  fileSize : Option UInt64
deriving DecidableEq

structure UnifiedUser where
  id : String
  username : Option String
  displayName : String
deriving DecidableEq

structure UnifiedMessageContent where
  contentType : MessageContentType
  text : String
  attachments : Option (List UnifiedAttachment)
deriving DecidableEq

inductive ActionCategory where
  | platform
  | system
  | chat
deriving DecidableEq, Repr

abbrev Params := KeyedMap String String

structure ActionContext where
  platform : PluginType
  userId : String
  chatId : String
  messageId : Option String

structure UnifiedAction where
  action : String
  category : ActionCategory
  params : Option Params
  context : ActionContext

structure UnifiedIncomingMessage where
  id : String
  platform : PluginType
  chatId : String
  user : UnifiedUser
  content : UnifiedMessageContent
  timestamp : Int64
  replyToMessageId : Option String
  action : Option UnifiedAction

section Callbacks

-- `splitn` and `split`.
def splitn (separator : Char) : Nat → List Char → List (List Char)
  | 0,_ => []
  | 1,text => [text]
  | n + 2,text =>
    match cut [separator] text with
    | some (before,after) => before :: splitn separator (n + 1) after
    | none => [text]

def split (separator : Char) : List Char → List (List Char)
  | [] => [[]]
  | c :: rest =>
    if c = separator then [] :: split separator rest
    else
      match split separator rest with
      | piece :: pieces => (c :: piece) :: pieces
      | [] => [[c]]

-- `k=v,k=v`, where a later value of a key replaces an earlier one.
def parseParams (text : List Char) : Option Params :=
  let map := (split ',' text).foldl (fun map pair =>
    match cut ['='] pair with
    | some (k,v) => map.insert (String.ofList k) (String.ofList v)
    | none => map) (∅ : Params)
  if map.entries.isEmpty then none else some map

def thirdPart (parts : List (List Char)) : Checked (Option Params) :=
  if parts.length = 3 then (index parts 2).bind fun text => pure (if text = [] then none else parseParams text)
  else pure none

-- `parse_lark_callback` and `parse_dingtalk_callback` are the same text.
def parseCallback (data : String) : Checked (Option (String × String × Option Params)) :=
  let parts := splitn ':' 3 data.toList
  if parts.length < 2 then pure none
  else do
    let category ← index parts 0
    let action ← index parts 1
    if String.ofList category ∈ ["platform","system","chat"] then
      let params ← thirdPart parts
      pure (some (String.ofList category,String.ofList action,params))
    else pure none

def categoryOf (category : String) : ActionCategory :=
  match category with
  | "platform" => .platform
  | "chat" => .chat
  | _ => .system

-- The tool confirmation a button carries, when it names a call.
def confirmation (action : String) (params : Option Params) : Option (String × String) :=
  match params with
  | some p =>
    let callId := (p.lookup "callId").getD ""
    if action = "system.confirm" ∧ callId ≠ "" then some (callId,(p.lookup "value").getD "") else none
  | none => none

theorem returns_thirdPart (parts : List (List Char)) : Returns (thirdPart parts) := by
  unfold thirdPart
  rw [returns_ite]
  refine ⟨fun three => ?_,fun _ => returns_pure⟩
  exact returns_bind_pure.mpr (returns_index.mpr (three ▸ Nat.lt_succ_self 2))

-- A category and an action, the category one of the three.
def isButton (data : String) : Bool :=
  let parts := splitn ':' 3 data.toList
  decide (2 ≤ parts.length) && (parts.head?.map String.ofList).any (["platform","system","chat"].contains ·)

theorem isButton_exact {data : String} {category action : List Char} {rest : List (List Char)}
    (parts : splitn ':' 3 data.toList = category :: action :: rest) :
    isButton data = true ↔ String.ofList category ∈ ["platform","system","chat"] := by
  simp [isButton,parts]

theorem parseCallback_exact (data : String) : ∃ parsed, parseCallback data = .ok parsed ∧ (parsed = none ↔ isButton data = false) := by
  unfold parseCallback
  match parts : splitn ':' 3 data.toList with
  | [] => exact ⟨none,rfl,by simp [isButton,parts]⟩
  | [only] => exact ⟨none,rfl,by simp [isButton,parts]⟩
  | category :: action :: rest =>
    have button := isButton_exact parts
    obtain ⟨params,third⟩ := returns_thirdPart (category :: action :: rest)
    by_cases known : String.ofList category ∈ ["platform","system","chat"]
    · refine ⟨some (String.ofList category,String.ofList action,params),?_,by simp [button.mpr known]⟩
      show (if String.ofList category ∈ ["platform","system","chat"] then _ else _) = _
      rw [if_pos known,third]
      rfl
    · refine ⟨none,?_,by simpa using fun found => known (button.mp found)⟩
      show (if String.ofList category ∈ ["platform","system","chat"] then _ else _) = _
      rw [if_neg known]
      rfl

end Callbacks

section Pipeline

-- `generate_id`: a UUID in its hyphenated form.
structure SessionId where
  text : String
  ascii : ∀ c ∈ text.toList, c.utf8Size = 1
  whole : text.toList.length = 36

-- The row's chat is the one it was looked up by.
structure AssistantSessionRow where
  id : SessionId
  agentType : String
  conversationId : Option String
  createdAt : Int64
  lastActivity : Int64

inductive ChannelError where
  | invalidConfig (message : String)
  | database (message : String)
  | messageSendFailed (message : String)
deriving DecidableEq, Repr

structure ResolvedAgentConfig where
  agentType : String
  backend : Option String
deriving DecidableEq, Repr

-- `now_ms`. The kernel's clock counts nanoseconds in a signed 64-bit number.
structure Clock where
  ms : Int64
  past : ms.toInt ≤ 2 ^ 63 / 10 ^ 6

def pairingCodeTtl : Int64 := 600000

-- What the calls a message leads to answer: those of the repository, of the
-- settings, of the random number generator and of the conversation service.
structure Answers where
  getUserByPlatform : Except ChannelError (Option String)
  expireUserPendingCodes : Except ChannelError Unit
  getrandom : Except ChannelError UInt32
  createPairing : Except ChannelError Unit
  isUserAuthorized : Except ChannelError Bool
  getAgentConfig : Except ChannelError ResolvedAgentConfig
  deleteSessionByUserChat : Except ChannelError Unit
  getOrCreateSession : Except ChannelError AssistantSessionRow
  updateAgentType : Except ChannelError Unit
  getSessionById : Except ChannelError (Option AssistantSessionRow)
  getBackendConfig : Except ChannelError ResolvedAgentConfig
  getModelConfig : Except ChannelError Unit
  create : Except ChannelError String
  warmup : Except ChannelError Unit

-- `?`
def andThen (x : Except ChannelError α) (f : α → Checked (Except ChannelError β)) : Checked (Except ChannelError β) :=
  match x with
  | .ok v => f v
  | .error e => pure (.error e)

theorem returns_andThen {x : Except ChannelError α} {f : α → Checked (Except ChannelError β)} :
    Returns (andThen x f) ↔ ∀ v, x = .ok v → Returns (f v) := by
  cases x with
  | ok v => exact ⟨fun returned w same => by cases same; exact returned,fun all => all v rfl⟩
  | error e =>
    refine iff_of_true returns_pure fun v same => ?_
    cases same

def digits (n : Nat) : String := String.ofList (Nat.toDigits 10 n)

def generatePairingCode (bytes : UInt32) : String :=
  let num := digits (bytes.toNat % 10 ^ 6)
  String.ofList (List.replicate (6 - num.toList.length) '0') ++ num

def requestPairing (clock : Clock) (answers : Answers) : Checked (Except ChannelError String) :=
  andThen answers.expireUserPendingCodes fun _ =>
  andThen answers.getrandom fun bytes =>
  let code := generatePairingCode bytes
  (addI64 clock.ms pairingCodeTtl).bind fun _ =>
  andThen answers.createPairing fun _ => pure (.ok code)

-- The text of a response; nothing below reads its buttons or its toast.
structure ActionResponse where
  text : Option String
deriving DecidableEq, Repr

def pairingResponse (code : String) : ActionResponse :=
  ⟨some ("Welcome! To use this bot, you need authorization.\n\nYour pairing code: *" ++ code ++
    "*\n\nShare this code with the admin, who can approve it in Settings → Channel → Pairing Requests.\nThe code expires in 10 minutes.")⟩

def unknownActionResponse (action : String) : ActionResponse := ⟨some ("Unknown action: " ++ action)⟩

section Executor
variable (clock : Clock) (answers : Answers) (action : UnifiedAction)

def handlePlatformAction : Checked (Except ChannelError ActionResponse) :=
  match action.action with
  | "pairing.show" | "pairing.refresh" => do
    match ← requestPairing clock answers with
    | .ok code => pure (.ok (pairingResponse code))
    | .error e => pure (.error e)
  | "pairing.check" =>
    andThen answers.isUserAuthorized fun authorized =>
    pure (.ok ⟨some (if authorized then "You are authorized! Send a message to start chatting."
      else "Still waiting for approval. Ask the admin to check Settings → Channel.")⟩)
  | "pairing.help" =>
    pure (.ok ⟨some "To use this bot, you need authorization:\n1. Send any message to get a 6-digit pairing code\n2. Share this code with the admin\n3. Admin approves in Settings → Channel\n4. You're ready to chat!"⟩)
  | other => pure (.ok (unknownActionResponse other))

def handleSystemAction : Checked (Except ChannelError ActionResponse) :=
  match action.action with
  | "session.new" =>
    andThen answers.getAgentConfig fun _ =>
    andThen answers.deleteSessionByUserChat fun _ =>
    andThen answers.getOrCreateSession fun session => do
      let short ← sliceTo session.id.text 8
      pure (.ok ⟨some ("New session created.\nAgent: " ++ session.agentType ++ "\nSession: " ++ short)⟩)
  | "session.status" =>
    andThen answers.getAgentConfig fun _ =>
    andThen answers.getOrCreateSession fun session => do
      let short ← sliceTo session.id.text 8
      pure (.ok ⟨some ("Session: " ++ short ++ "\nAgent: " ++ session.agentType ++ "\nCreated: " ++ toString session.createdAt.toInt ++
        "\nLast active: " ++ toString session.lastActivity.toInt)⟩)
  | "help.show" => pure (.ok ⟨some "How can I help?\nChoose an option below or just send me a message."⟩)
  | "help.features" =>
    pure (.ok ⟨some "Features:\n• AI chat with multiple backends\n• Tool execution with auto-approval\n• Session isolation per chat\n• Agent switching"⟩)
  | "help.pairing" => pure (.ok ⟨some "Pairing:\nSend any message → get a 6-digit code → admin approves → you're in!"⟩)
  | "help.tips" =>
    pure (.ok ⟨some "Tips:\n• Start a new session to clear context\n• Use /help to see available commands\n• In group chats, @mention the bot"⟩)
  | "settings.show" =>
    pure (.ok ⟨some "Settings are managed in the desktop app.\nGo to Settings → Channel to configure plugins and manage users."⟩)
  | "agent.show" => pure (.ok ⟨some "Available agents:"⟩)
  | "agent.select" =>
    let agentType := ((action.params.bind (·.lookup "agentType"))).getD "acp"
    andThen answers.getOrCreateSession fun _ =>
    andThen answers.updateAgentType fun _ => pure (.ok ⟨some ("Agent switched to: " ++ agentType)⟩)
  | other => pure (.ok (unknownActionResponse other))

def handleChatAction : Checked (Except ChannelError ActionResponse) :=
  if action.action ∈ ["chat.send","chat.regenerate","chat.continue","action.copy","system.confirm"] then pure (.ok ⟨none⟩)
  else pure (.ok (unknownActionResponse action.action))

def routeAction : Checked (Except ChannelError ActionResponse) :=
  match action.category with
  | .platform => handlePlatformAction clock answers action
  | .system => handleSystemAction answers action
  | .chat => handleChatAction action

end Executor

inductive MessageResult where
  | action (response : ActionResponse)
  | dispatched (session : AssistantSessionRow)

section Delivery
variable (clock : Clock) (answers : Answers) (msg : UnifiedIncomingMessage)

def handleIncomingMessage : Checked (Except ChannelError MessageResult) :=
  andThen answers.getUserByPlatform fun user =>
  match user with
  | none => do
    match ← requestPairing clock answers with
    | .ok code => pure (.ok (.action (pairingResponse code)))
    | .error e => pure (.error e)
  | some _ =>
    match msg.action with
    | some action => do
      match ← routeAction clock answers action with
      | .ok response => pure (.ok (.action response))
      | .error e => pure (.error e)
    | none =>
      andThen answers.getAgentConfig fun _ =>
      andThen answers.getOrCreateSession fun session => pure (.ok (.dispatched session))

def shortName : PluginType → String
  | .telegram => "tg"
  | .lark => "lark"
  | .dingtalk => "ding"
  | .weixin => "wx"
  | .slack => "slack"
  | .discord => "discord"

def channelConversationName (platform : PluginType) (agentType : String) (backend : Option String) (chatId : String) : Checked String := do
  let agent := if agentType = "" then [] else [agentType]
  let acp := if agentType = "acp" then backend.toList else []
  let chat ← sliceTo chatId (min (byteLen chatId.toList) 8)
  pure (String.intercalate "-" ([shortName platform] ++ agent ++ acp ++ [chat]))

-- `parse_agent_type`: an unknown type is taken for ACP, and a runtime that is gone
-- is refused.
def deprecatedRuntime (agentType : String) : Bool := ["gemini","openclaw-gateway","nanobot","remote"].contains agentType

def createConversationForSession (session : AssistantSessionRow) : Checked (Except ChannelError String) :=
  if deprecatedRuntime session.agentType then pure (.error (.invalidConfig "This agent type is no longer supported for new conversations."))
  else
    andThen answers.getBackendConfig fun config =>
    andThen answers.getModelConfig fun _ =>
    (channelConversationName msg.platform session.agentType config.backend msg.chatId).bind fun _ =>
    pure answers.create

def sendToAgent (session : AssistantSessionRow) : Checked (Except ChannelError String) := do
  let conversation ← match session.conversationId with
    | some conversation => pure (.ok conversation)
    | none => createConversationForSession answers msg session
  andThen conversation fun conversation => andThen answers.warmup fun _ => pure (.ok conversation)

-- What became of a message when the pipeline is through with it: the text to send
-- back, or the conversation whose agent is called.
inductive Delivery where
  | answered (text : Option String)
  | lost
  | failed (error : ChannelError)
  | toAgent (conversation : String)

def handleDispatched : Checked Delivery :=
  match answers.getSessionById with
  | .ok (some session) => do
    match ← sendToAgent answers msg session with
    | .ok conversation => pure (.toAgent conversation)
    | .error e => pure (.failed e)
  | .ok none => pure .lost
  | .error e => pure (.failed e)

def handleMessage : Checked Delivery := do
  match ← handleIncomingMessage clock answers msg with
  | .ok (.action response) => pure (.answered response.text)
  | .ok (.dispatched _) => handleDispatched answers msg
  | .error e => pure (.failed e)

end Delivery

section Returning
variable {clock : Clock} {answers : Answers} {msg : UnifiedIncomingMessage}

theorem returns_requestPairing (clock : Clock) (answers : Answers) : Returns (requestPairing clock answers) := by
  have fits : Returns (addI64 clock.ms pairingCodeTtl) := by
    have low := clock.ms.le_toInt
    have high := clock.past
    have ttl : pairingCodeTtl.toInt = 600000 := rfl
    rw [returns_addI64,ttl]
    omega
  unfold requestPairing
  refine returns_andThen.mpr fun _ _ => returns_andThen.mpr fun bytes _ => ?_
  obtain ⟨expires,sum⟩ := fits
  rw [sum]
  exact returns_andThen.mpr fun _ _ => returns_pure

-- A generated id has its first eight characters.
theorem returns_short (id : SessionId) : Returns (sliceTo id.text 8) := by
  refine returns_sliceTo.mpr (isCharBoundary_ascii id.ascii ?_)
  rw [id.whole]
  decide

theorem returns_handlePlatformAction (clock : Clock) (answers : Answers) (action : UnifiedAction) :
    Returns (handlePlatformAction clock answers action) := by
  unfold handlePlatformAction
  split
  · exact (returns_then fun reply _ => iff_of_true (by cases reply <;> exact returns_pure) trivial).mpr
      ⟨returns_requestPairing clock answers,trivial⟩
  · exact (returns_then fun reply _ => iff_of_true (by cases reply <;> exact returns_pure) trivial).mpr
      ⟨returns_requestPairing clock answers,trivial⟩
  · exact returns_andThen.mpr fun _ _ => returns_pure
  · exact returns_pure
  · exact returns_pure

theorem returns_handleSystemAction (answers : Answers) (action : UnifiedAction) : Returns (handleSystemAction answers action) := by
  unfold handleSystemAction
  split
  · refine returns_andThen.mpr fun _ _ => returns_andThen.mpr fun _ _ => returns_andThen.mpr fun session _ => ?_
    exact returns_bind_pure.mpr (returns_short session.id)
  · refine returns_andThen.mpr fun _ _ => returns_andThen.mpr fun session _ => ?_
    exact returns_bind_pure.mpr (returns_short session.id)
  case h_9 => exact returns_andThen.mpr fun _ _ => returns_andThen.mpr fun _ _ => returns_pure
  all_goals exact returns_pure

theorem returns_routeAction (clock : Clock) (answers : Answers) (action : UnifiedAction) : Returns (routeAction clock answers action) := by
  unfold routeAction
  split
  · exact returns_handlePlatformAction clock answers action
  · exact returns_handleSystemAction answers action
  · exact returns_ite.mpr ⟨fun _ => returns_pure,fun _ => returns_pure⟩

-- The user is paired and has a session.
def Answers.dispatches (answers : Answers) : Prop :=
  (∃ user, answers.getUserByPlatform = .ok (some user)) ∧ (∃ config, answers.getAgentConfig = .ok config) ∧
    ∃ session, answers.getOrCreateSession = .ok session

-- The session is still there, has no conversation and gets one.
def Answers.names (answers : Answers) : Prop :=
  ∃ session, answers.getSessionById = .ok (some session) ∧ session.conversationId = none ∧ deprecatedRuntime session.agentType = false ∧
    (∃ config, answers.getBackendConfig = .ok config) ∧ answers.getModelConfig = .ok ()

-- Where a conversation is named after the chat, the first bytes of the chat's id
-- are whole characters.
def Nameable (answers : Answers) (chatId : String) : Prop :=
  answers.dispatches → answers.names → isCharBoundary chatId (min (byteLen chatId.toList) 8) = true

theorem handleIncomingMessage_exact (clock : Clock) (answers : Answers) (msg : UnifiedIncomingMessage) :
    ∃ result, handleIncomingMessage clock answers msg = .ok result ∧ 
      ((∃ session, result = .ok (.dispatched session)) ↔ msg.action = none ∧ answers.dispatches) := by
  unfold handleIncomingMessage Answers.dispatches
  cases user : answers.getUserByPlatform with
  | error e => exact ⟨.error e,rfl,by simp⟩
  | ok known =>
    cases known with
    | none =>
      obtain ⟨reply,paired⟩ := returns_requestPairing clock answers
      simp only [andThen,paired]
      cases reply with
      | ok code => exact ⟨_,rfl,by simp⟩
      | error e => exact ⟨_,rfl,by simp⟩
    | some user =>
      cases button : msg.action with
      | some action =>
        obtain ⟨reply,routed⟩ := returns_routeAction clock answers action
        simp only [andThen,routed]
        cases reply with
        | ok response => exact ⟨_,rfl,by simp⟩
        | error e => exact ⟨_,rfl,by simp⟩
      | none =>
        simp only [andThen]
        cases config : answers.getAgentConfig with
        | error e => exact ⟨_,rfl,by simp⟩
        | ok config =>
          cases session : answers.getOrCreateSession with
          | error e => exact ⟨_,rfl,by simp⟩
          | ok session => exact ⟨_,rfl,by simp⟩

theorem returns_channelConversationName {platform : PluginType} {agentType : String} {backend : Option String} {chatId : String} :
    Returns (channelConversationName platform agentType backend chatId) ↔ isCharBoundary chatId (min (byteLen chatId.toList) 8) = true := by
  unfold channelConversationName
  rw [returns_bind_pure,returns_sliceTo]

theorem returns_createConversationForSession {session : AssistantSessionRow} :
    Returns (createConversationForSession answers msg session) ↔
      (deprecatedRuntime session.agentType = false → (∃ config, answers.getBackendConfig = .ok config) → answers.getModelConfig = .ok () →
        isCharBoundary msg.chatId (min (byteLen msg.chatId.toList) 8) = true) := by
  unfold createConversationForSession
  rw [returns_ite]
  constructor
  · intro ⟨_,returned⟩ current ⟨config,backend⟩ model
    have named := returns_andThen.mp (returns_andThen.mp (returned (by rw [current]; exact Bool.false_ne_true)) config backend) () model
    obtain ⟨name,cut,_⟩ := returns_bind.mp named
    exact returns_channelConversationName.mp ⟨name,cut⟩
  · intro boundary
    refine ⟨fun _ => returns_pure,fun current => ?_⟩
    refine returns_andThen.mpr fun config backend => returns_andThen.mpr fun _ model => ?_
    have named := boundary (Bool.eq_false_of_not_eq_true current) ⟨config,backend⟩ model
    obtain ⟨name,cut⟩ := returns_channelConversationName.mpr named
    exact returns_bind.mpr ⟨name,cut,returns_pure⟩

theorem returns_sendToAgent {session : AssistantSessionRow} :
    Returns (sendToAgent answers msg session) ↔ (session.conversationId = none → Returns (createConversationForSession answers msg session)) := by
  unfold sendToAgent
  cases bound : session.conversationId with
  | some conversation =>
    refine iff_of_true ?_ fun none_ => ?_
    · exact returns_andThen.mpr fun _ _ => returns_pure
    · cases none_
  | none =>
    refine Iff.trans (returns_then fun made _ => iff_of_true ?_ trivial) ?_
    · exact returns_andThen.mpr fun _ _ => returns_andThen.mpr fun _ _ => returns_pure
    · exact ⟨fun returned _ => returned.1,fun returned => ⟨returned rfl,trivial⟩⟩

-- The pipeline comes through unless the name it makes up for a conversation cuts
-- the chat's id within a character.
theorem returns_handleMessage : Returns (handleMessage clock answers msg) ↔ (msg.action = none → Nameable answers msg.chatId) := by
  obtain ⟨result,handled,dispatched⟩ := handleIncomingMessage_exact clock answers msg
  unfold handleMessage
  rw [handled,returns_bind]
  have goes : Returns (handleDispatched answers msg) ↔ (answers.names → isCharBoundary msg.chatId (min (byteLen msg.chatId.toList) 8) = true) := by
    unfold handleDispatched Answers.names
    cases found : answers.getSessionById with
    | error e => exact iff_of_true returns_pure fun ⟨_,same,_⟩ => by cases same
    | ok row =>
      cases row with
      | none => exact iff_of_true returns_pure fun ⟨_,same,_⟩ => by cases same
      | some session =>
        have sent := returns_then (x := sendToAgent answers msg session)
          (f := fun r => match r with | .ok conversation => pure (Delivery.toAgent conversation) | .error e => pure (.failed e)) (q := True)
          fun reply _ => iff_of_true (by cases reply <;> exact returns_pure) trivial
        refine sent.trans ?_
        rw [returns_sendToAgent,returns_createConversationForSession]
        constructor
        · intro ⟨boundary,_⟩ ⟨session',same,none_,current,backend,model⟩
          cases same
          exact boundary none_ current backend model
        · exact fun boundary => ⟨fun none_ current backend model => boundary ⟨session,rfl,none_,current,backend,model⟩,trivial⟩
  constructor
  · intro ⟨result',same,returned⟩ text dispatches
    cases same
    obtain ⟨session,rfl⟩ := dispatched.mpr ⟨text,dispatches⟩
    exact goes.mp returned
  · intro boundary
    refine ⟨result,rfl,?_⟩
    cases result with
    | error e => exact returns_pure
    | ok result =>
      cases result with
      | action response => exact returns_pure
      | dispatched session =>
        obtain ⟨text,dispatches⟩ := dispatched.mp ⟨session,rfl⟩
        exact goes.mpr (boundary text dispatches)

end Returning

end Pipeline

end AlineaCopilot.ChannelMessages
