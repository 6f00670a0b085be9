import AlineaCopilot.ChannelMessages
open AlineaCopilot.ChannelMessages AlineaCopilot.ChannelRelays AlineaCopilot.KeyedMaps AlineaCopilot.RustPanics AlineaCopilot.RustText

namespace AlineaCopilot.ChannelPlatforms

section Wire

-- `serde_json::Value`
inductive Value where
  | null
  | bool (b : Bool)
  | number (text : String)
  | string (text : String)
  | array (items : List Value)
  | object (fields : List (String × Value))

def Value.get (v : Value) (key : String) : Option Value :=
  match v with
  | .object fields => (fields.find? (·.1 = key)).map (·.2)
  | _ => none

def Value.asStr : Value → Option String
  | .string text => some text
  | _ => none

structure StreamFrame where
  frameType : String
  messageId : Option String
  topic : Option String
  data : Option String

structure StreamAck where
  code : Int64
  contentType : String
  messageId : String
  message : String
  data : String

structure BotMessageCallback where
  conversationId : Option String
  msgId : Option String
  msgtype : Option String
  text : Option (Option String)
  senderId : Option String
  senderNick : Option String
  senderStaffId : Option String
  conversationType : Option String
  createAt : Option Int64

structure CardActionCallback where
  userId : Option String
  openConversationId : Option String
  content : Option String

structure PbFrame where
  seqId : UInt64
  logId : UInt64
  service : Int32
  method : Int32
  headers : List (String × String)
  payload : List UInt8
  logIdNew : String

structure MessageEvent where
  openId : String
  messageId : String
  chatId : String
  messageType : String
  content : String
  parentId : Option String
  createTime : Option String
  mentions : Option (List String)

structure CardActionEvent where
  operator : String
  value : Option Value
  openMessageId : Option String
  openChatId : Option String

structure BotMenuEvent where
  openId : String
  eventKey : String

structure FileContent where
  fileKey : String
  fileName : Option String

structure TgUser where
  id : Int64
  firstName : String
  lastName : Option String
  username : Option String

structure TgPhotoSize where
  fileId : String
  width : Int32
  height : Int32
  fileSize : Option UInt64

-- A document, a voice message, an audio or a video.
structure TgMedia where
  fileId : String
  fileName : Option String
  mimeType : Option String
  fileSize : Option UInt64

structure TgSticker where
  fileId : String
  emoji : Option String

-- Of the message replied to only the id is read.
structure TgMessage where
  messageId : Int64
  fromUser : Option TgUser
  chat : Int64
  date : Int64
  text : Option String
  caption : Option String
  photo : Option (List TgPhotoSize)
  document : Option TgMedia
  voice : Option TgMedia
  audio : Option TgMedia
  video : Option TgMedia
  sticker : Option TgSticker
  replyToMessage : Option Int64

structure TgCallbackQuery where
  id : String
  fromUser : TgUser
  -- The id of the message and of its chat.
  message : Option (Int64 × Int64)
  data : Option String

structure TgUpdate where
  updateId : Int64
  message : Option TgMessage
  callbackQuery : Option TgCallbackQuery

structure WeixinRawItem where
  itemType : Option Int32
  textItem : Option (Option String)
  voiceItem : Option (Option String)

structure WeixinRawMessage where
  fromUserId : Option String
  contextToken : Option String
  msgId : Option String
  itemList : Option (List WeixinRawItem)

-- What `serde_json` and `prost` make of a text or of bytes. The Telegram and the
-- Weixin pollers hand over what has been read already.
structure Decoders where
  streamFrame : String → Option StreamFrame
  botMessage : String → Option BotMessageCallback
  cardActionCallback : String → Option CardActionCallback
  value : String → Option Value
  pbFrame : List UInt8 → Option PbFrame
  pingInterval : List UInt8 → Option UInt64
  messageEvent : Value → Option MessageEvent
  cardActionEvent : Value → Option CardActionEvent
  botMenuEvent : Value → Option BotMenuEvent
  textContent : String → Option String
  imageContent : String → Option String
  fileContent : String → Option FileContent
  audioContent : String → Option String

-- What a handler passes on: a tool confirmation and a message.
structure Handled where
  confirm : Option (String × String)
  message : Option UnifiedIncomingMessage

def nothing : Handled := ⟨none,none⟩

end Wire

section Parsing

-- The digits of an unsigned number; a sign has been taken off.
def parseDigits (text : List Char) : Option Nat :=
  if text = [] ∨ ¬text.all Char.isDigit then none
  else some (text.foldl (fun n c => n * 10 + (c.toNat - '0'.toNat)) 0)

-- `str::parse::<usize>`
def parseUsize (text : String) : Option UInt64 :=
  let unsigned := match text.toList with
    | '+' :: rest => rest
    | other => other
  (parseDigits unsigned).bind fun n => if n < 2 ^ 64 then some (UInt64.ofNat n) else none

-- `str::parse::<i64>`
def parseI64 (text : String) : Option Int64 :=
  let value : Option Int := match text.toList with
    | '-' :: rest => (parseDigits rest).map fun n => -(n : Int)
    | '+' :: rest => (parseDigits rest).map fun n => (n : Int)
    | other => (parseDigits other).map fun n => (n : Int)
  value.bind fun n => if -2 ^ 63 ≤ n ∧ n < 2 ^ 63 then some (Int64.ofInt n) else none

-- `String::from_utf8`
def fromUtf8 (bytes : List UInt8) : Option String := (go bytes.length bytes).map String.ofList
where
  go : Nat → List UInt8 → Option (List Char)
    | _,[] => some []
    | 0,_ :: _ => none
    | fuel + 1,first :: rest =>
      match utf8Lead first.toNat with
      | none => none
      | some (more,low,high,value) =>
        match utf8Tail more low high value rest with
        | (some c,used) => (go fuel (rest.drop used)).map (Char.ofNat c :: ·)
        | (none,_) => none

-- `text.replace(pattern, "")`
def removeAll (pattern text : List Char) : List Char := if pattern = [] then text else go text.length text
where
  go : Nat → List Char → List Char
    | 0,text => text
    | fuel + 1,text =>
      match cut pattern text with
      | some (before,after) => before ++ go fuel after
      | none => text

def startsWithSlash (text : String) : Bool := text.toList.head? = some '/'

def textOrCommand (text : String) : MessageContentType := if startsWithSlash text then .command else .text

-- `map(|ms| ms / 1000).unwrap_or_else(chrono_now)`
def seconds (now : Int64) : Option Int64 → Checked Int64
  | some ms => divI64 ms 1000
  | none => pure now

end Parsing

section Dingtalk
variable (decoders : Decoders) (now : Int64)

def buildAck (messageId : String) : StreamAck := ⟨200,"application/json",messageId,"OK","\x7b\"response\":\"SUCCESS\"\x7d"⟩

def extractDingtalkContent (msgtype : String) (cb : BotMessageCallback) : MessageContentType × String :=
  match msgtype with
  | "text" =>
    let text := (cb.text.bind fun content => content).getD ""
    (textOrCommand text,text)
  | "picture" => (.photo,"[Picture]")
  | "file" => (.document,"[File]")
  | "audio" => (.audio,"[Audio]")
  | "video" => (.video,"[Video]")
  | other => (.text,"[Unsupported message type: " ++ other ++ "]")

def encodeChatId (conversationType conversationId : Option String) (senderStaffId : String) : String :=
  match conversationType with
  | some "2" => "group:" ++ conversationId.getD ""
  | _ => "user:" ++ senderStaffId

def BotMessageCallback.sender (cb : BotMessageCallback) : String := (cb.senderStaffId.or cb.senderId).getD "unknown"

def BotMessageCallback.chatId (cb : BotMessageCallback) : String := encodeChatId cb.conversationType cb.conversationId cb.sender

-- The log entry of a callback that cannot be read shows the first bytes of it.
def handleBotMessage (data : String) : Checked (Option UnifiedIncomingMessage) :=
  match decoders.botMessage data with
  | none => do
    let _ ← sliceTo data (min (byteLen data.toList) 200)
    pure none
  | some cb => do
    let content := extractDingtalkContent (cb.msgtype.getD "text") cb
    let timestamp ← seconds now cb.createAt
    pure (some ⟨cb.msgId.getD "",.dingtalk,cb.chatId,⟨cb.sender,none,cb.senderNick.getD ""⟩,⟨content.1,content.2,none⟩,timestamp,none,none⟩)

def CardActionCallback.actionStr (cb : CardActionCallback) : String :=
  (((cb.content.bind decoders.value).bind (·.get "action")).bind Value.asStr).getD ""

def CardActionCallback.chatId (cb : CardActionCallback) : String :=
  match cb.openConversationId with
  | some cid => if cid ≠ "" then "group:" ++ cid else "user:" ++ cb.userId.getD ""
  | none => "user:" ++ cb.userId.getD ""

def handleDingtalkCardAction (data : String) : Checked Handled :=
  match decoders.cardActionCallback data with
  | none => pure nothing
  | some cb => do
    let parsed ← parseCallback (cb.actionStr decoders)
    let userId := cb.userId.getD ""
    let action := parsed.map fun (category,action,params) =>
      (⟨action,categoryOf category,params,⟨.dingtalk,userId,cb.chatId,none⟩⟩ : UnifiedAction)
    pure ⟨parsed.bind fun (_,action,params) => confirmation action params,
      some ⟨"card_" ++ toString now.toInt,.dingtalk,cb.chatId,⟨userId,none,userId⟩,⟨.action,cb.actionStr decoders,none⟩,now,none,action⟩⟩

def handleCallback (topic data : String) : Checked Handled :=
  if topic = "/v1.0/im/bot/messages/get" then (handleBotMessage decoders now data).bind fun message => pure ⟨none,message⟩
  else if topic = "/v1.0/card/instances/callback" then handleDingtalkCardAction decoders now data
  else pure nothing

def handleStreamFrame (text : String) : Checked (Option StreamAck × Handled) :=
  match decoders.streamFrame text with
  | none => pure (none,nothing)
  | some frame =>
    let messageId := frame.messageId.getD ""
    let topic := frame.topic.getD ""
    match frame.frameType with
    -- Any other system event is only logged.
    | "SYSTEM" =>
      if topic = "ping" then pure (some ⟨200,"application/json",messageId,"OK",frame.data.getD "\x7b\x7d"⟩,nothing)
      else pure (none,nothing)
    | "CALLBACK" => (handleCallback decoders now topic (frame.data.getD "")).bind fun handled => pure (some (buildAck messageId),handled)
    | "EVENT" => pure (some (buildAck messageId),nothing)
    | _ => pure (none,nothing)

end Dingtalk

section Lark

structure FragmentEntry where
  sum : UInt64
  fragments : List (Option (List UInt8))
  createdAt : Instant
  sized : fragments.length = sum.toNat

abbrev FragmentCache := KeyedMap String FragmentEntry

-- `size_of::<Option<Vec<u8>>>()`
def fragmentSize : Nat := 24

-- `vec![None; sum]`
def FragmentEntry.vacant (sum : UInt64) (now : Instant) : Checked FragmentEntry :=
  if sum.toNat * fragmentSize ≤ isizeMax then .ok ⟨sum,List.replicate sum.toNat none,now,List.length_replicate⟩ else .error .capacity

def FragmentEntry.put (entry : FragmentEntry) (seq : UInt64) (data : List UInt8) : Checked FragmentEntry :=
  if seq < entry.sum then
    if seq.toNat < entry.fragments.length then
      .ok { entry with fragments := entry.fragments.set seq.toNat (some data), sized := by rw [List.length_set,entry.sized] }
    else .error .index
  else .ok entry

def FragmentCache.entry (cache : FragmentCache) (now : Instant) (messageId : String) (sum : UInt64) : Checked FragmentEntry :=
  match cache.lookup messageId with
  | some entry => pure entry
  | none => FragmentEntry.vacant sum now

-- The entry as it is stored, or the bytes of a message that is complete.
def FragmentCache.store (cache : FragmentCache) (messageId : String) (entry : FragmentEntry) : Checked (FragmentCache × Option (List UInt8)) :=
  if entry.fragments.all Option.isSome then
    (entry.fragments.mapM unwrap).bind fun merged => pure (AList.erase messageId cache,some merged.flatten)
  else pure (AList.insert messageId entry cache,none)

def FragmentCache.push (cache : FragmentCache) (now : Instant) (messageId : String) (sum seq : UInt64) (data : List UInt8) :
    Checked (FragmentCache × Option (List UInt8)) :=
  (cache.entry now messageId sum).bind fun entry => (entry.put seq data).bind fun entry => cache.store messageId entry

-- `cleanup`: the entries younger than `ttl` seconds stay.
def FragmentCache.cleanup (cache : FragmentCache) (now : Instant) (ttl : Nat) : FragmentCache :=
  keep (fun entry => decide (now - entry.createdAt < ttl * 10 ^ 9)) cache

structure LarkSession where
  fragmentCache : FragmentCache
  dedupCache : KeyedMap String Instant
  pingDuration : UInt64
  pingDeadline : Instant

def getHeader (headers : List (String × String)) (key : String) : Option String := (headers.find? (·.1 = key)).map (·.2)

def PbFrame.messageId (frame : PbFrame) : String := (getHeader frame.headers "message_id").getD ""

def PbFrame.sum (frame : PbFrame) : UInt64 := ((getHeader frame.headers "sum").bind parseUsize).getD 1

def PbFrame.seq (frame : PbFrame) : UInt64 := ((getHeader frame.headers "seq").bind parseUsize).getD 0

def PbFrame.msgType (frame : PbFrame) : String := (getHeader frame.headers "type").getD ""

def buildAckFrame (original : PbFrame) : PbFrame :=
  let kept := original.headers.filter fun h => h.1 = "type" ∨ h.1 = "message_id" ∨ h.1 = "trace_id"
  ⟨original.seqId,original.logId,original.service,1,kept ++ [("biz_rt","0")],"\x7b\"code\":200\x7d".toUTF8.toList,original.logIdNew⟩

variable (decoders : Decoders) (now : Int64)

def handleControlFrame (frame : PbFrame) : Option UInt64 :=
  match frame.msgType with
  | "pong" => if frame.payload ≠ [] then decoders.pingInterval frame.payload else none
  | _ => none

def extractLarkContent (messageType content : String) (mentions : Option (List String)) :
    MessageContentType × String × Option (List UnifiedAttachment) :=
  match messageType with
  | "text" =>
    let text := (mentions.getD []).foldl (fun text key => trim (String.ofList (removeAll key.toList text.toList)))
      ((decoders.textContent content).getD "")
    (textOrCommand text,text,none)
  | "image" => (.photo,"",some [⟨some ((decoders.imageContent content).getD ""),none,some "image/jpeg",none⟩])
  | "file" =>
    let file := (decoders.fileContent content).getD ⟨"",none⟩
    (.document,"",some [⟨some file.fileKey,file.fileName,none,none⟩])
  | "audio" => (.audio,"",some [⟨some ((decoders.audioContent content).getD ""),none,some "audio/opus",none⟩])
  | other => (.text,"[Unsupported message type: " ++ other ++ "]",none)

def handleMessageEvent (data : Value) : Checked (Option UnifiedIncomingMessage) :=
  match decoders.messageEvent data with
  | none => pure none
  | some evt => do
    let content := extractLarkContent decoders evt.messageType evt.content evt.mentions
    let timestamp ← seconds now (evt.createTime.bind parseI64)
    pure (some ⟨evt.messageId,.lark,evt.chatId,⟨evt.openId,none,evt.openId⟩,⟨content.1,content.2.1,content.2.2⟩,timestamp,evt.parentId,none⟩)

def handleBotMenuEvent (data : Value) : Option UnifiedIncomingMessage :=
  (decoders.botMenuEvent data).map fun evt =>
    ⟨"menu_" ++ toString now.toInt,.lark,evt.openId,⟨evt.openId,none,evt.openId⟩,⟨.command,"/" ++ evt.eventKey,none⟩,now,none,none⟩

def CardActionEvent.actionStr (evt : CardActionEvent) : String := ((evt.value.bind (·.get "action")).bind Value.asStr).getD ""

def handleLarkCardAction (data : Value) : Checked Handled :=
  match decoders.cardActionEvent data with
  | none => pure nothing
  | some evt => do
    let parsed ← parseCallback evt.actionStr
    let chatId := evt.openChatId.getD ""
    let action := parsed.map fun (category,action,params) =>
      (⟨action,categoryOf category,params,⟨.lark,evt.operator,chatId,evt.openMessageId⟩⟩ : UnifiedAction)
    pure ⟨parsed.bind fun (_,action,params) => confirmation action params,
      some ⟨"card_" ++ toString now.toInt,.lark,chatId,⟨evt.operator,none,evt.operator⟩,⟨.action,evt.actionStr,none⟩,now,none,action⟩⟩

def Value.header (envelope : Value) (key : String) : Option String := ((envelope.get "header").bind (·.get key)).bind Value.asStr

def seen (dedup : KeyedMap String Instant) (envelope : Value) : Bool :=
  match envelope.header "event_id" with
  | some eid => (dedup.lookup eid).isSome
  | none => false

def handleWsText (dedup : KeyedMap String Instant) (instant : Instant) (text frameType : String) :
    Checked (KeyedMap String Instant × Handled) :=
  match frameType with
  | "event" =>
    match decoders.value text with
    | none => pure (dedup,nothing)
    | some envelope =>
      if seen dedup envelope then pure (dedup,nothing)
      else
        let dedup := match envelope.header "event_id" with
          | some eid => dedup.insert eid instant
          | none => dedup
        let eventType := (envelope.header "event_type").getD ""
        match envelope.get "event" with
        | some data =>
          if eventType = "im.message.receive_v1" then
            (handleMessageEvent decoders now data).bind fun message => pure (dedup,⟨none,message⟩)
          else if eventType = "application.bot.menu_v6" then pure (dedup,⟨none,handleBotMenuEvent decoders now data⟩)
          else pure (dedup,nothing)
        | none => pure (dedup,nothing)
  | "card" =>
    match decoders.value text with
    | none => pure (dedup,nothing)
    | some data => (handleLarkCardAction decoders now data).bind fun handled => pure (dedup,handled)
  | _ => pure (dedup,nothing)

-- A message whose fragments are all there is handled when it is a text.
def handleMerged (s : LarkSession) (instant : Instant) (msgType : String) (merged : Option (List UInt8)) : Checked (LarkSession × Handled) :=
  match merged.bind fromUtf8 with
  | some text =>
    if msgType = "event" ∨ msgType = "card" then
      (handleWsText decoders now s.dedupCache instant text msgType).bind fun r => pure ({ s with dedupCache := r.1 },r.2)
    else pure (s,nothing)
  | none => pure (s,nothing)

def handleDataFrame (s : LarkSession) (instant : Instant) (frame : PbFrame) : Checked (LarkSession × Handled) :=
  (s.fragmentCache.push instant frame.messageId frame.sum frame.seq frame.payload).bind fun pushed =>
    handleMerged decoders now { s with fragmentCache := pushed.1 } instant frame.msgType pushed.2

-- The answer to a frame, and what it leads to.
def handleBinary (s : LarkSession) (instant : Instant) (data : List UInt8) : Checked (LarkSession × Option PbFrame × Handled) :=
  match decoders.pbFrame data with
  | none => pure (s,none,nothing)
  | some frame =>
    if frame.method = 0 then
      match handleControlFrame decoders frame with
      | some duration =>
        (instant.addSecs duration).bind fun deadline =>
          pure ({ s with pingDuration := duration, pingDeadline := deadline },none,nothing)
      | none => pure (s,none,nothing)
    else if frame.method = 1 then
      (handleDataFrame decoders now s instant frame).bind fun r => pure (r.1,some (buildAckFrame frame),r.2)
    else pure (s,none,nothing)

end Lark

section Telegram
variable (now : Int64)

def buildDisplayName (first : String) : Option String → String
  | some last => if last ≠ "" then first ++ " " ++ last else first
  | none => first

-- The category is looked at before the action.
def parseCallbackData (data : String) : Checked (Option (String × ActionCategory × Option Params)) :=
  let parts := splitn ':' 3 data.toList
  if parts.length < 2 then pure none
  else do
    let category ← index parts 0
    if String.ofList category ∈ ["platform","system","chat"] then
      let action ← index parts 1
      let params ← thirdPart parts
      pure (some (String.ofList action,categoryOf (String.ofList category),params))
    else pure none

-- `max_by_key`: the last of the greatest.
def largest (keyed : List (Int32 × TgPhotoSize)) : Option TgPhotoSize :=
  (keyed.foldl (fun best next =>
    match best with
    | some b => if b.1 ≤ next.1 then some next else some b
    | none => some next) none).map (·.2)

def bestPhoto (photos : List TgPhotoSize) : Checked (Option TgPhotoSize) := do
  let keyed ← photos.mapM fun p => (mulI32 p.width p.height).bind fun area => pure (area,p)
  pure (largest keyed)

def TgMedia.attachment (media : TgMedia) (fileName : Option String) : List UnifiedAttachment :=
  [⟨some media.fileId,fileName,media.mimeType,media.fileSize⟩]

def extractTelegramContent (msg : TgMessage) : Checked UnifiedMessageContent :=
  let caption := msg.caption.getD ""
  match msg.photo with
  | some photos => do
    let best ← bestPhoto photos
    pure ⟨.photo,caption,best.map fun p => [⟨some p.fileId,none,some "image/jpeg",p.fileSize⟩]⟩
  | none =>
    match msg.document,msg.voice,msg.audio,msg.video,msg.sticker with
    | some doc,_,_,_,_ => pure ⟨.document,caption,some (doc.attachment doc.fileName)⟩
    | none,some voice,_,_,_ => pure ⟨.voice,caption,some (voice.attachment none)⟩
    | none,none,some audio,_,_ => pure ⟨.audio,caption,some (audio.attachment audio.fileName)⟩
    | none,none,none,some video,_ => pure ⟨.video,caption,some (video.attachment video.fileName)⟩
    | none,none,none,none,some sticker => pure ⟨.sticker,sticker.emoji.getD "",some [⟨some sticker.fileId,none,none,none⟩]⟩
    | none,none,none,none,none =>
      let text := msg.text.getD ""
      pure ⟨textOrCommand text,text,none⟩

def decimal (n : Int64) : String :=
  String.ofList ((if n.toInt < 0 then ['-'] else []) ++ Nat.toDigits 10 n.toInt.natAbs)

def handleTelegramMessage (msg : TgMessage) : Checked (Option UnifiedIncomingMessage) :=
  match msg.fromUser with
  | none => pure none
  | some sender => do
    let content ← extractTelegramContent msg
    pure (some ⟨decimal msg.messageId,.telegram,decimal msg.chat,
      ⟨decimal sender.id,sender.username,buildDisplayName sender.firstName sender.lastName⟩,content,msg.date,
      msg.replyToMessage.map decimal,none⟩)

def handleCallbackQuery (cb : TgCallbackQuery) : Checked Handled := do
  let data := cb.data.getD ""
  let parsed ← parseCallbackData data
  let chatId := decimal ((cb.message.map (·.2)).getD cb.fromUser.id)
  let action := parsed.map fun (action,category,params) =>
    (⟨action,category,params,⟨.telegram,decimal cb.fromUser.id,chatId,cb.message.map (decimal ·.1)⟩⟩ : UnifiedAction)
  pure ⟨parsed.bind fun (action,_,params) => confirmation action params,
    some ⟨cb.id,.telegram,chatId,⟨decimal cb.fromUser.id,cb.fromUser.username,buildDisplayName cb.fromUser.firstName cb.fromUser.lastName⟩,
      ⟨.action,data,none⟩,now,none,action⟩⟩

-- One update of a batch: the offset to ask for next, and what the update leads to.
def handleUpdate (update : TgUpdate) : Checked (Int64 × Handled) := do
  let offset ← addI64 update.updateId 1
  match update.callbackQuery,update.message with
  | some cb,_ =>
    let handled ← handleCallbackQuery now cb
    pure (offset,handled)
  | none,some msg =>
    let message ← handleTelegramMessage msg
    pure (offset,⟨none,message⟩)
  | none,none => pure (offset,nothing)

end Telegram

section Weixin
variable (now : Int64)

-- A failure counter under `WEIXIN_MAX_RETRIES`.
structure WeixinSession where
  buf : String
  consecutiveFailures : UInt32
  contextTokens : KeyedMap String String
  few : consecutiveFailures.toNat < 3

-- A response that names an error counts as a failure, and the third in a row makes
-- the poller back off.
def handleResponse (s : WeixinSession) (ret errcode : Option Int32) (newBuf : Option String) : Checked WeixinSession :=
  if ret.getD 0 ≠ 0 ∨ errcode.getD 0 ≠ 0 then
    if s.consecutiveFailures.toNat + 1 < 2 ^ 32 then
      if again : (s.consecutiveFailures + 1).toNat < 3 then .ok { s with consecutiveFailures := s.consecutiveFailures + 1, few := again }
      else .ok { s with consecutiveFailures := 0, few := by decide }
    else .error .arithmetic
  else .ok { s with consecutiveFailures := 0, buf := newBuf.getD s.buf, few := by decide }

-- The trimmed texts of the text items and of the transcribed voice items.
def itemText (item : WeixinRawItem) : Option String :=
  let text := if item.itemType = some 1 then item.textItem.bind fun text => text
    else if item.itemType = some 3 then item.voiceItem.bind fun text => text
    else none
  (text.map trim).filter (· ≠ "")

def extractWeixinContent (items : List WeixinRawItem) : MessageContentType × String :=
  let text := String.intercalate "\n\n" (items.filterMap itemText)
  (textOrCommand text,text)

-- The last six bytes of a longer id.
def weixinDisplayName (sender : String) : Checked String :=
  if byteLen sender.toList > 6 then (subUsize (byteLen sender.toList) 6).bind fun first => sliceFrom sender first else pure sender

def storeContextToken (contextTokens : KeyedMap String String) (sender : String) : Option String → KeyedMap String String
  | some token => if token ≠ "" then contextTokens.insert sender token else contextTokens
  | none => contextTokens

def handleWeixinMessage (contextTokens : KeyedMap String String) (msg : WeixinRawMessage) :
    Checked (KeyedMap String String × Option UnifiedIncomingMessage) :=
  match msg.fromUserId with
  | none => pure (contextTokens,none)
  | some sender =>
    if sender = "" then pure (contextTokens,none)
    else
      let contextTokens := storeContextToken contextTokens sender msg.contextToken
      let content := extractWeixinContent (msg.itemList.getD [])
      if content.2 = "" then pure (contextTokens,none)
      else
        (weixinDisplayName sender).bind fun displayName =>
          pure (contextTokens,some ⟨msg.msgId.getD "",.weixin,sender,⟨sender,none,displayName⟩,⟨content.1,content.2,none⟩,now,none,none⟩)

end Weixin

end AlineaCopilot.ChannelPlatforms
