import AlineaCopilot.ConversationRuntime
import AlineaCopilot.MessageTable
import AlineaCopilot.RustText
open AlineaCopilot.KeyedMaps AlineaCopilot.MessageTable AlineaCopilot.ConversationRuntime

namespace AlineaCopilot.StreamPersistence

section Contents

inductive Leaf where
  | null
  | text (value : String)
  | json (value : String)
deriving DecidableEq, Repr

-- A JSON value two levels down, which is as far as the merges go.
inductive Field where
  | leaf (value : Leaf)
  | object (fields : KeyedMap String Leaf)

inductive ToolCallStatus where
  | running
  | completed
  | error
deriving DecidableEq, Repr

structure ToolGroupEntry where
  callId : String
  name : String
  status : ToolCallStatus
  description : Option String
deriving DecidableEq, Repr

-- The content column: an object, the array of a tool group, another JSON value,
-- or a text that is none.
inductive Content where
  | object (fields : KeyedMap String Field)
  | toolGroup (entries : List ToolGroupEntry)
  | value (json : String)
  | unreadable (text : String)

abbrev Row := MessageRow Content
abbrev RowUpdate := MessageRowUpdate Content

def single (key : String) (field : Field) : KeyedMap String Field := (∅ : KeyedMap String Field).insert key field

-- `{"content": text}`.
def textContent (text : String) : Content := .object (single "content" (.leaf (.text text)))

def Field.isNull : Field → Bool
  | .leaf .null => true
  | _ => false

-- The fields that are not null go over the ones that are there.
def overlay (base new : KeyedMap String Field) : KeyedMap String Field :=
  new.entries.foldl (fun fields entry => if entry.2.isNull then fields else fields.insert entry.1 entry.2) base

def overlayLeaves (base new : KeyedMap String Leaf) : KeyedMap String Leaf :=
  new.entries.foldl (fun fields entry => if entry.2 = .null then fields else fields.insert entry.1 entry.2) base

-- A text that does not parse counts as null.
def mergeJsonContent (existing new : Content) : Content :=
  match existing,new with
  | .object base,.object fields => .object (overlay base fields)
  | .unreadable _,_ => .value "null"
  | existing,_ => existing

def mergeAcpToolCallContent (existing : Content) (update : KeyedMap String Field) : Content :=
  match existing with
  | .object base => match base.lookup "update",update.lookup "update" with
    | some (.object old),some (.object new) => .object (base.insert "update" (.object (overlayLeaves old new)))
    | _,_ => .object base
  | .unreadable _ => .value "null"
  | existing => existing

end Contents

section Events

-- The arguments and the input are JSON; `none` is not serialised.
structure ToolCallEventData where
  callId : String
  name : String
  args : Leaf
  status : ToolCallStatus
  input : Option Leaf
  output : Option String
  description : Option String
deriving DecidableEq, Repr

inductive AcpToolCallSessionUpdateKind where
  | toolCall
  | toolCallUpdate
deriving DecidableEq, Repr

inductive AcpToolCallStatus where
  | pending
  | inProgress
  | completed
  | failed
deriving DecidableEq, Repr

-- `details` holds the optional fields of the update that are there (title, kind,
-- raw input and output, content, locations), under their names in snake case.
structure AcpToolCallEventData where
  sessionId : String
  sessionUpdate : AcpToolCallSessionUpdateKind
  toolCallId : String
  status : Option AcpToolCallStatus
  details : KeyedMap String Leaf
  metadata : Option Leaf

inductive TipType where
  | error
  | info
  | success
  | warning
deriving DecidableEq, Repr

structure TipsEventData where
  content : String
  tipType : TipType
  code : Option String
  params : Option Leaf
deriving DecidableEq, Repr

-- `json` is the whole event as it is serialised.
structure ErrorEventData where
  message : String
  json : String
deriving DecidableEq, Repr

def ToolCallStatus.serdeName : ToolCallStatus → String
  | .running => "running"
  | .completed => "completed"
  | .error => "error"

def AcpToolCallStatus.serdeName : AcpToolCallStatus → String
  | .pending => "pending"
  | .inProgress => "in_progress"
  | .completed => "completed"
  | .failed => "failed"

def AcpToolCallSessionUpdateKind.serdeName : AcpToolCallSessionUpdateKind → String
  | .toolCall => "tool_call"
  | .toolCallUpdate => "tool_call_update"

def TipType.serdeName : TipType → String
  | .error => "error"
  | .info => "info"
  | .success => "success"
  | .warning => "warning"

def insertSome {V : Type} (fields : KeyedMap String V) (key : String) : Option V → KeyedMap String V
  | none => fields
  | some value => fields.insert key value

def ToolCallEventData.fields (data : ToolCallEventData) : KeyedMap String Field :=
  let fields := single "call_id" (.leaf (.text data.callId))
  let fields := fields.insert "name" (.leaf (.text data.name))
  let fields := fields.insert "args" (.leaf data.args)
  let fields := fields.insert "status" (.leaf (.text data.status.serdeName))
  let fields := insertSome fields "input" (data.input.map .leaf)
  let fields := insertSome fields "output" (data.output.map fun text => .leaf (.text text))
  insertSome fields "description" (data.description.map fun text => .leaf (.text text))

def AcpToolCallEventData.update (data : AcpToolCallEventData) : KeyedMap String Leaf :=
  let fields := data.details.insert "session_update" (.text data.sessionUpdate.serdeName)
  let fields := fields.insert "tool_call_id" (.text data.toolCallId)
  insertSome fields "status" (data.status.map fun status => .text status.serdeName)

def AcpToolCallEventData.fields (data : AcpToolCallEventData) : KeyedMap String Field :=
  let fields := single "session_id" (.leaf (.text data.sessionId))
  let fields := fields.insert "update" (.object data.update)
  insertSome fields "_meta" (data.metadata.map .leaf)

end Events

structure TextSegmentState where
  id : String
  buffer : String
  createdAt : Int
  recordCreated : Bool
  flushCounter : Nat
deriving DecidableEq, Repr

structure ThinkingSegmentState where
  id : String
  buffer : String
  startedAt : Int
deriving DecidableEq, Repr

structure FinalTextOverride where
  msgId : String
  text : String
  hidden : Bool
deriving DecidableEq, Repr

structure Adapter where
  conversationId : String
  msgId : String
deriving DecidableEq, Repr

-- A write to the message table. An update that finds no row may have a row to
-- insert instead.
inductive Write where
  | insert (row : Row)
  | update (id : String) (changes : RowUpdate)
  | updateOrInsert (id : String) (changes : RowUpdate) (row : Row)

-- What the relay asks the adapter for. Ids of tips and of a group without
-- entries are minted on the way.
inductive Operation where
  | flushText (segment : TextSegmentState)
  | finalizeText (segment : TextSegmentState) (status : String)
  | finalText (segments : List String) (status finalText : String) (hidden rewriteSegments : Bool)
  | errorTip (mintedId : String) (data : ErrorEventData)
  | tip (mintedId : String) (data : TipsEventData)
  | thinking (segment : ThinkingSegmentState) (durationMs : Int)
  | toolCall (data : ToolCallEventData)
  | acpToolCall (data : AcpToolCallEventData)
  | toolGroup (mintedId : String) (entries : List ToolGroupEntry)

section Operations

def Operation.kind : Operation → RuntimeWriteKind
  | .flushText _ => .assistantTextFlush
  | .finalizeText _ _ => .assistantTextFinalize
  | .finalText _ _ _ _ _ | .errorTip _ _ | .tip _ _ => .terminalFinalize
  | .thinking _ _ => .assistantThinkingFinalize
  | .toolCall _ => .toolCallPersist
  | .acpToolCall _ => .acpToolCallPersist
  | .toolGroup _ _ => .toolGroupPersist

-- What is left out: segments without text, and tool calls without an id.
def Operation.skipped : Operation → Bool
  | .flushText segment | .finalizeText segment _ => segment.buffer.isEmpty
  | .thinking segment _ => segment.buffer.isEmpty
  | .toolCall data => (RustText.trim data.callId).isEmpty
  | _ => false

def groupId (mintedId : String) (entries : List ToolGroupEntry) : String :=
  match entries with
  | [] => mintedId
  | entry :: _ => entry.callId

-- The row an operation looks for in its conversation first, by message id and type.
def Operation.lookup : Operation → Option (String × String)
  | .toolCall data => some (data.callId,"tool_call")
  | .acpToolCall data => match data.sessionUpdate with
    | .toolCall => none
    | .toolCallUpdate => some (data.toolCallId,"acp_tool_call")
  | .toolGroup mintedId entries => some (groupId mintedId entries,"tool_group")
  | _ => none

def Adapter.row (adapter : Adapter) (id type : String) (content : Content) (status : String) (createdAt : Int) : Row :=
  ⟨id,adapter.conversationId,some id,type,content,some "left",some status,false,createdAt⟩

def Adapter.tipRow (adapter : Adapter) (id : String) (content : Content) (status : String) (createdAt : Int) : Row :=
  { adapter.row id "tips" content status createdAt with msgId := none }

def flushTextWrite (adapter : Adapter) (segment : TextSegmentState) : Write :=
  if segment.recordCreated then
    .update segment.id { content := some (textContent segment.buffer), status := some (some "work") }
  else .insert (adapter.row segment.id "text" (textContent segment.buffer) "work" segment.createdAt)

def finalizeTextWrite (adapter : Adapter) (segment : TextSegmentState) (status : String) : Write :=
  if segment.recordCreated then
    .update segment.id { content := some (textContent segment.buffer), status := some (some status), hidden := some false }
  else .insert (adapter.row segment.id "text" (textContent segment.buffer) status segment.createdAt)

def finalTextWrites (adapter : Adapter) (now : Int) (segments : List String) (status finalText : String)
    (hidden rewriteSegments : Bool) : List Write :=
  match segments with
  | [] => if hidden then [] else [.insert (adapter.row adapter.msgId "text" (textContent finalText) status now)]
  | primary :: others =>
    if rewriteSegments then
      .update primary { content := some (textContent finalText), status := some (some status), hidden := some hidden } ::
        others.map fun id => .update id { status := some (some status), hidden := some true }
    else segments.map fun id => .update id { status := some (some status), hidden := some false }

def finalTextOverrides (segments : List String) (finalText : String) (hidden rewriteSegments : Bool) : List FinalTextOverride :=
  match segments with
  | [] => []
  | primary :: others =>
    if rewriteSegments then ⟨primary,finalText,hidden⟩ :: others.map fun id => ⟨id,"",true⟩
    else []

def errorTipContent (data : ErrorEventData) : Content :=
  .object (((single "content" (.leaf (.text data.message))).insert "type" (.leaf (.text "error"))).insert "error"
    (.leaf (.json data.json)))

def tipContent (data : TipsEventData) : Content :=
  .object ((((single "content" (.leaf (.text data.content))).insert "type" (.leaf (.text data.tipType.serdeName))).insert
    "code" (.leaf ((data.code.map .text).getD .null))).insert "params" (.leaf (data.params.getD .null)))

def tipStatus : TipType → String
  | .error => "error"
  | .success | .warning | .info => "finish"

def thinkingContent (segment : ThinkingSegmentState) (durationMs : Int) : Content :=
  .object (((single "content" (.leaf (.text segment.buffer))).insert "status" (.leaf (.text "done"))).insert "duration_ms"
    (.leaf (.json s!"{durationMs}")))

def toolCallStatus : ToolCallStatus → String
  | .running => "work"
  | .completed => "finish"
  | .error => "error"

def acpToolCallStatus : Option AcpToolCallStatus → String
  | none | some .pending | some .inProgress => "work"
  | some .completed => "finish"
  | some .failed => "error"

def toolGroupStatus (entries : List ToolGroupEntry) : String :=
  if entries.all fun entry => entry.status ≠ .running then "finish" else "work"

def toolCallWrites (adapter : Adapter) (now : Int) (data : ToolCallEventData) (existing : Option Row) : List Write :=
  match existing with
  | some row => [.update data.callId {
      content := some (mergeJsonContent row.content (.object data.fields))
      status := some (some (toolCallStatus data.status)) }]
  | none => [.insert (adapter.row data.callId "tool_call" (.object data.fields) (toolCallStatus data.status) now)]

def acpToolCallWrites (adapter : Adapter) (now : Int) (data : AcpToolCallEventData) (existing : Option Row) : List Write :=
  match data.sessionUpdate with
  | .toolCall =>
    [.insert (adapter.row data.toolCallId "acp_tool_call" (.object data.fields) (acpToolCallStatus data.status) now)]
  | .toolCallUpdate =>
    let merged := match existing with
      | none => .object data.fields
      | some row => mergeAcpToolCallContent row.content data.fields
    [.updateOrInsert data.toolCallId { content := some merged, status := some (some (acpToolCallStatus data.status)) }
      (adapter.row data.toolCallId "acp_tool_call" merged (acpToolCallStatus data.status) now)]

def toolGroupWrites (adapter : Adapter) (now : Int) (mintedId : String) (entries : List ToolGroupEntry)
    (existing : Option Row) : List Write :=
  let id := groupId mintedId entries
  match existing with
  | some _ => [.update id { content := some (.toolGroup entries), status := some (some (toolGroupStatus entries)) }]
  | none => [.insert (adapter.row id "tool_group" (.toolGroup entries) (toolGroupStatus entries) now)]

def Operation.writes (adapter : Adapter) (now : Int) (existing : Option Row) : Operation → List Write
  | .flushText segment => [flushTextWrite adapter segment]
  | .finalizeText segment status => [finalizeTextWrite adapter segment status]
  | .finalText segments status text hidden rewriteSegments =>
    finalTextWrites adapter now segments status text hidden rewriteSegments
  | .errorTip mintedId data => [.insert (adapter.tipRow mintedId (errorTipContent data) "error" now)]
  | .tip mintedId data => [.insert (adapter.tipRow mintedId (tipContent data) (tipStatus data.tipType) now)]
  | .thinking segment durationMs =>
    [.insert (adapter.row segment.id "thinking" (thinkingContent segment durationMs) "finish" segment.startedAt)]
  | .toolCall data => toolCallWrites adapter now data existing
  | .acpToolCall data => acpToolCallWrites adapter now data existing
  | .toolGroup mintedId entries => toolGroupWrites adapter now mintedId entries existing

def Write.attempt (known : String → Bool) (messages : Messages Content) : Write → Except DbError (Messages Content)
  | .insert row => insertMessage known messages row
  | .update id changes | .updateOrInsert id changes _ => updateMessage messages id changes

-- What is tried after a failed write.
def Write.afterwards (error : DbError) : Write → List Write
  | .updateOrInsert _ _ row => match error with
    | .notFound _ => [.insert row]
    | .query _ => []
  | _ => []

end Operations

end AlineaCopilot.StreamPersistence
