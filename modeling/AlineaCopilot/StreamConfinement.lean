import AlineaCopilot.InterleavedRequests
import AlineaCopilot.StreamPersistence
open AlineaCopilot.KeyedMaps AlineaCopilot.TransitionRuns AlineaCopilot.InterleavedRequests AlineaCopilot.MessageTable
open AlineaCopilot.ConversationRuntime

namespace AlineaCopilot.StreamPersistence

-- The message table, the conversations it refers to and the runtime state.
structure Store where
  runtime : RuntimeState
  known : String → Bool
  messages : Messages Content

-- Where a relay stands in handling an event.
inductive Progress where
  | idle
  | lookingUp (adapter : Adapter) (operation : Operation) (now : Int)
  | writing (adapter : Adapter) (operation : Operation) (writes : List Write)

-- A relay asks its adapter for something, a call of it answers or fails, or the
-- rest of the service moves on.
inductive Input where
  | persist (adapter : Adapter) (operation : Operation) (now : Int)
  | answer
  | fail
  | outside (runtime : RuntimeState) (known : String → Bool)

section Handlers

def proceed (adapter : Adapter) (operation : Operation) : List Write → Progress
  | [] => .idle
  | writes => .writing adapter operation writes

def begin (store : Store) (adapter : Adapter) (operation : Operation) (now : Int) : Progress :=
  if !store.runtime.allows adapter.conversationId operation.kind || operation.skipped then .idle
  else match operation.lookup with
    | some _ => .lookingUp adapter operation now
    | none => proceed adapter operation (operation.writes adapter now none)

-- A look-up that fails counts as one that finds nothing.
def found (store : Store) (adapter : Adapter) (operation : Operation) : Option Row :=
  operation.lookup.bind fun sought => getMessageByMsgId store.messages adapter.conversationId sought.1 sought.2

def advance (store : Store) (progress : Progress) (input : Input) : Option (Store × Progress) :=
  match progress,input with
  | .idle,.persist adapter operation now => some (store,begin store adapter operation now)
  | .lookingUp adapter operation now,.answer =>
    some (store,proceed adapter operation (operation.writes adapter now (found store adapter operation)))
  | .lookingUp adapter operation now,.fail =>
    some (store,proceed adapter operation (operation.writes adapter now none))
  | .writing adapter operation (write :: rest),.answer =>
    match write.attempt store.known store.messages with
    | .ok messages => some ({ store with messages := messages },proceed adapter operation rest)
    | .error error => some (store,proceed adapter operation (write.afterwards error ++ rest))
  | .writing adapter operation (_ :: rest),.fail => some (store,proceed adapter operation rest)
  | progress,.outside runtime known => some ({ store with runtime := runtime, known := known },progress)
  | _,_ => none

end Handlers

def start (runtime : RuntimeState) (known : String → Bool) (messages : Messages Content) : System Store Progress :=
  ⟨⟨runtime,known,messages⟩,fun _ => .idle⟩

section Confinement

-- The row a tool event is to end up in: its id, its type and its status.
structure ToolTarget where
  id : String
  type : String
  status : String
deriving DecidableEq, Repr

def Operation.toolTarget : Operation → Option ToolTarget
  | .toolCall data => some ⟨data.callId,"tool_call",toolCallStatus data.status⟩
  | .acpToolCall data => some ⟨data.toolCallId,"acp_tool_call",acpToolCallStatus data.status⟩
  | .toolGroup mintedId entries => some ⟨groupId mintedId entries,"tool_group",toolGroupStatus entries⟩
  | _ => none

-- The event a step handles.
def handled : Progress → Input → Option (Adapter × Operation)
  | .idle,.persist adapter operation _ => some (adapter,operation)
  | .lookingUp adapter operation _,.answer | .lookingUp adapter operation _,.fail => some (adapter,operation)
  | .writing adapter operation _,.answer | .writing adapter operation _,.fail => some (adapter,operation)
  | _,_ => none

def Write.rowId : Write → String
  | .insert row => row.id
  | .update id _ | .updateOrInsert id _ _ => id

-- What the write puts into a row is there.
def Write.Shows (row : Row) : Write → Prop
  | .insert new => row.content = new.content ∧ row.status = new.status
  | .update _ changes | .updateOrInsert _ changes _ => changes.apply row = row

def Progress.next : Progress → Option Write
  | .writing _ _ (write :: _) => some write
  | _ => none

def Holds (adapter : Adapter) (target : ToolTarget) (write : Option Write) (messages : Messages Content) : Prop :=
  ∃ row ∈ messages, row.id = target.id ∧ row.conversationId = adapter.conversationId ∧ row.type = target.type ∧
    row.status = some target.status ∧ ∃ last, write = some last ∧ last.Shows row

-- The write of a tool event goes ahead: an insertion under an id that is new, an
-- update of a row of its type.
def Clear (known : String → Bool) (messages : Messages Content) (adapter : Adapter) (target : ToolTarget) : Write → Prop
  | .insert _ => known adapter.conversationId = true ∧ ∀ other ∈ messages, other.id ≠ target.id
  | .update _ _ => ∃ row ∈ messages, row.id = target.id ∧ row.type = target.type
  | .updateOrInsert _ _ _ => ∀ row ∈ messages, row.id = target.id → row.type = target.type

end Confinement

section Writes
variable {adapter : Adapter} {operation : Operation} {target : ToolTarget} {write : Write} {messages next : Messages Content}
  {changes : RowUpdate} {row : Row}

-- A row that a write brings is of the adapter's conversation.
def Write.Own (adapter : Adapter) : Write → Prop
  | .insert row | .updateOrInsert _ _ row => row.conversationId = adapter.conversationId
  | .update _ _ => True

-- The write of a tool event, under its id and with its status.
def Write.Serves (target : ToolTarget) : Write → Prop
  | .insert row => row.id = target.id ∧ row.type = target.type ∧ row.status = some target.status
  | .update id changes => id = target.id ∧ changes.status = some (some target.status)
  | .updateOrInsert id changes row => (id = target.id ∧ changes.status = some (some target.status)) ∧
      row.id = target.id ∧ row.type = target.type ∧ row.status = some target.status

end Writes

section Steps
variable {store next : Store} {progress after : Progress} {input : Input} {adapter : Adapter} {operation : Operation}
  {write : Write} {writes rest : List Write} {error : DbError} {target : ToolTarget} {messages : Messages Content}

-- What is still to be written is of the relay's own conversation; for a tool
-- event it is one write under the event's id.
structure Pending (adapter : Adapter) (operation : Operation) (writes : List Write) : Prop where
  own : ∀ write ∈ writes, write.Own adapter
  tool : ∀ target, operation.toolTarget = some target → ∃ write, writes = [write] ∧ write.Serves target

def Fits (progress : Progress) : Prop :=
  ∀ adapter operation writes, progress = .writing adapter operation writes → Pending adapter operation writes

theorem Pending.later (pending : Pending adapter operation (write :: rest)) (more : rest ≠ []) : Pending adapter operation rest := by
  refine ⟨fun write inside => pending.own write (List.mem_cons_of_mem _ inside),fun target tool => ?_⟩
  obtain ⟨_,equal,_⟩ := pending.tool target tool
  exact absurd (List.cons.inj equal).2 more

end Steps

section Examples

end Examples

end AlineaCopilot.StreamPersistence
