import Mathlib.Data.List.Nodup
import Mathlib.Data.String.Basic
import AlineaCopilot.JsonTrees
import AlineaCopilot.MessageTable
import AlineaCopilot.RustPanics

open AlineaCopilot.JsonTrees AlineaCopilot.MessageTable AlineaCopilot.RustPanics

namespace AlineaCopilot.MessageCompaction

def toolContentCompactThresholdBytes : Nat := 64 * 1024

def toolContentPreviewChars : Nat := 4096

inductive Scalar where
  | null
  | bool (value : Bool)
  | number (text : String)
  | string (text : String)
deriving DecidableEq

abbrev Content := Json String Scalar

inductive MessageType where
  | text
  | tips
  | toolCall
  | toolGroup
  | agentStatus
  | permission
  | acpToolCall
  | plan
  | thinking
  | availableCommands
  | skillSuggest
  | cronTrigger
deriving DecidableEq

def MessageType.read : String → Option MessageType
  | "text" => some .text
  | "tips" => some .tips
  | "tool_call" => some .toolCall
  | "tool_group" => some .toolGroup
  | "agent_status" => some .agentStatus
  | "permission" => some .permission
  | "acp_tool_call" => some .acpToolCall
  | "plan" => some .plan
  | "thinking" => some .thinking
  | "available_commands" => some .availableCommands
  | "skill_suggest" => some .skillSuggest
  | "cron_trigger" => some .cronTrigger
  | _ => none

inductive MessagePosition where
  | right
  | left
  | center
  | pop
deriving DecidableEq

def MessagePosition.read : String → Option MessagePosition
  | "right" => some .right
  | "left" => some .left
  | "center" => some .center
  | "pop" => some .pop
  | _ => none

inductive MessageStatus where
  | finish
  | pending
  | error
  | work
deriving DecidableEq

def MessageStatus.read : String → Option MessageStatus
  | "finish" => some .finish
  | "pending" => some .pending
  | "error" => some .error
  | "work" => some .work
  | _ => none

inductive ConversationError where
  | internal (text : String)
deriving DecidableEq

-- `serde_json`: how it reads a text, and what it says to one that is no variant
-- of an enumeration.
structure Serde where
  fromStr : String → Except String (Value String Scalar)
  unknownVariant : String → String

structure MessageResponse where
  id : String
  conversationId : String
  msgId : Option String
  type : MessageType
  content : Content
  position : Option MessagePosition
  status : Option MessageStatus
  hidden : Bool
  createdAt : Int

-- Parse a DB string value into a typed enum via serde.
def stringToEnum {α : Type} (serde : Serde) (read : String → Option α) (s : String) : Except ConversationError α :=
  match read s with
  | some value => .ok value
  | none => .error (.internal s!"Invalid enum value '{s}': {serde.unknownVariant s}")

def parseContent (serde : Serde) (text : String) : Except ConversationError (Value String Scalar) :=
  match serde.fromStr text with
  | .ok value => .ok value
  | .error e => .error (.internal s!"Invalid message content JSON: {e}")

-- Convert a message database row into an API response DTO.
def rowToMessageResponse (serde : Serde) (row : MessageRow String) : Except ConversationError MessageResponse := do
  let msgType ← stringToEnum serde MessageType.read row.type
  let position ← row.position.mapM (stringToEnum serde MessagePosition.read)
  let status ← row.status.mapM (stringToEnum serde MessageStatus.read)
  let content ← parseContent serde row.content
  return {
    id := row.id
    conversationId := row.conversationId
    msgId := row.msgId
    type := msgType
    content := content.tree
    position
    status
    hidden := row.hidden
    createdAt := row.createdAt }

def isToolMessage : MessageType → Bool
  | .toolCall | .toolGroup | .acpToolCall => true
  | _ => false

def preview (maxChars : Nat) (text : String) : String := String.ofList (text.toList.take maxChars) ++ "\n...[truncated]"

mutual
def truncateLargeStrings (maxChars : Nat) : Content → Bool → Content × Bool
  | .scalar (.string text),truncated =>
    if text.length > maxChars then (.scalar (.string (preview maxChars text)),true) else (.scalar (.string text),truncated)
  | .scalar s,truncated => (.scalar s,truncated)
  | .array items,truncated =>
    let done := truncateItems maxChars items truncated
    (.array done.1,done.2)
  | .object fields,truncated =>
    let done := truncateFields maxChars fields truncated
    (.object done.1,done.2)
def truncateItems (maxChars : Nat) : List Content → Bool → List Content × Bool
  | [],truncated => ([],truncated)
  | item :: rest,truncated =>
    let first := truncateLargeStrings maxChars item truncated
    let later := truncateItems maxChars rest first.2
    (first.1 :: later.1,later.2)
def truncateFields (maxChars : Nat) : List (String × Content) → Bool → List (String × Content) × Bool
  | [],truncated => ([],truncated)
  | (key,value) :: rest,truncated =>
    let first := truncateLargeStrings maxChars value truncated
    let later := truncateFields maxChars rest first.2
    ((key,first.1) :: later.1,later.2)
end

def compactMarker (originalSize : Nat) : Content :=
  .object [("original_size",.scalar (.number (toString originalSize))),("preview_chars",.scalar (.number (toString toolContentPreviewChars))),
    ("truncated",.scalar (.bool true))]

-- `insert` through `as_object_mut`.
def insertMarker (originalSize : Nat) : Content → Content
  | .object fields => .object (insertField "_compact" (compactMarker originalSize) fields)
  | content => content

-- Convert a message row for history-list use, compacting oversized tool payloads.
def rowToMessageResponseCompact (serde : Serde) (row : MessageRow String) : Except ConversationError MessageResponse := do
  let originalSize := byteLen row.content.toList
  let response ← rowToMessageResponse serde row
  if !isToolMessage response.type || originalSize ≤ toolContentCompactThresholdBytes then return response
  let done := truncateLargeStrings toolContentPreviewChars response.content false
  return {response with content := if done.2 then insertMarker originalSize done.1 else done.1}

section Truncation
variable {maxChars : Nat}

-- What becomes of a scalar.
def cut (maxChars : Nat) : Scalar → Scalar
  | .string text => if text.length > maxChars then .string (preview maxChars text) else .string text
  | s => s

def Short (maxChars : Nat) : Scalar → Prop
  | .string text => text.length ≤ maxChars
  | _ => True

theorem truncate_items {items : List Content}
    (each : ∀ item ∈ items, ∀ truncated, (truncateLargeStrings maxChars item truncated).1 = item.mapScalars (cut maxChars) ∧
      ((truncateLargeStrings maxChars item truncated).2 = true ↔ truncated = true ∨ ¬item.Every (Short maxChars))) (truncated : Bool) :
    (truncateItems maxChars items truncated).1 = items.map (Json.mapScalars (cut maxChars)) ∧
      ((truncateItems maxChars items truncated).2 = true ↔ truncated = true ∨ ¬∀ item ∈ items, item.Every (Short maxChars)) := by
  induction items generalizing truncated with
  | nil => exact ⟨rfl,by simp [truncateItems]⟩
  | cons item rest ih =>
    obtain ⟨head,tail⟩ := List.forall_mem_cons.mp each
    obtain ⟨same,flag⟩ := head truncated
    obtain ⟨others,flags⟩ := ih tail (truncateLargeStrings maxChars item truncated).2
    simp only [truncateItems]
    refine ⟨by rw [same,others,List.map_cons],?_⟩
    rw [flags,flag,List.forall_mem_cons]
    tauto

theorem truncate_fields {fields : List (String × Content)}
    (each : ∀ field ∈ fields, ∀ truncated, (truncateLargeStrings maxChars field.2 truncated).1 = field.2.mapScalars (cut maxChars) ∧
      ((truncateLargeStrings maxChars field.2 truncated).2 = true ↔ truncated = true ∨ ¬field.2.Every (Short maxChars))) (truncated : Bool) :
    (truncateFields maxChars fields truncated).1 = fields.map (fun field => (field.1,field.2.mapScalars (cut maxChars))) ∧
      ((truncateFields maxChars fields truncated).2 = true ↔ truncated = true ∨ ¬∀ field ∈ fields, field.2.Every (Short maxChars)) := by
  induction fields generalizing truncated with
  | nil => exact ⟨rfl,by simp [truncateFields]⟩
  | cons field rest ih =>
    obtain ⟨head,tail⟩ := List.forall_mem_cons.mp each
    obtain ⟨same,flag⟩ := head truncated
    obtain ⟨others,flags⟩ := ih tail (truncateLargeStrings maxChars field.2 truncated).2
    simp only [truncateFields]
    refine ⟨by rw [same,others,List.map_cons],?_⟩
    rw [flags,flag,List.forall_mem_cons]
    tauto

-- The walk changes the scalars only, and its flag says whether a string is long.
theorem truncate_eq (content : Content) (truncated : Bool) :
    (truncateLargeStrings maxChars content truncated).1 = content.mapScalars (cut maxChars) ∧
      ((truncateLargeStrings maxChars content truncated).2 = true ↔ truncated = true ∨ ¬content.Every (Short maxChars)) := by
  induction content using Json.tree generalizing truncated with
  | scalar s =>
    rw [every_scalar]
    cases s with
    | string text =>
      simp only [truncateLargeStrings,Json.mapScalars,cut,Short]
      split
      · rename_i long
        exact ⟨rfl,fun _ => Or.inr (Nat.not_le.mpr long),fun _ => rfl⟩
      · rename_i short
        exact ⟨rfl,Or.inl,fun either => either.resolve_right (not_not.mpr (Nat.not_lt.mp short))⟩
    | null | bool _ | number _ => exact ⟨rfl,Or.inl,fun either => either.resolve_right (not_not.mpr trivial)⟩
  | array items ih =>
    obtain ⟨same,flag⟩ := truncate_items ih truncated
    simp only [truncateLargeStrings]
    rw [mapScalars_array,every_array,same]
    exact ⟨rfl,flag⟩
  | object fields ih =>
    obtain ⟨same,flag⟩ := truncate_fields ih truncated
    simp only [truncateLargeStrings]
    rw [mapScalars_object,every_object,same]
    exact ⟨rfl,flag⟩

end Truncation

-- The content says that it was truncated.
def Marked (content : Content) : Prop :=
  ∃ fields compact, content = .object fields ∧ ("_compact",.object compact) ∈ fields ∧ ("truncated",.scalar (.bool true)) ∈ compact

def unmarked : Content → Content
  | .object fields => .object (removeField "_compact" fields)
  | content => content

-- A string longer than the preview may become a shorter one that starts with it.
inductive Shortened (maxChars : Nat) : Scalar → Scalar → Prop where
  | same : Shortened maxChars s s
  | shorter (long : maxChars < text.length) (less : other.length < text.length) (starts : text.toList.take maxChars <+: other.toList) :
      Shortened maxChars (.string text) (.string other)

def NeverSilent (serde : Serde) (row : MessageRow String) : Prop :=
  rowToMessageResponseCompact serde row = rowToMessageResponse serde row ∨
  ∃ full content, rowToMessageResponse serde row = .ok full ∧ rowToMessageResponseCompact serde row = .ok {full with content := content} ∧
    Marked content ∧ full.content.Related (Shortened toolContentPreviewChars) (unmarked content)

-- The string is its own preview with the note behind.
def Settled (maxChars : Nat) (s : Scalar) : Prop := cut maxChars s = s

-- The preview with the note is shorter than the string.
def Saves (maxChars : Nat) : Scalar → Prop
  | .string text => maxChars + 15 < text.length
  | _ => False

-- The contents that can be compacted: an object without a `_compact` of its own
-- takes the marker, and what is as if compacted already stays as it is.
def Compactable (originalSize : Nat) (content : Content) : Prop :=
  (∃ fields, content = .object fields ∧ "_compact" ∉ fields.map Prod.fst ∧
    content.Every fun s => Settled toolContentPreviewChars s ∨ Saves toolContentPreviewChars s) ∨
  content.Every (Settled toolContentPreviewChars) ∧ ∀ fields, content = .object fields → ("_compact",compactMarker originalSize) ∈ fields

section Compaction
variable {serde : Serde} {row : MessageRow String} {full : MessageResponse} {content : Content}

theorem note_length : "\n...[truncated]".length = 15 := by
  decide

theorem preview_length {text : String} (long : maxChars ≤ text.length) : (preview maxChars text).length = maxChars + 15 := by
  rw [preview,String.length_append,note_length,String.length_ofList,List.length_take,String.length_toList,Nat.min_eq_left long]

theorem shortened_cut (s : Scalar) : Shortened maxChars s (cut maxChars s) ↔ Settled maxChars s ∨ Saves maxChars s := by
  unfold Settled
  cases s with
  | string text =>
    simp only [cut,Saves]
    split
    · rename_i long
      have size := preview_length (Nat.le_of_lt long)
      constructor
      · intro shortened
        generalize found : preview maxChars text = other at shortened size
        cases shortened with
        | same => exact Or.inl rfl
        | shorter _ less _ => exact Or.inr (by omega)
      · rintro (same | saves)
        · rw [same]
          exact .same
        · refine .shorter long (by omega) ?_
          rw [preview,String.toList_append,String.toList_ofList]
          exact List.prefix_append _ _
    · exact ⟨fun _ => Or.inl rfl,fun _ => .same⟩
  | null | bool _ | number _ => exact ⟨fun _ => Or.inl rfl,fun _ => .same⟩

theorem bind_ok {ε α β : Type} {x : Except ε α} {f : α → Except ε β} {b : β} (result : x.bind f = .ok b) : ∃ a, x = .ok a ∧ f a = .ok b := by
  cases x with
  | error e => cases result
  | ok a => exact ⟨a,rfl,result⟩

theorem full_content (read : rowToMessageResponse serde row = .ok full) : full.content.Sorted := by
  obtain ⟨msgType,-,read⟩ := bind_ok read
  obtain ⟨position,-,read⟩ := bind_ok read
  obtain ⟨status,-,read⟩ := bind_ok read
  obtain ⟨content,-,read⟩ := bind_ok read
  cases read
  exact content.sorted

def compacted (row : MessageRow String) (full : MessageResponse) : MessageResponse :=
  let done := truncateLargeStrings toolContentPreviewChars full.content false
  {full with content := if done.2 then insertMarker (byteLen row.content.toList) done.1 else done.1}

theorem compact_read (read : rowToMessageResponse serde row = .ok full) : rowToMessageResponseCompact serde row =
    if !isToolMessage full.type || byteLen row.content.toList ≤ toolContentCompactThresholdBytes then .ok full else .ok (compacted row full) := by
  unfold rowToMessageResponseCompact
  rw [read]
  rfl

theorem cut_short {s : Scalar} (short : Short maxChars s) : cut maxChars s = s := by
  cases s with
  | string text => exact if_neg (Nat.not_lt.mpr short)
  | null | bool _ | number _ => rfl

-- Messages of other kinds, small ones and those without a long string stay whole.
theorem compact_plain (read : rowToMessageResponse serde row = .ok full)
    (plain : isToolMessage full.type = true → toolContentCompactThresholdBytes < byteLen row.content.toList →
      full.content.Every (Short toolContentPreviewChars)) : rowToMessageResponseCompact serde row = .ok full := by
  rw [compact_read read]
  split
  · rfl
  · rename_i eager
    simp only [Bool.or_eq_true,Bool.not_eq_true',decide_eq_true_eq,not_or,Bool.not_eq_false,Nat.not_le] at eager
    have short := plain eager.1 eager.2
    obtain ⟨same,flag⟩ := @truncate_eq toolContentPreviewChars full.content false
    have off : (truncateLargeStrings toolContentPreviewChars full.content false).2 = false := by
      rw [← Bool.not_eq_true,flag]
      simp [short]
    have whole : full.content.mapScalars (cut toolContentPreviewChars) = full.content :=
      (mapScalars_same_iff _ _).mpr (every_mono (fun _ => cut_short) short)
    rw [compacted,off,same,whole]
    rfl

theorem compact_long (read : rowToMessageResponse serde row = .ok full) (tool : isToolMessage full.type = true)
    (large : toolContentCompactThresholdBytes < byteLen row.content.toList) (long : ¬full.content.Every (Short toolContentPreviewChars)) :
    rowToMessageResponseCompact serde row = .ok {full with
      content := insertMarker (byteLen row.content.toList) (full.content.mapScalars (cut toolContentPreviewChars)) } := by
  have eager : ¬(!isToolMessage full.type || byteLen row.content.toList ≤ toolContentCompactThresholdBytes) = true := by
    simp [tool,large]
  obtain ⟨same,flag⟩ := @truncate_eq toolContentPreviewChars full.content false
  rw [compact_read read,if_neg eager,compacted,flag.mpr (Or.inr long),same]
  rfl

-- An object without the key is what is left of the compacted one.
theorem object_shortened {fields : List (String × Content)} (fresh : "_compact" ∉ fields.map Prod.fst) (originalSize : Nat) :
    (Json.object fields).Related (Shortened toolContentPreviewChars)
      (unmarked (insertMarker originalSize ((Json.object fields).mapScalars (cut toolContentPreviewChars)))) ↔
    (Json.object fields).Every fun s => Settled toolContentPreviewChars s ∨ Saves toolContentPreviewChars s := by
  have kept : "_compact" ∉ (fields.map fun field => (field.1,field.2.mapScalars (cut toolContentPreviewChars))).map Prod.fst := by
    rw [map_keys]
    exact fresh
  have same : unmarked (insertMarker originalSize ((Json.object fields).mapScalars (cut toolContentPreviewChars))) =
      (Json.object fields).mapScalars (cut toolContentPreviewChars) := by
    rw [mapScalars_object]
    exact congrArg Json.object (removeField_insert kept)
  rw [same,related_mapScalars_iff]
  exact every_iff shortened_cut _

theorem marker_settled (originalSize : Nat) : (compactMarker originalSize).Every (Settled toolContentPreviewChars) := by
  refine .object fun field member => ?_
  simp only [List.mem_cons,List.not_mem_nil,or_false] at member
  rcases member with rfl | rfl | rfl <;> exact .scalar rfl

-- A marked object is the one before only where marker and strings were as they are.
theorem marked_same {fields : List (String × Content)} (sorted : (Json.object fields).Sorted) (originalSize : Nat) :
    insertMarker originalSize ((Json.object fields).mapScalars (cut toolContentPreviewChars)) = .object fields ↔
      (Json.object fields).Every (Settled toolContentPreviewChars) ∧ ("_compact",compactMarker originalSize) ∈ fields := by
  cases sorted with
  | object ascending each =>
    rw [mapScalars_object,every_object]
    show Json.object (insertField _ _ _) = _ ↔ _
    rw [Json.object.injEq]
    constructor
    · intro same
      have here : ("_compact",compactMarker originalSize) ∈ fields := same ▸ mem_insertField _ _ _
      refine ⟨fun field member => ?_,here⟩
      by_cases own : field.1 = "_compact"
      · have equal : field = ("_compact",compactMarker originalSize) := List.inj_on_of_nodup_map ascending.nodup member here own
        rw [equal]
        exact marker_settled originalSize
      · have mapped : (field.1,field.2.mapScalars (cut toolContentPreviewChars)) ∈ fields := by
          rw [← same]
          exact insertField_other own (List.mem_map_of_mem member)
        have equal := List.inj_on_of_nodup_map ascending.nodup member mapped rfl
        exact (mapScalars_same_iff _ _).mp (Prod.ext_iff.mp equal).2.symm
    · rintro ⟨settled,here⟩
      have whole : (fields.map fun field => (field.1,field.2.mapScalars (cut toolContentPreviewChars))) = fields :=
        map_same_iff.mpr fun field member => Prod.ext rfl ((mapScalars_same_iff _ _).mpr (settled field member))
      rw [whole]
      exact insertField_same ascending here

theorem marked_insert (fields : List (String × Content)) (originalSize : Nat) :
    Marked (insertMarker originalSize ((Json.object fields).mapScalars (cut toolContentPreviewChars))) := by
  rw [mapScalars_object]
  exact ⟨_,_,rfl,mem_insertField _ _ _,by simp⟩

-- Only an object can say that it was truncated.
theorem plain_iff (plain : ∀ fields, content ≠ .object fields) (originalSize : Nat) :
    (insertMarker originalSize (content.mapScalars (cut toolContentPreviewChars)) = content ∨
      Marked (insertMarker originalSize (content.mapScalars (cut toolContentPreviewChars))) ∧ content.Related (Shortened toolContentPreviewChars)
        (unmarked (insertMarker originalSize (content.mapScalars (cut toolContentPreviewChars))))) ↔ Compactable originalSize content := by
  have bare : insertMarker originalSize (content.mapScalars (cut toolContentPreviewChars)) = content.mapScalars (cut toolContentPreviewChars) ∧
      ¬Marked (content.mapScalars (cut toolContentPreviewChars)) := by
    cases content with
    | scalar s => exact ⟨rfl,fun ⟨_,_,object,_⟩ => nomatch object⟩
    | array items => exact ⟨rfl,fun ⟨_,_,object,_⟩ => nomatch object⟩
    | object fields => exact absurd rfl (plain fields)
  rw [bare.1,mapScalars_same_iff]
  constructor
  · rintro (settled | ⟨marked,-⟩)
    · exact Or.inr ⟨settled,fun fields object => absurd object (plain fields)⟩
    · exact absurd marked bare.2
  · rintro (⟨fields,object,-⟩ | ⟨settled,-⟩)
    · exact absurd object (plain fields)
    · exact Or.inl settled

theorem object_iff {fields : List (String × Content)} (sorted : (Json.object fields).Sorted) (originalSize : Nat) :
    (insertMarker originalSize ((Json.object fields).mapScalars (cut toolContentPreviewChars)) = .object fields ∨
      Marked (insertMarker originalSize ((Json.object fields).mapScalars (cut toolContentPreviewChars))) ∧
        (Json.object fields).Related (Shortened toolContentPreviewChars)
          (unmarked (insertMarker originalSize ((Json.object fields).mapScalars (cut toolContentPreviewChars))))) ↔
      Compactable originalSize (.object fields) := by
  rw [marked_same sorted]
  constructor
  · rintro (⟨settled,here⟩ | ⟨-,related⟩)
    · exact Or.inr ⟨settled,fun _ same => Json.object.inj same ▸ here⟩
    · have fresh : "_compact" ∉ fields.map Prod.fst := by
        rw [mapScalars_object] at related
        cases related with
        | object keys _ =>
          rw [keys]
          exact removeField_fresh _ _
      exact Or.inl ⟨fields,rfl,fresh,(object_shortened fresh originalSize).mp related⟩
  · rintro (⟨_,same,fresh,saved⟩ | ⟨settled,here⟩)
    · cases same
      exact Or.inr ⟨marked_insert fields originalSize,(object_shortened fresh originalSize).mpr saved⟩
    · exact Or.inl ⟨settled,here fields rfl⟩

theorem compactable_iff (sorted : content.Sorted) (originalSize : Nat) :
    (insertMarker originalSize (content.mapScalars (cut toolContentPreviewChars)) = content ∨
      Marked (insertMarker originalSize (content.mapScalars (cut toolContentPreviewChars))) ∧ content.Related (Shortened toolContentPreviewChars)
        (unmarked (insertMarker originalSize (content.mapScalars (cut toolContentPreviewChars))))) ↔ Compactable originalSize content := by
  cases content with
  | scalar s => exact @plain_iff (.scalar s) (fun _ same => nomatch same) originalSize
  | array items => exact @plain_iff (.array items) (fun _ same => nomatch same) originalSize
  | object fields => exact object_iff sorted originalSize

-- What stands in a long tool message decides whether it can be compacted.
theorem long_iff (read : rowToMessageResponse serde row = .ok full) (tool : isToolMessage full.type = true)
    (large : toolContentCompactThresholdBytes < byteLen row.content.toList) (long : ¬full.content.Every (Short toolContentPreviewChars)) :
    NeverSilent serde row ↔ Compactable (byteLen row.content.toList) full.content := by
  rw [← compactable_iff (full_content read)]
  unfold NeverSilent
  rw [compact_long read tool large long,read]
  constructor
  · rintro (same | ⟨other,content,whole,shown,marked,related⟩)
    · exact Or.inl (congrArg MessageResponse.content (Except.ok.inj same))
    · cases whole
      have same : insertMarker (byteLen row.content.toList) (full.content.mapScalars (cut toolContentPreviewChars)) = content :=
        congrArg MessageResponse.content (Except.ok.inj shown)
      subst same
      exact Or.inr ⟨marked,related⟩
  · rintro (same | ⟨marked,related⟩)
    · exact Or.inl (by rw [same])
    · exact Or.inr ⟨full,_,rfl,rfl,marked,related⟩

theorem never_silent_iff (serde : Serde) (row : MessageRow String) : NeverSilent serde row ↔
    ∀ full, rowToMessageResponse serde row = .ok full → isToolMessage full.type = true →
      toolContentCompactThresholdBytes < byteLen row.content.toList → ¬full.content.Every (Short toolContentPreviewChars) →
      Compactable (byteLen row.content.toList) full.content := by
  constructor
  · intro loud full read tool large long
    exact (long_iff read tool large long).mp loud
  · intro each
    cases read : rowToMessageResponse serde row with
    | error e =>
      refine Or.inl ?_
      unfold rowToMessageResponseCompact
      rw [read]
      rfl
    | ok full =>
      by_cases eager : isToolMessage full.type = true ∧ toolContentCompactThresholdBytes < byteLen row.content.toList ∧
          ¬full.content.Every (Short toolContentPreviewChars)
      · exact (long_iff read eager.1 eager.2.1 eager.2.2).mpr (each full read eager.1 eager.2.1 eager.2.2)
      · refine Or.inl ((compact_plain read fun tool large => ?_).trans read.symm)
        by_contra long
        exact eager ⟨tool,large,long⟩

end Compaction

section Examples

def letters (count : Nat) : String := String.ofList (List.replicate count 'a')

theorem letters_length (count : Nat) : (letters count).length = count := by
  simp [letters]

theorem letters_bytes (count : Nat) : byteLen (letters count).toList = count := by
  rw [byteLen_ascii,String.length_toList,letters_length]
  intro c member
  rw [letters,String.toList_ofList] at member
  rw [List.eq_of_mem_replicate member]
  rfl

attribute [irreducible] letters

def letterText : String := letters 70000

-- One entry of a tool group.
def groupEntry : Content := .object [("call_id",.scalar (.string "c1")),("description",.scalar (.string letterText)),
  ("name",.scalar (.string "read")),("status",.scalar (.string "completed"))]

theorem groupEntry_sorted : groupEntry.Sorted := by
  have keys : ["call_id","description","name","status"].Pairwise (· < ·) := by decide
  refine .object (List.pairwise_map.mp keys) fun field member => ?_
  simp only [List.mem_cons,List.not_mem_nil,or_false] at member
  rcases member with rfl | rfl | rfl | rfl <;> exact .scalar

def groupStart : String := "[\x7b\"call_id\":\"c1\",\"name\":\"read\",\"status\":\"completed\",\"description\":\""

def groupText : String := groupStart ++ letterText ++ "\"\x7d]"

def groupValue : Value String Scalar := ⟨.array [groupEntry],.array (by simp [groupEntry_sorted])⟩

-- `serde_json` as far as this text goes.
def groupSerde : Serde where
  fromStr _ := .ok groupValue
  unknownVariant _ := "unknown variant"

def groupRow : MessageRow String := ⟨"c1","conv1",some "c1","tool_group",groupText,some "left",some "finish",false,1000⟩

theorem letterText_length : letterText.length = 70000 := letters_length 70000

theorem byteLen_inside (before text after : List Char) : byteLen text ≤ byteLen (before ++ text ++ after) := by
  unfold byteLen
  rw [List.map_append,List.map_append,List.sum_append,List.sum_append]
  omega

theorem groupText_large : toolContentCompactThresholdBytes < byteLen groupText.toList := by
  have part := byteLen_inside groupStart.toList letterText.toList "\"\x7d]".toList
  rw [← String.toList_append,← String.toList_append] at part
  have size : byteLen letterText.toList = 70000 := letters_bytes 70000
  rw [size] at part
  exact Nat.lt_of_lt_of_le (by decide) part

theorem group_read {value : Value String Scalar} (parsed : parseContent serde row.content = .ok value) (kind : row.type = "tool_group")
    (left : row.position = some "left") (done : row.status = some "finish") :
    ∃ full, rowToMessageResponse serde row = .ok full ∧ isToolMessage full.type = true ∧ full.content = value.tree := by
  unfold rowToMessageResponse
  rw [parsed,kind,left,done]
  exact ⟨_,rfl,rfl,rfl⟩

-- The long text of a tool group is cut, and the list has no place for the marker.
theorem group_cut_silently : ¬NeverSilent groupSerde groupRow := by
  intro loud
  obtain ⟨full,read,tool,content⟩ := @group_read groupSerde groupRow groupValue rfl rfl rfl rfl
  have description : ("description",Json.scalar (Scalar.string letterText)) ∈
      [("call_id",(.scalar (.string "c1") : Content)),("description",.scalar (.string letterText)),
        ("name",.scalar (.string "read")),("status",.scalar (.string "completed"))] := by simp
  have inside {p : Scalar → Prop} (every : full.content.Every p) : p (.string letterText) := by
    rw [content,groupValue,every_array] at every
    exact every_scalar.mp (every_object.mp (every groupEntry List.mem_cons_self) _ description)
  have long : ¬full.content.Every (Short toolContentPreviewChars) := by
    intro short
    have bound : letterText.length ≤ toolContentPreviewChars := inside short
    rw [letterText_length,toolContentPreviewChars] at bound
    omega
  rcases (long_iff read tool groupText_large long).mp loud with ⟨fields,object,-⟩ | ⟨settled,-⟩
  · rw [content] at object
    cases object
  · have same : cut toolContentPreviewChars (.string letterText) = .string letterText := inside (p := Settled toolContentPreviewChars) settled
    have beyond : letterText.length > toolContentPreviewChars := by
      rw [letterText_length,toolContentPreviewChars]
      omega
    have size := @preview_length toolContentPreviewChars letterText (Nat.le_of_lt beyond)
    rw [cut,if_pos beyond,Scalar.string.injEq] at same
    rw [same,letterText_length,toolContentPreviewChars] at size
    omega

end Examples

end AlineaCopilot.MessageCompaction
