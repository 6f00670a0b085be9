import AlineaCopilot.ChannelRelays
open AlineaCopilot.ChannelRelays AlineaCopilot.StreamRelays

namespace AlineaCopilot.ChannelReplies

-- An event with whether the throttle interval has passed when it comes in.
abbrev Arrival := Bool × AgentStreamEvent

-- How a stream ends: by its first terminal event, or by the channel.
inductive Ending where
  | finish
  | error (message : String)
  | closed
deriving DecidableEq, Repr

section Streams

def ending : List Arrival → Ending
  | [] => .closed
  | (_,event) :: rest => match processStreamEvent event with
    | some .finish => .finish
    | some (.error message) => .error message
    | _ => ending rest

-- The actions before the stream ends.
def heard : List Arrival → List StreamAction
  | [] => []
  | (_,event) :: rest => match processStreamEvent event with
    | some .finish | some (.error _) => []
    | some action => action :: heard rest
    | none => heard rest

def chunk : StreamAction → String
  | .appendText chunk => chunk
  | .finish | .error _ | .thinking _ | .toolCall _ => ""

def StreamedText (arrivals : List Arrival) : String := String.join ((heard arrivals).map chunk)

def hasChunk (actions : List StreamAction) : Bool := actions.any fun action => match action with
  | .appendText _ => true
  | .finish | .error _ | .thinking _ | .toolCall _ => false

def blank (text : String) : Bool := (RustText.trim text).isEmpty

-- The streamed text, cut at each tool call that finds text pending, and what is
-- pending in the end.
def cut : String → List StreamAction → List String × String
  | pending,[] => ([],pending)
  | pending,.appendText chunk :: rest => cut (pending ++ chunk) rest
  | pending,.toolCall _ :: rest =>
    if blank pending then cut pending rest else (pending :: (cut "" rest).1,(cut "" rest).2)
  | pending,_ :: rest => cut pending rest

def pieces (arrivals : List Arrival) : List String := (cut "" (heard arrivals)).1 ++ [(cut "" (heard arrivals)).2]

theorem cut_joins (pending : String) (actions : List StreamAction) :
    String.join ((cut pending actions).1 ++ [(cut pending actions).2]) = pending ++ String.join (actions.map chunk) := by
  induction actions generalizing pending with
  | nil => simp [cut]
  | cons action rest ih =>
    rw [List.map_cons,String.join_cons]
    cases action with
    | appendText text => rw [cut,ih,chunk,String.append_assoc]
    | toolCall name =>
      rw [cut,chunk,String.empty_append]
      split
      · exact ih pending
      · rw [List.cons_append,String.join_cons,ih "",String.empty_append]
    | thinking | finish | error => exact (ih pending).trans (by rw [chunk,String.empty_append])

-- A piece is cut off only where it has text.
theorem cut_visible (pending : String) (actions : List StreamAction) : ∀ piece ∈ (cut pending actions).1, blank piece = false := by
  induction actions generalizing pending with
  | nil => nofun
  | cons action rest ih =>
    cases action with
    | appendText text => exact ih (pending ++ text)
    | toolCall name =>
      rw [cut]
      split
      · exact ih pending
      · rename_i visible
        intro piece inside
        rcases List.mem_cons.mp inside with rfl | later
        · exact Bool.eq_false_iff.mpr visible
        · exact ih "" piece later
    | thinking | finish | error => exact ih pending

end Streams

section Platforms

def messageLimit : PluginType → Option Nat
  | .telegram => some 4096
  | .lark | .dingtalk => some 4000
  | .slack | .discord | .weixin => none

-- The limit is compared with the bytes, and the characters are cut.
def truncateMessage (text : String) (limit : Nat) : String :=
  if text.utf8ByteSize ≤ limit then text else String.ofList (text.toList.take (limit - 3)) ++ "..."

def displayed (platform : PluginType) (message : Outgoing) : Outgoing := match messageLimit platform with
  | some limit => { message with text := truncateMessage message.text limit }
  | none => message

-- What ends with the dots anyhow may have as many characters as the limit.
def Fits (platform : PluginType) (text : String) : Prop :=
  ∀ limit, messageLimit platform = some limit →
    text.utf8ByteSize ≤ limit ∨ text.toList.length = limit ∧ ['.','.','.'] <:+ text.toList

theorem truncate_same (text : String) (limit : Nat) (room : 3 ≤ limit) :
    truncateMessage text limit = text ↔
      text.utf8ByteSize ≤ limit ∨ text.toList.length = limit ∧ ['.','.','.'] <:+ text.toList := by
  unfold truncateMessage
  split
  · rename_i short
    exact ⟨fun _ => .inl short,fun _ => rfl⟩
  · rename_i long
    rw [← String.toList_inj,String.toList_append,String.toList_ofList,or_iff_right long]
    constructor
    · intro same
      have counted := congrArg List.length same
      rw [List.length_append,List.length_take] at counted
      have dots : "...".toList.length = 3 := rfl
      exact ⟨by omega,_,same⟩
    · rintro ⟨counted,kept,whole⟩
      have cutAt : limit - 3 = kept.length := by
        have counted' := congrArg List.length whole
        rw [List.length_append,counted] at counted'
        have dots : ['.','.','.'].length = 3 := rfl
        omega
      rw [← whole,cutAt,List.take_left]
      rfl

theorem displayed_same (platform : PluginType) (message : Outgoing) :
    displayed platform message = message ↔ Fits platform message.text := by
  unfold displayed Fits
  cases limited : messageLimit platform with
  | none => exact ⟨fun _ => nofun,fun _ => rfl⟩
  | some limit =>
    have room : 3 ≤ limit := by cases platform <;> cases limited <;> decide
    have texts : ({ message with text := truncateMessage message.text limit } : Outgoing) = message ↔
        truncateMessage message.text limit = message.text :=
      ⟨congrArg Outgoing.text,fun same => by rw [same]⟩
    exact (texts.trans (truncate_same message.text limit room)).trans
      ⟨fun fits _ same => Option.some.inj same ▸ fits,fun fits => fits limit rfl⟩

end Platforms

section Relay
variable (format : PluginType → String → String)

-- `run`: the loop ends with the first terminal event, or with the channel.
def run (relay : ChannelStreamRelay) : List Arrival → ChannelStreamRelay
  | [] => relay.onClosed format
  | (due,event) :: rest =>
    let next := relay.onEvent format due event
    if next.phase = .exited then next else run next rest

-- The relay of a reply, once its placeholder is sent.
def started (platform : PluginType) : ChannelStreamRelay :=
  let relay := ChannelStreamRelay.spawn platform 0 0
  if isWeixinPlatform platform then relay else relay.sendPlaceholder true

def shown (platform : PluginType) (arrivals : List Arrival) : List Outgoing := (run format (started platform) arrivals).shown

-- The texts sent before the final error notice.
def sentTexts (platform : PluginType) (arrivals : List Arrival) : List String :=
  match ending arrivals with
  | .error _ => ((shown format platform arrivals).map Outgoing.text).dropLast
  | .finish | .closed => (shown format platform arrivals).map Outgoing.text

-- DingTalk takes an edit with buttons for the final one.
def lastEditFinal (outgoing : List Outgoing) : Bool := ((outgoing.filter Outgoing.edit).getLast?.map Outgoing.buttons).getD false

-- The placeholder, and the edits of it that tell of a tool.
def placeholders (actions : List StreamAction) : List Outgoing :=
  ⟨false,false,"⏳ Thinking..."⟩ :: actions.filterMap fun action => match action with
    | .toolCall name => some ⟨true,false,"⏳ " ++ name ++ "..."⟩
    | .appendText _ | .finish | .error _ | .thinking _ => none

def Delivered (platform : PluginType) (arrivals : List Arrival) : Prop :=
  if isWeixinPlatform platform then
    String.join (pieces arrivals) = StreamedText arrivals ∧
    sentTexts format platform arrivals = ((pieces arrivals).filter fun piece => !blank piece).map (format platform)
  else
    (ending arrivals = .finish → (shown format platform arrivals).getLast?.map (displayed platform) =
      some ⟨true,true,format platform (StreamedText arrivals)⟩) ∧
    (∀ last, (shown format platform arrivals).getLast? = some last → last ∉ placeholders (heard arrivals)) ∧
    (platform = .dingtalk → lastEditFinal (shown format platform arrivals) = true)

-- On WeChat, no text is pending when an error comes. Elsewhere there is some text
-- unless an error comes, after a finish the text is short enough, and on DingTalk
-- no error comes.
def Deliverable (platform : PluginType) (arrivals : List Arrival) : Prop :=
  if isWeixinPlatform platform then ∀ message, ending arrivals = .error message → blank (cut "" (heard arrivals)).2 = true
  else
    ((∀ message, ending arrivals ≠ .error message) → hasChunk (heard arrivals) = true) ∧
    (ending arrivals = .finish → Fits platform (format platform (StreamedText arrivals))) ∧
    (platform = .dingtalk → ∀ message, ending arrivals ≠ .error message)

end Relay

section Weixin
variable {format : PluginType → String → String} {relay : ChannelStreamRelay}

def weixinEnd (format : PluginType → String → String) (pending : String) : Ending → List Outgoing
  | .error message => [⟨false,false,"❌ " ++ message⟩]
  | .finish | .closed => if blank pending then [] else [⟨false,true,format .weixin pending⟩]

theorem hasText_exact (empty : relay.hasContent = false → relay.textBuffer = "") : relay.hasText = !blank relay.textBuffer := by
  unfold ChannelStreamRelay.hasText
  cases content : relay.hasContent with
  | true => rfl
  | false =>
    rw [empty content]
    rfl

theorem weixin_flush (weixin : relay.platform = .weixin) (buttons : Bool) (pending : relay.hasText = true) :
    ((if relay.hasText then relay.puts buttons (relay.formatted format) else relay).exit).shown =
      relay.shown ++ [⟨false,buttons,format .weixin relay.textBuffer⟩] := by
  rw [if_pos pending]
  simp [ChannelStreamRelay.exit,ChannelStreamRelay.puts,ChannelStreamRelay.formatted,weixin,isWeixinPlatform]

theorem weixin_final (weixin : relay.platform = .weixin) (empty : relay.hasContent = false → relay.textBuffer = "") :
    ((if relay.hasText then relay.puts true (relay.formatted format) else relay).exit).shown =
      relay.shown ++ if blank relay.textBuffer then [] else [⟨false,true,format .weixin relay.textBuffer⟩] := by
  cases pending : blank relay.textBuffer with
  | true =>
    rw [if_neg (by rw [hasText_exact empty,pending]; decide),if_pos rfl,List.append_nil]
    rfl
  | false =>
    rw [weixin_flush weixin true (by rw [hasText_exact empty,pending]; rfl),if_neg Bool.false_ne_true]

theorem run_weixin (weixin : relay.platform = .weixin) (relaying : relay.phase = .relaying)
    (empty : relay.hasContent = false → relay.textBuffer = "") (arrivals : List Arrival) :
    (run format relay arrivals).shown = relay.shown ++
      ((cut relay.textBuffer (heard arrivals)).1.map fun piece => ⟨false,false,format .weixin piece⟩) ++
      weixinEnd format (cut relay.textBuffer (heard arrivals)).2 (ending arrivals) := by
  have platform : isWeixinPlatform relay.platform = true := by simp [isWeixinPlatform,weixin]
  induction arrivals generalizing relay with
  | nil =>
    simp only [run,ChannelStreamRelay.onClosed,platform,if_true,heard,cut,ending,weixinEnd,List.map_nil,List.append_nil]
    exact weixin_final weixin empty
  | cons arrival rest ih =>
    obtain ⟨due,event⟩ := arrival
    have goesOn : relay.phase ≠ .exited := by simp [relaying]
    simp only [run,ChannelStreamRelay.onEvent,platform,if_true,ChannelStreamRelay.onEventWeixin,heard,ending]
    cases processStreamEvent event with
    | none =>
      simp only [goesOn,if_false]
      exact ih weixin relaying empty platform
    | some action =>
      cases action with
      | appendText text =>
        simp only [ChannelStreamRelay.append,goesOn,if_false,cut]
        exact @ih (relay.append text) weixin relaying nofun platform
      | thinking content =>
        simp only [goesOn,if_false,cut]
        exact ih weixin relaying empty platform
      | toolCall name =>
        simp only [hasText_exact empty,cut]
        cases pending : blank relay.textBuffer with
        | true =>
          simp only [Bool.not_true,Bool.false_eq_true,if_false,if_true,goesOn]
          exact ih weixin relaying empty platform
        | false =>
          have flushed := @ih { relay.puts false (relay.formatted format) with textBuffer := "", hasContent := false } weixin
            relaying (fun _ => rfl) platform
          simp only [Bool.not_false,Bool.false_eq_true,if_false,if_true]
          rw [if_neg (show (relay.puts false (relay.formatted format)).phase ≠ .exited from goesOn),flushed]
          simp [ChannelStreamRelay.puts,ChannelStreamRelay.formatted,weixin,isWeixinPlatform]
      | finish =>
        simp only [ChannelStreamRelay.exit,if_true,cut,weixinEnd,List.map_nil,List.append_nil]
        exact weixin_final weixin empty
      | error message =>
        simp [ChannelStreamRelay.exit,ChannelStreamRelay.puts,cut,weixinEnd,platform]

end Weixin

section Editable
variable {format : PluginType → String → String} {relay : ChannelStreamRelay}

def editableEnd (format : PluginType → String → String) (platform : PluginType) (hasContent : Bool) (text : String) :
    Ending → List Outgoing
  | .error message => [⟨true,false,"❌ " ++ message⟩]
  | .finish | .closed => if hasContent then [⟨true,true,format platform text⟩] else []

theorem editable_final (editable : isWeixinPlatform relay.platform = false) :
    ((relay.sendFinalEdit format).exit).shown =
      relay.shown ++ if relay.hasContent then [⟨true,true,format relay.platform relay.textBuffer⟩] else [] := by
  unfold ChannelStreamRelay.sendFinalEdit
  split <;> simp [ChannelStreamRelay.exit,ChannelStreamRelay.puts,ChannelStreamRelay.formatted,editable]

-- An edit made while the stream goes on. Without text it tells of a tool.
structure Streaming (actions : List StreamAction) (message : Outgoing) : Prop where
  edit : message.edit = true
  buttons : message.buttons = false
  placeholder : hasChunk actions = false → message ∈ placeholders actions

theorem Streaming.later {actions : List StreamAction} {message : Outgoing} (streaming : Streaming actions message) (action : StreamAction) :
    Streaming (action :: actions) message := by
  refine ⟨streaming.edit,streaming.buttons,fun silent => ?_⟩
  have rest := streaming.placeholder (Bool.or_eq_false_iff.mp silent).2
  rcases List.mem_cons.mp rest with first | tool
  · exact List.mem_cons.mpr (.inl first)
  · refine List.mem_cons_of_mem _ ?_
    rw [List.filterMap_cons]
    split
    · exact tool
    · exact List.mem_cons_of_mem _ tool

theorem run_editable (editable : isWeixinPlatform relay.platform = false) (relaying : relay.phase = .relaying) (arrivals : List Arrival) :
    ∃ edits : List Outgoing, (∀ edit ∈ edits, Streaming (heard arrivals) edit) ∧
      (run format relay arrivals).shown = relay.shown ++ edits ++
        editableEnd format relay.platform (relay.hasContent || hasChunk (heard arrivals))
          (relay.textBuffer ++ StreamedText arrivals) (ending arrivals) := by
  induction arrivals generalizing relay with
  | nil =>
    refine ⟨[],nofun,?_⟩
    simp only [run,ChannelStreamRelay.onClosed,editable,Bool.false_eq_true,if_false,ending,editableEnd,heard,hasChunk,List.any_nil,
      Bool.or_false,StreamedText,List.map_nil,String.join_nil,String.append_empty,List.append_nil]
    exact editable_final editable
  | cons arrival rest ih =>
    obtain ⟨due,event⟩ := arrival
    have goesOn : relay.phase ≠ .exited := by simp [relaying]
    simp only [run,ChannelStreamRelay.onEvent,editable,Bool.false_eq_true,if_false,ChannelStreamRelay.onEventEditable,heard,ending,StreamedText]
    cases processStreamEvent event with
    | none =>
      simp only [goesOn,if_false]
      exact ih editable relaying
    | some action =>
      cases action with
      | appendText text =>
        simp only [List.map_cons,String.join_cons,chunk]
        cases due with
        | true =>
          obtain ⟨edits,streaming,shown⟩ := @ih ((relay.append text).puts false ((relay.append text).formatted format)) editable relaying
          refine ⟨⟨true,false,(relay.append text).formatted format⟩ :: edits,
            List.forall_mem_cons.mpr ⟨⟨rfl,rfl,nofun⟩,fun edit inside => (streaming edit inside).later _⟩,?_⟩
          rw [if_pos rfl,if_neg (show ((relay.append text).puts false ((relay.append text).formatted format)).phase ≠ .exited from goesOn),shown]
          simp [ChannelStreamRelay.puts,ChannelStreamRelay.append,editable,String.append_assoc,StreamedText,hasChunk]
        | false =>
          obtain ⟨edits,streaming,shown⟩ := @ih (relay.append text) editable relaying
          refine ⟨edits,fun edit inside => (streaming edit inside).later _,?_⟩
          rw [if_neg Bool.false_ne_true,if_neg (show (relay.append text).phase ≠ .exited from goesOn),shown]
          simp [ChannelStreamRelay.append,String.append_assoc,StreamedText,hasChunk]
      | thinking content =>
        obtain ⟨edits,streaming,shown⟩ := ih editable relaying
        refine ⟨edits,fun edit inside => (streaming edit inside).later _,?_⟩
        rw [if_neg goesOn,shown]
        simp [StreamedText,chunk,hasChunk]
      | toolCall name =>
        obtain ⟨edits,streaming,shown⟩ := @ih (relay.puts false ("⏳ " ++ name ++ "...")) editable relaying
        refine ⟨⟨true,false,"⏳ " ++ name ++ "..."⟩ :: edits,List.forall_mem_cons.mpr
          ⟨⟨rfl,rfl,fun _ => List.mem_cons_of_mem _ List.mem_cons_self⟩,fun edit inside => (streaming edit inside).later _⟩,?_⟩
        rw [if_neg (show (relay.puts false ("⏳ " ++ name ++ "...")).phase ≠ .exited from goesOn),shown]
        simp [ChannelStreamRelay.puts,editable,StreamedText,chunk,hasChunk]
      | finish =>
        refine ⟨[],nofun,?_⟩
        have exited : ((relay.sendFinalEdit format).exit).phase = .exited := rfl
        simp only [exited,if_true,editable_final editable]
        simp [editableEnd,hasChunk]
      | error message =>
        refine ⟨[],nofun,?_⟩
        simp [ChannelStreamRelay.exit,ChannelStreamRelay.puts,editable,editableEnd]

theorem placeholders_plain {actions : List StreamAction} {message : Outgoing} (inside : message ∈ placeholders actions) :
    message.buttons = false ∧ ∃ rest, message.text = "⏳ " ++ rest := by
  rcases List.mem_cons.mp inside with rfl | tool
  · exact ⟨rfl,"Thinking...",by decide⟩
  · obtain ⟨action,-,told⟩ := List.mem_filterMap.mp tool
    cases action with
    | toolCall name =>
      cases told
      exact ⟨rfl,name ++ "...",String.append_assoc ..⟩
    | appendText | finish | error | thinking => cases told

theorem error_no_placeholder (actions : List StreamAction) (message : String) : ⟨true,false,"❌ " ++ message⟩ ∉ placeholders actions := by
  intro inside
  obtain ⟨-,rest,same⟩ := placeholders_plain inside
  have letters := congrArg String.toList same
  rw [String.toList_append,String.toList_append] at letters
  exact absurd (List.cons.inj letters).1 (by decide)

theorem lastEditFinal_last (before : List Outgoing) {message : Outgoing} (edit : message.edit = true) :
    lastEditFinal (before ++ [message]) = message.buttons := by
  rw [lastEditFinal,List.filter_append,List.filter_singleton,edit]
  simp

end Editable

section Replies
variable {format : PluginType → String → String}

theorem shown_weixin (arrivals : List Arrival) : shown format .weixin arrivals =
    ((cut "" (heard arrivals)).1.map fun piece => ⟨false,false,format .weixin piece⟩) ++
      weixinEnd format (cut "" (heard arrivals)).2 (ending arrivals) :=
  run_weixin rfl rfl (fun _ => rfl) arrivals

theorem shown_editable {platform : PluginType} (editable : isWeixinPlatform platform = false) (arrivals : List Arrival) :
    ∃ edits : List Outgoing, (∀ edit ∈ edits, Streaming (heard arrivals) edit) ∧
      shown format platform arrivals = ⟨false,false,"⏳ Thinking..."⟩ :: edits ++
        editableEnd format platform (hasChunk (heard arrivals)) (StreamedText arrivals) (ending arrivals) := by
  have start : started platform = (ChannelStreamRelay.spawn platform 0 0).sendPlaceholder true := by rw [started]; simp [editable]
  obtain ⟨edits,streaming,whole⟩ := @run_editable format (started platform) (by rw [start]; exact editable) (by rw [start]; rfl) arrivals
  refine ⟨edits,streaming,whole.trans ?_⟩
  rw [start]
  simp [ChannelStreamRelay.spawn,ChannelStreamRelay.sendPlaceholder]

theorem pieces_visible (arrivals : List Arrival) : (pieces arrivals).filter (fun piece => !blank piece) =
    (cut "" (heard arrivals)).1 ++ if blank (cut "" (heard arrivals)).2 then [] else [(cut "" (heard arrivals)).2] := by
  rw [pieces,List.filter_append,List.filter_eq_self.mpr fun piece inside => by rw [cut_visible _ _ piece inside]; rfl]
  cases pending : blank (cut "" (heard arrivals)).2 <;> simp [pending]

theorem weixin_delivered (arrivals : List Arrival) : Delivered format .weixin arrivals ↔ Deliverable format .weixin arrivals := by
  have weixin : isWeixinPlatform .weixin = true := rfl
  have joins : String.join (pieces arrivals) = StreamedText arrivals := (cut_joins "" _).trans String.empty_append
  rw [Delivered,Deliverable,if_pos weixin,if_pos weixin,and_iff_right joins,pieces_visible,sentTexts,shown_weixin]
  cases ends : ending arrivals with
  | error message =>
    have sent : ((((cut "" (heard arrivals)).1.map fun piece => (⟨false,false,format .weixin piece⟩ : Outgoing)) ++
        weixinEnd format (cut "" (heard arrivals)).2 (.error message)).map Outgoing.text).dropLast =
        (cut "" (heard arrivals)).1.map (format .weixin) := by
      rw [weixinEnd,List.map_append,List.map_singleton,List.dropLast_concat,List.map_map]
      rfl
    rw [sent,List.map_append]
    cases pending : blank (cut "" (heard arrivals)).2 <;> simp
  | finish | closed =>
    refine iff_of_true ?_ nofun
    rw [weixinEnd,List.map_append,List.map_append,List.map_map]
    cases pending : blank (cut "" (heard arrivals)).2 <;> simp

theorem editable_delivered {platform : PluginType} (editable : isWeixinPlatform platform = false) (arrivals : List Arrival) :
    Delivered format platform arrivals ↔ Deliverable format platform arrivals := by
  obtain ⟨edits,streaming,whole⟩ := @shown_editable format platform editable arrivals
  rw [Delivered,Deliverable,if_neg (by simp [editable]),if_neg (by simp [editable]),whole]
  by_cases failed : ∃ message, ending arrivals = .error message
  · obtain ⟨message,ends⟩ := failed
    have last : lastEditFinal (⟨false,false,"⏳ Thinking..."⟩ :: edits ++ [⟨true,false,"❌ " ++ message⟩]) = false :=
      lastEditFinal_last (⟨false,false,"⏳ Thinking..."⟩ :: edits) rfl
    rw [ends,editableEnd,List.getLast?_concat,last]
    constructor
    · rintro ⟨-,-,card⟩
      exact ⟨fun going => absurd rfl (going message),nofun,fun dingtalk => absurd (card dingtalk) Bool.false_ne_true⟩
    · rintro ⟨-,-,card⟩
      refine ⟨nofun,?_,fun dingtalk => absurd rfl (card dingtalk message)⟩
      intro last same
      cases same
      exact error_no_placeholder _ message
  · have going : ∀ message, ending arrivals ≠ .error message := fun message ends => failed ⟨message,ends⟩
    have closes : editableEnd format platform (hasChunk (heard arrivals)) (StreamedText arrivals) (ending arrivals) =
        if hasChunk (heard arrivals) then [⟨true,true,format platform (StreamedText arrivals)⟩] else [] := by
      cases ends : ending arrivals with
      | error message => exact absurd ends (going message)
      | finish | closed => rfl
    rw [closes]
    cases texts : hasChunk (heard arrivals) with
    | true =>
      have last : lastEditFinal (⟨false,false,"⏳ Thinking..."⟩ :: edits ++ [⟨true,true,format platform (StreamedText arrivals)⟩]) = true :=
        lastEditFinal_last (⟨false,false,"⏳ Thinking..."⟩ :: edits) rfl
      rw [if_pos rfl,List.getLast?_concat,last]
      have fits := displayed_same platform ⟨true,true,format platform (StreamedText arrivals)⟩
      constructor
      · rintro ⟨whole,-,-⟩
        exact ⟨fun _ => rfl,fun finished => fits.mp (Option.some.inj (whole finished)),fun _ => going⟩
      · rintro ⟨-,short,-⟩
        refine ⟨fun finished => congrArg some (fits.mpr (short finished)),?_,fun _ => rfl⟩
        intro last same
        cases same
        exact fun inside => Bool.false_ne_true (placeholders_plain inside).1.symm
    | false =>
      rw [if_neg Bool.false_ne_true,List.append_nil]
      refine iff_of_false ?_ fun deliverable => Bool.false_ne_true (deliverable.1 going)
      rintro ⟨-,told,-⟩
      have ends := List.getLast?_eq_getLast_of_ne_nil (List.cons_ne_nil (⟨false,false,"⏳ Thinking..."⟩ : Outgoing) edits)
      refine told _ ends ?_
      rcases List.mem_cons.mp (List.getLast_mem (List.cons_ne_nil _ edits)) with first | edit
      · rw [first]
        exact List.mem_cons_self
      · exact (streaming _ edit).placeholder texts

theorem replies_iff (format : PluginType → String → String) (platform : PluginType) (arrivals : List Arrival) :
    Delivered format platform arrivals ↔ Deliverable format platform arrivals := by
  cases weixin : isWeixinPlatform platform with
  | true =>
    rw [of_decide_eq_true weixin]
    exact weixin_delivered arrivals
  | false => exact editable_delivered weixin arrivals

end Replies

section Examples

-- A reply without text leaves the placeholder.
example : shown (fun _ text => text) .lark [(true,.finish)] = [⟨false,false,"⏳ Thinking..."⟩] := by decide

theorem pending_text_dropped : ¬∀ (format : PluginType → String → String) (platform : PluginType) (arrivals : List Arrival),
    Delivered format platform arrivals := by
  intro claimed
  have delivered := claimed (fun _ text => text) .weixin [(true,.text "Half of it"),(true,.error ⟨"agent crashed","\x7b\"message\":\"agent crashed\"\x7d"⟩ none none)]
  have weixin : isWeixinPlatform .weixin = true := rfl
  rw [Delivered,if_pos weixin] at delivered
  exact absurd delivered.2 (by decide)

end Examples

end AlineaCopilot.ChannelReplies
