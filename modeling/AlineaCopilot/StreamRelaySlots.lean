import AlineaCopilot.StreamRelaySegments
open AlineaCopilot.KeyedMaps AlineaCopilot.MessageTable AlineaCopilot.ConversationRuntime
open AlineaCopilot.StreamPersistence AlineaCopilot.TransitionRuns

namespace AlineaCopilot.StreamRelays

-- The ids of the segments that are open, and whether the turn's own id is used.
structure Slots where
  text : Option String
  thinking : Option String
  used : Bool

abbrev Opening := SegmentKind × String

def Session.slots (session : Session) : Slots :=
  ⟨session.activeText.map TextSegmentState.id,session.activeThinking.map ThinkingSegmentState.id,session.usedPrimary⟩

def Slots.opened (slots : Slots) : List Opening :=
  slots.text.toList.map (Prod.mk .text) ++ slots.thinking.toList.map (Prod.mk .thinking)

def Slots.mint (slots : Slots) (msgId mintedId : String) : String := if slots.used then mintedId else msgId

def Slots.after (msgId : String) (slots : Slots) : Micro → Slots
  | .completeThinking _ => { slots with thinking := none }
  | .closeText _ => { slots with text := none }
  | .text received _ => match slots.text with
    | none => { slots with text := some (slots.mint msgId received.mintedId), used := true }
    | some _ => slots
  | .thinking received _ => match slots.thinking with
    | none => { slots with thinking := some (slots.mint msgId received.mintedId), used := true }
    | some _ => slots
  | _ => slots

def Slots.opens (msgId : String) (slots : Slots) : Micro → List Opening
  | .text received _ => match slots.text with
    | none => [(.text,slots.mint msgId received.mintedId)]
    | some _ => []
  | .thinking received _ => match slots.thinking with
    | none => [(.thinking,slots.mint msgId received.mintedId)]
    | some _ => []
  | _ => []

def Slots.closes (slots : Slots) : Micro → List Opening
  | .completeThinking _ => slots.thinking.toList.map (Prod.mk .thinking)
  | .closeText _ => slots.text.toList.map (Prod.mk .text)
  | _ => []

def Note.opening : Note → Option Opening
  | .opened kind id => some (kind,id)
  | _ => none

def Note.closing : Note → Option Opening
  | .closed kind id _ _ => some (kind,id)
  | _ => none

def Note.doneId : Note → Option String
  | .done id => some id
  | _ => none

def openings (log : List Note) : List Opening := log.filterMap Note.opening

def closings (log : List Note) : List Opening := log.filterMap Note.closing

def doneIds (log : List Note) : List String := log.filterMap Note.doneId

section Session
variable (relay : StreamRelay) (session : Session) (micro : Micro)

theorem flush_slots (segment : TextSegmentState) (now : Int) (active : session.activeText = some segment) :
    (relay.flush segment now session).slots = session.slots := by
  unfold StreamRelay.flush
  split <;> simp [Session.slots,StreamRelay.persisted,active]

theorem finalize_slots (received : Received) (terminal : RelayTerminal) :
    (relay.finalize received terminal session).1.slots = session.slots := by
  unfold StreamRelay.finalize
  split
  · rfl
  · split <;> rfl

theorem perform_slots : (micro.perform relay session).slots = session.slots.after relay.adapter.msgId micro := by
  cases micro with
  | completeThinking now =>
    simp only [Micro.perform,StreamRelay.completeActiveThinking]
    cases active : session.activeThinking with
    | none => simp [Session.slots,Slots.after,active]
    | some segment => rfl
  | closeText status =>
    simp only [Micro.perform,StreamRelay.closeActiveTextSegment]
    cases active : session.activeText with
    | none => simp [Session.slots,Slots.after,active]
    | some segment => rfl
  | text received content =>
    simp only [Micro.perform,textChunk,StreamRelay.openText]
    cases active : session.activeText <;> simp [Session.slots,Slots.after,Session.forward,Session.broadcast,active,
      Slots.mint,StreamRelay.mintSegmentMsgId]
  | flush now =>
    simp only [Micro.perform]
    cases active : session.activeText with
    | none => rfl
    | some segment => exact flush_slots relay session segment now active
  | thinking received data =>
    simp only [Micro.perform,thinkingChunk,StreamRelay.openThinking]
    cases active : session.activeThinking <;> simp [Session.slots,Slots.after,Session.forward,Session.broadcast,active,
      Slots.mint,StreamRelay.mintSegmentMsgId]
  | forward event => rfl
  | persist operation now => rfl
  | finalize received terminal => exact finalize_slots relay session received terminal

-- Notes of insertions are about no segment's beginning or end.
theorem noted_inserted (operation : Operation) (now : Int) (messages : Messages Content) :
    ∀ note ∈ noted relay operation now messages, ∃ id taken, note = .inserted (operationCause operation) id taken := by
  intro note inside
  unfold noted insertions at inside
  split at inside
  · cases inside
  · obtain ⟨write,_,same⟩ := List.mem_filterMap.mp inside
    cases write with
    | insert row => exact ⟨row.id,_,(Option.some.inj same).symm⟩
    | update | updateOrInsert => cases same

theorem noted_silent {β : Type} (read : Note → Option β) (blind : ∀ cause id taken, read (.inserted cause id taken) = none)
    (operation : Operation) (now : Int) (messages : Messages Content) :
    (noted relay operation now messages).filterMap read = [] := by
  refine List.filterMap_eq_nil_iff.mpr fun note inside => ?_
  obtain ⟨id,taken,rfl⟩ := noted_inserted relay operation now messages note inside
  exact blind ..

-- What a piece notes about segments.
def Micro.marks : Micro → List Note
  | .completeThinking _ => match session.activeThinking with
    | none => []
    | some segment => [.closed .thinking segment.id segment.buffer (writable relay .assistantThinkingFinalize),.done segment.id]
  | .closeText _ => match session.activeText with
    | none => []
    | some segment => [.closed .text segment.id segment.buffer (writable relay .assistantTextFinalize)]
  | .text received _ => match session.activeText with
    | none => [.opened .text (relay.mintSegmentMsgId session received.mintedId)]
    | some _ => []
  | .thinking received _ => match session.activeThinking with
    | none => [.opened .thinking (relay.mintSegmentMsgId session received.mintedId)]
    | some _ => []
  | _ => []

theorem notes_read {β : Type} (read : Note → Option β) (blind : ∀ cause id taken, read (.inserted cause id taken) = none) :
    (micro.notes relay session).filterMap read = (micro.marks relay session).filterMap read := by
  have quiet := noted_silent relay read blind
  unfold Micro.notes Micro.marks
  cases micro with
  | completeThinking now =>
    dsimp only
    cases session.activeThinking with
    | none => rfl
    | some segment => rw [List.filterMap_append,quiet,List.append_nil]
  | closeText status =>
    dsimp only
    cases session.activeText with
    | none => rfl
    | some segment => simp only [List.filterMap_cons,quiet,List.filterMap_nil]
  | flush now =>
    dsimp only
    cases session.activeText with
    | none => rfl
    | some segment => dsimp only; split; exacts [quiet ..,rfl]
  | text | thinking | forward => rfl
  | persist operation now => exact quiet ..
  | finalize received terminal =>
    dsimp only
    cases finalOperation relay received session with
    | none => rfl
    | some operation => exact quiet ..

theorem notes_openings : openings (micro.notes relay session) = session.slots.opens relay.adapter.msgId micro := by
  unfold openings
  rw [notes_read relay session micro Note.opening fun _ _ _ => rfl]
  unfold Micro.marks
  cases micro with
  | completeThinking now => cases session.activeThinking <;> rfl
  | closeText status => cases session.activeText <;> rfl
  | text received content =>
    simp only [Slots.opens,Session.slots]
    cases session.activeText <;> rfl
  | thinking received data =>
    simp only [Slots.opens,Session.slots]
    cases session.activeThinking <;> rfl
  | flush | forward | persist | finalize => rfl

theorem notes_closings : closings (micro.notes relay session) = session.slots.closes micro := by
  unfold closings
  rw [notes_read relay session micro Note.closing fun _ _ _ => rfl]
  unfold Micro.marks
  cases micro with
  | completeThinking now =>
    simp only [Slots.closes,Session.slots]
    cases session.activeThinking <;> rfl
  | closeText status =>
    simp only [Slots.closes,Session.slots]
    cases session.activeText <;> rfl
  | text received content => cases session.activeText <;> rfl
  | thinking received data => cases session.activeThinking <;> rfl
  | flush | forward | persist | finalize => rfl

-- A thinking segment is reported as done where it closes, and nowhere else.
theorem notes_done : doneIds (micro.notes relay session) =
    ((closings (micro.notes relay session)).filter fun closing => closing.1 = .thinking).map Prod.snd := by
  unfold doneIds closings
  rw [notes_read relay session micro Note.closing fun _ _ _ => rfl,notes_read relay session micro Note.doneId fun _ _ _ => rfl]
  unfold Micro.marks
  cases micro with
  | completeThinking now => cases session.activeThinking <;> rfl
  | closeText status => cases session.activeText <;> rfl
  | text received content => cases session.activeText <;> rfl
  | thinking received data => cases session.activeThinking <;> rfl
  | flush | forward | persist | finalize => rfl

end Session

section Discipline

-- What may be left to do. Text begins only where no thinking is open, and the
-- other way round; finalising comes last, and leaves nothing open unless the
-- conversation was being deleted.
def Due (ending : Option Bool) : Bool → Bool → List Micro → Prop
  | text,thinking,[] => ending = some false → text = false ∧ thinking = false
  | text,_,.completeThinking _ :: rest => Due ending text false rest
  | _,thinking,.closeText _ :: rest => Due ending false thinking rest
  | _,thinking,.text _ _ :: rest => thinking = false ∧ Due ending true false rest
  | text,_,.thinking _ _ :: rest => text = false ∧ Due ending false true rest
  | text,thinking,.finalize _ _ :: rest => ending ≠ none ∧ rest = [] ∧ Due ending text thinking rest
  | text,thinking,.flush _ :: rest | text,thinking,.forward _ :: rest | text,thinking,.persist _ _ :: rest =>
    Due ending text thinking rest

-- The id that was minted for a piece.
def Micro.minted : Micro → Option String
  | .text received _ | .thinking received _ => some received.mintedId
  | .persist (.tip mintedId _) _ | .persist (.toolGroup mintedId []) _ => some mintedId
  | .finalize received _ => if received.event.isError then some received.mintedId else none
  | _ => none

def unspent (msgId : String) (used : Bool) (todo : List Micro) : List String :=
  (if used then [] else [msgId]) ++ todo.filterMap Micro.minted

def spentOrNot (msgId : String) (slots : Slots) (todo : List Micro) (opened : List Opening) : List String :=
  opened.map Prod.snd ++ unspent msgId slots.used todo

structure Segmented (msgId : String) (minted : List String) (ending : Option Bool) (slots : Slots) (todo : List Micro)
    (opened closed : List Opening) : Prop where
  due : Due ending slots.text.isSome slots.thinking.isSome todo
  alone : slots.text = none ∨ slots.thinking = none
  balanced : opened = closed ++ slots.opened
  first : slots.used = false ∧ opened = [] ∨ slots.used = true ∧ ∃ kind rest, opened = (kind,msgId) :: rest
  distinct : (spentOrNot msgId slots todo opened).Nodup
  within : ∀ x ∈ spentOrNot msgId slots todo opened, x ∈ msgId :: minted

variable {msgId : String} {minted : List String} {ending : Option Bool} {slots : Slots} {todo rest : List Micro}
  {opened closed : List Opening} {micro : Micro}

theorem unspent_rest (msgId : String) (used : Bool) (micro : Micro) (rest : List Micro) :
    (unspent msgId used rest).Sublist (unspent msgId used (micro :: rest)) :=
  List.Sublist.append_left ((List.sublist_cons_self micro rest).filterMap _) _

-- An id that a segment takes is not there to be taken any more.
theorem mint_spent (slots : Slots) (opened : List Opening) (kind : SegmentKind) (mints : micro.minted = some x) :
    ((opened ++ [(kind,slots.mint msgId x)]).map Prod.snd ++ unspent msgId true rest).Sublist
      (spentOrNot msgId slots (micro :: rest) opened) := by
  unfold spentOrNot unspent
  rw [List.filterMap_cons_some mints,List.map_append,List.append_assoc]
  refine List.Sublist.append_left ?_ _
  unfold Slots.mint
  cases slots.used with
  | true => exact List.Sublist.refl _
  | false => exact List.Sublist.cons_cons _ (List.sublist_cons_self ..)

theorem Segmented.drop (kept : Segmented msgId minted ending slots (micro :: rest) opened closed)
    (due : Due ending slots.text.isSome slots.thinking.isSome rest) :
    Segmented msgId minted ending slots rest opened closed :=
  have fewer := List.Sublist.append_left (unspent_rest msgId slots.used micro rest) (opened.map Prod.snd)
  { kept with
    due := due
    distinct := kept.distinct.sublist fewer
    within := fun x inside => kept.within x (fewer.subset inside) }

-- A segment begins where none is open.
theorem Segmented.begin (kept : Segmented msgId minted ending slots (micro :: rest) opened closed) (kind : SegmentKind)
    (empty : slots.opened = []) (mints : micro.minted = some x) (next : Slots) (used : next.used = true)
    (holds : next.opened = [(kind,slots.mint msgId x)]) (alone : next.text = none ∨ next.thinking = none)
    (due : Due ending next.text.isSome next.thinking.isSome rest) :
    Segmented msgId minted ending next rest (opened ++ [(kind,slots.mint msgId x)]) closed := by
  have fewer : ((opened ++ [(kind,slots.mint msgId x)]).map Prod.snd ++ unspent msgId true rest).Sublist
      (spentOrNot msgId slots (micro :: rest) opened) := mint_spent slots opened kind mints
  refine ⟨due,alone,?_,.inr ⟨used,?_⟩,?_,?_⟩
  · rw [holds,kept.balanced,empty,List.append_nil]
  · rcases kept.first with ⟨unused,none⟩ | ⟨_,first,later,same⟩
    · exact ⟨kind,[],by simp [none,Slots.mint,unused]⟩
    · exact ⟨first,later ++ [_],by rw [same,List.cons_append]⟩
  · unfold spentOrNot
    rw [used]
    exact kept.distinct.sublist fewer
  · unfold spentOrNot
    rw [used]
    exact fun y inside => kept.within y (fewer.subset inside)

-- What is open ends.
theorem Segmented.finish (kept : Segmented msgId minted ending slots (micro :: rest) opened closed)
    (ended : List Opening) (next : Slots) (used : next.used = slots.used) (alone : next.text = none ∨ next.thinking = none)
    (moved : slots.opened = ended ++ next.opened) (due : Due ending next.text.isSome next.thinking.isSome rest) :
    Segmented msgId minted ending next rest opened (closed ++ ended) := by
  have fewer := List.Sublist.append_left (unspent_rest msgId slots.used micro rest) (opened.map Prod.snd)
  refine ⟨due,alone,?_,used.symm ▸ kept.first,?_,?_⟩
  · rw [kept.balanced,moved,List.append_assoc]
  · unfold spentOrNot
    rw [used]
    exact kept.distinct.sublist fewer
  · unfold spentOrNot
    rw [used]
    exact fun x inside => kept.within x (fewer.subset inside)

theorem Segmented.step (kept : Segmented msgId minted ending slots (micro :: rest) opened closed) :
    Segmented msgId minted ending (slots.after msgId micro) rest (opened ++ slots.opens msgId micro)
      (closed ++ slots.closes micro) := by
  have due := kept.due
  cases micro with
  | completeThinking now =>
    have moved : slots.opened = slots.closes (.completeThinking now) ++ ({ slots with thinking := none } : Slots).opened := by
      rcases kept.alone with none | none <;> simp [Slots.opened,Slots.closes,none]
    simpa [Slots.after,Slots.opens] using kept.finish _ { slots with thinking := none } rfl (.inr rfl) moved due
  | closeText status =>
    have moved : slots.opened = slots.closes (.closeText status) ++ ({ slots with text := none } : Slots).opened := by
      simp [Slots.opened,Slots.closes]
    simpa [Slots.after,Slots.opens] using kept.finish _ { slots with text := none } rfl (.inl rfl) moved due
  | text received content =>
    obtain ⟨calm,due⟩ := due
    have none : slots.thinking = none := Option.isNone_iff_eq_none.mp (by simpa using calm)
    cases active : slots.text with
    | none =>
      have begun := kept.begin .text (by simp [Slots.opened,active,none]) rfl
        { slots with text := some (slots.mint msgId received.mintedId), used := true } rfl (by simp [Slots.opened,none])
        (.inr none) (by simpa [none] using due)
      simpa [Slots.after,Slots.opens,Slots.closes,active] using begun
    | some id =>
      have dropped := kept.drop (by simpa [active,none] using due)
      simpa [Slots.after,Slots.opens,Slots.closes,active] using dropped
  | thinking received data =>
    obtain ⟨silent,due⟩ := due
    have none : slots.text = none := Option.isNone_iff_eq_none.mp (by simpa using silent)
    cases active : slots.thinking with
    | none =>
      have begun := kept.begin .thinking (by simp [Slots.opened,active,none]) rfl
        { slots with thinking := some (slots.mint msgId received.mintedId), used := true } rfl (by simp [Slots.opened,none])
        (.inl none) (by simpa [none] using due)
      simpa [Slots.after,Slots.opens,Slots.closes,active] using begun
    | some id =>
      have dropped := kept.drop (by simpa [active,none] using due)
      simpa [Slots.after,Slots.opens,Slots.closes,active] using dropped
  | finalize received terminal => simpa [Slots.after,Slots.opens,Slots.closes] using kept.drop due.2.2
  | flush | forward | persist => simpa [Slots.after,Slots.opens,Slots.closes] using kept.drop due

end Discipline

section Arrivals
variable {msgId : String} {minted : List String} {ending : Option Bool} {slots : Slots} {todo : List Micro}
  {opened closed : List Opening}

theorem due_event (received : Received) (text thinking : Bool) :
    Due none text thinking (eventMicros received) := by
  unfold eventMicros
  cases received.event with
  | text content => exact ⟨rfl,nofun⟩
  | thinking data =>
    dsimp only
    split
    · exact nofun
    · exact ⟨rfl,nofun⟩
  | tips data =>
    dsimp only [tipMicros]
    cases data.tipType <;> exact nofun
  | toolCall | acpToolCall | toolGroup | other | finish | error => exact nofun

theorem due_terminal (received : Received) (deleting text thinking : Bool) :
    Due (some deleting) text thinking (terminalMicros received deleting) := by
  cases deleting with
  | true => exact nofun
  | false => exact ⟨nofun,rfl,fun _ => ⟨rfl,rfl⟩⟩

theorem due_closed (relay : StreamRelay) (deleting text thinking : Bool) :
    Due (some deleting) text thinking (closedMicros relay deleting) := by
  cases deleting with
  | true => exact nofun
  | false => exact ⟨nofun,rfl,fun _ => ⟨rfl,rfl⟩⟩

theorem minted_event (received : Received) :
    ((eventMicros received).filterMap Micro.minted).Sublist [received.mintedId] := by
  unfold eventMicros
  cases received.event with
  | text content => exact List.Sublist.refl _
  | thinking data =>
    dsimp only
    split
    · exact List.nil_sublist _
    · exact List.Sublist.refl _
  | tips data =>
    dsimp only [tipMicros]
    cases data.tipType with
    | success | warning | info => exact List.Sublist.refl _
    | error => exact List.nil_sublist _
  | toolGroup entries =>
    cases entries with
    | nil => exact List.Sublist.refl _
    | cons entry entries => exact List.nil_sublist _
  | toolCall | acpToolCall | other | finish | error => exact List.nil_sublist _

theorem minted_terminal (received : Received) (deleting : Bool) :
    ((terminalMicros received deleting).filterMap Micro.minted).Sublist [received.mintedId] := by
  cases deleting with
  | true => exact List.nil_sublist _
  | false =>
    simp only [terminalMicros,closeMicros,Bool.false_eq_true,if_false,List.cons_append,List.nil_append,List.filterMap_cons,
      Micro.minted]
    cases received.event.isError with
    | true => exact List.Sublist.refl _
    | false => exact List.nil_sublist _

theorem minted_closed (relay : StreamRelay) (deleting : Bool) : (closedMicros relay deleting).filterMap Micro.minted = [] := by
  cases deleting <;> rfl

theorem Segmented.more (kept : Segmented msgId minted ending slots todo opened closed) (later : List String) :
    Segmented msgId (minted ++ later) ending slots todo opened closed := by
  refine { kept with within := fun x inside => ?_ }
  rw [← List.cons_append]
  exact List.mem_append_left _ (kept.within x inside)

-- A handler starts with an id of its own, or with none.
theorem Segmented.receive (kept : Segmented msgId minted none slots [] opened closed)
    (due : Due ending slots.text.isSome slots.thinking.isSome todo) (fewer : (todo.filterMap Micro.minted).Sublist [x])
    (new : x ∉ msgId :: minted) : Segmented msgId (minted ++ [x]) ending slots todo opened closed := by
  have less : (spentOrNot msgId slots todo opened).Sublist (spentOrNot msgId slots [] opened ++ [x]) := by
    simp only [spentOrNot,unspent,List.filterMap_nil,List.append_nil,List.append_assoc]
    exact List.Sublist.append_left (List.Sublist.append_left fewer _) _
  refine { kept with due := due, distinct := List.Nodup.sublist less ?_, within := fun y inside => ?_ }
  · refine List.nodup_append.mpr ⟨kept.distinct,List.nodup_singleton x,fun y earlier z last same => ?_⟩
    cases List.mem_singleton.mp last
    exact new (same ▸ kept.within y earlier)
  · rw [← List.cons_append]
    exact List.mem_append.mpr ((List.mem_append.mp (less.subset inside)).imp_left (kept.within y))

theorem Segmented.conclude (kept : Segmented msgId minted none slots [] opened closed)
    (due : Due ending slots.text.isSome slots.thinking.isSome todo) (none : todo.filterMap Micro.minted = []) :
    Segmented msgId minted ending slots todo opened closed := by
  have same : spentOrNot msgId slots todo opened = spentOrNot msgId slots [] opened := by
    simp only [spentOrNot,unspent,none,List.filterMap_nil]
  exact { kept with due := due, distinct := same ▸ kept.distinct, within := same ▸ kept.within }

end Arrivals

end AlineaCopilot.StreamRelays
