import AlineaCopilot.StreamRelayFaithful
import AlineaCopilot.StreamRelayGrowth
open AlineaCopilot.KeyedMaps AlineaCopilot.MessageTable AlineaCopilot.ConversationRuntime
open AlineaCopilot.StreamPersistence AlineaCopilot.TransitionRuns

namespace AlineaCopilot.StreamRelays

-- What pieces ask the table for beside segments: tips, and what the agent's tools
-- do, under the agent's ids.
def Asked (calls : List String) : Micro → Prop
  | .persist (.tip _ _) _ | .persist (.toolGroup _ []) _ => True
  | .persist (.toolCall data) _ => data.callId ∈ calls
  | .persist (.acpToolCall data) _ => data.toolCallId ∈ calls
  | .persist (.toolGroup _ (entry :: _)) _ => entry.callId ∈ calls
  | .persist _ _ => False
  | _ => True

-- An id that a row is still to be inserted under.
def Waiting (msgId : String) (session : Session) (todo : List Micro) (x : String) : Prop :=
  session.Unwritten x ∨ x ∈ unspent msgId session.usedPrimary todo

structure Recorded (msgId : String) (origin : Messages Content) (minted calls : List String) (turn : Turn) : Prop where
  segmented : Segmented msgId minted turn.ending turn.session.slots turn.todo (openings turn.log) (closings turn.log)
  asked : ∀ micro ∈ turn.todo, Asked calls micro
  accounted : ∀ row ∈ turn.session.messages, (∃ old ∈ origin, old.id = row.id) ∨ row.id ∈ msgId :: minted ∨ row.id ∈ calls
  unwritten : turn.returned = false → ∀ row ∈ turn.session.messages, ¬Waiting msgId turn.session turn.todo row.id
  untaken : ∀ cause id, Note.inserted cause id true ∈ turn.log → cause = .tool ∨ cause = .fallback
  done : doneIds turn.log = ((closings turn.log).filter fun closing => closing.1 = .thinking).map Prod.snd
  rows : ∀ id content writable, Note.closed .thinking id content writable ∈ turn.log →
    thinkingRows turn.session.messages id = if writable && !content.isEmpty then 1 else 0

section Spent
variable {msgId : String} {minted : List String} {ending : Option Bool} {slots : Slots} {todo rest : List Micro}
  {opened closed : List Opening} {micro : Micro}

-- The id of a segment that is open is spent.
theorem Segmented.open_spent (kept : Segmented msgId minted ending slots todo opened closed)
    (inside : x ∈ slots.opened.map Prod.snd) : x ∉ unspent msgId slots.used todo ∧ x ∉ closed.map Prod.snd := by
  have distinct := kept.distinct
  unfold spentOrNot at distinct
  rw [kept.balanced,List.map_append] at distinct
  obtain ⟨ids,_,apart⟩ := List.nodup_append.mp distinct
  refine ⟨fun waiting => apart x (List.mem_append_right _ inside) x waiting rfl,fun ended => ?_⟩
  exact (List.nodup_append.mp ids).2.2 x ended x inside rfl

theorem Segmented.unspent_known (kept : Segmented msgId minted ending slots todo opened closed)
    (inside : x ∈ unspent msgId slots.used todo) : x ∈ msgId :: minted := kept.within x (List.mem_append_right _ inside)

theorem Segmented.open_known (kept : Segmented msgId minted ending slots todo opened closed)
    (inside : x ∈ slots.opened.map Prod.snd) : x ∈ msgId :: minted := by
  refine kept.within x (List.mem_append_left _ ?_)
  rw [kept.balanced,List.map_append]
  exact List.mem_append_right _ inside

theorem mint_unspent (slots : Slots) (rest : List Micro) (mints : micro.minted = some x) :
    slots.mint msgId x ∈ unspent msgId slots.used (micro :: rest) := by
  unfold Slots.mint unspent
  rw [List.filterMap_cons_some mints]
  cases slots.used <;> simp

theorem opens_unspent (msgId : String) (slots : Slots) (micro : Micro) (rest : List Micro)
    (inside : x ∈ (slots.opens msgId micro).map Prod.snd) : x ∈ unspent msgId slots.used (micro :: rest) := by
  cases micro with
  | text received content =>
    simp only [Slots.opens] at inside
    cases active : slots.text <;> rw [active] at inside
    · cases List.mem_singleton.mp inside
      exact mint_unspent slots rest rfl
    · cases inside
  | thinking received data =>
    simp only [Slots.opens] at inside
    cases active : slots.thinking <;> rw [active] at inside
    · cases List.mem_singleton.mp inside
      exact mint_unspent slots rest rfl
    · cases inside
  | completeThinking | closeText | flush | forward | persist | finalize => cases inside

theorem unspent_after (msgId : String) (slots : Slots) (micro : Micro) (rest : List Micro)
    (inside : x ∈ unspent msgId (slots.after msgId micro).used rest) : x ∈ unspent msgId slots.used (micro :: rest) := by
  have used : (slots.after msgId micro).used = slots.used ∨ (slots.after msgId micro).used = true := by
    cases micro with
    | text received content => simp only [Slots.after]; cases slots.text <;> simp
    | thinking received data => simp only [Slots.after]; cases slots.thinking <;> simp
    | completeThinking | closeText | flush | forward | persist | finalize => exact .inl rfl
  refine (unspent_rest msgId slots.used micro rest).subset ?_
  rcases used with same | spent
  · rwa [same] at inside
  · rw [spent] at inside
    exact List.mem_append_right _ inside

end Spent

section Pieces
variable {msgId : String} {relay : StreamRelay} {minted calls : List String} {session : Session} {micro : Micro}
  {rest : List Micro} {ending : Option Bool} {opened closed : List Opening}

theorem waiting_fewer (relay : StreamRelay) (session : Session) (micro : Micro) (rest : List Micro)
    (waiting : Waiting relay.adapter.msgId (micro.perform relay session) rest x) :
    Waiting relay.adapter.msgId session (micro :: rest) x := by
  rcases waiting with unwritten | unspent
  · rcases perform_unwritten relay session micro x unwritten with earlier | opens
    · exact .inl earlier
    · exact .inr (opens_unspent _ session.slots micro rest opens)
  · have used := congrArg Slots.used (perform_slots relay session micro)
    rw [show (micro.perform relay session).usedPrimary = _ from used] at unspent
    exact .inr (unspent_after _ session.slots micro rest unspent)

theorem Segmented.waiting_known (kept : Segmented msgId minted ending session.slots todo opened closed)
    (waiting : Waiting msgId session todo x) : x ∈ msgId :: minted := by
  rcases waiting with unwritten | unspent
  · exact kept.open_known (unwritten_opened session x unwritten)
  · exact kept.unspent_known unspent

-- Where a segment closes, none is open any more.
theorem Segmented.closed_cleared (kept : Segmented relay.adapter.msgId minted ending session.slots (micro :: rest) opened closed)
    (open_before : x ∈ session.slots.opened.map Prod.snd) (none : ¬(micro.perform relay session).Unwritten x) :
    ¬Waiting relay.adapter.msgId (micro.perform relay session) rest x := by
  rintro (unwritten | unspent)
  · exact none unwritten
  · have used := congrArg Slots.used (perform_slots relay session micro)
    rw [show (micro.perform relay session).usedPrimary = _ from used] at unspent
    exact (kept.open_spent open_before).1 (unspent_after _ session.slots micro rest unspent)

-- A minted id is used up where the piece that it was minted for is done.
theorem Segmented.minted_spent (kept : Segmented msgId minted ending slots (micro :: rest) opened closed)
    (mints : micro.minted = some x) : x ∈ unspent msgId slots.used (micro :: rest) ∧ x ∉ unspent msgId slots.used rest := by
  have distinct := (List.nodup_append.mp kept.distinct).2.1
  unfold unspent at distinct ⊢
  rw [List.filterMap_cons_some mints] at distinct ⊢
  exact ⟨List.mem_append_right _ List.mem_cons_self,(List.nodup_cons.mp (List.nodup_middle.mp distinct)).1⟩

theorem Segmented.minted_cleared (kept : Segmented msgId minted ending session.slots (micro :: rest) opened closed)
    (mints : micro.minted = some x) : ¬Waiting msgId session rest x := by
  obtain ⟨here,gone⟩ := kept.minted_spent mints
  rintro (unwritten | unspent)
  · exact (kept.open_spent (unwritten_opened session x unwritten)).1 here
  · exact gone unspent

theorem Segmented.row_cleared (kept : Segmented relay.adapter.msgId minted ending session.slots (micro :: rest) opened closed)
    (asked : Asked calls micro) (apart : ∀ x ∈ calls, x ∉ relay.adapter.msgId :: minted)
    (row : micro.row relay session = some (x,type)) (going : ∀ received terminal, micro ≠ .finalize received terminal) :
    ¬Waiting relay.adapter.msgId (micro.perform relay session) rest x := by
  cases micro with
  | completeThinking now =>
    obtain ⟨segment,active,same⟩ := Option.map_eq_some_iff.mp row
    cases same
    refine kept.closed_cleared ((opened_ids ..).mpr (.inr (by simp [Session.slots,active]))) ?_
    obtain ⟨calm,text,_⟩ := complete_thinking_rest relay now session
    rintro (⟨other,still,_⟩ | ⟨other,still,_⟩)
    · have silent : session.activeText = none := by simpa [Session.slots,active] using kept.alone
      rw [show (Micro.perform relay session (.completeThinking now)).activeText = _ from text,silent] at still
      cases still
    · rw [show (Micro.perform relay session (.completeThinking now)).activeThinking = _ from calm] at still
      cases still
  | closeText status =>
    obtain ⟨segment,active,same⟩ := Option.map_eq_some_iff.mp row
    cases same
    refine kept.closed_cleared ((opened_ids ..).mpr (.inl (by simp [Session.slots,active]))) ?_
    obtain ⟨closed,thinking,_⟩ := close_rest relay status session
    rintro (⟨other,still,_⟩ | ⟨other,still,_⟩)
    · rw [show (Micro.perform relay session (.closeText status)).activeText = _ from closed] at still
      cases still
    · have calm : session.activeThinking = none := by simpa [Session.slots,active] using kept.alone
      rw [show (Micro.perform relay session (.closeText status)).activeThinking = _ from thinking,calm] at still
      cases still
  | flush now =>
    obtain ⟨segment,active,same⟩ := Option.map_eq_some_iff.mp row
    cases same
    obtain ⟨active,due⟩ := Option.filter_eq_some_iff.mp active
    refine kept.closed_cleared ((opened_ids ..).mpr (.inl (by simp [Session.slots,active]))) fun unwritten => ?_
    simp only [Micro.perform,active] at unwritten
    rcases flush_unwritten relay session segment now active _ unwritten with ⟨_,dry⟩ | ⟨thinking,still,_⟩
    · cases due.symm.trans dry
    · have calm : session.activeThinking = none := by simpa [Session.slots,active] using kept.alone
      cases calm.symm.trans still
  | persist operation now =>
    have called : x ∈ calls → ¬Waiting relay.adapter.msgId (Micro.perform relay session (.persist operation now)) rest x :=
      fun call waiting => apart x call (kept.waiting_known (waiting_fewer relay session (.persist operation now) rest waiting))
    cases operation with
    | tip mintedId data =>
      cases row
      exact kept.minted_cleared rfl
    | toolCall data | acpToolCall data =>
      cases row
      exact called asked
    | toolGroup mintedId entries =>
      cases entries with
      | nil =>
        cases row
        exact kept.minted_cleared rfl
      | cons entry entries =>
        cases row
        exact called asked
    | flushText | finalizeText | finalText | errorTip | thinking => cases asked
  | text | thinking | forward => cases row
  | finalize received terminal => exact absurd rfl (going received terminal)

theorem final_row (relay : StreamRelay) (session : Session) (received : Received) (terminal : RelayTerminal)
    (row : Micro.row relay session (.finalize received terminal) = some (x,type)) :
    x = relay.adapter.msgId ∧ type = "text" ∨ Micro.minted (.finalize received terminal) = some x ∧ type = "tips" := by
  unfold Micro.row at row
  simp only [finalOperation] at row
  split at row
  · cases row
    exact .inl ⟨rfl,rfl⟩
  · cases event : received.event with
    | error data code retryable =>
      rw [event] at row
      cases row
      exact .inr ⟨by simp [Micro.minted,AgentStreamEvent.isError,event],rfl⟩
    | text | tips | toolCall | acpToolCall | toolGroup | thinking | finish | other =>
      rw [event] at row
      cases row

theorem Segmented.row_known (kept : Segmented relay.adapter.msgId minted ending session.slots (micro :: rest) opened closed)
    (asked : Asked calls micro) (row : micro.row relay session = some (x,type)) :
    x ∈ relay.adapter.msgId :: minted ∨ x ∈ calls := by
  have own (mints : micro.minted = some x) : x ∈ relay.adapter.msgId :: minted ∨ x ∈ calls :=
    .inl (kept.unspent_known (kept.minted_spent mints).1)
  have still (active : session.slots.text = some x ∨ session.slots.thinking = some x) :
      x ∈ relay.adapter.msgId :: minted ∨ x ∈ calls := .inl (kept.open_known ((opened_ids ..).mpr active))
  cases micro with
  | completeThinking now =>
    obtain ⟨segment,active,same⟩ := Option.map_eq_some_iff.mp row
    cases same
    exact still (.inr (by simp [Session.slots,active]))
  | closeText status =>
    obtain ⟨segment,active,same⟩ := Option.map_eq_some_iff.mp row
    cases same
    exact still (.inl (by simp [Session.slots,active]))
  | flush now =>
    obtain ⟨segment,active,same⟩ := Option.map_eq_some_iff.mp row
    cases same
    exact still (.inl (by simp [Session.slots,(Option.filter_eq_some_iff.mp active).1]))
  | persist operation now =>
    cases operation with
    | tip => cases row; exact own rfl
    | toolCall | acpToolCall => cases row; exact .inr asked
    | toolGroup mintedId entries =>
      cases entries with
      | nil => cases row; exact own rfl
      | cons => cases row; exact .inr asked
    | flushText | finalizeText | finalText | errorTip | thinking => cases asked
  | finalize received terminal =>
    rcases final_row relay session received terminal row with ⟨rfl,_⟩ | ⟨mints,_⟩
    · exact .inl List.mem_cons_self
    · exact own mints
  | text | thinking | forward => cases row

-- Only a thinking segment that closes adds a row of its type.
theorem row_thinking (asked : Asked calls micro) (row : micro.row relay session = some (x,"thinking")) :
    x ∈ session.slots.opened.map Prod.snd := by
  cases micro with
  | completeThinking now =>
    obtain ⟨segment,active,same⟩ := Option.map_eq_some_iff.mp row
    cases same
    exact (opened_ids ..).mpr (.inr (by simp [Session.slots,active]))
  | closeText | flush =>
    obtain ⟨segment,_,same⟩ := Option.map_eq_some_iff.mp row
    simp at same
  | persist operation now =>
    cases operation with
    | tip | toolCall | acpToolCall | toolGroup => simp [Micro.row,operationRow] at row
    | flushText | finalizeText | finalText | errorTip | thinking => cases asked
  | finalize received terminal => rcases final_row relay session received terminal row with ⟨_,other⟩ | ⟨_,other⟩ <;> simp at other
  | text | thinking | forward => cases row

theorem insertion_untaken (free : ∀ row ∈ session.messages, ¬Waiting msgId session todo row.id) (operation : Operation) (now : Int)
    (waiting : Waiting msgId session todo (operationRow relay.adapter operation).1) :
    Note.inserted cause x true ∉ noted relay operation now session.messages := by
  intro inside
  obtain ⟨_,rfl,taken⟩ := insertion_noted relay operation now session.messages inside
  obtain ⟨row,member,same⟩ := List.any_eq_true.mp taken.symm
  exact free row member (of_decide_eq_true same ▸ waiting)

theorem Segmented.untaken (kept : Segmented relay.adapter.msgId minted ending session.slots (micro :: rest) opened closed)
    (asked : Asked calls micro) (free : ∀ row ∈ session.messages, ¬Waiting relay.adapter.msgId session (micro :: rest) row.id)
    (inside : Note.inserted cause x true ∈ micro.notes relay session) : cause = .tool ∨ cause = .fallback := by
  have own (operation : Operation) (now : Int) (member : Note.inserted cause x true ∈ noted relay operation now session.messages)
      (mints : micro.minted = some (operationRow relay.adapter operation).1) : cause = .tool ∨ cause = .fallback :=
    absurd member (insertion_untaken free operation now (.inr (kept.minted_spent mints).1))
  have written (segment : TextSegmentState) (active : session.activeText = some segment) (operation : Operation) (now : Int)
      (text : operation = .flushText segment ∨ ∃ status, operation = .finalizeText segment status)
      (member : Note.inserted cause x true ∈ noted relay operation now session.messages) : cause = .tool ∨ cause = .fallback := by
    cases created : segment.recordCreated with
    | true =>
      rw [created_noted relay segment now session.messages created operation text] at member
      cases member
    | false =>
      have waiting : Waiting relay.adapter.msgId session (micro :: rest) (operationRow relay.adapter operation).1 := by
        refine .inl (.inl ⟨segment,active,created,?_⟩)
        rcases text with rfl | ⟨status,rfl⟩ <;> rfl
      exact absurd member (insertion_untaken free operation now waiting)
  cases micro with
  | completeThinking now =>
    simp only [Micro.notes] at inside
    cases active : session.activeThinking with
    | none =>
      rw [active] at inside
      cases inside
    | some segment =>
      rw [active] at inside
      have member : Note.inserted cause x true ∈ noted relay (.thinking segment (thinkingDuration now segment)) now
        session.messages := by simpa using inside
      exact absurd member (insertion_untaken free _ now (.inl (.inr ⟨segment,active,rfl⟩)))
  | closeText status =>
    simp only [Micro.notes] at inside
    cases active : session.activeText with
    | none =>
      rw [active] at inside
      cases inside
    | some segment =>
      rw [active] at inside
      exact written segment active (.finalizeText segment status) 0 (.inr ⟨status,rfl⟩) (by simpa using inside)
  | flush now =>
    simp only [Micro.notes] at inside
    cases active : session.activeText with
    | none =>
      rw [active] at inside
      cases inside
    | some segment =>
      simp only [active] at inside
      split at inside
      · exact written segment active (.flushText segment) now (.inl rfl) inside
      · cases inside
  | text received content =>
    simp only [Micro.notes] at inside
    split at inside <;> simp at inside
  | thinking received data =>
    simp only [Micro.notes] at inside
    split at inside <;> simp at inside
  | forward event => cases inside
  | persist operation now =>
    cases operation with
    | tip mintedId data => exact own (.tip mintedId data) now inside rfl
    | toolCall | acpToolCall | toolGroup => exact .inl (insertion_noted relay _ now session.messages inside).1
    | flushText | finalizeText | finalText | errorTip | thinking => cases asked
  | finalize received terminal =>
    simp only [Micro.notes,finalOperation] at inside
    split at inside
    · cases inside
    · rename_i operation final
      split at final
      · cases final
        exact .inr (insertion_noted relay _ received.now session.messages inside).1
      · cases event : received.event with
        | error data code retryable =>
          rw [event] at final
          cases final
          exact own (.errorTip received.mintedId data) received.now inside
            (by simp [Micro.minted,AgentStreamEvent.isError,event,operationRow])
        | text | tips | toolCall | acpToolCall | toolGroup | thinking | finish | other =>
          rw [event] at final
          cases final

end Pieces

section Steps
variable {msgId : String} {relay : StreamRelay} {origin : Messages Content} {minted calls : List String} {session : Session}
  {micro : Micro} {rest : List Micro} {ending : Option Bool} {log : List Note} {turn : Turn}

-- Closing notes of thinking segments are those of segments that were open.
theorem thinking_closed (inside : Note.closed .thinking x content admitted ∈ micro.notes relay session) :
    ∃ now segment, micro = .completeThinking now ∧ session.activeThinking = some segment ∧ x = segment.id ∧
      content = segment.buffer ∧ admitted = writable relay .assistantThinkingFinalize := by
  have quiet (operation : Operation) (now : Int) (messages : Messages Content) :
      Note.closed .thinking x content admitted ∉ noted relay operation now messages := fun member => by
    obtain ⟨_,_,same⟩ := noted_inserted relay operation now messages _ member
    cases same
  cases micro with
  | completeThinking now =>
    simp only [Micro.notes] at inside
    cases active : session.activeThinking with
    | none =>
      rw [active] at inside
      cases inside
    | some segment =>
      rw [active] at inside
      rcases List.mem_append.mp inside with member | member
      · simp only [List.mem_cons,Note.closed.injEq,true_and,reduceCtorEq,List.not_mem_nil,or_false] at member
        exact ⟨now,segment,rfl,rfl,member.1,member.2.1,member.2.2⟩
      · exact absurd member (quiet _ _ _)
  | closeText status =>
    simp only [Micro.notes] at inside
    split at inside
    · cases inside
    · rcases List.mem_cons.mp inside with same | member
      · cases same
      · exact absurd member (quiet _ _ _)
  | flush now =>
    simp only [Micro.notes] at inside
    split at inside
    · cases inside
    · split at inside
      · exact absurd inside (quiet _ _ _)
      · cases inside
  | text | thinking =>
    simp only [Micro.notes] at inside
    split at inside <;> simp at inside
  | forward event => cases inside
  | persist operation now => exact absurd inside (quiet _ _ _)
  | finalize received terminal =>
    simp only [Micro.notes] at inside
    split at inside
    · cases inside
    · exact absurd inside (quiet _ _ _)

theorem closed_closing (inside : Note.closed .thinking x content admitted ∈ log) : x ∈ (closings log).map Prod.snd :=
  List.mem_map.mpr ⟨(.thinking,x),List.mem_filterMap.mpr ⟨_,inside,rfl⟩,rfl⟩

theorem Recorded.go (kept : Recorded relay.adapter.msgId origin minted calls ⟨session,micro :: rest,ending,log⟩)
    (apart : ∀ x ∈ calls, x ∉ relay.adapter.msgId :: minted) :
    Recorded relay.adapter.msgId origin minted calls
      ⟨micro.perform relay session,rest,ending,log ++ micro.notes relay session⟩ := by
  have segmented := kept.segmented
  have asked := kept.asked micro List.mem_cons_self
  have free := kept.unwritten rfl
  have grown := perform_grown relay session micro
  constructor
  · have stepped := segmented.step
    rw [← perform_slots,← notes_openings,← notes_closings] at stepped
    simpa [openings,closings] using stepped
  · exact fun later inside => kept.asked later (List.mem_cons_of_mem _ inside)
  · intro row inside
    rcases grown.ids inside with ⟨old,member,same⟩ | ⟨type,written⟩
    · exact same ▸ kept.accounted old member
    · exact .inr (segmented.row_known asked written)
  · intro going row inside waiting
    rcases grown.ids inside with ⟨old,member,same⟩ | ⟨type,written⟩
    · exact free old member (same ▸ waiting_fewer relay session micro rest waiting)
    · refine segmented.row_cleared asked apart written (fun received terminal final => ?_) waiting
      subst final
      obtain ⟨ended,last,_⟩ := segmented.due
      have returned : (rest.isEmpty && ending.isSome) = true := by simp [last,Option.isSome_iff_ne_none,ended]
      cases going.symm.trans returned
  · intro cause x inside
    rcases List.mem_append.mp inside with earlier | now
    · exact kept.untaken cause x earlier
    · exact segmented.untaken asked free now
  · have before := kept.done
    have here := notes_done relay session micro
    simp only [doneIds,closings,List.filterMap_append,List.filter_append,List.map_append] at before here ⊢
    rw [before,here]
  · intro x content admitted inside
    rcases List.mem_append.mp inside with earlier | now
    · refine (grown.thinking fun row => ?_).trans (kept.rows x content admitted earlier)
      exact (segmented.open_spent (row_thinking asked row)).2 (closed_closing earlier)
    · obtain ⟨time,segment,rfl,active,rfl,rfl,rfl⟩ := thinking_closed now
      have absent : ∀ row ∈ session.messages, row.id ≠ segment.id := fun row inside same =>
        free row inside (.inl (.inr ⟨segment,active,same.symm⟩))
      simp only [Micro.perform,StreamRelay.completeActiveThinking,active]
      exact thinking_persisted relay segment _ time absent

end Steps

-- The events that a run has received.
def receivedIn (inputs : List Input) : List Received := inputs.filterMap fun input => match input with
  | .arrive received _ => some received
  | .close _ | .go _ => none

section Arrivals
variable {msgId : String} {relay : StreamRelay} {origin : Messages Content} {minted calls : List String} {turn : Turn}
  {received : Received}

theorem Asked.mono {more : List String} (asked : Asked calls micro) (less : ∀ x ∈ calls, x ∈ more) : Asked more micro := by
  cases micro with
  | persist operation now =>
    cases operation with
    | toolCall | acpToolCall => exact less _ asked
    | toolGroup mintedId entries =>
      cases entries with
      | nil => trivial
      | cons entry entries => exact less _ asked
    | tip => trivial
    | flushText | finalizeText | finalText | errorTip | thinking => cases asked
  | completeThinking | closeText | text | flush | thinking | forward | finalize => trivial

theorem asked_event (received : Received) : ∀ micro ∈ eventMicros received, Asked received.event.callId.toList micro := by
  intro micro inside
  unfold eventMicros at inside
  cases event : received.event with
  | text content =>
    rw [event] at inside
    simp only [List.mem_cons,List.not_mem_nil,or_false] at inside
    rcases inside with rfl | rfl | rfl <;> trivial
  | thinking data =>
    rw [event] at inside
    dsimp only at inside
    split at inside
    · cases List.mem_singleton.mp inside
      trivial
    · simp only [List.mem_cons,List.not_mem_nil,or_false] at inside
      rcases inside with rfl | rfl <;> trivial
  | tips data =>
    rw [event] at inside
    dsimp only [tipMicros] at inside
    cases kind : data.tipType <;> rw [kind] at inside <;> simp only [List.mem_cons,List.not_mem_nil,or_false] at inside
    · subst inside
      trivial
    all_goals rcases inside with rfl | rfl <;> trivial
  | toolCall data | acpToolCall data =>
    rw [event] at inside
    simp only [toolMicros,List.mem_cons,List.not_mem_nil,or_false] at inside
    rcases inside with rfl | rfl | rfl | rfl
    · trivial
    · trivial
    · trivial
    · exact List.mem_singleton.mpr rfl
  | toolGroup entries =>
    rw [event] at inside
    simp only [toolMicros,List.mem_cons,List.not_mem_nil,or_false] at inside
    rcases inside with rfl | rfl | rfl | rfl
    · trivial
    · trivial
    · trivial
    · cases entries with
      | nil => trivial
      | cons entry entries => exact List.mem_singleton.mpr rfl
  | finish | error | other =>
    rw [event] at inside
    cases List.mem_singleton.mp inside
    trivial

theorem asked_terminal (received : Received) (deleting : Bool) : ∀ micro ∈ terminalMicros received deleting, Asked calls micro := by
  intro micro inside
  cases deleting with
  | true =>
    cases List.mem_singleton.mp inside
    trivial
  | false =>
    simp only [terminalMicros,closeMicros,Bool.false_eq_true,if_false,List.cons_append,List.nil_append,List.mem_cons,
      List.not_mem_nil,or_false] at inside
    rcases inside with rfl | rfl | rfl | rfl <;> trivial

theorem asked_closed (relay : StreamRelay) (deleting : Bool) : ∀ micro ∈ closedMicros relay deleting, Asked calls micro := by
  intro micro inside
  cases deleting with
  | true => cases inside
  | false =>
    simp only [closedMicros,closeMicros,Bool.false_eq_true,if_false,List.cons_append,List.nil_append,List.mem_cons,
      List.not_mem_nil,or_false] at inside
    rcases inside with rfl | rfl | rfl <;> trivial

theorem accounted_more {row : Row} (ids calls : List String) (accounted : (∃ old ∈ origin, old.id = row.id) ∨
    row.id ∈ msgId :: minted ∨ row.id ∈ calls) (called : List String) :
    (∃ old ∈ origin, old.id = row.id) ∨ row.id ∈ msgId :: (minted ++ ids) ∨ row.id ∈ calls ++ called := by
  rw [← List.cons_append]
  exact accounted.imp_right (Or.imp (List.mem_append_left _) (List.mem_append_left _))

theorem Recorded.skip (kept : Recorded msgId origin minted calls turn) (ids called : List String) :
    Recorded msgId origin (minted ++ ids) (calls ++ called) turn := { kept with
  segmented := kept.segmented.more ids
  asked := fun micro inside => (kept.asked micro inside).mono fun _ => List.mem_append_left _
  accounted := fun row inside => accounted_more ids calls (kept.accounted row inside) called }

theorem Turn.waits_exact (waits : turn.waits = true) : turn.todo = [] ∧ turn.ending = none := by
  simpa [Turn.waits] using waits

-- Handling begins with an id that nothing has.
theorem Recorded.handle (kept : Recorded msgId origin minted calls turn) (waits : turn.waits = true) (x : String)
    (called : List String) (todo : List Micro) (ending : Option Bool)
    (due : ∀ text thinking, Due ending text thinking todo) (fewer : (todo.filterMap Micro.minted).Sublist [x])
    (asked : ∀ micro ∈ todo, Asked called micro) (new : x ∉ msgId :: minted) (away : ∀ row ∈ origin, row.id ≠ x)
    (apart : x ∉ calls) :
    Recorded msgId origin (minted ++ [x]) (calls ++ called) { turn with todo := todo, ending := ending } := by
  obtain ⟨idle,going⟩ := Turn.waits_exact waits
  have segmented := kept.segmented
  rw [idle,going] at segmented
  have free := kept.unwritten (by simp [Turn.returned,going])
  refine { kept with
    segmented := segmented.receive (due ..) fewer new
    asked := fun micro inside => (asked micro inside).mono fun _ => List.mem_append_right _
    accounted := fun row inside => accounted_more [x] calls (kept.accounted row inside) called
    unwritten := fun _ row inside waiting => ?_ }
  rw [idle] at free
  rcases waiting with unwritten | awaited
  · exact free row inside (.inl unwritten)
  · rcases List.mem_append.mp awaited with primary | own
    · exact free row inside (.inr (List.mem_append_left _ primary))
    · have same : row.id = x := List.mem_singleton.mp (fewer.subset own)
      rcases kept.accounted row inside with ⟨old,member,equal⟩ | known | call
      · exact away old member (equal.trans same)
      · exact new (same ▸ known)
      · exact apart (same ▸ call)

theorem Recorded.conclude (kept : Recorded msgId origin minted calls turn) (waits : turn.waits = true)
    (relay : StreamRelay) (deleting : Bool) :
    Recorded msgId origin minted calls { turn with todo := closedMicros relay deleting, ending := some deleting } := by
  obtain ⟨idle,going⟩ := Turn.waits_exact waits
  have segmented := kept.segmented
  rw [idle,going] at segmented
  have free := kept.unwritten (by simp [Turn.returned,going])
  refine { kept with
    segmented := segmented.conclude (due_closed ..) (minted_closed relay deleting)
    asked := asked_closed relay deleting
    unwritten := fun _ row inside waiting => ?_ }
  rw [idle] at free
  rcases waiting with unwritten | awaited
  · exact free row inside (.inl unwritten)
  · simp only [unspent,minted_closed] at awaited
    exact free row inside (.inr awaited)

end Arrivals

section Discipline
variable {relay : StreamRelay} {origin : Messages Content} {turn next : Turn} {inputs : List Input}

theorem segmented_begin (msgId : String) (messages : Messages Content) :
    Segmented msgId [] none (Session.begin messages).slots [] [] [] where
  due := by rintro ⟨⟩
  alone := .inl rfl
  balanced := rfl
  first := .inl ⟨rfl,rfl⟩
  distinct := List.nodup_singleton msgId
  within := fun _ inside => inside

theorem recorded_begin (fresh : Fresh relay origin []) :
    Recorded relay.adapter.msgId origin [] [] (Turn.begin origin) := by
  refine ⟨segmented_begin ..,fun micro inside => absurd inside List.not_mem_nil,fun row inside => .inl ⟨row,inside,rfl⟩,
    fun _ row inside waiting => ?_,fun cause x inside => absurd inside List.not_mem_nil,rfl,
    fun x content admitted inside => absurd inside List.not_mem_nil⟩
  rcases waiting with (⟨_,none,_⟩ | ⟨_,none,_⟩) | awaited
  · cases none
  · cases none
  · exact fresh.new row inside awaited

theorem Fresh.earlier {arrivals later : List Received} (fresh : Fresh relay origin (arrivals ++ later)) :
    Fresh relay origin arrivals := by
  have less : (relay.adapter.msgId :: arrivals.map Received.mintedId).Sublist
      (relay.adapter.msgId :: (arrivals ++ later).map Received.mintedId) := by
    rw [List.map_append]
    exact (List.sublist_append_left ..).cons_cons _
  refine ⟨fresh.distinct.sublist less,fun row inside => mt (fun known => less.subset known) (fresh.new row inside),fun x call => ?_⟩
  have called : x ∈ callIds (arrivals ++ later) := by
    unfold callIds at call ⊢
    rw [List.filterMap_append]
    exact List.mem_append_left _ call
  exact mt (fun known => less.subset known) (fresh.apart x called)

theorem callIds_last (arrivals : List Received) (received : Received) :
    callIds (arrivals ++ [received]) = callIds arrivals ++ received.event.callId.toList := by
  unfold callIds
  rw [List.filterMap_append]
  cases called : received.event.callId <;> simp [called]

-- The id that comes with an event is nobody's yet.
theorem Fresh.last {arrivals : List Received} {received : Received} (fresh : Fresh relay origin (arrivals ++ [received])) :
    received.mintedId ∉ relay.adapter.msgId :: arrivals.map Received.mintedId ∧
    (∀ row ∈ origin, row.id ≠ received.mintedId) ∧ received.mintedId ∉ callIds arrivals := by
  have known : received.mintedId ∈ relay.adapter.msgId :: (arrivals ++ [received]).map Received.mintedId := by simp
  refine ⟨fun earlier => ?_,fun row inside same => fresh.new row inside (same ▸ known),fun call => ?_⟩
  · have distinct := fresh.distinct
    rw [List.map_append,← List.cons_append] at distinct
    exact (List.nodup_append.mp distinct).2.2 _ earlier _ List.mem_cons_self rfl
  · refine fresh.apart _ ?_ known
    rw [callIds_last]
    exact List.mem_append_left _ call

theorem step_arrive (taken : step relay turn (.arrive received moment) = some next) :
    turn.waits = true ∧ arrived received (relay.amid moment).isDeleting turn = next := by
  simpa only [step,Option.ite_none_right_eq_some,Option.some.injEq] using taken

theorem step_close (taken : step relay turn (.close moment) = some next) : turn.waits = true ∧
    { turn with
      todo := closedMicros relay (relay.amid moment).isDeleting, ending := some (relay.amid moment).isDeleting } = next := by
  simpa only [step,Option.ite_none_right_eq_some,Option.some.injEq] using taken

theorem recorded_step {input : Input}
    (kept : Recorded relay.adapter.msgId origin ((receivedIn inputs).map Received.mintedId) (callIds (receivedIn inputs)) turn)
    (fresh : Fresh relay origin (receivedIn (inputs ++ [input]))) (taken : step relay turn input = some next) :
    Recorded relay.adapter.msgId origin ((receivedIn (inputs ++ [input])).map Received.mintedId)
      (callIds (receivedIn (inputs ++ [input]))) next := by
  cases input with
  | arrive received moment =>
    have more : receivedIn (inputs ++ [Input.arrive received moment]) = receivedIn inputs ++ [received] := by
      simp [receivedIn]
    rw [more] at fresh ⊢
    rw [callIds_last,List.map_append]
    obtain ⟨new,away,apart⟩ := fresh.last
    obtain ⟨waits,rfl⟩ := step_arrive taken
    unfold arrived
    split
    · exact kept.handle waits _ _ _ _ (due_terminal received _) (minted_terminal ..) (asked_terminal received _) new away apart
    · split
      · exact kept.skip ..
      · obtain ⟨_,going⟩ := Turn.waits_exact waits
        have handled := kept.handle waits _ _ _ none (due_event received) (minted_event received) (asked_event received)
          new away apart
        rwa [← going] at handled
  | close moment =>
    have same : receivedIn (inputs ++ [Input.close moment]) = receivedIn inputs := by simp [receivedIn]
    rw [same]
    obtain ⟨waits,rfl⟩ := step_close taken
    exact kept.conclude waits relay _
  | go moment =>
    have same : receivedIn (inputs ++ [Input.go moment]) = receivedIn inputs := by simp [receivedIn]
    rw [same] at fresh ⊢
    obtain ⟨session,todo,ending,log⟩ := turn
    cases todo with
    | nil => cases taken
    | cons micro rest =>
      cases taken
      exact @Recorded.go (relay.amid moment) origin _ _ session micro rest ending log kept fresh.apart

theorem recorded_run (fresh : Fresh relay origin (receivedIn inputs)) (path : Runs (step relay) (Turn.begin origin) inputs turn) :
    Recorded relay.adapter.msgId origin ((receivedIn inputs).map Received.mintedId) (callIds (receivedIn inputs)) turn := by
  induction path with
  | nil => exact recorded_begin fresh
  | snoc prior taken ih =>
    refine recorded_step (ih ?_) fresh taken
    rw [receivedIn,List.filterMap_append] at fresh
    exact fresh.earlier

-- How the segments of a turn stand, at every point of it. A row that the adapter
-- inserts for want of text segments, and the rows of tools, are not spoken of.
structure Disciplined (msgId : String) (turn : Turn) : Prop where
  alone : turn.session.activeText = none ∨ turn.session.activeThinking = none
  balanced : openings turn.log = closings turn.log ++ turn.session.slots.opened
  distinct : ((openings turn.log).map Prod.snd).Nodup
  first : ∀ x rest, (openings turn.log).map Prod.snd = x :: rest → x = msgId
  untaken : ∀ cause x, Note.inserted cause x true ∈ turn.log → cause = .tool ∨ cause = .fallback
  thinking : ∀ x content admitted, Note.closed .thinking x content admitted ∈ turn.log →
    (doneIds turn.log).count x = 1 ∧
    thinkingRows turn.session.messages x = if admitted && !content.isEmpty then 1 else 0
  returned : turn.returned = true → turn.ending = some false → openings turn.log = closings turn.log

theorem Recorded.closed_once {msgId : String} {minted calls : List String} (kept : Recorded msgId origin minted calls turn)
    (inside : Note.closed .thinking x content admitted ∈ turn.log) : (doneIds turn.log).count x = 1 := by
  have distinct : ((openings turn.log).map Prod.snd).Nodup := (List.nodup_append.mp kept.segmented.distinct).1
  rw [kept.segmented.balanced,List.map_append] at distinct
  have once : (doneIds turn.log).Nodup := by
    rw [kept.done]
    exact (List.nodup_append.mp distinct).1.sublist (List.filter_sublist.map _)
  have member : x ∈ doneIds turn.log := by
    rw [kept.done]
    refine List.mem_map.mpr ⟨(.thinking,x),List.mem_filter.mpr ⟨?_,rfl⟩,rfl⟩
    exact List.mem_filterMap.mpr ⟨_,inside,rfl⟩
  exact List.count_eq_one_of_mem once member

theorem Recorded.disciplined {msgId : String} {minted calls : List String} (kept : Recorded msgId origin minted calls turn) :
    Disciplined msgId turn where
  alone := by simpa [Session.slots] using kept.segmented.alone
  balanced := kept.segmented.balanced
  distinct := (List.nodup_append.mp kept.segmented.distinct).1
  first := fun x rest same => by
    rcases kept.segmented.first with ⟨_,none⟩ | ⟨_,kind,later,opened⟩
    · rw [none] at same
      cases same
    · rw [opened] at same
      exact (List.cons.inj same).1.symm
  untaken := kept.untaken
  thinking := fun x content admitted inside => ⟨kept.closed_once inside,kept.rows x content admitted inside⟩
  returned := fun returned ended => by
    have due := kept.segmented.due
    simp only [Turn.returned,Bool.and_eq_true,List.isEmpty_iff] at returned
    rw [returned.1] at due
    obtain ⟨text,thinking⟩ := due ended
    rw [kept.segmented.balanced]
    simp only [Option.isSome_eq_false_iff,Option.isNone_iff_eq_none] at text thinking
    simp [Slots.opened,text,thinking]

theorem relay_disciplined (relay : StreamRelay) (origin : Messages Content) (inputs : List Input) (turn : Turn)
    (fresh : Fresh relay origin (receivedIn inputs)) (path : Runs (step relay) (Turn.begin origin) inputs turn) :
    Disciplined relay.adapter.msgId turn := (recorded_run fresh path).disciplined

end Discipline

section Examples

def calm : Moment := plainRelay.moment

def amidDeleting : Moment := ⟨(RuntimeState.fresh.markDeleting "conversation").1,fun _ => true⟩

def thought (x : String) (now : Int) : Received := ⟨.thinking ⟨"plan",none⟩,x,now⟩

def announced : AgentStreamEvent := .acpToolCall ⟨"session",.toolCall,"call",none,∅,none⟩

def someInputs : List Input :=
  [.arrive (thought "first" 1) calm,.go calm,.go calm,.arrive ⟨.finish,"second",2⟩ calm,.go calm,.go calm,.go calm,.go calm]

theorem relay_disciplined_some : ∃ turn, Runs (step plainRelay) (Turn.begin []) someInputs turn ∧
    turn.returned = true ∧ Disciplined "message" turn :=
  ⟨_,exec_exact.mp rfl,rfl,relay_disciplined plainRelay [] someInputs _ ⟨by decide,nofun,nofun⟩ (exec_exact.mp rfl)⟩

-- A thinking segment that is open when the stream of a conversation that is being
-- deleted ends stays so. Text that could not be saved, although the end of the turn
-- could, goes under the id of the first thinking segment; and an agent that
-- announces a tool call twice has its row inserted twice.
theorem relay_undisciplined :
    (∃ inputs turn, Fresh plainRelay [] (receivedIn inputs) ∧ Runs (step plainRelay) (Turn.begin []) inputs turn ∧
      turn.returned = true ∧ turn.session.activeThinking = some ⟨"message","plan",1⟩ ∧
      openings turn.log = [(.thinking,"message")] ∧ doneIds turn.log = [] ∧
      thinkingRows turn.session.messages "message" = 0) ∧
    (∃ inputs turn, Fresh plainRelay [] (receivedIn inputs) ∧ Runs (step plainRelay) (Turn.begin []) inputs turn ∧
      Note.inserted .fallback "message" true ∈ turn.log) ∧
    ∃ inputs turn, Fresh plainRelay [] (receivedIn inputs) ∧ Runs (step plainRelay) (Turn.begin []) inputs turn ∧
      Note.inserted .tool "call" true ∈ turn.log := by
  refine ⟨⟨[.arrive (thought "first" 1) calm,.go calm,.go calm,.arrive ⟨.finish,"second",2⟩ amidDeleting,.go amidDeleting],_,
    ⟨by decide,nofun,nofun⟩,exec_exact.mp rfl,rfl,rfl,rfl,rfl,rfl⟩,?_,?_⟩
  · refine ⟨[.arrive (thought "first" 1) calm,.go calm,.go calm,.arrive ⟨.text "a","second",2⟩ calm,.go calm,.go calm,.go calm,
      .arrive ⟨.finish,"third",3⟩ calm,.go calm,.go amidDeleting,.go calm,.go calm],_,
      ⟨by decide,nofun,nofun⟩,exec_exact.mp rfl,?_⟩
    decide
  · refine ⟨[.arrive ⟨announced,"first",1⟩ calm,.go calm,.go calm,.go calm,.go calm,
      .arrive ⟨announced,"second",2⟩ calm,.go calm,.go calm,.go calm,.go calm],_,
      ⟨by decide,nofun,by decide⟩,exec_exact.mp rfl,?_⟩
    decide

end Examples

end AlineaCopilot.StreamRelays
