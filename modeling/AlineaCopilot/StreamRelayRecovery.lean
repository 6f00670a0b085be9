import Mathlib.Data.List.Sort
import AlineaCopilot.StreamRelayDiscipline
open AlineaCopilot.KeyedMaps AlineaCopilot.MessageTable AlineaCopilot.ConversationRuntime
open AlineaCopilot.StreamPersistence AlineaCopilot.TransitionRuns

namespace AlineaCopilot.StreamRelays

section Startup

inductive StartupRecoveryAction where
  | finishVisibleOutput
  | finishEmptyPlaceholder
deriving DecidableEq, Repr

-- A text that is no JSON shows as it is, a value without a text in `content` not at all.
def messageHasVisibleContent (row : Row) : Bool :=
  match row.content with
  | .unreadable text => !(RustText.trim text).isEmpty
  | .object fields => match fields.lookup "content" with
    | some (.leaf (.text text)) => !(RustText.trim text).isEmpty
    | _ => false
  | _ => false

def classifyRecoveryAction (row : Row) : StartupRecoveryAction :=
  if messageHasVisibleContent row then .finishVisibleOutput else .finishEmptyPlaceholder

-- The rows of the query, of conversations that exist.
def stale (known : String → Bool) (row : Row) : Bool :=
  known row.conversationId && row.position = some "left" && (row.status = some "work" || row.status = some "pending") &&
    (row.type = "text" || row.type = "thinking")

def listStaleRuntimeMessages (known : String → Bool) (messages : Messages Content) : Messages Content :=
  (messages.filter (stale known)).insertionSort fun a b => a.createdAt ≤ b.createdAt

def recoveryUpdate (row : Row) : RowUpdate :=
  { status := some (some "finish"), hidden := some (classifyRecoveryAction row = .finishEmptyPlaceholder) }

def recoverRow (runtime : RuntimeState) (messages : Messages Content) (row : Row) : Messages Content :=
  if runtime.allows row.conversationId .startupRecovery then
    match updateMessage messages row.id (recoveryUpdate row) with
    | .ok next => next
    | .error _ => messages
  else messages

def recoverStaleRuntimeStateOnStartup (known : String → Bool) (runtime : RuntimeState) (messages : Messages Content) : Messages Content :=
  (listStaleRuntimeMessages known messages).foldl (recoverRow runtime) messages

def settleRow (known : String → Bool) (row : Row) : Row := if stale known row then (recoveryUpdate row).apply row else row

variable {known : String → Bool} {runtime : RuntimeState} {messages rows : Messages Content} {row other : Row}

theorem id_unique (unique : (messages.map MessageRow.id).Nodup) (inside : row ∈ messages) (inside' : other ∈ messages)
    (same : row.id = other.id) :
    row = other := List.inj_on_of_nodup_map unique inside inside' same

def settleAll (ids : List String) (row : Row) : Row := if row.id ∈ ids then (recoveryUpdate row).apply row else row

theorem settle_one (unique : (messages.map MessageRow.id).Nodup) (allowed : ∀ id, runtime.allows id .startupRecovery = true)
    (inside : row ∈ messages) (ids : List String) :
    recoverRow runtime (messages.map (settleAll ids)) row = messages.map (settleAll (row.id :: ids)) := by
  have keeps (r : Row) : (settleAll ids r).id = r.id := by
    unfold settleAll
    split <;> rfl
  have there : (messages.map (settleAll ids)).any (fun r => r.id = row.id) = true :=
    List.any_eq_true.mpr ⟨settleAll ids row,List.mem_map_of_mem inside,decide_eq_true (keeps row)⟩
  unfold recoverRow
  rw [if_pos (allowed _)]
  have full : (recoveryUpdate row).isEmpty = false := rfl
  simp only [updateMessage,full,there,if_true,Bool.false_eq_true,if_false,List.map_map]
  refine List.map_congr_left fun r member => ?_
  show (if (settleAll ids r).id = row.id then (recoveryUpdate row).apply (settleAll ids r) else settleAll ids r) =
    settleAll (row.id :: ids) r
  rw [keeps]
  by_cases same : r.id = row.id
  · obtain rfl := id_unique unique member inside same
    rw [if_pos rfl]
    unfold settleAll
    rw [if_pos List.mem_cons_self]
    split
    · exact apply_apply _ _
    · rfl
  · rw [if_neg same]
    unfold settleAll
    simp only [List.mem_cons,same,false_or]

theorem settle_list (unique : (messages.map MessageRow.id).Nodup) (allowed : ∀ id, runtime.allows id .startupRecovery = true)
    (inside : ∀ row ∈ rows, row ∈ messages) (ids : List String) :
    rows.foldl (recoverRow runtime) (messages.map (settleAll ids)) =
      messages.map (settleAll ((rows.map MessageRow.id).reverse ++ ids)) := by
  induction rows generalizing ids with
  | nil => rfl
  | cons row rest ih =>
    rw [List.foldl_cons,settle_one unique allowed (inside row List.mem_cons_self),
      ih fun other member => inside other (List.mem_cons_of_mem _ member),List.map_cons,List.reverse_cons,List.append_assoc]
    rfl

-- Where ids are unique, recovering is settling every row that is stale.
theorem recover_map (unique : (messages.map MessageRow.id).Nodup) (allowed : ∀ id, runtime.allows id .startupRecovery = true) :
    recoverStaleRuntimeStateOnStartup known runtime messages = messages.map (settleRow known) := by
  have listed {row : Row} : row ∈ listStaleRuntimeMessages known messages ↔ row ∈ messages ∧ stale known row = true :=
    (List.perm_insertionSort _ _).mem_iff.trans List.mem_filter
  have none : messages.map (settleAll []) = messages := (List.map_congr_left fun row _ => if_neg List.not_mem_nil).trans (List.map_id _)
  unfold recoverStaleRuntimeStateOnStartup
  have whole := @settle_list runtime messages (listStaleRuntimeMessages known messages) unique allowed
    (fun row member => (listed.mp member).1) []
  rw [none] at whole
  rw [whole,List.append_nil]
  refine List.map_congr_left fun row inside => ?_
  unfold settleAll settleRow
  have same : row.id ∈ ((listStaleRuntimeMessages known messages).map MessageRow.id).reverse ↔ stale known row = true := by
    rw [List.mem_reverse,List.mem_map]
    constructor
    · rintro ⟨other,member,equal⟩
      obtain ⟨there,old⟩ := listed.mp member
      exact id_unique unique there inside equal ▸ old
    · exact fun old => ⟨row,listed.mpr ⟨inside,old⟩,rfl⟩
  by_cases old : stale known row = true
  · rw [if_pos (same.mpr old),if_pos old]
  · rw [if_neg (mt same.mp old),if_neg old]

theorem settleRow_keeps (known : String → Bool) (row : Row) :
    (settleRow known row).id = row.id ∧ (settleRow known row).type = row.type := by
  unfold settleRow
  split <;> exact ⟨rfl,rfl⟩

theorem settleRow_content (known : String → Bool) (row : Row) : (settleRow known row).content = row.content := by
  unfold settleRow
  split <;> rfl

end Startup

section Keys
variable {relay : StreamRelay} {messages next : Messages Content} {session : Session}

def UniqueIds (messages : Messages Content) : Prop := (messages.map MessageRow.id).Nodup

theorem unique_attempt (write : Write) (unique : UniqueIds messages) (attempted : write.attempt relay.known messages = .ok next) :
    UniqueIds next := by
  have updated {id : String} {changes : RowUpdate} (done : updateMessage messages id changes = .ok next) : UniqueIds next := by
    rw [updateMessage_ok done]
    unfold UniqueIds
    rw [List.map_map]
    have same : messages.map (MessageRow.id ∘ updateRow id changes) = messages.map MessageRow.id :=
      List.map_congr_left fun row _ => (updateRow_keeps id changes row).1
    exact same.symm ▸ unique
  cases write with
  | insert row =>
    obtain ⟨fresh,-,rfl⟩ := insertMessage_ok attempted
    unfold UniqueIds
    rw [List.map_append]
    refine List.nodup_append.mpr ⟨unique,List.nodup_singleton _,?_⟩
    rintro id inside _ last rfl
    obtain ⟨old,member,rfl⟩ := List.mem_map.mp inside
    exact fresh old member (List.mem_singleton.mp last)
  | update id changes => exact updated attempted
  | updateOrInsert id changes row => exact updated attempted

theorem unique_attempts (writes : List Write) (unique : UniqueIds messages) : UniqueIds (writes.foldl relay.attempt messages) := by
  induction writes generalizing messages with
  | nil => exact unique
  | cons write rest ih =>
    refine ih ?_
    unfold StreamRelay.attempt
    split
    · exact unique_attempt write unique ‹_›
    · exact unique

theorem unique_write (write : Write) (unique : UniqueIds messages) : UniqueIds (relay.write messages write) := by
  unfold StreamRelay.write
  split
  · exact unique_attempt write unique ‹_›
  · exact unique_attempts _ unique

theorem unique_writes (writes : List Write) (unique : UniqueIds messages) : UniqueIds (writes.foldl relay.write messages) := by
  induction writes generalizing messages with
  | nil => exact unique
  | cons write rest ih => exact ih (unique_write write unique)

theorem unique_persist (operation : Operation) (now : Int) (unique : UniqueIds messages) :
    UniqueIds (relay.persist messages operation now) := by
  unfold StreamRelay.persist
  split
  · exact unique
  · exact unique_writes _ unique

theorem unique_close (status : String) (unique : UniqueIds session.messages) :
    UniqueIds (relay.closeActiveTextSegment status session).messages := by
  unfold StreamRelay.closeActiveTextSegment
  split
  · exact unique
  · dsimp only
    unfold StreamRelay.finalizeTextSegment
    split
    · exact unique
    · split
      · exact unique_attempt _ unique ‹_›
      · exact unique

theorem unique_perform (micro : Micro) (unique : UniqueIds session.messages) : UniqueIds (micro.perform relay session).messages := by
  cases micro with
  | completeThinking now =>
    simp only [Micro.perform]
    unfold StreamRelay.completeActiveThinking
    split
    · exact unique
    · exact unique_persist _ _ unique
  | closeText status => exact unique_close status unique
  | text received content =>
    simp only [Micro.perform]
    unfold textChunk StreamRelay.openText
    cases session.activeText <;> exact unique
  | flush now =>
    simp only [Micro.perform]
    split
    · exact unique
    · unfold StreamRelay.flush
      split
      · exact unique_persist _ _ unique
      · exact unique
  | thinking received data =>
    simp only [Micro.perform]
    unfold thinkingChunk StreamRelay.openThinking
    cases session.activeThinking <;> exact unique
  | forward event => exact unique
  | persist operation now => exact unique_persist operation now unique
  | finalize received terminal =>
    simp only [Micro.perform]
    unfold StreamRelay.finalize
    split
    · exact unique_persist _ _ unique
    · split
      · exact unique_persist _ _ unique
      · exact unique

end Keys

section Lags
variable {relay : StreamRelay} {origin next : Messages Content} {done : List Piece} {conversationId : String}
  {free calls chunks lost : List String}
  {session later : Session}
  {segment : TextSegmentState} {received : Received} {rest : List Received}

def storedText (origin messages : Messages Content) : String := String.join ((textRows origin messages).map rowText)

def Session.flushCounter (session : Session) : Nat := (session.activeText.map TextSegmentState.flushCounter).getD 0

-- The rows have the text of a turn but for its last chunks, and these are no more than
-- have come in since a flush.
structure Lagging (conversationId : String) (origin : Messages Content) (chunks lost : List String) (session : Session) : Prop where
  stored : ∃ kept, chunks = kept ++ lost ∧ storedText origin session.messages = String.join kept
  full : session.fullText = String.join chunks
  counter : session.flushCounter = lost.length
  ours : ∀ row ∈ textRows origin session.messages, row.position = some "left" ∧ row.conversationId = conversationId
  shown : ∀ row ∈ textRows origin session.messages, row.hidden = false

theorem Lagging.same (lagging : Lagging conversationId origin chunks lost session)
    (rows : textRows origin later.messages = textRows origin session.messages)
    (full : later.fullText = session.fullText) (active : later.activeText = session.activeText) :
    Lagging conversationId origin chunks lost later := by
  obtain ⟨kept,split,stored⟩ := lagging.stored
  refine ⟨⟨kept,split,?_⟩,full.trans lagging.full,?_,?_,?_⟩
  · unfold storedText
    rw [rows]
    exact stored
  · unfold Session.flushCounter
    rw [active]
    exact lagging.counter
  · rw [rows]
    exact lagging.ours
  · rw [rows]
    exact lagging.shown

theorem rows_text {rows : Messages Content} {pieces : List Piece} (views : rows.map view = pieces.map closedView) :
    String.join (rows.map rowText) = String.join (pieces.map Prod.snd) ∧ ∀ row ∈ rows, row.hidden = false := by
  have texts : rows.map rowText = (rows.map view).map RowView.text := by
    rw [List.map_map]
    rfl
  have said : (pieces.map closedView).map RowView.text = pieces.map Prod.snd := by
    rw [List.map_map]
    rfl
  refine ⟨by rw [texts,views,said],fun row inside => ?_⟩
  have member : view row ∈ pieces.map closedView := views ▸ List.mem_map_of_mem inside
  obtain ⟨piece,-,same⟩ := List.mem_map.mp member
  exact (congrArg RowView.hidden same).symm

-- Nothing is open, or what is open has its row: the rows have all of the text.
theorem lagging_whole (full : session.fullText = String.join chunks) {pieces : List Piece}
    (views : (textRows origin session.messages).map view = pieces.map closedView)
    (text : session.fullText = String.join (pieces.map Prod.snd))
    (counter : session.flushCounter = 0)
    (ours : ∀ row ∈ textRows origin session.messages, row.position = some "left" ∧ row.conversationId = conversationId) :
    Lagging conversationId origin chunks [] session := by
  obtain ⟨stored,shown⟩ := rows_text views
  exact ⟨⟨chunks,(List.append_nil _).symm,stored.trans (text.symm.trans full)⟩,full,counter,ours,shown⟩

theorem closed_pieces (tracks : Tracks origin done free calls session) (closed : session.activeText = none) :
    (textRows origin session.messages).map view = done.map closedView ∧ session.fullText = String.join (done.map Prod.snd) := by
  obtain ⟨views,whole,opened⟩ := tracks.rows
  have text := tracks.text
  rw [closed] at opened
  have none_open : session.open = [] := by simp [Session.open,closed]
  rw [none_open,List.append_nil] at text
  exact ⟨whole.trans ((congrArg _ opened).trans (List.append_nil _)),text⟩

-- The write of a segment makes a row of the turn, or changes one's content and status.
theorem ours_written (status : String) (hide : Option Bool)
    (ours : ∀ row ∈ textRows origin session.messages, row.position = some "left" ∧ row.conversationId = relay.adapter.conversationId)
    (attempted : (segmentWrite relay.adapter segment status hide).attempt relay.known session.messages = .ok next) :
    ∀ row ∈ textRows origin next, row.position = some "left" ∧ row.conversationId = relay.adapter.conversationId := by
  unfold segmentWrite at attempted
  cases created : segment.recordCreated with
  | true =>
    rw [created,if_pos rfl] at attempted
    rw [updateMessage_ok attempted]
    intro row inside
    have rows := @textRows_map origin session.messages _ (updateRow_keeps segment.id
      { content := some (textContent segment.buffer), status := some (some status), hidden := hide })
    rw [show (session.messages.map fun row => if row.id = segment.id then MessageRowUpdate.apply
      { content := some (textContent segment.buffer), status := some (some status), hidden := hide } row else row) = _ from rfl] at inside
    obtain ⟨old,earlier,rfl⟩ := List.mem_map.mp (rows ▸ inside)
    have before := ours old earlier
    unfold updateRow
    split
    · exact before
    · exact before
  | false =>
    rw [created,if_neg Bool.false_ne_true] at attempted
    obtain ⟨-,-,rfl⟩ := insertMessage_ok attempted
    intro row inside
    obtain ⟨member,passes⟩ := List.mem_filter.mp inside
    rcases List.mem_append.mp member with earlier | last
    · exact ours row (List.mem_filter.mpr ⟨earlier,passes⟩)
    · rw [List.mem_singleton.mp last]
      exact ⟨rfl,rfl⟩

theorem Lagging.idle (lagging : Lagging conversationId origin chunks lost session) (closed : session.activeText = none) : lost = [] := by
  have counter := lagging.counter
  unfold Session.flushCounter at counter
  rw [closed] at counter
  exact List.eq_nil_of_length_eq_zero counter.symm

-- Closing a segment saves all of it.
theorem Lagging.close (lagging : Lagging relay.adapter.conversationId origin chunks lost session)
    (tracks : Tracks origin done free calls session) (serving : Serving relay)
    (settled : status ≠ "work") :
    Lagging relay.adapter.conversationId origin chunks [] (relay.closeActiveTextSegment status session) := by
  obtain ⟨done',after⟩ := tracks.close serving settled
  obtain ⟨closed,-,-,full⟩ := close_rest relay status session
  obtain ⟨views,text⟩ := closed_pieces after closed
  refine lagging_whole (full.trans lagging.full) views text ?_ ?_
  · unfold Session.flushCounter
    rw [closed]
    rfl
  · have ours := lagging.ours
    unfold StreamRelay.closeActiveTextSegment
    split
    · exact ours
    · rename_i segment active
      dsimp only
      unfold StreamRelay.finalizeTextSegment
      split
      · exact ours
      · split
        · rename_i next attempted
          exact ours_written status (some false) ours attempted
        · exact ours

theorem Lagging.completes (relay : StreamRelay) (lagging : Lagging relay.adapter.conversationId origin chunks lost session)
    (tracks : Tracks origin done free calls session) (now : Int) :
    Lagging relay.adapter.conversationId origin chunks lost (relay.completeActiveThinking now session) := by
  obtain ⟨-,active,-,full⟩ := complete_thinking_rest relay now session
  refine lagging.same ?_ full active
  unfold StreamRelay.completeActiveThinking
  split
  · rfl
  · rename_i segment thinking
    have none : session.activeText = none := tracks.alone (by simp [thinking])
    have parts := tracks.distinct
    simp only [owned,Session.openIds,none,thinking,Option.toList_none,Option.toList_some,List.map_nil,List.nil_append,
      List.map_cons,List.append_assoc] at parts
    have unlike : segment.id ∉ done.map Prod.fst := fun member =>
      (List.nodup_append.mp parts).2.2 _ member _ List.mem_cons_self rfl
    have off := tracks.off unlike fun _ some => by cases none.symm.trans some
    exact (persist_aside rfl off now).text

-- A chunk is in nobody's row yet.
theorem Lagging.chunk (relay : StreamRelay) (lagging : Lagging relay.adapter.conversationId origin chunks lost session)
    (content : String) (received : Received) :
    Lagging relay.adapter.conversationId origin (chunks ++ [content]) (lost ++ [content]) (textChunk relay received content session) := by
  obtain ⟨kept,split,stored⟩ := lagging.stored
  have longer : chunks ++ [content] = kept ++ (lost ++ [content]) := by rw [split,List.append_assoc]
  have full : session.fullText ++ content = String.join (chunks ++ [content]) := by
    rw [lagging.full]
    simp [String.join]
  have counter := lagging.counter
  unfold Session.flushCounter at counter
  unfold textChunk StreamRelay.openText
  cases active : session.activeText with
  | some segment =>
    rw [active] at counter
    refine ⟨⟨kept,longer,stored⟩,full,?_,lagging.ours,lagging.shown⟩
    rw [List.length_append,← counter]
    rfl
  | none =>
    rw [active] at counter
    refine ⟨⟨kept,longer,stored⟩,full,?_,lagging.ours,lagging.shown⟩
    rw [List.length_append,← counter]
    rfl

theorem Tracks.text_chunk (relay : StreamRelay) (tracks : Tracks origin done (freeIds relay session (received :: rest)) calls session)
    (calm : session.activeThinking = none) (content : String) (event : received.event = .text content) :
    Tracks origin done (freeIds relay (textChunk relay received content session) rest) calls (textChunk relay received content session) := by
  have forwarded (id : String) (s : Session) : s.forward id received.event = s.broadcast ⟨id,"content",content,false,false⟩ := by
    simp [Session.forward,event,AgentStreamEvent.serdeName,AgentStreamEvent.content]
  unfold textChunk StreamRelay.openText
  cases active : session.activeText with
  | some segment =>
    have pushed := tracks.push active content (segment.flushCounter + 1)
    dsimp only
    rw [forwarded]
    exact pushed.fewer (freeIds_rest ..)
  | none =>
    obtain ⟨more,minted,fewer⟩ := freeIds_mint relay session received rest
    rw [minted] at tracks
    have started := (tracks.start active calm received.now true).fewer fewer
    have pushed := started.push rfl content 1
    dsimp only
    rw [forwarded]
    exact pushed

-- A flush that is due leaves nothing behind.
theorem Lagging.flush (relay : StreamRelay) (lagging : Lagging relay.adapter.conversationId origin chunks lost session)
    (tracks : Tracks origin done free calls session) (serving : Serving relay) (now : Int) :
    ∃ lost', Lagging relay.adapter.conversationId origin chunks lost' ((Micro.flush now).perform relay session) ∧
      lost'.length < flushInterval := by
  simp only [Micro.perform]
  have positive : 0 < flushInterval := by decide
  split
  · rename_i closed
    exact ⟨lost,lagging,by rw [lagging.idle closed]; exact positive⟩
  · rename_i segment active
    have count : segment.flushCounter = lost.length := by
      have counter := lagging.counter
      unfold Session.flushCounter at counter
      rw [active] at counter
      exact counter
    unfold StreamRelay.flush
    split
    · refine ⟨[],?_,positive⟩
      have pieces : session.fullText = String.join ((done ++ [(segment.id,segment.buffer)]).map Prod.snd) := by
        have text := tracks.text
        simpa [Session.open,active] using text
      by_cases empty : segment.buffer = ""
      · have skipped : (Operation.flushText segment).skipped = true := by simp [Operation.skipped,empty]
        have same : (relay.persist session.messages (.flushText segment) now) = session.messages := by
          simp [StreamRelay.persist,skipped]
        have unmade : segment.recordCreated = false := by
          cases created : segment.recordCreated with
          | false => rfl
          | true => exact absurd empty (tracks.created segment active created)
        obtain ⟨views,whole,opened⟩ := tracks.rows
        rw [active] at opened
        simp only [OpenRow,unmade,Bool.false_eq_true,if_false] at opened
        rw [opened,List.append_nil] at whole
        rw [join_append,empty,String.append_empty] at pieces
        simp only [StreamRelay.persisted,same]
        exact lagging_whole lagging.full whole pieces rfl lagging.ours
      · obtain ⟨next,attempted,rows,-,-⟩ := segment_write tracks serving active "work" none rfl
        have written : (flushTextWrite relay.adapter segment).attempt relay.known session.messages = .ok next := attempted
        have full : segment.buffer.isEmpty = false := by simpa [String.isEmpty_iff] using empty
        have persisted : relay.persist session.messages (.flushText segment) now = next := by
          simp [StreamRelay.persist,Operation.skipped,serving.allows,full,Operation.writes,StreamRelay.write,written]
        have views : (textRows origin next).map view = (done ++ [(segment.id,segment.buffer)]).map closedView := by
          rw [rows,List.map_append]
          rfl
        simp only [StreamRelay.persisted,persisted]
        exact lagging_whole lagging.full views pieces rfl (ours_written "work" none lagging.ours attempted)
    · rename_i early
      have same : ({ session with activeText := some segment } : Session) = session := by rw [← active]
      rw [same]
      exact ⟨lost,lagging,by omega⟩

theorem flush_piece (relay : StreamRelay) (tracks : Tracks origin done free calls session) (serving : Serving relay) (now : Int) :
    Tracks origin done free calls ((Micro.flush now).perform relay session) ∧
      ((Micro.flush now).perform relay session).usedPrimary = session.usedPrimary := by
  simp only [Micro.perform]
  split
  · exact ⟨tracks,rfl⟩
  · exact ⟨tracks.flushed serving ‹_› now,(flush_rest ..).1⟩

end Lags

section Crashes
variable {relay : StreamRelay} {origin : Messages Content} {done : List Piece} {conversationId : String}
  {free calls chunks lost coming : List String}
  {session : Session} {received : Received} {rest arrivals : List Received} {micro : Micro} {micros more : List Micro} {moment : Moment}

def Micro.said : Micro → List String
  | .text _ content => [content]
  | _ => []

def chunksOf (micros : List Micro) : List String := micros.flatMap Micro.said

-- The chunks that are lost, with those that have not been kept yet, are no more than
-- come in between two flushes.
def Behind (conversationId : String) (origin : Messages Content) (chunks coming : List String) (session : Session) : Prop :=
  ∃ lost, Lagging conversationId origin chunks lost session ∧ lost.length + coming.length ≤ flushInterval

-- A flush is not due.
def Paced (conversationId : String) (origin : Messages Content) (chunks : List String) (session : Session) : Prop :=
  ∃ lost, Lagging conversationId origin chunks lost session ∧ lost.length < flushInterval

structure Standing (conversationId : String) (origin : Messages Content) (chunks free calls : List String) (session : Session) :
    Prop where
  paced : Paced conversationId origin chunks session
  tracks : ∃ done, Tracks origin done free calls session

-- Wherever the pieces stop, the table is behind by no more than a flush, and after
-- them the turn goes on. The lifecycle may change between them.
def Steady (relay : StreamRelay) (origin : Messages Content) (rest : List Received) : List String → List Micro → Session → Prop
  | chunks,[],session => Standing relay.adapter.conversationId origin chunks (freeIds relay session rest) (callIds rest) session
  | chunks,micro :: more,session => Behind relay.adapter.conversationId origin chunks (chunksOf (micro :: more)) session ∧
      ∀ moment, Serving (relay.amid moment) → Steady relay origin rest (chunks ++ micro.said) more (micro.perform (relay.amid moment) session)

theorem Paced.behind (paced : Paced conversationId origin chunks session) (few : coming.length ≤ 1) :
    Behind conversationId origin chunks coming session := by
  obtain ⟨lost,lagging,short⟩ := paced
  exact ⟨lost,lagging,by omega⟩

theorem Steady.behind (steady : Steady relay origin rest chunks micros session) :
    Behind relay.adapter.conversationId origin chunks (chunksOf micros) session := by
  cases micros with
  | nil => exact steady.paced.behind (Nat.zero_le 1)
  | cons micro more => exact steady.1

-- A piece that says nothing.
theorem Steady.next (paced : Paced relay.adapter.conversationId origin chunks session) (silent : micro.said = [])
    (few : (chunksOf more).length ≤ 1)
    (later : ∀ moment, Serving (relay.amid moment) → Steady relay origin rest chunks more (micro.perform (relay.amid moment) session)) :
    Steady relay origin rest chunks (micro :: more) session := by
  have same : chunksOf (micro :: more) = chunksOf more := by simp [chunksOf,silent]
  refine ⟨paced.behind (same ▸ few),fun moment serving => ?_⟩
  rw [silent,List.append_nil]
  exact later moment serving

theorem Standing.steady {start : Session}
    (standing : Standing relay.adapter.conversationId origin chunks (freeIds relay start rest) (callIds rest) session)
    (used : session.usedPrimary = start.usedPrimary) : Steady relay origin rest chunks [] session := by
  rw [← freeIds_same used] at standing
  exact standing

theorem Standing.fewer (standing : Standing conversationId origin chunks free calls session) {remaining less : List String}
    (ids : remaining.Sublist free) (called : ∀ x ∈ less, x ∈ calls) : Standing conversationId origin chunks remaining less session := by
  obtain ⟨paced,done,tracks⟩ := standing
  exact ⟨paced,done,(tracks.fewer ids).fewer_calls called⟩

theorem Standing.forward (standing : Standing conversationId origin chunks free calls session) (msgId : String) {event : AgentStreamEvent}
    (plain : event.serdeName ≠ "content") : Standing conversationId origin chunks free calls (session.forward msgId event) := by
  obtain ⟨⟨lost,lagging,few⟩,done,tracks⟩ := standing
  exact ⟨⟨lost,lagging.same rfl rfl rfl,few⟩,done,tracks.forwarded msgId plain⟩

theorem Standing.completes (relay : StreamRelay) (standing : Standing relay.adapter.conversationId origin chunks free calls session)
    (now : Int) :
    Standing relay.adapter.conversationId origin chunks free calls (relay.completeActiveThinking now session) := by
  obtain ⟨⟨lost,lagging,few⟩,done,tracks⟩ := standing
  exact ⟨⟨lost,lagging.completes relay tracks now,few⟩,done,tracks.complete_thinking relay now⟩

theorem Standing.close (relay : StreamRelay) (standing : Standing relay.adapter.conversationId origin chunks free calls session)
    (serving : Serving relay)
    (settled : status ≠ "work") :
    Standing relay.adapter.conversationId origin chunks free calls (relay.closeActiveTextSegment status session) := by
  obtain ⟨⟨lost,lagging,-⟩,done,tracks⟩ := standing
  exact ⟨⟨[],lagging.close tracks serving settled,by decide⟩,tracks.close serving settled⟩

-- What a tool and a tip write is beside the text rows.
theorem Standing.beside (relay : StreamRelay) {start : Session}
    (standing : Standing relay.adapter.conversationId origin chunks (freeIds relay start (received :: rest)) (callIds (received :: rest)) session)
    (used : session.usedPrimary = start.usedPrimary) {operation : Operation} {x : String} (named : besideId operation = some x)
    (called : received.event.callId = some x ∨ x = received.mintedId) (now : Int) :
    Standing relay.adapter.conversationId origin chunks (freeIds relay start rest) (callIds rest) (relay.persisted session operation now) := by
  obtain ⟨⟨lost,lagging,few⟩,done,tracks⟩ := standing
  rw [← freeIds_same used] at tracks ⊢
  have kept := tracks.fewer (freeIds_rest ..)
  have apart : x ∉ owned done (freeIds relay session rest) session := by
    rcases called with asked | rfl
    · exact kept.apart x (List.mem_filterMap.mpr ⟨received,List.mem_cons_self,asked⟩)
    · exact tracks.minted_apart
  obtain ⟨off,-,-⟩ := kept.off_owned apart
  exact ⟨⟨lost,lagging.same (persist_aside named off now).text rfl rfl,few⟩,done,
    (kept.persisted named (.inr apart) now).fewer_calls (callIds_rest received rest)⟩

theorem Standing.thinks (relay : StreamRelay)
    (standing : Standing relay.adapter.conversationId origin chunks (freeIds relay session (received :: rest)) calls session)
    (closed : session.activeText = none) (data : ThinkingEventData) (event : received.event = .thinking data) :
    Standing relay.adapter.conversationId origin chunks (freeIds relay (thinkingChunk relay received data session) rest) calls
      (thinkingChunk relay received data session) := by
  obtain ⟨⟨lost,lagging,few⟩,done,tracks⟩ := standing
  have plain : received.event.serdeName ≠ "content" := by simp [event,AgentStreamEvent.serdeName]
  unfold thinkingChunk StreamRelay.openThinking
  cases active : session.activeThinking with
  | some segment =>
    have kept := tracks.rethink _ closed (some { segment with buffer := segment.buffer ++ data.content }) session.usedPrimary
      (by rw [active]; rfl) (List.Sublist.refl _)
    exact ⟨⟨lost,lagging.same rfl rfl rfl,few⟩,done,(kept.fewer (freeIds_rest ..)).forwarded segment.id plain⟩
  | none =>
    obtain ⟨more,minted,fewer⟩ := freeIds_mint relay session received rest
    rw [minted] at tracks
    have begun := tracks.rethink more closed (some ⟨relay.mintSegmentMsgId session received.mintedId,"" ++ data.content,received.now⟩) true
      (by rw [active]; rfl) (List.sublist_cons_self ..)
    exact ⟨⟨lost,lagging.same rfl rfl rfl,few⟩,done,(begun.fewer fewer).forwarded _ plain⟩

theorem steady_text (content : String) (event : received.event = .text content)
    (standing : Standing relay.adapter.conversationId origin chunks (freeIds relay session (received :: rest)) (callIds rest) session) :
    Steady relay origin rest chunks [.completeThinking received.now,.text received content,.flush received.now] session := by
  refine .next standing.paced rfl (Nat.le_refl 1) fun moment _ => ?_
  have completed := standing.completes (relay.amid moment) received.now
  obtain ⟨calm,-,used,-⟩ := complete_thinking_rest (relay.amid moment) received.now session
  refine ⟨completed.paced.behind (Nat.le_refl 1),fun moment _ => ?_⟩
  obtain ⟨⟨lost,lagging,few⟩,done,tracks⟩ := completed
  rw [← freeIds_same used] at tracks
  have chunk := lagging.chunk (relay.amid moment) content received
  have said := tracks.text_chunk (relay.amid moment) calm content event
  refine ⟨⟨_,chunk,?_⟩,fun moment serving => ?_⟩
  · rw [List.length_append]
    exact few
  · have flushed := chunk.flush (relay.amid moment) said serving received.now
    obtain ⟨kept,used⟩ := flush_piece (relay.amid moment) said serving received.now
    show Steady relay origin rest (chunks ++ [content] ++ []) [] _
    rw [List.append_nil]
    exact ⟨flushed,done,(freeIds_same used).symm ▸ kept⟩

theorem steady_thinking (data : ThinkingEventData) (event : received.event = .thinking data)
    (standing : Standing relay.adapter.conversationId origin chunks (freeIds relay session (received :: rest)) (callIds rest) session) :
    Steady relay origin rest chunks
      (if data.status = some "done" then [.completeThinking received.now] else [.closeText "finish",.thinking received data]) session := by
  split
  · refine .next standing.paced rfl (Nat.zero_le 1) fun moment _ => ?_
    have used := (complete_thinking_rest (relay.amid moment) received.now session).2.2.1
    have after := (standing.completes (relay.amid moment) received.now).fewer (freeIds_rest ..) fun _ call => call
    exact after.steady used
  · refine .next standing.paced rfl (Nat.zero_le 1) fun moment serving => ?_
    have after := standing.close (relay.amid moment) serving finish_settled
    obtain ⟨closed,-,used,-⟩ := close_rest (relay.amid moment) "finish" session
    refine .next after.paced rfl (Nat.zero_le 1) fun moment _ => ?_
    rw [← freeIds_same used] at after
    exact after.thinks (relay.amid moment) closed data event

theorem steady_tool (operation : Operation) (tool : ToolOperation received operation)
    (standing : Standing relay.adapter.conversationId origin chunks (freeIds relay session (received :: rest)) (callIds (received :: rest)) session) :
    Steady relay origin rest chunks (toolMicros received operation) session := by
  refine .next standing.paced rfl (Nat.zero_le 1) fun moment _ => ?_
  have completed := standing.completes (relay.amid moment) received.now
  have used := (complete_thinking_rest (relay.amid moment) received.now session).2.2.1
  refine .next completed.paced rfl (Nat.zero_le 1) fun moment serving => ?_
  have closed := completed.close (relay.amid moment) serving finish_settled
  have again := (close_rest (relay.amid moment) "finish" _).2.2.1.trans used
  refine .next closed.paced rfl (Nat.zero_le 1) fun moment _ => ?_
  have sent := closed.forward relay.adapter.msgId (tool_plain tool).1
  refine .next sent.paced rfl (Nat.zero_le 1) fun moment _ => ?_
  obtain ⟨x,named,called⟩ := tool_beside tool
  have after := sent.beside (relay.amid moment) again named called received.now
  exact after.steady again

theorem steady_tips (data : TipsEventData) (event : received.event = .tips data)
    (standing : Standing relay.adapter.conversationId origin chunks (freeIds relay session (received :: rest)) (callIds (received :: rest)) session) :
    Steady relay origin rest chunks (tipMicros received data) session := by
  have plain : received.event.serdeName ≠ "content" := by simp [event,AgentStreamEvent.serdeName]
  have sent := standing.forward relay.adapter.msgId plain
  unfold tipMicros
  cases data.tipType with
  | error => exact .next standing.paced rfl (Nat.zero_le 1) fun _ _ => sent.fewer (freeIds_rest ..) (callIds_rest received rest)
  | success | warning | info =>
    refine .next standing.paced rfl (Nat.zero_le 1) fun moment _ => ?_
    refine .next sent.paced rfl (Nat.zero_le 1) fun moment _ => ?_
    exact sent.beside (relay.amid moment) rfl rfl (.inr rfl) received.now

theorem steady_event
    (standing : Standing relay.adapter.conversationId origin chunks (freeIds relay session (received :: rest)) (callIds (received :: rest)) session) :
    Steady relay origin rest chunks (eventMicros received) session := by
  have fewer := standing.fewer (List.Sublist.refl _) (callIds_rest received rest)
  unfold eventMicros
  cases event : received.event with
  | text content => exact steady_text content event fewer
  | thinking data => exact steady_thinking data event fewer
  | toolCall data => exact steady_tool (.toolCall data) event standing
  | acpToolCall data => exact steady_tool (.acpToolCall data) event standing
  | toolGroup entries => exact steady_tool (.toolGroup received.mintedId entries) ⟨rfl,event⟩ standing
  | tips data => exact steady_tips data event standing
  | other | finish | error =>
    have plain := plain_passed event fun _ same => by cases same
    rw [event] at plain
    have sent := fewer.forward relay.adapter.msgId plain
    exact .next standing.paced rfl (Nat.zero_le 1) fun _ _ => sent.fewer (freeIds_rest ..) fun _ call => call

theorem steady_close (received : Received)
    (standing : Standing relay.adapter.conversationId origin chunks (freeIds relay session rest) (callIds rest) session) :
    Steady relay origin rest chunks (closeMicros received) session := by
  refine .next standing.paced rfl (Nat.zero_le 1) fun moment _ => ?_
  have completed := standing.completes (relay.amid moment) received.now
  have used := (complete_thinking_rest (relay.amid moment) received.now session).2.2.1
  refine .next completed.paced rfl (Nat.zero_le 1) fun moment serving => ?_
  have closed := completed.close (relay.amid moment) serving (final_settled received.event)
  exact closed.steady ((close_rest (relay.amid moment) (finalStatus received.event) _).2.2.1.trans used)

theorem steady_terminal (ended : received.event.isTerminal = true)
    (standing : Standing relay.adapter.conversationId origin chunks (freeIds relay session rest) (callIds rest) session) :
    Steady relay origin rest chunks (closeMicros received ++ [Micro.forward received.event]) session := by
  refine .next standing.paced rfl (Nat.zero_le 1) fun moment _ => ?_
  have completed := standing.completes (relay.amid moment) received.now
  have used := (complete_thinking_rest (relay.amid moment) received.now session).2.2.1
  refine .next completed.paced rfl (Nat.zero_le 1) fun moment serving => ?_
  have closed := completed.close (relay.amid moment) serving (final_settled received.event)
  have again := (close_rest (relay.amid moment) (finalStatus received.event) _).2.2.1.trans used
  refine .next closed.paced rfl (Nat.zero_le 1) fun _ _ => ?_
  exact (closed.forward relay.adapter.msgId (terminal_plain ended)).steady again

def AgentStreamEvent.said : AgentStreamEvent → List String
  | .text content => [content]
  | _ => []

def streamedChunks (arrivals : List Received) : List String := arrivals.flatMap fun received => received.event.said

theorem event_chunks (received : Received) : chunksOf (eventMicros received) = received.event.said := by
  unfold eventMicros
  cases received.event with
  | text | toolCall | acpToolCall | toolGroup | other | finish | error => rfl
  | thinking data =>
    dsimp only
    split <;> rfl
  | tips data =>
    dsimp only
    unfold tipMicros
    cases data.tipType <;> rfl

theorem terminal_silent (ended : received.event.isTerminal = true) : received.event.said = [] := by
  cases event : received.event with
  | text =>
    rw [event] at ended
    cases ended
  | tips | toolCall | acpToolCall | toolGroup | thinking | other | finish | error => rfl

end Crashes

section Runs
variable {relay : StreamRelay} {origin : Messages Content} {chunks free calls : List String} {turn next : Turn} {rest : List Received}
  {inputs : List Input} {input : Input}

def Input.moment : Input → Moment
  | .arrive _ moment | .close moment | .go moment => moment

-- The conversation is there and nobody deletes it.
def Undisturbed (relay : StreamRelay) (moment : Moment) : Prop :=
  moment.runtime.lifecycleFor relay.adapter.conversationId = .active ∧ moment.known relay.adapter.conversationId = true

-- A turn whose text has not been finalised.
structure Midway (relay : StreamRelay) (origin : Messages Content) (arrivals rest : List Received) (turn : Turn) (chunks : List String) :
    Prop where
  all : chunks ++ chunksOf turn.todo = streamedChunks arrivals
  goes : turn.ending = none → Steady relay origin rest chunks turn.todo turn.session
  ends : turn.ending ≠ none → turn.todo ≠ [] → ∃ micros received terminal, turn.todo = micros ++ [.finalize received terminal] ∧
    Steady relay origin rest chunks micros turn.session

theorem Undisturbed.serving (calm : Undisturbed relay moment) : Serving (relay.amid moment) ∧ (relay.amid moment).isDeleting = false :=
  serving_active calm.1 calm.2

theorem Midway.behind (midway : Midway relay origin arrivals rest turn chunks) (unfinished : turn.returned = false) :
    Behind relay.adapter.conversationId origin chunks (chunksOf turn.todo) turn.session := by
  cases ending : turn.ending with
  | none => exact (midway.goes ending).behind
  | some deleting =>
    have open_ : turn.todo ≠ [] := fun none => by simp [Turn.returned,none,ending] at unfinished
    obtain ⟨micros,received,terminal,whole,steady⟩ := midway.ends (by simp [ending]) open_
    have same : chunksOf turn.todo = chunksOf micros := by
      rw [whole]
      simp [chunksOf,Micro.said]
    rw [same]
    exact steady.behind

theorem streamed_last (arrivals : List Received) (received : Received) :
    streamedChunks (arrivals ++ [received]) = streamedChunks arrivals ++ received.event.said := by
  simp [streamedChunks]

theorem Midway.standing {arrivals : List Received} (midway : Midway relay origin arrivals rest turn chunks) (waits : turn.waits = true) :
    chunks = streamedChunks arrivals ∧
      Standing relay.adapter.conversationId origin chunks (freeIds relay turn.session rest) (callIds rest) turn.session := by
  obtain ⟨idle,waiting⟩ := Turn.waits_exact waits
  have steady := midway.goes waiting
  have all := midway.all
  rw [idle] at steady all
  exact ⟨(List.append_nil chunks).symm.trans all,steady⟩

theorem Midway.arrive {arrivals : List Received} {received : Received}
    (midway : Midway relay origin arrivals (received :: rest) turn chunks)
    (waits : turn.waits = true) : Midway relay origin (arrivals ++ [received]) rest (arrived received false turn) chunks := by
  obtain ⟨-,waiting⟩ := Turn.waits_exact waits
  obtain ⟨rfl,standing⟩ := midway.standing waits
  unfold arrived
  split
  · rename_i ended
    have less := standing.fewer (freeIds_rest ..) (callIds_rest received rest)
    refine ⟨?_,fun open_ => absurd open_ (Option.some_ne_none false),
      fun _ _ => ⟨closeMicros received ++ [Micro.forward received.event],received,_,rfl,steady_terminal ended less⟩⟩
    rw [streamed_last,terminal_silent ended]
    rfl
  · refine ⟨?_,fun _ => steady_event standing,fun ended => absurd waiting ended⟩
    rw [streamed_last]
    exact congrArg _ (event_chunks received)

theorem Midway.close {arrivals : List Received} (midway : Midway relay origin arrivals rest turn chunks) (waits : turn.waits = true) :
    Midway relay origin arrivals rest { turn with todo := closedMicros relay false, ending := some false } chunks := by
  obtain ⟨rfl,standing⟩ := midway.standing waits
  exact ⟨List.append_nil _,fun open_ => absurd open_ (Option.some_ne_none false),
    fun _ _ => ⟨closeMicros ⟨.finish,"",relay.closedAt⟩,_,_,rfl,steady_close _ standing⟩⟩

theorem Midway.go {arrivals : List Received} (midway : Midway relay origin arrivals rest turn chunks)
    (serving : Serving (relay.amid moment))
    (taken : step relay turn (.go moment) = some next) : ∃ chunks, Midway relay origin arrivals rest next chunks := by
  obtain ⟨session,todo,ending,log⟩ := turn
  cases todo with
  | nil => cases taken
  | cons micro more =>
    cases taken
    have all : (chunks ++ micro.said) ++ chunksOf more = streamedChunks arrivals := by
      rw [List.append_assoc]
      exact midway.all
    refine ⟨chunks ++ micro.said,all,fun open_ => (midway.goes open_).2 moment serving,fun ended left => ?_⟩
    obtain ⟨micros,received,terminal,whole,steady⟩ := midway.ends ended (List.cons_ne_nil micro more)
    cases micros with
    | nil => exact absurd (List.cons.inj whole).2 left
    | cons first others =>
      obtain ⟨rfl,rfl⟩ := List.cons.inj whole
      exact ⟨others,received,terminal,rfl,steady.2 moment serving⟩

theorem midway_run (path : Runs (step relay) (Turn.begin origin) inputs turn) (calm : ∀ input ∈ inputs, Undisturbed relay input.moment)
    (fresh : Fresh relay origin (receivedIn inputs ++ rest)) : ∃ chunks, Midway relay origin (receivedIn inputs) rest turn chunks := by
  induction path generalizing rest with
  | nil =>
    have none : textRows origin (Session.begin origin).messages = [] := textRows_origin origin
    have empty : Lagging relay.adapter.conversationId origin [] [] (Session.begin origin) :=
      @lagging_whole origin _ [] _ rfl [] (congrArg _ none) rfl rfl (none.symm ▸ fun row inside => absurd inside List.not_mem_nil)
    exact ⟨[],rfl,fun _ => ⟨⟨[],empty,by decide⟩,[],tracks_begin fresh⟩,fun ended => absurd rfl ended⟩
  | @snoc earlier middle input after prior taken ih =>
    obtain ⟨serving,going⟩ := (calm input (List.mem_append_right _ List.mem_cons_self)).serving
    have past {rest : List Received} (fresh : Fresh relay origin (receivedIn earlier ++ rest)) :=
      ih (fun input inside => calm input (List.mem_append_left _ inside)) fresh
    cases input with
    | arrive received moment =>
      have more : receivedIn (earlier ++ [Input.arrive received moment]) = receivedIn earlier ++ [received] := by simp [receivedIn]
      rw [more,List.append_assoc] at fresh
      obtain ⟨chunks,midway⟩ := past fresh
      obtain ⟨waits,rfl⟩ := step_arrive taken
      have awake : (relay.amid moment).isDeleting = false := going
      rw [more,awake]
      exact ⟨chunks,midway.arrive waits⟩
    | close moment =>
      have same : receivedIn (earlier ++ [Input.close moment]) = receivedIn earlier := by simp [receivedIn]
      rw [same] at fresh ⊢
      obtain ⟨chunks,midway⟩ := past fresh
      obtain ⟨waits,rfl⟩ := step_close taken
      have awake : (relay.amid moment).isDeleting = false := going
      rw [awake]
      exact ⟨chunks,midway.close waits⟩
    | go moment =>
      have same : receivedIn (earlier ++ [Input.go moment]) = receivedIn earlier := by simp [receivedIn]
      rw [same] at fresh ⊢
      obtain ⟨chunks,midway⟩ := past fresh
      exact midway.go serving taken

theorem unique_run (path : Runs (step relay) (Turn.begin origin) inputs turn) (unique : UniqueIds origin) :
    UniqueIds turn.session.messages := by
  induction path with
  | nil => exact unique
  | @snoc earlier middle input after prior taken ih =>
    cases input with
    | arrive received moment =>
      obtain ⟨-,rfl⟩ := step_arrive taken
      unfold arrived
      split
      · exact ih
      · split <;> exact ih
    | close moment =>
      obtain ⟨-,rfl⟩ := step_close taken
      exact ih
    | go moment =>
      obtain ⟨session,todo,ending,log⟩ := middle
      cases todo with
      | nil => cases taken
      | cons micro more =>
        cases taken
        exact unique_perform micro ih

end Runs

section Recovery
variable {relay : StreamRelay} {origin messages : Messages Content} {known : String → Bool} {turn : Turn} {inputs : List Input}
  {row : Row}

-- The table after a start, for one whose turn broke off after the given chunks: the
-- turn's text is there but for the last of them, nothing is left running, and what
-- is hidden is blank.
structure Restored (relay : StreamRelay) (origin : Messages Content) (known : String → Bool) (chunks : List String)
    (crashed recovered : Messages Content) : Prop where
  text : ∃ kept lost, chunks = kept ++ lost ∧ lost.length ≤ flushInterval ∧ storedText origin recovered = String.join kept
  finished : ∀ row ∈ textRows origin recovered, row.status ≠ some "work"
  hidden : ∀ row ∈ textRows origin recovered, row.hidden = true → RustText.trim (rowText row) = ""
  rows : recovered.map (fun row => (row.id,row.content)) = crashed.map fun row => (row.id,row.content)
  others : ∀ row ∈ crashed, stale known row = false → row ∈ recovered
  once : ∀ row ∈ recovered, stale known row = false

theorem settled_stale (known : String → Bool) (row : Row) : stale known (settleRow known row) = false := by
  unfold settleRow
  split
  · simp [stale,recoveryUpdate,MessageRowUpdate.apply]
  · exact Bool.eq_false_iff.mpr ‹_›

theorem blank_text (blank : messageHasVisibleContent row = false) : RustText.trim (rowText row) = "" := by
  have nothing : RustText.trim "" = "" := by decide
  unfold messageHasVisibleContent at blank
  unfold rowText Content.text
  cases content : row.content with
  | object fields =>
    cases found : fields.lookup "content" with
    | none =>
      simp only [found]
      exact nothing
    | some field =>
      simp only [content,found] at blank ⊢
      cases field with
      | leaf leaf =>
        cases leaf with
        | text text => simpa [String.isEmpty_iff] using blank
        | _ => exact nothing
      | _ => exact nothing
  | _ => exact nothing

theorem settled_finished (there : known row.conversationId = true) (left : row.position = some "left") (text : row.type = "text") :
    (settleRow known row).status ≠ some "work" := by
  intro work
  have sound := settled_stale known row
  have ours : (settleRow known row).conversationId = row.conversationId ∧ (settleRow known row).position = row.position := by
    unfold settleRow
    split <;> exact ⟨rfl,rfl⟩
  have running : stale known (settleRow known row) = true := by
    simp [stale,ours,there,left,work,(settleRow_keeps known row).2,text]
  exact Bool.false_ne_true (sound.symm.trans running)

theorem settled_hidden (shown : row.hidden = false) (hidden : (settleRow known row).hidden = true) :
    RustText.trim (rowText (settleRow known row)) = "" := by
  have same : rowText (settleRow known row) = rowText row := congrArg Content.text (settleRow_content known row)
  rw [same]
  unfold settleRow at hidden
  split at hidden
  · refine blank_text ?_
    have placeholder : classifyRecoveryAction row = .finishEmptyPlaceholder := by
      simpa [recoveryUpdate,MessageRowUpdate.apply] using hidden
    by_contra visible
    simp [classifyRecoveryAction,Bool.not_eq_false _ ▸ visible] at placeholder
  · exact absurd hidden (Bool.eq_false_iff.mp shown)

-- A turn of a conversation that is there and is not deleted, stopped anywhere before
-- its text is finalised; the runtime state of a start is a new one.
theorem crash_recovered (path : Runs (step relay) (Turn.begin origin) inputs turn) (unfinished : turn.returned = false)
    (undisturbed : ∀ input ∈ inputs, Undisturbed relay input.moment) (fresh : Fresh relay origin (receivedIn inputs))
    (unique : UniqueIds origin) (kept : known relay.adapter.conversationId = true) :
    Restored relay origin known (streamedChunks (receivedIn inputs)) turn.session.messages
      (recoverStaleRuntimeStateOnStartup known RuntimeState.fresh turn.session.messages) := by
  rw [recover_map (unique_run path unique) fun _ => rfl]
  have all : Fresh relay origin (receivedIn inputs ++ []) := (List.append_nil _).symm ▸ fresh
  obtain ⟨chunks,midway⟩ := midway_run path undisturbed all
  obtain ⟨lost,lagging,few⟩ := midway.behind unfinished
  have rows : textRows origin (turn.session.messages.map (settleRow known)) =
      (textRows origin turn.session.messages).map (settleRow known) :=
    textRows_map (settleRow_keeps known)
  refine ⟨?_,fun row inside work => ?_,fun row inside hidden => ?_,?_,fun row inside fine => ?_,fun row inside => ?_⟩
  · obtain ⟨saved,split,stored⟩ := lagging.stored
    refine ⟨saved,lost ++ chunksOf turn.todo,?_,?_,?_⟩
    · rw [← midway.all,split,List.append_assoc]
    · rw [List.length_append]
      exact few
    · rw [← stored]
      unfold storedText
      rw [rows,List.map_map]
      exact congrArg String.join (List.map_congr_left fun row _ => congrArg Content.text (settleRow_content known row))
  · rw [rows] at inside
    obtain ⟨old,earlier,rfl⟩ := List.mem_map.mp inside
    obtain ⟨left,ours⟩ := lagging.ours old earlier
    have text : old.type = "text" := by
      obtain ⟨-,passes⟩ := List.mem_filter.mp earlier
      rw [Bool.and_eq_true] at passes
      exact of_decide_eq_true passes.1
    exact settled_finished (ours ▸ kept) left text work
  · rw [rows] at inside
    obtain ⟨old,earlier,rfl⟩ := List.mem_map.mp inside
    exact settled_hidden (lagging.shown old earlier) hidden
  · rw [List.map_map]
    exact List.map_congr_left fun row _ => Prod.ext (settleRow_keeps known row).1 (settleRow_content known row)
  · exact List.mem_map.mpr ⟨row,inside,if_neg (Bool.eq_false_iff.mp fine)⟩
  · obtain ⟨old,-,rfl⟩ := List.mem_map.mp inside
    exact settled_stale known old

section Examples

def wrote (text x : String) (now : Int) : Input := .arrive ⟨.text text,x,now⟩ calm

def brokenOff : List Input :=
  [wrote "a" "first" 1,.go calm,.go calm,.go calm,.arrive ⟨.toolCall ⟨"call","read",.null,.completed,none,none,none⟩,"second",2⟩ calm,
    .go calm,.go calm,.go calm,.go calm,wrote "b" "third" 3,.go calm,.go calm]

theorem brokenOff_calm : ∀ input ∈ brokenOff, Undisturbed plainRelay input.moment := by
  have there : Undisturbed plainRelay calm := ⟨rfl,rfl⟩
  simp [brokenOff,wrote,Input.moment,there]

-- The second chunk has come in, and is nowhere when the process ends.
theorem crash_recovered_early : ∃ turn, Runs (step plainRelay) (Turn.begin []) brokenOff turn ∧
    Restored plainRelay [] (fun _ => true) ["a","b"] turn.session.messages
      (recoverStaleRuntimeStateOnStartup (fun _ => true) RuntimeState.fresh turn.session.messages) :=
  ⟨_,exec_exact.mp rfl,@crash_recovered plainRelay [] (fun _ => true) _ brokenOff (exec_exact.mp rfl) rfl brokenOff_calm
    ⟨by decide,fun _ inside => absurd inside List.not_mem_nil,by decide⟩ List.nodup_nil rfl⟩

end Examples

end Recovery

end AlineaCopilot.StreamRelays
