import AlineaCopilot.StreamRelayTurns
open AlineaCopilot.KeyedMaps AlineaCopilot.MessageTable AlineaCopilot.ConversationRuntime
open AlineaCopilot.StreamPersistence

namespace AlineaCopilot.StreamRelays

section Ends
variable {origin : Messages Content} {done : List Piece} {free calls : List String} {session : Session}
  {relay : StreamRelay} {received : Received} {arrivals : List Received}

-- Where a turn stands when its text is finalised: nothing is open.
structure Ends (origin : Messages Content) (done : List Piece) (received : Received) (session : Session) : Prop where
  tracks : Tracks origin done [] [] session
  closed : session.activeText = none
  tip : received.event.isError = true → received.mintedId ∉ owned done [] session

theorem final_settled (event : AgentStreamEvent) : finalStatus event ≠ "work" := by
  unfold finalStatus
  cases event.isError <;> decide

theorem close_full (relay : StreamRelay) (received : Received) (session : Session) :
    (relay.close received session).fullText = session.fullText ∧ (relay.close received session).activeText = none ∧
    (relay.close received session).usedPrimary = session.usedPrimary := by
  obtain ⟨_,_,used,text⟩ := complete_thinking_rest relay received.now session
  obtain ⟨closed,_,again,kept⟩ := close_rest relay (finalStatus received.event)
    (relay.completeActiveThinking received.now session)
  exact ⟨kept.trans text,closed,again.trans used⟩

theorem Tracks.ends (tracks : Tracks origin done free calls session) (serving : Serving relay) (received : Received) :
    ∃ done', Tracks origin done' free calls (relay.close received session) :=
  (tracks.complete_thinking relay received.now).close serving (final_settled received.event)

theorem terminal_plain (ended : received.event.isTerminal = true) : received.event.serdeName ≠ "content" := by
  cases event : received.event with
  | finish | error => simp [AgentStreamEvent.serdeName]
  | text | tips | toolCall | acpToolCall | toolGroup | thinking | other =>
    rw [event] at ended
    cases ended

theorem consume_ends (tracks : Tracks origin done (freeIds relay session arrivals) (callIds arrivals) session)
    (serving : Serving relay) (active : relay.isDeleting = false) :
    ∃ done' received terminal last, relay.consume arrivals session = relay.finalize received terminal last ∧
      Ends origin done' received last ∧ last.fullText = session.fullText ++ streamedText arrivals := by
  induction arrivals generalizing session done with
  | nil =>
    obtain ⟨done',after⟩ := tracks.ends serving ⟨.finish,"",relay.closedAt⟩
    obtain ⟨text,closed,_⟩ := close_full relay ⟨.finish,"",relay.closedAt⟩ session
    refine ⟨done',⟨.finish,"",relay.closedAt⟩,.channelClosed,_,?_,⟨after.fewer (List.nil_sublist _),closed,fun error => absurd error Bool.false_ne_true⟩,?_⟩
    · simp [StreamRelay.consume,StreamRelay.onClosed,active]
    · exact text.trans String.append_empty.symm
  | cons received rest ih =>
    cases ended : received.event.isTerminal with
    | true =>
      obtain ⟨done',after⟩ := tracks.ends serving received
      obtain ⟨text,closed,used⟩ := close_full relay received session
      rw [← freeIds_same used] at after
      have apart := after.minted_apart
      have passed := (after.fewer (List.nil_sublist _)).forwarded relay.adapter.msgId (terminal_plain ended)
      refine ⟨done',received,terminalFromEvent received.event,_,?_,⟨passed.fewer_calls nofun,closed,fun _ => ?_⟩,?_⟩
      · simp only [StreamRelay.consume,ended,if_true,StreamRelay.onTerminal,active,Bool.false_eq_true,if_false]
      · refine mt (fun member => ?_) apart
        exact (List.Sublist.append_left (List.nil_sublist _) _).subset member
      · rw [streamedText,if_pos ended,String.append_empty]
        exact text
    | false =>
      obtain ⟨done',after⟩ := tracks.on_event serving
      obtain ⟨final,last,terminal,past,same,ends,text⟩ := ih after
      refine ⟨final,last,terminal,past,?_,ends,?_⟩
      · rw [← same]
        simp [StreamRelay.consume,ended,active]
      · rw [text,on_event_full,streamedText,if_neg (by simp [ended])]
        exact String.append_assoc ..

end Ends

section Finished
variable {origin : Messages Content} {done others : List Piece} {session : Session} {relay : StreamRelay}
  {received : Received} {terminal : RelayTerminal} {first : Piece} {finalText : String} {hidden : Bool} {status : String}

def visibleView (views : List RowView) (id : String) : String :=
  match views.find? fun row => row.id = id with
  | none => ""
  | some row => if row.hidden then "" else row.text

theorem visibleIn_view (rows : Messages Content) (id : String) : visibleIn rows id = visibleView (rows.map view) id := by
  unfold visibleIn visibleView
  rw [List.find?_map]
  cases found : rows.find? ((fun row => decide (row.id = id)) ∘ view) with
  | none =>
    have same : (rows.find? fun row => decide (row.id = id)) = none := found
    rw [same]
    rfl
  | some row =>
    have same : (rows.find? fun row => decide (row.id = id)) = some row := found
    rw [same]
    rfl

theorem visible_closed (done : List Piece) (id : String) : visibleView (done.map closedView) id = said done id := by
  unfold visibleView said
  rw [List.find?_map]
  have same : ((fun row : RowView => decide (row.id = id)) ∘ closedView) = fun piece : Piece => decide (piece.1 = id) := rfl
  rw [same]
  cases done.find? fun piece => piece.1 = id <;> rfl

def hiddenView (piece : Piece) : RowView := ⟨piece.1,piece.2,true⟩

theorem visible_hidden (done : List Piece) (id : String) : visibleView (done.map hiddenView) id = "" := by
  unfold visibleView
  rw [List.find?_map]
  cases done.find? ((fun row : RowView => decide (row.id = id)) ∘ hiddenView) <;> rfl

theorem first_apart (distinct : ((first :: others).map Prod.fst).Nodup) : first.1 ∉ others.map Prod.fst :=
  (List.nodup_cons.mp distinct).1

-- The table after a rewrite: the first segment has the text, the others are hidden.
theorem rewritten_rows (distinct : ((first :: others).map Prod.fst).Nodup)
    (rows : (textRows origin messages).map view = (first :: others).map closedView) :
    (textRows origin ((finalTextWrites relay.adapter now ((first :: others).map Prod.fst) status finalText hidden true).foldl
      relay.write messages)).map view = ⟨first.1,finalText,hidden⟩ :: others.map hiddenView := by
  have apart := first_apart distinct
  let rewrite : RowUpdate := { content := some (textContent finalText), status := some (some status), hidden := some hidden }
  let hide : RowUpdate := { status := some (some status), hidden := some true }
  have writes : finalTextWrites relay.adapter now ((first :: others).map Prod.fst) status finalText hidden true =
      .update first.1 rewrite :: (others.map Prod.fst).map fun id => .update id hide := rfl
  obtain ⟨row,rest,split,head,tail⟩ := List.map_eq_cons_iff.mp rows
  have named : row.id = first.1 := congrArg RowView.id head
  rw [writes,List.foldl_cons,writes_update,write_update,textRows_map (updateRow_keeps first.1 rewrite),split]
  simp only [List.map_cons,List.map_map]
  congr 1
  · simp [updateRow,named,apart,view,rewrite,MessageRowUpdate.apply,rowText]
  · have hidden_rest : ∀ row ∈ rest, (view ∘ (fun row => if row.id ∈ others.map Prod.fst then hide.apply row else row) ∘
        updateRow first.1 rewrite) row = { view row with hidden := true } := by
      intro row inside
      have member : view row ∈ others.map closedView := tail ▸ List.mem_map_of_mem inside
      obtain ⟨piece,closed,shows⟩ := List.mem_map.mp member
      have other : row.id ∈ others.map Prod.fst := List.mem_map.mpr ⟨piece,closed,congrArg RowView.id shows⟩
      have unlike : row.id ≠ first.1 := fun equal => apart (equal ▸ other)
      simp [updateRow,unlike,other,view,hide,MessageRowUpdate.apply,rowText]
    rw [List.map_congr_left hidden_rest]
    have views := congrArg (List.map fun seen : RowView => { seen with hidden := true }) tail
    rw [List.map_map,List.map_map] at views
    exact views

theorem replay_hidden (ids : List String) (shown : String → String × Bool) (id : String) :
    ((ids.map fun id => overridePayload ⟨id,"",true⟩).foldl replayOne shown) id = if id ∈ ids then ("",true) else shown id := by
  induction ids generalizing shown with
  | nil => rfl
  | cons first rest ih =>
    have step : replayOne shown (overridePayload ⟨first,"",true⟩) = Function.update shown first ("",true) := rfl
    rw [List.map_cons,List.foldl_cons,ih,step]
    by_cases inside : id ∈ rest
    · rw [if_pos inside,if_pos (List.mem_cons_of_mem _ inside)]
    · by_cases same : id = first
      · subst same
        simp [inside]
      · rw [if_neg inside,Function.update_of_ne same]
        simp [inside,same]

theorem said_absent {pieces : List Piece} {id : String} (absent : id ∉ pieces.map Prod.fst) : said pieces id = "" := by
  have none : (pieces.find? fun piece => piece.1 = id) = none := by
    refine List.find?_eq_none.mpr fun piece inside equal => absent ?_
    exact List.mem_map.mpr ⟨piece,inside,of_decide_eq_true equal⟩
  unfold said
  rw [none]

-- A client that replays the overrides sees what the table shows.
theorem rewritten_shown (distinct : ((first :: others).map Prod.fst).Nodup)
    (shown : ∀ id, before id = (said (first :: others) id,false)) (id : String) :
    visibleTo (((StreamPersistence.finalTextOverrides ((first :: others).map Prod.fst) finalText hidden true).map
      overridePayload).foldl replayOne before id) = visibleView (⟨first.1,finalText,hidden⟩ :: others.map hiddenView) id := by
  have apart := first_apart distinct
  have overrides : (StreamPersistence.finalTextOverrides ((first :: others).map Prod.fst) finalText hidden true).map
      overridePayload = overridePayload ⟨first.1,finalText,hidden⟩ ::
        (others.map Prod.fst).map fun id => overridePayload ⟨id,"",true⟩ := by
    simp [StreamPersistence.finalTextOverrides]
  have step : replayOne before (overridePayload ⟨first.1,finalText,hidden⟩) =
      Function.update before first.1 (finalText,hidden) := rfl
  rw [overrides,List.foldl_cons,replay_hidden,step]
  by_cases same : first.1 = id
  · subst same
    rw [if_neg apart]
    simp [visibleTo,visibleView]
  · have rest : visibleView (⟨first.1,finalText,hidden⟩ :: others.map hiddenView) id = "" := by
      rw [← visible_hidden others id]
      simp [visibleView,same]
    rw [rest]
    split
    · rfl
    · rename_i other
      have absent : id ∉ (first :: others).map Prod.fst := by
        rw [List.map_cons,List.mem_cons,not_or]
        exact ⟨Ne.symm same,other⟩
      rw [Function.update_of_ne (Ne.symm same),shown,said_absent absent]
      rfl

-- A final write that rewrites nothing leaves the texts and shows them.
theorem kept_rows (rows : (textRows origin messages).map view = done.map closedView) :
    (textRows origin ((finalTextWrites relay.adapter now (done.map Prod.fst) status finalText false false).foldl
      relay.write messages)).map view = done.map closedView ∨ done = [] := by
  cases done with
  | nil => exact .inr rfl
  | cons first others =>
    left
    let show_all : RowUpdate := { status := some (some status), hidden := some false }
    have writes : finalTextWrites relay.adapter now ((first :: others).map Prod.fst) status finalText false false =
        ((first :: others).map Prod.fst).map fun id => .update id show_all := rfl
    rw [writes,writes_update,← rows,List.map_map]
    refine List.map_congr_left fun row inside => ?_
    have member : view row ∈ (first :: others).map closedView := rows ▸ List.mem_map_of_mem inside
    obtain ⟨piece,_,shows⟩ := List.mem_map.mp member
    have plain : row.hidden = false := (congrArg RowView.hidden shows).symm
    simp only [Function.comp]
    split
    · simp [view,show_all,MessageRowUpdate.apply,rowText,plain]
    · rfl

-- A write that sets a final status.
def Settles (status : String) : Write → Prop
  | .update _ changes => changes.status = some (some status)
  | _ => False

theorem settled_writes {writes : List Write} (settles : ∀ write ∈ writes, Settles status write) (final : status ≠ "work")
    (settled : ∀ row ∈ textRows origin messages, row.status ≠ some "work") :
    ∀ row ∈ textRows origin (writes.foldl relay.write messages), row.status ≠ some "work" := by
  induction writes generalizing messages with
  | nil => exact settled
  | cons write rest ih =>
    refine ih (fun write inside => settles write (List.mem_cons_of_mem _ inside)) ?_
    have sets := settles write List.mem_cons_self
    cases write with
    | insert | updateOrInsert => cases sets
    | update id changes =>
      have sets : changes.status = some (some status) := sets
      rw [write_update,textRows_map (updateRow_keeps id changes)]
      intro row inside
      obtain ⟨old,earlier,rfl⟩ := List.mem_map.mp inside
      unfold updateRow
      split
      · simp [MessageRowUpdate.apply,sets,final]
      · exact settled old earlier

theorem final_writes_settle (adapter : Adapter) (now : Int) (segments : List String) (filled : segments ≠ [])
    (status finalText : String) (hidden rewrite : Bool) :
    ∀ write ∈ finalTextWrites adapter now segments status finalText hidden rewrite, Settles status write := by
  intro write inside
  cases segments with
  | nil => exact absurd rfl filled
  | cons first others =>
    cases rewrite with
    | false =>
      obtain ⟨id,_,rfl⟩ := List.mem_map.mp inside
      rfl
    | true =>
      rcases List.mem_cons.mp inside with rfl | later
      · rfl
      · obtain ⟨id,_,rfl⟩ := List.mem_map.mp later
        rfl

end Finished

section Faithful
variable {origin : Messages Content} {done : List Piece} {session : Session} {relay : StreamRelay} {received : Received}
  {arrivals : List Received}

-- How the text rows of a turn and its payloads stand for the text that was
-- streamed and what the middleware made of it.
structure Faithful (relay : StreamRelay) (origin : Messages Content) (text : String) (session : Session) : Prop where
  order : (textRows origin session.messages).map MessageRow.id = session.textSegments
  kept : text = "" ∨ (relay.process text).message = text ∧ RustText.trim text ≠ "" →
    (∀ row ∈ textRows origin session.messages, row.hidden = false) ∧
      String.join ((textRows origin session.messages).map rowText) = text
  rewritten : text ≠ "" → (relay.process text).message ≠ text ∨ RustText.trim text = "" →
    ∃ first others, textRows origin session.messages = first :: others ∧
      rowText first = RustText.trim (relay.process text).message ∧
      (first.hidden = true ↔ RustText.trim (relay.process text).message = "") ∧ ∀ row ∈ others, row.hidden = true
  settled : ∀ row ∈ textRows origin session.messages, row.status ≠ some "work"
  agree : ∀ id, visibleTo (replay session.payloads id) = visibleIn (textRows origin session.messages) id

theorem Ends.rows (ends : Ends origin done received session) :
    (textRows origin session.messages).map view = done.map closedView := by
  obtain ⟨views,whole,opened⟩ := ends.tracks.rows
  rw [ends.closed] at opened
  rw [whole,show views = [] from opened,List.append_nil]

theorem Ends.settled (ends : Ends origin done received session) :
    ∀ row ∈ textRows origin session.messages, row.status ≠ some "work" := by
  intro row inside work
  obtain ⟨_,active,_⟩ := ends.tracks.statuses row inside work
  exact nomatch ends.closed.symm.trans active

theorem Ends.pieces (ends : Ends origin done received session) : done ++ session.open = done := by
  simp [Session.open,ends.closed]

theorem ids_of_views (rows : (textRows origin messages).map view = views) :
    (textRows origin messages).map MessageRow.id = views.map RowView.id := by
  rw [← rows,List.map_map]
  rfl

-- Rows that show the pieces as they are.
theorem shown_pieces (rows : (textRows origin messages).map view = done.map closedView) :
    (∀ row ∈ textRows origin messages, row.hidden = false) ∧
      String.join ((textRows origin messages).map rowText) = String.join (done.map Prod.snd) := by
  refine ⟨fun row inside => ?_,?_⟩
  · have member : view row ∈ done.map closedView := rows ▸ List.mem_map_of_mem inside
    obtain ⟨piece,_,shows⟩ := List.mem_map.mp member
    exact (congrArg RowView.hidden shows).symm
  · have texts := congrArg (List.map RowView.text) rows
    rw [List.map_map,List.map_map] at texts
    exact congrArg String.join texts

-- Text rows as they were when the text ended, over a text that stays as it is.
theorem Ends.unchanged (ends : Ends origin done received session) {next : Session}
    (rows : (textRows origin next.messages).map view = done.map closedView)
    (settled : ∀ row ∈ textRows origin next.messages, row.status ≠ some "work")
    (segments : next.textSegments = session.textSegments)
    (shown : ∀ id, replay next.payloads id = replay session.payloads id)
    (same : session.fullText = "" ∨ (relay.process session.fullText).message = session.fullText ∧
      RustText.trim session.fullText ≠ "") : Faithful relay origin session.fullText next := by
  have texts := shown_pieces rows
  refine ⟨?_,fun _ => ⟨texts.1,?_⟩,fun filled changed => ?_,settled,fun id => ?_⟩
  · rw [ids_of_views rows,segments,ends.tracks.segments,List.map_map]
    rfl
  · rw [texts.2,ends.tracks.text,ends.pieces]
  · rcases same with empty | ⟨equal,visible⟩
    · exact absurd empty filled
    · exact absurd changed (not_or.mpr ⟨not_not.mpr equal,visible⟩)
  · rw [shown,ends.tracks.shown,ends.pieces,visibleIn_view,rows,visible_closed]
    rfl

theorem Ends.silent (ends : Ends origin done received session) (empty : session.fullText = "") (terminal : RelayTerminal) :
    Faithful relay origin session.fullText (relay.finalize received terminal session).1 := by
  unfold StreamRelay.finalize
  rw [if_neg (not_not.mpr empty)]
  cases event : received.event with
  | error data code retryable =>
    have tip : received.mintedId ∉ owned done [] session := ends.tip (by rw [event]; rfl)
    obtain ⟨off,_,_⟩ := ends.tracks.off_owned tip
    have aside : Aside origin session.messages received.mintedId
        (relay.persist session.messages (.errorTip received.mintedId data) received.now) := persist_aside rfl off _
    refine ends.unchanged ?_ ?_ rfl (fun _ => rfl) (.inl empty)
    · exact (congrArg _ aside.text).trans ends.rows
    · intro row inside
      refine ends.settled row ?_
      rw [← aside.text]
      exact inside
  | text | tips | toolCall | acpToolCall | toolGroup | thinking | other | finish =>
    exact ends.unchanged ends.rows ends.settled rfl (fun _ => rfl) (.inl empty)

theorem persist_final (serving : Serving relay) (messages : Messages Content) (segments : List String)
    (status finalText : String) (hidden rewrite : Bool) (now : Int) :
    relay.persist messages (.finalText segments status finalText hidden rewrite) now =
      (finalTextWrites relay.adapter now segments status finalText hidden rewrite).foldl relay.write messages := by
  simp [StreamRelay.persist,serving.allows,Operation.skipped,Operation.writes]

theorem system_silent (relay : StreamRelay) (responses : List String) :
    ∀ payload ∈ relay.systemPayloads responses, payload.type ≠ "content" := by
  intro payload inside
  obtain ⟨i,_,rfl⟩ := List.mem_mapIdx.mp inside
  exact (by decide : "system" ≠ "content")

-- What is replayed once the text is finalised: the overrides alone count.
theorem finalize_replay (serving : Serving relay) (payloads : List StreamPayload) (segments responses : List String)
    (finalText : String) (hidden rewrite : Bool) :
    replay (payloads ++ (relay.finalTextOverrides segments finalText hidden rewrite).map overridePayload ++
      relay.systemPayloads responses) =
    ((StreamPersistence.finalTextOverrides segments finalText hidden rewrite).map overridePayload).foldl replayOne
      (replay payloads) := by
  rw [replay_append,replay_others _ _ (system_silent relay responses),replay_append]
  simp only [StreamRelay.finalTextOverrides,serving.allows,if_true]

theorem Ends.filled (ends : Ends origin done received session) (filled : session.fullText ≠ "") :
    ∃ first others, done = first :: others := by
  cases done with
  | nil =>
    have text := ends.tracks.text
    rw [ends.pieces] at text
    exact absurd text filled
  | cons first others => exact ⟨first,others,rfl⟩

theorem Ends.kept (ends : Ends origin done received session) (serving : Serving relay) (filled : session.fullText ≠ "")
    (same : (relay.process session.fullText).message = session.fullText) (visible : RustText.trim session.fullText ≠ "")
    (terminal : RelayTerminal) : Faithful relay origin session.fullText (relay.finalize received terminal session).1 := by
  obtain ⟨first,others,rfl⟩ := ends.filled filled
  have shows : (RustText.trim session.fullText).isEmpty = false := by simpa [String.isEmpty_iff] using visible
  unfold StreamRelay.finalize
  rw [if_pos filled]
  simp only [same,shows,ne_eq,not_true_eq_false,decide_false,Bool.or_self]
  refine ends.unchanged ?_ ?_ rfl ?_ (.inr ⟨same,visible⟩)
  · simp only [StreamRelay.persisted,persist_final serving,ends.tracks.segments]
    exact (kept_rows ends.rows).resolve_right (List.cons_ne_nil _ _)
  · simp only [StreamRelay.persisted,persist_final serving,ends.tracks.segments]
    exact settled_writes (final_writes_settle _ _ _ (List.cons_ne_nil _ _) _ _ _ _) (final_settled received.event) ends.settled
  · intro id
    simp only [StreamRelay.persisted,finalize_replay serving,ends.tracks.segments]
    rfl

theorem Ends.replaced (ends : Ends origin done received session) (serving : Serving relay) (filled : session.fullText ≠ "")
    (changed : (relay.process session.fullText).message ≠ session.fullText ∨ RustText.trim session.fullText = "")
    (terminal : RelayTerminal) : Faithful relay origin session.fullText (relay.finalize received terminal session).1 := by
  obtain ⟨first,others,rfl⟩ := ends.filled filled
  have distinct : ((first :: others).map Prod.fst).Nodup := ends.tracks.distinct.sublist
    ((List.sublist_append_left _ _).trans (List.sublist_append_left _ _))
  let output := RustText.trim (relay.process session.fullText).message
  have rewrites : (decide ((relay.process session.fullText).message ≠ session.fullText) || output.isEmpty) = true := by
    rw [Bool.or_eq_true,decide_eq_true_iff,String.isEmpty_iff]
    by_cases same : (relay.process session.fullText).message = session.fullText
    · right
      exact (congrArg RustText.trim same).trans (changed.resolve_left (not_not.mpr same))
    · exact .inl same
  have finalized : (relay.finalize received terminal session).1 = { relay.persisted session
        (.finalText session.textSegments (finalStatus received.event) output output.isEmpty true) received.now with
      payloads := session.payloads ++
        (relay.finalTextOverrides session.textSegments output output.isEmpty true).map overridePayload ++
          relay.systemPayloads (relay.process session.fullText).systemResponses } := by
    unfold StreamRelay.finalize
    rw [if_pos filled]
    simp only [output] at rewrites ⊢
    simp only [rewrites]
    rfl
  have rows : (textRows origin (relay.finalize received terminal session).1.messages).map view =
      ⟨first.1,output,output.isEmpty⟩ :: others.map hiddenView := by
    rw [finalized]
    simp only [StreamRelay.persisted,persist_final serving,ends.tracks.segments]
    exact rewritten_rows distinct ends.rows
  refine ⟨?_,fun kept => ?_,fun _ _ => ?_,?_,fun id => ?_⟩
  · rw [ids_of_views rows,finalized]
    simp only [StreamRelay.persisted,ends.tracks.segments,List.map_cons,List.map_map]
    rfl
  · rcases kept with empty | ⟨same,visible⟩
    · exact absurd empty filled
    · exact absurd changed (not_or.mpr ⟨not_not.mpr same,visible⟩)
  · obtain ⟨row,rest,split,head,tail⟩ := List.map_eq_cons_iff.mp rows
    refine ⟨row,rest,split,congrArg RowView.text head,?_,fun other inside => ?_⟩
    · have hides : row.hidden = output.isEmpty := congrArg RowView.hidden head
      rw [hides]
      exact String.isEmpty_iff
    · have member : view other ∈ others.map hiddenView := tail ▸ List.mem_map_of_mem inside
      obtain ⟨piece,_,shows⟩ := List.mem_map.mp member
      exact (congrArg RowView.hidden shows).symm
  · rw [finalized]
    simp only [StreamRelay.persisted,persist_final serving,ends.tracks.segments]
    exact settled_writes (final_writes_settle _ _ _ (List.cons_ne_nil _ _) _ _ _ _) (final_settled received.event) ends.settled
  · have shown := ends.tracks.shown
    rw [ends.pieces] at shown
    rw [visibleIn_view,rows,finalized]
    simp only [finalize_replay serving,ends.tracks.segments]
    exact rewritten_shown distinct shown id

theorem Ends.finalized (ends : Ends origin done received session) (serving : Serving relay) (terminal : RelayTerminal) :
    Faithful relay origin session.fullText (relay.finalize received terminal session).1 := by
  by_cases empty : session.fullText = ""
  · exact ends.silent empty terminal
  · by_cases kept : (relay.process session.fullText).message = session.fullText ∧ RustText.trim session.fullText ≠ ""
    · exact ends.kept serving empty kept.1 kept.2 terminal
    · refine ends.replaced serving empty ?_ terminal
      rw [not_and_or,not_not] at kept
      exact kept

theorem serving_active (active : relay.runtime.lifecycleFor relay.adapter.conversationId = .active)
    (known : relay.known relay.adapter.conversationId = true) : Serving relay ∧ relay.isDeleting = false := by
  refine ⟨⟨fun kind => ?_,known⟩,?_⟩
  · simp [StreamRelay.allows,RuntimeState.allows,RuntimeState.decide,active,RuntimeWriteKind.allowedIn]
  · by_cases deleting : relay.adapter.conversationId ∈ relay.runtime.deleting
    · unfold RuntimeState.lifecycleFor at active
      split at active <;> cases active
    · exact decide_eq_false deleting

-- The ids of the segments of a turn, of its tips and of its empty tool groups are
-- new, and differ from the ids of the agent's tool calls.
structure Fresh (relay : StreamRelay) (origin : Messages Content) (arrivals : List Received) : Prop where
  distinct : (relay.adapter.msgId :: arrivals.map Received.mintedId).Nodup
  new : ∀ row ∈ origin, row.id ∉ relay.adapter.msgId :: arrivals.map Received.mintedId
  apart : ∀ x ∈ callIds arrivals, x ∉ relay.adapter.msgId :: arrivals.map Received.mintedId

theorem textRows_origin (origin : Messages Content) : textRows origin origin = [] := by
  refine List.filter_eq_nil_iff.mpr fun row inside passes => ?_
  rw [Bool.and_eq_true] at passes
  exact of_decide_eq_true (List.all_eq_true.mp passes.2 row inside) rfl

theorem tracks_begin (fresh : Fresh relay origin arrivals) :
    Tracks origin [] (freeIds relay (Session.begin origin) arrivals) (callIds arrivals) (Session.begin origin) where
  segments := rfl
  text := rfl
  rows := ⟨[],congrArg (List.map view) (textRows_origin origin),rfl⟩
  statuses := by
    intro row inside
    have none : textRows origin (Session.begin origin).messages = [] := textRows_origin origin
    rw [none] at inside
    cases inside
  shown := fun _ => rfl
  distinct := fresh.distinct
  apart := fresh.apart
  old := fresh.new
  new := fun row inside => ⟨fresh.new row inside,nofun⟩
  created := nofun
  alone := fun _ => rfl

theorem consume_faithful (active : relay.runtime.lifecycleFor relay.adapter.conversationId = .active)
    (known : relay.known relay.adapter.conversationId = true) (fresh : Fresh relay origin arrivals) :
    Faithful relay origin (streamedText arrivals) (relay.consume arrivals (Session.begin origin)).1 := by
  obtain ⟨serving,going⟩ := serving_active active known
  obtain ⟨done,received,terminal,last,same,ends,text⟩ := consume_ends (tracks_begin fresh) serving going
  have whole : last.fullText = streamedText arrivals := text.trans String.empty_append
  rw [same,← whole]
  exact ends.finalized serving terminal

def plainRelay : StreamRelay :=
  ⟨⟨"conversation","message"⟩,RuntimeState.fresh,fun _ => true,fun text => ⟨text,[]⟩,fun _ => "system",0⟩

def someArrivals : List Received := [
  ⟨.text "a","first",1⟩,
  ⟨.toolCall ⟨"call","read",.null,.completed,none,none,none⟩,"second",2⟩,
  ⟨.text "b","third",3⟩,
  ⟨.finish,"fourth",4⟩]

theorem consume_faithful_some :
    Faithful plainRelay [] (streamedText someArrivals) (plainRelay.consume someArrivals (Session.begin [])).1 :=
  consume_faithful rfl rfl ⟨by decide,nofun,by decide⟩

-- Blank text is hidden, although the middleware left it as it was.
theorem blank_text_hidden :
    ∃ (relay : StreamRelay) (arrivals : List Received), Fresh relay [] arrivals ∧
      relay.runtime.lifecycleFor relay.adapter.conversationId = .active ∧
      relay.known relay.adapter.conversationId = true ∧
      (relay.process (streamedText arrivals)).message = streamedText arrivals ∧
      String.join (((textRows [] (relay.consume arrivals (Session.begin [])).1.messages).filter
        fun row => !row.hidden).map rowText) ≠ streamedText arrivals := by
  refine ⟨plainRelay,[⟨.text " ","first",1⟩],⟨by decide,nofun,nofun⟩,rfl,rfl,rfl,?_⟩
  decide

end Faithful

end AlineaCopilot.StreamRelays
