import AlineaCopilot.StreamRelayRows
open AlineaCopilot.KeyedMaps AlineaCopilot.MessageTable AlineaCopilot.ConversationRuntime
open AlineaCopilot.StreamPersistence

namespace AlineaCopilot.StreamRelays

-- A segment: its id and its text.
abbrev Piece := String × String

def closedView (piece : Piece) : RowView := ⟨piece.1,piece.2,false⟩

def said (pieces : List Piece) (id : String) : String :=
  match pieces.find? fun piece => piece.1 = id with
  | none => ""
  | some piece => piece.2

def Session.open (session : Session) : List Piece := session.activeText.toList.map fun segment => (segment.id,segment.buffer)

def Session.openIds (session : Session) : List String :=
  session.activeText.toList.map TextSegmentState.id ++ session.activeThinking.toList.map ThinkingSegmentState.id

-- A segment that is open may have a row, with some of its text.
def OpenRow : Option TextSegmentState → List RowView → Prop
  | none,views => views = []
  | some segment,views =>
    if segment.recordCreated then ∃ text, views = [⟨segment.id,text,false⟩] else views = []

-- Every id that is or may become a segment's.
def owned (done : List Piece) (free : List String) (session : Session) : List String :=
  done.map Prod.fst ++ session.openIds ++ free

-- How the table and the clients stand while a turn runs: `done` are the segments
-- that are closed, `free` the ids still to be minted, `calls` the ids of the
-- tool calls to come.
structure Tracks (origin : Messages Content) (done : List Piece) (free calls : List String) (session : Session) : Prop where
  segments : session.textSegments = done.map Prod.fst
  text : session.fullText = String.join ((done ++ session.open).map Prod.snd)
  rows : ∃ views, (textRows origin session.messages).map view = done.map closedView ++ views ∧
    OpenRow session.activeText views
  statuses : ∀ row ∈ textRows origin session.messages, row.status = some "work" →
    ∃ segment, session.activeText = some segment ∧ row.id = segment.id
  shown : ∀ id, replay session.payloads id = (said (done ++ session.open) id,false)
  distinct : (owned done free session).Nodup
  apart : ∀ x ∈ calls, x ∉ owned done free session
  old : ∀ row ∈ origin, row.id ∉ session.openIds ++ free
  new : ∀ row ∈ session.messages, row.id ∉ free ∧
    ∀ segment, session.activeText = some segment → segment.recordCreated = false → row.id ≠ segment.id
  created : ∀ segment, session.activeText = some segment → segment.recordCreated = true → segment.buffer ≠ ""
  alone : session.activeThinking ≠ none → session.activeText = none

section Moves
variable {origin next : Messages Content} {done : List Piece} {free remaining calls : List String} {session : Session}
  {relay : StreamRelay} {x : String}

theorem Tracks.fewer (tracks : Tracks origin done free calls session) (less : remaining.Sublist free) :
    Tracks origin done remaining calls session := by
  refine { tracks with distinct := ?_, apart := fun x call => ?_, old := fun row inside => ?_, new := fun row inside => ?_ }
  · exact tracks.distinct.sublist (List.Sublist.append_left less _)
  · exact mt (fun member => (List.Sublist.append_left less _).subset member) (tracks.apart x call)
  · exact mt (fun member => (List.Sublist.append_left less session.openIds).subset member) (tracks.old row inside)
  · exact ⟨mt (fun member => less.subset member) (tracks.new row inside).1,(tracks.new row inside).2⟩

theorem Tracks.forward (tracks : Tracks origin done free calls session) (other : payload.type ≠ "content") :
    Tracks origin done free calls (session.broadcast payload) := by
  refine { tracks with shown := fun id => ?_ }
  have same : replay (session.broadcast payload).payloads = replay session.payloads := replay_other _ other
  rw [same]
  exact tracks.shown id

-- A table that changed beside the text rows, under an id that is not free any more.
theorem Tracks.aside (tracks : Tracks origin done free calls session) (aside : Aside origin session.messages x next)
    (unlike : ∀ segment, session.activeText = some segment → x ≠ segment.id) (gone : x ∉ free) :
    Tracks origin done free calls { session with messages := next } := by
  refine { tracks with rows := ?_, statuses := ?_, new := fun row inside => ?_ }
  · rw [aside.text]
    exact tracks.rows
  · rw [aside.text]
    exact tracks.statuses
  · rcases aside.ids row inside with rfl | ⟨old,earlier,same⟩
    · exact ⟨gone,fun segment active _ => unlike segment active⟩
    · rw [← same]
      exact tracks.new old earlier

-- The text rows have the ids of segments.
theorem Tracks.row_ids (tracks : Tracks origin done free calls session) (inside : row ∈ textRows origin session.messages) :
    row.id ∈ done.map Prod.fst ∨ ∃ segment, session.activeText = some segment ∧ row.id = segment.id := by
  obtain ⟨views,whole,opened⟩ := tracks.rows
  have member : view row ∈ done.map closedView ++ views := whole ▸ List.mem_map_of_mem inside
  rcases List.mem_append.mp member with closed | active
  · left
    obtain ⟨piece,member,same⟩ := List.mem_map.mp closed
    exact List.mem_map.mpr ⟨piece,member,congrArg RowView.id same⟩
  · right
    cases text : session.activeText with
    | none =>
      rw [text] at opened
      rw [show views = [] from opened] at active
      cases active
    | some segment =>
      rw [text] at opened
      simp only [OpenRow] at opened
      split at opened
      · obtain ⟨_,rfl⟩ := opened
        exact ⟨segment,rfl,congrArg RowView.id (List.mem_singleton.mp active)⟩
      · rw [opened] at active
        cases active

theorem Tracks.off (tracks : Tracks origin done free calls session) (other : x ∉ done.map Prod.fst)
    (unlike : ∀ segment, session.activeText = some segment → x ≠ segment.id) :
    ∀ row ∈ textRows origin session.messages, row.id ≠ x := by
  rintro row inside rfl
  rcases tracks.row_ids inside with closed | ⟨segment,active,same⟩
  · exact other closed
  · exact unlike segment active same

theorem Tracks.off_owned (tracks : Tracks origin done free calls session) (apart : x ∉ owned done free session) :
    (∀ row ∈ textRows origin session.messages, row.id ≠ x) ∧
      (∀ segment, session.activeText = some segment → x ≠ segment.id) ∧ x ∉ free := by
  simp only [owned,Session.openIds,List.mem_append,not_or] at apart
  have unlike : ∀ segment, session.activeText = some segment → x ≠ segment.id := by
    rintro segment active rfl
    exact apart.1.2.1 (by simp [active])
  exact ⟨tracks.off apart.1.1 unlike,unlike,apart.2⟩

end Moves

section Thinking
variable {origin : Messages Content} {done : List Piece} {free calls : List String} {session : Session}

theorem Tracks.drop_thinking (tracks : Tracks origin done free calls session) :
    Tracks origin done free calls { session with activeThinking := none } := by
  have fewer : (owned done free { session with activeThinking := none }).Sublist (owned done free session) := by
    refine List.Sublist.append_right (List.Sublist.append_left ?_ _) _
    exact List.Sublist.append_left (List.nil_sublist _) _
  refine { tracks with distinct := ?_, apart := fun x call => ?_, old := fun row inside => ?_, alone := fun some => ?_ }
  · exact tracks.distinct.sublist fewer
  · exact mt (fun member => fewer.subset member) (tracks.apart x call)
  · refine mt (fun member => ?_) (tracks.old row inside)
    simp only [Session.openIds,Option.toList_none,List.map_nil,List.append_nil,List.mem_append] at member ⊢
    exact member.imp_left .inl
  · exact absurd rfl some

theorem Tracks.complete_thinking (tracks : Tracks origin done free calls session) (relay : StreamRelay) (now : Int) :
    Tracks origin done free calls (relay.completeActiveThinking now session) := by
  unfold StreamRelay.completeActiveThinking
  split
  · exact tracks
  · rename_i segment active
    have none : session.activeText = none := tracks.alone (by simp [active])
    have parts := tracks.distinct
    simp only [owned,Session.openIds,none,active,Option.toList_none,Option.toList_some,List.map_nil,List.nil_append,
      List.map_cons,List.append_assoc] at parts
    have unlike : segment.id ∉ done.map Prod.fst := fun member =>
      (List.nodup_append.mp parts).2.2 _ member _ List.mem_cons_self rfl
    have gone : segment.id ∉ free := (List.nodup_cons.mp (List.nodup_append.mp parts).2.1).1
    have forwarded : Tracks origin done free calls (({ session with activeThinking := Option.none } : Session).forward
        segment.id thinkingDone) := tracks.drop_thinking.forward (by simp [thinkingDone,AgentStreamEvent.serdeName])
    have off := forwarded.off unlike fun _ some => by cases none.symm.trans some
    exact forwarded.aside (persist_aside rfl off now) (fun _ some => by cases none.symm.trans some) gone

theorem complete_thinking_rest (relay : StreamRelay) (now : Int) (session : Session) :
    (relay.completeActiveThinking now session).activeThinking = none ∧
    (relay.completeActiveThinking now session).activeText = session.activeText ∧
    (relay.completeActiveThinking now session).usedPrimary = session.usedPrimary ∧
    (relay.completeActiveThinking now session).fullText = session.fullText := by
  unfold StreamRelay.completeActiveThinking
  split
  · rename_i inactive
    exact ⟨inactive,rfl,rfl,rfl⟩
  · exact ⟨rfl,rfl,rfl,rfl⟩

end Thinking

-- The lifecycle is active and the conversation exists.
structure Serving (relay : StreamRelay) : Prop where
  allows : ∀ kind, relay.allows kind = true
  known : relay.known relay.adapter.conversationId = true

section Closing
variable {origin next : Messages Content} {done : List Piece} {free calls : List String} {session : Session}
  {relay : StreamRelay} {segment : TextSegmentState} {status : String}

theorem said_empty (pieces : List Piece) (id i : String) : said (pieces ++ [(id,"")]) i = said pieces i := by
  unfold said
  rw [List.find?_append]
  cases pieces.find? fun piece => piece.1 = i with
  | some piece => rfl
  | none =>
    by_cases same : id = i <;> simp [same]

theorem join_append (pieces : List Piece) (last : Piece) :
    String.join ((pieces ++ [last]).map Prod.snd) = String.join (pieces.map Prod.snd) ++ last.2 := by
  simp [String.join]

-- The row of the open segment, as an update leaves it.
theorem update_open (tracks : Tracks origin done free calls session) (active : session.activeText = some segment)
    (created : segment.recordCreated = true) (changes : RowUpdate) (content : changes.content = some (textContent segment.buffer))
    (shown : changes.hidden.getD false = false) :
    (textRows origin (session.messages.map (updateRow segment.id changes))).map view =
      done.map closedView ++ [closedView (segment.id,segment.buffer)] := by
  obtain ⟨views,whole,opened⟩ := tracks.rows
  rw [active] at opened
  simp only [OpenRow,created,if_true] at opened
  obtain ⟨text,rfl⟩ := opened
  have unlike : segment.id ∉ done.map Prod.fst := by
    intro member
    have parts := tracks.distinct
    simp only [owned,Session.openIds,active,Option.toList_some,List.map_cons,List.map_nil,List.append_assoc] at parts
    exact (List.nodup_append.mp parts).2.2 _ member _ (by simp) rfl
  rw [textRows_map (updateRow_keeps segment.id changes),List.map_map]
  obtain ⟨front,back,split,fronts,backs⟩ := List.map_eq_append_iff.mp whole
  obtain ⟨last,rfl,same⟩ := List.map_eq_singleton_iff.mp backs
  rw [split,List.map_append]
  congr 1
  · rw [← fronts]
    refine List.map_congr_left fun row inside => ?_
    have named : row.id ≠ segment.id := by
      intro equal
      have member : view row ∈ done.map closedView := fronts ▸ List.mem_map_of_mem inside
      obtain ⟨piece,closed,shows⟩ := List.mem_map.mp member
      have named : piece.1 = row.id := congrArg RowView.id shows
      exact unlike (List.mem_map.mpr ⟨piece,closed,named.trans equal⟩)
    simp only [Function.comp,updateRow,if_neg named]
  · have named : last.id = segment.id := congrArg RowView.id same
    have plain : last.hidden = false := congrArg RowView.hidden same
    simp [updateRow,named,view,closedView,MessageRowUpdate.apply,content,plain,shown,rowText]

theorem Tracks.closed_empty (tracks : Tracks origin done free calls session) (active : session.activeText = some segment)
    (empty : segment.buffer = "") : Tracks origin done free calls { session with activeText := none } := by
  have unmade : segment.recordCreated = false := by
    cases created : segment.recordCreated with
    | false => rfl
    | true => exact absurd empty (tracks.created segment active created)
  have fewer : (owned done free { session with activeText := none }).Sublist (owned done free session) := by
    refine List.Sublist.append_right (List.Sublist.append_left ?_ _) _
    exact List.Sublist.append_right (List.nil_sublist _) _
  obtain ⟨views,whole,opened⟩ := tracks.rows
  have text : session.fullText = String.join ((done ++ [(segment.id,"")]).map Prod.snd) := by
    have full := tracks.text
    simpa only [Session.open,active,Option.toList_some,List.map_cons,List.map_nil,empty] using full
  have shown : ∀ id, replay session.payloads id = (said (done ++ [(segment.id,"")]) id,false) := by
    intro id
    have shows := tracks.shown id
    simpa only [Session.open,active,Option.toList_some,List.map_cons,List.map_nil,empty] using shows
  rw [active] at opened
  simp only [OpenRow,unmade,Bool.false_eq_true,if_false] at opened
  refine { tracks with
    text := ?_, rows := ⟨[],opened ▸ whole,rfl⟩, statuses := fun row inside work => ?_, shown := fun id => ?_, distinct := ?_
    apart := fun x call => ?_, old := fun row inside => ?_, new := fun row inside => ⟨(tracks.new row inside).1,nofun⟩
    created := nofun, alone := fun _ => rfl }
  · rw [text,join_append]
    simp [Session.open]
  · obtain ⟨_,some,same⟩ := tracks.statuses row inside work
    cases active.symm.trans some
    have member : view row ∈ done.map closedView ++ views := whole ▸ List.mem_map_of_mem inside
    rw [opened,List.append_nil] at member
    obtain ⟨piece,closed,shows⟩ := List.mem_map.mp member
    have named : piece.1 = segment.id := (congrArg RowView.id shows).trans same
    have parts := tracks.distinct
    simp only [owned,Session.openIds,active,Option.toList_some,List.map_cons,List.map_nil,List.append_assoc] at parts
    exact absurd named ((List.nodup_append.mp parts).2.2 _ (List.mem_map_of_mem closed) _ (by simp))
  · rw [shown,said_empty]
    simp [Session.open]
  · exact tracks.distinct.sublist fewer
  · exact mt (fun member => fewer.subset member) (tracks.apart x call)
  · refine mt (fun member => ?_) (tracks.old row inside)
    simp only [Session.openIds,Option.toList_none,List.map_nil,List.nil_append,List.mem_append] at member ⊢
    exact member.imp_left .inr

theorem Tracks.closed (tracks : Tracks origin done free calls session) (active : session.activeText = some segment)
    (rows : (textRows origin next).map view = done.map closedView ++ [closedView (segment.id,segment.buffer)])
    (statuses : ∀ row ∈ textRows origin next, row.status ≠ some "work")
    (ids : ∀ row ∈ next, row.id = segment.id ∨ ∃ old ∈ session.messages, old.id = row.id) :
    Tracks origin (done ++ [(segment.id,segment.buffer)]) free calls { session with
      messages := next, activeText := none, textSegments := session.textSegments ++ [segment.id] } := by
  have pieces : done ++ session.open = done ++ [(segment.id,segment.buffer)] := by simp [Session.open,active]
  have same : owned (done ++ [(segment.id,segment.buffer)]) free { session with
      messages := next, activeText := none, textSegments := session.textSegments ++ [segment.id] } =
      owned done free session := by
    simp [owned,Session.openIds,active]
  have gone : segment.id ∉ free := by
    have parts := tracks.distinct
    simp only [owned,Session.openIds,active,Option.toList_some,List.map_cons,List.map_nil] at parts
    exact fun member => (List.nodup_append.mp parts).2.2 segment.id (by simp) _ member rfl
  refine { tracks with
    segments := ?_, text := ?_, rows := ⟨[],?_,rfl⟩, statuses := fun row inside work => absurd work (statuses row inside)
    shown := fun id => ?_, distinct := ?_, apart := fun x call => ?_, old := fun row inside => ?_
    new := fun row inside => ⟨?_,nofun⟩, created := nofun, alone := fun _ => rfl }
  · simp [tracks.segments]
  · rw [tracks.text,pieces]
    simp [Session.open]
  · rw [rows]
    simp
  · rw [tracks.shown id,pieces]
    simp [Session.open]
  · rw [same]
    exact tracks.distinct
  · rw [same]
    exact tracks.apart x call
  · refine mt (fun member => ?_) (tracks.old row inside)
    simp only [Session.openIds,Option.toList_none,List.map_nil,List.nil_append,List.mem_append] at member ⊢
    exact member.imp_left .inr
  · rcases ids row inside with equal | ⟨old,earlier,equal⟩
    · rw [equal]
      exact gone
    · rw [← equal]
      exact (tracks.new old earlier).1

theorem close_rest (relay : StreamRelay) (status : String) (session : Session) :
    (relay.closeActiveTextSegment status session).activeText = none ∧
    (relay.closeActiveTextSegment status session).activeThinking = session.activeThinking ∧
    (relay.closeActiveTextSegment status session).usedPrimary = session.usedPrimary ∧
    (relay.closeActiveTextSegment status session).fullText = session.fullText := by
  unfold StreamRelay.closeActiveTextSegment
  split
  · rename_i closed
    exact ⟨closed,rfl,rfl,rfl⟩
  · exact ⟨rfl,rfl,rfl,rfl⟩

-- The write of a flush and that of a finalisation have one shape: a segment that
-- has its row updates it, and one that has none inserts it.
def segmentWrite (adapter : Adapter) (segment : TextSegmentState) (status : String) (hidden : Option Bool) : Write :=
  if segment.recordCreated then
    .update segment.id { content := some (textContent segment.buffer), status := some (some status), hidden := hidden }
  else .insert (adapter.row segment.id "text" (textContent segment.buffer) status segment.createdAt)

theorem segment_write (tracks : Tracks origin done free calls session) (serving : Serving relay)
    (active : session.activeText = some segment) (status : String) (hide : Option Bool) (shown : hide.getD false = false) :
    ∃ next, (segmentWrite relay.adapter segment status hide).attempt relay.known session.messages = .ok next ∧
      (textRows origin next).map view = done.map closedView ++ [closedView (segment.id,segment.buffer)] ∧
      (∀ row ∈ textRows origin next, row.status = some "work" → row.id = segment.id ∧ status = "work") ∧
      ∀ row ∈ next, row.id = segment.id ∨ ∃ old ∈ session.messages, old.id = row.id := by
  have only : ∀ row ∈ textRows origin session.messages, row.status = some "work" → row.id = segment.id := by
    intro row inside work
    obtain ⟨_,same,named⟩ := tracks.statuses row inside work
    cases active.symm.trans same
    exact named
  obtain ⟨views,whole,opened⟩ := tracks.rows
  rw [active] at opened
  cases created : segment.recordCreated with
  | true =>
    simp only [OpenRow,created,if_true] at opened
    obtain ⟨text,rfl⟩ := opened
    have member : (⟨segment.id,text,false⟩ : RowView) ∈ (textRows origin session.messages).map view := by
      rw [whole]
      exact List.mem_append_right _ List.mem_cons_self
    obtain ⟨row,inside,same⟩ := List.mem_map.mp member
    let changes : RowUpdate := { content := some (textContent segment.buffer), status := some (some status), hidden := hide }
    have done := (updateMessage_cases session.messages segment.id changes rfl).resolve_right
      fun absent => absent.1 row (List.mem_filter.mp inside).1 (congrArg RowView.id same)
    refine ⟨session.messages.map (updateRow segment.id changes),?_,update_open tracks active created changes rfl shown,?_,?_⟩
    · simp only [segmentWrite,created,if_true]
      exact done.2
    · rw [textRows_map (updateRow_keeps segment.id changes)]
      intro row inside work
      obtain ⟨old,earlier,rfl⟩ := List.mem_map.mp inside
      rw [(updateRow_keeps segment.id changes old).1]
      by_cases named : old.id = segment.id
      · simp only [updateRow,if_pos named,MessageRowUpdate.apply,changes,Option.getD_some,Option.some.injEq] at work
        exact ⟨named,work⟩
      · simp only [updateRow,if_neg named] at work
        exact absurd (only old earlier work) named
    · intro row inside
      obtain ⟨old,earlier,rfl⟩ := List.mem_map.mp inside
      exact .inr ⟨old,earlier,(updateRow_keeps segment.id changes old).1.symm⟩
  | false =>
    simp only [OpenRow,created,Bool.false_eq_true,if_false] at opened
    rw [opened,List.append_nil] at whole
    let row := relay.adapter.row segment.id "text" (textContent segment.buffer) status segment.createdAt
    have counts : textRows origin (session.messages ++ [row]) = textRows origin session.messages ++ [row] := by
      have fresh : ∀ old ∈ origin, old.id ≠ row.id := by
        rintro old inside same
        refine tracks.old old inside (List.mem_append_left _ ?_)
        simp [Session.openIds,active,same,row,Adapter.row]
      simp only [textRows,List.filter_append]
      congr 1
      simpa [row,Adapter.row] using fresh
    refine ⟨session.messages ++ [row],?_,?_,?_,?_⟩
    · simp only [segmentWrite,created,Bool.false_eq_true,if_false]
      exact insertMessage_new relay.known serving.known fun other inside => (tracks.new other inside).2 segment active created
    · rw [counts,List.map_append,whole]
      rfl
    · rw [counts]
      intro other inside work
      rcases List.mem_append.mp inside with earlier | last
      · have member : view other ∈ done.map closedView := whole ▸ List.mem_map_of_mem earlier
        obtain ⟨piece,closed,shows⟩ := List.mem_map.mp member
        have named : piece.1 = segment.id := (congrArg RowView.id shows).trans (only other earlier work)
        have parts := tracks.distinct
        simp only [owned,Session.openIds,active,Option.toList_some,List.map_cons,List.map_nil,List.append_assoc] at parts
        exact absurd named ((List.nodup_append.mp parts).2.2 _ (List.mem_map_of_mem closed) _ (by simp))
      · cases List.mem_singleton.mp last
        exact ⟨rfl,Option.some.inj work⟩
    · intro other inside
      rcases List.mem_append.mp inside with earlier | last
      · exact .inr ⟨other,earlier,rfl⟩
      · cases List.mem_singleton.mp last
        exact .inl rfl

theorem Tracks.close (tracks : Tracks origin done free calls session) (serving : Serving relay) (settled : status ≠ "work") :
    ∃ done', Tracks origin done' free calls (relay.closeActiveTextSegment status session) := by
  unfold StreamRelay.closeActiveTextSegment
  split
  · exact ⟨done,tracks⟩
  · rename_i segment active
    by_cases empty : segment.buffer = ""
    · refine ⟨done,?_⟩
      have kept : relay.finalizeTextSegment session.messages segment status = (session.messages,none) := by
        simp [StreamRelay.finalizeTextSegment,empty]
      rw [kept]
      simpa using tracks.closed_empty active empty
    · obtain ⟨next,attempted,rows,statuses,ids⟩ := segment_write tracks serving active status (some false) rfl
      have attempted : (finalizeTextWrite relay.adapter segment status).attempt relay.known session.messages = .ok next := attempted
      have finalized : relay.finalizeTextSegment session.messages segment status = (next,some segment.id) := by
        have full : segment.buffer.isEmpty = false := by simpa [String.isEmpty_iff] using empty
        simp only [StreamRelay.finalizeTextSegment,serving.allows,full,attempted,Bool.not_true,Bool.or_self,
          Bool.false_eq_true,if_false]
      rw [finalized]
      exact ⟨_,tracks.closed active rows (fun row inside work => settled (statuses row inside work).2) ids⟩

end Closing

section Growing
variable {origin : Messages Content} {done : List Piece} {free more calls : List String} {session : Session}
  {relay : StreamRelay} {segment : TextSegmentState} {id : String}

theorem said_last (absent : id ∉ done.map Prod.fst) (text i : String) :
    said (done ++ [(id,text)]) i = if i = id then text else said done i := by
  unfold said
  rw [List.find?_append]
  by_cases same : i = id
  · subst same
    have none : (done.find? fun piece => piece.1 = i) = none := by
      refine List.find?_eq_none.mpr fun piece inside equal => absent ?_
      exact List.mem_map.mpr ⟨piece,inside,of_decide_eq_true equal⟩
    simp [none]
  · cases done.find? fun piece => piece.1 = i with
    | some piece => simp [same]
    | none => simp [same,Ne.symm same]

-- A segment begins, under the next id that is free.
theorem Tracks.start (tracks : Tracks origin done (id :: more) calls session) (closed : session.activeText = none)
    (calm : session.activeThinking = none) (now : Int) (used : Bool) :
    Tracks origin done more calls { session with activeText := some ⟨id,"",now,false,0⟩, usedPrimary := used } := by
  have same : owned done more { session with activeText := some ⟨id,"",now,false,0⟩, usedPrimary := used } =
      owned done (id :: more) session := by
    simp [owned,Session.openIds,closed,calm]
  have none_open : session.open = [] := by simp [Session.open,closed]
  obtain ⟨views,whole,opened⟩ := tracks.rows
  rw [closed] at opened
  refine { tracks with
    text := ?_, rows := ⟨views,whole,?_⟩, statuses := fun row inside work => ?_, shown := fun i => ?_, distinct := ?_
    apart := fun x call => ?_, old := fun row inside => ?_, new := fun row inside => ?_, created := ?_, alone := ?_ }
  · have full := tracks.text
    rw [none_open,List.append_nil] at full
    rw [full]
    exact ((join_append done (id,"")).trans String.append_empty).symm
  · simpa [OpenRow] using opened
  · obtain ⟨_,some,_⟩ := tracks.statuses row inside work
    cases closed.symm.trans some
  · have shows := tracks.shown i
    rw [none_open,List.append_nil] at shows
    rw [shows]
    exact congrArg (·,false) (said_empty done id i).symm
  · rw [same]
    exact tracks.distinct
  · rw [same]
    exact tracks.apart x call
  · have apart := tracks.old row inside
    simpa [Session.openIds,closed,calm] using apart
  · have apart := (tracks.new row inside).1
    refine ⟨mt (List.mem_cons_of_mem _) apart,?_⟩
    rintro _ ⟨⟩ _ equal
    exact apart (equal ▸ List.mem_cons_self)
  · rintro _ ⟨⟩ ⟨⟩
  · exact fun some => absurd calm some

theorem Tracks.open_apart (tracks : Tracks origin done free calls session) (active : session.activeText = some segment) :
    segment.id ∉ done.map Prod.fst := by
  intro member
  have parts := tracks.distinct
  simp only [owned,Session.openIds,active,Option.toList_some,List.map_cons,List.map_nil,List.append_assoc] at parts
  exact (List.nodup_append.mp parts).2.2 _ member _ (by simp) rfl

-- A chunk goes out and is kept.
theorem Tracks.push (tracks : Tracks origin done free calls session) (active : session.activeText = some segment)
    (content : String) (count : Nat) :
    Tracks origin done free calls { session with
      payloads := session.payloads ++ [⟨segment.id,"content",content,false,false⟩]
      fullText := session.fullText ++ content
      activeText := some { segment with buffer := segment.buffer ++ content, flushCounter := count } } := by
  have pieces : done ++ session.open = done ++ [(segment.id,segment.buffer)] := by simp [Session.open,active]
  have unlike := tracks.open_apart active
  have text := tracks.text
  have shows := tracks.shown
  rw [pieces] at text shows
  obtain ⟨views,whole,opened⟩ := tracks.rows
  rw [active] at opened
  refine { tracks with
    text := ?_, rows := ⟨views,whole,opened⟩, statuses := fun row inside work => ?_, shown := fun i => ?_, distinct := ?_
    apart := fun x call => ?_, old := fun row inside => ?_, new := fun row inside => ?_, created := ?_, alone := fun some => ?_ }
  · rw [text,join_append]
    exact (String.append_assoc ..).trans (join_append done (segment.id,segment.buffer ++ content)).symm
  · obtain ⟨_,some,same⟩ := tracks.statuses row inside work
    cases active.symm.trans some
    exact ⟨_,rfl,same⟩
  · have before : replay session.payloads segment.id = (segment.buffer,false) := by
      rw [shows,said_last unlike,if_pos rfl]
    have grown : (said (done ++ [(segment.id,segment.buffer ++ content)]) i,false) =
        Function.update (replay session.payloads) segment.id (segment.buffer ++ content,false) i := by
      rw [said_last unlike]
      by_cases same : i = segment.id
      · subst same
        simp
      · rw [if_neg same,Function.update_of_ne same,shows,said_last unlike,if_neg same]
    rw [replay_append]
    simpa [replayOne,before,Session.open] using grown.symm
  · have parts := tracks.distinct
    simpa [owned,Session.openIds,active] using parts
  · have apart := tracks.apart x call
    simpa [owned,Session.openIds,active] using apart
  · have apart := tracks.old row inside
    simpa [Session.openIds,active] using apart
  · refine ⟨(tracks.new row inside).1,?_⟩
    rintro _ ⟨⟩ unmade
    exact (tracks.new row inside).2 segment active unmade
  · rintro _ ⟨⟩ made empty
    exact tracks.created segment active made (String.append_eq_empty_iff.mp empty).1
  · cases active.symm.trans (tracks.alone some)

theorem Tracks.recount (tracks : Tracks origin done free calls session) (active : session.activeText = some segment)
    (count : Nat) :
    Tracks origin done free calls { session with activeText := some { segment with flushCounter := count } } := by
  obtain ⟨views,whole,opened⟩ := tracks.rows
  rw [active] at opened
  refine { tracks with
    text := ?_, rows := ⟨views,whole,opened⟩, statuses := fun row inside work => ?_, shown := fun i => ?_, distinct := ?_
    apart := fun x call => ?_, old := fun row inside => ?_, new := fun row inside => ?_, created := ?_, alone := fun some => ?_ }
  · simpa [Session.open,active] using tracks.text
  · obtain ⟨_,some,same⟩ := tracks.statuses row inside work
    cases active.symm.trans some
    exact ⟨_,rfl,same⟩
  · simpa [Session.open,active] using tracks.shown i
  · simpa [owned,Session.openIds,active] using tracks.distinct
  · simpa [owned,Session.openIds,active] using tracks.apart x call
  · simpa [Session.openIds,active] using tracks.old row inside
  · refine ⟨(tracks.new row inside).1,?_⟩
    rintro _ ⟨⟩ unmade
    exact (tracks.new row inside).2 segment active unmade
  · rintro _ ⟨⟩ made
    exact tracks.created segment active made
  · cases active.symm.trans (tracks.alone some)

theorem Tracks.recorded {next : Messages Content} (tracks : Tracks origin done free calls session)
    (active : session.activeText = some segment) (full : segment.buffer ≠ "")
    (rows : (textRows origin next).map view = done.map closedView ++ [closedView (segment.id,segment.buffer)])
    (statuses : ∀ row ∈ textRows origin next, row.status = some "work" → row.id = segment.id)
    (ids : ∀ row ∈ next, row.id = segment.id ∨ ∃ old ∈ session.messages, old.id = row.id) :
    Tracks origin done free calls { session with
      messages := next, activeText := some { segment with recordCreated := true } } := by
  have gone : segment.id ∉ free := by
    have parts := tracks.distinct
    simp only [owned,Session.openIds,active,Option.toList_some,List.map_cons,List.map_nil] at parts
    exact fun member => (List.nodup_append.mp parts).2.2 segment.id (by simp) _ member rfl
  refine { tracks with
    text := ?_, rows := ⟨_,rows,segment.buffer,rfl⟩, statuses := fun row inside work => ⟨_,rfl,statuses row inside work⟩
    shown := fun i => ?_, distinct := ?_, apart := fun x call => ?_, old := fun row inside => ?_
    new := fun row inside => ⟨?_,?_⟩, created := ?_, alone := fun some => ?_ }
  · simpa [Session.open,active] using tracks.text
  · simpa [Session.open,active] using tracks.shown i
  · simpa [owned,Session.openIds,active] using tracks.distinct
  · simpa [owned,Session.openIds,active] using tracks.apart x call
  · simpa [Session.openIds,active] using tracks.old row inside
  · rcases ids row inside with equal | ⟨old,earlier,equal⟩
    · rw [equal]
      exact gone
    · rw [← equal]
      exact (tracks.new old earlier).1
  · rintro _ ⟨⟩ ⟨⟩
  · rintro _ ⟨⟩ _
    exact full
  · cases active.symm.trans (tracks.alone some)

-- A flush leaves the open segment's row with the text so far.
theorem Tracks.flushed (tracks : Tracks origin done free calls session) (serving : Serving relay)
    (active : session.activeText = some segment) (now : Int) :
    Tracks origin done free calls (relay.flush segment now session) := by
  unfold StreamRelay.flush
  split
  · by_cases empty : segment.buffer = ""
    · have skipped : (Operation.flushText segment).skipped = true := by simp [Operation.skipped,empty]
      have blank : segment.buffer.isEmpty = true := by simp [empty]
      simp only [blank,StreamRelay.persisted,StreamRelay.persist,skipped,Bool.not_true,Bool.and_false,Bool.or_false,
        Bool.or_true,if_true]
      exact tracks.recount active 0
    · obtain ⟨next,attempted,rows,statuses,ids⟩ := segment_write tracks serving active "work" none rfl
      have attempted : (flushTextWrite relay.adapter segment).attempt relay.known session.messages = .ok next := attempted
      have full : segment.buffer.isEmpty = false := by simpa [String.isEmpty_iff] using empty
      have persisted : relay.persist session.messages (.flushText segment) now = next := by
        simp [StreamRelay.persist,Operation.skipped,serving.allows,full,Operation.writes,StreamRelay.write,attempted]
      have recorded := tracks.recorded active empty rows (fun row inside work => (statuses row inside work).1) ids
      simp only [StreamRelay.persisted,persisted,serving.allows,full,Bool.not_false,Bool.and_true,Bool.or_true]
      exact recorded.recount rfl 0
  · have same : ({ session with activeText := some segment } : Session) = session := by rw [← active]
    rw [same]
    exact tracks

end Growing

end AlineaCopilot.StreamRelays
