import AlineaCopilot.ChannelSessions
open AlineaCopilot.KeyedMaps AlineaCopilot.TransitionRuns

namespace AlineaCopilot.ChannelSessions

section Table
variable {sessions : List AssistantSessionRow}

-- A table some of whose rows are gone or changed, without a change of owner.
structure Edits (sessions after : List AssistantSessionRow) : Prop where
  ids : (after.map (·.id)).Sublist (sessions.map (·.id))
  rows : ∀ row ∈ after, ∃ before ∈ sessions, before.id = row.id ∧ before.userId = row.userId ∧ before.chatId = row.chatId ∧
    (row.conversationId = none → before.conversationId = none)

theorem edits_filter (p : AssistantSessionRow → Bool) : Edits sessions (sessions.filter p) :=
  ⟨List.filter_sublist.map _,fun row inside => ⟨row,List.mem_of_mem_filter inside,rfl,rfl,rfl,id⟩⟩

theorem edits_update (id : String) (change : AssistantSessionRow → AssistantSessionRow)
    (same : ∀ row, (change row).id = row.id ∧ (change row).userId = row.userId ∧ (change row).chatId = row.chatId ∧
      ((change row).conversationId = none → row.conversationId = none)) : Edits sessions (updateWhere sessions id change) := by
  constructor
  · have equal : (updateWhere sessions id change).map (·.id) = sessions.map (·.id) := by
      rw [updateWhere,List.map_map]
      refine List.map_congr_left fun row _ => ?_
      simp only [Function.comp_apply]
      split
      · exact (same row).1
      · rfl
    rw [equal]
  · intro row inside
    obtain ⟨before,member,rfl⟩ := List.mem_map.mp inside
    refine ⟨before,member,?_⟩
    split
    · obtain ⟨ids,users,chats,conversations⟩ := same before
      exact ⟨ids.symm,users.symm,chats.symm,conversations⟩
    · exact ⟨rfl,rfl,rfl,fun none_ => none_⟩

theorem mem_update {id : String} {change : AssistantSessionRow → AssistantSessionRow} {row : AssistantSessionRow}
    (inside : row ∈ updateWhere sessions id change) : row ∈ sessions ∨ ∃ before ∈ sessions, before.id = id ∧ row = change before := by
  obtain ⟨before,member,rfl⟩ := List.mem_map.mp inside
  split
  · rename_i same
    exact .inr ⟨before,member,same,rfl⟩
  · exact .inl member

theorem selectSession_some {userId chatId : String} {row : AssistantSessionRow} (found : selectSession sessions userId chatId = some row) :
    row ∈ sessions ∧ row.userId = userId ∧ row.chatId = some chatId := by
  have passes := List.find?_some found
  simp only [decide_eq_true_eq] at passes
  exact ⟨List.mem_of_find?_eq_some found,passes⟩

theorem selectSession_none {userId chatId : String} (missing : selectSession sessions userId chatId = none) :
    ∀ row ∈ sessions, ¬(row.userId = userId ∧ row.chatId = some chatId) := by
  intro row inside
  simpa using List.find?_eq_none.mp missing row inside

theorem getSession_some {id : String} {row : AssistantSessionRow} (found : getSession sessions id = some row) :
    row ∈ sessions ∧ row.id = id := by
  have passes := List.find?_some found
  exact ⟨List.mem_of_find?_eq_some found,of_decide_eq_true passes⟩

end Table

section Owners

-- No row of the session is without a conversation.
def Bound (w : World) (session : String) : Prop := ∀ row ∈ w.sessions, row.id = session → row.conversationId ≠ none

-- What a handler holds fits what is recorded about its session.
def Handler.Knows (w : World) (h : Handler) : Prop :=
  match h.phase with
  | .touching row => w.owners.lookup row.id = some (h.userId,some h.chatId) ∧ (row.conversationId ≠ none → Bound w row.id)
  | .dispatched session conversation =>
    w.owners.lookup session = some (h.userId,some h.chatId) ∧ (conversation ≠ none → Bound w session)
  | .sending conversation session => w.owners.lookup session.id = some (h.userId,some h.chatId) ∧
    (session.conversationId = none → conversation = none) ∧
    ∀ target, session.conversationId = some target → w.conversations.lookup target = some session.id
  | .warming _ session target | .posting _ session target | .binding session target =>
    w.owners.lookup session = some (h.userId,some h.chatId) ∧ w.conversations.lookup target = some session
  | .resetting | .looking | .inserting | .switching _ => True

structure Sound (w : World) : Prop where
  fresh : ∀ i task, w.tasks.lookup i = some task → i < w.next
  ids : (w.sessions.map (·.id)).Nodup
  owned : ∀ row ∈ w.sessions, w.owners.lookup row.id = some (row.userId,row.chatId)
  linked : ∀ row ∈ w.sessions, ∀ target, row.conversationId = some target → w.conversations.lookup target = some row.id
  created : ∀ target session, w.conversations.lookup target = some session → (w.owners.lookup session).isSome
  knows : ∀ i h, w.tasks.lookup i = some (.handles h) → h.Knows w
  sent : ∀ m target, (m,target) ∈ w.sent → w.conversations.lookup target = some m.session ∧
    w.owners.lookup m.session = some (m.userId,some m.chatId)
  bound : ∀ session target, (session,target) ∈ w.bound → w.conversations.lookup target = some session

-- What was recorded stays recorded, and a bound session stays bound.
structure Extends (w after : World) : Prop where
  owners : ∀ session owner, w.owners.lookup session = some owner → after.owners.lookup session = some owner
  conversations : ∀ target session, w.conversations.lookup target = some session → after.conversations.lookup target = some session
  bound : ∀ session owner, w.owners.lookup session = some owner → Bound w session → Bound after session

theorem Extends.rfl {w : World} : Extends w w := ⟨fun _ _ => id,fun _ _ => id,fun _ _ _ => id⟩

theorem Extends.knows {w after : World} {h : Handler} (extends_ : Extends w after) (knows : h.Knows w) : h.Knows after := by
  unfold Handler.Knows at knows ⊢
  cases phase : h.phase with
  | touching row =>
    rw [phase] at knows
    exact ⟨extends_.owners _ _ knows.1,fun has => extends_.bound _ _ knows.1 (knows.2 has)⟩
  | dispatched session conversation =>
    rw [phase] at knows
    exact ⟨extends_.owners _ _ knows.1,fun has => extends_.bound _ _ knows.1 (knows.2 has)⟩
  | sending conversation session =>
    rw [phase] at knows
    exact ⟨extends_.owners _ _ knows.1,knows.2.1,fun target held => extends_.conversations _ _ (knows.2.2 target held)⟩
  | warming conversation session target =>
    rw [phase] at knows
    exact ⟨extends_.owners _ _ knows.1,extends_.conversations _ _ knows.2⟩
  | posting conversation session target =>
    rw [phase] at knows
    exact ⟨extends_.owners _ _ knows.1,extends_.conversations _ _ knows.2⟩
  | binding session target =>
    rw [phase] at knows
    exact ⟨extends_.owners _ _ knows.1,extends_.conversations _ _ knows.2⟩
  | _ => trivial

theorem edits_bound {w : World} {after : List AssistantSessionRow} (edits : Edits w.sessions after) {session : String}
    (bound : Bound w session) : Bound { w with sessions := after } session := by
  intro row inside same none_
  obtain ⟨before,member,ids,_,_,conversation⟩ := edits.rows row inside
  exact bound before member (ids.trans same) (conversation none_)

theorem Edits.extends {w : World} {after : List AssistantSessionRow} (edits : Edits w.sessions after) :
    Extends w { w with sessions := after } := ⟨fun _ _ => id,fun _ _ => id,fun _ _ _ => edits_bound edits⟩

theorem Sound.edits {w : World} {after : List AssistantSessionRow} (sound : Sound w) (edits : Edits w.sessions after)
    (linked : ∀ row ∈ after, ∀ target, row.conversationId = some target → w.conversations.lookup target = some row.id) :
    Sound { w with sessions := after } := by
  refine ⟨sound.fresh,sound.ids.sublist edits.ids,?_,linked,sound.created,fun i h held => edits.extends.knows (sound.knows i h held),
    sound.sent,sound.bound⟩
  intro row inside
  obtain ⟨before,member,ids,users,chats,_⟩ := edits.rows row inside
  rw [← ids,← users,← chats]
  exact sound.owned before member

theorem Sound.filter {w : World} (sound : Sound w) (p : AssistantSessionRow → Bool) : Sound { w with sessions := w.sessions.filter p } :=
  sound.edits (edits_filter p) fun row inside => sound.linked row (List.mem_of_mem_filter inside)

theorem Sound.tasks {w : World} (sound : Sound w) {tasks : KeyedMap Nat Task}
    (from_ : ∀ i task, tasks.lookup i = some task → i < w.next ∧
      (w.tasks.lookup i = some task ∨ ∀ h, task = .handles h → h.Knows w)) : Sound { w with tasks := tasks } := by
  refine ⟨fun i task held => (from_ i task held).1,sound.ids,sound.owned,sound.linked,sound.created,?_,sound.sent,sound.bound⟩
  intro i h held
  rcases (from_ i _ held).2 with before | knows
  · exact sound.knows i h before
  · exact knows h rfl

theorem Sound.moves {w : World} (sound : Sound w) {i : Nat} {h : Handler} {task : Task} (held : w.tasks.lookup i = some task) (phase : Phase)
    (knows : Handler.Knows w { h with phase := phase }) : Sound (w.moves i h phase) := by
  refine sound.tasks fun j other present => ?_
  rw [lookup_insert_eq] at present
  split at present
  · rename_i same
    cases same
    cases present
    exact ⟨sound.fresh i task held,.inr fun h same => by cases same; exact knows⟩
  · exact ⟨sound.fresh j other present,.inl present⟩

theorem Sound.ends {w : World} (sound : Sound w) (i : Nat) : Sound (w.ends i) := by
  refine sound.tasks fun j other present => ?_
  rw [lookup_erase_eq] at present
  split at present
  · cases present
  · exact ⟨sound.fresh j other present,.inl present⟩

theorem Sound.spawns {w : World} (sound : Sound w) {task : Task} (knows : ∀ h, task = .handles h → h.Knows w) : Sound (w.spawns task) := by
  have later : Sound { w with next := w.next + 1 } :=
    { sound with
      fresh := fun i task held => Nat.lt_succ_of_lt (sound.fresh i task held)
      knows := sound.knows }
  refine later.tasks fun j other present => ?_
  rw [lookup_insert_eq] at present
  split at present
  · rename_i same
    cases same
    cases present
    exact ⟨Nat.lt_succ_self _,.inr knows⟩
  · exact ⟨later.fresh j other present,.inl present⟩

theorem Sound.dispatches {w : World} (sound : Sound w) (dispatches : List Message) : Sound { w with dispatches := dispatches } :=
  ⟨sound.fresh,sound.ids,sound.owned,sound.linked,sound.created,sound.knows,sound.sent,sound.bound⟩

theorem Sound.resolves {w : World} (sound : Sound w) {i : Nat} {h : Handler} {task : Task} (held : w.tasks.lookup i = some task)
    {row : AssistantSessionRow} (owner : w.owners.lookup row.id = some (h.userId,some h.chatId))
    (bound : row.conversationId ≠ none → Bound w row.id) : Sound (w.resolves i h row) := by
  unfold World.resolves
  cases h.request with
  | text content => exact (sound.moves held (.dispatched row.id row.conversationId) ⟨owner,bound⟩).dispatches _
  | agentSelect agentType => exact sound.moves held _ trivial
  | sessionNew => exact sound.ends i
  | sessionStatus => exact sound.ends i

theorem Sound.inserts {w : World} (sound : Sound w) (row : AssistantSessionRow) (unused : w.owners.lookup row.id = none)
    (empty : row.conversationId = none) :
    Sound { w with sessions := w.sessions ++ [row], owners := w.owners.insert row.id (row.userId,row.chatId) } := by
  have known : ∀ session owner, w.owners.lookup session = some owner →
      (w.owners.insert row.id (row.userId,row.chatId)).lookup session = some owner := by
    intro session owner held
    rw [lookup_insert_eq,if_neg fun same => by rw [same,unused] at held; cases held]
    exact held
  have extends_ : Extends w { w with sessions := w.sessions ++ [row], owners := w.owners.insert row.id (row.userId,row.chatId) } := by
    refine ⟨known,fun _ _ => id,fun session owner held bound other inside same => ?_⟩
    rcases List.mem_append.mp inside with before | last
    · exact bound other before same
    · cases List.mem_singleton.mp last
      rw [same,held] at unused
      cases unused
  refine ⟨sound.fresh,?_,?_,?_,?_,fun i h held => extends_.knows (sound.knows i h held),?_,sound.bound⟩
  · rw [List.map_append]
    refine List.Nodup.append sound.ids (List.nodup_singleton _) fun session before last => ?_
    obtain ⟨other,inside,rfl⟩ := List.mem_map.mp before
    have owned := sound.owned other inside
    rw [List.mem_singleton.mp last,unused] at owned
    cases owned
  · intro other inside
    rcases List.mem_append.mp inside with before | last
    · exact known _ _ (sound.owned other before)
    · cases List.mem_singleton.mp last
      rw [lookup_insert_eq,if_pos rfl]
  · intro other inside target held
    rcases List.mem_append.mp inside with before | last
    · exact sound.linked other before target held
    · cases List.mem_singleton.mp last
      rw [empty] at held
      cases held
  · intro target session held
    obtain ⟨owner,owned⟩ := Option.isSome_iff_exists.mp (sound.created target session held)
    rw [known _ _ owned]
    rfl
  · intro m target logged
    obtain ⟨conversation,owned⟩ := sound.sent m target logged
    exact ⟨conversation,known _ _ owned⟩

theorem Sound.creates {w : World} (sound : Sound w) {target : String} (session : String)
    (unused : w.conversations.lookup target = none) (owned : (w.owners.lookup session).isSome) : Sound { w with conversations := w.conversations.insert target session } := by
  have known : ∀ other owner, w.conversations.lookup other = some owner →
      (w.conversations.insert target session).lookup other = some owner := by
    intro other owner held
    rw [lookup_insert_eq,if_neg fun same => by rw [same,unused] at held; cases held]
    exact held
  have extends_ : Extends w { w with conversations := w.conversations.insert target session } :=
    ⟨fun _ _ => id,known,fun _ _ _ => id⟩
  refine ⟨sound.fresh,sound.ids,sound.owned,fun row inside other held => known _ _ (sound.linked row inside other held),?_,
    fun i h held => extends_.knows (sound.knows i h held),?_,fun _ _ logged => known _ _ (sound.bound _ _ logged)⟩
  · intro other owner held
    rw [lookup_insert_eq] at held
    split at held
    · cases held
      exact owned
    · exact sound.created other owner held
  · intro m other logged
    obtain ⟨conversation,owner⟩ := sound.sent m other logged
    exact ⟨known _ _ conversation,owner⟩

theorem Sound.updates {w : World} (sound : Sound w) (id : String) (change : AssistantSessionRow → AssistantSessionRow)
    (same : ∀ row, (change row).id = row.id ∧ (change row).userId = row.userId ∧ (change row).chatId = row.chatId ∧
      (change row).conversationId = row.conversationId) : Sound { w with sessions := updateWhere w.sessions id change } := by
  refine sound.edits (edits_update id change fun row => ?_) fun row inside target held => ?_
  · obtain ⟨ids,users,chats,conversations⟩ := same row
    exact ⟨ids,users,chats,fun none_ => conversations ▸ none_⟩
  · rcases mem_update inside with before | ⟨before,member,_,rfl⟩
    · exact sound.linked row before target held
    · obtain ⟨ids,_,_,conversations⟩ := same before
      rw [conversations] at held
      rw [ids]
      exact sound.linked before member target held

theorem Sound.binds {w : World} (sound : Sound w) {session target : String} (now : Nat)
    (created : w.conversations.lookup target = some session) :
    Sound { w with sessions := updateSessionConversation w.sessions session target now, bound := (session,target) :: w.bound } := by
  have edited : Sound { w with sessions := updateSessionConversation w.sessions session target now } := by
    refine sound.edits (edits_update session _ fun row => ⟨rfl,rfl,rfl,nofun⟩) fun row inside other held => ?_
    rcases mem_update inside with before | ⟨before,member,same,rfl⟩
    · exact sound.linked row before other held
    · cases held
      rw [← same] at created
      exact created
  refine ⟨edited.fresh,edited.ids,edited.owned,edited.linked,edited.created,edited.knows,edited.sent,?_⟩
  intro other conversation logged
  rcases List.mem_cons.mp logged with same | before
  · cases same
    exact created
  · exact sound.bound other conversation before

theorem Sound.posts {w : World} (sound : Sound w) {i : Nat} {h : Handler} {session target : String}
    (created : w.conversations.lookup target = some session) (owner : w.owners.lookup session = some (h.userId,some h.chatId)) :
    Sound (w.posts i h session target) := by
  unfold World.posts
  cases h.request with
  | text content =>
    refine ⟨sound.fresh,sound.ids,sound.owned,sound.linked,sound.created,sound.knows,?_,sound.bound⟩
    intro m other logged
    rcases List.mem_cons.mp logged with same | before
    · cases same
      exact ⟨created,owner⟩
    · exact sound.sent m other before
  | _ => exact sound

@[simp] theorem posts_tasks (w : World) (i : Nat) (h : Handler) (session target : String) :
    (w.posts i h session target).tasks = w.tasks := by
  unfold World.posts
  cases h.request <;> rfl

@[simp] theorem posts_owners (w : World) (i : Nat) (h : Handler) (session target : String) :
    (w.posts i h session target).owners = w.owners := by
  unfold World.posts
  cases h.request <;> rfl

@[simp] theorem posts_conversations (w : World) (i : Nat) (h : Handler) (session target : String) :
    (w.posts i h session target).conversations = w.conversations := by
  unfold World.posts
  cases h.request <;> rfl

theorem Sound.proceeds {w after : World} {i now : Nat} {h : Handler} (sound : Sound w) (held : w.tasks.lookup i = some (.handles h))
    (proceeded : h.proceeds w i now = some after) : Sound after := by
  have knows := sound.knows i h held
  unfold Handler.Knows at knows
  unfold Handler.proceeds at proceeded
  cases phase : h.phase with
  | resetting =>
    rw [phase] at proceeded
    cases proceeded
    exact (sound.moves held .looking trivial).filter _
  | looking =>
    rw [phase] at proceeded
    dsimp only at proceeded
    split at proceeded
    · rename_i row found
      cases proceeded
      obtain ⟨inside,user,chat⟩ := selectSession_some found
      have owned := sound.owned row inside
      rw [user,chat] at owned
      refine sound.moves held _ ⟨owned,fun has other member same => ?_⟩
      cases List.inj_on_of_nodup_map sound.ids member inside same
      exact has
    · cases proceeded
      exact sound.moves held _ trivial
  | touching row =>
    rw [phase] at proceeded knows
    cases proceeded
    have touched : Sound { w with sessions := updateSessionActivity w.sessions row.id now } :=
      sound.updates row.id _ fun _ => ⟨rfl,rfl,rfl,rfl⟩
    refine touched.resolves held knows.1 fun has => ?_
    exact edits_bound (edits_update row.id ({ · with lastActivity := now }) fun _ => ⟨rfl,rfl,rfl,fun none_ => none_⟩) (knows.2 has)
  | inserting =>
    rw [phase] at proceeded
    cases proceeded
  | switching session =>
    rw [phase] at proceeded
    dsimp only at proceeded
    split at proceeded
    · cases proceeded
      exact (sound.ends i).updates session _ fun _ => ⟨rfl,rfl,rfl,rfl⟩
    · cases proceeded
  | dispatched session conversation =>
    rw [phase] at proceeded knows
    dsimp only at proceeded
    split at proceeded
    · rename_i row found
      cases proceeded
      obtain ⟨inside,same⟩ := getSession_some found
      refine sound.moves held _ ⟨same ▸ knows.1,fun none_ => ?_,fun target linked => sound.linked row inside target linked⟩
      by_contra has
      exact knows.2 has row inside same none_
    · cases proceeded
      exact sound.ends i
  | sending conversation session =>
    rw [phase] at proceeded knows
    dsimp only at proceeded
    split at proceeded
    · rename_i target linked
      cases proceeded
      exact sound.moves held _ ⟨knows.1,knows.2.2 target linked⟩
    · cases proceeded
  | warming conversation session target =>
    rw [phase] at proceeded knows
    cases proceeded
    exact sound.moves held _ knows
  | posting conversation session target =>
    rw [phase] at proceeded knows
    dsimp only at proceeded
    have posted : Sound (w.posts i h session target) := sound.posts knows.2 knows.1
    have still : (w.posts i h session target).tasks.lookup i = some (.handles h) := by rw [posts_tasks,held]
    split at proceeded
    · cases proceeded
      exact posted.moves still _ ⟨by rw [posts_owners]; exact knows.1,by rw [posts_conversations]; exact knows.2⟩
    · cases proceeded
      exact posted.ends i
  | binding session target =>
    rw [phase] at proceeded knows
    dsimp only at proceeded
    split at proceeded
    · cases proceeded
      exact (sound.ends i).binds now knows.2
    · cases proceeded
      exact sound.ends i

theorem sound_start : Sound start := by
  refine ⟨fun i task held => ?_,List.nodup_nil,fun row inside => ?_,fun row inside => ?_,fun target session held => ?_,
    fun i h held => ?_,fun m target inside => ?_,fun session target inside => ?_⟩
  · cases held
  · cases inside
  · cases inside
  · cases held
  · cases held
  · cases inside
  · cases inside

theorem Sound.keeps {w after : World} {event : Event} (sound : Sound w) (stepped : step w event = some after) : Sound after := by
  cases event with
  | arrive userId chatId request =>
    cases stepped
    refine sound.spawns fun h same => ?_
    cases same
    cases request <;> trivial
  | clear =>
    cases stepped
    exact sound.spawns fun h same => by cases same
  | proceed i now =>
    simp only [step] at stepped
    split at stepped
    · rename_i h held
      exact sound.proceeds held stepped
    · rename_i user rest held
      cases stepped
      have onward : Sound { w with tasks := w.tasks.insert i (.clears rest) } := by
        refine sound.tasks fun j other present => ?_
        rw [lookup_insert_eq] at present
        split at present
        · rename_i same
          cases same
          cases present
          exact ⟨sound.fresh i _ held,.inr fun h same => by cases same⟩
        · exact ⟨sound.fresh j other present,.inl present⟩
      exact onward.filter _
    · cases stepped
      exact sound.ends i
    · cases stepped
  | insert i id configured now =>
    simp only [step] at stepped
    split at stepped
    · rename_i h held
      simp only [Option.ite_none_right_eq_some,Option.some.injEq,Option.isNone_iff_eq_none] at stepped
      obtain ⟨⟨_,unused⟩,rfl⟩ := stepped
      refine (sound.inserts (newRow id h.userId h.chatId _ now) unused rfl).resolves held ?_ (fun has => absurd rfl has)
      exact (lookup_insert_eq _ _ _ _).trans (if_pos rfl)
    · cases stepped
  | create i id =>
    simp only [step] at stepped
    split at stepped
    · rename_i h held
      split at stepped
      · rename_i conversation session phase
        simp only [Option.ite_none_right_eq_some,Option.some.injEq,Option.isNone_iff_eq_none] at stepped
        obtain ⟨⟨_,unused⟩,rfl⟩ := stepped
        have knows := sound.knows i h held
        unfold Handler.Knows at knows
        rw [phase] at knows
        have created := sound.creates session.id unused (by rw [knows.1]; rfl)
        exact created.moves held _ ⟨knows.1,(lookup_insert_eq _ _ _ _).trans (if_pos rfl)⟩
      · cases stepped
    · cases stepped
  | fail i =>
    simp only [step,Option.ite_none_right_eq_some,Option.some.injEq] at stepped
    obtain ⟨_,rfl⟩ := stepped
    exact sound.ends i

-- Whatever else happens, a conversation only receives messages of the chat its
-- session was opened for.
theorem conversations_apart {w : World} (sound : Sound w) {m other : Message} {target : String} (one : (m,target) ∈ w.sent)
    (two : (other,target) ∈ w.sent) : m.userId = other.userId ∧ m.chatId = other.chatId := by
  obtain ⟨here,owner⟩ := sound.sent m target one
  obtain ⟨there,owner'⟩ := sound.sent other target two
  have same := Option.some.inj (here.symm.trans there)
  rw [same,owner'] at owner
  simp only [Option.some.injEq,Prod.mk.injEq] at owner
  exact ⟨owner.1.symm,owner.2.symm⟩

end Owners

end AlineaCopilot.ChannelSessions
