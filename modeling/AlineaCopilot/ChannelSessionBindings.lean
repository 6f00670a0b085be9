import AlineaCopilot.ChannelSessionOwners
open AlineaCopilot.KeyedMaps AlineaCopilot.TransitionRuns

namespace AlineaCopilot.ChannelSessions

section Statements

-- The session for which a handler is going to create a conversation.
def Phase.opens : Phase → Option String
  | .sending _ session => if session.conversationId = none then some session.id else none
  | _ => none

-- The session a handler is going to bind.
def Phase.binds : Phase → Option String
  | .warming none session _ | .posting none session _ | .binding session _ => some session
  | _ => none

-- The session a message on its way to the agent was dispatched to.
def Phase.dispatchedTo : Phase → Option String
  | .dispatched session _ | .warming _ session _ | .posting _ session _ => some session
  | .sending _ session => some session.id
  | _ => none

-- No session is inserted beside another of its user and chat, a handler that finds
-- its session without a conversation is the only one about to give it one, its
-- session is still there, and no call fails from then on.
def Within (w : World) : Event → Prop
  | .insert i _ _ _ => ∀ h, w.tasks.lookup i = some (.handles h) → selectSession w.sessions h.userId h.chatId = none
  | .proceed i _ => ∀ h session conversation, w.tasks.lookup i = some (.handles h) → h.phase = .dispatched session conversation →
      ∃ row, getSession w.sessions session = some row ∧ (row.conversationId = none →
        ∀ j other, w.tasks.lookup j = some (.handles other) → other.phase.opens ≠ some session ∧ other.phase.binds ≠ some session)
  | .fail i => ∀ h, w.tasks.lookup i = some (.handles h) → h.phase.dispatchedTo = none ∧ h.phase.binds = none
  | _ => True

def Quiescent (w : World) : Prop := w.tasks = ∅

structure OneConversation (w : World) : Prop where
  rows : w.sessions.Pairwise fun row other => ¬(row.userId = other.userId ∧ row.chatId = other.chatId)
  conversations : ∀ session target other, w.conversations.lookup target = some session →
    w.conversations.lookup other = some session → target = other
  bound : ∀ session target other, (session,target) ∈ w.bound → (session,other) ∈ w.bound → target = other
  sent : ∀ m target other, (m,target) ∈ w.sent → w.conversations.lookup other = some m.session → target = other
  apart : ∀ m other target, (m,target) ∈ w.sent → (other,target) ∈ w.sent → m.userId = other.userId ∧ m.chatId = other.chatId
  delivered : Quiescent w → ∀ m ∈ w.dispatches, ∃ target, (m,target) ∈ w.sent

end Statements

section Keeping

def Handler.carries (h : Handler) (m : Message) : Prop :=
  h.request = .text m.content ∧ h.userId = m.userId ∧ h.chatId = m.chatId ∧ h.phase.dispatchedTo = some m.session

structure Kept (w : World) : Prop where
  pairs : w.sessions.Pairwise fun row other => ¬(row.userId = other.userId ∧ row.chatId = other.chatId)
  single : ∀ target other session, w.conversations.lookup target = some session →
    w.conversations.lookup other = some session → target = other
  binding : ∀ target session, w.conversations.lookup target = some session →
    Bound w session ∨ ∃ i h, w.tasks.lookup i = some (.handles h) ∧ h.phase.binds = some session
  opening : ∀ i h session, w.tasks.lookup i = some (.handles h) → h.phase.opens = some session →
    (∀ target, w.conversations.lookup target ≠ some session) ∧
    ∀ j other, w.tasks.lookup j = some (.handles other) → other.phase.opens = some session → j = i
  carried : ∀ m ∈ w.dispatches, (∃ target, (m,target) ∈ w.sent) ∨
    ∃ h, w.tasks.lookup m.handler = some (.handles h) ∧ h.carries m

theorem Kept.moves {w : World} (kept : Kept w) {i : Nat} {h : Handler} (held : w.tasks.lookup i = some (.handles h)) {phase : Phase}
    (binds : ∀ session, h.phase.binds = some session → phase.binds = some session ∨ Bound w session)
    (opens : phase.opens = none)
    (carries : ∀ m, m.handler = i → h.carries m → phase.dispatchedTo = some m.session ∨ ∃ target, (m,target) ∈ w.sent) :
    Kept (w.moves i h phase) := by
  have lookup : ∀ j, (w.moves i h phase).tasks.lookup j = if j = i then some (.handles { h with phase := phase }) else w.tasks.lookup j :=
    fun j => lookup_insert_eq _ _ _ _
  refine ⟨kept.pairs,kept.single,?_,?_,?_⟩
  · intro target session created
    rcases kept.binding target session created with bound | ⟨j,other,present,pending⟩
    · exact .inl bound
    · by_cases same : j = i
      · subst same
        cases held.symm.trans present
        rcases binds session pending with still | bound
        · exact .inr ⟨j,{ h with phase := phase },by rw [lookup,if_pos rfl],still⟩
        · exact .inl bound
      · exact .inr ⟨j,other,by rw [lookup,if_neg same]; exact present,pending⟩
  · intro j other session present opened
    rw [lookup] at present
    split at present
    · cases present
      rw [opens] at opened
      cases opened
    · rename_i different
      obtain ⟨none_,alone⟩ := kept.opening j other session present opened
      refine ⟨none_,fun k third present' opened' => ?_⟩
      rw [lookup] at present'
      split at present'
      · cases present'
        rw [opens] at opened'
        cases opened'
      · exact alone k third present' opened'
  · intro m dispatched
    rcases kept.carried m dispatched with sent | ⟨other,present,carries_⟩
    · exact .inl sent
    · by_cases same : m.handler = i
      · rw [same] at present
        cases held.symm.trans present
        rcases carries m same carries_ with still | sent
        · obtain ⟨text,user,chat,_⟩ := carries_
          exact .inr ⟨{ h with phase := phase },by rw [lookup,if_pos same],text,user,chat,still⟩
        · exact .inl sent
      · exact .inr ⟨other,by rw [lookup,if_neg same]; exact present,carries_⟩

theorem Kept.ends {w : World} (kept : Kept w) {i : Nat}
    (binds : ∀ h session, w.tasks.lookup i = some (.handles h) → h.phase.binds = some session → Bound w session)
    (carries : ∀ h, w.tasks.lookup i = some (.handles h) → ∀ m ∈ w.dispatches, m.handler = i → h.carries m →
      ∃ target, (m,target) ∈ w.sent) : Kept (w.ends i) := by
  have lookup : ∀ j, (w.ends i).tasks.lookup j = if j = i then none else w.tasks.lookup j := fun j => lookup_erase_eq _ _ _
  refine ⟨kept.pairs,kept.single,?_,?_,?_⟩
  · intro target session created
    rcases kept.binding target session created with bound | ⟨j,other,present,pending⟩
    · exact .inl bound
    · by_cases same : j = i
      · subst same
        exact .inl (binds other session present pending)
      · exact .inr ⟨j,other,by rw [lookup,if_neg same]; exact present,pending⟩
  · intro j other session present opened
    rw [lookup] at present
    split at present
    · cases present
    · obtain ⟨none_,alone⟩ := kept.opening j other session present opened
      refine ⟨none_,fun k third present' opened' => ?_⟩
      rw [lookup] at present'
      split at present'
      · cases present'
      · exact alone k third present' opened'
  · intro m dispatched
    rcases kept.carried m dispatched with sent | ⟨other,present,carries_⟩
    · exact .inl sent
    · by_cases same : m.handler = i
      · rw [same] at present
        exact .inl (carries other present m dispatched same carries_)
      · exact .inr ⟨other,by rw [lookup,if_neg same]; exact present,carries_⟩

theorem Kept.edits {w : World} {after : List AssistantSessionRow} (kept : Kept w) (edits : Edits w.sessions after)
    (pairs : after.Pairwise fun row other => ¬(row.userId = other.userId ∧ row.chatId = other.chatId)) :
    Kept { w with sessions := after } := by
  refine ⟨pairs,kept.single,?_,kept.opening,kept.carried⟩
  intro target session created
  exact (kept.binding target session created).imp (edits_bound edits) fun held => held

theorem Kept.filter {w : World} (kept : Kept w) (p : AssistantSessionRow → Bool) : Kept { w with sessions := w.sessions.filter p } :=
  kept.edits (edits_filter p) (kept.pairs.filter _)

theorem Kept.updates {w : World} (kept : Kept w) (id : String) (change : AssistantSessionRow → AssistantSessionRow)
    (same : ∀ row, (change row).id = row.id ∧ (change row).userId = row.userId ∧ (change row).chatId = row.chatId ∧
      ((change row).conversationId = none → row.conversationId = none)) : Kept { w with sessions := updateWhere w.sessions id change } := by
  refine kept.edits (edits_update id change same) ?_
  have users : ∀ row, (if row.id = id then change row else row).userId = row.userId := by
    intro row
    split
    · exact (same row).2.1
    · rfl
  have chats : ∀ row, (if row.id = id then change row else row).chatId = row.chatId := by
    intro row
    split
    · exact (same row).2.2.1
    · rfl
  rw [updateWhere,List.pairwise_map]
  simp only [users,chats]
  exact kept.pairs

theorem Kept.clears {w : World} (kept : Kept w) {i : Nat} {users : List String} (held : w.tasks.lookup i = some (.clears users))
    (rest : List String) : Kept { w with tasks := w.tasks.insert i (.clears rest) } := by
  have same : ∀ j h, (w.tasks.insert i (.clears rest)).lookup j = some (.handles h) ↔ w.tasks.lookup j = some (.handles h) := by
    intro j h
    rw [lookup_insert_eq]
    split
    · rename_i equal
      rw [equal,held]
      simp
    · exact Iff.rfl
  refine ⟨kept.pairs,kept.single,?_,?_,?_⟩
  · intro target session created
    exact (kept.binding target session created).imp (fun bound => bound)
      fun ⟨j,h,present,pending⟩ => ⟨j,h,(same j h).mpr present,pending⟩
  · intro j h session present opened
    obtain ⟨none_,alone⟩ := kept.opening j h session ((same j h).mp present) opened
    exact ⟨none_,fun k other present' opened' => alone k other ((same k other).mp present') opened'⟩
  · intro m dispatched
    exact (kept.carried m dispatched).imp (fun sent => sent) fun ⟨h,present,carries⟩ => ⟨h,(same _ h).mpr present,carries⟩

theorem Kept.spawns {w : World} (kept : Kept w) (sound : Sound w) {task : Task}
    (idle : ∀ h, task = .handles h → h.phase.opens = none) : Kept (w.spawns task) := by
  have lookup : ∀ j, (w.spawns task).tasks.lookup j = if j = w.next then some task else w.tasks.lookup j :=
    fun j => lookup_insert_eq _ _ _ _
  have before : ∀ j other, w.tasks.lookup j = some other → (w.spawns task).tasks.lookup j = some other := by
    intro j other present
    rw [lookup,if_neg (sound.fresh j other present).ne]
    exact present
  refine ⟨kept.pairs,kept.single,?_,?_,?_⟩
  · intro target session created
    exact (kept.binding target session created).imp (fun bound => bound)
      fun ⟨j,other,present,pending⟩ => ⟨j,other,before j _ present,pending⟩
  · intro j other session present opened
    rw [lookup] at present
    split at present
    · cases present
      rw [idle other rfl] at opened
      cases opened
    · obtain ⟨none_,alone⟩ := kept.opening j other session present opened
      refine ⟨none_,fun k third present' opened' => ?_⟩
      rw [lookup] at present'
      split at present'
      · cases present'
        rw [idle third rfl] at opened'
        cases opened'
      · exact alone k third present' opened'
  · intro m dispatched
    exact (kept.carried m dispatched).imp (fun sent => sent) fun ⟨other,present,carries⟩ => ⟨other,before _ _ present,carries⟩

-- A handler that found its session without a conversation.
theorem Kept.reads {w : World} (kept : Kept w) {i : Nat} {h : Handler} (held : w.tasks.lookup i = some (.handles h)) {session : String}
    {conversation : Option String} (phase : h.phase = .dispatched session conversation) {row : AssistantSessionRow}
    (found : getSession w.sessions session = some row)
    (alone : row.conversationId = none → ∀ j other, w.tasks.lookup j = some (.handles other) →
      other.phase.opens ≠ some session ∧ other.phase.binds ≠ some session) : Kept (w.moves i h (.sending conversation row)) := by
  obtain ⟨inside,same⟩ := getSession_some found
  have lookup : ∀ j, (w.moves i h (.sending conversation row)).tasks.lookup j =
      if j = i then some (.handles { h with phase := .sending conversation row }) else w.tasks.lookup j :=
    fun j => lookup_insert_eq _ _ _ _
  refine ⟨kept.pairs,kept.single,?_,?_,?_⟩
  · intro target other created
    rcases kept.binding target other created with bound | ⟨j,third,present,pending⟩
    · exact .inl bound
    · refine .inr ⟨j,third,?_,pending⟩
      rw [lookup,if_neg fun equal => ?_]
      · exact present
      · rw [equal,held] at present
        cases present
        rw [phase] at pending
        cases pending
  · intro j other target present opened
    rw [lookup] at present
    split at present
    · rename_i equal
      cases present
      simp only [Phase.opens,Option.ite_none_right_eq_some,Option.some.injEq] at opened
      obtain ⟨empty,rfl⟩ := opened
      rw [same]
      refine ⟨fun created linked => ?_,fun k third present' opened' => ?_⟩
      · rcases kept.binding created session linked with bound | ⟨k,third,present',pending⟩
        · exact bound row inside same empty
        · exact (alone empty k third present').2 pending
      · rw [lookup] at present'
        split at present'
        · rename_i equal'
          exact equal'.trans equal.symm
        · exact absurd opened' (alone empty k third present').1
    · rename_i different
      obtain ⟨none_,only⟩ := kept.opening j other target present opened
      refine ⟨none_,fun k third present' opened' => ?_⟩
      rw [lookup] at present'
      split at present'
      · cases present'
        simp only [Phase.opens,Option.ite_none_right_eq_some,Option.some.injEq] at opened'
        obtain ⟨empty,rfl⟩ := opened'
        rw [same] at opened
        exact absurd opened (alone empty j other present).1
      · exact only k third present' opened'
  · intro m dispatched
    rcases kept.carried m dispatched with sent | ⟨other,present,text,user,chat,target⟩
    · exact .inl sent
    · by_cases equal : m.handler = i
      · rw [equal] at present
        cases held.symm.trans present
        rw [phase] at target
        refine .inr ⟨{ h with phase := .sending conversation row },by rw [lookup,if_pos equal],text,user,chat,?_⟩
        simpa [Phase.dispatchedTo,same] using target
      · exact .inr ⟨other,by rw [lookup,if_neg equal]; exact present,text,user,chat,target⟩

theorem Kept.creates {w : World} (kept : Kept w) {i : Nat} {h : Handler} (held : w.tasks.lookup i = some (.handles h))
    {session : AssistantSessionRow} (phase : h.phase = .sending none session) (empty : session.conversationId = none)
    (target : String) :
    Kept { w.moves i h (.warming none session.id target) with conversations := w.conversations.insert target session.id } := by
  have opened : h.phase.opens = some session.id := by simp [phase,Phase.opens,empty]
  obtain ⟨none_,alone⟩ := kept.opening i h session.id held opened
  have lookup : ∀ j, (w.moves i h (.warming none session.id target)).tasks.lookup j =
      if j = i then some (.handles { h with phase := .warming none session.id target }) else w.tasks.lookup j :=
    fun j => lookup_insert_eq _ _ _ _
  refine ⟨kept.pairs,?_,?_,?_,?_⟩
  · intro one other owner here there
    rw [lookup_insert_eq] at here there
    split at here
    · cases here
      split at there
      · simp_all
      · exact absurd there (none_ other)
    · split at there
      · cases there
        exact absurd here (none_ one)
      · exact kept.single one other owner here there
  · intro other owner created
    rw [lookup_insert_eq] at created
    split at created
    · cases created
      exact .inr ⟨i,{ h with phase := .warming none session.id target },by rw [lookup,if_pos rfl],rfl⟩
    · rcases kept.binding other owner created with bound | ⟨j,third,present,pending⟩
      · exact .inl bound
      · refine .inr ⟨j,third,?_,pending⟩
        rw [lookup,if_neg fun equal => ?_]
        · exact present
        · rw [equal,held] at present
          cases present
          rw [phase] at pending
          cases pending
  · intro j other owner present open_
    rw [lookup] at present
    split at present
    · cases present
      cases open_
    · rename_i different
      obtain ⟨none_',only⟩ := kept.opening j other owner present open_
      refine ⟨fun created linked => ?_,fun k third present' open' => ?_⟩
      · rw [lookup_insert_eq] at linked
        split at linked
        · cases linked
          exact different (alone j other present open_)
        · exact none_' created linked
      · rw [lookup] at present'
        split at present'
        · cases present'
          cases open'
        · exact only k third present' open'
  · intro m dispatched
    rcases kept.carried m dispatched with sent | ⟨other,present,text,user,chat,owner⟩
    · exact .inl sent
    · by_cases same : m.handler = i
      · rw [same] at present
        cases held.symm.trans present
        rw [phase] at owner
        exact .inr ⟨{ h with phase := .warming none session.id target },by rw [lookup,if_pos same],text,user,chat,owner⟩
      · exact .inr ⟨other,by rw [lookup,if_neg same]; exact present,text,user,chat,owner⟩

theorem Kept.inserts {w : World} (kept : Kept w) (sound : Sound w) (row : AssistantSessionRow) {chatId : String}
    (chat : row.chatId = some chatId) (unused : w.owners.lookup row.id = none) (free : selectSession w.sessions row.userId chatId = none) :
    Kept { w with sessions := w.sessions ++ [row], owners := w.owners.insert row.id (row.userId,row.chatId) } := by
  refine ⟨?_,kept.single,?_,kept.opening,kept.carried⟩
  · refine List.pairwise_append.mpr ⟨kept.pairs,List.pairwise_singleton _ _,fun other inside last member => ?_⟩
    cases List.mem_singleton.mp member
    rw [chat]
    exact selectSession_none free other inside
  · intro target session created
    refine (kept.binding target session created).imp (fun bound other inside same => ?_) fun held => held
    rcases List.mem_append.mp inside with before | last
    · exact bound other before same
    · cases List.mem_singleton.mp last
      have owned := sound.created target session created
      rw [← same,unused] at owned
      cases owned

theorem Kept.resolves {w : World} (kept : Kept w) {i : Nat} {h : Handler} (held : w.tasks.lookup i = some (.handles h))
    (idle : h.phase.binds = none ∧ h.phase.dispatchedTo = none) (row : AssistantSessionRow) : Kept (w.resolves i h row) := by
  obtain ⟨binds,dispatched⟩ := idle
  have moves : ∀ phase : Phase, phase.opens = none → Kept (w.moves i h phase) := fun phase opens =>
    kept.moves held (fun session pending => by rw [binds] at pending; cases pending) opens
      fun m _ carries => by rw [Handler.carries,dispatched] at carries; cases carries.2.2.2
  have ends : Kept (w.ends i) := by
    refine kept.ends (fun other session present pending => ?_) fun other present m _ _ carries => ?_
    · cases held.symm.trans present
      rw [binds] at pending
      cases pending
    · cases held.symm.trans present
      rw [Handler.carries,dispatched] at carries
      cases carries.2.2.2
  unfold World.resolves
  cases text : h.request with
  | text content =>
    have moved := moves (.dispatched row.id row.conversationId) rfl
    refine ⟨moved.pairs,moved.single,moved.binding,moved.opening,fun m logged => ?_⟩
    rcases List.mem_cons.mp logged with rfl | before
    · refine .inr ⟨{ h with phase := .dispatched row.id row.conversationId },?_,text,rfl,rfl,rfl⟩
      exact (lookup_insert_eq _ _ _ _).trans (if_pos rfl)
    · exact moved.carried m before
  | agentSelect agentType => exact moves _ rfl
  | sessionNew => exact ends
  | sessionStatus => exact ends

theorem Kept.posts {w : World} (kept : Kept w) (i : Nat) (h : Handler) (session target : String) :
    Kept (w.posts i h session target) := by
  unfold World.posts
  cases h.request with
  | text content =>
    refine ⟨kept.pairs,kept.single,kept.binding,kept.opening,fun m dispatched => ?_⟩
    exact (kept.carried m dispatched).imp (fun ⟨other,sent⟩ => ⟨other,List.mem_cons_of_mem _ sent⟩) fun held => held
  | _ => exact kept

theorem posts_carried (w : World) {i : Nat} {h : Handler} {session : String} (target : String) {m : Message}
    (posting : h.phase.dispatchedTo = some session) (mine : m.handler = i) (carries : h.carries m) :
    (m,target) ∈ (w.posts i h session target).sent := by
  obtain ⟨text,user,chat,owner⟩ := carries
  cases posting.symm.trans owner
  unfold World.posts
  rw [text,← mine,user,chat]
  exact List.mem_cons_self

theorem getSession_none {sessions : List AssistantSessionRow} {session : String} (missing : getSession sessions session = none) :
    ∀ row ∈ sessions, row.id ≠ session := by
  intro row inside
  simpa using List.find?_eq_none.mp missing row inside

theorem Kept.proceeds {w after : World} {i now : Nat} {h : Handler} (kept : Kept w)
    (held : w.tasks.lookup i = some (.handles h)) (within : Within w (.proceed i now)) (proceeded : h.proceeds w i now = some after) :
    Kept after := by
  have carries : ∀ {phase : Phase} {w' : World}, phase.dispatchedTo = h.phase.dispatchedTo →
      ∀ m, m.handler = i → h.carries m → phase.dispatchedTo = some m.session ∨ ∃ target, (m,target) ∈ w'.sent :=
    fun same m _ carries => .inl (same.trans carries.2.2.2)
  have idle : h.phase.dispatchedTo = none → ∀ {w' : World}, w'.tasks = w.tasks → ∀ other, w'.tasks.lookup i = some (.handles other) →
      ∀ m ∈ w'.dispatches, m.handler = i → other.carries m → ∃ target, (m,target) ∈ w'.sent := by
    intro nothing w' same other present m _ _ carries
    rw [same,held] at present
    cases present
    rw [Handler.carries,nothing] at carries
    cases carries.2.2.2
  unfold Handler.proceeds at proceeded
  cases phase : h.phase with
  | resetting =>
    rw [phase] at proceeded
    cases proceeded
    exact (kept.moves held (by simp [phase,Phase.binds]) rfl (carries (by rw [phase]; rfl))).filter _
  | looking =>
    rw [phase] at proceeded
    dsimp only at proceeded
    split at proceeded
    · cases proceeded
      exact kept.moves held (by simp [phase,Phase.binds]) rfl (carries (by rw [phase]; rfl))
    · cases proceeded
      exact kept.moves held (by simp [phase,Phase.binds]) rfl (carries (by rw [phase]; rfl))
  | touching row =>
    rw [phase] at proceeded
    cases proceeded
    have touched : Kept { w with sessions := updateSessionActivity w.sessions row.id now } :=
      kept.updates row.id _ fun _ => ⟨rfl,rfl,rfl,fun none_ => none_⟩
    exact touched.resolves held (by rw [phase]; exact ⟨rfl,rfl⟩) _
  | inserting =>
    rw [phase] at proceeded
    cases proceeded
  | switching session =>
    rw [phase] at proceeded
    dsimp only at proceeded
    split at proceeded
    · cases proceeded
      have ended : Kept (w.ends i) := by
        refine kept.ends (fun other target present pending => ?_) (idle (by rw [phase]; rfl) rfl)
        cases held.symm.trans present
        rw [phase] at pending
        cases pending
      exact ended.updates session _ fun _ => ⟨rfl,rfl,rfl,fun none_ => none_⟩
    · cases proceeded
  | dispatched session conversation =>
    rw [phase] at proceeded
    obtain ⟨row,found,alone⟩ := within h session conversation held phase
    simp only [found] at proceeded
    cases proceeded
    exact kept.reads held phase found alone
  | sending conversation session =>
    rw [phase] at proceeded
    dsimp only at proceeded
    split at proceeded
    · cases proceeded
      exact kept.moves held (by simp [phase,Phase.binds]) rfl (carries (by rw [phase]; rfl))
    · cases proceeded
  | warming conversation session target =>
    rw [phase] at proceeded
    cases proceeded
    refine kept.moves held (fun other pending => .inl ?_) rfl (carries (by rw [phase]; rfl))
    rw [phase] at pending
    cases conversation with
    | none => exact pending
    | some bound => cases pending
  | posting conversation session target =>
    rw [phase] at proceeded
    dsimp only at proceeded
    have posted := kept.posts i h session target
    have still : (w.posts i h session target).tasks.lookup i = some (.handles h) := by rw [posts_tasks,held]
    have sends : ∀ m, m.handler = i → h.carries m → (m,target) ∈ (w.posts i h session target).sent :=
      fun m mine carries => posts_carried w target (by rw [phase]; rfl) mine carries
    split at proceeded
    · cases proceeded
      refine posted.moves still (fun other pending => .inl ?_) rfl fun m mine carries => .inr ⟨target,sends m mine carries⟩
      rw [phase] at pending
      exact pending
    · cases proceeded
      refine posted.ends (fun other owner present pending => ?_) fun other present m _ mine carries => ?_
      · cases still.symm.trans present
        rw [phase] at pending
        cases pending
      · cases still.symm.trans present
        exact ⟨target,sends m mine carries⟩
  | binding session target =>
    rw [phase] at proceeded
    dsimp only at proceeded
    split at proceeded
    · cases proceeded
      have linked : Kept { w with sessions := updateSessionConversation w.sessions session target now } :=
        kept.updates session _ fun _ => ⟨rfl,rfl,rfl,nofun⟩
      have bound : Bound { w with sessions := updateSessionConversation w.sessions session target now } session := by
        intro row inside same
        obtain ⟨before,_,rfl⟩ := List.mem_map.mp inside
        split at same
        · rename_i equal
          rw [if_pos equal]
          exact nofun
        · rename_i different
          exact absurd same different
      have ended : Kept ({ w with sessions := updateSessionConversation w.sessions session target now }.ends i) := by
        refine linked.ends (fun other owner present pending => ?_) (idle (by rw [phase]; rfl) rfl)
        cases held.symm.trans present
        rw [phase] at pending
        cases pending
        exact bound
      exact ⟨ended.pairs,ended.single,ended.binding,ended.opening,ended.carried⟩
    · rename_i missing
      cases proceeded
      refine kept.ends (fun other owner present pending => ?_) (idle (by rw [phase]; rfl) rfl)
      cases held.symm.trans present
      rw [phase] at pending
      cases pending
      exact fun row inside same => absurd same (getSession_none missing row inside)

theorem Kept.keeps {w after : World} {event : Event} (kept : Kept w) (sound : Sound w) (within : Within w event)
    (stepped : step w event = some after) : Kept after := by
  cases event with
  | arrive userId chatId request =>
    cases stepped
    refine kept.spawns sound fun h same => ?_
    cases same
    cases request <;> rfl
  | clear =>
    cases stepped
    exact kept.spawns sound fun h same => by cases same
  | proceed i now =>
    simp only [step] at stepped
    split at stepped
    · rename_i h held
      exact kept.proceeds held within stepped
    · rename_i user rest held
      cases stepped
      have onward : Kept { w with tasks := w.tasks.insert i (.clears rest) } := kept.clears held rest
      exact onward.filter _
    · rename_i held
      cases stepped
      refine kept.ends (fun h session present _ => ?_) fun h present => ?_
      · cases held.symm.trans present
      · cases held.symm.trans present
    · cases stepped
  | insert i id configured now =>
    simp only [step] at stepped
    split at stepped
    · rename_i h held
      simp only [Option.ite_none_right_eq_some,Option.some.injEq,Option.isNone_iff_eq_none] at stepped
      obtain ⟨⟨phase,unused⟩,rfl⟩ := stepped
      refine Kept.resolves (kept.inserts sound (newRow id h.userId h.chatId _ now) rfl unused (within h held)) held ?_ _
      rw [phase]
      exact ⟨rfl,rfl⟩
    · cases stepped
  | create i id =>
    simp only [step] at stepped
    split at stepped
    · rename_i h held
      split at stepped
      · rename_i conversation session phase
        simp only [Option.ite_none_right_eq_some,Option.some.injEq] at stepped
        obtain ⟨⟨empty,_⟩,rfl⟩ := stepped
        have knows := sound.knows i h held
        unfold Handler.Knows at knows
        rw [phase] at knows
        cases knows.2.1 empty
        exact kept.creates held phase empty id
      · cases stepped
    · cases stepped
  | fail i =>
    simp only [step,Option.ite_none_right_eq_some,Option.some.injEq] at stepped
    obtain ⟨_,rfl⟩ := stepped
    refine kept.ends (fun h session present pending => ?_) fun h present m _ _ carries => ?_
    · rw [(within h present).2] at pending
      cases pending
    · rw [Handler.carries,(within h present).1] at carries
      cases carries.2.2.2

theorem kept_start : Kept start := by
  refine ⟨List.Pairwise.nil,fun target other session held => ?_,fun target session held => ?_,fun i h session held => ?_,
    fun m inside => ?_⟩
  · cases held
  · cases held
  · cases held
  · cases inside

theorem kept_run {events : List Event} {w : World} (path : RunsWhere step Within start events w) : Sound w ∧ Kept w := by
  induction path with
  | nil => exact ⟨sound_start,kept_start⟩
  | snoc prior within stepped ih =>
    obtain ⟨sound,kept⟩ := ih
    exact ⟨sound.keeps stepped,kept.keeps sound within stepped⟩

end Keeping

theorem one_conversation_per_chat {events : List Event} {w : World} (path : RunsWhere step Within start events w) :
    OneConversation w := by
  obtain ⟨sound,kept⟩ := kept_run path
  refine ⟨kept.pairs,fun session target other => kept.single target other session,?_,?_,
    fun m other target one two => conversations_apart sound one two,?_⟩
  · intro session target other one two
    exact kept.single target other session (sound.bound session target one) (sound.bound session other two)
  · intro m target other logged created
    exact kept.single target other m.session (sound.sent m target logged).1 created
  · intro quiescent m dispatched
    rcases kept.carried m dispatched with sent | ⟨h,present,_⟩
    · exact sent
    · rw [show w.tasks = ∅ from quiescent] at present
      cases present

def firstMessage (i : Nat) (content session conversation : String) : List Event :=
  [.arrive "user" "chat" (.text content),.proceed i 1,.insert i session "gemini" 1,.proceed i 2,.create i conversation,
    .proceed i 3,.proceed i 4,.proceed i 5]

theorem one_conversation_first_message :
    ∃ w, Runs step start (firstMessage 0 "hello" "s1" "c1") w ∧ OneConversation w ∧ Quiescent w ∧
      w.sent = [(⟨0,"s1","user","chat","hello"⟩,"c1")] := by
  have within : ∃ w, RunsWhere step Within start (firstMessage 0 "hello" "s1" "c1") w ∧ Quiescent w ∧
      w.sent = [(⟨0,"s1","user","chat","hello"⟩,"c1")] := by
    refine ⟨_,.cons trivial rfl (.cons ?_ rfl (.cons ?_ rfl (.cons ?_ rfl (.cons trivial rfl (.cons ?_ rfl (.cons ?_ rfl
      (.cons ?_ rfl .nil))))))),rfl,rfl⟩
    · intro h session conversation held phase
      cases held
      cases phase
    · intro h held
      cases held
      rfl
    · intro h session conversation held phase
      cases held
      cases phase
      refine ⟨_,rfl,fun _ j other present => ?_⟩
      cases (mem_entries_iff _).mpr present with
      | head => exact ⟨nofun,nofun⟩
      | tail _ rest => cases rest
    all_goals
      intro h session conversation held phase
      cases held
      cases phase
  obtain ⟨w,path,quiescent,sent⟩ := within
  exact ⟨w,path.runs,one_conversation_per_chat path,quiescent,sent⟩

-- Both handlers read the session before either of them has bound it; no look-up
-- comes between another's look-up and its insert.
def overlappingMessages : List Event :=
  [.arrive "user" "chat" (.text "one"),.arrive "user" "chat" (.text "two"),.proceed 0 1,.insert 0 "s1" "gemini" 1,.proceed 1 2,
    .proceed 1 2,.proceed 0 3,.proceed 1 3,.create 0 "c1",.create 1 "c2",.proceed 0 4,.proceed 0 4,.proceed 0 5,.proceed 1 6,
    .proceed 1 6,.proceed 1 7]

def overlappingLookups : List Event :=
  [.arrive "user" "chat" .sessionStatus,.arrive "user" "chat" .sessionStatus,.proceed 0 1,.proceed 1 1,.insert 0 "s1" "gemini" 1,
    .insert 1 "s2" "gemini" 1]

theorem second_conversation :
    (∃ w, Runs step start overlappingMessages w ∧ Quiescent w ∧ w.bound = [("s1","c2"),("s1","c1")] ∧
      w.sent = [(⟨1,"s1","user","chat","two"⟩,"c2"),(⟨0,"s1","user","chat","one"⟩,"c1")]) ∧
    (∃ w, Runs step start overlappingLookups w ∧ Quiescent w ∧
      w.sessions = [newRow "s1" "user" "chat" "gemini" 1,newRow "s2" "user" "chat" "gemini" 1]) :=
  ⟨⟨_,exec_exact.mp rfl,rfl,rfl,rfl⟩,⟨_,exec_exact.mp rfl,rfl,rfl⟩⟩

end AlineaCopilot.ChannelSessions
