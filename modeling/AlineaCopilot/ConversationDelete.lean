import AlineaCopilot.ConversationFlags
open AlineaCopilot.KeyedMaps AlineaCopilot.TransitionRuns AlineaCopilot.InterleavedRequests AlineaCopilot.MessageTable
open AlineaCopilot.ConversationRuntime

namespace AlineaCopilot.ConversationRequests

-- No step claims a turn of a conversation that a deletion is at work on.
def Excludes (before after : System Store Progress) : Prop :=
  ∀ c n, (before.threads n).deletes = some c → ∀ t, after.store.runtime.activeTurnIdFor c = some t →
    before.store.runtime.activeTurnIdFor c = some t

-- A conversation without its row has no message either.
def Rooted (store : Store) : Prop := ∀ row ∈ store.messages, store.conversations.lookup row.conversationId ≠ none

def Gone (c : String) (store : Store) : Prop :=
  store.conversations.lookup c = none ∧ ∀ row ∈ store.messages, row.conversationId ≠ c

-- With its deletions returned, and every turn that was active when one of them
-- marked it released, a conversation is not marked any more.
def DeletionCleared (system : System Store Progress) : Prop :=
  ∀ c, (∀ n, (system.threads n).deletes ≠ some c) →
    (∀ t, (c,t) ∈ system.store.marked → system.store.runtime.activeTurnIdFor c ≠ some t) →
      c ∉ system.store.runtime.deleting

-- A turn is asked for during a deletion only while the mark of it stands.
def DeletionGuarded (system : System Store Progress) (action : Nat × Input) : Prop :=
  ∀ turn n, system.threads action.1 = .turn (.claiming turn) → (system.threads n).deletes = some turn.conversationId →
    turn.conversationId ∈ system.store.runtime.deleting

theorem excluded_step (guarded : DeletionGuarded system action) (taken : step advance system action = some next) :
    Excludes system next := by
  obtain ⟨n,input⟩ := action
  obtain ⟨store,after,moved,rfl⟩ := step_some taken
  intro c m deletes t active
  rw [goes_store] at active
  rcases active_origin (advance_effect moved) active with before | ⟨_,unmarked,turn,stands,rfl⟩
  · exact before
  · exact absurd (guarded turn m stands deletes) unmarked

section Rows
variable {store next : Store}

theorem Rooted.step (rooted : Rooted store) (effect : TableEffect store next) : Rooted next := by
  intro row inside
  cases effect with
  | nothing conversations messages =>
    rw [messages] at inside
    rw [conversations]
    exact rooted row inside
  | inserted new known conversations messages =>
    rw [messages] at inside
    rw [conversations]
    rcases List.mem_append.mp inside with earlier | last
    · exact rooted row earlier
    · cases List.mem_singleton.mp last
      exact Option.isSome_iff_ne_none.mp known
  | updated rowId changes conversations messages =>
    rw [messages] at inside
    rw [conversations]
    obtain ⟨old,earlier,rfl⟩ := List.mem_map.mp inside
    have same : (if old.id = rowId then changes.apply old else old).conversationId = old.conversationId := by
      split <;> rfl
    rw [same]
    exact rooted old earlier
  | finished c old new stands conversations messages =>
    rw [messages] at inside
    rw [conversations,lookup_insert_eq]
    split
    · nofun
    · exact rooted row inside
  | deleted c conversations messages =>
    rw [messages] at inside
    obtain ⟨earlier,other⟩ := List.mem_filter.mp inside
    rw [conversations,lookup_erase_eq,if_neg (by simpa using other)]
    exact rooted row earlier

theorem Rooted.gone (rooted : Rooted store) (missing : store.conversations.lookup c = none) : Gone c store :=
  ⟨missing,fun row inside same => rooted row inside (same ▸ missing)⟩

-- No row of a conversation comes back, and nothing is written to one.
theorem Gone.step (gone : Gone c store) (rooted : Rooted store) (effect : TableEffect store next) : Gone c next :=
  (rooted.step effect).gone (missing_step effect gone.1)

end Rows

-- A mark belongs to a deletion that clears it, or to a turn it met.
def MarkedForTurn (system : System Store Progress) : Prop :=
  ∀ c ∈ system.store.runtime.deleting, (∃ t, (c,t) ∈ system.store.marked ∧ system.store.runtime.activeTurnIdFor c = some t) ∨
    ∃ n, (system.threads n).clears = some c

theorem marked_grows (moved : advance store progress input = some (next,after)) : store.marked ⊆ next.marked := by
  rcases advance_marked moved with same | ⟨c,_,noted⟩
  · rw [same]
    exact fun _ inside => inside
  · rw [noted]
    unfold Store.noteMarked
    split
    · exact fun _ inside => inside
    · exact fun _ inside => List.mem_cons_of_mem _ inside

theorem MarkedForTurn.step (held : MarkedForTurn system) (taken : step advance system action = some next) :
    MarkedForTurn next := by
  obtain ⟨n,input⟩ := action
  obtain ⟨store,after,moved,rfl⟩ := step_some taken
  have effect := advance_effect moved
  intro c flagged
  rw [goes_store] at flagged ⊢
  rcases (flag_origin effect).1 flagged with before | ⟨stands,goes,same⟩
  · rcases held c before with ⟨t,noted,active⟩ | ⟨m,clears⟩
    · left
      have kept := (active_kept effect (active ▸ nofun)).resolve_right fun cleared => cleared.1 flagged
      obtain ⟨u,stays⟩ := Option.ne_none_iff_exists'.mp kept
      rcases active_origin effect stays with earlier | ⟨free,_⟩
      · cases Option.some.inj (earlier.symm.trans active)
        exact ⟨_,marked_grows moved noted,stays⟩
      · rw [active] at free; cases free
    · refine .inr ⟨m,?_⟩
      by_cases own : m = n
      · subst own
        rw [goes_same]
        exact clears_step moved clears flagged
      · rwa [goes_other own]
  · cases active : system.store.runtime.activeTurnIdFor c with
    | some t =>
      refine .inl ⟨t,?_,same.trans active⟩
      rw [stands] at moved
      cases input <;> cases moved
      simp [Store.withRuntime,Store.noteMarked,active]
    | none =>
      refine .inr ⟨n,?_⟩
      rw [goes_same,goes]
      simp [Progress.clears,RuntimeState.isClaimed,active]

theorem MarkedForTurn.cleared (held : MarkedForTurn system) : DeletionCleared system := by
  intro c returned released flagged
  rcases held c flagged with ⟨t,noted,active⟩ | ⟨n,clears⟩
  · exact released t noted active
  · exact returned n (clears_deletes clears)

-- A deletion keeps turns out as long as no turn is asked for after its mark is
-- gone; in any case nothing is written to a conversation that is deleted, and
-- its flag is cleared in the end.
theorem deletion_excludes_turns (rooted : Rooted (start conversations messages).store)
    (path : RunsWhere (step advance) DeletionGuarded (start conversations messages) actions system) :
    (∀ earlier action between next, earlier ++ [action] <+: actions →
      Runs (step advance) (start conversations messages) earlier between → step advance between action = some next →
        Excludes between next) ∧
    (∀ c earlier between, earlier <+: actions → Runs (step advance) (start conversations messages) earlier between →
      between.store.conversations.lookup c = none → Gone c between.store ∧ Gone c system.store) ∧
    DeletionCleared system := by
  have tables : ∀ {before action next}, step advance before action = some next → TableEffect before.store next.store := by
    rintro before ⟨n,input⟩ next taken
    obtain ⟨store,after,moved,rfl⟩ := step_some taken
    exact advance_tables moved
  refine ⟨fun earlier action between next inside prior taken => ?_,fun c earlier between inside prior missing => ?_,?_⟩
  · exact excluded_step (path.at_step inside prior) taken
  · let whole : System Store Progress → Prop := fun s => Rooted s.store
    have rooted_between : whole between := Runs.invariant rooted (fun _ _ _ holds taken => Rooted.step holds (tables taken)) prior
    obtain ⟨rest,onward⟩ := path.runs.later inside prior
    let empty : System Store Progress → Prop := fun s => Gone c s.store ∧ Rooted s.store
    have both : empty system := Runs.invariant ⟨rooted_between.gone missing,rooted_between⟩
      (fun _ _ _ holds taken => ⟨Gone.step holds.1 holds.2 (tables taken),Rooted.step holds.2 (tables taken)⟩) onward
    exact ⟨rooted_between.gone missing,both.1⟩
  · have held : MarkedForTurn system := path.runs.invariant
      (fun c inside => absurd inside (Finset.notMem_empty c)) fun _ _ _ holds taken => holds.step taken
    exact held.cleared

-- A turn runs and another message has found the conversation when a deletion
-- marks it; the turn ends while the deletion still calls its hooks.
def releaseDuringDeletion : List (Nat × Input) := runningTurn ++
  [(2,.arrive (.sendMessage "ana" "chat" "again" false)),(2,.answer ""),
    (1,.arrive (.delete "ana" "chat")),(1,.answer ""),(1,.answer ""),(0,.finish)]

theorem claimed_during_deletion : ∃ between next, exec (step advance) oneChat releaseDuringDeletion = some between ∧
    step advance between (2,.answer "turn-b") = some next ∧ (between.threads 1).deletes = some "chat" ∧
    ¬Excludes between next := by
  refine ⟨_,_,rfl,rfl,rfl,fun excludes => ?_⟩
  have none : _ = some "turn-b" := excludes "chat" 1 rfl "turn-b" rfl
  cases none

-- A deletion of a conversation without a turn, and a message that comes meanwhile.
def messageDuringDeletion : List (Nat × Input) :=
  [(2,.arrive (.sendMessage "ana" "chat" "again" false)),(2,.answer ""),(1,.arrive (.delete "ana" "chat")),(1,.answer ""),
    (1,.answer ""),(2,.answer "turn-b"),(1,.answer ""),(1,.answer ""),(1,.answer ""),(1,.answer "")]

theorem message_during_deletion : ∃ after, RunsWhere (step advance) DeletionGuarded oneChat messageDuringDeletion after := by
  have others : ∀ {system : System Store Progress} {n input}, (∀ turn, system.threads n ≠ .turn (.claiming turn)) →
      DeletionGuarded system (n,input) := fun none turn _ stands => absurd stands (none turn)
  refine ⟨_,.cons (others nofun) rfl (.cons (others nofun) rfl (.cons (others nofun) rfl (.cons (others nofun) rfl
    (.cons (others nofun) rfl (.cons ?_ rfl (.cons (others nofun) rfl (.cons (others nofun) rfl
      (.cons (others nofun) rfl (.cons (others nofun) rfl .nil)))))))))⟩
  rintro turn n ⟨⟩ _
  decide

theorem deletion_excludes_turns_message : ∃ after, exec (step advance) oneChat messageDuringDeletion = some after ∧
    DeletionCleared after ∧ Gone "chat" after.store := by
  obtain ⟨after,path⟩ := message_during_deletion
  have kept := deletion_excludes_turns (fun row inside => absurd inside List.not_mem_nil) path
  refine ⟨after,exec_exact.mpr path.runs,kept.2.2,?_⟩
  refine (kept.2.1 "chat" _ after (List.prefix_refl _) path.runs ?_).2
  have ran := exec_exact.mpr path.runs
  cases ran
  rfl

end AlineaCopilot.ConversationRequests
