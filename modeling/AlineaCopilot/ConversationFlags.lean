import AlineaCopilot.ConversationClaims
import AlineaCopilot.ConversationSteps
open AlineaCopilot.KeyedMaps AlineaCopilot.TransitionRuns AlineaCopilot.InterleavedRequests AlineaCopilot.ConversationRuntime
open AlineaCopilot.ConversationClaims

namespace AlineaCopilot.ConversationRequests

-- Every flag has someone left who clears it: the release of the turn that is
-- active, or the deletion that has set it.
structure FlagsHeld (system : System Store Progress) : Prop where
  deleting : ∀ c ∈ system.store.runtime.deleting, system.store.runtime.activeTurnIdFor c ≠ none ∨
    ∃ n, (system.threads n).clears = some c
  cancelling : ∀ c ∈ system.store.runtime.cancelling, system.store.runtime.activeTurnIdFor c ≠ none

-- A conversation is marked as cancelling while one of its turns is claimed.
def MarksActiveTurn (system : System Store Progress) (action : Nat × Input) : Prop :=
  ∀ c t agent, system.threads action.1 = .cancel (.marking c t agent) → system.store.runtime.activeTurnIdFor c ≠ none

-- No flag outlives the requests that set it and the turns of its conversation.
def FlagsCleared (system : System Store Progress) : Prop :=
  ∀ c, system.store.runtime.activeTurnIdFor c = none → (∀ n, (system.threads n).deletes ≠ some c) →
    c ∉ system.store.runtime.deleting ∧ c ∉ system.store.runtime.cancelling

section Steps
variable {store next : Store} {progress after : Progress} {input : Input} {runtime runtime' : RuntimeState}

theorem clears_deletes (clears : progress.clears = some c) : progress.deletes = some c := by
  cases progress with
  | delete progress =>
    cases progress with
    | hooking d had => cases had <;> simp_all [Progress.clears,Progress.deletes]
    | removing d had => cases had <;> simp_all [Progress.clears,Progress.deletes]
    | _ => simp_all [Progress.clears,Progress.deletes]
  | _ => simp [Progress.clears] at clears

-- A deletion that is to clear its flag goes on to do so.
theorem clears_step (moved : advance store progress input = some (next,after)) (clears : progress.clears = some c)
    (flagged : c ∈ next.runtime.deleting) : after.clears = some c := by
  cases progress with
  | delete progress =>
    cases progress with
    | hooking d had =>
      cases had with
      | true => cases clears
      | false => cases input <;> cases moved; exact clears
    | removing d had =>
      cases had with
      | true => cases clears
      | false =>
        cases input with
        | answer freshId =>
          simp only [advance,serveDelete] at moved
          split at moved <;> cases moved <;> exact clears
        | fail error => cases moved; exact clears
        | _ => cases moved
    | failing d error =>
      cases clears
      cases input <;> cases moved
      simp [Store.withRuntime,RuntimeState.clearDeleting] at flagged
    | clearing d =>
      cases clears
      cases input <;> cases moved
      simp [Store.withRuntime,RuntimeState.clearDeleting] at flagged
    | _ => cases clears
  | _ => cases clears

-- Only a release takes the active turn of a conversation away, and its flags
-- with it.
theorem active_kept (effect : RuntimeEffect runtime progress after runtime')
    (active : runtime.activeTurnIdFor c ≠ none) : runtime'.activeTurnIdFor c ≠ none ∨
      (c ∉ runtime'.deleting ∧ c ∉ runtime'.cancelling) := by
  cases effect with
  | claimed turn t next claim _ outcome =>
    obtain ⟨_,_,_,rfl,_⟩ := tryClaimTurn_ok outcome
    left
    simp only [RuntimeState.activeTurnIdFor,lookup_insert_eq]
    split
    · rintro ⟨⟩
    · exact active
  | released claim =>
    rcases release_cases runtime claim.conversationId claim.turnId with ⟨_,equal⟩ | ⟨_,equal⟩
    · rw [equal]
      by_cases same : c = claim.conversationId
      · exact .inr (by simp [same])
      · left
        simpa only [RuntimeState.activeTurnIdFor,lookup_erase_eq,same,if_false] using active
    · rw [equal]; exact .inl active
  | _ => exact .inl active

-- A turn becomes active by being claimed, while no other is.
theorem active_origin (effect : RuntimeEffect runtime progress after runtime')
    (active : runtime'.activeTurnIdFor c = some t) : runtime.activeTurnIdFor c = some t ∨
      (runtime.activeTurnIdFor c = none ∧ c ∉ runtime.deleting ∧
        ∃ turn, progress = .turn (.claiming turn) ∧ turn.conversationId = c) := by
  cases effect with
  | claimed turn u next claim stands outcome =>
    obtain ⟨_,unmarked,free,rfl,_⟩ := tryClaimTurn_ok outcome
    simp only [RuntimeState.activeTurnIdFor,lookup_insert_eq] at active
    split at active
    · rename_i same
      subst same
      exact .inr ⟨free,unmarked,turn,stands,rfl⟩
    · exact .inl active
  | released claim =>
    rcases release_cases runtime claim.conversationId claim.turnId with ⟨_,equal⟩ | ⟨_,equal⟩
    · rw [equal] at active
      simp only [RuntimeState.activeTurnIdFor,lookup_erase_eq] at active
      split at active
      · cases active
      · exact .inl active
    · rw [equal] at active
      exact .inl active
  | _ => exact .inl active

-- A flag that a step sets: by a marking, on the conversation it names.
theorem flag_origin (effect : RuntimeEffect runtime progress after runtime') :
    (c ∈ runtime'.deleting → c ∈ runtime.deleting ∨
      (progress = .delete (.marking c) ∧ after = .delete (.hooking c (runtime.isClaimed c)) ∧
        runtime'.activeTurnIdFor c = runtime.activeTurnIdFor c)) ∧
    (c ∈ runtime'.cancelling → c ∈ runtime.cancelling ∨ ∃ t agent, progress = .cancel (.marking c t agent) ∧
      after = .cancel (.stopping c t agent) ∧ runtime'.activeTurnIdFor c = runtime.activeTurnIdFor c) := by
  cases effect with
  | claimed turn t next claim _ outcome =>
    obtain ⟨_,_,_,rfl,_⟩ := tryClaimTurn_ok outcome
    exact ⟨.inl,.inl⟩
  | released claim =>
    rcases release_cases runtime claim.conversationId claim.turnId with ⟨_,equal⟩ | ⟨_,equal⟩
    · rw [equal]
      exact ⟨fun inside => .inl (Finset.mem_of_mem_erase inside),fun inside => .inl (Finset.mem_of_mem_erase inside)⟩
    · rw [equal]; exact ⟨.inl,.inl⟩
  | markedCancelling d t agent stands goes =>
    refine ⟨.inl,fun inside => ?_⟩
    rcases Finset.mem_insert.mp inside with rfl | earlier
    · exact .inr ⟨t,agent,stands,goes,rfl⟩
    · exact .inl earlier
  | clearedCancelling d => exact ⟨.inl,fun inside => .inl (Finset.mem_of_mem_erase inside)⟩
  | markedDeleting d stands goes =>
    refine ⟨fun inside => ?_,.inl⟩
    rcases Finset.mem_insert.mp inside with rfl | earlier
    · exact .inr ⟨stands,goes,rfl⟩
    · exact .inl earlier
  | clearedDeleting d => exact ⟨fun inside => .inl (Finset.mem_of_mem_erase inside),.inl⟩
  | nothing | shutDown => exact ⟨.inl,.inl⟩

end Steps

theorem FlagsHeld.step (held : FlagsHeld system) (marks : MarksActiveTurn system action)
    (taken : step advance system action = some next) : FlagsHeld next := by
  obtain ⟨n,input⟩ := action
  obtain ⟨store,after,moved,rfl⟩ := step_some taken
  have effect := advance_effect moved
  refine ⟨fun c flagged => ?_,fun c flagged => ?_⟩
  · rw [goes_store] at flagged ⊢
    rcases (flag_origin effect).1 flagged with before | ⟨_,goes,same⟩
    · rcases held.deleting c before with active | ⟨m,clears⟩
      · exact (active_kept effect active).imp_right fun cleared => absurd flagged cleared.1
      · refine .inr ⟨m,?_⟩
        by_cases own : m = n
        · subst own
          rw [goes_same]
          exact clears_step moved clears flagged
        · rwa [goes_other own]
    · cases active : system.store.runtime.activeTurnIdFor c with
      | some t => exact .inl (by simp [same,active])
      | none =>
        refine .inr ⟨n,?_⟩
        rw [goes_same,goes]
        simp [Progress.clears,RuntimeState.isClaimed,active]
  · rw [goes_store] at flagged ⊢
    rcases (flag_origin effect).2 flagged with before | ⟨t,agent,stands,_,same⟩
    · exact (active_kept effect (held.cancelling c before)).resolve_right fun cleared => cleared.2 flagged
    · rw [same]
      exact marks c t agent stands

theorem FlagsHeld.cleared (held : FlagsHeld system) : FlagsCleared system := by
  intro c free returned
  constructor
  · intro flagged
    rcases held.deleting c flagged with active | ⟨n,clears⟩
    · exact active free
    · exact returned n (clears_deletes clears)
  · intro flagged
    exact held.cancelling c flagged free

theorem flags_held_start : FlagsHeld (start conversations messages) := by
  constructor <;> simp [start,RuntimeState.fresh]

-- Whatever methods are called in whatever order, turns exclude each other and
-- are released one by one; and whatever requests run, no flag is left behind
-- when each cancellation is marked while a turn is there to be cancelled.
theorem turns_exclusive_flags_cleared (conversations : KeyedMap String ConversationRow) (messages : MessageTable.Messages String) :
    (∀ methods turns, Runs call fresh methods turns → TurnsExclusive methods turns) ∧
    (∀ actions system,
      RunsWhere (step advance) MarksActiveTurn (start conversations messages) actions system → FlagsCleared system) := by
  refine ⟨fun methods turns path => turns_exclusive path,fun actions system path => ?_⟩
  have held : FlagsHeld system := path.invariant flags_held_start fun _ _ _ holds marks taken => holds.step marks taken
  exact held.cleared

def oneChat : System Store Progress :=
  start ((∅ : KeyedMap String ConversationRow).insert "chat" ⟨"ana",some .aionrs,none,"pending"⟩) []

-- A turn is running and its cancellation is about to be marked.
def runningTurn : List (Nat × Input) :=
  [(0,.arrive (.sendMessage "ana" "chat" "hello" false)),(0,.answer ""),(0,.answer "turn-a"),(0,.answer "m-a"),
    (0,.answer ""),(0,.answer "")]

def cancelling : List (Nat × Input) :=
  [(1,.arrive (.cancel "ana" "chat" "turn-a")),(1,.answer ""),(1,.answer ""),(1,.agent (some .aionrs))]

-- The turn ends before the cancellation is marked: its release clears nothing,
-- and nothing is left to clear what is set afterwards.
def markedLate : List (Nat × Input) := runningTurn ++ cancelling ++
  [(0,.finish),(0,.answer ""),(0,.answer ""),(0,.answer ""),(1,.answer ""),(1,.answer "")]

theorem late_mark_left_behind : ∃ after, exec (step advance) oneChat markedLate = some after ∧
    (∀ n, n < 2 → ∃ response, after.threads n = .returned (.ok response)) ∧ ¬FlagsCleared after := by
  refine ⟨_,rfl,?_,fun cleared => ?_⟩
  · intro n small
    match n with
    | 0 => exact ⟨_,rfl⟩
    | 1 => exact ⟨_,rfl⟩
  · have flag := (cleared "chat" rfl (fun n => ?_)).2
    · exact flag (by decide)
    · match n with
      | 0 => nofun
      | 1 => nofun
      | n + 2 => nofun

-- The cancellation is marked in time and the turn ends then.
def markedInTime : List (Nat × Input) := runningTurn ++ cancelling ++ [(1,.answer ""),(1,.answer ""),(0,.finish)]

theorem marked_in_time : ∃ after, RunsWhere (step advance) MarksActiveTurn oneChat markedInTime after := by
  have others : ∀ {system : System Store Progress} {n input}, (∀ c t agent, system.threads n ≠ .cancel (.marking c t agent)) →
      MarksActiveTurn system (n,input) := fun none c t agent stands => absurd stands (none c t agent)
  refine ⟨_,.cons (others nofun) rfl (.cons (others nofun) rfl (.cons (others nofun) rfl (.cons (others nofun) rfl
    (.cons (others nofun) rfl (.cons (others nofun) rfl (.cons (others nofun) rfl (.cons (others nofun) rfl
      (.cons (others nofun) rfl (.cons (others nofun) rfl (.cons ?_ rfl (.cons (others nofun) rfl
        (.cons (others nofun) rfl .nil))))))))))))⟩
  rintro c t agent ⟨⟩
  nofun

theorem turns_exclusive_flags_cleared_in_time :
    (∃ turns, exec call fresh [.tryClaimTurn "chat" "turn-a",.markShuttingDown,.drop 0] = some turns ∧
      TurnsExclusive [.tryClaimTurn "chat" "turn-a",.markShuttingDown,.drop 0] turns) ∧
    ∃ after, exec (step advance) oneChat markedInTime = some after ∧ FlagsCleared after := by
  obtain ⟨after,path⟩ := marked_in_time
  have claims := turns_exclusive_flags_cleared ((∅ : KeyedMap String ConversationRow).insert "chat" ⟨"ana",some .aionrs,none,"pending"⟩) []
  refine ⟨⟨_,rfl,claims.1 _ _ (exec_exact.mp rfl)⟩,after,exec_exact.mpr path.runs,?_⟩
  exact claims.2 _ _ path

end AlineaCopilot.ConversationRequests
