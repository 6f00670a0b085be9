import AlineaCopilot.AcpTurns
import AlineaCopilot.TransitionRuns
open AlineaCopilot.TransitionRuns

namespace AlineaCopilot.AcpTurns

def terminals (events : List Broadcast) : List Broadcast := events.filter (·.event.terminal)

-- How many terminals a subscription has seen, and how many the status stands for.
def since (r : AgentRuntime) (turn : Turn) : Nat := (terminals (r.events.drop turn.subscribed)).length
def mark (r : AgentRuntime) : Nat := if r.status = some .finished then 1 else 0

-- A session that does not open leaves no `Finished` of an earlier turn behind;
-- and a turn is only started when it has no terminal yet and all turns before it
-- have ended.
def Orderly (w : World) : Action → Prop
  | .openSession n (.error _) => ∀ turn, w.turns[n]? = some turn → w.runtime.status = some .finished → 0 < since w.runtime turn
  | .resetForNewTurn n => (∀ turn, w.turns[n]? = some turn → since w.runtime turn = 0) ∧
      ∀ m turn, m < n → w.turns[m]? = some turn → turn.sending = .over
  | _ => True

def Fits (r : AgentRuntime) (turn : Turn) : Prop :=
  match turn.sending with
  | .opening | .opened _ => since r turn ≤ mark r
  | .failed _ => since r turn = 1 ∧ mark r = 1
  | .over => turn.ended ≤ r.events.length ∧ (terminals ((r.events.take turn.ended).drop turn.subscribed)).length = 1
  | _ => since r turn = mark r

structure Kept (w : World) : Prop where
  placed : ∀ (n : Nat) turn, w.turns[n]? = some turn → turn.subscribed ≤ w.runtime.events.length ∧ turn.fallback = none
  fits : ∀ (n : Nat) turn, w.turns[n]? = some turn → Fits w.runtime turn
  relayed : ∀ (m n : Nat) turn, m < n → n < w.turns.length → w.turns[m]? = some turn → 0 < since w.runtime turn
  resets : ∀ (m n : Nat) turn later position, m < n → w.turns[m]? = some turn → w.turns[n]? = some later →
    later.reset = some position → turn.sending = .over ∧ position ≤ w.runtime.events.length
  belongs : ∀ (i n m : Nat) broadcast later position, w.runtime.events[i]? = some broadcast → broadcast.source = some n →
    n < m → w.turns[m]? = some later → later.reset = some position → i < position

-- What the runtime does between two resets.
inductive Emits (source : Option Nat) : AgentRuntime → AgentRuntime → Prop where
  | same : Emits source r r
  | update : event.terminal = false → Emits source r (r.emit source event)
  | terminal : event.terminal = true → r.status ≠ some .finished →
      Emits source r { r.emit source event with status := some .finished }

section Runtime
variable {r next : AgentRuntime} {source : Option Nat} {turn : Turn}

theorem emitTerminal_emits (r : AgentRuntime) (source : Option Nat) {event : AgentStreamEvent} (terminal : event.terminal = true) :
    Emits source r (r.emitTerminal source event) ∧ mark (r.emitTerminal source event) = 1 := by
  unfold AgentRuntime.emitTerminal
  split
  · rename_i finished
    exact ⟨.same,if_pos finished⟩
  · rename_i running
    exact ⟨.terminal terminal running,rfl⟩

theorem kill_emits (r : AgentRuntime) (reason : Option AgentTasks.AgentKillReason) : Emits none r (r.kill reason) := by
  unfold AgentRuntime.kill
  split
  · exact (emitTerminal_emits r none rfl).1
  · exact (emitTerminal_emits r none rfl).1

theorem Emits.events (emits : Emits source r next) :
    next.events = r.events ∨ ∃ event, next.events = r.events ++ [⟨source,event⟩] := by
  cases emits with
  | same => exact .inl rfl
  | update _ => exact .inr ⟨_,rfl⟩
  | terminal _ _ => exact .inr ⟨_,rfl⟩

-- A subscription sees a new terminal exactly when the status becomes `Finished`.
theorem Emits.since (emits : Emits source r next) (placed : turn.subscribed ≤ r.events.length) :
    since next turn + mark r = since r turn + mark next := by
  cases emits with
  | same => rfl
  | @update event quiet =>
    have seen : AcpTurns.since (r.emit source event) turn = AcpTurns.since r turn := by
      simp [AcpTurns.since,AgentRuntime.emit,List.drop_append_of_le_length placed,terminals,quiet]
    rw [seen]
    rfl
  | terminal loud running =>
    simp [AcpTurns.since,mark,AgentRuntime.emit,List.drop_append_of_le_length placed,terminals,loud,running]

theorem Emits.mark (emits : Emits source r next) : mark r ≤ mark next := by
  cases emits with
  | same => exact Nat.le_refl _
  | update _ => exact Nat.le_refl _
  | terminal _ running =>
    simp only [AcpTurns.mark,if_neg running]
    exact Nat.zero_le _

theorem mark_le (r : AgentRuntime) : mark r ≤ 1 := by
  unfold mark
  split
  · exact Nat.le_refl _
  · exact Nat.zero_le _

theorem Emits.fits (emits : Emits source r next) (placed : turn.subscribed ≤ r.events.length) (fits : Fits r turn) :
    Fits next turn := by
  have count := emits.since placed
  have grows := emits.mark
  have few := mark_le next
  unfold Fits at fits ⊢
  split at fits
  · omega
  · omega
  · omega
  · obtain ⟨inside,once⟩ := fits
    rcases emits.events with same | ⟨event,more⟩
    · rw [same]
      exact ⟨inside,once⟩
    · rw [more,List.length_append,List.take_append_of_le_length inside]
      exact ⟨Nat.le_trans inside (Nat.le_add_right _ _),once⟩
  · omega

end Runtime

section Worlds
variable {w next : World} {n : Nat} {turn : Turn}

theorem Kept.emits (kept : Kept w) {source : Option Nat} {runtime : AgentRuntime} (emits : Emits source w.runtime runtime)
    (active : ∀ m, source = some m → ∃ turn, w.turns[m]? = some turn ∧ turn.sending ≠ .over) :
    Kept { w with runtime := runtime } := by
  have longer : w.runtime.events.length ≤ runtime.events.length := by
    rcases emits.events with same | ⟨event,more⟩
    · rw [same]
    · rw [more,List.length_append]
      exact Nat.le_add_right _ _
  refine ⟨fun m one there => ?_,fun m one there => emits.fits (kept.placed m one there).1 (kept.fits m one there),
    fun m k one before inside there => ?_,fun m k one later position before there also reset => ?_,
    fun i m k broadcast later position found from_m before there reset => ?_⟩
  · obtain ⟨placed,quiet⟩ := kept.placed m one there
    exact ⟨Nat.le_trans placed longer,quiet⟩
  · have seen := kept.relayed m k one before inside there
    have count := emits.since (kept.placed m one there).1
    have grows := emits.mark
    change 0 < since runtime one
    omega
  · obtain ⟨ended,early⟩ := kept.resets m k one later position before there also reset
    exact ⟨ended,Nat.le_trans early longer⟩
  · rcases emits.events with same | ⟨event,more⟩
    · change runtime.events[i]? = some broadcast at found
      rw [same] at found
      exact kept.belongs i m k broadcast later position found from_m before there reset
    · change runtime.events[i]? = some broadcast at found
      rw [more] at found
      rcases Nat.lt_or_ge i w.runtime.events.length with old | new
      · rw [List.getElem?_append_left old] at found
        exact kept.belongs i m k broadcast later position found from_m before there reset
      · -- What a turn still sends, it sends before any later turn is reset.
        rw [List.getElem?_append_right new] at found
        have here := List.mem_singleton.mp (List.mem_of_getElem? found)
        subst here
        obtain ⟨one,sending,busy⟩ := active m from_m
        exact absurd (kept.resets m k one later position before sending there reset).1 busy

theorem Kept.sets (kept : Kept w) (there : w.turns[n]? = some turn) {changed : Turn}
    (same : changed.subscribed = turn.subscribed ∧ changed.reset = turn.reset ∧ changed.fallback = turn.fallback)
    (busy : turn.sending ≠ .over) (fits : Fits w.runtime changed) : Kept { w with turns := w.turns.set n changed } := by
  have turns : ∀ {m : Nat} {one : Turn}, (w.turns.set n changed)[m]? = some one →
      ∃ before : Turn, w.turns[m]? = some before ∧ one.subscribed = before.subscribed ∧ one.reset = before.reset ∧
        one.fallback = before.fallback ∧ (before.sending = .over → one.sending = .over) ∧ Fits w.runtime one := by
    intro m one found
    rw [List.getElem?_set] at found
    split at found
    · rename_i here
      subst here
      split at found
      · cases found
        exact ⟨turn,there,same.1,same.2.1,same.2.2,fun ended => absurd ended busy,fits⟩
      · cases found
    · exact ⟨one,found,rfl,rfl,rfl,id,kept.fits m one found⟩
  refine ⟨fun m one found => ?_,fun m one found => ?_,fun m k one before inside found => ?_,
    fun m k one later position before found also reset => ?_,
    fun i m k broadcast later position found from_m before also reset => ?_⟩
  · obtain ⟨old,was,place,-,quiet,-,-⟩ := turns found
    rw [place,quiet]
    exact kept.placed m old was
  · obtain ⟨old,was,-,-,-,-,fits⟩ := turns found
    exact fits
  · obtain ⟨old,was,place,-,-,-,-⟩ := turns found
    have seen := kept.relayed m k old before (by simpa using inside) was
    unfold since at seen ⊢
    rw [place]
    exact seen
  · obtain ⟨old,was,-,-,-,ends,-⟩ := turns found
    obtain ⟨last,then_was,-,resets,-,-,-⟩ := turns also
    obtain ⟨ended,early⟩ := kept.resets m k old last position before was then_was (resets ▸ reset)
    exact ⟨ends ended,early⟩
  · obtain ⟨last,then_was,-,resets,-,-,-⟩ := turns also
    exact kept.belongs i m k broadcast last position found from_m before then_was (resets ▸ reset)

-- The turn that is reset is the last one: a later one would have waited for a
-- terminal of its.
theorem Kept.reset (kept : Kept w) (there : w.turns[n]? = some turn)
    (fresh : since w.runtime turn = 0) (ended : ∀ m one, m < n → w.turns[m]? = some one → one.sending = .over)
    (sessionId : String) :
    Kept (w.send n { turn with reset := some w.runtime.events.length } (.starting sessionId)
      (w.runtime.resetForNewTurn .running)) := by
  have below := (List.getElem?_eq_some_iff.mp there).1
  have last : ∀ {k : Nat}, n < k → k < w.turns.length → False := by
    intro k after inside
    have seen := kept.relayed n k turn after inside there
    omega
  have turns : ∀ {m : Nat} {one : Turn}, (w.turns.set n
      { turn with reset := some w.runtime.events.length, sending := .starting sessionId })[m]? = some one →
      m = n ∧ one = { turn with reset := some w.runtime.events.length, sending := .starting sessionId } ∨
      m < n ∧ w.turns[m]? = some one := by
    intro m one found
    rw [List.getElem?_set] at found
    split at found
    · rename_i here
      cases found
      exact .inl ⟨here.symm,rfl⟩
    · rename_i other
      refine .inr ⟨?_,found⟩
      rcases Nat.lt_or_ge m n with before | after
      · exact before
      · exact (last (Nat.lt_of_le_of_ne after other) (List.getElem?_eq_some_iff.mp found).1).elim
  refine ⟨fun m one found => ?_,fun m one found => ?_,fun m k one before inside found => ?_,
    fun m k one later position before found also reset => ?_,
    fun i m k broadcast later position found from_m before also reset => ?_⟩
  · rcases turns found with ⟨rfl,rfl⟩ | ⟨-,was⟩
    · exact kept.placed m turn there
    · exact kept.placed m one was
  · rcases turns found with ⟨rfl,rfl⟩ | ⟨before,was⟩
    · exact fresh
    · have fits := kept.fits m one was
      have finished := ended m one before was
      unfold Fits at fits ⊢
      rw [finished] at fits ⊢
      exact fits
  · have within : k < w.turns.length := by simpa [World.send] using inside
    rcases turns found with ⟨rfl,rfl⟩ | ⟨-,was⟩
    · exact (last before within).elim
    · exact kept.relayed m k one before within was
  · rcases turns also with ⟨rfl,rfl⟩ | ⟨-,then_was⟩
    · cases reset
      rcases turns found with ⟨rfl,-⟩ | ⟨earlier,was⟩
      · exact absurd before (Nat.lt_irrefl m)
      · exact ⟨ended m one earlier was,Nat.le_refl _⟩
    · rcases turns found with ⟨rfl,rfl⟩ | ⟨-,was⟩
      · exact (last before (List.getElem?_eq_some_iff.mp then_was).1).elim
      · exact kept.resets m k one later position before was then_was reset
  · rcases turns also with ⟨rfl,rfl⟩ | ⟨-,then_was⟩
    · cases reset
      exact (List.getElem?_eq_some_iff.mp found).1
    · exact kept.belongs i m k broadcast later position found from_m before then_was reset

theorem Kept.subscribe (kept : Kept w) (relays : w.turns.all w.relayEnded = true) :
    Kept { w with turns := w.turns ++ [⟨w.runtime.events.length,.opening,none,0,none⟩] } := by
  have turns : ∀ {m : Nat} {one : Turn}, (w.turns ++ [⟨w.runtime.events.length,.opening,none,0,none⟩])[m]? = some one →
      w.turns[m]? = some one ∨ m = w.turns.length ∧ one = ⟨w.runtime.events.length,.opening,none,0,none⟩ := by
    intro m one found
    rcases Nat.lt_trichotomy m w.turns.length with before | rfl | after
    · exact .inl ((List.getElem?_append_left before).symm.trans found)
    · rw [List.getElem?_concat_length] at found
      cases found
      exact .inr ⟨rfl,rfl⟩
    · have inside := (List.getElem?_eq_some_iff.mp found).1
      simp only [List.length_append,List.length_singleton] at inside
      omega
  refine ⟨fun m one found => ?_,fun m one found => ?_,fun m k one before inside found => ?_,
    fun m k one later position before found also reset => ?_,
    fun i m k broadcast later position found from_m before also reset => ?_⟩
  · rcases turns found with was | ⟨rfl,rfl⟩
    · exact kept.placed m one was
    · exact ⟨Nat.le_refl _,rfl⟩
  · rcases turns found with was | ⟨rfl,rfl⟩
    · exact kept.fits m one was
    · change since w.runtime _ ≤ mark w.runtime
      simp [since,terminals]
  · simp only [List.length_append,List.length_singleton] at inside
    rcases turns found with was | ⟨rfl,rfl⟩
    · have relayed := List.all_eq_true.mp relays one (List.mem_of_getElem? was)
      unfold World.relayEnded at relayed
      rw [(kept.placed m one was).2,Option.isSome_none,Bool.false_or,List.any_eq_true] at relayed
      obtain ⟨broadcast,member,loud⟩ := relayed
      exact List.length_pos_of_mem (List.mem_filter.mpr ⟨member,loud⟩)
    · omega
  · rcases turns also with then_was | ⟨rfl,rfl⟩
    · rcases turns found with was | ⟨rfl,rfl⟩
      · exact kept.resets m k one later position before was then_was reset
      · have inside := (List.getElem?_eq_some_iff.mp then_was).1
        omega
    · cases reset
  · rcases turns also with then_was | ⟨rfl,rfl⟩
    · exact kept.belongs i m k broadcast later position found from_m before then_was reset
    · cases reset

end Worlds

section Steps
variable {w next : World} {n : Nat} {turn : Turn}

-- The send task of a turn goes on after what it has broadcast.
theorem Kept.sends (kept : Kept w) (there : w.turns[n]? = some turn) (busy : turn.sending ≠ .over) {runtime : AgentRuntime}
    (emits : Emits (some n) w.runtime runtime) {sending : Sending}
    (fits : Fits runtime turn → Fits runtime { turn with sending := sending }) : Kept (w.send n turn sending runtime) := by
  have emitted := kept.emits emits fun m same => ⟨turn,Option.some.inj same ▸ there,busy⟩
  exact emitted.sets there ⟨rfl,rfl,rfl⟩ busy (fits (emitted.fits n turn there))

theorem Kept.returns (kept : Kept w) (there : w.turns[n]? = some turn) (busy : turn.sending ≠ .over) {runtime : AgentRuntime}
    (emits : Emits (some n) w.runtime runtime) (once : Fits runtime turn → since runtime turn = 1) :
    Kept (w.returns n turn runtime) := by
  have emitted := kept.emits emits fun m same => ⟨turn,Option.some.inj same ▸ there,busy⟩
  refine emitted.sets there ⟨rfl,rfl,rfl⟩ busy ⟨Nat.le_refl _,?_⟩
  rw [List.take_length]
  exact once (emitted.fits n turn there)

theorem Kept.report (kept : Kept w) (there : w.turns[n]? = some turn) (enabled : w.report n turn = some next) : Kept next := by
  -- Once the runtime is finished, a turn that has been reset has its terminal.
  have settled : ∀ {event : AgentStreamEvent}, event.terminal = true →
      since (w.runtime.emitTerminal (some n) event) turn = mark (w.runtime.emitTerminal (some n) event) →
      since (w.runtime.emitTerminal (some n) event) turn = 1 :=
    fun terminal same => same.trans (emitTerminal_emits w.runtime (some n) terminal).2
  unfold World.report at enabled
  split at enabled
  · rename_i sessionId ending
    cases enabled
    refine kept.returns there (by rw [ending]; nofun) (emitTerminal_emits _ _ rfl).1 fun fits => settled rfl ?_
    unfold Fits at fits
    rwa [ending] at fits
  · rename_i sessionId ending
    cases enabled
    refine kept.returns there (by rw [ending]; nofun) (emitTerminal_emits _ _ rfl).1 fun fits => settled rfl ?_
    unfold Fits at fits
    rwa [ending] at fits
  · rename_i sessionId tips ending
    cases enabled
    refine kept.sends there (by rw [ending]; nofun) (.update rfl) fun fits => ?_
    unfold Fits at fits
    rwa [ending] at fits
  · rename_i sessionId tips ending
    cases enabled
    refine kept.sends there (by rw [ending]; nofun) (.update rfl) fun fits => ?_
    unfold Fits at fits
    rwa [ending] at fits
  · rename_i sessionId ending
    cases enabled
    refine kept.returns there (by rw [ending]; nofun) (emitTerminal_emits _ _ rfl).1 fun fits => settled rfl ?_
    unfold Fits at fits
    rwa [ending] at fits
  · rename_i sessionId error ending
    cases enabled
    refine kept.returns there (by rw [ending]; nofun) (emitTerminal_emits _ _ rfl).1 fun fits => settled rfl ?_
    unfold Fits at fits
    rwa [ending] at fits
  · rename_i error ending
    cases enabled
    refine kept.sends there (by rw [ending]; nofun) (emitTerminal_emits _ _ rfl).1 fun fits => ?_
    unfold Fits at fits
    rw [ending] at fits
    exact ⟨settled rfl fits,(emitTerminal_emits _ _ rfl).2⟩
  · cases enabled

theorem Kept.step (kept : Kept w) {action : Action} (orderly : Orderly w action) (enabled : step w action = some next) :
    Kept next := by
  cases action with
  | subscribe =>
    simp only [AcpTurns.step] at enabled
    split at enabled
    · rename_i relays
      cases enabled
      exact kept.subscribe relays
    · cases enabled
  | openSession n result =>
    obtain ⟨turn,there,taken⟩ := Option.bind_eq_some_iff.mp enabled
    split at taken
    · rename_i sessionId opening
      cases taken
      refine kept.sends there (by rw [opening]; nofun) .same fun fits => ?_
      unfold Fits at fits
      rwa [opening] at fits
    · rename_i error opening
      cases taken
      refine kept.sends there (by rw [opening]; nofun) .same fun fits => ?_
      unfold Fits at fits
      rw [opening] at fits
      change since w.runtime turn = mark w.runtime
      have left := orderly turn there
      by_cases finished : w.runtime.status = some .finished
      · have seen := left finished
        have marked : mark w.runtime = 1 := if_pos finished
        omega
      · have marked : mark w.runtime = 0 := if_neg finished
        omega
    · cases taken
  | resetForNewTurn n =>
    obtain ⟨turn,there,taken⟩ := Option.bind_eq_some_iff.mp enabled
    split at taken
    · rename_i sessionId opened
      cases taken
      exact kept.reset there (orderly.1 turn there) orderly.2 sessionId
    · cases taken
  | emitStart n =>
    obtain ⟨turn,there,taken⟩ := Option.bind_eq_some_iff.mp enabled
    split at taken
    · rename_i sessionId starting
      cases taken
      refine kept.sends there (by rw [starting]; nofun) (.update rfl) fun fits => ?_
      unfold Fits at fits
      rwa [starting] at fits
    · cases taken
  | prompt n result =>
    obtain ⟨turn,there,taken⟩ := Option.bind_eq_some_iff.mp enabled
    split at taken
    · rename_i sessionId outcome prompting
      cases taken
      refine kept.sends there (by rw [prompting]; nofun) .same fun fits => ?_
      unfold Fits at fits
      rwa [prompting] at fits
    · rename_i sessionId error prompting
      cases taken
      refine kept.sends there (by rw [prompting]; nofun) .same fun fits => ?_
      unfold Fits at fits
      rwa [prompting] at fits
    · cases taken
  | report n =>
    obtain ⟨turn,there,taken⟩ := Option.bind_eq_some_iff.mp enabled
    exact kept.report there taken
  | decide n =>
    obtain ⟨turn,there,taken⟩ := Option.bind_eq_some_iff.mp enabled
    split at taken
    · rename_i error failed
      have fits := kept.fits n turn there
      unfold Fits at fits
      rw [failed] at fits
      obtain ⟨once,marked⟩ := fits
      split at taken
      · cases taken
        exact kept.returns there (by rw [failed]; nofun) .same fun _ => once
      · rename_i running
        rw [mark,if_neg running] at marked
        cases marked
    · cases taken
  | update data =>
    cases enabled
    exact kept.emits (.update rfl) nofun
  | kill reason =>
    cases enabled
    exact kept.emits (kill_emits w.runtime reason) nofun
  | cancel =>
    cases enabled
    exact kept

end Steps

section Runs
variable {actions : List Action} {final : World}

theorem kept_run (path : RunsWhere step Orderly start actions final) : Kept final := by
  have begins : Kept start := by
    refine ⟨fun n one there => ?_,fun n one there => ?_,fun m n one before inside there => ?_,
      fun m n one later position before there also => ?_,fun i n m broadcast later position found => ?_⟩
    · cases there
    · cases there
    · cases there
    · cases there
    · cases found
  exact path.invariant begins fun _ _ _ kept orderly enabled => kept.step orderly enabled

-- A turn whose send task is over has had one terminal since it subscribed and no
-- send error injected, so its relay has ended; and no turn broadcasts after a
-- later turn's reset.
theorem one_terminal_per_turn (path : RunsWhere step Orderly start actions final) :
    (∀ (n : Nat) turn, final.turns[n]? = some turn → turn.sending = .over → turn.fallback = none ∧
      (terminals ((final.runtime.events.take turn.ended).drop turn.subscribed)).length = 1 ∧ final.relayEnded turn = true) ∧
    ∀ (i n m : Nat) broadcast turn position, final.runtime.events[i]? = some broadcast → broadcast.source = some n →
      n < m → final.turns[m]? = some turn → turn.reset = some position → i < position := by
  have kept := kept_run path
  refine ⟨fun n turn there ended => ?_,kept.belongs⟩
  have fits := kept.fits n turn there
  unfold Fits at fits
  rw [ended] at fits
  refine ⟨(kept.placed n turn there).2,fits.2,?_⟩
  obtain ⟨broadcast,member⟩ := List.length_pos_iff_exists_mem.mp (Nat.lt_of_lt_of_eq Nat.one_pos fits.2.symm)
  obtain ⟨inside,loud⟩ := List.mem_filter.mp member
  rw [List.drop_take] at inside
  unfold World.relayEnded
  rw [Bool.or_eq_true,List.any_eq_true]
  exact .inr ⟨broadcast,List.mem_of_mem_take inside,loud⟩

section Examples

def firstTurn : List Action :=
  [.subscribe,.openSession 0 (.ok "s1"),.resetForNewTurn 0,.emitStart 0,.prompt 0 (.ok (.completed "s1")),.report 0]

-- A second turn whose prompt fails.
theorem one_terminal_per_turn_failed : ∃ final,
    Runs step start (firstTurn ++ [.subscribe,.openSession 1 (.ok "s1"),.resetForNewTurn 1,.emitStart 1,
      .prompt 1 (.error "disconnected"),.report 1,.decide 1]) final ∧
    final.runtime.events.map (·.event) = [.start "s1",.finish (some "s1"),.start "s1",.error "disconnected"] ∧
    ∃ turn, final.turns[1]? = some turn ∧ turn.fallback = none ∧
      (terminals ((final.runtime.events.take turn.ended).drop turn.subscribed)).length = 1 ∧ final.relayEnded turn = true := by
  have path : ∃ final : World, RunsWhere step Orderly start (firstTurn ++ [Action.subscribe,.openSession 1 (.ok "s1"),.resetForNewTurn 1,
      .emitStart 1,.prompt 1 (.error "disconnected"),.report 1,.decide 1]) final ∧
      final.runtime.events.map (·.event) = [.start "s1",.finish (some "s1"),.start "s1",.error "disconnected"] ∧
      ∃ turn, final.turns[1]? = some turn ∧ turn.sending = .over := by
    refine ⟨_,.cons trivial rfl (.cons trivial rfl (.cons ⟨fun turn there => ?_,fun m turn before => absurd before (Nat.not_lt_zero m)⟩ rfl
      (.cons trivial rfl (.cons trivial rfl (.cons trivial rfl (.cons trivial rfl (.cons trivial rfl
        (.cons ⟨fun turn there => ?_,fun m turn before there => ?_⟩ rfl (.cons trivial rfl (.cons trivial rfl
          (.cons trivial rfl (.cons trivial rfl .nil)))))))))))),rfl,_,rfl,rfl⟩
    · cases there
      rfl
    · cases there
      rfl
    · obtain rfl : m = 0 := Nat.lt_one_iff.mp before
      cases there
      rfl
  obtain ⟨final,path,events,turn,there,ended⟩ := path
  exact ⟨final,path.runs,events,turn,there,(one_terminal_per_turn path).1 1 turn there ended⟩

-- The session of the second turn does not open, and the status is the first turn's.
theorem silent_turn : ∃ final,
    Runs step start (firstTurn ++ [.subscribe,.openSession 1 (.error "load failed"),.report 1,.decide 1]) final ∧
    ∃ turn, final.turns[1]? = some turn ∧ turn.sending = .over ∧ turn.fallback = none ∧
      since final.runtime turn = 0 ∧ final.relayEnded turn = false :=
  ⟨_,exec_exact.mp rfl,_,rfl,rfl,rfl,rfl,rfl⟩

end Examples

end Runs

end AlineaCopilot.AcpTurns
