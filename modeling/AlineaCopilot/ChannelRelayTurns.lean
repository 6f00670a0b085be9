import AlineaCopilot.ChannelRelays
open AlineaCopilot.TransitionRuns AlineaCopilot.StreamRelays
open AlineaCopilot.AgentTasks (ConversationStatus)

namespace AlineaCopilot.ChannelRelays

section Statements
variable (capacity : Nat)

-- A turn is claimed before anything else is broadcast and sent to the agent that
-- was subscribed to; what is broadcast belongs to the turn that is being sent, up
-- to its terminal; the turn ends with that terminal, and its relay gets its
-- placeholder out and loses nothing.
def Within (w : World) : Event → Prop
  | .claim s => s.position = (w.eventsAt s.agent).length
  | .send => ∀ n turn, w.active = some (n,turn) → turn.relay.agent = w.current
  | .abort => False
  | .emit a b => ∀ agent, w.agents[a]? = some agent → b.terminal = false ∨ agent.status ≠ some .finished →
      ∃ n turn subscribed continuations, w.active = some (n,turn) ∧ turn.progress = .sending a subscribed continuations none ∧
        b.source = some n ∧ w.ending a subscribed none = none
  | .fail _ => ∀ n turn a subscribed continuations agent, w.active = some (n,turn) →
      turn.progress = .sending a subscribed continuations none → w.agents[a]? = some agent → agent.status = some .finished
  | .consume responses => ∀ n turn a subscribed continuations fallback, w.active = some (n,turn) →
      turn.progress = .sending a subscribed continuations fallback → w.ending a subscribed fallback = some false →
      responses = false ∨ maxCronContinuationsPerTurn ≤ continuations
  | .placeholder _ sent => sent = true
  | .read n _ => ∀ turn, w.turns[n]? = some turn → (w.eventsAt turn.relay.agent).length - turn.relay.position ≤ capacity
  | _ => True

def World.eventsOf (w : World) (n : Nat) : List Broadcast :=
  w.agents.flatMap fun agent => agent.events.filter (·.source = some n)

-- The relay of a turn receives that turn's events, has received all of them when
-- it exits, and does not wait for another once the turn is over.
structure LivesWithTurn (w : World) (n : Nat) (turn : Turn) : Prop where
  own : ∀ b ∈ turn.relay.handled, b.source = some n
  whole : turn.relay.phase = .exited → turn.relay.handled = w.eventsOf n
  stops : turn.progress = .over → turn.relay.phase = .relaying → turn.relay.position < (w.eventsAt turn.relay.agent).length

end Statements

section Channel

def eventsAt (agents : List AgentRuntime) (a : Nat) : List Broadcast := ((agents[a]?).map (·.events)).getD []

theorem eventsAt_set {agents : List AgentRuntime} {a : Nat} {agent : AgentRuntime} (there : agents[a]? = some agent)
    (changed : AgentRuntime) (j : Nat) : eventsAt (agents.set a changed) j = if j = a then changed.events else eventsAt agents j := by
  unfold eventsAt
  rw [List.getElem?_set]
  by_cases same : a = j
  · subst same
    have inside := (List.getElem?_eq_some_iff.mp there).1
    simp [inside]
  · rw [if_neg same,if_neg (Ne.symm same)]

theorem eventsAt_same {agents : List AgentRuntime} {a : Nat} {agent : AgentRuntime} (there : agents[a]? = some agent)
    (changed : AgentRuntime) (events : changed.events = agent.events) (j : Nat) :
    eventsAt (agents.set a changed) j = eventsAt agents j := by
  rw [eventsAt_set there,events]
  split
  · rename_i same
    rw [same,eventsAt,there]
    rfl
  · rfl

theorem eventsAt_append (agents : List AgentRuntime) (status : Option ConversationStatus) (closed : Bool) (j : Nat) :
    eventsAt (agents ++ [⟨status,[],closed⟩]) j = eventsAt agents j := by
  unfold eventsAt
  rcases Nat.lt_trichotomy j agents.length with before | last | beyond
  · rw [List.getElem?_append_left before]
  · subst last
    simp
  · rw [List.getElem?_eq_none (by simp; omega),List.getElem?_eq_none (by omega)]

-- The events of one turn, when only one channel carries any.
theorem eventsOf_single (agents : List AgentRuntime) (p : Broadcast → Bool) (a : Nat)
    (elsewhere : ∀ j, j ≠ a → ∀ b ∈ eventsAt agents j, p b = false) :
    agents.flatMap (fun agent => agent.events.filter p) = (eventsAt agents a).filter p := by
  induction agents generalizing a with
  | nil => rfl
  | cons agent rest ih =>
    rw [List.flatMap_cons]
    cases a with
    | zero =>
      have none_ : rest.flatMap (fun agent => agent.events.filter p) = [] := by
        refine List.flatMap_eq_nil_iff.mpr fun other inside => List.filter_eq_nil_iff.mpr fun b member => ?_
        obtain ⟨i,there,same⟩ := List.mem_iff_getElem.mp inside
        have quiet := elsewhere (i + 1) (Nat.succ_ne_zero i) b (by simpa [eventsAt,there,same] using member)
        simp [quiet]
      rw [none_,List.append_nil]
      rfl
    | succ a =>
      have none_ : agent.events.filter p = [] :=
        List.filter_eq_nil_iff.mpr fun b member => by simp [elsewhere 0 (Nat.succ_ne_zero a).symm b (by simpa [eventsAt] using member)]
      rw [none_,List.nil_append]
      exact ih a fun j different b member => elsewhere (j + 1) (fun same => different (Nat.succ.inj same)) b member

end Channel

section Relay
variable (format : PluginType → String → String)

theorem onEvent_rest (relay : ChannelStreamRelay) (due : Bool) (event : AgentStreamEvent) :
    (relay.onEvent format due event).agent = relay.agent ∧ (relay.onEvent format due event).platform = relay.platform := by
  unfold ChannelStreamRelay.onEvent ChannelStreamRelay.onEventWeixin ChannelStreamRelay.onEventEditable ChannelStreamRelay.sendFinalEdit
  cases processStreamEvent event with
  | none => split <;> exact ⟨rfl,rfl⟩
  | some action =>
    cases action <;> dsimp only <;> (repeat' split) <;> exact ⟨rfl,rfl⟩

theorem onEvent_phase (relay : ChannelStreamRelay) (due : Bool) (b : Broadcast) :
    (relay.onEvent format due b.event).phase = if b.terminal then .exited else relay.phase := by
  unfold ChannelStreamRelay.onEvent ChannelStreamRelay.onEventWeixin ChannelStreamRelay.onEventEditable Broadcast.terminal
  cases b.event <;> dsimp only [processStreamEvent] <;> (repeat' split) <;> first | rfl | contradiction

theorem onClosed_rest (relay : ChannelStreamRelay) :
    (relay.onClosed format).agent = relay.agent ∧ (relay.onClosed format).position = relay.position ∧
      (relay.onClosed format).handled = relay.handled ∧ (relay.onClosed format).phase = .exited := by
  unfold ChannelStreamRelay.onClosed ChannelStreamRelay.sendFinalEdit
  (repeat' split) <;> exact ⟨rfl,rfl,rfl,rfl⟩

end Relay

section Turns
variable {format : PluginType → String → String} {capacity : Nat}

-- How the channel of a turn's relay splits: what came before the turn, what the
-- relay has received and what it has not, and what came after.
structure Splits (agents : List AgentRuntime) (n : Nat) (turn : Turn) (before left rest : List Broadcast) : Prop where
  events : eventsAt agents turn.relay.agent = before ++ (turn.relay.handled ++ left) ++ rest
  position : turn.relay.position = before.length + turn.relay.handled.length
  mine : ∀ b ∈ turn.relay.handled ++ left, b.source = some n
  foreign : ∀ b ∈ before ++ rest, b.source ≠ some n
  elsewhere : ∀ a, a ≠ turn.relay.agent → ∀ b ∈ eventsAt agents a, b.source ≠ some n
  running : turn.relay.phase ≠ .exited → ∀ b ∈ turn.relay.handled, b.terminal = false
  exited : turn.relay.phase = .exited → left = [] ∧ ((∃ b ∈ turn.relay.handled, b.terminal = true) ∨
    (turn.progress = .claimed ∧ turn.relay.agent + 1 < agents.length))
  last : ∀ b ∈ (turn.relay.handled ++ left).dropLast, b.terminal = false
  ended : rest ≠ [] ∨ turn.progress = .over → ∃ b ∈ turn.relay.handled ++ left, b.terminal = true
  claimed : turn.progress = .claimed → turn.relay.handled ++ left = [] ∧ rest = []
  sending : ∀ a subscribed continuations fallback, turn.progress = .sending a subscribed continuations fallback →
    a = turn.relay.agent ∧ subscribed = before.length ∧ rest = [] ∧ fallback = none

structure Kept (w : World) : Prop where
  agents : w.agents ≠ []
  known : ∀ a, ∀ b ∈ eventsAt w.agents a, ∀ m, b.source = some m → m < w.turns.length
  active : ∀ n turn, w.turns[n]? = some turn → turn.progress ≠ .over → n + 1 = w.turns.length
  closed : ∀ a agent, w.agents[a]? = some agent → agent.closed = true → a + 1 < w.agents.length ∧
    ∀ (n : Nat) (turn : Turn) subscribed continuations fallback, w.turns[n]? = some turn →
      turn.progress ≠ .sending a subscribed continuations fallback
  splits : ∀ n turn, w.turns[n]? = some turn → ∃ before left rest, Splits w.agents n turn before left rest

theorem Splits.lives {w : World} {n : Nat} {turn : Turn} {before left rest : List Broadcast}
    (splits : Splits w.agents n turn before left rest) : LivesWithTurn w n turn := by
  refine ⟨fun b inside => splits.mine b (List.mem_append_left _ inside),fun exited => ?_,fun over_ relaying => ?_⟩
  · obtain ⟨rfl,_⟩ := splits.exited exited
    have single : w.eventsOf n = (eventsAt w.agents turn.relay.agent).filter (·.source = some n) :=
      eventsOf_single _ _ _ fun a different b inside => by simpa using splits.elsewhere a different b inside
    have outside : ∀ part : List Broadcast, (∀ b ∈ part, b ∈ before ++ rest) → part.filter (fun b => decide (b.source = some n)) = [] := by
      intro part subset
      refine List.filter_eq_nil_iff.mpr fun b inside => ?_
      simpa using splits.foreign b (subset b inside)
    have inside : (turn.relay.handled ++ []).filter (fun b : Broadcast => decide (b.source = some n)) = turn.relay.handled ++ [] :=
      List.filter_eq_self.mpr fun b member => by simpa using splits.mine b member
    rw [single,splits.events,List.filter_append,List.filter_append,outside before (fun _ => List.mem_append_left _),
      outside rest (fun _ => List.mem_append_right _),inside,List.nil_append,List.append_nil,List.append_nil]
  · obtain ⟨b,member,terminal⟩ := splits.ended (.inr over_)
    have waiting : left ≠ [] := by
      rintro rfl
      rw [List.append_nil] at member
      rw [splits.running (by rw [relaying]; rintro ⟨⟩) b member] at terminal
      cases terminal
    have positive := List.length_pos_iff.mpr waiting
    have length : (w.eventsAt turn.relay.agent).length = _ := congrArg List.length splits.events
    simp only [List.length_append] at length
    have position := splits.position
    omega

-- The channels have grown by what does not concern the turn.
theorem Splits.agents {agents after : List AgentRuntime} {n : Nat} {turn : Turn} {before left rest : List Broadcast}
    (splits : Splits agents n turn before left rest) (events : ∀ a, eventsAt after a = eventsAt agents a)
    (more : agents.length ≤ after.length) : Splits after n turn before left rest := by
  refine ⟨by rw [events]; exact splits.events,splits.position,splits.mine,splits.foreign,?_,splits.running,?_,splits.last,splits.ended,
    splits.claimed,splits.sending⟩
  · intro a different b inside
    rw [events] at inside
    exact splits.elsewhere a different b inside
  · intro exited
    obtain ⟨none_,why⟩ := splits.exited exited
    exact ⟨none_,why.imp id fun both => ⟨both.1,by omega⟩⟩

theorem Splits.grows {agents after : List AgentRuntime} {n a : Nat} {turn : Turn} {before left rest : List Broadcast} {b : Broadcast}
    (splits : Splits agents n turn before left rest) (over_ : turn.progress = .over)
    (events : ∀ j, eventsAt after j = if j = a then eventsAt agents a ++ [b] else eventsAt agents j)
    (other : b.source ≠ some n) : ∃ rest, Splits after n turn before left rest := by
  have stays : turn.relay.phase = .exited → left = [] ∧ ((∃ b ∈ turn.relay.handled, b.terminal = true) ∨
      (turn.progress = .claimed ∧ turn.relay.agent + 1 < after.length)) := by
    intro exited
    obtain ⟨none_,terminal | ⟨claimed,_⟩⟩ := splits.exited exited
    · exact ⟨none_,.inl terminal⟩
    · rw [over_] at claimed
      cases claimed
  have busy : ∀ a subscribed continuations fallback, turn.progress = .sending a subscribed continuations fallback → False := by
    intro a subscribed continuations fallback sending
    rw [over_] at sending
    cases sending
  have elsewhere : ∀ j, j ≠ turn.relay.agent → ∀ c ∈ eventsAt after j, c.source ≠ some n := by
    intro j different c inside
    rw [events] at inside
    split at inside
    · rename_i same
      subst same
      rcases List.mem_append.mp inside with earlier | newest
      · exact splits.elsewhere j different c earlier
      · cases List.mem_singleton.mp newest
        exact other
    · exact splits.elsewhere j different c inside
  by_cases same : turn.relay.agent = a
  · refine ⟨rest ++ [b],?_,splits.position,splits.mine,?_,elsewhere,splits.running,stays,splits.last,fun _ => splits.ended (.inr over_),
      fun claimed => (by rw [over_] at claimed; cases claimed),fun a q k f sending => (busy a q k f sending).elim⟩
    · rw [events,if_pos same,← same,splits.events,List.append_assoc]
    · intro c inside
      rw [← List.append_assoc] at inside
      rcases List.mem_append.mp inside with earlier | newest
      · exact splits.foreign c earlier
      · cases List.mem_singleton.mp newest
        exact other
  · refine ⟨rest,?_,splits.position,splits.mine,splits.foreign,elsewhere,splits.running,stays,splits.last,splits.ended,splits.claimed,
      splits.sending⟩
    rw [events,if_neg same]
    exact splits.events

theorem Splits.broadcasts {agents after : List AgentRuntime} {n a subscribed continuations : Nat} {turn : Turn}
    {before left rest : List Broadcast} {b : Broadcast} (splits : Splits agents n turn before left rest)
    (sending : turn.progress = .sending a subscribed continuations none)
    (events : ∀ j, eventsAt after j = if j = a then eventsAt agents a ++ [b] else eventsAt agents j)
    (source : b.source = some n) (open_ : ((eventsAt agents a).drop subscribed).find? (·.terminal) = none) :
    Splits after n turn before (left ++ [b]) rest := by
  obtain ⟨rfl,rfl,rfl,_⟩ := splits.sending a subscribed continuations none sending
  have live : ∀ c ∈ turn.relay.handled ++ left, c.terminal = false := by
    intro c inside
    rw [splits.events,List.append_nil,List.drop_left] at open_
    simpa using List.find?_eq_none.mp open_ c inside
  refine ⟨?_,splits.position,?_,splits.foreign,?_,splits.running,?_,?_,?_,?_,?_⟩
  · rw [events,if_pos rfl,splits.events]
    simp
  · intro c inside
    rw [← List.append_assoc] at inside
    rcases List.mem_append.mp inside with earlier | newest
    · exact splits.mine c earlier
    · cases List.mem_singleton.mp newest
      exact source
  · intro j different c inside
    rw [events,if_neg different] at inside
    exact splits.elsewhere j different c inside
  · intro exited
    obtain ⟨_,⟨c,inside,terminal⟩ | ⟨claimed,_⟩⟩ := splits.exited exited
    · rw [live c (List.mem_append_left _ inside)] at terminal
      cases terminal
    · rw [sending] at claimed
      cases claimed
  · intro c inside
    rw [← List.append_assoc,List.dropLast_concat] at inside
    exact live c inside
  · intro why
    rcases why with nonempty | over_
    · exact absurd rfl nonempty
    · rw [sending] at over_
      cases over_
  · intro claimed
    rw [sending] at claimed
    cases claimed
  · exact splits.sending

theorem set_there {turns : List Turn} {n m : Nat} {turn changed other : Turn} (there : turns[n]? = some turn)
    (present : (turns.set n changed)[m]? = some other) : m = n ∧ other = changed ∨ m ≠ n ∧ turns[m]? = some other := by
  rw [List.getElem?_set] at present
  by_cases same : n = m
  · subst same
    rw [if_pos rfl,if_pos (List.getElem?_eq_some_iff.mp there).1] at present
    exact .inl ⟨rfl,(Option.some.inj present).symm⟩
  · rw [if_neg same] at present
    exact .inr ⟨Ne.symm same,present⟩

theorem active_there {w : World} {n : Nat} {turn : Turn} (active : w.active = some (n,turn)) :
    w.turns[n]? = some turn ∧ n + 1 = w.turns.length ∧ turn.progress ≠ .over := by
  simp only [World.active,Option.map_eq_some_iff,Option.filter_eq_some_iff,decide_eq_true_eq,Prod.mk.injEq] at active
  obtain ⟨last,⟨found,busy⟩,rfl,rfl⟩ := active
  rw [List.getLast?_eq_getElem?] at found
  have inside := (List.getElem?_eq_some_iff.mp found).1
  exact ⟨found,by omega,busy⟩

theorem current_there {w : World} (kept : Kept w) : w.current + 1 = w.agents.length := by
  have positive := List.length_pos_iff.mpr kept.agents
  unfold World.current
  omega

-- One turn changes, on the same channels.
theorem Kept.turn {w : World} (kept : Kept w) {n : Nat} {turn : Turn} (there : w.turns[n]? = some turn) (changed : Turn)
    (splits : ∃ before left rest, Splits w.agents n changed before left rest)
    (active : changed.progress ≠ .over → n + 1 = w.turns.length)
    (closed : ∀ a subscribed continuations fallback, changed.progress = .sending a subscribed continuations fallback →
      ∀ agent, w.agents[a]? = some agent → agent.closed = false) : Kept { w with turns := w.turns.set n changed } := by
  refine ⟨kept.agents,?_,?_,?_,?_⟩
  · intro a b inside m source
    rw [List.length_set]
    exact kept.known a b inside m source
  · intro m other present busy
    rw [List.length_set]
    rcases set_there there present with ⟨rfl,rfl⟩ | ⟨_,before⟩
    · exact active busy
    · exact kept.active m other before busy
  · intro a agent present gone
    obtain ⟨stale,unused⟩ := kept.closed a agent present gone
    refine ⟨stale,fun m other subscribed continuations fallback there' sending => ?_⟩
    rcases set_there there there' with ⟨rfl,rfl⟩ | ⟨_,before⟩
    · rw [closed a subscribed continuations fallback sending agent present] at gone
      cases gone
    · exact unused m other subscribed continuations fallback before sending
  · intro m other present
    rcases set_there there present with ⟨rfl,rfl⟩ | ⟨_,before⟩
    · exact splits
    · exact kept.splits m other before

theorem Kept.over {w : World} (kept : Kept w) {n : Nat} {turn : Turn} (there : w.turns[n]? = some turn) {a subscribed continuations : Nat}
    {fallback : Option String} (sending : turn.progress = .sending a subscribed continuations fallback) {failed : Bool}
    (ending : w.ending a subscribed fallback = some failed) : Kept (w.progresses n turn .over) := by
  obtain ⟨before,left,rest,splits⟩ := kept.splits n turn there
  obtain ⟨rfl,rfl,rfl,rfl⟩ := splits.sending a subscribed continuations fallback sending
  have terminal : ∃ b ∈ turn.relay.handled ++ left, b.terminal = true := by
    have found : ((eventsAt w.agents turn.relay.agent).drop before.length).find? (·.terminal) ≠ none := by
      intro none_
      simp [World.ending,World.eventsAt,show ((w.agents[turn.relay.agent]?).map (·.events)).getD [] =
        eventsAt w.agents turn.relay.agent from rfl,none_] at ending
    rw [splits.events,List.append_nil,List.drop_left] at found
    obtain ⟨b,same⟩ := Option.ne_none_iff_exists'.mp found
    exact ⟨b,List.mem_of_find?_eq_some same,List.find?_some same⟩
  refine kept.turn there _ ⟨before,left,[],?_⟩ (fun busy => absurd rfl busy) (by rintro _ _ _ _ ⟨⟩)
  refine ⟨splits.events,splits.position,splits.mine,splits.foreign,splits.elsewhere,splits.running,fun exited => ?_,splits.last,
    fun _ => terminal,by rintro ⟨⟩,by rintro _ _ _ _ ⟨⟩⟩
  obtain ⟨none_,why | ⟨claimed,_⟩⟩ := splits.exited exited
  · exact ⟨none_,.inl why⟩
  · rw [sending] at claimed
    cases claimed

theorem Kept.sends {w : World} (kept : Kept w) {n : Nat} {turn : Turn} (active : w.active = some (n,turn))
    (claimed : turn.progress = .claimed) (subscribed : turn.relay.agent = w.current) :
    Kept (w.progresses n turn (.sending w.current (w.eventsAt w.current).length 0 none)) := by
  obtain ⟨there,last,_⟩ := active_there active
  have current := current_there kept
  obtain ⟨before,left,rest,splits⟩ := kept.splits n turn there
  obtain ⟨nothing,rfl⟩ := splits.claimed claimed
  have events := splits.events
  rw [nothing,List.append_nil,List.append_nil] at events
  refine kept.turn there _ ⟨before,left,[],?_⟩ (fun _ => last) ?_
  · refine ⟨splits.events,splits.position,splits.mine,splits.foreign,splits.elsewhere,splits.running,fun exited => ?_,splits.last,
      fun why => ?_,by rintro ⟨⟩,?_⟩
    · obtain ⟨none_,why | ⟨_,stale⟩⟩ := splits.exited exited
      · exact ⟨none_,.inl why⟩
      · omega
    · rcases why with nonempty | over_
      · exact absurd rfl nonempty
      · cases over_
    · intro a q continuations fallback sending
      cases sending
      refine ⟨subscribed.symm,?_,rfl,rfl⟩
      rw [← subscribed]
      exact congrArg List.length events
  · intro a q continuations fallback sending agent present
    cases sending
    by_contra gone
    have stale := (kept.closed _ agent present (by simpa using gone)).1
    omega

theorem Kept.claims {w : World} (kept : Kept w) {s : Subscription} (idle : w.idle = true)
    (fresh : s.position = (w.eventsAt s.agent).length) (pending : List Subscription) :
    Kept { w with pending := pending, turns := w.turns ++ [⟨.spawn s.platform s.agent s.position,.claimed⟩] } := by
  have over_ : ∀ (n : Nat) turn, w.turns[n]? = some turn → turn.progress = .over := fun n turn there => by
    simpa using List.all_eq_true.mp idle turn (List.mem_of_getElem? there)
  have new : ∀ (n : Nat) turn, (w.turns ++ [⟨.spawn s.platform s.agent s.position,.claimed⟩])[n]? = some turn →
      w.turns[n]? = some turn ∨ n = w.turns.length ∧ turn = ⟨.spawn s.platform s.agent s.position,.claimed⟩ := by
    intro n turn there
    rcases Nat.lt_trichotomy n w.turns.length with before | last | beyond
    · rw [List.getElem?_append_left before] at there
      exact .inl there
    · subst last
      rw [List.getElem?_concat_length] at there
      exact .inr ⟨rfl,(Option.some.inj there).symm⟩
    · rw [List.getElem?_eq_none (by simp; omega)] at there
      cases there
  refine ⟨kept.agents,?_,?_,?_,?_⟩
  · intro a b inside m source
    rw [List.length_append]
    exact Nat.lt_add_right _ (kept.known a b inside m source)
  · intro n turn there busy
    rcases new n turn there with before | ⟨rfl,_⟩
    · exact absurd (over_ n turn before) busy
    · simp
  · intro a agent present gone
    obtain ⟨stale,unused⟩ := kept.closed a agent present gone
    refine ⟨stale,fun n turn subscribed continuations fallback there sending => ?_⟩
    rcases new n turn there with before | ⟨_,rfl⟩
    · exact unused n turn subscribed continuations fallback before sending
    · cases sending
  · intro n turn there
    rcases new n turn there with before | ⟨rfl,rfl⟩
    · exact kept.splits n turn before
    · have foreign : ∀ a, ∀ b ∈ eventsAt w.agents a, b.source ≠ some w.turns.length := fun a b inside source =>
        Nat.lt_irrefl _ (kept.known a b inside _ source)
      refine ⟨eventsAt w.agents s.agent,[],[],?_⟩
      refine ⟨?_,fresh,fun _ inside => absurd inside List.not_mem_nil,?_,fun a _ => foreign a,
        fun _ _ inside => absurd inside List.not_mem_nil,?_,fun _ inside => absurd inside List.not_mem_nil,?_,fun _ => ⟨rfl,rfl⟩,?_⟩
      · show eventsAt w.agents s.agent = _
        simp [ChannelStreamRelay.spawn]
      · intro b inside
        rw [List.append_nil] at inside
        exact foreign s.agent b inside
      · intro exited
        simp only [ChannelStreamRelay.spawn] at exited
        split at exited <;> cases exited
      · intro why
        rcases why with nonempty | over_
        · exact absurd rfl nonempty
        · cases over_
      · intro a subscribed continuations fallback sending
        cases sending

theorem Kept.quiet {w : World} (kept : Kept w) {agents : List AgentRuntime} (events : ∀ a, eventsAt agents a = eventsAt w.agents a)
    (more : w.agents.length ≤ agents.length) (pending : List Subscription)
    (closed : ∀ a agent, agents[a]? = some agent → agent.closed = true → a + 1 < agents.length ∧
      ∀ (n : Nat) (turn : Turn) subscribed continuations fallback, w.turns[n]? = some turn →
        turn.progress ≠ .sending a subscribed continuations fallback) : Kept { w with agents := agents, pending := pending } := by
  refine ⟨?_,?_,kept.active,closed,?_⟩
  · have positive := List.length_pos_iff.mpr kept.agents
    exact List.length_pos_iff.mp (by simp only; omega)
  · intro a b inside m source
    exact kept.known a b (by rw [← events]; exact inside) m source
  · intro n turn there
    obtain ⟨before,left,rest,splits⟩ := kept.splits n turn there
    exact ⟨before,left,rest,splits.agents events more⟩

theorem Kept.emits {w : World} (kept : Kept w) {a : Nat} {agent : AgentRuntime} {b : Broadcast} (present : w.agents[a]? = some agent)
    (within : Within capacity w (.emit a b)) : Kept { w with agents := w.agents.set a (agent.emit b) } := by
  have length : (w.agents.set a (agent.emit b)).length = w.agents.length := List.length_set
  have closed : ∀ (j : Nat) (other : AgentRuntime), (w.agents.set a (agent.emit b))[j]? = some other → other.closed = true →
      ∃ before : AgentRuntime, w.agents[j]? = some before ∧ before.closed = true := by
    intro j other there gone
    rw [List.getElem?_set] at there
    split at there
    · rename_i same
      split at there
      · cases there
        refine ⟨agent,same ▸ present,?_⟩
        unfold AgentRuntime.emit at gone
        (repeat' split at gone) <;> exact gone
      · cases there
    · exact ⟨other,there,gone⟩
  have kept_closed : ∀ (j : Nat) (other : AgentRuntime), (w.agents.set a (agent.emit b))[j]? = some other → other.closed = true →
      j + 1 < (w.agents.set a (agent.emit b)).length ∧ ∀ (n : Nat) (turn : Turn) subscribed continuations fallback,
        w.turns[n]? = some turn → turn.progress ≠ .sending j subscribed continuations fallback := by
    intro j other there gone
    obtain ⟨before,there',gone'⟩ := closed j other there gone
    rw [length]
    exact kept.closed j before there' gone'
  by_cases silent : b.terminal = true ∧ agent.status = some .finished
  · have same : agent.emit b = agent := by simp [AgentRuntime.emit,silent]
    exact kept.quiet (eventsAt_same present _ (by rw [same])) length.ge w.pending kept_closed
  · have out : (agent.emit b).events = agent.events ++ [b] := by
      unfold AgentRuntime.emit
      cases terminal : b.terminal with
      | false => rfl
      | true => simp [show agent.status ≠ some .finished from fun same => silent ⟨terminal,same⟩]
    have events : ∀ j, eventsAt (w.agents.set a (agent.emit b)) j = if j = a then eventsAt w.agents a ++ [b] else eventsAt w.agents j := by
      intro j
      rw [eventsAt_set present,out,show eventsAt w.agents a = agent.events by simp [eventsAt,present]]
    have loud : b.terminal = false ∨ agent.status ≠ some .finished := by
      cases terminal : b.terminal with
      | false => exact .inl rfl
      | true => exact .inr fun same => silent ⟨terminal,same⟩
    obtain ⟨n,turn,subscribed,continuations,active,sending,source,open_⟩ := within agent present loud
    obtain ⟨there,last,_⟩ := active_there active
    have unfinished : ((eventsAt w.agents a).drop subscribed).find? (·.terminal) = none := by
      simpa [World.ending,World.eventsAt,eventsAt] using open_
    refine ⟨?_,?_,kept.active,kept_closed,?_⟩
    · have positive := List.length_pos_iff.mpr kept.agents
      exact List.length_pos_iff.mp (by simp only [length]; omega)
    · intro j c inside m source'
      rw [events] at inside
      split at inside
      · rcases List.mem_append.mp inside with earlier | newest
        · exact kept.known a c earlier m source'
        · cases List.mem_singleton.mp newest
          cases source.symm.trans source'
          show n < w.turns.length
          omega
      · exact kept.known j c inside m source'
    · intro m other there'
      obtain ⟨before,left,rest,splits⟩ := kept.splits m other there'
      by_cases same : m = n
      · subst same
        cases there.symm.trans there'
        exact ⟨before,_,rest,splits.broadcasts sending events source unfinished⟩
      · have over_ : other.progress = .over := by
          by_contra busy
          have newest := kept.active m other there' busy
          omega
        obtain ⟨rest',grown⟩ := splits.grows over_ events (by rw [source]; exact fun equal => same (Option.some.inj equal).symm)
        exact ⟨before,left,rest',grown⟩

theorem Kept.receives {w : World} (kept : Kept w) {n : Nat} {turn : Turn} (there : w.turns[n]? = some turn)
    (relaying : turn.relay.phase = .relaying) {b : Broadcast}
    (next : (w.eventsAt turn.relay.agent)[turn.relay.position]? = some b) (due : Bool) :
    Kept (w.relays n turn (turn.relay.receive format due b)) := by
  obtain ⟨before,left,rest,splits⟩ := kept.splits n turn there
  have running := splits.running (by rw [relaying]; rintro ⟨⟩)
  have head : (left ++ rest)[0]? = some b := by
    have position := splits.position
    have events : w.eventsAt turn.relay.agent = (before ++ turn.relay.handled) ++ (left ++ rest) := by
      rw [show w.eventsAt turn.relay.agent = _ from splits.events]
      simp
    rw [events,List.getElem?_append_right (by rw [List.length_append]; omega),List.length_append,position,Nat.sub_self] at next
    exact next
  have unread : ∃ tail, left = b :: tail := by
    cases left with
    | cons c tail =>
      cases Option.some.inj head
      exact ⟨tail,rfl⟩
    | nil =>
      have nonempty : rest ≠ [] := by
        rintro rfl
        cases head
      obtain ⟨c,member,terminal⟩ := splits.ended (.inl nonempty)
      rw [List.append_nil] at member
      rw [running c member] at terminal
      cases terminal
  obtain ⟨tail,rfl⟩ := unread
  obtain ⟨agent,platform⟩ := onEvent_rest format turn.relay due b.event
  have phase := onEvent_phase format turn.relay due b
  have whole : turn.relay.handled ++ [b] ++ tail = turn.relay.handled ++ (b :: tail) := by simp
  refine kept.turn there { turn with relay := turn.relay.receive format due b } ⟨before,tail,rest,?_⟩ (kept.active n turn there) ?_
  · refine ⟨?_,?_,?_,splits.foreign,?_,?_,?_,?_,?_,?_,?_⟩
    · show eventsAt w.agents (turn.relay.onEvent format due b.event).agent = before ++ (turn.relay.handled ++ [b] ++ tail) ++ rest
      rw [agent,whole]
      exact splits.events
    · show turn.relay.position + 1 = before.length + (turn.relay.handled ++ [b]).length
      rw [List.length_append,splits.position]
      rfl
    · show ∀ c ∈ turn.relay.handled ++ [b] ++ tail, c.source = some n
      rw [whole]
      exact splits.mine
    · show ∀ a, a ≠ (turn.relay.onEvent format due b.event).agent → _
      rw [agent]
      exact splits.elsewhere
    · show (turn.relay.onEvent format due b.event).phase ≠ .exited → ∀ c ∈ turn.relay.handled ++ [b], c.terminal = false
      intro goes c inside
      rcases List.mem_append.mp inside with earlier | newest
      · exact running c earlier
      · cases List.mem_singleton.mp newest
        cases terminal : b.terminal with
        | false => rfl
        | true => exact absurd (by rw [phase,if_pos terminal]) goes
    · show (turn.relay.onEvent format due b.event).phase = .exited → tail = [] ∧ _
      intro exited
      have terminal : b.terminal = true := by
        by_contra quiet
        rw [phase,if_neg quiet,relaying] at exited
        cases exited
      refine ⟨?_,.inl ⟨b,List.mem_append_right _ List.mem_cons_self,terminal⟩⟩
      by_contra more
      have early : b ∈ (turn.relay.handled ++ (b :: tail)).dropLast := by
        rw [List.dropLast_append_of_ne_nil (by simp),List.dropLast_cons_of_ne_nil more]
        exact List.mem_append_right _ List.mem_cons_self
      rw [splits.last b early] at terminal
      cases terminal
    · show ∀ c ∈ (turn.relay.handled ++ [b] ++ tail).dropLast, c.terminal = false
      rw [whole]
      exact splits.last
    · show rest ≠ [] ∨ turn.progress = .over → ∃ c ∈ turn.relay.handled ++ [b] ++ tail, c.terminal = true
      rw [whole]
      exact splits.ended
    · show turn.progress = .claimed → turn.relay.handled ++ [b] ++ tail = [] ∧ rest = []
      rw [whole]
      exact splits.claimed
    · show ∀ a q k f, turn.progress = .sending a q k f → a = (turn.relay.onEvent format due b.event).agent ∧ _
      rw [agent]
      exact splits.sending
  · intro a q k f sending other present
    by_contra gone
    exact (kept.closed a other present (by simpa using gone)).2 n turn q k f there sending

theorem Kept.closes {w : World} (kept : Kept w) {n : Nat} {turn : Turn} (there : w.turns[n]? = some turn)
    (relaying : turn.relay.phase = .relaying) (none_ : (w.eventsAt turn.relay.agent)[turn.relay.position]? = none)
    {agent : AgentRuntime} (present : w.agents[turn.relay.agent]? = some agent) (gone : agent.closed = true) :
    Kept (w.relays n turn (turn.relay.onClosed format)) := by
  obtain ⟨before,left,rest,splits⟩ := kept.splits n turn there
  have running := splits.running (by rw [relaying]; rintro ⟨⟩)
  obtain ⟨stale,unused⟩ := kept.closed _ agent present gone
  have nothing : left = [] ∧ rest = [] := by
    have length := List.getElem?_eq_none_iff.mp none_
    rw [show w.eventsAt turn.relay.agent = _ from splits.events] at length
    simp only [List.length_append] at length
    have position := splits.position
    exact ⟨List.length_eq_zero_iff.mp (by omega),List.length_eq_zero_iff.mp (by omega)⟩
  obtain ⟨rfl,rfl⟩ := nothing
  have claimed : turn.progress = .claimed := by
    cases progress : turn.progress with
    | claimed => rfl
    | sending a q k f =>
      obtain ⟨rfl,_⟩ := splits.sending a q k f progress
      exact absurd progress (unused n turn q k f there)
    | «over» =>
      obtain ⟨b,member,terminal⟩ := splits.ended (.inr progress)
      rw [List.append_nil] at member
      rw [running b member] at terminal
      cases terminal
  obtain ⟨same,position,handled,phase⟩ := onClosed_rest format turn.relay
  refine kept.turn there { turn with relay := turn.relay.onClosed format } ⟨before,[],[],?_⟩ (kept.active n turn there) ?_
  · refine ⟨?_,?_,?_,splits.foreign,?_,fun runs => absurd phase runs,fun _ => ⟨rfl,.inr ⟨claimed,?_⟩⟩,?_,?_,?_,?_⟩
    · rw [same,handled]
      exact splits.events
    · rw [position,handled]
      exact splits.position
    · rw [handled]
      exact splits.mine
    · rw [same]
      exact splits.elsewhere
    · rw [same]
      exact stale
    · rw [handled]
      exact splits.last
    · rw [handled]
      exact splits.ended
    · rw [handled]
      exact splits.claimed
    · rw [same]
      exact splits.sending
  · intro a q k f sending
    rw [show turn.progress = .claimed from claimed] at sending
    cases sending

theorem Kept.placeholder {w : World} (kept : Kept w) {n : Nat} {turn : Turn} (there : w.turns[n]? = some turn)
    (waiting : turn.relay.phase = .sendingPlaceholder) : Kept (w.relays n turn (turn.relay.sendPlaceholder true)) := by
  obtain ⟨before,left,rest,splits⟩ := kept.splits n turn there
  refine kept.turn there { turn with relay := turn.relay.sendPlaceholder true } ⟨before,left,rest,?_⟩ (kept.active n turn there) ?_
  · exact ⟨splits.events,splits.position,splits.mine,splits.foreign,splits.elsewhere,
      fun _ => splits.running (by rw [waiting]; rintro ⟨⟩),by rintro ⟨⟩,splits.last,splits.ended,splits.claimed,splits.sending⟩
  · intro a q k f sending agent present
    by_contra gone
    exact (kept.closed a agent present (by simpa using gone)).2 n turn q k f there sending

theorem kept_start : Kept start := by
  have empty : ∀ a, eventsAt start.agents a = [] := by
    intro a
    cases a <;> rfl
  have none : ∀ n : Nat, start.turns[n]? = none := fun _ => rfl
  refine ⟨List.cons_ne_nil _ _,?_,fun n turn found => ?_,?_,fun n turn found => ?_⟩
  · intro a b inside
    rw [empty] at inside
    cases inside
  · rw [none] at found
    cases found
  · intro a agent present gone
    cases a with
    | zero =>
      cases present
      cases gone
    | succ a => cases present
  · rw [none] at found
    cases found

theorem Kept.keeps {w after : World} {event : Event} (kept : Kept w) (within : Within capacity w event)
    (stepped : step format capacity w event = some after) : Kept after := by
  cases event with
  | subscribe platform =>
    cases stepped
    exact kept.quiet (fun _ => rfl) (Nat.le_refl _) _ kept.closed
  | claim s =>
    simp only [step,Option.ite_none_right_eq_some,Option.some.injEq] at stepped
    obtain ⟨⟨_,idle⟩,rfl⟩ := stepped
    exact kept.claims idle within _
  | refuse s =>
    simp only [step,Option.ite_none_right_eq_some,Option.some.injEq] at stepped
    obtain ⟨_,rfl⟩ := stepped
    exact kept.quiet (fun _ => rfl) (Nat.le_refl _) _ kept.closed
  | send =>
    simp only [step] at stepped
    split at stepped
    · rename_i n turn active
      simp only [Option.ite_none_right_eq_some,Option.some.injEq] at stepped
      obtain ⟨claimed,rfl⟩ := stepped
      exact kept.sends active claimed (within n turn active)
    · cases stepped
  | abort => exact within.elim
  | emit a b =>
    simp only [step,Option.map_eq_some_iff] at stepped
    obtain ⟨agent,present,rfl⟩ := stepped
    exact kept.emits present within
  | resetForNewTurn a status =>
    simp only [step,Option.map_eq_some_iff] at stepped
    obtain ⟨agent,present,rfl⟩ := stepped
    refine kept.quiet (eventsAt_same present (agent.resetForNewTurn status) rfl) (by simp) _ fun j other there gone => ?_
    rw [List.length_set]
    rw [List.getElem?_set] at there
    split at there
    · rename_i same
      split at there
      · cases there
        exact kept.closed j agent (same ▸ present) gone
      · cases there
    · exact kept.closed j other there gone
  | fail error =>
    simp only [step] at stepped
    split at stepped
    · rename_i n turn active
      split at stepped
      · rename_i a subscribed continuations sending
        simp only [Option.map_eq_some_iff] at stepped
        obtain ⟨agent,present,rfl⟩ := stepped
        rw [if_pos (within n turn a subscribed continuations agent active sending present)]
        exact kept
      · cases stepped
    · cases stepped
  | consume responses =>
    simp only [step] at stepped
    split at stepped
    · rename_i n turn active
      split at stepped
      · rename_i a subscribed continuations fallback sending
        simp only [Option.map_eq_some_iff] at stepped
        obtain ⟨failed,ending,rfl⟩ := stepped
        have stops : ¬(!failed && responses && decide (continuations < maxCronContinuationsPerTurn)) = true := by
          intro goes
          simp only [Bool.and_eq_true,Bool.not_eq_true',decide_eq_true_eq] at goes
          obtain ⟨⟨rfl,rfl⟩,below⟩ := goes
          rcases within n turn a subscribed continuations fallback active sending ending with quiet | reached
          · cases quiet
          · omega
        rw [if_neg stops]
        exact kept.over (active_there active).1 sending ending
      · cases stepped
    · cases stepped
  | replace =>
    cases stepped
    refine kept.quiet (eventsAt_append _ _ _) (by simp) _ fun a agent present gone => ?_
    rw [List.length_append]
    rcases Nat.lt_trichotomy a w.agents.length with before | last | beyond
    · rw [List.getElem?_append_left before] at present
      obtain ⟨stale,unused⟩ := kept.closed a agent present gone
      exact ⟨Nat.lt_add_right _ stale,unused⟩
    · subst last
      rw [List.getElem?_concat_length] at present
      cases present
      cases gone
    · rw [List.getElem?_eq_none (by simp; omega)] at present
      cases present
  | drop a =>
    simp only [step] at stepped
    split at stepped
    · rename_i agent present
      simp only [Option.ite_none_right_eq_some,Option.some.injEq] at stepped
      obtain ⟨⟨stale,free⟩,rfl⟩ := stepped
      refine kept.quiet (eventsAt_same present { agent with closed := true } rfl) (by simp) _ fun j other there gone => ?_
      rw [List.length_set]
      rw [List.getElem?_set] at there
      split at there
      · rename_i same
        subst same
        have current := current_there kept
        refine ⟨by omega,fun n turn subscribed continuations fallback there' sending => ?_⟩
        have last := kept.active n turn there' (by rw [sending]; rintro ⟨⟩)
        have active : w.active = some (n,turn) := by
          rw [World.active,List.getLast?_eq_getElem?,show w.turns.length - 1 = n by omega,there']
          simp [sending]
        rw [active] at free
        simp [sending] at free
      · exact kept.closed j other there gone
    · cases stepped
  | placeholder n sent =>
    cases within
    simp only [step] at stepped
    split at stepped
    · rename_i turn there
      simp only [Option.ite_none_right_eq_some,Option.some.injEq] at stepped
      obtain ⟨waiting,rfl⟩ := stepped
      exact kept.placeholder there waiting
    · cases stepped
  | read n due =>
    simp only [step] at stepped
    split at stepped
    · rename_i turn there
      split at stepped
      · rename_i relaying
        rw [if_neg (Nat.not_lt.mpr (within turn there))] at stepped
        split at stepped
        · rename_i b next
          cases stepped
          exact kept.receives there relaying next due
        · rename_i none_
          split at stepped
          · rename_i gone
            cases stepped
            cases present : w.agents[turn.relay.agent]? with
            | none =>
              rw [present] at gone
              cases gone
            | some agent =>
              rw [present] at gone
              exact kept.closes there relaying none_ present gone
          · cases stepped
      · cases stepped
    · cases stepped

end Turns

theorem relay_lives_with_turn {format : PluginType → String → String} {capacity : Nat} {events : List Event} {w : World}
    (path : RunsWhere (step format capacity) (Within capacity) start events w) (n : Nat) (turn : Turn) (there : w.turns[n]? = some turn) :
    LivesWithTurn w n turn := by
  have kept : Kept w := path.invariant kept_start fun _ _ _ kept within stepped => kept.keeps within stepped
  obtain ⟨before,left,rest,splits⟩ := kept.splits n turn there
  exact splits.lives


def plain (_ : PluginType) (text : String) : String := text

def begins : List Event := [.subscribe .lark,.claim ⟨.lark,0,0⟩,.send,.placeholder 0 true]

def answers : List Event :=
  [.emit 0 ⟨some 0,.text "hello"⟩,.read 0 true,.emit 0 ⟨some 0,.finish⟩,.consume false,.read 0 false]

def begun : ChannelStreamRelay := ⟨.lark,0,0,.relaying,"",false,[⟨false,false,"⏳ Thinking..."⟩],[]⟩

def said : List Broadcast := [⟨some 0,.text "hello"⟩,⟨some 0,.finish⟩]

def answered : ChannelStreamRelay :=
  ⟨.lark,0,2,.exited,"hello",true,[⟨false,false,"⏳ Thinking..."⟩,⟨true,false,"hello"⟩,⟨true,true,"hello"⟩],said⟩

theorem begins_run : RunsWhere (step plain 64) (Within 64) start begins ⟨[⟨none,[],false⟩],[],[⟨begun,.sending 0 0 0 none⟩]⟩ := by
  refine .cons trivial rfl (.cons rfl rfl (.cons ?_ rfl (.cons rfl rfl .nil)))
  intro n turn active
  cases active
  rfl

theorem answers_run : RunsWhere (step plain 64) (Within 64) ⟨[⟨none,[],false⟩],[],[⟨begun,.sending 0 0 0 none⟩]⟩ answers
    ⟨[⟨some .finished,said,false⟩],[],[⟨answered,.over⟩]⟩ := by
  refine .cons ?_ rfl (.cons ?_ rfl (.cons ?_ rfl (.cons ?_ rfl (.cons ?_ rfl .nil))))
  · exact fun _ _ _ => ⟨0,_,0,0,rfl,rfl,rfl,rfl⟩
  · intro turn there
    cases there
    exact Nat.le_of_ble_eq_true rfl
  · exact fun _ _ _ => ⟨0,_,0,0,rfl,rfl,rfl,rfl⟩
  · exact fun _ _ _ _ _ _ _ _ _ => .inl rfl
  · intro turn there
    cases there
    exact Nat.le_of_ble_eq_true rfl

theorem relay_lives_one_turn :
    ∃ w turn, Runs (step plain 64) start (begins ++ answers) w ∧ w.turns = [turn] ∧ LivesWithTurn w 0 turn ∧ turn.relay = answered := by
  have ran := begins_run.append answers_run
  exact ⟨_,_,ran.runs,rfl,relay_lives_with_turn ran 0 ⟨answered,.over⟩ rfl,rfl⟩

-- The send error reaches the orchestrator's relay only.
def fallbackTurn : List Event :=
  [.subscribe .lark,.claim ⟨.lark,0,0⟩,.send,.placeholder 0 true,.fail "401",.consume false,.subscribe .lark,.claim ⟨.lark,0,0⟩,.send,
    .placeholder 1 true,.emit 0 ⟨some 1,.text "second answer"⟩,.read 0 true]

def continuedTurn : List Event :=
  [.subscribe .lark,.claim ⟨.lark,0,0⟩,.send,.placeholder 0 true,.emit 0 ⟨some 0,.finish⟩,.read 0 true,.consume true,
    .resetForNewTurn 0 .running,.emit 0 ⟨some 0,.text "the cron job is set"⟩]

theorem relay_outlives_turn :
    (∃ w turn next, Runs (step plain 64) start fallbackTurn w ∧ w.turns = [turn,next] ∧ turn.progress = .over ∧
      turn.relay.phase = .relaying ∧ turn.relay.handled = [⟨some 1,.text "second answer"⟩]) ∧
    (∃ w turn, Runs (step plain 64) start continuedTurn w ∧ w.turns = [turn] ∧ turn.progress ≠ .over ∧
      turn.relay.phase = .exited ∧ turn.relay.handled = [⟨some 0,.finish⟩] ∧
      w.eventsOf 0 = [⟨some 0,.finish⟩,⟨some 0,.text "the cron job is set"⟩]) := by
  refine ⟨⟨_,_,_,exec_exact.mp rfl,rfl,rfl,rfl,rfl⟩,⟨_,_,exec_exact.mp rfl,rfl,?_,rfl,rfl,rfl⟩⟩
  decide

end AlineaCopilot.ChannelRelays
