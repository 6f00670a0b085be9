import AlineaCopilot.AgentTasks
open AlineaCopilot.KeyedMaps AlineaCopilot.TransitionRuns

namespace AlineaCopilot.AgentTasks

-- The agent is the one the map holds for its conversation.
def Stored (m : WorkerTaskManager) (agent : Nat) : Prop :=
  ∃ slot, m.tasks.lookup (m.agents agent).conversation = some slot ∧ (m.slots slot).agent = some agent

def Live (m : WorkerTaskManager) (agent : Nat) : Prop := agent < m.agentCount ∧ (m.agents agent).kills = []

-- The slot that a factory fills is still the one in the map.
def SlotKept (w : World) : Action → Prop
  | .built n _ => ∀ conversation slot, w.callers n = .building conversation slot →
      w.manager.tasks.lookup conversation = some slot
  | _ => True

structure Sound (m : WorkerTaskManager) : Prop where
  counted : ∀ conversation slot, m.tasks.lookup conversation = some slot → slot < m.slotCount
  apart : ∀ one two slot, m.tasks.lookup one = some slot → m.tasks.lookup two = some slot → one = two
  filled : ∀ conversation slot agent, m.tasks.lookup conversation = some slot → (m.slots slot).agent = some agent →
    agent < m.agentCount ∧ (m.agents agent).conversation = conversation
  stored : ∀ agent, Live m agent → Stored m agent

structure Kept (w : World) : Prop where
  sound : Sound w.manager
  waiters : ∀ n conversation slot, w.callers n = .waiting conversation slot → slot < w.manager.slotCount
  builders : ∀ n conversation slot, w.callers n = .building conversation slot → slot < w.manager.slotCount ∧
    w.manager.slots slot = ⟨none,true⟩ ∧ ∀ m other, w.callers m = .building other slot → m = n

section Manager
variable {m : WorkerTaskManager} {slot agent : Nat} {conversation : String}

theorem Sound.modifyAgent (sound : Sound m) (agent : Nat) (change : AgentInstance → AgentInstance)
    (same : ∀ one, (change one).conversation = one.conversation ∧ (change one).kills = one.kills) :
    Sound (m.modifyAgent agent change) := by
  have conversations : ∀ a, ((m.modifyAgent agent change).agents a).conversation = (m.agents a).conversation := by
    intro a
    by_cases here : a = agent
    · subst here
      simp [WorkerTaskManager.modifyAgent,same]
    · simp [WorkerTaskManager.modifyAgent,here]
  have kills : ∀ a, ((m.modifyAgent agent change).agents a).kills = (m.agents a).kills := by
    intro a
    by_cases here : a = agent
    · subst here
      simp [WorkerTaskManager.modifyAgent,same]
    · simp [WorkerTaskManager.modifyAgent,here]
  refine ⟨sound.counted,sound.apart,fun c s a found there => ?_,fun a live => ?_⟩
  · rw [conversations]
    exact sound.filled c s a found there
  · obtain ⟨s,found,there⟩ := sound.stored a ⟨live.1,(kills a) ▸ live.2⟩
    exact ⟨s,by rw [conversations]; exact found,there⟩

-- A slot without an agent shows in nothing but its permit.
theorem Sound.modifySlot (sound : Sound m) (empty : (m.slots slot).agent = none) (permit : Bool) :
    Sound (m.modifySlot slot ⟨none,permit⟩) := by
  have agents : ∀ s, ((m.modifySlot slot ⟨none,permit⟩).slots s).agent = (m.slots s).agent := by
    intro s
    by_cases here : s = slot
    · subst here
      simp [WorkerTaskManager.modifySlot,empty]
    · simp [WorkerTaskManager.modifySlot,here]
  refine ⟨sound.counted,sound.apart,fun c s a found there => ?_,fun a live => ?_⟩
  · rw [agents] at there
    exact sound.filled c s a found there
  · obtain ⟨s,found,there⟩ := sound.stored a live
    exact ⟨s,found,by rw [agents]; exact there⟩

theorem Sound.tick (sound : Sound m) (now : Int) : Sound { m with now := now } :=
  ⟨sound.counted,sound.apart,sound.filled,sound.stored⟩

theorem kill_slots (m : WorkerTaskManager) (conversation : String) (reason : Option AgentKillReason) :
    (m.kill conversation reason).slots = m.slots ∧ (m.kill conversation reason).slotCount = m.slotCount := by
  unfold WorkerTaskManager.kill
  split
  · exact ⟨rfl,rfl⟩
  · simp only
    split
    · exact ⟨rfl,rfl⟩
    · exact ⟨rfl,rfl⟩

theorem Sound.kill (sound : Sound m) (conversation : String) (reason : Option AgentKillReason) :
    Sound (m.kill conversation reason) := by
  unfold WorkerTaskManager.kill
  split
  · exact sound
  · rename_i slot found
    have lookups : ∀ {c s}, (m.tasks.erase conversation).lookup c = some s → m.tasks.lookup c = some s ∧ c ≠ conversation := by
      intro c s there
      rw [lookup_erase_eq] at there
      split at there
      · cases there
      · rename_i other
        exact ⟨there,other⟩
    have erased : ∀ {c s}, m.tasks.lookup c = some s → c ≠ conversation → (m.tasks.erase conversation).lookup c = some s := by
      intro c s there other
      rw [lookup_erase_eq,if_neg other,there]
    -- Whoever is stored elsewhere stays stored.
    have others : ∀ a, Live m a → (m.slots slot).agent ≠ some a → (m.agents a).conversation ≠ conversation := by
      intro a live elsewhere same
      obtain ⟨s,there,inside⟩ := sound.stored a live
      rw [same,found] at there
      cases there
      exact elsewhere inside
    simp only
    split
    · rename_i empty
      refine ⟨fun c s there => sound.counted c s (lookups there).1,
        fun one two s first second => sound.apart one two s (lookups first).1 (lookups second).1,
        fun c s a there => sound.filled c s a (lookups there).1,fun a live => ?_⟩
      obtain ⟨s,there,inside⟩ := sound.stored a live
      exact ⟨s,erased there (others a live (by rw [empty]; nofun)),inside⟩
    · rename_i victim inside
      have conversations : ∀ a, ((Function.update m.agents victim ((m.agents victim).kill reason)) a).conversation =
          (m.agents a).conversation := by
        intro a
        by_cases here : a = victim
        · subst here
          simp [AgentInstance.kill]
        · simp [here]
      refine ⟨fun c s there => sound.counted c s (lookups there).1,
        fun one two s first second => sound.apart one two s (lookups first).1 (lookups second).1,
        fun c s a there within => ?_,fun a live => ?_⟩
      · obtain ⟨below,home⟩ := sound.filled c s a (lookups there).1 within
        exact ⟨below,(conversations a).trans home⟩
      · obtain ⟨below,alive⟩ := live
        change (Function.update m.agents victim ((m.agents victim).kill reason) a).kills = [] at alive
        have other : a ≠ victim := by
          rintro rfl
          simp [AgentInstance.kill] at alive
        rw [Function.update_of_ne other] at alive
        have elsewhere : (m.slots slot).agent ≠ some a := by
          rw [inside]
          exact fun same => other (Option.some.inj same).symm
        obtain ⟨s,there,within⟩ := sound.stored a ⟨below,alive⟩
        refine ⟨s,?_,within⟩
        change (m.tasks.erase conversation).lookup
          (Function.update m.agents victim ((m.agents victim).kill reason) a).conversation = some s
        rw [conversations]
        exact erased there (others a ⟨below,alive⟩ elsewhere)

theorem clear_keeps {holds : WorkerTaskManager → Prop}
    (each : ∀ m conversation, holds m → holds (m.killAndWait conversation none)) (start : holds m) : holds m.clear := by
  have fold : ∀ (keys : List String) (m : WorkerTaskManager), holds m → holds (keys.foldl (fun m key => m.killAndWait key none) m) := by
    intro keys
    induction keys with
    | nil => exact fun _ before => before
    | cons key rest ih => exact fun m before => ih (m.killAndWait key none) (each m key before)
  exact fold m.tasks.keys m start

theorem Sound.clear (sound : Sound m) : Sound m.clear :=
  clear_keeps (fun _ conversation before => before.kill conversation none) sound

theorem clear_slots (m : WorkerTaskManager) : m.clear.slots = m.slots ∧ m.clear.slotCount = m.slotCount := by
  let same : WorkerTaskManager → Prop := fun other => other.slots = m.slots ∧ other.slotCount = m.slotCount
  have each : ∀ other conversation, same other → same (other.killAndWait conversation none) := by
    rintro other conversation ⟨slots,count⟩
    have kept := kill_slots other conversation none
    exact ⟨kept.1.trans slots,kept.2.trans count⟩
  have start : same m := ⟨rfl,rfl⟩
  exact clear_keeps each start

theorem Sound.entry (sound : Sound m) (conversation : String) : Sound (m.entry conversation).1 ∧
    (m.entry conversation).2 < (m.entry conversation).1.slotCount ∧ m.slotCount ≤ (m.entry conversation).1.slotCount ∧
    (∀ slot, slot < m.slotCount → (m.entry conversation).1.slots slot = m.slots slot) ∧
    (m.slotCount ≤ (m.entry conversation).2 → (m.entry conversation).1.slots (m.entry conversation).2 = ⟨none,false⟩) := by
  unfold WorkerTaskManager.entry
  split
  · rename_i slot found
    have below := sound.counted conversation slot found
    exact ⟨sound,below,Nat.le_refl _,fun _ _ => rfl,fun above => absurd below (Nat.not_lt.mpr above)⟩
  · rename_i absent
    have old : ∀ {slot}, slot < m.slotCount → slot ≠ m.slotCount := fun below same => Nat.lt_irrefl _ (same ▸ below)
    refine ⟨⟨?_,?_,?_,?_⟩,Nat.lt_succ_self _,Nat.le_succ _,fun slot below => ?_,fun _ => by simp⟩
    · intro c s there
      rw [lookup_insert_eq] at there
      split at there
      · cases there
        exact Nat.lt_succ_self _
      · exact Nat.lt_succ_of_lt (sound.counted c s there)
    · intro one two s first second
      rw [lookup_insert_eq] at first second
      split at first
      · split at second
        · rename_i here also
          exact here.trans also.symm
        · cases first
          exact absurd rfl (old (sound.counted two _ second))
      · split at second
        · cases second
          exact absurd rfl (old (sound.counted one _ first))
        · exact sound.apart one two s first second
    · intro c s a there within
      rw [lookup_insert_eq] at there
      split at there
      · cases there
        simp at within
      · have apart := old (sound.counted c s there)
        simp only [Function.update_of_ne apart] at within
        exact sound.filled c s a there within
    · intro a live
      obtain ⟨s,there,within⟩ := sound.stored a live
      have other : (m.agents a).conversation ≠ conversation := by
        intro same
        rw [same,absent] at there
        cases there
      refine ⟨s,?_,?_⟩
      · change (m.tasks.insert conversation m.slotCount).lookup (m.agents a).conversation = some s
        rw [lookup_insert_eq,if_neg other,there]
      · simp only [Function.update_of_ne (old (sound.counted _ s there)),within]
    · simp only [Function.update_of_ne (old below)]

-- The new agent is stored where the map finds it.
theorem Sound.initialise (sound : Sound m) (here : m.tasks.lookup conversation = some slot) (empty : (m.slots slot).agent = none)
    (agentType : AgentType) : Sound (m.initialise conversation slot agentType) := by
  have slots : ∀ s, s ≠ slot → (m.initialise conversation slot agentType).slots s = m.slots s := by
    intro s other
    simp [WorkerTaskManager.initialise,WorkerTaskManager.modifySlot,other]
  have agents : ∀ a, a < m.agentCount → (m.initialise conversation slot agentType).agents a = m.agents a := by
    intro a below
    have other : a ≠ m.agentCount := fun same => Nat.lt_irrefl _ (same ▸ below)
    simp [WorkerTaskManager.initialise,other]
  refine ⟨sound.counted,sound.apart,fun c s a there within => ?_,fun a live => ?_⟩
  · change a < m.agentCount + 1 ∧ _
    by_cases same : s = slot
    · subst same
      have new : a = m.agentCount := by
        simpa [WorkerTaskManager.initialise,WorkerTaskManager.modifySlot] using within.symm
      subst new
      refine ⟨Nat.lt_succ_self _,?_⟩
      simpa [WorkerTaskManager.initialise] using sound.apart _ _ s here there
    · rw [slots s same] at within
      obtain ⟨below,home⟩ := sound.filled c s a there within
      exact ⟨Nat.lt_succ_of_lt below,by rw [agents a below]; exact home⟩
  · obtain ⟨below,alive⟩ := live
    rcases Nat.lt_succ_iff_lt_or_eq.mp below with old | rfl
    · rw [agents a old] at alive
      obtain ⟨s,there,within⟩ := sound.stored a ⟨old,alive⟩
      have other : s ≠ slot := by
        rintro rfl
        rw [empty] at within
        cases within
      exact ⟨s,by rw [agents a old]; exact there,by rw [slots s other]; exact within⟩
    · refine ⟨slot,?_,by simp [WorkerTaskManager.initialise,WorkerTaskManager.modifySlot]⟩
      have home : ((m.initialise conversation slot agentType).agents m.agentCount).conversation = conversation := by
        simp [WorkerTaskManager.initialise]
      rw [home]
      exact here

end Manager

section Steps
variable {w next : World} {manager : WorkerTaskManager} {n : Nat} {caller : Caller}

theorem goes_caller (w : World) (manager : WorkerTaskManager) (n : Nat) (caller : Caller) (k : Nat) :
    (w.goes manager n caller).callers k = if k = n then caller else w.callers k := by
  simp only [World.goes,Function.update_apply]

-- Nobody begins to wait or to build, and the slots stay.
theorem Kept.moves (kept : Kept w) (sound : Sound manager) (slots : manager.slots = w.manager.slots)
    (count : manager.slotCount = w.manager.slotCount) (waits : ∀ c s, caller ≠ .waiting c s) (builds : ∀ c s, caller ≠ .building c s) :
    Kept (w.goes manager n caller) := by
  have before : ∀ {k other}, (other = caller → False) → (w.goes manager n caller).callers k = other → w.callers k = other := by
    intro k other apart there
    rw [goes_caller] at there
    split at there
    · exact (apart there.symm).elim
    · exact there
  refine ⟨sound,fun k c s there => ?_,fun k c s there => ?_⟩
  · change s < manager.slotCount
    rw [count]
    exact kept.waiters k c s (before (fun same => waits c s same.symm) there)
  · change s < manager.slotCount ∧ manager.slots s = _ ∧ _
    rw [count,slots]
    obtain ⟨below,busy,alone⟩ := kept.builders k c s (before (fun same => builds c s same.symm) there)
    exact ⟨below,busy,fun o other also => alone o other (before (fun same => builds other s same.symm) also)⟩

theorem Kept.manages (kept : Kept w) (sound : Sound manager) (slots : manager.slots = w.manager.slots)
    (count : manager.slotCount = w.manager.slotCount) (scheduled : List (String × Nat)) :
    Kept ⟨manager,w.callers,scheduled⟩ := by
  refine ⟨sound,fun k c s there => ?_,fun k c s there => ?_⟩
  · change s < manager.slotCount
    rw [count]
    exact kept.waiters k c s there
  · change s < manager.slotCount ∧ manager.slots s = _ ∧ _
    rw [count,slots]
    exact kept.builders k c s there

theorem Kept.reach (kept : Kept w) (sound : Sound manager) {slot : Nat} (conversation : String)
    (grown : w.manager.slotCount ≤ manager.slotCount) (same : ∀ s, s < w.manager.slotCount → manager.slots s = w.manager.slots s)
    (below : slot < manager.slotCount) (free : w.manager.slotCount ≤ slot → manager.slots slot = ⟨none,false⟩) :
    Kept (w.reach manager n conversation slot) := by
  have waiters : ∀ {k c s}, w.callers k = .waiting c s → s < manager.slotCount :=
    fun there => Nat.lt_of_lt_of_le (kept.waiters _ _ _ there) grown
  have builders : ∀ {k c s}, w.callers k = .building c s → s < manager.slotCount ∧ manager.slots s = ⟨none,true⟩ ∧
      ∀ o other, w.callers o = .building other s → o = k := by
    intro k c s there
    obtain ⟨old,busy,alone⟩ := kept.builders k c s there
    exact ⟨Nat.lt_of_lt_of_le old grown,(same s old).trans busy,alone⟩
  unfold World.reach
  split
  · refine ⟨sound,fun k c s there => ?_,fun k c s there => ?_⟩
    · rw [goes_caller] at there
      split at there
      · cases there
      · exact waiters there
    · rw [goes_caller] at there
      split at there
      · cases there
      · obtain ⟨old,busy,alone⟩ := builders there
        refine ⟨old,busy,fun o other also => ?_⟩
        rw [goes_caller] at also
        split at also
        · cases also
        · exact alone o other also
  · refine ⟨sound,fun k c s there => ?_,fun k c s there => ?_⟩
    · rw [goes_caller] at there
      split at there
      · cases there
        exact below
      · exact waiters there
    · rw [goes_caller] at there
      split at there
      · cases there
      · obtain ⟨old,busy,alone⟩ := builders there
        refine ⟨old,busy,fun o other also => ?_⟩
        rw [goes_caller] at also
        split at also
        · cases also
        · exact alone o other also
  · rename_i vacant
    -- Nobody was building for a slot whose permit is free.
    have nobody : ∀ {k c s}, w.callers k = .building c s → s ≠ slot := by
      rintro k c s there rfl
      have busy := (builders there).2.1
      rw [vacant] at busy
      cases busy
    have empty : (manager.slots slot).agent = none := by rw [vacant]
    refine ⟨sound.modifySlot empty true,fun k c s there => ?_,fun k c s there => ?_⟩
    · rw [goes_caller] at there
      split at there
      · cases there
      · exact waiters there
    · rw [goes_caller] at there
      split at there
      · rename_i here
        cases there
        refine ⟨below,by simp [World.goes,WorkerTaskManager.modifySlot],fun o other also => ?_⟩
        rw [goes_caller] at also
        split at also
        · rename_i too
          exact too.trans here.symm
        · exact absurd rfl (nobody also)
      · obtain ⟨old,busy,alone⟩ := builders there
        refine ⟨old,?_,fun o other also => ?_⟩
        · simpa [World.goes,WorkerTaskManager.modifySlot,nobody there] using busy
        · rw [goes_caller] at also
          split at also
          · cases also
            exact absurd rfl (nobody there)
          · exact alone o other also

-- The end of a build: the builder's slot alone changes, and the builder leaves it.
theorem Kept.leaves (kept : Kept w) (sound : Sound manager) {conversation : String} {slot : Nat}
    (builder : w.callers n = .building conversation slot) (count : manager.slotCount = w.manager.slotCount)
    (same : ∀ s, s ≠ slot → manager.slots s = w.manager.slots s) (waits : ∀ c s, caller ≠ .waiting c s)
    (builds : ∀ c s, caller ≠ .building c s) : Kept (w.goes manager n caller) := by
  refine ⟨sound,fun k c s there => ?_,fun k c s there => ?_⟩
  · change s < manager.slotCount
    rw [count]
    rw [goes_caller] at there
    split at there
    · exact absurd there (waits c s)
    · exact kept.waiters k c s there
  · change s < manager.slotCount ∧ manager.slots s = _ ∧ _
    rw [goes_caller] at there
    split at there
    · exact absurd there (builds c s)
    · rename_i elsewhere
      obtain ⟨below,busy,alone⟩ := kept.builders k c s there
      have apart : s ≠ slot := by
        rintro rfl
        exact elsewhere (alone n conversation builder).symm
      refine ⟨count ▸ below,(same s apart).trans busy,fun o other also => ?_⟩
      rw [goes_caller] at also
      split at also
      · exact absurd also (builds other s)
      · exact alone o other also

theorem Kept.step (kept : Kept w) {action : Action} (allowed : SlotKept w action) (enabled : step w action = some next) :
    Kept next := by
  cases action with
  | getOrBuild n conversation =>
    simp only [AgentTasks.step] at enabled
    split at enabled
    · cases enabled
      obtain ⟨sound,below,grown,same,free⟩ := kept.sound.entry conversation
      exact kept.reach sound conversation grown same below free
    · cases enabled
  | resume n =>
    simp only [AgentTasks.step] at enabled
    split at enabled
    · rename_i conversation slot waiting
      split at enabled
      · cases enabled
      · cases enabled
        have below := kept.waiters n conversation slot waiting
        exact kept.reach kept.sound conversation (Nat.le_refl _) (fun _ _ => rfl) below
          fun above => absurd below (Nat.not_lt.mpr above)
    · cases enabled
  | built n agentType =>
    simp only [AgentTasks.step] at enabled
    split at enabled
    · rename_i conversation slot building
      cases enabled
      obtain ⟨below,busy,alone⟩ := kept.builders n conversation slot building
      have here := allowed conversation slot building
      refine kept.leaves (kept.sound.initialise here (by rw [busy]) agentType) building rfl ?_ nofun nofun
      intro s other
      simp [WorkerTaskManager.initialise,WorkerTaskManager.modifySlot,other]
    · cases enabled
  | failed n =>
    simp only [AgentTasks.step] at enabled
    split at enabled
    · rename_i conversation slot building
      cases enabled
      obtain ⟨below,busy,alone⟩ := kept.builders n conversation slot building
      refine kept.leaves (kept.sound.modifySlot (by rw [busy]) false) building rfl ?_ nofun nofun
      intro s other
      simp [WorkerTaskManager.modifySlot,other]
    · cases enabled
  | forget n =>
    simp only [AgentTasks.step] at enabled
    split at enabled
    · cases enabled
      exact kept.moves kept.sound rfl rfl nofun nofun
    · cases enabled
  | send n =>
    simp only [AgentTasks.step] at enabled
    split at enabled
    · rename_i agent holding
      have bumped := kept.sound.modifyAgent agent (·.bumpActivity w.manager.now) fun _ => ⟨rfl,rfl⟩
      split at enabled
      · cases enabled
        exact kept.moves bumped rfl rfl nofun nofun
      · cases enabled
        exact kept.moves (bumped.modifyAgent agent (·.resetForNewTurn .running) fun _ => ⟨rfl,rfl⟩) rfl rfl nofun nofun
    · cases enabled
  | opened n =>
    simp only [AgentTasks.step] at enabled
    split at enabled
    · rename_i agent opening
      cases enabled
      exact kept.moves (kept.sound.modifyAgent agent (·.resetForNewTurn .running) fun _ => ⟨rfl,rfl⟩) rfl rfl nofun nofun
    · cases enabled
  | ended n =>
    simp only [AgentTasks.step] at enabled
    split at enabled
    · rename_i agent opening
      cases enabled
      exact kept.moves (kept.sound.modifyAgent agent (·.emitTerminal) fun _ => ⟨rfl,rfl⟩) rfl rfl nofun nofun
    · rename_i agent prompting
      cases enabled
      exact kept.moves (kept.sound.modifyAgent agent (·.emitTerminal) fun _ => ⟨rfl,rfl⟩) rfl rfl nofun nofun
    · cases enabled
  | activity agent =>
    simp only [AgentTasks.step] at enabled
    cases enabled
    exact kept.manages (kept.sound.modifyAgent agent (·.bumpActivity w.manager.now) fun _ => ⟨rfl,rfl⟩) rfl rfl w.scheduled
  | kill conversation reason =>
    simp only [AgentTasks.step] at enabled
    cases enabled
    have same := kill_slots w.manager conversation reason
    exact kept.manages (kept.sound.kill conversation reason) same.1 same.2 w.scheduled
  | killAndWait conversation reason =>
    simp only [AgentTasks.step] at enabled
    cases enabled
    have same := kill_slots w.manager conversation reason
    exact kept.manages (kept.sound.kill conversation reason) same.1 same.2 w.scheduled
  | clear =>
    simp only [AgentTasks.step] at enabled
    cases enabled
    have same := clear_slots w.manager
    exact kept.manages kept.sound.clear same.1 same.2 w.scheduled
  | scan idleThresholdMs =>
    simp only [AgentTasks.step] at enabled
    cases enabled
    exact kept.manages kept.sound rfl rfl _
  | cleanup i =>
    simp only [AgentTasks.step] at enabled
    split at enabled
    · rename_i decided found
      cases enabled
      have same := kill_slots w.manager decided.1 (some .idleTimeout)
      exact kept.manages (kept.sound.kill decided.1 (some .idleTimeout)) same.1 same.2 _
    · cases enabled
  | tick ms =>
    simp only [AgentTasks.step] at enabled
    cases enabled
    exact kept.manages (kept.sound.tick (w.manager.now + ms)) rfl rfl w.scheduled

end Steps

-- The slot is not the conversation's, and can not become it again: the map only
-- takes new slots in.
structure Dropped (m : WorkerTaskManager) (conversation : String) (slot : Nat) : Prop where
  old : slot < m.slotCount
  gone : m.tasks.lookup conversation ≠ some slot

-- A build whose slot was taken away, while it runs and after it has failed.
structure GivenUp (w : World) (n : Nat) (conversation : String) (slot : Nat) : Prop where
  dropped : Dropped w.manager conversation slot
  caller : w.callers n = .building conversation slot ∨ w.callers n = .over

def Removes (w : World) (conversation : String) : Action → Prop
  | .kill id _ | .killAndWait id _ => id = conversation
  | .clear => True
  | .cleanup i => ∃ agent, w.scheduled[i]? = some (conversation,agent)
  | _ => False

section Removal
variable {m : WorkerTaskManager} {conversation : String} {slot : Nat}

theorem kill_lookup (m : WorkerTaskManager) (id conversation : String) (reason : Option AgentKillReason) :
    (m.kill id reason).tasks.lookup conversation = if conversation = id then none else m.tasks.lookup conversation := by
  unfold WorkerTaskManager.kill
  split
  · rename_i absent
    split
    · rename_i here
      rw [here,absent]
    · rfl
  · simp only
    split
    · exact lookup_erase_eq m.tasks conversation id
    · exact lookup_erase_eq m.tasks conversation id

theorem Dropped.kill (dropped : Dropped m conversation slot) (id : String) (reason : Option AgentKillReason) :
    Dropped (m.kill id reason) conversation slot := by
  refine ⟨(kill_slots m id reason).2 ▸ dropped.old,?_⟩
  rw [kill_lookup]
  split
  · nofun
  · exact dropped.gone

theorem Dropped.clear (dropped : Dropped m conversation slot) : Dropped m.clear conversation slot := by
  have each : ∀ m id, Dropped m conversation slot → Dropped (m.killAndWait id none) conversation slot :=
    fun _ id before => before.kill id none
  exact clear_keeps each dropped

theorem Dropped.entry (dropped : Dropped m conversation slot) (id : String) : Dropped (m.entry id).1 conversation slot := by
  unfold WorkerTaskManager.entry
  split
  · exact dropped
  · refine ⟨Nat.lt_succ_of_lt dropped.old,?_⟩
    rw [lookup_insert_eq]
    split
    · exact fun same => Nat.lt_irrefl _ (Option.some.inj same ▸ dropped.old)
    · exact dropped.gone

theorem clear_lookup (m : WorkerTaskManager) (conversation : String) : m.clear.tasks.lookup conversation = none := by
  have fold : ∀ (keys : List String) (m : WorkerTaskManager), conversation ∈ keys ∨ m.tasks.lookup conversation = none →
      (keys.foldl (fun m key => m.killAndWait key none) m).tasks.lookup conversation = none := by
    intro keys
    induction keys with
    | nil => exact fun m either => either.resolve_left List.not_mem_nil
    | cons key rest ih =>
      intro m either
      refine ih (m.killAndWait key none) ?_
      have after := kill_lookup m key conversation none
      by_cases here : conversation = key
      · rw [if_pos here] at after
        exact .inr after
      · rw [if_neg here] at after
        rcases either with inside | absent
        · exact .inl ((List.mem_cons.mp inside).resolve_left here)
        · exact .inr (after.trans absent)
  refine fold m.tasks.keys m ?_
  by_cases inside : conversation ∈ m.tasks.keys
  · exact .inl inside
  · exact .inr (AList.lookup_eq_none.mpr inside)

theorem removed {w next : World} {removal : Action} (removes : Removes w conversation removal)
    (enabled : step w removal = some next) : next.manager.tasks.lookup conversation = none ∧
    next.manager.slotCount = w.manager.slotCount ∧ next.callers = w.callers := by
  cases removal with
  | kill id reason =>
    cases enabled
    exact ⟨(kill_lookup w.manager id conversation reason).trans (if_pos removes.symm),
      (kill_slots w.manager id reason).2,rfl⟩
  | killAndWait id reason =>
    cases enabled
    exact ⟨(kill_lookup w.manager id conversation reason).trans (if_pos removes.symm),
      (kill_slots w.manager id reason).2,rfl⟩
  | clear =>
    cases enabled
    exact ⟨clear_lookup w.manager conversation,(clear_slots w.manager).2,rfl⟩
  | cleanup i =>
    obtain ⟨agent,found⟩ := removes
    simp only [step,found,Option.some.injEq] at enabled
    cases enabled
    exact ⟨(kill_lookup w.manager conversation conversation _).trans (if_pos rfl),
      (kill_slots w.manager conversation _).2,rfl⟩
  | _ => exact removes.elim

end Removal

section Abandoned
variable {w next : World} {manager : WorkerTaskManager} {n k : Nat} {caller : Caller} {conversation : String} {slot : Nat}

theorem GivenUp.goes (given : GivenUp w n conversation slot) (dropped : Dropped manager conversation slot) (other : k ≠ n) :
    GivenUp (w.goes manager k caller) n conversation slot :=
  ⟨dropped,by rw [goes_caller,if_neg other.symm]; exact given.caller⟩

theorem GivenUp.reach (given : GivenUp w n conversation slot) (dropped : Dropped manager conversation slot) (other : k ≠ n)
    (id : String) (cell : Nat) : GivenUp (w.reach manager k id cell) n conversation slot := by
  unfold World.reach
  split
  · exact given.goes dropped other
  · exact given.goes dropped other
  · exact given.goes ⟨dropped.old,dropped.gone⟩ other

theorem GivenUp.elsewhere (given : GivenUp w n conversation slot) (there : w.callers k = caller)
    (builds : caller ≠ .building conversation slot) (ends : caller ≠ .over) : k ≠ n := by
  rintro rfl
  rcases given.caller with building | finished
  · exact builds (there.symm.trans building)
  · exact ends (there.symm.trans finished)

theorem GivenUp.step (given : GivenUp w n conversation slot) {action : Action} (allowed : SlotKept w action)
    (enabled : step w action = some next) : GivenUp next n conversation slot := by
  obtain ⟨old,gone⟩ := given.dropped
  cases action with
  | getOrBuild k id =>
    simp only [AgentTasks.step] at enabled
    split at enabled
    · rename_i free
      cases enabled
      exact given.reach (given.dropped.entry id) (given.elsewhere free nofun nofun) id _
    · cases enabled
  | resume k =>
    simp only [AgentTasks.step] at enabled
    split at enabled
    · rename_i id cell waiting
      split at enabled
      · cases enabled
      · cases enabled
        exact given.reach given.dropped (given.elsewhere waiting nofun nofun) id cell
    · cases enabled
  | built k agentType =>
    simp only [AgentTasks.step] at enabled
    split at enabled
    · rename_i id cell building
      cases enabled
      -- The slot is in the map, so the build is not the one given up.
      have apart : Caller.building id cell ≠ .building conversation slot := by
        intro same
        cases same
        exact gone (allowed conversation slot building)
      exact given.goes ⟨old,gone⟩ (given.elsewhere building apart nofun)
    · cases enabled
  | failed k =>
    simp only [AgentTasks.step] at enabled
    split at enabled
    · rename_i id cell building
      cases enabled
      refine ⟨⟨old,gone⟩,?_⟩
      rw [goes_caller]
      split
      · exact .inr rfl
      · exact given.caller
    · cases enabled
  | forget k =>
    simp only [AgentTasks.step] at enabled
    split at enabled
    · rename_i agent holding
      cases enabled
      exact given.goes given.dropped (given.elsewhere holding nofun nofun)
    · cases enabled
  | send k =>
    simp only [AgentTasks.step] at enabled
    split at enabled
    · rename_i agent holding
      have other := given.elsewhere holding nofun nofun
      split at enabled
      · cases enabled
        exact given.goes ⟨old,gone⟩ other
      · cases enabled
        exact given.goes ⟨old,gone⟩ other
    · cases enabled
  | opened k =>
    simp only [AgentTasks.step] at enabled
    split at enabled
    · rename_i agent opening
      cases enabled
      exact given.goes ⟨old,gone⟩ (given.elsewhere opening nofun nofun)
    · cases enabled
  | ended k =>
    simp only [AgentTasks.step] at enabled
    split at enabled
    · rename_i agent opening
      cases enabled
      exact given.goes ⟨old,gone⟩ (given.elsewhere opening nofun nofun)
    · rename_i agent prompting
      cases enabled
      exact given.goes ⟨old,gone⟩ (given.elsewhere prompting nofun nofun)
    · cases enabled
  | activity agent =>
    cases enabled
    exact ⟨⟨old,gone⟩,given.caller⟩
  | kill id reason =>
    cases enabled
    exact ⟨given.dropped.kill id reason,given.caller⟩
  | killAndWait id reason =>
    cases enabled
    exact ⟨given.dropped.kill id reason,given.caller⟩
  | clear =>
    cases enabled
    exact ⟨given.dropped.clear,given.caller⟩
  | scan idleThresholdMs =>
    cases enabled
    exact ⟨given.dropped,given.caller⟩
  | cleanup i =>
    simp only [AgentTasks.step] at enabled
    split at enabled
    · rename_i decided found
      cases enabled
      exact ⟨given.dropped.kill decided.1 _,given.caller⟩
    · cases enabled
  | tick ms =>
    cases enabled
    exact ⟨⟨old,gone⟩,given.caller⟩

end Abandoned

section Runs
variable {now : Int} {actions : List Action} {final : World}

theorem kept_start (now : Int) : Kept (start now) := by
  refine ⟨⟨fun c s found => ?_,fun one two s found => ?_,fun c s a found => ?_,fun a live => ?_⟩,fun n c s => nofun,fun n c s => nofun⟩
  · cases found
  · cases found
  · cases found
  · exact absurd live.1 (Nat.not_lt_zero a)

theorem kept_run (path : RunsWhere step SlotKept (start now) actions final) : Kept final :=
  path.invariant (kept_start now) fun _ _ _ kept allowed enabled => kept.step allowed enabled

theorem live_alone (kept : Kept w) {one two : Nat} (first : Live w.manager one) (second : Live w.manager two)
    (same : (w.manager.agents one).conversation = (w.manager.agents two).conversation) : one = two := by
  obtain ⟨slot,found,inside⟩ := kept.sound.stored one first
  obtain ⟨other,also,within⟩ := kept.sound.stored two second
  rw [← same,found] at also
  cases also
  exact Option.some.inj (inside.symm.trans within)

-- The build whose conversation is taken out of the map under it never puts an
-- agent into the world afterwards.
theorem build_given_up (path : RunsWhere step SlotKept (start now) actions final) {earlier : List Action} {removal : Action}
    {between : World} (inside : earlier ++ [removal] <+: actions) (prior : Runs step (start now) earlier between)
    {n : Nat} {conversation : String} {slot : Nat} (building : between.callers n = .building conversation slot)
    (removes : Removes between conversation removal) :
    final.callers n = .building conversation slot ∨ final.callers n = .over := by
  obtain ⟨after,reached⟩ := path.reaches inside
  obtain ⟨middle,early,enabled⟩ := reached.snoc_inv
  cases prior.deterministic early
  have kept := kept_run (path.later ((List.prefix_append _ _).trans inside) prior).1
  obtain ⟨-,rest,-,onward⟩ := path.later inside reached
  obtain ⟨gone,count,callers⟩ := removed removes enabled
  have given : GivenUp after n conversation slot :=
    ⟨⟨count ▸ (kept.builders n conversation slot building).1,by rw [gone]; nofun⟩,by rw [callers]; exact .inl building⟩
  let lost : World → Prop := fun w => GivenUp w n conversation slot
  have start : lost after := given
  have steps : ∀ w action next, lost w → SlotKept w action → step w action = some next → lost next :=
    fun _ _ _ given allowed enabled => given.step allowed enabled
  exact (onward.invariant start steps).caller

theorem one_agent_none_leaked (path : RunsWhere step SlotKept (start now) actions final) :
    (∀ agent, agent < final.manager.agentCount → Stored final.manager agent ∨ (final.manager.agents agent).kills ≠ []) ∧
    (∀ one two, Live final.manager one → Live final.manager two →
      (final.manager.agents one).conversation = (final.manager.agents two).conversation → one = two) ∧
    ∀ earlier removal between n conversation slot, earlier ++ [removal] <+: actions → Runs step (start now) earlier between →
      between.callers n = .building conversation slot → Removes between conversation removal →
      final.callers n = .building conversation slot ∨ final.callers n = .over := by
  have kept := kept_run path
  refine ⟨fun agent below => ?_,fun one two => live_alone kept,fun earlier removal between n conversation slot inside prior => ?_⟩
  · by_cases alive : (final.manager.agents agent).kills = []
    · exact .inl (kept.sound.stored agent ⟨below,alive⟩)
    · exact .inr alive
  · exact build_given_up path inside prior

section Examples

theorem built_kept {w : World} {n : Nat} {conversation : String} {slot : Nat} (agentType : AgentType)
    (building : w.callers n = .building conversation slot) (here : w.manager.tasks.lookup conversation = some slot) :
    SlotKept w (.built n agentType) := by
  intro other cell also
  rw [building] at also
  cases also
  exact here

-- A kill during a build that fails, then a build that does not.
theorem one_agent_none_leaked_rebuilt : ∃ final,
    Runs step (start 0) [.getOrBuild 0 "c",.kill "c" none,.failed 0,.getOrBuild 1 "c",.built 1 .acp] final ∧
    final.manager.agentCount = 1 ∧ (Stored final.manager 0 ∨ (final.manager.agents 0).kills ≠ []) ∧
    (final.callers 0 = .building "c" 0 ∨ final.callers 0 = .over) := by
  have path : ∃ final, RunsWhere step SlotKept (start 0)
      [.getOrBuild 0 "c",.kill "c" none,.failed 0,.getOrBuild 1 "c",.built 1 .acp] final ∧ final.manager.agentCount = 1 :=
    ⟨_,.cons trivial rfl (.cons trivial rfl (.cons trivial rfl (.cons trivial rfl
      (.cons (built_kept .acp rfl rfl) rfl .nil)))),rfl⟩
  obtain ⟨final,path,count⟩ := path
  obtain ⟨stored,-,given⟩ := one_agent_none_leaked path
  refine ⟨final,path.runs,count,stored 0 (count ▸ Nat.one_pos),?_⟩
  exact given [.getOrBuild 0 "c"] (.kill "c" none) _ 0 "c" 0 ⟨[.failed 0,.getOrBuild 1 "c",.built 1 .acp],rfl⟩
    (.single rfl) rfl rfl

-- The kill finds an empty cell, the build then fills it, and the next caller
-- gets an agent of its own.
theorem leaked_agent : ∃ final,
    Runs step (start 0) [.getOrBuild 0 "c",.kill "c" none,.built 0 .acp,.getOrBuild 1 "c",.built 1 .acp] final ∧
    ¬Stored final.manager 0 ∧ Live final.manager 0 ∧ Live final.manager 1 ∧
    (final.manager.agents 0).conversation = (final.manager.agents 1).conversation := by
  refine ⟨_,exec_exact.mp rfl,?_,⟨by decide,rfl⟩,⟨by decide,rfl⟩,rfl⟩
  rintro ⟨slot,found,inside⟩
  cases found
  cases inside

end Examples

end Runs

end AlineaCopilot.AgentTasks
