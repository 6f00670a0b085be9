import AlineaCopilot.AgentTaskLeaks
open AlineaCopilot.KeyedMaps AlineaCopilot.TransitionRuns

namespace AlineaCopilot.AgentTasks

-- A turn has the agent, whether it has sent already or not.
def Caller.WorksOn (agent : Nat) : Caller → Prop
  | .holding other | .opening other | .prompting other => other = agent
  | _ => False

-- The slots of a conversation are its own for good.
structure Housed (w : World) (home : Nat → String) : Prop where
  mapped : ∀ conversation slot, w.manager.tasks.lookup conversation = some slot →
    slot < w.manager.slotCount ∧ home slot = conversation
  waiting : ∀ n conversation slot, w.callers n = .waiting conversation slot →
    slot < w.manager.slotCount ∧ home slot = conversation
  building : ∀ n conversation slot, w.callers n = .building conversation slot →
    slot < w.manager.slotCount ∧ home slot = conversation
  filled : ∀ slot agent, (w.manager.slots slot).agent = some agent →
    slot < w.manager.slotCount ∧ agent < w.manager.agentCount ∧ (w.manager.agents agent).conversation = home slot

-- What a scan has decided about an agent still holds of it.
structure Decided (w : World) (conversation : String) (agent : Nat) : Prop where
  made : agent < w.manager.agentCount ∧ (w.manager.agents agent).conversation = conversation
  unused : ∀ n, ¬(w.callers n).WorksOn agent
  only : ∀ slot other, w.manager.tasks.lookup conversation = some slot → (w.manager.slots slot).agent = some other →
    other = agent

structure Calm (w : World) (home : Nat → String) : Prop where
  housed : Housed w home
  decided : ∀ conversation agent, (conversation,agent) ∈ w.scheduled → Decided w conversation agent

-- A call of `get_or_build_task` for this conversation comes back with an agent.
def Returns (w : World) (conversation : String) : Action → Prop
  | .getOrBuild _ id => id = conversation ∧
      ∃ slot agent, w.manager.tasks.lookup id = some slot ∧ (w.manager.slots slot).agent = some agent
  | .resume n => ∃ slot agent, w.callers n = .waiting conversation slot ∧ (w.manager.slots slot).agent = some agent
  | .built n _ => ∃ slot, w.callers n = .building conversation slot
  | _ => False

-- No scan picks an agent that a turn has, and no turn gets an agent of a
-- conversation whose clean-up is still to run.
def Apart (w : World) : Action → Prop
  | .scan idleThresholdMs => ∀ conversation agent, (conversation,agent) ∈ w.manager.collectIdle idleThresholdMs →
      ∀ n, ¬(w.callers n).WorksOn agent
  | action => ∀ conversation agent, (conversation,agent) ∈ w.scheduled → ¬Returns w conversation action

section Manager
variable {m other : WorkerTaskManager}

-- Conversations may leave the map, and agents change in all but their conversation.
structure Retains (m other : WorkerTaskManager) : Prop where
  slots : other.slots = m.slots
  slotCount : other.slotCount = m.slotCount
  agentCount : other.agentCount = m.agentCount
  conversations : ∀ agent, (other.agents agent).conversation = (m.agents agent).conversation
  lookups : ∀ conversation slot, other.tasks.lookup conversation = some slot → m.tasks.lookup conversation = some slot

theorem Retains.refl (m : WorkerTaskManager) : Retains m m := ⟨rfl,rfl,rfl,fun _ => rfl,fun _ _ found => found⟩

theorem Retains.trans {last : WorkerTaskManager} (first : Retains m other) (second : Retains other last) : Retains m last :=
  ⟨second.slots.trans first.slots,second.slotCount.trans first.slotCount,second.agentCount.trans first.agentCount,
    fun agent => (second.conversations agent).trans (first.conversations agent),
    fun conversation slot found => first.lookups _ _ (second.lookups conversation slot found)⟩

theorem retains_modifyAgent (m : WorkerTaskManager) (agent : Nat) (change : AgentInstance → AgentInstance)
    (same : ∀ one, (change one).conversation = one.conversation) : Retains m (m.modifyAgent agent change) := by
  refine ⟨rfl,rfl,rfl,fun a => ?_,fun _ _ found => found⟩
  by_cases here : a = agent
  · subst here
    simp [WorkerTaskManager.modifyAgent,same]
  · simp [WorkerTaskManager.modifyAgent,here]

theorem retains_kill (m : WorkerTaskManager) (conversation : String) (reason : Option AgentKillReason) :
    Retains m (m.kill conversation reason) := by
  unfold WorkerTaskManager.kill
  split
  · exact .refl m
  · have erased : Retains m { m with tasks := m.tasks.erase conversation } := by
      refine ⟨rfl,rfl,rfl,fun _ => rfl,fun c slot found => ?_⟩
      rw [lookup_erase_eq] at found
      split at found
      · cases found
      · exact found
    simp only
    split
    · exact erased
    · rename_i agent inside
      exact erased.trans (retains_modifyAgent _ agent _ fun _ => rfl)

theorem retains_clear (m : WorkerTaskManager) : Retains m m.clear :=
  clear_keeps (fun last key before => before.trans (retains_kill last key none)) (.refl m)

theorem collectIdle_inside {m : WorkerTaskManager} {idleThresholdMs : Int} {conversation : String} {agent : Nat}
    (collected : (conversation,agent) ∈ m.collectIdle idleThresholdMs) :
    ∃ slot, m.tasks.lookup conversation = some slot ∧ (m.slots slot).agent = some agent := by
  unfold WorkerTaskManager.collectIdle at collected
  obtain ⟨⟨id,slot⟩,member,picked⟩ := List.mem_filterMap.mp collected
  simp only at picked
  split at picked
  · cases picked
  · rename_i one inside
    split at picked
    · cases picked
      exact ⟨slot,(mem_entries_iff m.tasks).mp member,inside⟩
    · cases picked

theorem entry_inside {m : WorkerTaskManager} {conversation : String} {agent : Nat}
    (inside : ((m.entry conversation).1.slots (m.entry conversation).2).agent = some agent) :
    ∃ slot, m.tasks.lookup conversation = some slot ∧ (m.slots slot).agent = some agent := by
  unfold WorkerTaskManager.entry at inside
  split at inside
  · rename_i slot found
    exact ⟨slot,found,inside⟩
  · simp at inside

end Manager

section Steps
variable {w next : World} {home : Nat → String} {manager : WorkerTaskManager} {n : Nat} {caller : Caller}

-- A step that takes nothing new in: the callers lose agents at most.
theorem Calm.retains (calm : Calm w home) (retains : Retains w.manager next.manager)
    (waits : ∀ n c s, next.callers n = .waiting c s → w.callers n = .waiting c s)
    (builds : ∀ n c s, next.callers n = .building c s → w.callers n = .building c s)
    (works : ∀ n a, (next.callers n).WorksOn a → (w.callers n).WorksOn a)
    (scheduled : ∀ c a, (c,a) ∈ next.scheduled → (c,a) ∈ w.scheduled) : Calm next home := by
  refine ⟨⟨fun c s found => ?_,fun k c s there => ?_,fun k c s there => ?_,fun s a inside => ?_⟩,fun c a member => ?_⟩
  · rw [retains.slotCount]
    exact calm.housed.mapped c s (retains.lookups c s found)
  · rw [retains.slotCount]
    exact calm.housed.waiting k c s (waits k c s there)
  · rw [retains.slotCount]
    exact calm.housed.building k c s (builds k c s there)
  · rw [retains.slots] at inside
    rw [retains.slotCount,retains.agentCount,retains.conversations]
    exact calm.housed.filled s a inside
  · obtain ⟨made,unused,only⟩ := calm.decided c a (scheduled c a member)
    refine ⟨?_,fun k works' => unused k (works k a works'),fun s o found inside => ?_⟩
    · rw [retains.agentCount,retains.conversations]
      exact made
    · rw [retains.slots] at inside
      exact only s o (retains.lookups c s found) inside

theorem Calm.manages (calm : Calm w home) (retains : Retains w.manager manager) {scheduled : List (String × Nat)}
    (fewer : ∀ c a, (c,a) ∈ scheduled → (c,a) ∈ w.scheduled) : Calm ⟨manager,w.callers,scheduled⟩ home :=
  calm.retains retains (fun _ _ _ there => there) (fun _ _ _ there => there) (fun _ _ works => works) fewer

-- A caller goes on with the agent it has, or without one.
theorem Calm.moves (calm : Calm w home) (retains : Retains w.manager manager) (waits : ∀ c s, caller ≠ .waiting c s)
    (builds : ∀ c s, caller ≠ .building c s) (works : ∀ a, caller.WorksOn a → (w.callers n).WorksOn a) :
    Calm (w.goes manager n caller) home := by
  refine calm.retains retains (fun k c s there => ?_) (fun k c s there => ?_) (fun k a there => ?_) fun _ _ member => member
  · rw [goes_caller] at there
    split at there
    · exact absurd there (waits c s)
    · exact there
  · rw [goes_caller] at there
    split at there
    · exact absurd there (builds c s)
    · exact there
  · rw [goes_caller] at there
    split at there
    · rename_i here
      exact here ▸ works a there
    · exact there

-- A caller that waits, builds or gets the agent of a slot of its conversation.
theorem Calm.reach (calm : Calm w home) {conversation : String} {slot : Nat}
    (here : slot < w.manager.slotCount ∧ home slot = conversation)
    (free : ∀ agent, (w.manager.slots slot).agent = some agent → ∀ a, (conversation,a) ∉ w.scheduled) :
    Calm (w.reach w.manager n conversation slot) home := by
  obtain ⟨housed,decided⟩ := calm
  unfold World.reach
  split
  · rename_i agent permit inside
    have within : (w.manager.slots slot).agent = some agent := by rw [inside]
    obtain ⟨-,made,lives⟩ := housed.filled slot agent within
    refine ⟨⟨housed.mapped,fun k c s there => ?_,fun k c s there => ?_,housed.filled⟩,fun c a member => ?_⟩
    · rw [goes_caller] at there
      split at there
      · cases there
      · exact housed.waiting k c s there
    · rw [goes_caller] at there
      split at there
      · cases there
      · exact housed.building k c s there
    · obtain ⟨known,unused,only⟩ := decided c a member
      refine ⟨known,fun k works => ?_,only⟩
      rw [goes_caller] at works
      split at works
      · -- The agent it gets is of another conversation than the one decided on.
        have same : agent = a := works
        subst same
        have id : c = conversation := known.2.symm.trans (lives.trans here.2)
        subst id
        exact free agent within agent member
      · exact unused k works
  · refine ⟨⟨housed.mapped,fun k c s there => ?_,fun k c s there => ?_,housed.filled⟩,fun c a member => ?_⟩
    · rw [goes_caller] at there
      split at there
      · cases there
        exact here
      · exact housed.waiting k c s there
    · rw [goes_caller] at there
      split at there
      · cases there
      · exact housed.building k c s there
    · obtain ⟨known,unused,only⟩ := decided c a member
      refine ⟨known,fun k works => ?_,only⟩
      rw [goes_caller] at works
      split at works
      · exact works
      · exact unused k works
  · rename_i vacant
    have agents : ∀ s, ((w.manager.modifySlot slot ⟨none,true⟩).slots s).agent = (w.manager.slots s).agent := by
      intro s
      by_cases same : s = slot
      · subst same
        simp [WorkerTaskManager.modifySlot,vacant]
      · simp [WorkerTaskManager.modifySlot,same]
    refine ⟨⟨housed.mapped,fun k c s there => ?_,fun k c s there => ?_,fun s a inside => ?_⟩,fun c a member => ?_⟩
    · rw [goes_caller] at there
      split at there
      · cases there
      · exact housed.waiting k c s there
    · rw [goes_caller] at there
      split at there
      · cases there
        exact here
      · exact housed.building k c s there
    · exact housed.filled s a ((agents s).symm.trans inside)
    · obtain ⟨known,unused,only⟩ := decided c a member
      refine ⟨known,fun k works => ?_,fun s o found inside => only s o found ((agents s).symm.trans inside)⟩
      rw [goes_caller] at works
      split at works
      · exact works
      · exact unused k works

theorem Calm.entry (calm : Calm w home) (conversation : String) :
    ∃ home, Calm { w with manager := (w.manager.entry conversation).1 } home ∧
      (w.manager.entry conversation).2 < (w.manager.entry conversation).1.slotCount ∧
      home (w.manager.entry conversation).2 = conversation := by
  obtain ⟨housed,decided⟩ := calm
  unfold WorkerTaskManager.entry
  split
  · rename_i slot found
    obtain ⟨below,at_home⟩ := housed.mapped conversation slot found
    exact ⟨home,⟨housed,decided⟩,below,at_home⟩
  · rename_i absent
    have known : ∀ {slot conversation'}, slot < w.manager.slotCount ∧ home slot = conversation' →
        slot < w.manager.slotCount + 1 ∧ Function.update home w.manager.slotCount conversation slot = conversation' := by
      intro slot conversation' ⟨below,at_home⟩
      exact ⟨Nat.lt_succ_of_lt below,by rw [Function.update_of_ne (Nat.ne_of_lt below)]; exact at_home⟩
    refine ⟨Function.update home w.manager.slotCount conversation,⟨⟨fun c s found => ?_,fun k c s there => ?_,
      fun k c s there => ?_,fun s a inside => ?_⟩,fun c a member => ?_⟩,Nat.lt_succ_self _,by simp⟩
    · simp only [lookup_insert_eq] at found
      split at found
      · rename_i same
        cases found
        exact ⟨Nat.lt_succ_self _,by simp [same]⟩
      · exact known (housed.mapped c s found)
    · exact known (housed.waiting k c s there)
    · exact known (housed.building k c s there)
    · by_cases same : s = w.manager.slotCount
      · subst same
        simp at inside
      · simp only [Function.update_of_ne same] at inside
        obtain ⟨below,made,lives⟩ := housed.filled s a inside
        exact ⟨Nat.lt_succ_of_lt below,made,by simp only [Function.update_of_ne same]; exact lives⟩
    · obtain ⟨made,unused,only⟩ := decided c a member
      refine ⟨made,unused,fun s o found inside => ?_⟩
      simp only [lookup_insert_eq] at found
      split at found
      · cases found
        simp at inside
      · have old := (housed.mapped c s found).1
        simp only [Function.update_of_ne (Nat.ne_of_lt old)] at inside
        exact only s o found inside

theorem Calm.built (calm : Calm w home) {conversation : String} {slot : Nat}
    (building : w.callers n = .building conversation slot) (free : ∀ a, (conversation,a) ∉ w.scheduled) (agentType : AgentType) :
    Calm (w.goes (w.manager.initialise conversation slot agentType) n (.holding w.manager.agentCount)) home := by
  obtain ⟨housed,decided⟩ := calm
  obtain ⟨below,at_home⟩ := housed.building n conversation slot building
  have slots : ∀ s, s ≠ slot → (w.manager.initialise conversation slot agentType).slots s = w.manager.slots s := by
    intro s other
    simp [WorkerTaskManager.initialise,WorkerTaskManager.modifySlot,other]
  have agents : ∀ a, a < w.manager.agentCount →
      (w.manager.initialise conversation slot agentType).agents a = w.manager.agents a := by
    intro a old
    simp [WorkerTaskManager.initialise,Nat.ne_of_lt old]
  refine ⟨⟨housed.mapped,fun k c s there => ?_,fun k c s there => ?_,fun s a inside => ?_⟩,fun c a member => ?_⟩
  · rw [goes_caller] at there
    split at there
    · cases there
    · exact housed.waiting k c s there
  · rw [goes_caller] at there
    split at there
    · cases there
    · exact housed.building k c s there
  · change s < w.manager.slotCount ∧ a < w.manager.agentCount + 1 ∧
      ((w.manager.initialise conversation slot agentType).agents a).conversation = home s
    by_cases same : s = slot
    · subst same
      have new : a = w.manager.agentCount := by
        simpa [World.goes,WorkerTaskManager.initialise,WorkerTaskManager.modifySlot] using inside.symm
      subst new
      exact ⟨below,Nat.lt_succ_self _,by simp [WorkerTaskManager.initialise,at_home]⟩
    · obtain ⟨counted,old,lives⟩ := housed.filled s a ((congrArg TaskSlot.agent (slots s same)).symm.trans inside)
      exact ⟨counted,Nat.lt_succ_of_lt old,by rw [agents a old]; exact lives⟩
  · obtain ⟨⟨old,lives⟩,unused,only⟩ := decided c a member
    refine ⟨⟨Nat.lt_succ_of_lt old,?_⟩,fun k works => ?_,fun s o found inside => ?_⟩
    · change ((w.manager.initialise conversation slot agentType).agents a).conversation = c
      rw [agents a old]
      exact lives
    · rw [goes_caller] at works
      split at works
      · have same : w.manager.agentCount = a := works
        exact Nat.lt_irrefl a (same ▸ old)
      · exact unused k works
    · have other : s ≠ slot := by
        rintro rfl
        have id : c = conversation := (housed.mapped c s found).2.symm.trans at_home
        subst id
        exact free a member
      exact only s o found ((congrArg TaskSlot.agent (slots s other)).symm.trans inside)

theorem Calm.failed (calm : Calm w home) (slot : Nat) :
    Calm (w.goes (w.manager.modifySlot slot ⟨none,false⟩) n .over) home := by
  obtain ⟨housed,decided⟩ := calm
  have before : ∀ {s a}, ((w.manager.modifySlot slot ⟨none,false⟩).slots s).agent = some a →
      (w.manager.slots s).agent = some a := by
    intro s a inside
    by_cases same : s = slot
    · subst same
      simp [WorkerTaskManager.modifySlot] at inside
    · simpa [WorkerTaskManager.modifySlot,same] using inside
  refine ⟨⟨housed.mapped,fun k c s there => ?_,fun k c s there => ?_,fun s a inside => housed.filled s a (before inside)⟩,
    fun c a member => ?_⟩
  · rw [goes_caller] at there
    split at there
    · cases there
    · exact housed.waiting k c s there
  · rw [goes_caller] at there
    split at there
    · cases there
    · exact housed.building k c s there
  · obtain ⟨known,unused,only⟩ := decided c a member
    refine ⟨known,fun k works => ?_,fun s o found inside => only s o found (before inside)⟩
    rw [goes_caller] at works
    split at works
    · exact works
    · exact unused k works

theorem Calm.step (calm : Calm w home) {action : Action} (apart : Apart w action) (enabled : step w action = some next) :
    ∃ home, Calm next home := by
  cases action with
  | getOrBuild n conversation =>
    simp only [AgentTasks.step] at enabled
    split at enabled
    · cases enabled
      obtain ⟨home,calm,here⟩ := calm.entry conversation
      exact ⟨home,calm.reach here fun agent inside a member => apart conversation a member ⟨rfl,by
        obtain ⟨slot,found,within⟩ := entry_inside inside
        exact ⟨slot,agent,found,within⟩⟩⟩
    · cases enabled
  | resume n =>
    simp only [AgentTasks.step] at enabled
    split at enabled
    · rename_i conversation slot waiting
      split at enabled
      · cases enabled
      · cases enabled
        have here := calm.housed.waiting n conversation slot waiting
        exact ⟨home,calm.reach here fun agent inside a member => apart conversation a member ⟨slot,agent,waiting,inside⟩⟩
    · cases enabled
  | built n agentType =>
    simp only [AgentTasks.step] at enabled
    split at enabled
    · rename_i conversation slot building
      cases enabled
      exact ⟨home,calm.built building (fun a member => apart conversation a member ⟨slot,building⟩) agentType⟩
    · cases enabled
  | failed n =>
    simp only [AgentTasks.step] at enabled
    split at enabled
    · rename_i conversation slot building
      cases enabled
      exact ⟨home,calm.failed slot⟩
    · cases enabled
  | forget n =>
    simp only [AgentTasks.step] at enabled
    split at enabled
    · cases enabled
      exact ⟨home,calm.moves (.refl _) (by rintro _ _ ⟨⟩) (by rintro _ _ ⟨⟩) fun _ => False.elim⟩
    · cases enabled
  | send n =>
    simp only [AgentTasks.step] at enabled
    split at enabled
    · rename_i agent holding
      have bumped := retains_modifyAgent w.manager agent (·.bumpActivity w.manager.now) fun _ => rfl
      have works : ∀ a, agent = a → (w.callers n).WorksOn a := by
        rintro a rfl
        rw [holding]
        rfl
      split at enabled
      · cases enabled
        exact ⟨home,calm.moves bumped (by rintro _ _ ⟨⟩) (by rintro _ _ ⟨⟩) works⟩
      · cases enabled
        exact ⟨home,calm.moves (bumped.trans (retains_modifyAgent _ agent _ fun _ => rfl)) (by rintro _ _ ⟨⟩) (by rintro _ _ ⟨⟩) works⟩
    · cases enabled
  | opened n =>
    simp only [AgentTasks.step] at enabled
    split at enabled
    · rename_i agent opening
      cases enabled
      refine ⟨home,calm.moves (retains_modifyAgent _ agent _ fun _ => rfl) (by rintro _ _ ⟨⟩) (by rintro _ _ ⟨⟩) fun a same => ?_⟩
      rw [opening]
      exact same
    · cases enabled
  | ended n =>
    simp only [AgentTasks.step] at enabled
    split at enabled
    · rename_i agent opening
      cases enabled
      exact ⟨home,calm.moves (retains_modifyAgent _ agent _ fun _ => rfl) (by rintro _ _ ⟨⟩) (by rintro _ _ ⟨⟩) fun _ => False.elim⟩
    · rename_i agent prompting
      cases enabled
      exact ⟨home,calm.moves (retains_modifyAgent _ agent _ fun _ => rfl) (by rintro _ _ ⟨⟩) (by rintro _ _ ⟨⟩) fun _ => False.elim⟩
    · cases enabled
  | activity agent =>
    cases enabled
    exact ⟨home,calm.manages (retains_modifyAgent _ agent (·.bumpActivity w.manager.now) fun _ => rfl) fun _ _ member => member⟩
  | kill conversation reason =>
    cases enabled
    exact ⟨home,calm.manages (retains_kill _ conversation reason) fun _ _ member => member⟩
  | killAndWait conversation reason =>
    cases enabled
    exact ⟨home,calm.manages (retains_kill _ conversation reason) fun _ _ member => member⟩
  | clear =>
    cases enabled
    exact ⟨home,calm.manages (retains_clear _) fun _ _ member => member⟩
  | scan idleThresholdMs =>
    cases enabled
    have housed := calm.housed
    refine ⟨home,⟨housed.mapped,housed.waiting,housed.building,housed.filled⟩,fun c a member => ?_⟩
    rcases List.mem_append.mp member with before | collected
    · obtain ⟨made,unused,only⟩ := calm.decided c a before
      exact ⟨made,unused,only⟩
    · obtain ⟨slot,found,inside⟩ := collectIdle_inside collected
      obtain ⟨-,made,lives⟩ := calm.housed.filled slot a inside
      refine ⟨⟨made,lives.trans (calm.housed.mapped c slot found).2⟩,apart c a collected,fun s o also within => ?_⟩
      cases found.symm.trans also
      exact Option.some.inj (within.symm.trans inside)
  | cleanup i =>
    simp only [AgentTasks.step] at enabled
    split at enabled
    · rename_i decided found
      cases enabled
      exact ⟨home,calm.manages (retains_kill _ decided.1 _) fun _ _ => List.mem_of_mem_eraseIdx⟩
    · cases enabled
  | tick ms =>
    cases enabled
    have later : Retains w.manager { w.manager with now := w.manager.now + ms } :=
      ⟨rfl,rfl,rfl,fun _ => rfl,fun _ _ found => found⟩
    exact ⟨home,calm.manages later fun _ _ member => member⟩

end Steps

section Runs
variable {now : Int} {actions : List Action} {final : World}

section Examples

-- One turn, and the agent idles until it is collected.
def firstTurn : List Action := [.getOrBuild 0 "c",.built 0 .acp,.send 0,.opened 0,.ended 0,.tick 1000]

end Examples

end Runs

end AlineaCopilot.AgentTasks
