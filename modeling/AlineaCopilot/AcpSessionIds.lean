import AlineaCopilot.AcpSessionFlow
open AlineaCopilot.TransitionRuns

namespace AlineaCopilot.AcpSessions
open AcpSession

section Frames

-- Most operations leave the id alone, and say nothing of it.
structure SameId (s after : AcpSession) : Prop where
  id : after.sessionId = s.sessionId
  opened : after.opened = s.opened
  events : after.pendingEvents.filterMap AcpSessionEvent.assignedId = s.pendingEvents.filterMap AcpSessionEvent.assignedId

theorem SameId.refl (s : AcpSession) : SameId s s := ⟨rfl,rfl,rfl⟩

theorem SameId.trans {s middle after : AcpSession} (first : SameId s middle) (second : SameId middle after) : SameId s after :=
  ⟨second.id.trans first.id,second.opened.trans first.opened,second.events.trans first.events⟩

theorem SameId.emits {s after : AcpSession} (same : SameId s after) (changed : Bool) {event : AcpSessionEvent}
    (other : event.assignedId = none) : SameId s (after.emit changed event) := by
  unfold AcpSession.emit
  split
  · exact ⟨same.id,same.opened,by simp [List.filterMap_append,other,same.events]⟩
  · exact same

theorem sameId_observedMode (s : AcpSession) (mode : String) : SameId s (s.applyObservedMode mode) := by
  unfold applyObservedMode
  apply SameId.emits
  · exact ⟨rfl,rfl,rfl⟩
  · rfl

theorem sameId_observedModel (s : AcpSession) (model : String) : SameId s (s.applyObservedModel model) := by
  unfold applyObservedModel
  apply SameId.emits
  · exact ⟨rfl,rfl,rfl⟩
  · rfl

theorem sameId_observedConfig (s : AcpSession) (key value : String) : SameId s (s.applyObservedConfig key value) := by
  unfold applyObservedConfig
  apply SameId.emits
  · exact ⟨rfl,rfl,rfl⟩
  · rfl

theorem sameId_advertisedModes (s : AcpSession) (modes : SessionModeState) : SameId s (s.applyAdvertisedModes modes) := by
  unfold applyAdvertisedModes
  apply SameId.emits
  · exact ⟨rfl,rfl,rfl⟩
  · rfl

theorem sameId_advertisedModels (s : AcpSession) (models : SessionModelState) : SameId s (s.applyAdvertisedModels models) := by
  unfold applyAdvertisedModels
  apply SameId.emits
  · exact ⟨rfl,rfl,rfl⟩
  · rfl

theorem SameId.holds {s middle : AcpSession} (same : SameId s middle) (observed : Observed) (advertised : Advertised) :
    SameId s { middle with observed, advertised } := ⟨same.id,same.opened,same.events⟩

theorem sameId_advertisedOptions (s : AcpSession) (options : List SessionConfigOption) :
    SameId s (s.applyAdvertisedConfigOptions options) := by
  unfold applyAdvertisedConfigOptions
  dsimp only
  apply SameId.emits
  · apply SameId.holds
    cases deriveModesFromConfigOptions (mergeConfigOptions s.advertised.configOptions options) with
    | none =>
      cases deriveModelsFromConfigOptions (mergeConfigOptions s.advertised.configOptions options) with
      | none => exact SameId.refl s
      | some models => exact sameId_advertisedModels s _
    | some modes =>
      have first := sameId_advertisedModes s modes
      cases deriveModelsFromConfigOptions (mergeConfigOptions s.advertised.configOptions options) with
      | none => exact first
      | some models => exact first.trans (sameId_advertisedModels _ _)
  · rfl

theorem sameId_report (s : AcpSession) (r : Report) : SameId s (s.applyReport r) := by
  obtain ⟨models,modes,options⟩ := r
  have fields : SameId s (s.applyReport ⟨models,modes,none⟩) := by
    cases models with
    | none =>
      cases modes with
      | none => exact SameId.refl s
      | some modes => exact sameId_advertisedModes s modes
    | some models =>
      have first := sameId_advertisedModels s models
      cases modes with
      | none => exact first
      | some modes => exact first.trans (sameId_advertisedModes _ modes)
  cases options with
  | none => exact fields
  | some options => exact fields.trans (sameId_advertisedOptions _ options)

theorem sameId_confirmMode (s : AcpSession) (mode : String) : SameId s (s.confirmMode mode) := by
  unfold confirmMode applyObservedMode
  apply SameId.emits
  · exact ⟨rfl,rfl,rfl⟩
  · rfl

theorem sameId_confirmModel (s : AcpSession) (model : String) : SameId s (s.confirmModel model) := by
  unfold confirmModel applyObservedModel
  apply SameId.emits
  · exact ⟨rfl,rfl,rfl⟩
  · rfl

theorem sameId_noteModel (metadata : AgentMetadata) (s : AcpSession) (model : String) : SameId s (s.noteModel metadata model) := by
  unfold AcpSession.noteModel
  split
  · exact ⟨rfl,rfl,rfl⟩
  · exact SameId.refl s

theorem sameId_clearInvalidDesired (s : AcpSession) : SameId s s.clearInvalidDesired := by
  have mode : SameId s s.clearInvalidDesiredMode := by
    unfold clearInvalidDesiredMode
    split
    · exact SameId.refl s
    · split
      · exact SameId.refl s
      · exact ⟨rfl,rfl,rfl⟩
  refine mode.trans ?_
  unfold AcpSession.clearInvalidDesired clearInvalidDesiredModel
  split
  · exact SameId.refl _
  · split
    · exact SameId.refl _
    · exact ⟨rfl,rfl,rfl⟩

end Frames

section Statements

-- The one answer that changes the id: a session resumed through `session/new`
-- comes back under another one.
def KeepsId (m : Manager) : Event → Prop
  | .reply (.opened sid _ _) => ∀ known, m.opening = some (.resuming known) → sid = known
  | _ => True

end Statements

section Ids
variable {metadata : AgentMetadata} {m next : Manager}

-- The id an opening that is under way works with. Only a new session has none.
def Opening.sessionId : Opening → Option String
  | .creating => none
  | .resuming sid | .loading sid _ | .planning sid _ | .reconciling sid _ _ => some sid

-- With a session that is open there is nothing left to do but to hand out its id.
def Opening.settled : Opening → Prop
  | .reconciling _ _ [] => True
  | _ => False

structure OneId (m : Manager) : Prop where
  known : ∀ sid, m.session.sessionId = some sid → m.accepted = some sid
  stored : ∀ sid, m.session.sessionId = some sid → (m.assigned.getLast?).or m.persisted = some sid
  opening : ∀ stage, m.opening = some stage → stage.sessionId = m.session.sessionId
  opened : m.session.opened = true → m.session.sessionId.isSome ∧ ∀ stage, m.opening = some stage → stage.settled
  handed : ∀ sid ∈ m.handed, m.session.opened = true ∧ m.session.sessionId = some sid
  drained : m.session.pendingEvents.filterMap AcpSessionEvent.assignedId = []
  sent : ∀ sent ∈ m.sent, sent.accepted = some sent.sessionId
  assigned : m.reassigned = false

theorem OneId.replaces (one : OneId m) {f : AcpSession → AcpSession} (same : SameId m.session (f m.session)) :
    OneId (m.onSession f) := by
  constructor
  · intro sid held
    exact one.known sid (same.id.symm.trans held)
  · intro sid held
    exact one.stored sid (same.id.symm.trans held)
  · intro stage current
    exact (one.opening stage current).trans same.id.symm
  · intro opened
    have before := one.opened (same.opened.symm.trans opened)
    exact ⟨(congrArg Option.isSome same.id).trans before.1,before.2⟩
  · intro sid held
    have before := one.handed sid held
    exact ⟨same.opened.trans before.1,same.id.trans before.2⟩
  · exact same.events.trans one.drained
  · exact one.sent
  · exact one.assigned

theorem OneId.commits (one : OneId m) : OneId m.commitSessionChanges := by
  refine ⟨one.known,fun sid held => ?_,one.opening,one.opened,one.handed,rfl,one.sent,one.assigned⟩
  have stored := one.stored sid held
  simpa [Manager.commitSessionChanges,one.drained] using stored

theorem OneId.edits (one : OneId m) {f : AcpSession → AcpSession} (same : SameId m.session (f m.session)) :
    OneId (m.onSession f).commitSessionChanges := (one.replaces same).commits

theorem OneId.confined (one : OneId m) (cli : Cli) (attached : Bool) : OneId { m with cli, attached } :=
  ⟨one.known,one.stored,one.opening,one.opened,one.handed,one.drained,one.sent,one.assigned⟩

theorem OneId.moves (one : OneId m) (stage : Opening) (same : stage.sessionId = m.session.sessionId)
    (settled : m.session.opened = true → stage.settled) : OneId { m with opening := some stage } := by
  refine ⟨one.known,one.stored,?_,?_,one.handed,one.drained,one.sent,one.assigned⟩
  · intro current at_
    cases at_
    exact same
  · intro opened
    refine ⟨(one.opened opened).1,?_⟩
    intro current at_
    cases at_
    exact settled opened

theorem OneId.gives_up (one : OneId m) : OneId { m with opening := none } := by
  refine ⟨one.known,one.stored,nofun,?_,one.handed,one.drained,one.sent,one.assigned⟩
  intro opened
  exact ⟨(one.opened opened).1,nofun⟩

theorem OneId.sends (one : OneId m) {sid : String} (known : m.session.sessionId = some sid) : OneId (m.send sid) := by
  refine ⟨one.known,one.stored,one.opening,one.opened,one.handed,one.drained,?_,one.assigned⟩
  intro sent member
  rcases List.mem_append.mp member with earlier | last
  · exact one.sent sent earlier
  · cases List.mem_singleton.mp last
    exact one.known sid known

-- A session that opens is not open yet, so no turn holds its id.
theorem OneId.fresh (one : OneId m) {stage : Opening} (current : m.opening = some stage) (busy : ¬stage.settled) :
    m.session.opened = false ∧ m.handed = [] := by
  have closed : m.session.opened = false := by
    by_contra opened
    exact busy ((one.opened (by simpa using opened)).2 stage current)
  refine ⟨closed,List.eq_nil_iff_forall_not_mem.mpr fun sid held => ?_⟩
  have opened := (one.handed sid held).1
  rw [closed] at opened
  cases opened

theorem OneId.rebuilds (one : OneId m) {stage : Opening} (current : m.opening = some stage) (busy : ¬stage.settled) :
    OneId m.rebuildAfterSessionNotFound := by
  obtain ⟨_,empty⟩ := one.fresh current busy
  constructor
  · intro sid held
    cases held
  · intro sid held
    cases held
  · intro opening at_
    cases at_
    rfl
  · intro opened
    cases opened
  · intro sid held
    rw [show m.rebuildAfterSessionNotFound.handed = m.handed from rfl,empty] at held
    cases held
  · rfl
  · exact one.sent
  · exact one.assigned

-- The aggregate takes the id the CLI goes by, unless it has it already.
theorem OneId.takes (one : OneId m) {stage : Opening} (current : m.opening = some stage) (busy : ¬stage.settled)
    {sid : String} (fits : m.session.sessionId = none ∨ m.session.sessionId = some sid) {s : AcpSession}
    (same : SameId m.session s) (cli : Cli) (prelude rebuilds : Bool) :
    OneId { (({ m with session := s, cli := cli, accepted := some sid, attached := true }.setSessionId sid).onSession
      fun s => { s with pendingSessionNewPrelude := prelude }).commitSessionChanges with
        opening := some (.planning sid rebuilds) } := by
  obtain ⟨closed,empty⟩ := one.fresh current busy
  have opened : s.opened = false := same.opened.trans closed
  have nothing : s.pendingEvents.filterMap AcpSessionEvent.assignedId = [] := same.events.trans one.drained
  rcases fits with absent | known
  · have id : s.sessionId = none := same.id.trans absent
    constructor
    · intro other held
      simpa [Manager.commitSessionChanges,Manager.onSession,Manager.setSessionId,AcpSession.setSessionId,id,drainEvents] using held
    · intro other held
      simpa [Manager.commitSessionChanges,Manager.onSession,Manager.setSessionId,AcpSession.setSessionId,id,drainEvents,
        List.filterMap_append,nothing,AcpSessionEvent.assignedId] using held
    · intro stage at_
      cases at_
      simp [Manager.commitSessionChanges,Manager.onSession,Manager.setSessionId,AcpSession.setSessionId,id,drainEvents,Opening.sessionId]
    · intro open_
      simp [Manager.commitSessionChanges,Manager.onSession,Manager.setSessionId,AcpSession.setSessionId,id,drainEvents,opened] at open_
    · intro other held
      have held : other ∈ m.handed := held
      rw [empty] at held
      cases held
    · rfl
    · exact one.sent
    · have kept := one.assigned
      simpa [Manager.commitSessionChanges,Manager.onSession,Manager.setSessionId,id] using kept
  · have id : s.sessionId = some sid := same.id.trans known
    constructor
    · intro other held
      simpa [Manager.commitSessionChanges,Manager.onSession,Manager.setSessionId,AcpSession.setSessionId,id,drainEvents] using held
    · intro other held
      have stored := one.stored sid known
      have other : sid = other := by
        simpa [Manager.commitSessionChanges,Manager.onSession,Manager.setSessionId,AcpSession.setSessionId,id,drainEvents] using held
      subst other
      simpa [Manager.commitSessionChanges,Manager.onSession,Manager.setSessionId,AcpSession.setSessionId,id,nothing] using stored
    · intro stage at_
      cases at_
      simp [Manager.commitSessionChanges,Manager.onSession,Manager.setSessionId,AcpSession.setSessionId,id,drainEvents,Opening.sessionId]
    · intro open_
      simp [Manager.commitSessionChanges,Manager.onSession,Manager.setSessionId,AcpSession.setSessionId,id,drainEvents,opened] at open_
    · intro other held
      have held : other ∈ m.handed := held
      rw [empty] at held
      cases held
    · rfl
    · exact one.sent
    · have kept := one.assigned
      simpa [Manager.commitSessionChanges,Manager.onSession,Manager.setSessionId,id] using kept

theorem OneId.begins (one : OneId m) : OneId (m.ensureSessionOpened metadata) := by
  unfold Manager.ensureSessionOpened
  cases known : m.session.sessionId with
  | none =>
    refine one.moves .creating known.symm fun opened => ?_
    have some_ := (one.opened opened).1
    rw [known] at some_
    cases some_
  | some sid =>
    dsimp only
    split
    · exact one.moves _ known.symm fun _ => trivial
    · rename_i closed
      have fresh : ∀ stage : Opening, m.session.opened = true → stage.settled := fun _ opened => absurd opened closed
      split
      · exact one.moves _ known.symm (fresh _)
      · split
        · exact one.moves _ known.symm (fresh _)
        · have kept : m.setSessionId sid = m.onSession id := by
            simp [Manager.setSessionId,Manager.onSession,AcpSession.setSessionId,known]
          rw [kept]
          have settled : OneId (m.onSession id).commitSessionChanges := one.edits (SameId.refl _)
          exact (settled.moves (.planning sid true) known.symm (fresh _)).confined _ true

theorem OneId.replied (one : OneId m) {opening : Opening} {reply : Reply} (keeps : KeepsId m (.reply reply))
    (current : m.opening = some opening) (went : m.replied opening reply = some next) : OneId next := by
  have known := one.opening opening current
  cases reply with
  | opened sid report cli =>
    cases opening with
    | creating =>
      cases went
      exact one.takes current (fun settled => settled) (.inl known.symm) (sameId_report _ _) _ true false
    | resuming asked =>
      cases went
      cases keeps asked current
      exact one.takes current (fun settled => settled) (.inr known.symm) (sameId_report _ _) _
        (m.session.applyReport report |>.setSessionId sid).pendingSessionNewPrelude true
    | loading asked preloadedMode =>
      cases went
      exact one.takes current (fun settled => settled) (.inr known.symm) (sameId_report _ _) _
        (m.session.applyReport (report.withPreloadedMode preloadedMode) |>.setSessionId asked).pendingSessionNewPrelude true
    | planning => cases went
    | reconciling => cases went
  | sessionNotFound =>
    cases opening with
    | creating => cases went; exact one.gives_up
    | resuming => cases went; exact one.rebuilds current fun settled => settled
    | loading => cases went; exact one.rebuilds current fun settled => settled
    | planning => cases went
    | reconciling => cases went
  | failed =>
    cases opening with
    | creating => cases went; exact one.gives_up
    | resuming => cases went; exact one.gives_up
    | loading => cases went; exact one.gives_up
    | planning => cases went
    | reconciling => cases went

theorem OneId.performs (one : OneId m) {action : ReconcileAction} (performed : m.performs metadata action = some next) :
    OneId next := by
  cases action with
  | setMode mode =>
    simp only [Manager.performs] at performed
    split at performed
    · cases performed
    · cases performed
      exact (one.edits (sameId_observedMode _ _)).confined _ m.attached
  | setModel model =>
    cases performed
    have same := (sameId_observedModel m.session model).trans (sameId_noteModel metadata _ model)
    exact (one.edits same).confined _ m.attached
  | setConfigOption key value =>
    cases performed
    exact (one.edits (sameId_observedConfig _ _ _)).confined _ m.attached

theorem performs_opening {action : ReconcileAction} (performed : m.performs metadata action = some next) :
    next.session.sessionId = m.session.sessionId ∧ next.session.opened = m.session.opened := by
  cases action with
  | setMode mode =>
    simp only [Manager.performs] at performed
    split at performed
    · cases performed
    · cases performed
      have same := sameId_observedMode m.session (normalizeRequestedMode metadata mode)
      exact ⟨same.id,same.opened⟩
  | setModel model =>
    cases performed
    have same := (sameId_observedModel m.session model).trans (sameId_noteModel metadata _ model)
    exact ⟨same.id,same.opened⟩
  | setConfigOption key value =>
    cases performed
    have same := sameId_observedConfig m.session key value
    exact ⟨same.id,same.opened⟩

theorem OneId.executed (one : OneId m) {sid : String} {rebuilds : Bool} {action : ReconcileAction} {rest : List ReconcileAction}
    (current : m.opening = some (.reconciling sid rebuilds (action :: rest))) (outcome : Outcome) :
    OneId (m.executed metadata sid rebuilds action rest outcome) := by
  have known := one.opening _ current
  have busy : ¬(Opening.reconciling sid rebuilds (action :: rest)).settled := fun settled => settled
  have closed := (one.fresh current busy).1
  have onward : OneId { m with opening := some (.reconciling sid rebuilds rest) } :=
    one.moves _ known fun opened => by rw [closed] at opened; cases opened
  cases outcome with
  | ok =>
    simp only [Manager.executed]
    cases performed : m.performs metadata action with
    | none => exact onward
    | some after =>
      obtain ⟨id,open_⟩ := performs_opening performed
      refine OneId.moves (one.performs performed) _ (known.trans id.symm) fun opened => ?_
      have before := open_.symm.trans opened
      rw [closed] at before
      cases before
  | sessionNotFound =>
    simp only [Manager.executed]
    split
    · exact onward
    · split
      · exact one.rebuilds current busy
      · exact one.gives_up
  | failed => exact onward

theorem OneId.finishes (one : OneId m) {sid : String} {rebuilds : Bool} (current : m.opening = some (.reconciling sid rebuilds [])) :
    OneId { (m.onSession AcpSession.markOpened).commitSessionChanges with opening := none, handed := m.handed ++ [sid] } := by
  have known : m.session.sessionId = some sid := (one.opening _ current).symm
  have id : m.session.markOpened.sessionId = some sid := by
    unfold AcpSession.markOpened
    split <;> exact known
  have opened : m.session.markOpened.opened = true := by
    unfold AcpSession.markOpened
    split
    · assumption
    · rfl
  have nothing : m.session.markOpened.pendingEvents.filterMap AcpSessionEvent.assignedId = [] := by
    have before := one.drained
    unfold AcpSession.markOpened
    split
    · exact before
    · simpa [AcpSessionEvent.assignedId] using before
  constructor
  · intro other held
    exact one.known other (known.trans (id.symm.trans held))
  · intro other held
    have stored := one.stored other (known.trans (id.symm.trans held))
    simpa [Manager.commitSessionChanges,Manager.onSession,nothing] using stored
  · nofun
  · intro _
    exact ⟨congrArg Option.isSome id,nofun⟩
  · intro other held
    refine ⟨opened,id.trans ?_⟩
    rcases List.mem_append.mp held with earlier | last
    · exact known.symm.trans (one.handed other earlier).2
    · rw [List.mem_singleton.mp last]
  · rfl
  · exact one.sent
  · exact one.assigned

theorem OneId.step (one : OneId m) {event : Event} (keeps : KeepsId m event) (went : step metadata m event = some next) :
    OneId next := by
  cases event with
  | begin =>
    simp only [AcpSessions.step] at went
    split at went
    · cases went; exact one.begins
    · cases went
  | reply reply =>
    simp only [AcpSessions.step,Option.bind_eq_some_iff] at went
    obtain ⟨opening,current,went⟩ := went
    exact one.replied keeps current went
  | plan =>
    simp only [AcpSessions.step] at went
    split at went
    · rename_i sid rebuilds current
      cases went
      have same := sameId_clearInvalidDesired m.session
      have closed := (one.fresh current fun settled => settled).1
      refine (one.replaces same).moves _ ((one.opening _ current).trans same.id.symm) fun opened => ?_
      have before := same.opened.symm.trans opened
      rw [closed] at before
      cases before
    · cases went
  | execute outcome =>
    simp only [AcpSessions.step] at went
    split at went
    · rename_i current
      cases went
      exact one.executed current outcome
    · cases went
  | finish =>
    simp only [AcpSessions.step] at went
    split at went
    · rename_i current
      cases went
      exact one.finishes current
    · cases went
  | prompt sid =>
    simp only [AcpSessions.step] at went
    split at went
    · rename_i held
      cases went
      have sends := one.sends (one.handed sid held).2
      exact ⟨sends.known,sends.stored,sends.opening,sends.opened,fun other member => sends.handed other (List.mem_of_mem_erase member),
        sends.drained,sends.sent,sends.assigned⟩
    · cases went
  | cancel =>
    cases went
    cases known : m.session.sessionId with
    | none => exact one
    | some sid => exact one.sends known
  | setMode mode ok =>
    simp only [AcpSessions.step] at went
    split at went
    · cases went
      cases ok with
      | false => exact one
      | true =>
        have same := sameId_confirmMode m.session (normalizeRequestedMode metadata mode)
        have confirmed := OneId.edits (f := (·.confirmMode (normalizeRequestedMode metadata mode))) one same
        exact confirmed.confined _ m.attached
    · cases went
  | setModel model ok =>
    simp only [AcpSessions.step] at went
    split at went
    · cases went
      cases ok with
      | false => exact one
      | true =>
        have same := (sameId_confirmModel m.session model).trans (sameId_noteModel metadata _ model)
        have confirmed := OneId.edits (f := fun s => (s.confirmModel model).noteModel metadata model) one same
        exact confirmed.confined _ m.attached
    · cases went
  | currentModeUpdate mode =>
    cases went
    exact (one.edits (sameId_observedMode _ _)).confined _ m.attached
  | configOptionUpdate options =>
    cases went
    exact (one.edits (sameId_advertisedOptions _ _)).confined _ m.attached
  | store =>
    simp only [AcpSessions.step] at went
    split at went
    · rename_i sid rest waiting
      cases went
      refine ⟨one.known,fun other held => ?_,one.opening,one.opened,one.handed,one.drained,one.sent,one.assigned⟩
      have stored := one.stored other held
      rw [waiting] at stored
      cases rest with
      | nil => exact stored
      | cons later rest =>
        rw [List.getLast?_cons_cons] at stored
        rw [← stored,List.getLast?_cons]
        rfl
    · cases went

theorem preloaded_blank {s : AcpSession} (state : PersistedSessionState) :
    (s.preloadPersisted state).sessionId = s.sessionId ∧ (s.preloadPersisted state).opened = s.opened := by
  obtain ⟨mode,model,config⟩ := state
  unfold preloadPersisted
  cases mode <;> cases model <;> dsimp only <;> split <;> exact ⟨rfl,rfl⟩

theorem prepared_blank (params : AcpSessionParams) :
    (prepared params).sessionId = none ∧ (prepared params).opened = false ∧ (prepared params).pendingEvents = [] := by
  unfold prepared
  cases params.sessionSnapshot with
  | none => exact ⟨rfl,rfl,rfl⟩
  | some snapshot =>
    obtain ⟨id,opened⟩ := preloaded_blank (s := AcpSession.new (initialModeFromParams params) (initialModelFromParams params)
      (((some snapshot).map (·.configSelections)).getD ∅)) snapshot
    exact ⟨id,opened,rfl⟩

theorem one_start (params : AcpSessionParams) (cli : Cli) : OneId (start params cli) := by
  obtain ⟨absent,closed,nothing⟩ := prepared_blank params
  cases restored : params.sessionId with
  | none =>
    have session : (start params cli).session = prepared params := by simp [start,built,restored]
    refine ⟨fun sid held => ?_,fun sid held => ?_,nofun,fun opened => ?_,nofun,?_,nofun,rfl⟩
    · rw [session,absent] at held; cases held
    · rw [session,absent] at held; cases held
    · rw [session,closed] at opened; cases opened
    · rw [session,nothing]; rfl
  | some sid =>
    have session : (start params cli).session = ((prepared params).setSessionId sid).drainEvents := by simp [start,built,restored]
    have id : ((prepared params).setSessionId sid).drainEvents.sessionId = some sid := by
      simp [AcpSession.setSessionId,drainEvents,absent]
    have still : ((prepared params).setSessionId sid).drainEvents.opened = false := by
      simp [AcpSession.setSessionId,drainEvents,absent,closed]
    refine ⟨fun other held => ?_,fun other held => ?_,nofun,fun opened => ?_,nofun,?_,nofun,rfl⟩
    · rw [session,id] at held; exact restored.trans held
    · rw [session,id] at held; exact restored.trans held
    · rw [session,still] at opened; cases opened
    · rw [session]; rfl

-- Every prompt and every cancel goes out with the id the CLI gave or accepted
-- last; the session reports that id, and the database has it as soon as the write
-- on its way is done.
theorem one_session_id {params : AcpSessionParams} {cli : Cli} {events : List Event}
    (path : RunsWhere (step params.metadata) KeepsId (start params cli) events m) :
    (∀ sent ∈ m.sent, sent.accepted = some sent.sessionId) ∧
    (∀ sid, m.session.sessionId = some sid → m.accepted = some sid ∧ (m.assigned = [] → m.persisted = some sid)) ∧
    (m.session.opened = true → m.session.sessionId.isSome) ∧ m.reassigned = false := by
  have keeps : ∀ m event next, OneId m → KeepsId m event → step params.metadata m event = some next → OneId next :=
    fun _ _ _ one kept went => one.step kept went
  have one := path.invariant (one_start params cli) keeps
  refine ⟨one.sent,fun sid held => ⟨one.known sid held,fun written => ?_⟩,fun opened => (one.opened opened).1,one.assigned⟩
  have stored := one.stored sid held
  rw [written] at stored
  exact stored

def resumable (viaMeta : Bool) : AcpSessionParams :=
  ⟨⟨some "claude",none,viaMeta,true⟩,none,none,none,true,some "s1"⟩

def unsaid : Report := ⟨none,none,none⟩

def idle : Cli := ⟨none,none,∅⟩

-- Two turns on a session the CLI resumes under the id it is asked for.
theorem one_session_id_two_turns : ∃ m, Runs (step (resumable true).metadata) (start (resumable true) idle)
    [.begin,.reply (.opened "s1" unsaid idle),.plan,.finish,.prompt "s1",.begin,.finish,.prompt "s1",.cancel] m ∧
    m.sent = [⟨"s1",some "s1"⟩,⟨"s1",some "s1"⟩,⟨"s1",some "s1"⟩] ∧ ∀ sent ∈ m.sent, sent.accepted = some sent.sessionId := by
  have path : ∃ m, RunsWhere (step (resumable true).metadata) KeepsId (start (resumable true) idle)
      [.begin,.reply (.opened "s1" unsaid idle),.plan,.finish,.prompt "s1",.begin,.finish,.prompt "s1",.cancel] m ∧
      m.sent = [⟨"s1",some "s1"⟩,⟨"s1",some "s1"⟩,⟨"s1",some "s1"⟩] := by
    refine ⟨_,.cons trivial rfl (.cons (fun known at_ => ?_) rfl (.cons trivial rfl (.cons trivial rfl (.cons trivial rfl
      (.cons trivial rfl (.cons trivial rfl (.cons trivial rfl (.cons trivial rfl .nil)))))))),rfl⟩
    cases at_
    rfl
  obtain ⟨m,path,sent⟩ := path
  exact ⟨m,path.runs,sent,(one_session_id path).1⟩

-- The CLI answers with an id of its own. The first turn goes out under it, all
-- that follows under the old one, which is also what is reported and stored.
theorem resumed_under_other_id : ∃ m, Runs (step (resumable true).metadata) (start (resumable true) idle)
    [.begin,.reply (.opened "s2" unsaid idle),.plan,.finish,.prompt "s2",.begin,.finish,.prompt "s1",.cancel] m ∧
    m.sent = [⟨"s2",some "s2"⟩,⟨"s1",some "s2"⟩,⟨"s1",some "s2"⟩] ∧
    m.session.sessionId = some "s1" ∧ m.accepted = some "s2" ∧ m.assigned = [] ∧ m.persisted = some "s1" ∧
    m.reassigned = true := ⟨_,exec_exact.mp rfl,rfl,rfl,rfl,rfl,rfl,rfl⟩

end Ids

end AlineaCopilot.AcpSessions
