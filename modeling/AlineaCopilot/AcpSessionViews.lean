import AlineaCopilot.AcpSessionIds
open AlineaCopilot.KeyedMaps AlineaCopilot.TransitionRuns

namespace AlineaCopilot.AcpSessions
open AcpSession

section Statements

-- The CLI stands where the user wants it.
structure Agrees (s : AcpSession) (cli : Cli) : Prop where
  mode : ∀ mode, s.desired.modeId = some mode → cli.mode = some mode
  model : ∀ model, s.desired.modelId = some model → cli.model = some model
  config : ∀ key value, s.desired.configSelections.lookup key = some value → cli.config.lookup key = some value

-- What the session takes from a report as the current values: the options of
-- earlier reports count again, a desired model the catalog lists comes before the
-- reported one, and after `session/load` the mode of the database does.
def catalog (s : AcpSession) (r : Report) : Option (List SessionConfigOption) :=
  r.configOptions.map (mergeConfigOptions s.advertised.configOptions)

def takesMode (s : AcpSession) (r : Report) : Option String :=
  (((catalog s r).bind deriveModesFromConfigOptions).or r.modes).map (·.currentModeId)

def takesModel (s : AcpSession) (r : Report) : Option String :=
  ((((catalog s r).bind deriveModelsFromConfigOptions).map s.preserveDesiredModelInCatalog).or r.models).map (·.currentModelId)

def takesConfig (s : AcpSession) (r : Report) (key : String) : Option String :=
  (currentValues ∅ ((catalog s r).getD [])).lookup key

-- A value that is taken though the report does not say it is the CLI's all the same.
structure Repeats (s : AcpSession) (taken reported : Report) (cli : Cli) : Prop where
  mode : ∀ mode, takesMode s taken = some mode → reported.mode ≠ some mode → cli.mode = some mode
  model : ∀ model, takesModel s taken = some model → reported.model ≠ some model → cli.model = some model
  config : ∀ key value, takesConfig s taken key = some value →
    (currentValues ∅ (reported.configOptions.getD [])).lookup key ≠ some value → cli.config.lookup key = some value

-- A value known from before, from the database or from the session that was
-- lost, and left out of the report is the CLI's too.
structure Keeps (s : AcpSession) (taken : Report) (cli : Cli) : Prop where
  mode : takesMode s taken = none → ∀ mode, s.observed.modeId = some mode → cli.mode = some mode
  model : takesModel s taken = none → ∀ model, s.observed.modelId = some model → cli.model = some model
  config : ∀ key, takesConfig s taken key = none →
    ∀ value, s.observed.configCurrent.lookup key = some value → cli.config.lookup key = some value

def silent : Report := ⟨none,none,none⟩

def Answered (s : AcpSession) (taken reported : Report) (cli : Cli) : Prop :=
  Repeats s taken reported (cli.reports reported) ∧ Keeps s taken (cli.reports reported)

variable (metadata : AgentMetadata)

def Within (m : Manager) : Event → Prop
  | .begin => m.session.sessionId.isSome → m.session.opened = false → metadata.sessionLoadViaMetaField = false →
      m.session.advertised.loadSession = false → m.opening = none → Keeps m.session silent m.cli
  | .reply (.opened _ report cli) =>
    match m.opening with
    | some .creating | some (.resuming _) => Answered m.session report report cli
    | some (.loading _ preloadedMode) => Answered m.session (report.withPreloadedMode preloadedMode) report cli
    | _ => True
  | .configOptionUpdate options => Answered m.session ⟨none,none,some options⟩ ⟨none,none,some options⟩ m.cli
  | _ => True

end Statements

section Values

@[simp] theorem emit_observed (s : AcpSession) (changed : Bool) (event : AcpSessionEvent) :
    (s.emit changed event).observed = s.observed := by
  unfold AcpSession.emit
  split <;> rfl

@[simp] theorem emit_desired (s : AcpSession) (changed : Bool) (event : AcpSessionEvent) :
    (s.emit changed event).desired = s.desired := by
  unfold AcpSession.emit
  split <;> rfl

@[simp] theorem emit_advertised (s : AcpSession) (changed : Bool) (event : AcpSessionEvent) :
    (s.emit changed event).advertised = s.advertised := by
  unfold AcpSession.emit
  split <;> rfl

-- What the options say comes over what was known.
theorem lookup_currentValues (known : KeyedMap String String) (options : List SessionConfigOption) (key : String) :
    (currentValues known options).lookup key = ((currentValues ∅ options).lookup key).or (known.lookup key) := by
  induction options using List.reverseRecOn with
  | nil => simp [currentValues]
  | append_singleton options o ih =>
    simp only [currentValues,List.foldl_append,List.foldl_cons,List.foldl_nil] at ih ⊢
    cases current : extractConfigCurrentValue o.kind with
    | none => exact ih
    | some value =>
      simp only [lookup_insert_eq]
      by_cases same : key = o.id
      · simp [same]
      · simp [same,ih]

theorem preserve_desired {other s : AcpSession} (same : other.desired = s.desired) (models : SessionModelState) :
    other.preserveDesiredModelInCatalog models = s.preserveDesiredModelInCatalog models := by
  simp only [preserveDesiredModelInCatalog,same]

@[simp] theorem advertisedModes_observed (s : AcpSession) (modes : SessionModeState) :
    (s.applyAdvertisedModes modes).observed = { s.observed with modeId := some modes.currentModeId } := by
  simp [applyAdvertisedModes]

@[simp] theorem advertisedModels_observed (s : AcpSession) (models : SessionModelState) :
    (s.applyAdvertisedModels models).observed = { s.observed with modelId := some models.currentModelId } := by
  simp [applyAdvertisedModels]

@[simp] theorem advertisedModes_desired (s : AcpSession) (modes : SessionModeState) :
    (s.applyAdvertisedModes modes).desired = s.desired := by simp [applyAdvertisedModes]

@[simp] theorem advertisedModels_desired (s : AcpSession) (models : SessionModelState) :
    (s.applyAdvertisedModels models).desired = s.desired := by simp [applyAdvertisedModels]

@[simp] theorem advertisedModes_options (s : AcpSession) (modes : SessionModeState) :
    (s.applyAdvertisedModes modes).advertised.configOptions = s.advertised.configOptions := by simp [applyAdvertisedModes]

@[simp] theorem advertisedModels_options (s : AcpSession) (models : SessionModelState) :
    (s.applyAdvertisedModels models).advertised.configOptions = s.advertised.configOptions := by simp [applyAdvertisedModels]

-- The values a session holds after a report: what it takes, else what it had.
structure Took (s : AcpSession) (r : Report) (after : AcpSession) : Prop where
  mode : after.observed.modeId = (takesMode s r).or s.observed.modeId
  model : after.observed.modelId = (takesModel s r).or s.observed.modelId
  config : ∀ key, after.observed.configCurrent.lookup key = (takesConfig s r key).or (s.observed.configCurrent.lookup key)

theorem takes_options (s : AcpSession) (options : List SessionConfigOption) :
    Took s ⟨none,none,some options⟩ (s.applyAdvertisedConfigOptions options) := by
  generalize merged : mergeConfigOptions s.advertised.configOptions options = all
  have listed : catalog s ⟨none,none,some options⟩ = some all := congrArg some merged
  constructor
  · simp only [takesMode,listed,Option.bind_some,Option.or_none,applyAdvertisedConfigOptions,emit_observed,merged]
    cases deriveModesFromConfigOptions all <;> cases deriveModelsFromConfigOptions all <;> simp
  · simp only [takesModel,listed,Option.bind_some,Option.or_none,applyAdvertisedConfigOptions,emit_observed,merged]
    cases deriveModesFromConfigOptions all <;> cases deriveModelsFromConfigOptions all <;>
      simp [preserve_desired (advertisedModes_desired s _)]
  · intro key
    simp only [takesConfig,listed,Option.getD_some,applyAdvertisedConfigOptions,emit_observed,merged]
    rw [lookup_currentValues]
    cases deriveModesFromConfigOptions all <;> cases deriveModelsFromConfigOptions all <;> simp

theorem takes_report (s : AcpSession) (r : Report) : Took s r (s.applyReport r) := by
  obtain ⟨models,modes,options⟩ := r
  generalize middle : s.applyReport ⟨models,modes,none⟩ = fields
  have desired : fields.desired = s.desired := by
    rw [← middle]
    cases models <;> cases modes <;> simp [AcpSession.applyReport]
  have earlier : fields.advertised.configOptions = s.advertised.configOptions := by
    rw [← middle]
    cases models <;> cases modes <;> simp [AcpSession.applyReport]
  have observed : fields.observed = ⟨(modes.map (·.currentModeId)).or s.observed.modeId,
      (models.map (·.currentModelId)).or s.observed.modelId,s.observed.configCurrent⟩ := by
    rw [← middle]
    cases models <;> cases modes <;> simp [AcpSession.applyReport]
  cases options with
  | none =>
    rw [middle]
    constructor <;> simp [observed,takesMode,takesModel,takesConfig,catalog,currentValues]
  | some options =>
    have whole : s.applyReport ⟨models,modes,some options⟩ = fields.applyAdvertisedConfigOptions options := by
      rw [← middle]
      rfl
    have listed : catalog fields ⟨none,none,some options⟩ = catalog s ⟨models,modes,some options⟩ := by
      simp only [catalog,earlier]
    have preserved : fields.preserveDesiredModelInCatalog = s.preserveDesiredModelInCatalog :=
      funext (preserve_desired desired)
    have took := takes_options fields options
    rw [whole]
    constructor
    · rw [took.mode,observed]
      simp only [takesMode,listed,Option.or_none,Option.map_or,Option.or_assoc]
    · rw [took.model,observed]
      simp only [takesModel,listed,preserved,Option.or_none,Option.map_or,Option.or_assoc]
    · intro key
      rw [took.config,observed]
      simp only [takesConfig,listed]

end Values

section Views
variable {metadata : AgentMetadata}

-- Every value the session believes the CLI to have, the CLI has.
structure Sees (o : Observed) (cli : Cli) : Prop where
  mode : ∀ mode, o.modeId = some mode → cli.mode = some mode
  model : ∀ model, o.modelId = some model → cli.model = some model
  config : ∀ key value, o.configCurrent.lookup key = some value → cli.config.lookup key = some value

theorem lookup_reports (cli : Cli) (r : Report) (key : String) :
    (cli.reports r).config.lookup key = ((currentValues ∅ (r.configOptions.getD [])).lookup key).or (cli.config.lookup key) :=
  lookup_currentValues _ _ _

theorem sees_answered {s after : AcpSession} {taken reported : Report} {cli : Cli} (took : Took s taken after)
    (answered : Answered s taken reported cli) : Sees after.observed (cli.reports reported) := by
  obtain ⟨repeats,keeps⟩ := answered
  constructor
  · intro mode held
    rw [took.mode] at held
    cases takes : takesMode s taken with
    | none => rw [takes,Option.none_or] at held; exact keeps.mode takes mode held
    | some value =>
      rw [takes,Option.some_or] at held
      cases held
      by_cases said : reported.mode = some mode
      · simp [Cli.reports,said]
      · exact repeats.mode mode takes said
  · intro model held
    rw [took.model] at held
    cases takes : takesModel s taken with
    | none => rw [takes,Option.none_or] at held; exact keeps.model takes model held
    | some value =>
      rw [takes,Option.some_or] at held
      cases held
      by_cases said : reported.model = some model
      · simp [Cli.reports,said]
      · exact repeats.model model takes said
  · intro key value held
    rw [took.config] at held
    cases takes : takesConfig s taken key with
    | none => rw [takes,Option.none_or] at held; exact keeps.config key takes value held
    | some current =>
      rw [takes,Option.some_or] at held
      cases held
      by_cases said : (currentValues ∅ (reported.configOptions.getD [])).lookup key = some value
      · rw [lookup_reports,said,Option.some_or]
      · exact repeats.config key value takes said

@[simp] theorem setSessionId_observed (s : AcpSession) (sid : String) : (s.setSessionId sid).observed = s.observed := by
  unfold AcpSession.setSessionId
  split <;> rfl

@[simp] theorem markOpened_observed (s : AcpSession) : s.markOpened.observed = s.observed := by
  unfold AcpSession.markOpened
  split <;> rfl

theorem noteModel_observed (metadata : AgentMetadata) (s : AcpSession) (model : String) :
    (s.noteModel metadata model).observed = s.observed := by
  unfold AcpSession.noteModel
  split <;> rfl

@[simp] theorem clearInvalidDesired_observed (s : AcpSession) : s.clearInvalidDesired.observed = s.observed := by
  have mode : s.clearInvalidDesiredMode.observed = s.observed := by
    unfold clearInvalidDesiredMode
    split
    · rfl
    · split <;> rfl
  rw [← mode]
  unfold AcpSession.clearInvalidDesired clearInvalidDesiredModel
  split
  · rfl
  · split <;> rfl

theorem sees_mode {s : AcpSession} {cli : Cli} (sees : Sees s.observed cli) (mode : String) :
    Sees (s.applyObservedMode mode).observed { cli with mode := some mode } := by
  simp only [applyObservedMode,emit_observed]
  exact ⟨fun _ held => held,sees.model,sees.config⟩

theorem sees_model {s : AcpSession} {cli : Cli} (sees : Sees s.observed cli) (model : String) :
    Sees (s.applyObservedModel model).observed { cli with model := some model } := by
  simp only [applyObservedModel,emit_observed]
  exact ⟨sees.mode,fun _ held => held,sees.config⟩

theorem sees_config {s : AcpSession} {cli : Cli} (sees : Sees s.observed cli) (key value : String) :
    Sees (s.applyObservedConfig key value).observed { cli with config := cli.config.insert key value } := by
  simp only [applyObservedConfig,emit_observed]
  refine ⟨sees.mode,sees.model,fun k v held => ?_⟩
  rw [lookup_insert_eq] at held ⊢
  by_cases same : k = key
  · rw [if_pos same] at held ⊢
    exact held
  · rw [if_neg same] at held ⊢
    exact sees.config k v held

def Sound (m : Manager) : Prop := m.attached = true → Sees m.session.observed m.cli

theorem Sound.performs {m after : Manager} {action : ReconcileAction} (sound : Sound m)
    (performed : m.performs metadata action = some after) : Sound after := by
  cases action with
  | setMode mode =>
    simp only [Manager.performs] at performed
    split at performed
    · cases performed
    · cases performed
      exact fun attached => sees_mode (sound attached) _
  | setModel model =>
    cases performed
    intro attached
    have sees := sees_model (sound attached) model
    rw [← noteModel_observed metadata] at sees
    exact sees
  | setConfigOption key value =>
    cases performed
    exact fun attached => sees_config (sound attached) key value

theorem Sound.begins {m : Manager} (sound : Sound m) (within : Within metadata m .begin) (idle : m.opening = none) :
    Sound (m.ensureSessionOpened metadata) := by
  unfold Manager.ensureSessionOpened
  cases known : m.session.sessionId with
  | none => exact sound
  | some sid =>
    dsimp only
    split
    · exact sound
    · rename_i fresh
      split
      · exact sound
      · rename_i noMeta
        split
        · exact sound
        · rename_i noLoad
          have keeps := within (by rw [known]; rfl) (by simpa using fresh) (by simpa using noMeta) (by simpa using noLoad) idle
          intro _
          have kept : Sees m.session.observed m.cli := by
            have nothing : ∀ key, takesConfig m.session silent key = none := fun _ => rfl
            exact ⟨keeps.mode rfl,keeps.model rfl,fun key => keeps.config key (nothing key)⟩
          simpa [Manager.setSessionId,Manager.commitSessionChanges,Manager.onSession,drainEvents] using kept

theorem Sound.answers {m : Manager} {report : Report} {cli : Cli} {taken : Report} (sid : String)
    (answered : Answered m.session taken report cli) :
    Sound ((m.opens taken (cli.reports report) sid).setSessionId sid) := by
  intro _
  have sees := sees_answered (takes_report m.session taken) answered
  simpa [Manager.setSessionId,Manager.onSession,Manager.opens] using sees

theorem Sound.replied {m next : Manager} {opening : Opening} {reply : Reply} (sound : Sound m)
    (within : Within metadata m (.reply reply)) (stage : m.opening = some opening)
    (went : m.replied opening reply = some next) : Sound next := by
  cases reply with
  | opened sid report cli =>
    simp only [Within,stage] at within
    cases opening with
    | creating => cases went; exact Sound.answers sid within
    | resuming => cases went; exact Sound.answers sid within
    | loading known preloadedMode => cases went; exact Sound.answers known within
    | planning => cases went
    | reconciling => cases went
  | sessionNotFound => cases opening <;> cases went <;> first | exact sound | exact fun attached => by cases attached
  | failed => cases opening <;> cases went <;> exact sound

theorem Sound.step {m next : Manager} {event : Event} (sound : Sound m) (within : Within metadata m event)
    (went : step metadata m event = some next) : Sound next := by
  cases event with
  | begin =>
    simp only [AcpSessions.step] at went
    split at went
    · rename_i idle
      cases went
      exact sound.begins within idle
    · cases went
  | reply reply =>
    simp only [AcpSessions.step,Option.bind_eq_some_iff] at went
    obtain ⟨opening,stage,went⟩ := went
    exact sound.replied within stage went
  | plan =>
    simp only [AcpSessions.step] at went
    split at went
    · cases went
      intro attached
      simpa [Manager.onSession] using sound attached
    · cases went
  | execute outcome =>
    simp only [AcpSessions.step] at went
    split at went
    · cases went
      cases outcome with
      | ok =>
        simp only [Manager.executed]
        cases performed : m.performs metadata _ with
        | none => exact sound
        | some after =>
          have kept : Sound after := sound.performs performed
          exact kept
      | sessionNotFound =>
        simp only [Manager.executed]
        split
        · exact sound
        · split
          · exact fun attached => by cases attached
          · exact sound
      | failed => exact sound
    · cases went
  | finish =>
    simp only [AcpSessions.step] at went
    split at went
    · cases went
      intro attached
      simpa [Manager.commitSessionChanges,Manager.onSession,drainEvents] using sound attached
    · cases went
  | prompt sid =>
    simp only [AcpSessions.step] at went
    split at went
    · cases went; exact sound
    · cases went
  | cancel =>
    cases went
    cases m.session.sessionId <;> exact sound
  | setMode mode ok =>
    simp only [AcpSessions.step] at went
    split at went
    · cases went
      cases ok with
      | false => exact sound
      | true =>
        intro attached
        have sees : Sees { m.session with desired := { m.session.desired with modeId := some (normalizeRequestedMode metadata mode) } }.observed
          m.cli := sound attached
        exact sees_mode sees _
    · cases went
  | setModel model ok =>
    simp only [AcpSessions.step] at went
    split at went
    · cases went
      cases ok with
      | false => exact sound
      | true =>
        intro attached
        have sees : Sees { m.session with desired := { m.session.desired with modelId := some model } }.observed m.cli := sound attached
        have confirmed := sees_model sees model
        rw [← noteModel_observed metadata] at confirmed
        exact confirmed
    · cases went
  | currentModeUpdate mode =>
    cases went
    exact fun attached => sees_mode (sound attached) mode
  | configOptionUpdate options =>
    cases went
    have sees := sees_answered (takes_options m.session options) within
    exact fun _ => sees
  | store =>
    simp only [AcpSessions.step] at went
    split at went
    · cases went; exact sound
    · cases went

-- Reconciling is for a session the CLI has opened, or is taken to have.
def Opening.reconciles : Opening → Prop
  | .planning _ _ | .reconciling _ _ _ => True
  | _ => False

structure OnOpen (m : Manager) : Prop where
  opened : m.session.opened = true → m.attached = true
  reconciles : ∀ stage, m.opening = some stage → stage.reconciles → m.attached = true

theorem OnOpen.edits {m : Manager} (on : OnOpen m) {f : AcpSession → AcpSession} (same : SameId m.session (f m.session)) (cli : Cli) :
    OnOpen { (m.onSession f).commitSessionChanges with cli } :=
  ⟨fun opened => on.opened (same.opened.symm.trans opened),on.reconciles⟩

theorem OnOpen.performs {m next : Manager} {action : ReconcileAction} (on : OnOpen m)
    (performed : m.performs metadata action = some next) : OnOpen next := by
  cases action with
  | setMode mode =>
    simp only [Manager.performs] at performed
    split at performed
    · cases performed
    · cases performed
      exact on.edits (sameId_observedMode _ _) _
  | setModel model =>
    cases performed
    have same := (sameId_observedModel m.session model).trans (sameId_noteModel metadata _ model)
    exact on.edits same _
  | setConfigOption key value =>
    cases performed
    exact on.edits (sameId_observedConfig _ _ _) _

theorem performs_stage {m next : Manager} {action : ReconcileAction} (performed : m.performs metadata action = some next) :
    next.opening = m.opening := by
  cases action with
  | setMode mode =>
    simp only [Manager.performs] at performed
    split at performed
    · cases performed
    · cases performed; rfl
  | setModel model => cases performed; rfl
  | setConfigOption key value => cases performed; rfl

theorem OnOpen.moves {m : Manager} (on : OnOpen m) (stage : Option Opening)
    (attached : ∀ current, stage = some current → current.reconciles → m.attached = true) : OnOpen { m with opening := stage } :=
  ⟨on.opened,attached⟩

theorem OnOpen.begins {m : Manager} (on : OnOpen m) : OnOpen (m.ensureSessionOpened metadata) := by
  unfold Manager.ensureSessionOpened
  cases known : m.session.sessionId with
  | none => exact on.moves _ fun _ at_ goes => by cases at_; cases goes
  | some sid =>
    dsimp only
    split
    · rename_i opened
      exact on.moves _ fun _ _ _ => on.opened opened
    · split
      · exact on.moves _ fun _ at_ goes => by cases at_; cases goes
      · split
        · exact on.moves _ fun _ at_ goes => by cases at_; cases goes
        · exact ⟨fun _ => rfl,fun _ _ _ => rfl⟩

theorem OnOpen.replied {m next : Manager} {opening : Opening} {reply : Reply} (on : OnOpen m)
    (went : m.replied opening reply = some next) : OnOpen next := by
  have closed : OnOpen { m with opening := none } := on.moves _ (by rintro _ ⟨⟩)
  have rebuilt : OnOpen m.rebuildAfterSessionNotFound :=
    ⟨fun opened => (by cases opened),fun stage at_ goes => (by cases at_; cases goes)⟩
  cases reply with
  | opened sid report cli => cases opening <;> cases went <;> exact ⟨fun _ => rfl,fun _ _ _ => rfl⟩
  | sessionNotFound =>
    cases opening with
    | creating => cases went; exact closed
    | resuming => cases went; exact rebuilt
    | loading => cases went; exact rebuilt
    | planning => cases went
    | reconciling => cases went
  | failed => cases opening <;> cases went <;> exact closed

theorem OnOpen.step {m next : Manager} {event : Event} (on : OnOpen m) (went : step metadata m event = some next) : OnOpen next := by
  cases event with
  | begin =>
    simp only [AcpSessions.step] at went
    split at went
    · cases went; exact on.begins
    · cases went
  | reply reply =>
    simp only [AcpSessions.step,Option.bind_eq_some_iff] at went
    obtain ⟨opening,_,went⟩ := went
    exact on.replied went
  | plan =>
    simp only [AcpSessions.step] at went
    split at went
    · rename_i current
      cases went
      have attached := on.reconciles _ current trivial
      exact ⟨fun _ => attached,fun _ _ _ => attached⟩
    · cases went
  | execute outcome =>
    simp only [AcpSessions.step] at went
    split at went
    · rename_i current
      cases went
      have attached := on.reconciles _ current trivial
      have onward : ∀ stage, OnOpen { m with opening := stage } := fun stage => on.moves stage fun _ _ _ => attached
      cases outcome with
      | ok =>
        simp only [Manager.executed]
        cases performed : m.performs metadata _ with
        | none => exact onward _
        | some after =>
          have kept := on.performs performed
          exact kept.moves _ fun _ _ _ => kept.reconciles _ ((performs_stage performed).trans current) trivial
      | sessionNotFound =>
        simp only [Manager.executed]
        split
        · exact onward _
        · split
          · exact ⟨fun opened => (by cases opened),fun stage at_ goes => (by cases at_; cases goes)⟩
          · exact on.moves _ (by rintro _ ⟨⟩)
      | failed => exact onward _
    · cases went
  | finish =>
    simp only [AcpSessions.step] at went
    split at went
    · rename_i current
      cases went
      exact ⟨fun _ => on.reconciles _ current trivial,by rintro _ ⟨⟩⟩
    · cases went
  | prompt sid =>
    simp only [AcpSessions.step] at went
    split at went
    · cases went; exact ⟨on.opened,on.reconciles⟩
    · cases went
  | cancel =>
    cases went
    cases m.session.sessionId <;> exact ⟨on.opened,on.reconciles⟩
  | setMode mode ok =>
    simp only [AcpSessions.step] at went
    split at went
    · cases went
      cases ok with
      | false => exact on
      | true =>
        have same := sameId_confirmMode m.session (normalizeRequestedMode metadata mode)
        exact OnOpen.edits (f := (·.confirmMode (normalizeRequestedMode metadata mode))) on same _
    · cases went
  | setModel model ok =>
    simp only [AcpSessions.step] at went
    split at went
    · cases went
      cases ok with
      | false => exact on
      | true =>
        have same := (sameId_confirmModel m.session model).trans (sameId_noteModel metadata _ model)
        exact OnOpen.edits (f := fun s => (s.confirmModel model).noteModel metadata model) on same _
    · cases went
  | currentModeUpdate mode =>
    cases went
    exact on.edits (sameId_observedMode _ _) _
  | configOptionUpdate options =>
    cases went
    exact on.edits (sameId_advertisedOptions _ _) _
  | store =>
    simp only [AcpSessions.step] at went
    split at went
    · cases went; exact ⟨on.opened,on.reconciles⟩
    · cases went

def planned : PersistedSessionState := ⟨some "plan",some "opus",∅⟩

def resumed : AcpSessionParams := ⟨⟨some "opencode",none,false,false⟩,some planned,none,none,true,some "s1"⟩

def fresh : AcpSessionParams := ⟨⟨some "codex",none,false,false⟩,none,none,some "opus",true,none⟩

end Views

end AlineaCopilot.AcpSessions
