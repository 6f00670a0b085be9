import AlineaCopilot.AcpSessionFlow

open AlineaCopilot.AcpSessions AlineaCopilot.KeyedMaps AlineaCopilot.TransitionRuns

namespace AlineaCopilot.AcpReconcile

section Reconciling
variable (metadata : AgentMetadata)

-- The call an action makes, with the value that goes to the CLI.
def callOf : ReconcileAction → Option ReconcileAction
  | .setMode mode =>
    let normalized := normalizeRequestedMode metadata mode
    if normalized = "" then none else some (.setMode normalized)
  | action => some action

-- One action whose call succeeds; without a mode to send there is no call.
def performed (m : Manager) (action : ReconcileAction) : Manager := (m.performs metadata action).getD m

def planned (m : Manager) : Manager := m.onSession AcpSession.clearInvalidDesired

-- `reconcile_session` where every call succeeds: both sides afterwards, and the calls.
def reconcileSession (m : Manager) : Manager × List ReconcileAction :=
  let actions := (planned m).session.planReconcile
  (actions.foldl (performed metadata) (planned m),actions.filterMap (callOf metadata))

-- An option of a kind or a shape that the code does not know lists nothing that could
-- be compared.
def Lists (option : SessionConfigOption) (value : String) : Prop :=
  match option.kind with
  | .select _ options => options = .unknown ∨ value ∈ options.flatten
  | .other => True

-- The advertised catalog, where there is one, contains the value of a call.
def Offered (s : AcpSession) : ReconcileAction → Prop
  | .setMode mode => s.isModeValid mode = true
  | .setModel model => s.isModelValid model = true
  | .setConfigOption key value => ∀ options, s.advertised.configOptions = some options → ∃ o ∈ options, o.id = key ∧ Lists o value

structure Converges (m : Manager) : Prop where
  settled : (reconcileSession metadata m).1.session.planReconcile = []
  offered : ∀ call ∈ (reconcileSession metadata m).2, Offered m.session call
  held : ∀ mode, (reconcileSession metadata m).1.session.desired.modeId = some mode →
    (reconcileSession metadata m).1.cli.mode = some (normalizeRequestedMode metadata mode)

-- The desired mode that the catalog admits is observed and held by the CLI as what it
-- is normalised to, or it is sent as it stands; and every selection that is not yet
-- observed is one the catalog contains.
structure Straight (m : Manager) : Prop where
  mode : ∀ mode, m.session.desired.modeId = some mode → m.session.isModeValid mode = true →
    if m.session.observed.modeId = some mode then m.cli.mode = some (normalizeRequestedMode metadata mode)
    else normalizeRequestedMode metadata mode = mode ∧ mode ≠ ""
  config : ∀ key value, m.session.desired.configSelections.lookup key = some value →
    m.session.observed.configCurrent.lookup key ≠ some value → Offered m.session (.setConfigOption key value)

end Reconciling

section Effects
variable {metadata : AgentMetadata} {m : Manager} {mode model key value : String}

theorem emit_fields (s : AcpSession) (changed : Bool) (event : AcpSessionEvent) :
    (s.emit changed event).desired = s.desired ∧ (s.emit changed event).observed = s.observed := by
  unfold AcpSession.emit
  split <;> exact ⟨rfl,rfl⟩

theorem noteModel_fields (s : AcpSession) (model : String) :
    (s.noteModel metadata model).desired = s.desired ∧ (s.noteModel metadata model).observed = s.observed := by
  unfold AcpSession.noteModel
  split <;> exact ⟨rfl,rfl⟩

-- What one call changes of the two sides, as far as planning and the mode go.
structure Changes (m after : Manager) (observed : Observed) (mode : Option String) : Prop where
  desired : after.session.desired = m.session.desired
  observed : after.session.observed = observed
  cli : after.cli.mode = mode

theorem setMode_changes (sends : normalizeRequestedMode metadata mode ≠ "") :
    Changes m (performed metadata m (.setMode mode)) { m.session.observed with modeId := some (normalizeRequestedMode metadata mode) }
      (some (normalizeRequestedMode metadata mode)) := by
  have performs : performed metadata m (.setMode mode) =
      { (m.onSession (·.applyObservedMode (normalizeRequestedMode metadata mode))).commitSessionChanges with
        cli := { m.cli with mode := some (normalizeRequestedMode metadata mode) } } := by
    simp only [performed,Manager.performs,if_neg sends,Option.getD_some]
  rw [performs]
  exact ⟨(emit_fields _ _ _).1,(emit_fields _ _ _).2,rfl⟩

theorem setMode_skipped (blank : normalizeRequestedMode metadata mode = "") : performed metadata m (.setMode mode) = m := by
  simp only [performed,Manager.performs,if_pos blank,Option.getD_none]

theorem setModel_changes : Changes m (performed metadata m (.setModel model)) { m.session.observed with modelId := some model } m.cli.mode :=
  ⟨(noteModel_fields _ _).1.trans (emit_fields _ _ _).1,(noteModel_fields _ _).2.trans (emit_fields _ _ _).2,rfl⟩

theorem setConfig_changes : Changes m (performed metadata m (.setConfigOption key value))
    { m.session.observed with configCurrent := m.session.observed.configCurrent.insert key value } m.cli.mode :=
  ⟨(emit_fields _ _ _).1,(emit_fields _ _ _).2,rfl⟩

theorem setConfigs_changes (metadata : AgentMetadata) (entries : List (Sigma fun _ : String => String)) (m : Manager) :
    Changes m ((entries.map fun entry => ReconcileAction.setConfigOption entry.1 entry.2).foldl (performed metadata) m)
      { m.session.observed with
        configCurrent := entries.foldl (fun map entry => map.insert entry.1 entry.2) m.session.observed.configCurrent } m.cli.mode := by
  induction entries generalizing m with
  | nil => exact ⟨rfl,rfl,rfl⟩
  | cons entry rest ih =>
    have first : Changes m (performed metadata m (.setConfigOption entry.1 entry.2)) _ _ := setConfig_changes
    have later := ih (performed metadata m (.setConfigOption entry.1 entry.2))
    rw [List.map_cons,List.foldl_cons]
    refine ⟨later.desired.trans first.desired,?_,later.cli.trans first.cli⟩
    rw [later.observed,first.observed,List.foldl_cons]

end Effects

section Plans
variable {metadata : AgentMetadata} {m : Manager}

-- The three parts of a plan.
def modeActions (s : AcpSession) : List ReconcileAction :=
  ((s.desired.modeId.filter fun mode => s.observed.modeId ≠ some mode).map .setMode).toList

def modelActions (s : AcpSession) : List ReconcileAction :=
  ((s.desired.modelId.filter fun model => s.observed.modelId ≠ some model).map .setModel).toList

def unobserved (s : AcpSession) : List (Sigma fun _ : String => String) :=
  s.desired.configSelections.entries.filter fun entry => s.observed.configCurrent.lookup entry.1 ≠ some entry.2

theorem plan_parts (s : AcpSession) : s.planReconcile =
    modeActions s ++ modelActions s ++ (unobserved s).map fun entry => ReconcileAction.setConfigOption entry.1 entry.2 := rfl

-- A plan is empty when nothing that is desired is missing.
theorem plan_nil_iff (s : AcpSession) : s.planReconcile = [] ↔
    (∀ mode, s.desired.modeId = some mode → s.observed.modeId = some mode) ∧
    (∀ model, s.desired.modelId = some model → s.observed.modelId = some model) ∧
    ∀ key value, s.desired.configSelections.lookup key = some value → s.observed.configCurrent.lookup key = some value := by
  have optional : ∀ (desired observed : Option String) (wrap : String → ReconcileAction),
      ((desired.filter fun text => observed ≠ some text).map wrap).toList = [] ↔ ∀ text, desired = some text → observed = some text := by
    intro desired observed wrap
    cases desired with
    | none => exact iff_of_true rfl nofun
    | some text =>
      by_cases same : observed = some text
      · simp [Option.filter,same]
      · simp [Option.filter,same]
  rw [plan_parts,List.append_eq_nil_iff,List.append_eq_nil_iff,modeActions,modelActions,optional,optional,List.map_eq_nil_iff,and_assoc]
  refine and_congr_right fun _ => and_congr_right fun _ => ?_
  unfold unobserved
  rw [List.filter_eq_nil_iff]
  constructor
  · intro each key value desired
    simpa using each ⟨key,value⟩ ((mem_entries_iff _).mpr desired)
  · rintro each ⟨key,value⟩ member
    simpa using each key value ((mem_entries_iff _).mp member)

-- The mode that reconciling sends, if it sends one.
def sentMode (metadata : AgentMetadata) (s : AcpSession) : Option String :=
  (s.desired.modeId.filter fun mode => s.observed.modeId ≠ some mode).bind fun mode =>
    if normalizeRequestedMode metadata mode = "" then none else some (normalizeRequestedMode metadata mode)

def missingModel (s : AcpSession) : Option String := s.desired.modelId.filter fun model => s.observed.modelId ≠ some model

theorem modeActions_changes (metadata : AgentMetadata) (s : AcpSession) (m : Manager) : Changes m ((modeActions s).foldl (performed metadata) m)
    { m.session.observed with modeId := (sentMode metadata s).or m.session.observed.modeId } ((sentMode metadata s).or m.cli.mode) := by
  unfold modeActions sentMode
  cases s.desired.modeId.filter fun mode => s.observed.modeId ≠ some mode with
  | none => exact ⟨rfl,rfl,rfl⟩
  | some mode =>
    rw [Option.map_some,Option.toList_some,List.foldl_cons,List.foldl_nil,Option.bind_some]
    by_cases blank : normalizeRequestedMode metadata mode = ""
    · rw [setMode_skipped blank,if_pos blank]
      exact ⟨rfl,rfl,rfl⟩
    · rw [if_neg blank]
      exact setMode_changes blank

theorem modelActions_changes (metadata : AgentMetadata) (s : AcpSession) (m : Manager) : Changes m ((modelActions s).foldl (performed metadata) m)
    { m.session.observed with modelId := (missingModel s).or m.session.observed.modelId } m.cli.mode := by
  unfold modelActions missingModel
  cases s.desired.modelId.filter fun model => s.observed.modelId ≠ some model with
  | none => exact ⟨rfl,rfl,rfl⟩
  | some model => exact setModel_changes

-- Both sides after the whole plan.
theorem plan_changes (metadata : AgentMetadata) (m : Manager) : Changes m (m.session.planReconcile.foldl (performed metadata) m)
    ⟨(sentMode metadata m.session).or m.session.observed.modeId,(missingModel m.session).or m.session.observed.modelId,
      (unobserved m.session).foldl (fun map entry => map.insert entry.1 entry.2) m.session.observed.configCurrent⟩
    ((sentMode metadata m.session).or m.cli.mode) := by
  rw [plan_parts,List.foldl_append,List.foldl_append]
  have modes := modeActions_changes metadata m.session m
  have models := modelActions_changes metadata m.session ((modeActions m.session).foldl (performed metadata) m)
  have configs := setConfigs_changes metadata (unobserved m.session)
    ((modelActions m.session).foldl (performed metadata) ((modeActions m.session).foldl (performed metadata) m))
  refine ⟨(configs.desired.trans models.desired).trans modes.desired,?_,(configs.cli.trans models.cli).trans modes.cli⟩
  rw [configs.observed,models.observed,modes.observed]

theorem configs_settle (s : AcpSession) {key value : String} (desired : s.desired.configSelections.lookup key = some value) :
    ((unobserved s).foldl (fun map entry => map.insert entry.1 entry.2) s.observed.configCurrent).lookup key = some value := by
  have nodup : (unobserved s).NodupKeys := List.NodupKeys.sublist List.filter_sublist s.desired.configSelections.nodupKeys
  rw [lookup_inserted _ nodup]
  by_cases observed : s.observed.configCurrent.lookup key = some value
  · cases found : (unobserved s).dlookup key with
    | none => exact observed
    | some other =>
      obtain ⟨member,missing⟩ := List.mem_filter.mp (List.of_mem_dlookup found)
      have same := (mem_entries_iff _).mp member
      rw [desired] at same
      cases same
      exact absurd observed (of_decide_eq_true missing)
  · have member : (⟨key,value⟩ : Sigma fun _ : String => String) ∈ unobserved s :=
      List.mem_filter.mpr ⟨(mem_entries_iff _).mpr desired,decide_eq_true observed⟩
    rw [List.mem_dlookup nodup member]
    rfl

theorem models_settle (s : AcpSession) {model : String} (desired : s.desired.modelId = some model) :
    (missingModel s).or s.observed.modelId = some model := by
  unfold missingModel
  rw [desired]
  by_cases observed : s.observed.modelId = some model
  · simp [Option.filter,observed]
  · simp [Option.filter,observed]

theorem sentMode_observed {s : AcpSession} {mode : String} (desired : s.desired.modeId = some mode) (observed : s.observed.modeId = some mode) :
    sentMode metadata s = none := by
  simp [sentMode,desired,observed,Option.filter]

theorem sentMode_missing {s : AcpSession} {mode : String} (desired : s.desired.modeId = some mode) (missing : s.observed.modeId ≠ some mode) :
    sentMode metadata s = if normalizeRequestedMode metadata mode = "" then none else some (normalizeRequestedMode metadata mode) := by
  simp [sentMode,desired,missing,Option.filter]

end Plans

section Clearing
variable {m : Manager}

-- Clearing only touches what is desired of mode and model.
theorem cleared_mode (s : AcpSession) : s.clearInvalidDesiredMode.observed = s.observed ∧
    s.clearInvalidDesiredMode.advertised = s.advertised ∧
    s.clearInvalidDesiredMode.desired.configSelections = s.desired.configSelections ∧
    (∀ mode, s.clearInvalidDesiredMode.desired.modeId = some mode ↔ s.desired.modeId = some mode ∧ s.isModeValid mode = true) := by
  unfold AcpSession.clearInvalidDesiredMode
  split
  · next none => exact ⟨rfl,rfl,rfl,fun mode => by rw [none]; exact iff_of_false nofun fun both => nomatch both.1⟩
  · next found =>
    split
    · next valid =>
      refine ⟨rfl,rfl,rfl,fun mode => ?_⟩
      rw [found]
      exact ⟨fun same => ⟨same,by cases same; exact valid⟩,And.left⟩
    · next invalid =>
      refine ⟨rfl,rfl,rfl,fun mode => iff_of_false nofun fun both => ?_⟩
      obtain ⟨same,valid⟩ := both
      rw [found] at same
      cases same
      exact invalid valid

theorem cleared_model (s : AcpSession) : s.clearInvalidDesiredModel.observed = s.observed ∧
    s.clearInvalidDesiredModel.advertised = s.advertised ∧
    s.clearInvalidDesiredModel.desired.configSelections = s.desired.configSelections ∧
    s.clearInvalidDesiredModel.desired.modeId = s.desired.modeId ∧
    (∀ model, s.clearInvalidDesiredModel.desired.modelId = some model → s.isModelValid model = true) := by
  unfold AcpSession.clearInvalidDesiredModel
  split
  · next none => exact ⟨rfl,rfl,rfl,rfl,fun model same => by rw [none] at same; cases same⟩
  · next found =>
    split
    · next valid =>
      refine ⟨rfl,rfl,rfl,rfl,fun model same => ?_⟩
      rw [found] at same
      cases same
      exact valid
    · exact ⟨rfl,rfl,rfl,rfl,nofun⟩

structure Planned (before s : AcpSession) : Prop where
  observed : s.observed = before.observed
  advertised : s.advertised = before.advertised
  config : s.desired.configSelections = before.desired.configSelections
  mode : ∀ mode, s.desired.modeId = some mode ↔ before.desired.modeId = some mode ∧ before.isModeValid mode = true
  model : ∀ model, s.desired.modelId = some model → before.isModelValid model = true

theorem planned_session (m : Manager) : Planned m.session (planned m).session := by
  obtain ⟨observed,advertised,config,mode⟩ := cleared_mode m.session
  obtain ⟨observed',advertised',config',mode',model⟩ := cleared_model m.session.clearInvalidDesiredMode
  refine ⟨observed'.trans observed,advertised'.trans advertised,config'.trans config,fun kept => ?_,fun kept same => ?_⟩
  · rw [← mode kept,← mode']
    rfl
  · have valid := model kept same
    unfold AcpSession.isModelValid at valid ⊢
    rwa [advertised] at valid

end Clearing

section Convergence
variable {metadata : AgentMetadata} {m : Manager}

theorem settled_iff (m : Manager) : (reconcileSession metadata m).1.session.planReconcile = [] ↔
    ∀ mode, m.session.desired.modeId = some mode → m.session.isModeValid mode = true →
      m.session.observed.modeId ≠ some mode → normalizeRequestedMode metadata mode = mode ∧ mode ≠ "" := by
  have cleared := planned_session m
  have changed := plan_changes metadata (planned m)
  rw [plan_nil_iff]
  unfold reconcileSession
  rw [changed.observed,changed.desired]
  have rest : (∀ model, (planned m).session.desired.modelId = some model →
      (missingModel (planned m).session).or (planned m).session.observed.modelId = some model) ∧
      ∀ key value, (planned m).session.desired.configSelections.lookup key = some value →
        ((unobserved (planned m).session).foldl (fun map entry => map.insert entry.1 entry.2)
          (planned m).session.observed.configCurrent).lookup key = some value :=
    ⟨fun _ desired => models_settle _ desired,fun _ _ desired => configs_settle _ desired⟩
  refine (and_iff_left rest).trans ⟨fun each mode desired valid missing => ?_,fun each mode desired => ?_⟩
  · have wanted := (cleared.mode mode).mpr ⟨desired,valid⟩
    have absent : (planned m).session.observed.modeId ≠ some mode := cleared.observed ▸ missing
    have reached := each mode wanted
    rw [sentMode_missing wanted absent] at reached
    split at reached
    · exact absurd reached absent
    · next full =>
      have same := Option.some.inj reached
      exact ⟨same,same ▸ full⟩
  · obtain ⟨before,valid⟩ := (cleared.mode mode).mp desired
    by_cases observed : (planned m).session.observed.modeId = some mode
    · rw [sentMode_observed desired observed]
      exact observed
    · obtain ⟨same,full⟩ := each mode before valid (cleared.observed ▸ observed)
      rw [sentMode_missing desired observed,same,if_neg full]
      rfl

theorem held_iff (m : Manager) : (∀ mode, (reconcileSession metadata m).1.session.desired.modeId = some mode →
      (reconcileSession metadata m).1.cli.mode = some (normalizeRequestedMode metadata mode)) ↔
    ∀ mode, m.session.desired.modeId = some mode → m.session.isModeValid mode = true →
      (m.session.observed.modeId ≠ some mode ∧ normalizeRequestedMode metadata mode ≠ "") ∨
        m.cli.mode = some (normalizeRequestedMode metadata mode) := by
  have cleared := planned_session m
  have changed := plan_changes metadata (planned m)
  unfold reconcileSession
  rw [changed.desired,changed.cli]
  have one : ∀ mode, (planned m).session.desired.modeId = some mode →
      ((sentMode metadata (planned m).session).or (planned m).cli.mode = some (normalizeRequestedMode metadata mode) ↔
        (m.session.observed.modeId ≠ some mode ∧ normalizeRequestedMode metadata mode ≠ "") ∨
          m.cli.mode = some (normalizeRequestedMode metadata mode)) := by
    intro mode desired
    rw [← cleared.observed]
    by_cases observed : (planned m).session.observed.modeId = some mode
    · rw [sentMode_observed desired observed]
      exact (or_iff_right fun both => both.1 observed).symm
    · rw [sentMode_missing desired observed]
      split
      · next blank => exact (or_iff_right fun both => both.2 blank).symm
      · next full => exact iff_of_true rfl (.inl ⟨observed,full⟩)
  constructor
  · intro each mode desired valid
    have wanted := (cleared.mode mode).mpr ⟨desired,valid⟩
    exact (one mode wanted).mp (each mode wanted)
  · intro each mode wanted
    obtain ⟨desired,valid⟩ := (cleared.mode mode).mp wanted
    exact (one mode wanted).mpr (each mode desired valid)

theorem mem_plan_iff (s : AcpSession) (action : ReconcileAction) : action ∈ s.planReconcile ↔
    (∃ mode, (s.desired.modeId = some mode ∧ s.observed.modeId ≠ some mode) ∧ .setMode mode = action) ∨
    (∃ model, (s.desired.modelId = some model ∧ s.observed.modelId ≠ some model) ∧ .setModel model = action) ∨
    ∃ key value, (s.desired.configSelections.lookup key = some value ∧ s.observed.configCurrent.lookup key ≠ some value) ∧
      .setConfigOption key value = action := by
  have optional : ∀ (desired observed : Option String) (wrap : String → ReconcileAction),
      action ∈ ((desired.filter fun text => observed ≠ some text).map wrap).toList ↔
        ∃ text, (desired = some text ∧ observed ≠ some text) ∧ wrap text = action := by
    intro desired observed wrap
    simp only [Option.mem_toList,Option.map_eq_some_iff,Option.filter_eq_some_iff,decide_eq_true_eq]
  rw [plan_parts,List.mem_append,List.mem_append,modeActions,modelActions,optional,optional,or_assoc]
  refine or_congr_right (or_congr_right ?_)
  unfold unobserved
  simp only [List.mem_map,List.mem_filter,Sigma.exists,decide_eq_true_eq,mem_entries_iff]

theorem calls_offered (straight : Straight metadata m) : ∀ call ∈ (reconcileSession metadata m).2, Offered m.session call := by
  have cleared := planned_session m
  intro call sent
  obtain ⟨action,listed,called⟩ := List.mem_filterMap.mp sent
  rcases (mem_plan_iff _ _).mp listed with ⟨mode,⟨desired,missing⟩,rfl⟩ | ⟨model,⟨desired,missing⟩,rfl⟩ | ⟨key,value,⟨desired,missing⟩,rfl⟩
  · obtain ⟨before,valid⟩ := (cleared.mode mode).mp desired
    rw [cleared.observed] at missing
    have here := straight.mode mode before valid
    rw [if_neg missing] at here
    simp only [callOf,here.1,if_neg here.2,Option.some.injEq] at called
    subst called
    exact valid
  · cases called
    exact cleared.model model desired
  · cases called
    rw [cleared.config] at desired
    rw [cleared.observed] at missing
    exact straight.config key value desired missing

theorem reconcile_converges_iff (metadata : AgentMetadata) (m : Manager) : Converges metadata m ↔ Straight metadata m := by
  have cleared := planned_session m
  constructor
  · intro converges
    refine ⟨fun mode desired valid => ?_,fun key value desired missing => ?_⟩
    · split
      · next observed => exact ((held_iff m).mp converges.held mode desired valid).resolve_left fun both => both.1 observed
      · next missing => exact (settled_iff m).mp converges.settled mode desired valid missing
    · refine converges.offered _ (List.mem_filterMap.mpr ⟨.setConfigOption key value,(mem_plan_iff _ _).mpr (.inr (.inr ⟨key,value,⟨?_,?_⟩,rfl⟩)),rfl⟩)
      · exact cleared.config ▸ desired
      · exact cleared.observed ▸ missing
  · intro straight
    refine ⟨(settled_iff m).mpr fun mode desired valid missing => ?_,calls_offered straight,(held_iff m).mpr fun mode desired valid => ?_⟩
    · have here := straight.mode mode desired valid
      rwa [if_neg missing] at here
    · have here := straight.mode mode desired valid
      split at here
      · exact .inr here
      · next missing => exact .inl ⟨missing,here.1.symm ▸ here.2⟩

end Convergence

section Flow
variable {metadata : AgentMetadata} {m : Manager} {sid : String} {rebuilds : Bool}

theorem performed_opening (action : ReconcileAction) (one other : Option Opening) :
    { performed metadata { m with opening := one } action with opening := other } = { performed metadata m action with opening := other } := by
  cases action with
  | setMode mode =>
    by_cases blank : normalizeRequestedMode metadata mode = ""
    · rw [setMode_skipped blank,setMode_skipped blank]
    · simp only [performed,Manager.performs,if_neg blank,Option.getD_some]
      rfl
  | setModel model => rfl
  | setConfigOption key value => rfl

theorem perform_flow (actions : List ReconcileAction) (m : Manager) :
    Runs (step metadata) { m with opening := some (.reconciling sid rebuilds actions) } (List.replicate actions.length (.execute .ok))
      { actions.foldl (performed metadata) m with opening := some (.reconciling sid rebuilds []) } := by
  induction actions generalizing m with
  | nil => exact .nil
  | cons action rest ih =>
    have first : step metadata { m with opening := some (.reconciling sid rebuilds (action :: rest)) } (.execute .ok) =
        some { performed metadata m action with opening := some (.reconciling sid rebuilds rest) } :=
      congrArg some (performed_opening action _ _)
    exact (Runs.single first).append (ih (performed metadata m action))

-- In the session's own flow these are the steps between planning and the prompt.
theorem reconcile_flow (planning : m.opening = some (.planning sid rebuilds)) : ∃ events,
    Runs (step metadata) m events { (reconcileSession metadata m).1 with opening := some (.reconciling sid rebuilds []) } := by
  have planned_step : step metadata m .plan =
      some { planned m with opening := some (.reconciling sid rebuilds (planned m).session.planReconcile) } := by
    simp only [step,planning]
    rfl
  exact ⟨_,(Runs.single planned_step).append (perform_flow _ (planned m))⟩

end Flow

section Examples

def codex : AgentMetadata := ⟨some "codex",some "full-access",false,false⟩

-- The catalog is not known yet, and the mode is one of the legacy names.
def aliased : Manager := { start ⟨codex,none,none,none,false,none⟩ ⟨none,none,∅⟩ with session := .new (some "yolo") none ∅ }

-- A stored selection which the agent no longer offers.
def stale : AcpSessionParams := ⟨codex,some ⟨none,none,AList.insert "verbosity" "high" ∅⟩,none,none,false,none⟩

def verbosity : SessionConfigOption := ⟨"verbosity",none,.select "low" (.ungrouped ["low","medium"])⟩

def opened : Event := .reply (.opened "s1" ⟨none,none,some [verbosity]⟩ ⟨none,none,∅⟩)

def planningCalls (m : Manager) : Option (List ReconcileAction × Option (List SessionConfigOption)) :=
  match m.opening with
  | some (.planning _ _) => some ((reconcileSession codex m).2,m.session.advertised.configOptions)
  | _ => none

-- The mode is sent at every turn, and the selection goes out although the catalog
-- that has just come does not list it.
theorem alias_sent_again :
    ((reconcileSession codex aliased).2 = [.setMode "full-access"] ∧
      (reconcileSession codex (reconcileSession codex aliased).1).2 = [.setMode "full-access"] ∧ ¬Converges codex aliased) ∧
    ∃ m, Runs (step codex) (start stale ⟨none,none,∅⟩) [.begin,opened] m ∧
      .setConfigOption "verbosity" "high" ∈ (reconcileSession codex m).2 ∧ ¬Offered m.session (.setConfigOption "verbosity" "high") := by
  refine ⟨⟨by decide,by decide,fun converges => ?_⟩,?_⟩
  · have again : (reconcileSession codex aliased).1.session.planReconcile = [.setMode "yolo"] := by decide
    exact absurd (again.symm.trans converges.settled) (List.cons_ne_nil _ _)
  · have ran : (exec (step codex) (start stale ⟨none,none,∅⟩) [.begin,opened]).bind planningCalls =
        some ([.setConfigOption "verbosity" "high"],some [verbosity]) := by decide
    obtain ⟨m,there,calls⟩ := Option.bind_eq_some_iff.mp ran
    unfold planningCalls at calls
    split at calls
    · obtain ⟨sent,catalog⟩ := Prod.mk.inj (Option.some.inj calls)
      refine ⟨m,exec_exact.mp there,sent ▸ List.mem_singleton_self _,fun offered => ?_⟩
      obtain ⟨option,listed,_,lists⟩ := offered _ catalog
      rw [List.mem_singleton.mp listed] at lists
      exact absurd lists (by unfold Lists verbosity; decide)
    · cases calls

end Examples

end AlineaCopilot.AcpReconcile
