import AlineaCopilot.AcpSession
import AlineaCopilot.TransitionRuns
open AlineaCopilot.KeyedMaps AlineaCopilot.RustText AlineaCopilot.TransitionRuns

namespace AlineaCopilot.AcpSessions

-- What the catalog row of the agent says.
structure AgentMetadata where
  backend : Option String
  yoloId : Option String
  sessionLoadViaMetaField : Bool
  selfIdentitySticky : Bool

def normalizeRequestedMode (metadata : AgentMetadata) (mode : String) : String :=
  let trimmed := trim mode
  let plain := if metadata.backend = some "codex" ∧ (trimmed = "default" ∨ trimmed = "autoEdit") then "auto" else trimmed
  if trimmed = "" then ""
  else if trimmed = "yolo" ∨ trimmed = "yoloNoSandbox" then metadata.yoloId.getD plain
  else plain

-- `sessionId` is the id the database has for the conversation.
structure AcpSessionParams where
  metadata : AgentMetadata
  sessionSnapshot : Option PersistedSessionState
  sessionMode : Option String
  currentModelId : Option String
  loadSession : Bool
  sessionId : Option String

def initialModeFromParams (params : AcpSessionParams) : Option String :=
  (((params.sessionSnapshot.bind (·.currentModeId)).map (normalizeRequestedMode params.metadata)).or
    (params.sessionMode.map (normalizeRequestedMode params.metadata))).filter (· ≠ "")

def initialModelFromParams (params : AcpSessionParams) : Option String :=
  (params.sessionSnapshot.bind (·.currentModelId)).or (params.currentModelId.filter (· ≠ ""))

-- The aggregate after `build`. The events of preloading are drained, for they say
-- nothing new to the database; so are those of restoring the id, in the factory.
def prepared (params : AcpSessionParams) : AcpSession :=
  let s := AcpSession.new (initialModeFromParams params) (initialModelFromParams params)
    ((params.sessionSnapshot.map (·.configSelections)).getD ∅)
  let s := match params.sessionSnapshot with
    | some snapshot => (s.preloadPersisted snapshot).drainEvents
    | none => s
  { s with advertised := { s.advertised with loadSession := params.loadSession } }

def built (params : AcpSessionParams) : AcpSession :=
  match params.sessionId with
  | some sid => ((prepared params).setSessionId sid).drainEvents
  | none => prepared params

-- What a response or a notification of the CLI says about its state.
structure Report where
  models : Option SessionModelState
  modes : Option SessionModeState
  configOptions : Option (List SessionConfigOption)

section Cli

-- The CLI's side: the values its session holds.
structure Cli where
  mode : Option String
  model : Option String
  config : KeyedMap String String

-- A mode option or a model option among the config options says what the mode
-- and the model are, as the fields of the response do.
def Report.mode (r : Report) : Option String :=
  ((r.configOptions.bind deriveModesFromConfigOptions).or r.modes).map (·.currentModeId)

def Report.model (r : Report) : Option String :=
  ((r.configOptions.bind deriveModelsFromConfigOptions).or r.models).map (·.currentModelId)

def Cli.reports (cli : Cli) (r : Report) : Cli :=
  ⟨r.mode.or cli.mode,r.model.or cli.model,currentValues cli.config (r.configOptions.getD [])⟩

end Cli

-- The CLI's answer to a request that opens a session. The values of a session
-- it has opened are its own affair, but for what it reports of them.
inductive Reply where
  | opened (sessionId : String) (report : Report) (cli : Cli)
  | sessionNotFound
  | failed

inductive Outcome where
  | ok
  | sessionNotFound
  | failed

-- How far the task that holds the session lock has come. Only a resumed session
-- is rebuilt when reconciling finds that the CLI does not know it.
inductive Opening where
  | creating
  | resuming (sid : String)
  | loading (sid : String) (preloadedMode : Option String)
  | planning (sid : String) (rebuilds : Bool)
  | reconciling (sid : String) (rebuilds : Bool) (actions : List ReconcileAction)

-- A request that went out with a session id, and the id the CLI had assigned or
-- accepted last when it did.
structure Sent where
  sessionId : String
  accepted : Option String
deriving DecidableEq, Repr

structure Manager where
  session : AcpSession
  opening : Option Opening
  -- The ids `ensure_session_opened` has handed to turns that have not prompted.
  handed : List String
  -- Assigned ids on their way to the database, and what it has.
  assigned : List String
  persisted : Option String
  cli : Cli
  accepted : Option String
  -- Whether the CLI process knows the session: it has opened it, or was assumed to.
  attached : Bool
  sent : List Sent
  -- Whether `set_session_id` was given a second, different id.
  reassigned : Bool

inductive Event where
  | begin
  | reply (reply : Reply)
  | plan
  | execute (outcome : Outcome)
  | finish
  | prompt (sid : String)
  | cancel
  | setMode (mode : String) (ok : Bool)
  | setModel (model : String) (ok : Bool)
  | currentModeUpdate (mode : String)
  | configOptionUpdate (options : List SessionConfigOption)
  | store

def start (params : AcpSessionParams) (cli : Cli) : Manager :=
  { session := built params
    opening := none
    handed := []
    assigned := []
    persisted := params.sessionId
    cli := cli
    accepted := params.sessionId
    attached := false
    sent := []
    reassigned := false }

section Flow
variable (metadata : AgentMetadata)

def AcpSessionEvent.assignedId : AcpSessionEvent → Option String
  | .sessionAssigned sid => some sid
  | _ => none

def Manager.commitSessionChanges (m : Manager) : Manager :=
  { m with
    session := m.session.drainEvents
    assigned := m.assigned ++ m.session.pendingEvents.filterMap AcpSessionEvent.assignedId }

def Manager.onSession (m : Manager) (f : AcpSession → AcpSession) : Manager := { m with session := f m.session }

def Manager.setSessionId (m : Manager) (sid : String) : Manager :=
  { m.onSession (·.setSessionId sid) with reassigned := m.reassigned || m.session.sessionId.any (· ≠ sid) }

-- The three parts of a response, in the order every opening applies them.
def AcpSession.applyReport (s : AcpSession) (r : Report) : AcpSession :=
  let s := match r.models with
    | some models => s.applyAdvertisedModels models
    | none => s
  let s := match r.modes with
    | some modes => s.applyAdvertisedModes modes
    | none => s
  match r.configOptions with
  | some options => s.applyAdvertisedConfigOptions options
  | none => s

-- `session/load` keeps the mode the database had as the current one.
def Report.withPreloadedMode (r : Report) (preloadedMode : Option String) : Report :=
  { r with modes := r.modes.map fun modes => { modes with currentModeId := preloadedMode.getD modes.currentModeId } }

def Manager.ensureSessionOpened (m : Manager) : Manager :=
  match m.session.sessionId with
  | none => { m with opening := some .creating }
  | some sid =>
    if m.session.opened then { m with opening := some (.reconciling sid true []) }
    else if metadata.sessionLoadViaMetaField then { m with opening := some (.resuming sid) }
    else if m.session.advertised.loadSession then
      { m with opening := some (.loading sid (m.session.advertised.modes.map (·.currentModeId))) }
    -- Neither way to resume: the id is kept in the hope that the CLI knows it.
    else { (m.setSessionId sid).commitSessionChanges with opening := some (.planning sid true), attached := true }

-- The CLI has opened a session: it goes by `sid` from now on.
def Manager.opens (m : Manager) (report : Report) (cli : Cli) (sid : String) : Manager :=
  { m with
    session := m.session.applyReport report
    cli := cli
    accepted := some sid
    attached := true }

def Manager.rebuildAfterSessionNotFound (m : Manager) : Manager :=
  { (m.onSession AcpSession.clearSessionId).commitSessionChanges with opening := some .creating, attached := false }

def Manager.replied (m : Manager) : Opening → Reply → Option Manager
  | .creating,.opened sid report cli =>
    let m := ((m.opens report (cli.reports report) sid).setSessionId sid).onSession
      fun s => { s with pendingSessionNewPrelude := true }
    some { m.commitSessionChanges with opening := some (.planning sid false) }
  | .resuming _,.opened sid report cli =>
    some { ((m.opens report (cli.reports report) sid).setSessionId sid).commitSessionChanges with
      opening := some (.planning sid true) }
  -- The response to `session/load` has no id of its own.
  | .loading sid preloadedMode,.opened _ report cli =>
    some { ((m.opens (report.withPreloadedMode preloadedMode) (cli.reports report) sid).setSessionId sid).commitSessionChanges with
      opening := some (.planning sid true) }
  | .resuming _,.sessionNotFound | .loading _ _,.sessionNotFound => some m.rebuildAfterSessionNotFound
  | .creating,.sessionNotFound | .creating,.failed | .resuming _,.failed | .loading _ _,.failed => some { m with opening := none }
  | .planning _ _,_ | .reconciling _ _ _,_ => none

-- The next prompt tells a model with a fixed idea of itself what it is now.
def AcpSession.noteModel (s : AcpSession) (model : String) : AcpSession :=
  if metadata.selfIdentitySticky then { s with pendingModelNotice := some model } else s

-- The call the action makes, if it makes one, and what both sides have after it.
def Manager.performs (m : Manager) : ReconcileAction → Option Manager
  | .setMode mode =>
    let normalized := normalizeRequestedMode metadata mode
    if normalized = "" then none
    else some { (m.onSession (·.applyObservedMode normalized)).commitSessionChanges with
      cli := { m.cli with mode := some normalized } }
  | .setModel model =>
    some { (m.onSession fun s => (s.applyObservedModel model).noteModel metadata model).commitSessionChanges with
      cli := { m.cli with model := some model } }
  | .setConfigOption key value =>
    some { (m.onSession (·.applyObservedConfig key value)).commitSessionChanges with
      cli := { m.cli with config := m.cli.config.insert key value } }

def Manager.executed (m : Manager) (sid : String) (rebuilds : Bool) (action : ReconcileAction)
    (rest : List ReconcileAction) : Outcome → Manager
  | .ok => { (m.performs metadata action).getD m with opening := some (.reconciling sid rebuilds rest) }
  | .sessionNotFound =>
    if (m.performs metadata action).isNone then { m with opening := some (.reconciling sid rebuilds rest) }
    else if rebuilds then m.rebuildAfterSessionNotFound
    else { m with opening := none }
  | .failed => { m with opening := some (.reconciling sid rebuilds rest) }

def AcpSession.clearInvalidDesired (s : AcpSession) : AcpSession := s.clearInvalidDesiredMode.clearInvalidDesiredModel

def Manager.send (m : Manager) (sid : String) : Manager := { m with sent := m.sent ++ [⟨sid,m.accepted⟩] }

def step (m : Manager) : Event → Option Manager
  | .begin =>
    match m.opening with
    | none => some (m.ensureSessionOpened metadata)
    | some _ => none
  | .reply reply => m.opening.bind fun opening => m.replied opening reply
  | .plan =>
    match m.opening with
    | some (.planning sid rebuilds) =>
      let m := m.onSession AcpSession.clearInvalidDesired
      some { m with opening := some (.reconciling sid rebuilds m.session.planReconcile) }
    | _ => none
  | .execute outcome =>
    match m.opening with
    | some (.reconciling sid rebuilds (action :: rest)) => some (m.executed metadata sid rebuilds action rest outcome)
    | _ => none
  | .finish =>
    match m.opening with
    | some (.reconciling sid _ []) =>
      some { (m.onSession AcpSession.markOpened).commitSessionChanges with opening := none, handed := m.handed ++ [sid] }
    | _ => none
  | .prompt sid => if sid ∈ m.handed then some { m.send sid with handed := m.handed.erase sid } else none
  -- Cancelling and killing both notify the CLI if there is an id.
  | .cancel => some (m.session.sessionId.elim m m.send)
  | .setMode mode ok =>
    let normalized := normalizeRequestedMode metadata mode
    if m.session.canSelectMode normalized ∧ m.session.sessionId.isSome then
      some (if ok then { (m.onSession (·.confirmMode normalized)).commitSessionChanges with
        cli := { m.cli with mode := some normalized } } else m)
    else none
  | .setModel model ok =>
    if m.session.canSelectModel model ∧ m.session.sessionId.isSome then
      some (if ok then { (m.onSession fun s => (s.confirmModel model).noteModel metadata model).commitSessionChanges with
        cli := { m.cli with model := some model } } else m)
    else none
  | .currentModeUpdate mode =>
    some { (m.onSession (·.applyObservedMode mode)).commitSessionChanges with cli := { m.cli with mode := some mode } }
  | .configOptionUpdate options =>
    some { (m.onSession (·.applyAdvertisedConfigOptions options)).commitSessionChanges with
      cli := m.cli.reports ⟨none,none,some options⟩ }
  | .store =>
    match m.assigned with
    | sid :: rest => some { m with assigned := rest, persisted := some sid }
    | [] => none

end Flow

end AlineaCopilot.AcpSessions
