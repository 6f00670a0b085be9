import AlineaCopilot.KeyedMaps
import AlineaCopilot.RustText
open AlineaCopilot.KeyedMaps AlineaCopilot.RustText

namespace AlineaCopilot.AcpSessions

-- Of a catalog entry only the id is read; its name and description go to the
-- frontend as they are.
structure SessionModeState where
  currentModeId : String
  availableModes : List String
deriving DecidableEq, Repr

structure SessionModelState where
  currentModelId : String
  availableModels : List String
deriving DecidableEq, Repr

inductive OptionCategory where
  | mode
  | model
  | thoughtLevel
  | other (name : String)
deriving DecidableEq, Repr

inductive SelectOptions where
  | ungrouped (values : List String)
  | grouped (groups : List (List String))
  | unknown
deriving DecidableEq, Repr

inductive ConfigKind where
  | select (currentValue : String) (options : SelectOptions)
  | other
deriving DecidableEq, Repr

structure SessionConfigOption where
  id : String
  category : Option OptionCategory
  kind : ConfigKind
deriving DecidableEq, Repr

section Catalog

def SelectOptions.flatten : SelectOptions → List String
  | .ungrouped values => values
  | .grouped groups => groups.flatten
  | .unknown => []

def selectFromKind : ConfigKind → Option (String × SelectOptions)
  | .select current options => some (current,options)
  | .other => none

-- An option of the category comes before one that only has the id.
def findSelect (options : List SessionConfigOption) (ids : List String) (category : OptionCategory) :
    Option (String × SelectOptions) :=
  (options.findSome? fun o => if o.category = some category then selectFromKind o.kind else none).or
    (options.findSome? fun o => if o.id ∈ ids then selectFromKind o.kind else none)

def nonEmptyOrFirst (current first : String) : String := if current = "" then first else current

def deriveModesFromConfigOptions (options : List SessionConfigOption) : Option SessionModeState :=
  (findSelect options ["mode","modes"] .mode).bind fun select =>
    match select.2.flatten with
    | [] => none
    | first :: rest => some ⟨nonEmptyOrFirst select.1 first,first :: rest⟩

-- With a thought level the catalog is every model with every level.
def deriveModelsFromConfigOptions (options : List SessionConfigOption) : Option SessionModelState :=
  (findSelect options ["model","models"] .model).bind fun select =>
    match select.2.flatten with
    | [] => none
    | first :: rest =>
      let plain : SessionModelState := ⟨nonEmptyOrFirst select.1 first,first :: rest⟩
      match findSelect options ["thought_level","reasoning_effort"] .thoughtLevel with
      | none => some plain
      | some thought =>
        match thought.2.flatten with
        | [] => some plain
        | level :: levels =>
          some ⟨nonEmptyOrFirst select.1 first ++ "/" ++ nonEmptyOrFirst thought.1 level,
            (first :: rest).flatMap fun model => (level :: levels).map fun thought => model ++ "/" ++ thought⟩

def mergeOption (merged : List SessionConfigOption) (option : SessionConfigOption) : List SessionConfigOption :=
  match merged.findIdx? fun existing => existing.id = option.id with
  | some i => merged.set i option
  | none => merged ++ [option]

def mergeConfigOptions : Option (List SessionConfigOption) → List SessionConfigOption → List SessionConfigOption
  | none,incoming => incoming
  | some existing,incoming => incoming.foldl mergeOption existing

def extractConfigCurrentValue : ConfigKind → Option String
  | .select current _ => some current
  | .other => none

-- The values the options hold now, written over the ones known before.
def currentValues (known : KeyedMap String String) (options : List SessionConfigOption) : KeyedMap String String :=
  options.foldl (fun values o =>
    match extractConfigCurrentValue o.kind with
    | some current => values.insert o.id current
    | none => values) known

end Catalog

-- What the user wants the session to be.
structure Desired where
  modeId : Option String
  modelId : Option String
  configSelections : KeyedMap String String

-- What the CLI last reported.
structure Observed where
  modeId : Option String
  modelId : Option String
  configCurrent : KeyedMap String String

-- What the CLI advertises. Usage, auth methods and commands are left out.
structure Advertised where
  modes : Option SessionModeState
  models : Option SessionModelState
  configOptions : Option (List SessionConfigOption)
  loadSession : Bool

inductive AcpSessionEvent where
  | sessionOpened
  | sessionAssigned (sessionId : String)
  | observedModeSynced (mode : String)
  | observedModelSynced (model : String)
  | observedConfigSynced (selections : KeyedMap String String)

structure AcpSession where
  sessionId : Option String
  opened : Bool
  desired : Desired
  observed : Observed
  advertised : Advertised
  pendingEvents : List AcpSessionEvent
  pendingSessionNewPrelude : Bool
  pendingModelNotice : Option String

structure PersistedSessionState where
  currentModeId : Option String
  currentModelId : Option String
  configSelections : KeyedMap String String

inductive ReconcileAction where
  | setMode (mode : String)
  | setModel (model : String)
  | setConfigOption (key value : String)
deriving DecidableEq, Repr

namespace AcpSession

def new (initialMode initialModel : Option String) (configSelections : KeyedMap String String) : AcpSession :=
  { sessionId := none
    opened := false
    desired := ⟨initialMode,initialModel,configSelections⟩
    observed := ⟨none,none,∅⟩
    advertised := ⟨none,none,none,false⟩
    pendingEvents := []
    pendingSessionNewPrelude := false
    pendingModelNotice := none }

def emit (s : AcpSession) (changed : Bool) (event : AcpSessionEvent) : AcpSession :=
  if changed then { s with pendingEvents := s.pendingEvents ++ [event] } else s

-- A second, different id trips the debug assertion; a release build keeps the
-- first one without a word.
def setSessionId (s : AcpSession) (sid : String) : AcpSession :=
  match s.sessionId with
  | some _ => s
  | none => { s with sessionId := some sid, pendingEvents := s.pendingEvents ++ [.sessionAssigned sid] }

def clearSessionId (s : AcpSession) : AcpSession := { s with sessionId := none, opened := false }

def markOpened (s : AcpSession) : AcpSession :=
  if s.opened then s else { s with opened := true, pendingEvents := s.pendingEvents ++ [.sessionOpened] }

def isModeValid (s : AcpSession) (mode : String) : Bool :=
  match s.advertised.modes with
  | none => true
  | some modes => modes.availableModes.isEmpty || modes.availableModes.contains mode

def isModelValid (s : AcpSession) (model : String) : Bool :=
  match s.advertised.models with
  | none => true
  | some models => models.availableModels.isEmpty || models.availableModels.contains model

def canSelectMode (s : AcpSession) (mode : String) : Bool := mode ≠ "" && s.isModeValid mode

def canSelectModel (s : AcpSession) (model : String) : Bool := model ≠ "" && s.isModelValid model

def clearInvalidDesiredMode (s : AcpSession) : AcpSession :=
  match s.desired.modeId with
  | none => s
  | some mode => if s.isModeValid mode then s else { s with desired := { s.desired with modeId := none } }

def clearInvalidDesiredModel (s : AcpSession) : AcpSession :=
  match s.desired.modelId with
  | none => s
  | some model =>
    if s.isModelValid model then s
    else
      { s with
        desired := { s.desired with modelId := none }
        pendingModelNotice := if s.pendingModelNotice = some model then none else s.pendingModelNotice }

def applyObservedMode (s : AcpSession) (mode : String) : AcpSession :=
  { s with
    observed := { s.observed with modeId := some mode }
    advertised := { s.advertised with
      modes := some ⟨mode,(s.advertised.modes.map SessionModeState.availableModes).getD []⟩ } }.emit
    (s.observed.modeId ≠ some mode) (.observedModeSynced mode)

def applyObservedModel (s : AcpSession) (model : String) : AcpSession :=
  { s with
    observed := { s.observed with modelId := some model }
    advertised := { s.advertised with
      models := some ⟨model,(s.advertised.models.map SessionModelState.availableModels).getD []⟩ } }.emit
    (s.observed.modelId ≠ some model) (.observedModelSynced model)

def confirmMode (s : AcpSession) (mode : String) : AcpSession :=
  { s with desired := { s.desired with modeId := some mode } }.applyObservedMode mode

def confirmModel (s : AcpSession) (model : String) : AcpSession :=
  { s with desired := { s.desired with modelId := some model } }.applyObservedModel model

def applyObservedConfig (s : AcpSession) (key value : String) : AcpSession :=
  let current := s.observed.configCurrent.insert key value
  { s with observed := { s.observed with configCurrent := current } }.emit
    (s.observed.configCurrent.lookup key ≠ some value) (.observedConfigSynced current)

def applyAdvertisedModes (s : AcpSession) (modes : SessionModeState) : AcpSession :=
  { s with
    observed := { s.observed with modeId := some modes.currentModeId }
    advertised := { s.advertised with modes := some modes } }.emit
    (s.observed.modeId ≠ some modes.currentModeId) (.observedModeSynced modes.currentModeId)

def applyAdvertisedModels (s : AcpSession) (models : SessionModelState) : AcpSession :=
  { s with
    observed := { s.observed with modelId := some models.currentModelId }
    advertised := { s.advertised with models := some models } }.emit
    (s.observed.modelId ≠ some models.currentModelId) (.observedModelSynced models.currentModelId)

-- A desired model the catalog lists is kept over the one it gives as current.
def preserveDesiredModelInCatalog (s : AcpSession) (models : SessionModelState) : SessionModelState :=
  match s.desired.modelId with
  | none => models
  | some desired => if desired ∈ models.availableModels then { models with currentModelId := desired } else models

def applyAdvertisedConfigOptions (s : AcpSession) (incoming : List SessionConfigOption) : AcpSession :=
  let options := mergeConfigOptions s.advertised.configOptions incoming
  let s := match deriveModesFromConfigOptions options with
    | some modes => s.applyAdvertisedModes modes
    | none => s
  let s := match deriveModelsFromConfigOptions options with
    | some models => s.applyAdvertisedModels (s.preserveDesiredModelInCatalog models)
    | none => s
  let current := currentValues s.observed.configCurrent options
  { s with
    observed := { s.observed with configCurrent := current }
    advertised := { s.advertised with configOptions := some options } }.emit
    (options.any fun o => (extractConfigCurrentValue o.kind).any fun value => s.observed.configCurrent.lookup o.id ≠ some value)
    (.observedConfigSynced current)

def preloadPersisted (s : AcpSession) (state : PersistedSessionState) : AcpSession :=
  let s := match state.currentModeId with
    | some mode =>
      { s with
        advertised := { s.advertised with modes := some ⟨mode,[]⟩ }
        observed := { s.observed with modeId := some mode } }
    | none => s
  let s := match state.currentModelId with
    | some model =>
      { s with
        advertised := { s.advertised with models := some ⟨model,[]⟩ }
        observed := { s.observed with modelId := some model } }
    | none => s
  if state.configSelections.entries.isEmpty then s
  else { s with observed := { s.observed with configCurrent := state.configSelections } }

def planReconcile (s : AcpSession) : List ReconcileAction :=
  ((s.desired.modeId.filter fun mode => s.observed.modeId ≠ some mode).map .setMode).toList ++
    ((s.desired.modelId.filter fun model => s.observed.modelId ≠ some model).map .setModel).toList ++
    (s.desired.configSelections.entries.filter fun entry => s.observed.configCurrent.lookup entry.1 ≠ some entry.2).map
      fun entry => .setConfigOption entry.1 entry.2

def drainEvents (s : AcpSession) : AcpSession := { s with pendingEvents := [] }

end AcpSession

end AlineaCopilot.AcpSessions
