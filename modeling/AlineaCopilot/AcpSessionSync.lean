import AlineaCopilot.AcpSessionIds
import AlineaCopilot.MessageCompaction
open AlineaCopilot.KeyedMaps AlineaCopilot.TransitionRuns AlineaCopilot.JsonTrees AlineaCopilot.MessageCompaction AlineaCopilot.AcpSessions

namespace AlineaCopilot.AcpSessionSync

section Fields

def getField (key : String) (fields : List (String × Content)) : Option Content := (fields.find? fun field => field.1 = key).map Prod.snd

-- What a column of an update says: nothing, that the field goes, or its new value.
def putField (key : String) (fields : List (String × Content)) : Option (Option Content) → List (String × Content)
  | none => fields
  | some none => removeField key fields
  | some (some value) => insertField key value fields

variable {key other : String} {fields : List (String × Content)}

theorem get_cons (field : String × Content) (fields : List (String × Content)) :
    getField key (field :: fields) = if field.1 = key then some field.2 else getField key fields := by
  unfold getField
  rw [List.find?_cons]
  by_cases same : field.1 = key
  · rw [if_pos same,decide_eq_true same]
    rfl
  · rw [if_neg same,decide_eq_false same]

theorem get_insert (key other : String) (value : Content) (fields : List (String × Content)) :
    getField other (insertField key value fields) = if other = key then some value else getField other fields := by
  have first {rest : List (String × Content)} : getField other ((key,value) :: rest) = if other = key then some value else getField other rest := by
    rw [get_cons]
    exact if_congr eq_comm rfl rfl
  induction fields with
  | nil => exact first
  | cons field rest ih =>
    rw [insertField_cons]
    split
    · exact first
    · split
      · rename_i same
        rw [first,get_cons]
        by_cases here : other = key
        · rw [if_pos here,if_pos here]
        · rw [if_neg here,if_neg here,if_neg fun there : field.1 = other => here (there.symm.trans same.symm)]
      · rename_i apart
        rw [get_cons,ih,get_cons]
        by_cases here : field.1 = other
        · rw [if_pos here,if_pos here,if_neg fun same => apart (same ▸ here).symm]
        · rw [if_neg here,if_neg here]

theorem get_remove (key other : String) (fields : List (String × Content)) :
    getField other (removeField key fields) = if other = key then none else getField other fields := by
  induction fields with
  | nil => exact (ite_self none).symm
  | cons field rest ih =>
    by_cases here : field.1 = key
    · obtain ⟨name,value⟩ := field
      cases here
      rw [removeField_here,ih,get_cons]
      by_cases same : other = name
      · rw [if_pos same,if_pos same]
      · rw [if_neg same,if_neg same,if_neg fun there => same there.symm]
    · rw [removeField_other here,get_cons,get_cons,ih]
      by_cases there : field.1 = other
      · rw [if_pos there,if_pos there,if_neg fun same => here (there.trans same)]
      · rw [if_neg there,if_neg there]

theorem get_put (key other : String) (fields : List (String × Content)) (column : Option (Option Content)) :
    getField other (putField key fields column) = if other = key then column.getD (getField key fields) else getField other fields := by
  match column with
  | none =>
    by_cases same : other = key
    · rw [if_pos same,same]
      rfl
    · rw [if_neg same]
      rfl
  | some none => exact get_remove key other fields
  | some (some value) => exact get_insert key other value fields

end Fields

section Selections

def readText : Content → Option String
  | .scalar (.string text) => some text
  | _ => none

def selectionsValue (selections : KeyedMap String String) : Content :=
  .object (JsonTrees.collect (selections.entries.map fun entry => (entry.1,.scalar (.string entry.2))))

-- `from_str::<HashMap<String, String>>`.
def readSelections : Content → Option (KeyedMap String String)
  | .object fields => (fields.mapM fun field => (readText field.2).map fun text => ⟨field.1,text⟩).map KeyedMaps.collect
  | _ => none

theorem mapM_total {α β : Type} {f : α → Option β} {g : α → β} {items : List α} (total : ∀ item ∈ items, f item = some (g item)) :
    items.mapM f = some (items.map g) := by
  induction items with
  | nil => rfl
  | cons item rest ih =>
    obtain ⟨here,later⟩ := List.forall_mem_cons.mp total
    rw [List.mapM_cons,here,ih later]
    rfl

theorem selections_read (selections : KeyedMap String String) :
    ∃ read, readSelections (selectionsValue selections) = some read ∧ ∀ key, read.lookup key = selections.lookup key := by
  let shown : (Sigma fun _ : String => String) → String × Content := fun entry => (entry.1,.scalar (.string entry.2))
  let back : String × Content → Sigma fun _ : String => String := fun field => ⟨field.1,(readText field.2).getD ""⟩
  have names : (selections.entries.map shown).map Prod.fst = selections.entries.keys := by
    rw [List.map_map]
    rfl
  have unique : ((selections.entries.map shown).map Prod.fst).Nodup := names ▸ selections.nodupKeys
  have perm := collect_perm unique
  have total : ∀ field ∈ JsonTrees.collect (selections.entries.map shown),
      (readText field.2).map (fun text => (⟨field.1,text⟩ : Sigma fun _ : String => String)) = some (back field) := by
    intro field member
    obtain ⟨entry,-,rfl⟩ := List.mem_map.mp (perm.mem_iff.mp member)
    rfl
  have entries : ((JsonTrees.collect (selections.entries.map shown)).map back).Perm selections.entries := by
    have same : (selections.entries.map shown).map back = selections.entries := by
      rw [List.map_map]
      exact List.map_id _
    exact (perm.map back).trans (List.Perm.of_eq same)
  have whole : ((JsonTrees.collect (selections.entries.map shown)).map back).NodupKeys :=
    (List.perm_nodupKeys entries).mpr selections.nodupKeys
  refine ⟨_,congrArg (Option.map KeyedMaps.collect) (mapM_total total),fun key => ?_⟩
  exact ((lookup_inserted _ whole ∅ key).trans Option.or_none).trans (List.perm_dlookup key whole entries)

end Selections

section Repository

-- The JSON of the column `session_config`. A text that is none has no value.
structure AcpSessionRow where
  sessionId : Option String
  sessionConfig : Option Content

-- What the consumer has merged and not saved. A text stands as the value it is the JSON of.
structure PendingUpdate where
  currentModeId : Option (Option String)
  currentModelId : Option (Option String)
  configSelections : Option (Option Content)
  contextUsage : Option (Option Content)

def PendingUpdate.default : PendingUpdate := ⟨none,none,none,none⟩

def PendingUpdate.isEmpty (p : PendingUpdate) : Bool :=
  p.currentModeId.isNone && p.currentModelId.isNone && p.configSelections.isNone && p.contextUsage.isNone

def textColumn (column : Option (Option String)) : Option (Option Content) := column.map (Option.map fun text => .scalar (.string text))

def PendingUpdate.write (p : PendingUpdate) (runtime : List (String × Content)) : List (String × Content) :=
  putField "context_usage"
    (putField "config_selections"
      (putField "current_model_id" (putField "current_mode_id" runtime (textColumn p.currentModeId)) (textColumn p.currentModelId))
      p.configSelections)
    p.contextUsage

-- An error leaves the row as it is.
def saveRuntimeState (row : AcpSessionRow) (p : PendingUpdate) : Option AcpSessionRow :=
  if p.isEmpty then some row
  else
    match row.sessionConfig.getD (.object []) with
    | .object fields =>
      match (getField "runtime" fields).getD (.object []) with
      | .object runtime => some { row with sessionConfig := some (.object (insertField "runtime" (.object (p.write runtime)) fields)) }
      | _ => none
    | _ => none

-- The columns `load_runtime_state` decodes. A value that is no object has no fields.
structure RuntimeState where
  currentModeId : Option String
  currentModelId : Option String
  configSelections : Option Content
  contextUsage : Option Content

def fieldsOf : Content → List (String × Content)
  | .object fields => fields
  | _ => []

def loadRuntimeState (row : AcpSessionRow) : Option RuntimeState :=
  row.sessionConfig.map fun parsed =>
    let runtime := ((getField "runtime" (fieldsOf parsed)).map fieldsOf).getD []
    ⟨(getField "current_mode_id" runtime).bind readText,(getField "current_model_id" runtime).bind readText,
      getField "config_selections" runtime,getField "context_usage" runtime⟩

-- How the context usage is written and read.
structure UsageCodec (Usage : Type) where
  encode : Usage → Content
  decode : Content → Option Usage

variable {Usage : Type}

structure Snapshot (Usage : Type) where
  state : PersistedSessionState
  contextUsage : Option Usage

def decodePersistedSessionState (codec : UsageCodec Usage) (state : RuntimeState) : Snapshot Usage :=
  ⟨⟨state.currentModeId,state.currentModelId,(state.configSelections.bind readSelections).getD ∅⟩,state.contextUsage.bind codec.decode⟩

end Repository

section Sessions
variable {Usage : Type}

inductive DomainEvent where
  | session (event : AcpSessionEvent)
  | observedContextUsageChanged (usage : Content)

-- The aggregate with the usage it caches. Its events of both kinds wait in one list.
structure Tracked (Usage : Type) where
  session : AcpSession
  contextUsage : Option Usage
  pendingEvents : List DomainEvent

-- What the manager asks of the aggregate while it holds the session's lock. Desired
-- values are left out but for what confirming and clearing them does: they are not saved.
inductive Call (Usage : Type) where
  | setSessionId (sid : String)
  | clearSessionId
  | markOpened
  | applyReport (report : Report)
  | applyObservedMode (mode : String)
  | applyObservedModel (model : String)
  | applyObservedConfig (key value : String)
  | confirmMode (mode : String)
  | confirmModel (model : String)
  | clearInvalidDesired
  | applyContextUsage (usage : Usage)

def Tracked.onSession (t : Tracked Usage) (f : AcpSession → AcpSession) : Tracked Usage :=
  { t with
    session := (f t.session).drainEvents
    pendingEvents := t.pendingEvents ++ (f t.session).pendingEvents.map .session }

def Tracked.perform [DecidableEq Usage] (codec : UsageCodec Usage) (t : Tracked Usage) : Call Usage → Tracked Usage
  | .setSessionId sid => t.onSession (·.setSessionId sid)
  | .clearSessionId => t.onSession AcpSession.clearSessionId
  | .markOpened => t.onSession AcpSession.markOpened
  | .applyReport report => t.onSession (·.applyReport report)
  | .applyObservedMode mode => t.onSession (·.applyObservedMode mode)
  | .applyObservedModel model => t.onSession (·.applyObservedModel model)
  | .applyObservedConfig key value => t.onSession (·.applyObservedConfig key value)
  | .confirmMode mode => t.onSession (·.confirmMode mode)
  | .confirmModel model => t.onSession (·.confirmModel model)
  | .clearInvalidDesired => t.onSession AcpSession.clearInvalidDesired
  | .applyContextUsage usage =>
    { t with
      contextUsage := some usage
      pendingEvents :=
        if t.contextUsage = some usage then t.pendingEvents else t.pendingEvents ++ [.observedContextUsageChanged (codec.encode usage)] }

-- The session that is built for a conversation from what its row says.
def resumed (codec : UsageCodec Usage) (params : AcpSessionParams) (row : AcpSessionRow) : Tracked Usage :=
  let snapshot := (loadRuntimeState row).map (decodePersistedSessionState codec)
  ⟨built { params with sessionSnapshot := snapshot.map (·.state), sessionId := row.sessionId },snapshot.bind (·.contextUsage),[]⟩

end Sessions

section Consumer

def PendingUpdate.mergeFromDomainEvent (p : PendingUpdate) : DomainEvent → PendingUpdate × Bool
  | .session (.observedModeSynced mode) => ({ p with currentModeId := some (some mode) },true)
  | .session (.observedModelSynced model) => ({ p with currentModelId := some (some model) },true)
  | .session (.observedConfigSynced selections) => ({ p with configSelections := some (some (selectionsValue selections)) },true)
  | .observedContextUsageChanged usage => ({ p with contextUsage := some (some usage) },true)
  | .session _ => (p,false)

def domainChannelCapacity : Nat := 256

-- A session, the events on their way to the consumer, and the conversation's row. The
-- lock is held until the events of an update are sent.
structure Sync (Usage : Type) where
  tracked : Tracked Usage
  outbox : List DomainEvent
  channel : List DomainEvent
  dropped : Bool
  pending : PendingUpdate
  -- Whether `flush_at` is set.
  armed : Bool
  exited : Bool
  row : Option AcpSessionRow
  -- Every event the session has had, for what is said about the row.
  emitted : List DomainEvent

-- `ok` is whether the database can be written to.
inductive SyncAction (Usage : Type) where
  | update (calls : List (Call Usage))
  | send
  | drop
  | receive (ok : Bool)
  | timeout (ok : Bool)
  | close (ok : Bool)

variable {Usage : Type}

def flushed (row : Option AcpSessionRow) (p : PendingUpdate) (ok : Bool) : Option AcpSessionRow :=
  row.map fun row => if ok && !p.isEmpty then (saveRuntimeState row p).getD row else row

def Sync.flush (s : Sync Usage) (ok : Bool) : Sync Usage :=
  { s with row := flushed s.row s.pending ok, pending := .default, armed := false }

-- An id is saved at once.
def Sync.take (s : Sync Usage) (ok : Bool) (event : DomainEvent) : Sync Usage :=
  match event with
  | .session (.sessionAssigned sid) => { s with row := if ok then s.row.map fun row => { row with sessionId := some sid } else s.row }
  | event =>
    let merged := s.pending.mergeFromDomainEvent event
    { s with pending := merged.1, armed := merged.2 || s.armed }

-- An event or the end of the channel comes before the deadline.
def step [DecidableEq Usage] (codec : UsageCodec Usage) (s : Sync Usage) : SyncAction Usage → Option (Sync Usage)
  | .update calls =>
    if s.outbox = [] ∧ s.dropped = false then
      let tracked := calls.foldl (Tracked.perform codec) s.tracked
      some { s with
        tracked := { tracked with pendingEvents := [] }
        outbox := tracked.pendingEvents
        emitted := s.emitted ++ tracked.pendingEvents }
    else none
  | .send =>
    match s.outbox with
    | event :: rest =>
      if s.channel.length < domainChannelCapacity then some { s with outbox := rest, channel := s.channel ++ [event] } else none
    | [] => none
  | .drop => if s.outbox = [] then some { s with dropped := true } else none
  | .receive ok =>
    match s.channel with
    | event :: rest => if s.exited then none else some ({ s with channel := rest }.take ok event)
    | [] => none
  | .timeout ok => if s.armed ∧ s.channel = [] ∧ s.dropped = false ∧ s.exited = false then some (s.flush ok) else none
  | .close ok =>
    if s.dropped ∧ s.channel = [] ∧ s.exited = false then some { s.flush ok with exited := true } else none

def start (codec : UsageCodec Usage) (params : AcpSessionParams) (row : AcpSessionRow) : Sync Usage :=
  ⟨resumed codec params row,[],[],false,.default,false,false,some row,[]⟩

end Consumer

section Views
variable {Usage : Type}

-- What a session is known to be: the values its CLI reported last.
structure View (Usage : Type) where
  mode : Option String
  model : Option String
  config : String → Option String
  usage : Option Usage

def View.observe (codec : UsageCodec Usage) (v : View Usage) : DomainEvent → View Usage
  | .session (.observedModeSynced mode) => { v with mode := some mode }
  | .session (.observedModelSynced model) => { v with model := some model }
  | .session (.observedConfigSynced selections) => { v with config := fun key => selections.lookup key }
  | .observedContextUsageChanged usage => { v with usage := codec.decode usage }
  | .session _ => v

def View.observes (codec : UsageCodec Usage) (v : View Usage) (events : List DomainEvent) : View Usage := events.foldl (View.observe codec) v

def seen (s : AcpSession) (usage : Option Usage) : View Usage :=
  ⟨s.observed.modeId,s.observed.modelId,fun key => s.observed.configCurrent.lookup key,usage⟩

def Tracked.view (t : Tracked Usage) : View Usage := seen t.session t.contextUsage

def stateView (codec : UsageCodec Usage) (state : RuntimeState) : View Usage :=
  ⟨state.currentModeId,state.currentModelId,fun key => ((state.configSelections.bind readSelections).getD ∅).lookup key,
    state.contextUsage.bind codec.decode⟩

variable {codec : UsageCodec Usage}

theorem observes_append (v : View Usage) (earlier later : List DomainEvent) :
    v.observes codec (earlier ++ later) = (v.observes codec earlier).observes codec later := List.foldl_append

end Views

section Emitting
variable {Usage : Type} {codec : UsageCodec Usage} {s middle after : AcpSession}

-- The events a change of the aggregate has added tell all that it has changed.
def Follows (codec : UsageCodec Usage) (s after : AcpSession) : Prop :=
  ∃ events, after.pendingEvents = s.pendingEvents ++ events ∧
    ∀ usage, (seen s usage).observes codec (events.map .session) = seen after usage

theorem Follows.trans (first : Follows codec s middle) (second : Follows codec middle after) : Follows codec s after := by
  obtain ⟨earlier,kept,told⟩ := first
  obtain ⟨later,kept',told'⟩ := second
  refine ⟨earlier ++ later,by rw [kept',kept,List.append_assoc],fun usage => ?_⟩
  rw [List.map_append,observes_append,told,told']

theorem follows_silent (kept : after.pendingEvents = s.pendingEvents) (same : after.observed = s.observed) : Follows codec s after :=
  ⟨[],by rw [kept,List.append_nil],fun usage => by
    unfold seen
    rw [same]
    rfl⟩

theorem follows_emit {changed : Bool} {event : AcpSessionEvent} (kept : after.pendingEvents = s.pendingEvents)
    (told : ∀ usage, (seen s usage).observe codec (.session event) = seen after usage)
    (still : changed = false → ∀ usage, seen s usage = (seen after usage : View Usage)) : Follows codec s (after.emit changed event) := by
  cases changed with
  | false => exact ⟨[],by rw [List.append_nil]; exact kept,still rfl⟩
  | true => exact ⟨[event],congrArg (· ++ [event]) kept,told⟩

theorem same_some {α : Type} [DecidableEq α] {known : Option α} {value : α} (still : decide (known ≠ some value) = false) : known = some value :=
  not_not.mp (of_decide_eq_false still)

theorem follows_observedMode (s : AcpSession) (mode : String) : Follows codec s (s.applyObservedMode mode) := by
  refine follows_emit rfl (fun _ => rfl) fun still usage => ?_
  unfold seen
  rw [same_some still]

theorem follows_observedModel (s : AcpSession) (model : String) : Follows codec s (s.applyObservedModel model) := by
  refine follows_emit rfl (fun _ => rfl) fun still usage => ?_
  unfold seen
  rw [same_some still]

theorem follows_advertisedModes (s : AcpSession) (modes : SessionModeState) : Follows codec s (s.applyAdvertisedModes modes) := by
  refine follows_emit rfl (fun _ => rfl) fun still usage => ?_
  unfold seen
  rw [same_some still]

theorem follows_advertisedModels (s : AcpSession) (models : SessionModelState) : Follows codec s (s.applyAdvertisedModels models) := by
  refine follows_emit rfl (fun _ => rfl) fun still usage => ?_
  unfold seen
  rw [same_some still]

theorem follows_observedConfig (s : AcpSession) (key value : String) : Follows codec s (s.applyObservedConfig key value) := by
  refine follows_emit rfl (fun _ => rfl) fun still usage => ?_
  have known := same_some still
  unfold seen
  congr 1
  funext other
  rw [lookup_insert_eq]
  by_cases same : other = key
  · rw [if_pos same,same,known]
  · rw [if_neg same]

theorem currentValues_same {known : KeyedMap String String} {options : List SessionConfigOption}
    (same : ∀ o ∈ options, ∀ value, extractConfigCurrentValue o.kind = some value → known.lookup o.id = some value) (key : String) :
    (currentValues known options).lookup key = known.lookup key := by
  induction options using List.reverseRecOn with
  | nil => rfl
  | append_singleton options o ih =>
    have earlier := ih fun o' member => same o' (List.mem_append_left _ member)
    simp only [currentValues,List.foldl_append,List.foldl_cons,List.foldl_nil] at earlier ⊢
    cases current : extractConfigCurrentValue o.kind with
    | none => exact earlier
    | some value =>
      simp only [lookup_insert_eq]
      by_cases here : key = o.id
      · rw [if_pos here,here,same o (List.mem_append_right _ List.mem_cons_self) value current]
      · rw [if_neg here,earlier]

-- The last of the three things a list of config options changes.
theorem follows_current (s : AcpSession) (options : List SessionConfigOption) :
    Follows codec s ({ s with
      observed := { s.observed with configCurrent := currentValues s.observed.configCurrent options }
      advertised := { s.advertised with configOptions := some options } }.emit
      (options.any fun o => (extractConfigCurrentValue o.kind).any fun value => s.observed.configCurrent.lookup o.id ≠ some value)
      (.observedConfigSynced (currentValues s.observed.configCurrent options))) := by
  refine follows_emit rfl (fun _ => rfl) fun still usage => ?_
  have same : ∀ o ∈ options, ∀ value, extractConfigCurrentValue o.kind = some value → s.observed.configCurrent.lookup o.id = some value := by
    intro o member value current
    have quiet := List.any_eq_false.mp still o member
    rw [current] at quiet
    exact same_some (Bool.eq_false_iff.mpr quiet)
  unfold seen
  congr 1
  exact funext fun key => (currentValues_same same key).symm

theorem follows_options (s : AcpSession) (incoming : List SessionConfigOption) : Follows codec s (s.applyAdvertisedConfigOptions incoming) := by
  unfold AcpSession.applyAdvertisedConfigOptions
  generalize mergeConfigOptions s.advertised.configOptions incoming = options
  dsimp only
  cases deriveModesFromConfigOptions options with
  | none =>
    cases deriveModelsFromConfigOptions options with
    | none => exact follows_current s options
    | some models => exact (follows_advertisedModels s _).trans (follows_current _ options)
  | some modes =>
    have first : Follows codec s (s.applyAdvertisedModes modes) := follows_advertisedModes s modes
    cases deriveModelsFromConfigOptions options with
    | none => exact first.trans (follows_current _ options)
    | some models => exact (first.trans (follows_advertisedModels _ _)).trans (follows_current _ options)

theorem follows_report (s : AcpSession) (r : Report) : Follows codec s (s.applyReport r) := by
  obtain ⟨models,modes,options⟩ := r
  have withModels : Follows codec s (s.applyReport ⟨models,none,none⟩) := by
    cases models with
    | none => exact follows_silent rfl rfl
    | some models => exact follows_advertisedModels s models
  have withModes : Follows codec s (s.applyReport ⟨models,modes,none⟩) := by
    cases modes with
    | none => exact withModels
    | some modes => exact withModels.trans (follows_advertisedModes _ modes)
  cases options with
  | none => exact withModes
  | some options => exact withModes.trans (follows_options _ options)

theorem follows_setSessionId (s : AcpSession) (sid : String) : Follows codec s (s.setSessionId sid) := by
  unfold AcpSession.setSessionId
  split
  · exact follows_silent rfl rfl
  · exact ⟨[.sessionAssigned sid],rfl,fun _ => rfl⟩

theorem follows_markOpened (s : AcpSession) : Follows codec s s.markOpened := by
  unfold AcpSession.markOpened
  split
  · exact follows_silent rfl rfl
  · exact ⟨[.sessionOpened],rfl,fun _ => rfl⟩

theorem follows_clearInvalidDesired (s : AcpSession) : Follows codec s s.clearInvalidDesired := by
  have mode : Follows codec s s.clearInvalidDesiredMode := by
    unfold AcpSession.clearInvalidDesiredMode
    split
    · exact follows_silent rfl rfl
    · split <;> exact follows_silent rfl rfl
  refine mode.trans ?_
  show Follows codec s.clearInvalidDesiredMode s.clearInvalidDesiredMode.clearInvalidDesiredModel
  unfold AcpSession.clearInvalidDesiredModel
  split
  · exact follows_silent rfl rfl
  · split <;> exact follows_silent rfl rfl

end Emitting

section Calls
variable {Usage : Type} {codec : UsageCodec Usage} {t : Tracked Usage}

theorem onSession_told {f : AcpSession → AcpSession} (quiet : t.session.pendingEvents = []) (follows : Follows codec t.session (f t.session)) :
    (t.onSession f).session.pendingEvents = [] ∧
      ∃ events, (t.onSession f).pendingEvents = t.pendingEvents ++ events ∧ t.view.observes codec events = (t.onSession f).view := by
  obtain ⟨events,kept,told⟩ := follows
  rw [quiet,List.nil_append] at kept
  refine ⟨rfl,events.map .session,?_,told t.contextUsage⟩
  unfold Tracked.onSession
  rw [kept]

variable [DecidableEq Usage]

theorem perform_told (faithful : ∀ usage, codec.decode (codec.encode usage) = some usage) (quiet : t.session.pendingEvents = []) (call : Call Usage) :
    (t.perform codec call).session.pendingEvents = [] ∧
      ∃ events, (t.perform codec call).pendingEvents = t.pendingEvents ++ events ∧ t.view.observes codec events = (t.perform codec call).view := by
  cases call with
  | setSessionId sid => exact onSession_told quiet (follows_setSessionId _ sid)
  | clearSessionId => exact onSession_told quiet (follows_silent rfl rfl)
  | markOpened => exact onSession_told quiet (follows_markOpened _)
  | applyReport report => exact onSession_told quiet (follows_report _ report)
  | applyObservedMode mode => exact onSession_told quiet (follows_observedMode _ mode)
  | applyObservedModel model => exact onSession_told quiet (follows_observedModel _ model)
  | applyObservedConfig key value => exact onSession_told quiet (follows_observedConfig _ key value)
  | confirmMode mode =>
    have intent : Follows codec t.session { t.session with desired := { t.session.desired with modeId := some mode } } := follows_silent rfl rfl
    exact onSession_told quiet (intent.trans (follows_observedMode _ mode))
  | confirmModel model =>
    have intent : Follows codec t.session { t.session with desired := { t.session.desired with modelId := some model } } := follows_silent rfl rfl
    exact onSession_told quiet (intent.trans (follows_observedModel _ model))
  | clearInvalidDesired => exact onSession_told quiet (follows_clearInvalidDesired _)
  | applyContextUsage usage =>
    refine ⟨quiet,?_⟩
    by_cases same : t.contextUsage = some usage
    · refine ⟨[],(if_pos same).trans (List.append_nil _).symm,?_⟩
      show seen t.session t.contextUsage = seen t.session (some usage)
      rw [same]
    · refine ⟨[.observedContextUsageChanged (codec.encode usage)],if_neg same,?_⟩
      show { t.view with usage := codec.decode (codec.encode usage) } = seen t.session (some usage)
      rw [faithful]
      rfl

theorem performs_told (faithful : ∀ usage, codec.decode (codec.encode usage) = some usage) (calls : List (Call Usage)) (t : Tracked Usage)
    (quiet : t.session.pendingEvents = []) :
    (calls.foldl (Tracked.perform codec) t).session.pendingEvents = [] ∧
      ∃ events, (calls.foldl (Tracked.perform codec) t).pendingEvents = t.pendingEvents ++ events ∧
        t.view.observes codec events = (calls.foldl (Tracked.perform codec) t).view := by
  induction calls generalizing t with
  | nil => exact ⟨quiet,[],(List.append_nil _).symm,rfl⟩
  | cons call rest ih =>
    obtain ⟨drained,first,kept,told⟩ := perform_told faithful quiet call
    obtain ⟨still,later,kept',told'⟩ := ih (t.perform codec call) drained
    refine ⟨still,first ++ later,?_,?_⟩
    · rw [List.foldl_cons,kept',kept,List.append_assoc]
    · rw [observes_append,told,told']
      rfl

end Calls

section Stored
variable {Usage : Type} {codec : UsageCodec Usage} {row : AcpSessionRow}

-- What every row is from its creation on.
def AcpSessionRow.Writable (row : AcpSessionRow) : Prop :=
  ∃ fields, row.sessionConfig = some (.object fields) ∧ ∀ value, getField "runtime" fields = some value → ∃ runtime, value = .object runtime

def overlay (p : PendingUpdate) (state : RuntimeState) : RuntimeState :=
  ⟨p.currentModeId.getD state.currentModeId,p.currentModelId.getD state.currentModelId,p.configSelections.getD state.configSelections,
    p.contextUsage.getD state.contextUsage⟩

theorem text_read (column : Option (Option String)) (known : Option Content) :
    ((textColumn column).getD known).bind readText = column.getD (known.bind readText) := by
  match column with
  | none => rfl
  | some none => rfl
  | some (some text) => rfl

theorem written_fields (p : PendingUpdate) (runtime : List (String × Content)) :
    getField "current_mode_id" (p.write runtime) = (textColumn p.currentModeId).getD (getField "current_mode_id" runtime) ∧
      getField "current_model_id" (p.write runtime) = (textColumn p.currentModelId).getD (getField "current_model_id" runtime) ∧
      getField "config_selections" (p.write runtime) = p.configSelections.getD (getField "config_selections" runtime) ∧
      getField "context_usage" (p.write runtime) = p.contextUsage.getD (getField "context_usage" runtime) := by
  unfold PendingUpdate.write
  simp [get_put]

-- Saving writes the columns that the update has, and reading finds them.
theorem save_read (writable : row.Writable) (p : PendingUpdate) (update : p.isEmpty = false) :
    ∃ saved, saveRuntimeState row p = some saved ∧ saved.Writable ∧ saved.sessionId = row.sessionId ∧
      loadRuntimeState saved = (loadRuntimeState row).map (overlay p) := by
  obtain ⟨fields,config,shaped⟩ := writable
  obtain ⟨runtime,held,known⟩ : ∃ runtime, (getField "runtime" fields).getD (.object []) = .object runtime ∧
      ((getField "runtime" fields).map fieldsOf).getD [] = runtime := by
    cases found : getField "runtime" fields with
    | none => exact ⟨[],rfl,rfl⟩
    | some value =>
      obtain ⟨runtime,rfl⟩ := shaped value found
      exact ⟨runtime,rfl,rfl⟩
  have there := get_insert "runtime" "runtime" (.object (p.write runtime)) fields
  rw [if_pos rfl] at there
  refine ⟨{ row with sessionConfig := some (.object (insertField "runtime" (.object (p.write runtime)) fields)) },?_,⟨_,rfl,?_⟩,rfl,?_⟩
  · unfold saveRuntimeState
    rw [update,config]
    simp only [Option.getD_some,held]
    rfl
  · intro value found
    cases there.symm.trans found
    exact ⟨_,rfl⟩
  · obtain ⟨mode,model,selections,usage⟩ := written_fields p runtime
    unfold loadRuntimeState
    rw [config]
    simp only [Option.map_some,fieldsOf,there,known,Option.getD_some,mode,model,selections,usage,text_read]
    rfl

theorem overlay_default (state : RuntimeState) : overlay .default state = state := rfl

theorem empty_default {p : PendingUpdate} (empty : p.isEmpty = true) : p = .default := by
  obtain ⟨mode,model,selections,usage⟩ := p
  simp only [PendingUpdate.isEmpty,Bool.and_eq_true,Option.isNone_iff_eq_none] at empty
  obtain ⟨⟨⟨rfl,rfl⟩,rfl⟩,rfl⟩ := empty
  rfl

-- Merging an event into what is pending is observing it in what the row will hold.
theorem merge_observed (p : PendingUpdate) (state : RuntimeState) (event : DomainEvent) :
    stateView codec (overlay (p.mergeFromDomainEvent event).1 state) = (stateView codec (overlay p state)).observe codec event := by
  cases event with
  | observedContextUsageChanged usage => rfl
  | session event =>
    cases event with
    | sessionOpened => rfl
    | sessionAssigned sid => rfl
    | observedModeSynced mode => rfl
    | observedModelSynced model => rfl
    | observedConfigSynced selections =>
      obtain ⟨read,found,same⟩ := selections_read selections
      have lookups : (fun key => ((readSelections (selectionsValue selections)).getD ∅).lookup key) = fun key => selections.lookup key := by
        rw [found]
        exact funext same
      exact congrArg (fun config => ({ stateView codec (overlay p state) with config := config } : View Usage)) lookups

theorem merge_armed {p : PendingUpdate} {event : DomainEvent} (silent : (p.mergeFromDomainEvent event).2 = false) :
    (p.mergeFromDomainEvent event).1 = p := by
  cases event with
  | observedContextUsageChanged usage => cases silent
  | session event =>
    cases event with
    | sessionOpened | sessionAssigned sid => rfl
    | observedModeSynced mode => cases silent
    | observedModelSynced model => cases silent
    | observedConfigSynced selections => cases silent

end Stored

section Resuming
variable {Usage : Type} {codec : UsageCodec Usage} {params : AcpSessionParams} {row : AcpSessionRow}

theorem built_observed (params : AcpSessionParams) : (built params).observed = (prepared params).observed := by
  unfold built
  split
  · unfold AcpSession.setSessionId
    split <;> rfl
  · rfl

theorem built_quiet (params : AcpSessionParams) : (built params).pendingEvents = [] := by
  unfold built
  split
  · rfl
  · exact (prepared_blank params).2.2

-- A new session takes what its snapshot has for what it has observed.
theorem preloaded_seen {fresh : AcpSession} (nothing : fresh.observed = ⟨none,none,∅⟩) (snapshot : PersistedSessionState) (usage : Option Usage) :
    seen (fresh.preloadPersisted snapshot) usage =
      ⟨snapshot.currentModeId,snapshot.currentModelId,fun key => snapshot.configSelections.lookup key,usage⟩ := by
  obtain ⟨mode,model,selections⟩ := snapshot
  have values : (fresh.preloadPersisted ⟨mode,model,selections⟩).observed.modeId = mode ∧
      (fresh.preloadPersisted ⟨mode,model,selections⟩).observed.modelId = model := by
    unfold AcpSession.preloadPersisted
    cases mode <;> cases model <;> dsimp only <;> split <;> simp [nothing]
  have chosen : (fun key => (fresh.preloadPersisted ⟨mode,model,selections⟩).observed.configCurrent.lookup key) = fun key => selections.lookup key := by
    funext key
    unfold AcpSession.preloadPersisted
    dsimp only
    split
    · rename_i empty
      rw [(entries_nil_iff selections).mp (List.isEmpty_iff.mp empty)]
      cases mode <;> cases model <;> simp [nothing]
    · rfl
  unfold seen
  rw [values.1,values.2,chosen]

theorem prepared_seen {snapshot : PersistedSessionState} (given : params.sessionSnapshot = some snapshot) (usage : Option Usage) :
    seen (prepared params) usage = ⟨snapshot.currentModeId,snapshot.currentModelId,fun key => snapshot.configSelections.lookup key,usage⟩ := by
  unfold prepared
  rw [given]
  exact preloaded_seen rfl snapshot usage

theorem resumed_view {state : RuntimeState} (loaded : loadRuntimeState row = some state) :
    (resumed codec params row).view = stateView codec state := by
  unfold resumed Tracked.view seen
  rw [loaded]
  dsimp only [Option.map_some,Option.bind_some]
  rw [built_observed]
  have given : (({ params with
      sessionSnapshot := some (decodePersistedSessionState codec state).state
      sessionId := row.sessionId } : AcpSessionParams)).sessionSnapshot = some (decodePersistedSessionState codec state).state := rfl
  exact prepared_seen given _

end Resuming

section Syncing
variable {Usage : Type} {codec : UsageCodec Usage} {origin : View Usage} {s next : Sync Usage} {action : SyncAction Usage}

-- Nothing is on its way to the consumer, and the consumer waits without a deadline.
def Settled (s : Sync Usage) : Prop := s.channel = [] ∧ s.outbox = [] ∧ s.armed = false

-- The database takes what it is given.
def Stored (_ : Sync Usage) : SyncAction Usage → Prop
  | .receive ok | .timeout ok | .close ok => ok = true
  | _ => True

-- The row is what the session was after the events that are stored, and with what is
-- pending what it was after those that are merged too.
structure Held (codec : UsageCodec Usage) (origin : View Usage) (s : Sync Usage) (row : AcpSessionRow) (stored merged : List DomainEvent) : Prop where
  here : s.row = some row
  writable : row.Writable
  events : s.emitted = stored ++ merged ++ s.channel ++ s.outbox
  row : ∃ state, loadRuntimeState row = some state ∧ stateView codec state = origin.observes codec stored ∧
    stateView codec (overlay s.pending state) = origin.observes codec (stored ++ merged)

structure Saved (codec : UsageCodec Usage) (origin : View Usage) (s : Sync Usage) : Prop where
  quiet : s.tracked.session.pendingEvents = []
  sent : s.tracked.pendingEvents = []
  known : origin.observes codec s.emitted = s.tracked.view
  held : ∃ row stored merged, Held codec origin s row stored merged
  idle : s.armed = false → s.pending = .default
  dropped : s.dropped = true → s.outbox = []
  exited : s.exited = true → s.dropped = true ∧ Settled s

theorem Held.flushes {row : AcpSessionRow} {stored merged : List DomainEvent} (held : Held codec origin s row stored merged) :
    ∃ saved, Held codec origin (s.flush true) saved (stored ++ merged) [] := by
  obtain ⟨state,loaded,-,later⟩ := held.row
  have events : (s.flush true).emitted = stored ++ merged ++ [] ++ (s.flush true).channel ++ (s.flush true).outbox := by
    rw [List.append_nil]
    exact held.events
  have whole (p : PendingUpdate) : origin.observes codec (stored ++ merged ++ []) = stateView codec (overlay s.pending state) := by
    rw [List.append_nil,later]
  cases update : s.pending.isEmpty with
  | true =>
    rw [empty_default update] at later
    refine ⟨row,?_,held.writable,events,state,loaded,later,?_⟩
    · show flushed s.row s.pending true = some row
      unfold flushed
      rw [held.here,update]
      rfl
    · rw [List.append_nil]
      exact later
  | false =>
    obtain ⟨saved,stores,writable,-,read⟩ := save_read held.writable s.pending update
    rw [loaded] at read
    refine ⟨saved,?_,writable,events,_,read,later,?_⟩
    · show flushed s.row s.pending true = some saved
      unfold flushed
      rw [held.here,update]
      exact congrArg some (congrArg (Option.getD · row) stores)
    · rw [List.append_nil]
      exact later

theorem Saved.flushes (saved : Saved codec origin s) : Saved codec origin (s.flush true) := by
  obtain ⟨row,stored,merged,held⟩ := saved.held
  obtain ⟨after,held⟩ := held.flushes
  exact ⟨saved.quiet,saved.sent,saved.known,⟨after,_,_,held⟩,fun _ => rfl,saved.dropped,
    fun exited => ⟨(saved.exited exited).1,(saved.exited exited).2.1,(saved.exited exited).2.2.1,rfl⟩⟩

theorem Saved.receives {event : DomainEvent} {rest : List DomainEvent} (saved : Saved codec origin s) (first : s.channel = event :: rest)
    (runs : s.exited = false) : Saved codec origin ({ s with channel := rest }.take true event) := by
  obtain ⟨row,stored,merged,held⟩ := saved.held
  obtain ⟨state,loaded,before,after⟩ := held.row
  have events : s.emitted = stored ++ (merged ++ [event]) ++ rest ++ s.outbox := by
    rw [held.events,first]
    simp
  have seenLater : origin.observes codec (stored ++ (merged ++ [event])) = (stateView codec (overlay s.pending state)).observe codec event := by
    rw [← List.append_assoc,observes_append,after]
    rfl
  have other (plain : ({ s with channel := rest } : Sync Usage).take true event = { s with
      channel := rest
      pending := (s.pending.mergeFromDomainEvent event).1
      armed := (s.pending.mergeFromDomainEvent event).2 || s.armed }) : Saved codec origin ({ s with channel := rest }.take true event) := by
    rw [plain]
    refine ⟨saved.quiet,saved.sent,saved.known,⟨row,stored,merged ++ [event],held.here,held.writable,events,state,loaded,before,?_⟩,?_,
      saved.dropped,fun exited => absurd (exited.symm.trans runs) Bool.true_eq_false.mp⟩
    · rw [seenLater]
      exact merge_observed _ _ _
    · intro still
      obtain ⟨silent,unarmed⟩ := Bool.or_eq_false_iff.mp still
      exact (merge_armed silent).trans (saved.idle unarmed)
  cases event with
  | observedContextUsageChanged usage => exact other rfl
  | session event =>
    cases event with
    | sessionAssigned sid =>
      obtain ⟨fields,config,shaped⟩ := held.writable
      refine ⟨saved.quiet,saved.sent,saved.known,⟨{ row with sessionId := some sid },stored,merged ++ [_],?_,⟨fields,config,shaped⟩,events,state,
        loaded,before,seenLater.symm⟩,saved.idle,saved.dropped,fun exited => absurd (exited.symm.trans runs) Bool.true_eq_false.mp⟩
      exact congrArg (Option.map _) held.here
    | sessionOpened => exact other rfl
    | observedModeSynced mode => exact other rfl
    | observedModelSynced model => exact other rfl
    | observedConfigSynced selections => exact other rfl

theorem start_saved (codec : UsageCodec Usage) (params : AcpSessionParams) {row : AcpSessionRow} (writable : row.Writable) :
    Saved codec (resumed codec params row).view (start codec params row) := by
  obtain ⟨fields,config,shaped⟩ := writable
  obtain ⟨state,loaded⟩ : ∃ state, loadRuntimeState row = some state := by
    unfold loadRuntimeState
    rw [config]
    exact ⟨_,rfl⟩
  have same : stateView codec state = (resumed codec params row).view := (resumed_view loaded).symm
  exact ⟨built_quiet _,rfl,rfl,⟨row,[],[],rfl,⟨fields,config,shaped⟩,rfl,state,loaded,same,same⟩,fun _ => rfl,fun _ => rfl,
    fun exited => absurd exited Bool.false_ne_true⟩

variable [DecidableEq Usage]

theorem Saved.updates (faithful : ∀ usage, codec.decode (codec.encode usage) = some usage) (saved : Saved codec origin s) (calls : List (Call Usage))
    (free : s.outbox = []) (open' : s.dropped = false) : Saved codec origin { s with
      tracked := { calls.foldl (Tracked.perform codec) s.tracked with pendingEvents := [] }
      outbox := (calls.foldl (Tracked.perform codec) s.tracked).pendingEvents
      emitted := s.emitted ++ (calls.foldl (Tracked.perform codec) s.tracked).pendingEvents } := by
  obtain ⟨drained,events,kept,told⟩ := performs_told faithful calls s.tracked saved.quiet
  rw [saved.sent,List.nil_append] at kept
  obtain ⟨row,stored,merged,held⟩ := saved.held
  refine ⟨drained,rfl,?_,⟨row,stored,merged,held.here,held.writable,?_,held.row⟩,saved.idle,
    fun gone => absurd (gone.symm.trans open') Bool.true_eq_false.mp,fun exited => ?_⟩
  · rw [observes_append,saved.known,kept]
    exact told
  · have before := held.events
    rw [free,List.append_nil] at before
    exact congrArg (· ++ _) before
  · exact absurd ((saved.exited exited).1.symm.trans open') Bool.true_eq_false.mp

theorem Saved.step (faithful : ∀ usage, codec.decode (codec.encode usage) = some usage) (saved : Saved codec origin s) (stored : Stored s action)
    (moved : step codec s action = some next) : Saved codec origin next := by
  cases action with
  | update calls =>
    simp only [AcpSessionSync.step] at moved
    split at moved
    · rename_i free
      cases moved
      exact saved.updates faithful calls free.1 free.2
    · cases moved
  | send =>
    simp only [AcpSessionSync.step] at moved
    split at moved
    · rename_i event rest first
      split at moved
      · cases moved
        obtain ⟨row,stored,merged,held⟩ := saved.held
        have busy : s.outbox ≠ [] := by
          rw [first]
          exact List.cons_ne_nil _ _
        refine ⟨saved.quiet,saved.sent,saved.known,⟨row,stored,merged,held.here,held.writable,?_,held.row⟩,saved.idle,
          fun gone => absurd (saved.dropped gone) busy,fun exited => absurd (saved.exited exited).2.2.1 busy⟩
        have before := held.events
        rw [first] at before
        rw [before]
        simp
      · cases moved
    · cases moved
  | drop =>
    simp only [AcpSessionSync.step] at moved
    split at moved
    · rename_i free
      cases moved
      obtain ⟨row,stored,merged,held⟩ := saved.held
      exact ⟨saved.quiet,saved.sent,saved.known,⟨row,stored,merged,held.here,held.writable,held.events,held.row⟩,saved.idle,fun _ => free,
        fun exited => ⟨rfl,(saved.exited exited).2⟩⟩
    · cases moved
  | receive ok =>
    cases stored
    simp only [AcpSessionSync.step] at moved
    split at moved
    · rename_i event rest first
      split at moved
      · cases moved
      · rename_i runs
        cases moved
        exact saved.receives first (Bool.eq_false_iff.mpr runs)
    · cases moved
  | timeout ok =>
    cases stored
    simp only [AcpSessionSync.step] at moved
    split at moved
    · cases moved
      exact saved.flushes
    · cases moved
  | close ok =>
    cases stored
    simp only [AcpSessionSync.step] at moved
    split at moved
    · rename_i last
      cases moved
      obtain ⟨row,stored,merged,held⟩ := saved.flushes.held
      exact ⟨saved.quiet,saved.sent,saved.known,⟨row,stored,merged,held.here,held.writable,held.events,held.row⟩,fun _ => rfl,saved.dropped,
        fun _ => ⟨last.1,last.2.1,saved.dropped last.1,rfl⟩⟩
    · cases moved

end Syncing

section Restarts
variable {Usage : Type} [DecidableEq Usage] {codec : UsageCodec Usage} {params : AcpSessionParams} {row : AcpSessionRow} {s : Sync Usage}
  {actions : List (SyncAction Usage)}

-- A session that is built anew, whenever that is, finds what the old one was after some
-- of its events in their order: all of them, once nothing is under way, and that is so
-- when the consumer has gone.
theorem interrupted_session_resumes (faithful : ∀ usage, codec.decode (codec.encode usage) = some usage) (writable : row.Writable)
    (path : RunsWhere (step codec) Stored (start codec params row) actions s) :
    ∃ kept, s.row = some kept ∧
      (∃ stored, stored <+: s.emitted ∧ (resumed codec params kept).view = (resumed codec params row).view.observes codec stored) ∧
      (Settled s → (resumed codec params kept).view = s.tracked.view) ∧ (s.exited = true → Settled s) := by
  have saved : Saved codec (resumed codec params row).view s :=
    path.invariant (start_saved codec params writable) fun _ _ _ saved stored moved => saved.step faithful stored moved
  obtain ⟨kept,stored,merged,held⟩ := saved.held
  obtain ⟨state,loaded,before,after⟩ := held.row
  refine ⟨kept,held.here,⟨stored,?_,(resumed_view loaded).trans before⟩,fun settled => ?_,fun exited => (saved.exited exited).2⟩
  · rw [held.events,List.append_assoc,List.append_assoc]
    exact List.prefix_append _ _
  · obtain ⟨received,sent,unarmed⟩ := settled
    have events := held.events
    rw [received,sent,List.append_nil,List.append_nil] at events
    rw [saved.idle unarmed,overlay_default] at after
    rw [resumed_view loaded,after,← events,saved.known]

end Restarts

section Examples

def readNumber : Content → Option String
  | .scalar (.number text) => some text
  | _ => none

-- The tokens used, and the size of the context.
def counted : UsageCodec (String × String) where
  encode usage := .object [("size",.scalar (.number usage.2)),("used",.scalar (.number usage.1))]
  decode value := do return (← (getField "used" (fieldsOf value)).bind readNumber,← (getField "size" (fieldsOf value)).bind readNumber)

def newRow : AcpSessionRow := ⟨none,some (.object [])⟩

def claude : AcpSessionParams := ⟨⟨some "claude",none,true,false⟩,none,none,none,true,none⟩

-- The mode is saved at the deadline, the model and the usage when the session ends.
theorem interrupted_session_resumes_saved : ∃ s kept, exec (step counted) (start counted claude newRow)
    [.update [.setSessionId "s1",.applyObservedMode "plan"],.send,.send,.receive true,.receive true,.timeout true,
      .update [.confirmModel "opus",.applyContextUsage ("10","200")],.send,.send,.drop,.receive true,.receive true,.close true] = some s ∧
    s.row = some kept ∧ (resumed counted claude kept).view = s.tracked.view ∧ s.tracked.view.mode = some "plan" ∧
    s.tracked.view.model = some "opus" ∧ s.tracked.view.usage = some ("10","200") := by
  have path : ∃ s, RunsWhere (step counted) Stored (start counted claude newRow)
      [.update [.setSessionId "s1",.applyObservedMode "plan"],.send,.send,.receive true,.receive true,.timeout true,
        .update [.confirmModel "opus",.applyContextUsage ("10","200")],.send,.send,.drop,.receive true,.receive true,.close true] s ∧
      s.exited = true ∧ s.tracked.view.mode = some "plan" ∧ s.tracked.view.model = some "opus" ∧ s.tracked.view.usage = some ("10","200") :=
    ⟨_,.cons trivial rfl (.cons trivial rfl (.cons trivial rfl (.cons rfl rfl (.cons rfl rfl (.cons rfl rfl (.cons trivial rfl (.cons trivial rfl
      (.cons trivial rfl (.cons trivial rfl (.cons rfl rfl (.cons rfl rfl (.cons rfl rfl .nil)))))))))))),rfl,rfl,rfl,rfl⟩
  obtain ⟨s,path,exited,values⟩ := path
  obtain ⟨kept,here,-,settles,settled⟩ := interrupted_session_resumes (fun _ => rfl) ⟨[],rfl,fun _ absent => by cases absent⟩ path
  exact ⟨s,kept,exec_exact.mpr path.runs,here,settles (settled exited),values⟩

end Examples

end AlineaCopilot.AcpSessionSync
