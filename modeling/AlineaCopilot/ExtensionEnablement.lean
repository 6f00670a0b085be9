import AlineaCopilot.ExtensionDependencies
import AlineaCopilot.KeyedMaps
import AlineaCopilot.TransitionRuns

open AlineaCopilot.KeyedMaps AlineaCopilot.TransitionRuns

namespace AlineaCopilot.ExtensionEnablement

structure LifecycleHooks where
  onInstall : Option String
  onUninstall : Option String
  onActivate : Option String
  onDeactivate : Option String

structure ExtensionManifest extends ExtensionDependencies.ExtensionManifest where
  lifecycle : Option LifecycleHooks

structure ExtensionState where
  name : String
  version : String
  enabled : Bool
  installedAt : Option Int
  lastActivatedAt : Option Int

-- Every operation leaves the name and the version of the state those of its manifest.
structure LoadedExtension where
  manifest : ExtensionManifest
  directory : String
  state : ExtensionState
  named : state.name = manifest.name
  versioned : state.version = manifest.version

def LoadedExtension.name (ext : LoadedExtension) : String := ext.manifest.name

def loadSingleExtension (manifest : ExtensionManifest) (directory : String) : LoadedExtension where
  manifest := manifest
  directory := directory
  state := ⟨manifest.name,manifest.version,true,none,none⟩
  named := rfl
  versioned := rfl

-- What `load_and_validate` answers: which directories hold a manifest that is valid
-- and compatible is up to the disk, but a name is found once.
structure Scan where
  found : List (ExtensionManifest × String)
  distinct : (found.map fun entry => entry.1.name).Nodup

def Scan.extensions (scan : Scan) : List LoadedExtension :=
  scan.found.map fun entry => loadSingleExtension entry.1 entry.2

abbrev StateMap := KeyedMap String ExtensionState

def LoadedExtension.restored (ext : LoadedExtension) (persisted : StateMap) : LoadedExtension :=
  match persisted.lookup ext.name with
  | some saved => { ext with
      state := { ext.state with enabled := saved.enabled, installedAt := saved.installedAt, lastActivatedAt := saved.lastActivatedAt } }
  | none => ext

def mergePersistedStates (extensions : List LoadedExtension) (persisted : StateMap) : List LoadedExtension :=
  extensions.map (LoadedExtension.restored · persisted)

-- The hooks are programs of their own; their failures are logged only.
def runActivationHooks (now : Int) (extensions : List LoadedExtension) : List LoadedExtension :=
  extensions.map fun ext =>
    if ext.state.enabled then { ext with
      state := { ext.state with lastActivatedAt := some now, installedAt := ext.state.installedAt.or (some now) } }
    else ext

def buildStateMap (extensions : List LoadedExtension) : StateMap :=
  collect (extensions.map fun ext => ⟨ext.state.name,ext.state⟩)

structure PersistedExtensionState where
  enabled : Bool
  installed : Option Bool
  lastVersion : Option String
deriving DecidableEq

structure PersistedStates where
  version : Nat
  extensions : KeyedMap String PersistedExtensionState
deriving DecidableEq

-- No file is an empty map.
def parseStates : Option PersistedStates → Option StateMap
  | none => some ∅
  | some persisted =>
    if persisted.version = 1 then
      some (mapEntries (fun name state =>
        ⟨name,state.lastVersion.getD "",state.enabled,if state.installed = some true then some 0 else none,none⟩) persisted.extensions)
    else none

def saveStates (states : StateMap) : PersistedStates where
  version := 1
  extensions := mapEntries (fun _ state =>
    ⟨state.enabled,state.installedAt.map fun _ => true,if state.version = "" then none else some state.version⟩) states

variable {Resolved : Type}

-- The lists of each kind are those of the extensions one after another; what a
-- single one's manifest and files resolve to is left to the moment.
def resolveAllContributions (resolve : LoadedExtension → Resolved) (extensions : List LoadedExtension) : List (String × Resolved) :=
  (extensions.filter (·.state.enabled)).map fun ext => (ext.name,resolve ext)

-- How far a call of `initialize` or `hot_reload` has come.
inductive Stage (Resolved : Type) where
  | deactivating (active : List LoadedExtension) (scanned : Bool)
  | found (scan : Scan)
  | loaded (scan : Scan) (persisted : StateMap)
  | activating (extensions : List LoadedExtension) (persisted : StateMap)
  | storing (extensions : List LoadedExtension) (contributions : List (String × Resolved))
  | committing (extensions : List LoadedExtension) (contributions : List (String × Resolved))

structure Reload (Resolved : Type) where
  initializing : Bool
  stage : Stage Resolved

-- `changes` are the calls of `enable_extension` and `disable_extension` that have left
-- the write lock and not reached the store, `returning` those that have, both in the
-- order of their coming. `asked` is what the last one that returned asked for.
structure Registry (Resolved : Type) where
  extensions : List LoadedExtension
  contributions : List (String × Resolved)
  initialized : Bool
  states : StateMap
  writerSpawned : Bool
  writing : Option StateMap
  file : Option PersistedStates
  changes : List ExtensionState
  returning : List ExtensionState
  reloads : List (Reload Resolved)
  asked : String → Bool

inductive Action (Resolved : Type) where
  | toggle (name : String) (enable : Bool) (now : Int) (resolve : LoadedExtension → Resolved)
  | store (i : Nat)
  | respond (i : Nat)
  | initializeWithScanPaths (scan : Scan)
  | hotReload
  | deactivated (i : Nat) (scan : Scan)
  | readFile (i : Nat) (readable : Bool)
  | merge (i : Nat)
  | activated (i : Nat) (now : Int) (resolve : LoadedExtension → Resolved)
  | setAll (i : Nat)
  | commit (i : Nat)
  | takeSnapshot
  | save
  | restart

def LoadedExtension.toggled (ext : LoadedExtension) (enable : Bool) (now : Int) : LoadedExtension :=
  { ext with state := { ext.state with enabled := enable, lastActivatedAt := if enable then some now else ext.state.lastActivatedAt } }

-- The first extension of the name.
def toggleFirst (name : String) (enable : Bool) (now : Int) : List LoadedExtension → List LoadedExtension
  | [] => []
  | ext :: rest => if ext.name = name then ext.toggled enable now :: rest else ext :: toggleFirst name enable now rest

def Registry.goes (registry : Registry Resolved) (i : Nat) (reload : Reload Resolved) (stage : Stage Resolved) : Registry Resolved :=
  { registry with reloads := registry.reloads.set i { reload with stage := stage } }

-- The registry of a process that has just begun.
def reborn (file : Option PersistedStates) (asked : String → Bool) : Registry Resolved :=
  ⟨[],[],false,∅,false,none,file,[],[],[],asked⟩

-- Without scan paths nothing is found.
def allowed (scanned : Bool) (scan : Scan) : Bool := scanned || scan.found.isEmpty

def step (registry : Registry Resolved) : Action Resolved → Option (Registry Resolved)
  | .toggle name enable now resolve =>
    match registry.extensions.find? (·.name = name) with
    | none => some registry
    | some ext =>
      if ext.state.enabled = enable then some { registry with asked := Function.update registry.asked name enable }
      else
        let extensions := toggleFirst name enable now registry.extensions
        some { registry with
          extensions := extensions
          contributions := resolveAllContributions resolve extensions
          changes := registry.changes ++ [(ext.toggled enable now).state] }
  | .store i =>
    (registry.changes[i]?).map fun state => { registry with
      states := registry.states.insert state.name state
      writerSpawned := true
      changes := registry.changes.eraseIdx i
      returning := registry.returning ++ [state] }
  | .respond i =>
    (registry.returning[i]?).map fun state => { registry with
      returning := registry.returning.eraseIdx i
      asked := Function.update registry.asked state.name state.enabled }
  | .initializeWithScanPaths scan => some { registry with reloads := registry.reloads ++ [⟨true,.found scan⟩] }
  | .hotReload => some { registry with reloads := registry.reloads ++ [⟨false,.deactivating registry.extensions registry.initialized⟩] }
  | .deactivated i scan =>
    match registry.reloads[i]? with
    | some ⟨initializing,.deactivating active scanned⟩ =>
      if allowed scanned scan then some (registry.goes i ⟨initializing,.deactivating active scanned⟩ (.found scan)) else none
    | _ => none
  | .readFile i readable =>
    match registry.reloads[i]? with
    | some ⟨true,.found scan⟩ =>
      match if readable then parseStates registry.file else none with
      | some persisted => some (registry.goes i ⟨true,.found scan⟩ (.loaded scan persisted))
      | none => some { registry with reloads := registry.reloads.eraseIdx i }
    | _ => none
  -- `load` puts what it has read in the store's place, a hot reload takes the store as it is.
  | .merge i =>
    match registry.reloads[i]? with
    | some ⟨true,.loaded scan persisted⟩ =>
      some { registry.goes i ⟨true,.loaded scan persisted⟩ (.activating (mergePersistedStates scan.extensions persisted) persisted) with
        states := persisted }
    | some ⟨false,.found scan⟩ =>
      some (registry.goes i ⟨false,.found scan⟩ (.activating (mergePersistedStates scan.extensions registry.states) registry.states))
    | _ => none
  | .activated i now resolve =>
    match registry.reloads[i]? with
    | some ⟨initializing,.activating extensions persisted⟩ =>
      let activated := runActivationHooks now extensions
      some (registry.goes i ⟨initializing,.activating extensions persisted⟩ (.storing activated (resolveAllContributions resolve activated)))
    | _ => none
  | .setAll i =>
    match registry.reloads[i]? with
    | some ⟨initializing,.storing extensions contributions⟩ =>
      some { registry.goes i ⟨initializing,.storing extensions contributions⟩ (.committing extensions contributions) with
        states := buildStateMap extensions
        writerSpawned := true }
    | _ => none
  | .commit i =>
    match registry.reloads[i]? with
    | some ⟨initializing,.committing extensions contributions⟩ =>
      some { registry with
        extensions := extensions
        contributions := contributions
        initialized := registry.initialized || initializing
        reloads := registry.reloads.eraseIdx i }
    | _ => none
  | .takeSnapshot => if registry.writerSpawned then some { registry with writing := some registry.states } else none
  | .save => registry.writing.map fun states => { registry with writing := none, file := some (saveStates states) }
  -- The process ends with nothing under way and its states on the file.
  | .restart =>
    if registry.changes.isEmpty && registry.returning.isEmpty && registry.reloads.isEmpty then
      if registry.writerSpawned = false ∨ registry.file = some (saveStates registry.states) then
        some (reborn registry.file registry.asked)
      else none
    else none

section Flags
variable {states persisted : StateMap} {extensions : List LoadedExtension} {name other : String}

-- An extension of which nothing is recorded is enabled.
def enabledIn (states : StateMap) (name : String) : Bool := ((states.lookup name).map ExtensionState.enabled).getD true

def Distinct (extensions : List LoadedExtension) : Prop := (extensions.map LoadedExtension.name).Nodup

theorem enabledIn_insert (state : ExtensionState) :
    enabledIn (states.insert state.name state) name = if name = state.name then state.enabled else enabledIn states name := by
  rw [enabledIn,lookup_insert_eq]
  split
  · rfl
  · rfl

theorem restored_name (ext : LoadedExtension) : (ext.restored persisted).name = ext.name := by
  unfold LoadedExtension.restored
  split <;> rfl

theorem restored_enabled {ext : LoadedExtension} (default : ext.state.enabled = true) :
    (ext.restored persisted).state.enabled = enabledIn persisted ext.name := by
  unfold LoadedExtension.restored enabledIn
  split
  · rename_i saved held
    rw [held]
    rfl
  · rename_i absent
    rw [absent]
    exact default

theorem merge_names : (mergePersistedStates extensions persisted).map LoadedExtension.name = extensions.map LoadedExtension.name := by
  rw [mergePersistedStates,List.map_map]
  exact List.map_congr_left fun ext _ => restored_name ext

theorem merge_enabled (scan : Scan) {ext : LoadedExtension} (inside : ext ∈ mergePersistedStates scan.extensions persisted) :
    ext.state.enabled = enabledIn persisted ext.name := by
  obtain ⟨loaded,there,rfl⟩ := List.mem_map.mp inside
  obtain ⟨entry,-,rfl⟩ := List.mem_map.mp there
  rw [restored_name]
  exact restored_enabled rfl

theorem merge_manifest (scan : Scan) {ext : LoadedExtension} (inside : ext ∈ mergePersistedStates scan.extensions persisted) :
    ∃ entry ∈ scan.found, ext.manifest = entry.1 := by
  obtain ⟨loaded,there,rfl⟩ := List.mem_map.mp inside
  obtain ⟨entry,held,rfl⟩ := List.mem_map.mp there
  refine ⟨entry,held,?_⟩
  unfold LoadedExtension.restored
  split <;> rfl

theorem merge_distinct (scan : Scan) : Distinct (mergePersistedStates scan.extensions persisted) := by
  rw [Distinct,merge_names,Scan.extensions,List.map_map]
  exact scan.distinct

theorem hooks_names (now : Int) : (runActivationHooks now extensions).map LoadedExtension.name = extensions.map LoadedExtension.name := by
  rw [runActivationHooks,List.map_map]
  refine List.map_congr_left fun ext _ => ?_
  simp only [Function.comp_apply]
  split <;> rfl

-- A hook's run leaves the flags as they are.
theorem hooks_kept {now : Int} {ext : LoadedExtension} (inside : ext ∈ runActivationHooks now extensions) :
    ∃ before ∈ extensions, before.manifest = ext.manifest ∧ before.state.enabled = ext.state.enabled := by
  obtain ⟨before,there,rfl⟩ := List.mem_map.mp inside
  refine ⟨before,there,?_⟩
  split <;> exact ⟨rfl,rfl⟩

theorem lookup_buildStateMap (distinct : Distinct extensions) :
    (buildStateMap extensions).lookup name = (extensions.find? (·.name = name)).map LoadedExtension.state := by
  have keys : ((extensions.map fun ext => (⟨ext.state.name,ext.state⟩ : Sigma fun _ : String => ExtensionState)).keys).Nodup := by
    have same : (extensions.map fun ext => (⟨ext.state.name,ext.state⟩ : Sigma fun _ : String => ExtensionState)).keys =
        extensions.map LoadedExtension.name := by
      rw [List.keys,List.map_map]
      exact List.map_congr_left fun ext _ => ext.named
    rw [same]
    exact distinct
  rw [buildStateMap,collect,lookup_inserted _ keys,AList.lookup_empty,Option.or_none]
  clear keys distinct
  induction extensions with
  | nil => rfl
  | cons ext rest ih =>
    rw [List.map_cons,List.find?_cons]
    by_cases same : ext.name = name
    · have key : name = ext.state.name := same.symm.trans ext.named.symm
      subst key
      rw [List.dlookup_cons_eq,decide_eq_true same]
      rfl
    · rw [List.dlookup_cons_ne _ _ fun key => same (ext.named.symm.trans key.symm),ih,decide_eq_false same]

theorem find_distinct (distinct : Distinct extensions) {ext : LoadedExtension} (inside : ext ∈ extensions) :
    extensions.find? (·.name = ext.name) = some ext := by
  induction extensions with
  | nil => cases inside
  | cons first rest ih =>
    obtain ⟨apart,later⟩ := List.nodup_cons.mp distinct
    rw [List.find?_cons]
    rcases List.mem_cons.mp inside with rfl | there
    · rw [decide_eq_true rfl]
    · have differs : first.name ≠ ext.name := fun same => apart (same ▸ List.mem_map_of_mem there)
      rw [decide_eq_false differs]
      exact ih later there

theorem built_enabled (distinct : Distinct extensions) {ext : LoadedExtension} (inside : ext ∈ extensions) :
    enabledIn (buildStateMap extensions) ext.name = ext.state.enabled := by
  rw [enabledIn,lookup_buildStateMap distinct,find_distinct distinct inside]
  rfl

theorem built_absent (distinct : Distinct extensions) (absent : name ∉ extensions.map LoadedExtension.name) :
    enabledIn (buildStateMap extensions) name = true := by
  have none_found : extensions.find? (·.name = name) = none :=
    List.find?_eq_none.mpr fun ext inside same => absent (of_decide_eq_true same ▸ List.mem_map_of_mem inside)
  rw [enabledIn,lookup_buildStateMap distinct,none_found]
  rfl

-- What is written to the file gives the same flags when it is read.
theorem saved_enabled : ((parseStates (some (saveStates states))).map fun map => enabledIn map name) = some (enabledIn states name) := by
  rw [parseStates,if_pos (show (saveStates states).version = 1 from rfl),Option.map_some,enabledIn,enabledIn,
    saveStates,lookup_mapEntries,lookup_mapEntries,Option.map_map,Option.map_map]
  rfl

theorem toggleFirst_cons {enable : Bool} {now : Int} {ext : LoadedExtension} : toggleFirst name enable now (ext :: extensions) =
    if ext.name = name then ext.toggled enable now :: extensions else ext :: toggleFirst name enable now extensions := rfl

theorem toggled_names (enable : Bool) (now : Int) :
    (toggleFirst name enable now extensions).map LoadedExtension.name = extensions.map LoadedExtension.name := by
  induction extensions with
  | nil => rfl
  | cons ext rest ih =>
    rw [toggleFirst_cons]
    split
    · rfl
    · rw [List.map_cons,List.map_cons,ih]

theorem toggled_manifest {enable : Bool} {now : Int} {ext : LoadedExtension} (inside : ext ∈ toggleFirst name enable now extensions) :
    ∃ before ∈ extensions, before.manifest = ext.manifest := by
  induction extensions with
  | nil => cases inside
  | cons first rest ih =>
    rw [toggleFirst_cons] at inside
    split at inside
    · rcases List.mem_cons.mp inside with rfl | there
      · exact ⟨first,List.mem_cons_self,rfl⟩
      · exact ⟨ext,List.mem_cons_of_mem _ there,rfl⟩
    · rcases List.mem_cons.mp inside with rfl | there
      · exact ⟨_,List.mem_cons_self,rfl⟩
      · obtain ⟨before,held,same⟩ := ih there
        exact ⟨before,List.mem_cons_of_mem _ held,same⟩

theorem toggled_flags {enable : Bool} {now : Int} (distinct : Distinct extensions) {ext : LoadedExtension}
    (inside : ext ∈ toggleFirst name enable now extensions) :
    ext.name = name ∧ ext.state.enabled = enable ∨ ext.name ≠ name ∧ ext ∈ extensions := by
  induction extensions with
  | nil => cases inside
  | cons first rest ih =>
    obtain ⟨apart,later⟩ := List.nodup_cons.mp distinct
    rw [toggleFirst_cons] at inside
    split at inside
    · rename_i same
      rcases List.mem_cons.mp inside with rfl | there
      · exact .inl ⟨same,rfl⟩
      · exact .inr ⟨fun also => apart (same.trans also.symm ▸ List.mem_map_of_mem there),List.mem_cons_of_mem _ there⟩
    · rename_i differs
      rcases List.mem_cons.mp inside with rfl | there
      · exact .inr ⟨differs,List.mem_cons_self⟩
      · exact (ih later there).imp_right fun held => ⟨held.1,List.mem_cons_of_mem _ held.2⟩

end Flags

section Calls
variable {calls : List ExtensionState} {state : ExtensionState} {name : String} {asked : Bool}

-- What the newest call about an extension asks for.
def newest (calls : List ExtensionState) (name : String) (asked : Bool) : Bool :=
  ((calls.filter (·.name = name)).getLast?.map ExtensionState.enabled).getD asked

theorem newest_cons : newest (state :: calls) name asked = newest calls name (if state.name = name then state.enabled else asked) := by
  rw [newest,newest,List.filter_cons]
  by_cases same : state.name = name
  · rw [if_pos (decide_eq_true same),if_pos same,List.getLast?_cons,Option.map_some,Option.getD_some]
    cases (calls.filter (·.name = name)).getLast? <;> rfl
  · rw [if_neg (by simpa using same),if_neg same]

theorem newest_snoc : newest (calls ++ [state]) name asked = if state.name = name then state.enabled else newest calls name asked := by
  rw [newest,newest,List.filter_append,List.filter_cons]
  by_cases same : state.name = name
  · rw [if_pos (decide_eq_true same),if_pos same,List.filter_nil,List.getLast?_concat]
    rfl
  · rw [if_neg (by simpa using same),if_neg same,List.filter_nil,List.append_nil]

theorem newest_again : newest calls name (newest calls name asked) = newest calls name asked := by
  rw [newest,newest]
  cases (calls.filter (·.name = name)).getLast? <;> rfl

theorem filter_absent (absent : ∀ call ∈ calls, call.name ≠ name) : calls.filter (·.name = name) = [] :=
  List.filter_eq_nil_iff.mpr fun call inside same => absent call inside (of_decide_eq_true same)

theorem newest_append {later : List ExtensionState} (absent : ∀ call ∈ later, call.name ≠ name) :
    newest (calls ++ later) name asked = newest calls name asked := by
  rw [newest,newest,List.filter_append,filter_absent absent,List.append_nil]

theorem split_at {i : Nat} (at_i : calls[i]? = some state) : calls = calls.take i ++ state :: calls.drop (i + 1) := by
  obtain ⟨bound,rfl⟩ := List.getElem?_eq_some_iff.mp at_i
  rw [← List.drop_eq_getElem_cons bound,List.take_append_drop]

theorem mem_erased {i : Nat} {call : ExtensionState} (at_i : calls[i]? = some state) (inside : call ∈ calls) :
    call = state ∨ call ∈ calls.eraseIdx i := by
  rw [split_at at_i] at inside
  rw [List.eraseIdx_eq_take_drop_succ]
  rcases List.mem_append.mp inside with before | there
  · exact .inr (List.mem_append_left _ before)
  · exact (List.mem_cons.mp there).imp_right fun later => List.mem_append_right _ later

-- A call goes ahead of those about other extensions.
theorem filter_ahead {i : Nat} (at_i : calls[i]? = some state) (first : state.name = name → ∀ call ∈ calls.take i, call.name ≠ name) :
    ([state] ++ calls.eraseIdx i).filter (·.name = name) = calls.filter (·.name = name) := by
  rw [List.eraseIdx_eq_take_drop_succ]
  conv_rhs => rw [split_at at_i]
  rw [List.filter_append,List.filter_append,List.filter_append]
  by_cases same : state.name = name
  · rw [filter_absent (first same),List.nil_append,List.nil_append,← List.filter_append]
    rfl
  · rw [List.filter_cons_of_neg (by simpa using same),List.filter_nil,List.nil_append,List.filter_cons_of_neg (by simpa using same)]

theorem newest_stored {returning changes : List ExtensionState} {i : Nat} (at_i : changes[i]? = some state)
    (first : state.name = name → ∀ call ∈ changes.take i, call.name ≠ name) :
    newest ((returning ++ [state]) ++ changes.eraseIdx i) name asked = newest (returning ++ changes) name asked := by
  rw [newest,newest,List.append_assoc,List.filter_append,filter_ahead at_i first,← List.filter_append]

theorem newest_responded {returning changes : List ExtensionState} {asked : String → Bool} {i : Nat} (at_i : returning[i]? = some state)
    (first : state.name = name → ∀ call ∈ returning.take i, call.name ≠ name) :
    newest (returning.eraseIdx i ++ changes) name (Function.update asked state.name state.enabled name) =
      newest (returning ++ changes) name (asked name) := by
  have ahead : newest (returning ++ changes) name (asked name) = newest ([state] ++ (returning.eraseIdx i ++ changes)) name (asked name) := by
    rw [newest,newest,← List.append_assoc,List.filter_append,List.filter_append,filter_ahead at_i first]
  rw [ahead,List.singleton_append,newest_cons]
  by_cases same : state.name = name
  · rw [if_pos same,← same,Function.update_self]
  · rw [if_neg same,Function.update_of_ne (Ne.symm same)]

end Calls

section Invariant

-- What the file gives, or the store has taken its place.
def Registry.recorded (registry : Registry Resolved) : StateMap :=
  if registry.writerSpawned then registry.states else (parseStates registry.file).getD ∅

def Registry.wanted (registry : Registry Resolved) (name : String) : Bool :=
  newest (registry.returning ++ registry.changes) name (registry.asked name)

def enabledNames (extensions : List LoadedExtension) : List String := (extensions.filter (·.state.enabled)).map LoadedExtension.name

-- The extensions that a reload is going to put in the registry's place.
def Stage.carried : Stage Resolved → Option (List LoadedExtension)
  | .deactivating .. | .found _ | .loaded .. => none
  | .activating extensions _ | .storing extensions _ | .committing extensions _ => some extensions

def Reload.takes (registry : Registry Resolved) (reload : Reload Resolved) : StateMap :=
  match reload.stage with
  | .loaded _ persisted => persisted
  | _ => registry.states

-- About one extension: its flag does not change while a reload holds extensions of its
-- own, no reload takes states that a change of it has not reached or that the store
-- does not hold, calls about it reach the store and return in the order of their
-- changes, and where it is recorded as disabled a reload finds it.
def Careful (name : String) (registry : Registry Resolved) : Action Resolved → Prop
  | .toggle other enable _ _ => other = name →
    (∃ ext ∈ registry.extensions, ext.name = name ∧ ext.state.enabled ≠ enable) → ∀ reload ∈ registry.reloads, reload.stage.carried = none
  | .store i => ∀ state, registry.changes[i]? = some state → state.name = name → ∀ call ∈ registry.changes.take i, call.name ≠ name
  | .respond i => ∀ state, registry.returning[i]? = some state → state.name = name → ∀ call ∈ registry.returning.take i, call.name ≠ name
  | .merge i => (∀ call ∈ registry.changes, call.name ≠ name) ∧
    ∀ reload, registry.reloads[i]? = some reload → enabledIn (reload.takes registry) name = enabledIn registry.recorded name
  | .setAll i => ∀ reload, registry.reloads[i]? = some reload → ∀ extensions, reload.stage.carried = some extensions →
    enabledIn registry.recorded name = false → name ∈ extensions.map LoadedExtension.name
  | .initializeWithScanPaths _ | .hotReload | .deactivated .. | .readFile .. | .activated .. | .commit _ | .takeSnapshot | .save | .restart => True

structure Carries (name : String) (registry : Registry Resolved) (extensions : List LoadedExtension) : Prop where
  settled : ∀ call ∈ registry.changes, call.name ≠ name
  distinct : Distinct extensions
  flags : ∀ ext ∈ extensions, ext.name = name → ext.state.enabled = registry.wanted name

def Stage.Sound (name : String) (registry : Registry Resolved) : Stage Resolved → Prop
  | .deactivating .. | .found _ | .loaded .. => True
  | .activating extensions _ => Carries name registry extensions
  | .storing extensions contributions => Carries name registry extensions ∧ contributions.map Prod.fst = enabledNames extensions
  | .committing extensions contributions =>
    registry.writerSpawned = true ∧ Carries name registry extensions ∧ contributions.map Prod.fst = enabledNames extensions

structure Kept (name : String) (registry : Registry Resolved) : Prop where
  distinct : Distinct registry.extensions
  contributed : registry.contributions.map Prod.fst = enabledNames registry.extensions
  loaded : ∀ ext ∈ registry.extensions, ext.name = name → ext.state.enabled = registry.wanted name
  recorded : (∀ call ∈ registry.changes, call.name ≠ name) → enabledIn registry.recorded name = registry.wanted name
  fresh : registry.writerSpawned = false →
    registry.extensions = [] ∧ registry.changes = [] ∧ registry.returning = [] ∧ registry.writing = none
  reloads : ∀ reload ∈ registry.reloads, reload.stage.Sound name registry

variable {name : String} {before after registry : Registry Resolved}

theorem resolved_names (resolve : LoadedExtension → Resolved) (extensions : List LoadedExtension) :
    (resolveAllContributions resolve extensions).map Prod.fst = enabledNames extensions := by
  rw [resolveAllContributions,List.map_map]
  rfl

theorem Carries.frame {extensions : List LoadedExtension} (carries : Carries name before extensions)
    (changes : (∀ call ∈ before.changes, call.name ≠ name) → ∀ call ∈ after.changes, call.name ≠ name)
    (wanted : after.wanted name = before.wanted name) : Carries name after extensions :=
  ⟨changes carries.settled,carries.distinct,fun ext inside same => (carries.flags ext inside same).trans wanted.symm⟩

theorem Stage.Sound.frame {stage : Stage Resolved} (sound : stage.Sound name before)
    (changes : (∀ call ∈ before.changes, call.name ≠ name) → ∀ call ∈ after.changes, call.name ≠ name)
    (wanted : after.wanted name = before.wanted name) (spawned : before.writerSpawned = true → after.writerSpawned = true) :
    stage.Sound name after := by
  cases stage with
  | deactivating active scanned => trivial
  | found scan => trivial
  | loaded scan persisted => trivial
  | activating extensions persisted => exact Carries.frame sound changes wanted
  | storing extensions contributions => exact ⟨sound.1.frame changes wanted,sound.2⟩
  | committing extensions contributions => exact ⟨spawned sound.1,sound.2.1.frame changes wanted,sound.2.2⟩

theorem sound_empty {stage : Stage Resolved} (empty : stage.carried = none) : stage.Sound name registry := by
  cases stage with
  | deactivating active scanned => trivial
  | found scan => trivial
  | loaded scan persisted => trivial
  | activating extensions persisted => cases empty
  | storing extensions contributions => cases empty
  | committing extensions contributions => cases empty

-- Only the reloads change.
theorem Kept.reloading {reloads : List (Reload Resolved)} (kept : Kept name registry)
    (each : ∀ reload ∈ reloads, reload ∈ registry.reloads ∨ reload.stage.Sound name registry) :
    Kept name { registry with reloads := reloads } where
  distinct := kept.distinct
  contributed := kept.contributed
  loaded := kept.loaded
  recorded := kept.recorded
  fresh := kept.fresh
  reloads := fun reload inside => ((each reload inside).elim (kept.reloads reload) id).frame id rfl id

theorem Kept.goes {i : Nat} {reload : Reload Resolved} {stage : Stage Resolved} (kept : Kept name registry)
    (sound : stage.Sound name registry) : Kept name (registry.goes i reload stage) :=
  kept.reloading fun one inside => by
    rcases List.mem_or_eq_of_mem_set inside with there | rfl
    · exact .inl there
    · exact .inr sound

theorem Kept.ends {i : Nat} (kept : Kept name registry) : Kept name { registry with reloads := registry.reloads.eraseIdx i } :=
  kept.reloading fun _ inside => .inl (List.mem_of_mem_eraseIdx inside)

theorem Kept.begins {reload : Reload Resolved} (kept : Kept name registry) (empty : reload.stage.carried = none) :
    Kept name { registry with reloads := registry.reloads ++ [reload] } :=
  kept.reloading fun one inside => by
    rcases List.mem_append.mp inside with there | new
    · exact .inl there
    · rw [List.mem_singleton.mp new]
      exact .inr (sound_empty empty)

theorem Kept.spawned (kept : Kept name registry)
    (begun : registry.extensions ≠ [] ∨ registry.changes ≠ [] ∨ registry.returning ≠ [] ∨ registry.writing ≠ none) :
    registry.writerSpawned = true := by
  cases spawned : registry.writerSpawned with
  | true => rfl
  | false =>
    obtain ⟨extensions,changes,returning,writing⟩ := kept.fresh spawned
    rcases begun with loaded | changed | returns | writes
    · exact absurd extensions loaded
    · exact absurd changes changed
    · exact absurd returning returns
    · exact absurd writing writes

end Invariant

section Steps
variable {before after registry : Registry Resolved} {name : String} {i : Nat}

theorem respond_kept {state : ExtensionState} (kept : Kept name registry) (at_i : registry.returning[i]? = some state)
    (first : state.name = name → ∀ call ∈ registry.returning.take i, call.name ≠ name) :
    Kept name { registry with
      returning := registry.returning.eraseIdx i
      asked := Function.update registry.asked state.name state.enabled } := by
  have wanted : newest (registry.returning.eraseIdx i ++ registry.changes) name (Function.update registry.asked state.name state.enabled name) =
      registry.wanted name := newest_responded at_i first
  have spawned := kept.spawned (.inr (.inr (.inl (List.ne_nil_of_mem (List.mem_of_getElem? at_i)))))
  refine ⟨kept.distinct,kept.contributed,?_,?_,?_,?_⟩
  · exact fun ext inside same => (kept.loaded ext inside same).trans wanted.symm
  · exact fun absent => (kept.recorded absent).trans wanted.symm
  · exact fun unspawned => absurd (spawned.symm.trans unspawned) (by simp)
  · exact fun reload inside => (kept.reloads reload inside).frame id wanted id

theorem store_kept {state : ExtensionState} (kept : Kept name registry) (at_i : registry.changes[i]? = some state)
    (first : state.name = name → ∀ call ∈ registry.changes.take i, call.name ≠ name) :
    Kept name { registry with
      states := registry.states.insert state.name state
      writerSpawned := true
      changes := registry.changes.eraseIdx i
      returning := registry.returning ++ [state] } := by
  have wanted : newest (registry.returning ++ [state] ++ registry.changes.eraseIdx i) name (registry.asked name) = registry.wanted name :=
    newest_stored at_i first
  have spawned := kept.spawned (.inr (.inl (List.ne_nil_of_mem (List.mem_of_getElem? at_i))))
  refine ⟨kept.distinct,kept.contributed,?_,?_,?_,?_⟩
  · exact fun ext inside same => (kept.loaded ext inside same).trans wanted.symm
  · intro absent
    change enabledIn (registry.states.insert state.name state) name = _
    rw [enabledIn_insert]
    split
    · rename_i same
      change state.enabled = newest (registry.returning ++ [state] ++ registry.changes.eraseIdx i) name (registry.asked name)
      rw [newest_append absent,newest_snoc,if_pos same.symm]
    · rename_i differs
      have others : ∀ call ∈ registry.changes, call.name ≠ name := by
        intro call inside
        rcases mem_erased at_i inside with rfl | there
        · exact fun same => differs same.symm
        · exact absent call there
      have recorded := kept.recorded others
      rw [Registry.recorded,if_pos spawned] at recorded
      exact recorded.trans wanted.symm
  · exact fun unspawned => absurd unspawned (by simp)
  · intro reload inside
    exact (kept.reloads reload inside).frame (fun absent call there => absent call (List.mem_of_mem_eraseIdx there)) wanted fun _ => rfl

-- A call that finds the flag as it wants it asks for what is wanted.
theorem early_wanted {ext : LoadedExtension} (kept : Kept name registry) (inside : ext ∈ registry.extensions) :
    newest (registry.returning ++ registry.changes) name (Function.update registry.asked ext.name ext.state.enabled name) =
      registry.wanted name := by
  by_cases same : ext.name = name
  · rw [kept.loaded ext inside same,same,Function.update_self,Registry.wanted,newest_again]
  · rw [Function.update_of_ne (Ne.symm same)]
    rfl

theorem early_kept {ext : LoadedExtension} (kept : Kept name registry) (inside : ext ∈ registry.extensions) :
    Kept name { registry with asked := Function.update registry.asked ext.name ext.state.enabled } := by
  have wanted := early_wanted kept inside
  refine ⟨kept.distinct,kept.contributed,?_,?_,kept.fresh,?_⟩
  · exact fun one there same => (kept.loaded one there same).trans wanted.symm
  · exact fun absent => (kept.recorded absent).trans wanted.symm
  · exact fun reload there => (kept.reloads reload there).frame id wanted id

theorem change_wanted (registry : Registry Resolved) (ext : LoadedExtension) (enable : Bool) (now : Int) :
    newest (registry.returning ++ (registry.changes ++ [(ext.toggled enable now).state])) name (registry.asked name) =
      if ext.name = name then enable else registry.wanted name := by
  have named : (ext.toggled enable now).state.name = ext.name := ext.named
  rw [← List.append_assoc,newest_snoc,named]
  rfl

theorem change_kept {ext : LoadedExtension} {enable : Bool} {now : Int} {resolve : LoadedExtension → Resolved} (kept : Kept name registry)
    (inside : ext ∈ registry.extensions) (idle : ext.name = name → ∀ reload ∈ registry.reloads, reload.stage.carried = none) :
    Kept name { registry with
      extensions := toggleFirst ext.name enable now registry.extensions
      contributions := resolveAllContributions resolve (toggleFirst ext.name enable now registry.extensions)
      changes := registry.changes ++ [(ext.toggled enable now).state] } := by
  have named : (ext.toggled enable now).state.name = ext.name := ext.named
  have wanted : newest (registry.returning ++ (registry.changes ++ [(ext.toggled enable now).state])) name (registry.asked name) =
      if ext.name = name then enable else registry.wanted name := change_wanted registry ext enable now
  refine ⟨?_,resolved_names _ _,?_,?_,?_,?_⟩
  · exact (congrArg List.Nodup (toggled_names enable now)).mpr kept.distinct
  · intro one there own
    refine Eq.trans ?_ wanted.symm
    rcases toggled_flags kept.distinct there with ⟨same,flag⟩ | ⟨differs,held⟩
    · rw [if_pos (same.symm.trans own),flag]
    · rw [if_neg fun same => differs (own.trans same.symm),kept.loaded one held own]
  · intro absent
    have differs : ext.name ≠ name := named ▸ absent _ (List.mem_append_right _ List.mem_cons_self)
    refine Eq.trans ?_ wanted.symm
    rw [if_neg differs]
    exact kept.recorded fun call held => absent call (List.mem_append_left _ held)
  · exact fun unspawned => absurd ((kept.spawned (.inl (List.ne_nil_of_mem inside))).symm.trans unspawned) (by simp)
  · intro reload there
    by_cases same : ext.name = name
    · exact sound_empty (idle same reload there)
    · refine (kept.reloads reload there).frame (fun absent call held => ?_) (wanted.trans (if_neg same)) id
      rcases List.mem_append.mp held with before | new
      · exact absent call before
      · rw [List.mem_singleton.mp new,named]
        exact same

-- The states that a reload takes give the flag that holds.
theorem merged_carries {states : StateMap} (kept : Kept name registry) (scan : Scan) (settled : ∀ call ∈ registry.changes, call.name ≠ name)
    (same : enabledIn states name = enabledIn registry.recorded name) :
    Carries name registry (mergePersistedStates scan.extensions states) := by
  refine ⟨settled,merge_distinct scan,fun ext inside own => ?_⟩
  rw [merge_enabled scan inside,own,same]
  exact kept.recorded settled

theorem taken_kept {states : StateMap} (kept : Kept name registry) (same : enabledIn states name = enabledIn registry.recorded name) :
    Kept name { registry with states := states } where
  distinct := kept.distinct
  contributed := kept.contributed
  loaded := kept.loaded
  recorded := by
    intro absent
    refine Eq.trans ?_ (kept.recorded absent)
    change enabledIn (if registry.writerSpawned then states else (parseStates registry.file).getD ∅) name = _
    by_cases spawned : registry.writerSpawned = true
    · rw [if_pos spawned,same]
    · rw [if_neg spawned,Registry.recorded,if_neg spawned]
  fresh := kept.fresh
  reloads := fun reload inside => (kept.reloads reload inside).frame id rfl id

theorem Carries.activated {extensions : List LoadedExtension} (carries : Carries name registry extensions) (now : Int) :
    Carries name registry (runActivationHooks now extensions) := by
  refine ⟨carries.settled,(congrArg List.Nodup (hooks_names now)).mpr carries.distinct,fun ext inside own => ?_⟩
  obtain ⟨before,held,same,flag⟩ := hooks_kept inside
  rw [← flag]
  exact carries.flags before held ((congrArg (fun manifest : ExtensionManifest => manifest.name) same).trans own)

-- What is dropped from the store was enabled, as what is not recorded is.
theorem replaced_kept {extensions : List LoadedExtension} (kept : Kept name registry) (carries : Carries name registry extensions)
    (found : enabledIn registry.recorded name = false → name ∈ extensions.map LoadedExtension.name) :
    Kept name { registry with states := buildStateMap extensions, writerSpawned := true } where
  distinct := kept.distinct
  contributed := kept.contributed
  loaded := kept.loaded
  recorded := by
    intro absent
    have before := kept.recorded absent
    change enabledIn (buildStateMap extensions) name = registry.wanted name
    by_cases present : name ∈ extensions.map LoadedExtension.name
    · obtain ⟨ext,inside,rfl⟩ := List.mem_map.mp present
      rw [built_enabled carries.distinct inside,carries.flags ext inside rfl]
    · rw [built_absent carries.distinct present,← before]
      cases flag : enabledIn registry.recorded name with
      | true => rfl
      | false => exact absurd (found flag) present
  fresh := fun unspawned => absurd unspawned (by simp)
  reloads := fun reload inside => (kept.reloads reload inside).frame id rfl fun _ => rfl

theorem committed_kept {extensions : List LoadedExtension} {contributions : List (String × Resolved)} {initialized : Bool}
    (kept : Kept name registry) (spawned : registry.writerSpawned = true) (carries : Carries name registry extensions)
    (contributed : contributions.map Prod.fst = enabledNames extensions) :
    Kept name { registry with
      extensions := extensions
      contributions := contributions
      initialized := initialized
      reloads := registry.reloads.eraseIdx i } where
  distinct := carries.distinct
  contributed := contributed
  loaded := carries.flags
  recorded := kept.recorded
  fresh := fun unspawned => absurd (spawned.symm.trans unspawned) (by simp)
  reloads := fun reload inside => (kept.reloads reload (List.mem_of_mem_eraseIdx inside)).frame id rfl id

theorem filed_kept {states : StateMap} (kept : Kept name registry) (writing : registry.writing = some states) :
    Kept name { registry with writing := none, file := some (saveStates states) } := by
  have spawned := kept.spawned (.inr (.inr (.inr (by rw [writing]; exact Option.some_ne_none states))))
  refine ⟨kept.distinct,kept.contributed,kept.loaded,?_,?_,?_⟩
  · intro absent
    have recorded := kept.recorded absent
    rw [Registry.recorded,if_pos spawned] at recorded
    rw [Registry.recorded,if_pos spawned]
    exact recorded
  · exact fun unspawned => absurd (spawned.symm.trans unspawned) (by simp)
  · exact fun reload inside => (kept.reloads reload inside).frame id rfl id

theorem restarted_kept (kept : Kept name registry) (changes : registry.changes = []) (returning : registry.returning = [])
    (flushed : registry.writerSpawned = false ∨ registry.file = some (saveStates registry.states)) :
    Kept name (reborn registry.file registry.asked : Registry Resolved) := by
  refine ⟨List.nodup_nil,rfl,fun ext inside => absurd inside List.not_mem_nil,?_,fun _ => ⟨rfl,rfl,rfl,rfl⟩,
    fun reload inside => absurd inside List.not_mem_nil⟩
  intro absent
  have settled : registry.wanted name = registry.asked name := by
    rw [Registry.wanted,changes,returning]
    rfl
  have recorded := kept.recorded (by rw [changes]; exact absent)
  rw [settled] at recorded
  change enabledIn ((parseStates registry.file).getD ∅) name = registry.asked name
  rw [← recorded,Registry.recorded]
  split
  · rename_i spawned
    rcases flushed with unspawned | saved
    · exact absurd (spawned.symm.trans unspawned) (by simp)
    · have same : ((parseStates (some (saveStates registry.states))).map fun map => enabledIn map name) =
          some (enabledIn registry.states name) := saved_enabled
      rw [saved]
      cases parsed : parseStates (some (saveStates registry.states)) with
      | none =>
        rw [parsed] at same
        cases same
      | some map =>
        rw [parsed] at same
        exact Option.some.inj same
  · rfl

theorem step_kept {action : Action Resolved} (kept : Kept name before) (careful : Careful name before action)
    (enabled : step before action = some after) : Kept name after := by
  cases action with
  | toggle other enable now resolve =>
    simp only [step] at enabled
    split at enabled
    · cases enabled
      exact kept
    · rename_i ext found
      have inside := List.mem_of_find?_eq_some found
      have named : ext.name = other := by
        have matched := List.find?_some found
        exact of_decide_eq_true matched
      subst named
      split at enabled
      · rename_i same
        cases enabled
        subst same
        exact early_kept kept inside
      · rename_i differs
        cases enabled
        exact change_kept kept inside fun own => careful own ⟨ext,inside,own,differs⟩
  | store i =>
    obtain ⟨state,at_i,rfl⟩ := Option.map_eq_some_iff.mp enabled
    exact store_kept kept at_i (careful state at_i)
  | respond i =>
    obtain ⟨state,at_i,rfl⟩ := Option.map_eq_some_iff.mp enabled
    exact respond_kept kept at_i (careful state at_i)
  | initializeWithScanPaths scan =>
    cases enabled
    exact kept.begins rfl
  | hotReload =>
    cases enabled
    exact kept.begins rfl
  | deactivated i scan =>
    simp only [step] at enabled
    split at enabled
    · split at enabled
      · cases enabled
        exact kept.goes trivial
      · cases enabled
    · cases enabled
  | readFile i readable =>
    simp only [step] at enabled
    split at enabled
    · split at enabled
      · cases enabled
        exact kept.goes trivial
      · cases enabled
        exact kept.ends
    · cases enabled
  | merge i =>
    obtain ⟨settled,same⟩ := careful
    simp only [step] at enabled
    split at enabled
    · rename_i scan persisted at_i
      cases enabled
      have taken : enabledIn persisted name = enabledIn before.recorded name := same _ at_i
      exact taken_kept (kept.goes (merged_carries kept scan settled taken)) taken
    · rename_i scan at_i
      cases enabled
      exact kept.goes (merged_carries kept scan settled (same _ at_i))
    · cases enabled
  | activated i now resolve =>
    simp only [step] at enabled
    split at enabled
    · rename_i initializing extensions persisted at_i
      cases enabled
      have carries : Carries name before extensions := kept.reloads _ (List.mem_of_getElem? at_i)
      exact kept.goes ⟨carries.activated now,resolved_names _ _⟩
    · cases enabled
  | setAll i =>
    simp only [step] at enabled
    split at enabled
    · rename_i initializing extensions contributions at_i
      cases enabled
      obtain ⟨carries,contributed⟩ : Stage.Sound name before (.storing extensions contributions) :=
        kept.reloads _ (List.mem_of_getElem? at_i)
      have replaced := replaced_kept kept carries (careful _ at_i extensions rfl)
      exact replaced.goes ⟨rfl,carries.frame id rfl,contributed⟩
    · cases enabled
  | commit i =>
    simp only [step] at enabled
    split at enabled
    · rename_i initializing extensions contributions at_i
      cases enabled
      obtain ⟨spawned,carries,contributed⟩ : Stage.Sound name before (.committing extensions contributions) :=
        kept.reloads _ (List.mem_of_getElem? at_i)
      exact committed_kept kept spawned carries contributed
    · cases enabled
  | takeSnapshot =>
    obtain ⟨spawned,taken⟩ := Option.ite_none_right_eq_some.mp enabled
    cases taken
    exact { kept with fresh := fun unspawned => absurd (spawned.symm.trans unspawned) (by simp), reloads := fun reload inside =>
      (kept.reloads reload inside).frame id rfl id }
  | save =>
    obtain ⟨states,writing,rfl⟩ := Option.map_eq_some_iff.mp enabled
    exact filed_kept kept writing
  | restart =>
    obtain ⟨quiet,ended⟩ := Option.ite_none_right_eq_some.mp enabled
    obtain ⟨flushed,fresh⟩ := Option.ite_none_right_eq_some.mp ended
    cases fresh
    simp only [Bool.and_eq_true,List.isEmpty_iff] at quiet
    exact restarted_kept kept quiet.1.1 quiet.1.2 flushed

end Steps

section Runs
variable {file : Option PersistedStates} {actions : List (Action Resolved)} {after registry : Registry Resolved} {name : String}

-- A process with what earlier ones have left on the file.
def start (file : Option PersistedStates) : Registry Resolved := reborn file (enabledIn ((parseStates file).getD ∅))

def Quiescent (registry : Registry Resolved) : Prop := registry.changes = [] ∧ registry.returning = [] ∧ registry.reloads = []

structure Agrees (name : String) (registry : Registry Resolved) : Prop where
  contributed : registry.contributions.map Prod.fst = enabledNames registry.extensions
  loaded : ∀ ext ∈ registry.extensions, ext.name = name → ext.state.enabled = registry.asked name
  stored : ∀ ext ∈ registry.extensions, ext.name = name → enabledIn registry.states name = ext.state.enabled
  recorded : enabledIn registry.recorded name = registry.asked name

theorem start_kept : Kept name (start file : Registry Resolved) where
  distinct := List.nodup_nil
  contributed := rfl
  loaded := fun _ inside => absurd inside List.not_mem_nil
  recorded := fun _ => rfl
  fresh := fun _ => ⟨rfl,rfl,rfl,rfl⟩
  reloads := fun _ inside => absurd inside List.not_mem_nil

theorem Kept.agrees (kept : Kept name registry) (quiet : Quiescent registry) : Agrees name registry := by
  obtain ⟨changes,returning,reloads⟩ := quiet
  have wanted : registry.wanted name = registry.asked name := by
    rw [Registry.wanted,changes,returning]
    rfl
  have recorded : enabledIn registry.recorded name = registry.asked name := by
    rw [kept.recorded (by rw [changes]; exact fun call inside => absurd inside List.not_mem_nil),wanted]
  refine ⟨kept.contributed,fun ext inside own => (kept.loaded ext inside own).trans wanted,?_,recorded⟩
  intro ext inside own
  rw [Registry.recorded,if_pos (kept.spawned (.inl (List.ne_nil_of_mem inside)))] at recorded
  rw [recorded,kept.loaded ext inside own,wanted]

-- In every quiescent state of such a run what was last asked for an extension holds
-- in the registry and in the store, and the contributions are those of the enabled ones.
theorem enablement_kept (path : RunsWhere step (Careful name) (start file) actions after) (quiet : Quiescent after) : Agrees name after :=
  (path.invariant start_kept fun _ _ _ kept careful enabled => step_kept kept careful enabled).agrees quiet

end Runs

section Examples

def manifestA : ExtensionManifest := ⟨⟨"a","1.0.0",[],List.nodup_nil⟩,none⟩

def withA : Scan := ⟨[(manifestA,"/ext/a")],List.nodup_singleton _⟩

def without : Scan := ⟨[],List.nodup_nil⟩

def initialized : List (Action Unit) :=
  [.initializeWithScanPaths withA,.readFile 0 true,.merge 0,.activated 0 5 fun _ => (),.setAll 0,.commit 0]

def disabled : List (Action Unit) := [.toggle "a" false 7 fun _ => (),.store 0,.respond 0]

def reloaded (scan : Scan) : List (Action Unit) :=
  [.hotReload,.deactivated 0 scan,.merge 0,.activated 0 9 fun _ => (),.setAll 0,.commit 0]

theorem enablement_kept_disabled : ∃ after, exec step (start none) (initialized ++ disabled) = some after ∧
    after.asked "a" = false ∧ enabledIn after.states "a" = false ∧ Agrees "a" after := by
  have path : ∃ after, RunsWhere step (Careful "a") (start none) (initialized ++ disabled) after ∧
      after.asked "a" = false ∧ enabledIn after.states "a" = false ∧ Quiescent after := by
    refine ⟨_,.cons trivial rfl (.cons trivial rfl (.cons ?_ rfl (.cons trivial rfl (.cons ?_ rfl (.cons trivial rfl
      (.cons ?_ rfl (.cons ?_ rfl (.cons ?_ rfl .nil)))))))),rfl,rfl,rfl,rfl,rfl⟩
    · refine ⟨fun call inside => absurd inside List.not_mem_nil,?_⟩
      rintro _ ⟨⟩
      rfl
    · rintro _ ⟨⟩ _ ⟨⟩ ⟨⟩
    · exact fun _ _ reload inside => absurd inside List.not_mem_nil
    · exact fun _ _ _ call inside => absurd inside List.not_mem_nil
    · exact fun _ _ _ call inside => absurd inside List.not_mem_nil
  obtain ⟨after,path,asked,stored,quiet⟩ := path
  exact ⟨after,exec_exact.mpr path.runs,asked,stored,enablement_kept path quiet⟩

-- A reload that does not find the disabled extension drops its state, and the next
-- one that finds it enables it.
theorem disabled_lost : ¬ ∀ (file : Option PersistedStates) (actions : List (Action Unit)) (after : Registry Unit),
    Runs step (start file) actions after → Quiescent after → ∀ name, Agrees name after := by
  intro claim
  have lost : (exec step (start none) (initialized ++ disabled ++ reloaded without ++ reloaded withA)).map (fun registry =>
      (registry.extensions.map fun ext => (ext.name,ext.state.enabled),registry.asked "a",
        registry.changes.isEmpty && registry.returning.isEmpty && registry.reloads.isEmpty)) = some ([("a",true)],false,true) := by
    decide
  obtain ⟨after,ran,same⟩ := Option.map_eq_some_iff.mp lost
  simp only [Prod.mk.injEq,Bool.and_eq_true,List.isEmpty_iff] at same
  obtain ⟨extensions,asked,⟨changes,returning⟩,reloads⟩ := same
  obtain ⟨ext,inside,flag⟩ : ∃ ext ∈ after.extensions, (ext.name,ext.state.enabled) = ("a",true) := by
    have there : ("a",true) ∈ after.extensions.map fun ext => (ext.name,ext.state.enabled) := extensions ▸ List.mem_cons_self
    exact List.mem_map.mp there
  obtain ⟨named,enabled⟩ := Prod.mk.inj flag
  have agrees := claim _ _ after (exec_exact.mp ran) ⟨changes,returning,reloads⟩ "a"
  have kept := agrees.loaded ext inside named
  rw [enabled,asked] at kept
  cases kept

end Examples

end AlineaCopilot.ExtensionEnablement
