import AlineaCopilot.ExtensionEnablement

open AlineaCopilot.KeyedMaps AlineaCopilot.TransitionRuns AlineaCopilot.ExtensionEnablement

namespace AlineaCopilot.ExtensionHooks

inductive HookKind where
  | onInstall
  | onUninstall
  | onActivate
  | onDeactivate
deriving DecidableEq, Repr

def resolveHookPath (hooks : LifecycleHooks) (kind : HookKind) : Option String :=
  let value := match kind with
    | .onInstall => hooks.onInstall
    | .onUninstall => hooks.onUninstall
    | .onActivate => hooks.onActivate
    | .onDeactivate => hooks.onDeactivate
  value.filter fun path => !path.isEmpty

def needsInstallHook (currentVersion : String) : Option String → Bool
  | none => true
  | some prev => decide (prev ≠ currentVersion)

-- A call of `execute_hook`, whatever becomes of the program, or the end of the process.
inductive Event where
  | hook (kind : HookKind) (name version : String)
  | ended
deriving DecidableEq, Repr

def declares (manifest : ExtensionManifest) (kind : HookKind) : Bool :=
  (manifest.lifecycle.bind fun hooks => resolveHookPath hooks kind).isSome

def hookCall (ext : LoadedExtension) (kind : HookKind) : List Event :=
  if declares ext.manifest kind then [.hook kind ext.name ext.manifest.version] else []

def versionIn (states : StateMap) (name : String) : Option String := (states.lookup name).map ExtensionState.version

def activationHooks (persisted : StateMap) (ext : LoadedExtension) : List Event :=
  if ext.state.enabled then
    (if needsInstallHook ext.manifest.version (versionIn persisted ext.name) then hookCall ext .onInstall else []) ++ hookCall ext .onActivate
  else []

def deactivationHooks (ext : LoadedExtension) : List Event := if ext.state.enabled then hookCall ext .onDeactivate else []

variable {Resolved : Type}

def calls (registry : Registry Resolved) : Action Resolved → List Event
  | .deactivated i _ => match registry.reloads[i]? with
    | some ⟨_,.deactivating active _⟩ => active.flatMap deactivationHooks
    | _ => []
  | .activated i _ _ => match registry.reloads[i]? with
    | some ⟨_,.activating extensions persisted⟩ => extensions.flatMap (activationHooks persisted)
    | _ => []
  | .restart => [.ended]
  | .toggle .. | .store _ | .respond _ | .initializeWithScanPaths _ | .hotReload | .readFile .. | .merge _ | .setAll _ | .commit _
  | .takeSnapshot | .save => []

structure System (Resolved : Type) where
  registry : Registry Resolved
  log : List Event

def loggedStep (system : System Resolved) (action : Action Resolved) : Option (System Resolved) :=
  (step system.registry action).map fun registry => ⟨registry,system.log ++ calls system.registry action⟩

section Logs
variable {name version : String} {recorded : Option String} {log more : List Event} {event : Event}

-- Whether the extension's `onActivate` has run since its last `onDeactivate`, in
-- this process if `ends` is set.
def follow (name : String) (ends : Bool) (before : Bool) : Event → Bool
  | .hook .onActivate other _ => if other = name then true else before
  | .hook .onDeactivate other _ => if other = name then false else before
  | .hook .onInstall .. | .hook .onUninstall .. => before
  | .ended => !ends && before

def active (name : String) (log : List Event) : Bool := log.foldl (follow name false) false

def running (name : String) (log : List Event) : Bool := log.foldl (follow name true) false

-- `recorded` is the version that the first process finds on the file.
def Installed (recorded : Option String) (name version : String) (log : List Event) : Prop :=
  recorded = some version ∨ .hook .onInstall name version ∈ log

def Fits (recorded : Option String) (name : String) (earlier : List Event) : Event → Prop
  | .hook .onInstall other version => other = name → ¬ Installed recorded name version earlier
  | .hook .onActivate other version => other = name → Installed recorded name version earlier ∧ running name earlier = false
  | .hook .onDeactivate other _ => other = name → active name earlier = true
  | .hook .onUninstall .. | .ended => True

def Balanced (recorded : Option String) (name : String) (log : List Event) : Prop :=
  ∀ earlier event, earlier ++ [event] <+: log → Fits recorded name earlier event

theorem Balanced.snoc (balanced : Balanced recorded name log) (fits : Fits recorded name log event) :
    Balanced recorded name (log ++ [event]) := by
  intro earlier last inside
  rcases List.prefix_concat_iff.mp inside with whole | shorter
  · obtain ⟨rfl,same⟩ := List.append_inj' whole rfl
    cases same
    exact fits
  · exact balanced earlier last shorter

theorem Installed.later (installed : Installed recorded name version log) : Installed recorded name version (log ++ more) :=
  installed.imp_right fun inside => List.mem_append_left _ inside

theorem active_snoc : active name (log ++ [event]) = follow name false (active name log) event := by
  rw [active,List.foldl_append]
  rfl

theorem running_snoc : running name (log ++ [event]) = follow name true (running name log) event := by
  rw [running,List.foldl_append]
  rfl

-- What the log says of an extension.
structure Alike (recorded : Option String) (name : String) (log later : List Event) : Prop where
  balanced : Balanced recorded name log → Balanced recorded name later
  active : active name later = active name log
  running : running name later = running name log
  installed : ∀ version, Installed recorded name version later ↔ Installed recorded name version log

theorem Alike.refl : Alike recorded name log log := ⟨id,rfl,rfl,fun _ => Iff.rfl⟩

theorem Alike.trans {later last : List Event} (one : Alike recorded name log later) (two : Alike recorded name later last) :
    Alike recorded name log last :=
  ⟨two.balanced ∘ one.balanced,two.active.trans one.active,two.running.trans one.running,
    fun version => (two.installed version).trans (one.installed version)⟩

theorem foreign_alike {other : String} {kind : HookKind} (foreign : other ≠ name) :
    Alike recorded name log (log ++ [Event.hook kind other version]) where
  balanced := by
    intro balanced
    refine balanced.snoc ?_
    cases kind with
    | onInstall => exact fun same => absurd same foreign
    | onUninstall => trivial
    | onActivate => exact fun same => absurd same foreign
    | onDeactivate => exact fun same => absurd same foreign
  active := by
    rw [active_snoc]
    cases kind <;> simp [follow,foreign]
  running := by
    rw [running_snoc]
    cases kind <;> simp [follow,foreign]
  installed := by
    intro wanted
    refine or_congr_right ?_
    simp only [List.mem_append,List.mem_singleton,Event.hook.injEq,or_iff_left_iff_imp]
    exact fun same => absurd same.2.1.symm foreign

def Foreign (name : String) (more : List Event) : Prop := ∀ event ∈ more, ∃ kind other version, event = .hook kind other version ∧ other ≠ name

theorem Foreign.alike (foreign : Foreign name more) : Alike recorded name log (log ++ more) := by
  induction more generalizing log with
  | nil =>
    rw [List.append_nil]
    exact .refl
  | cons event rest ih =>
    obtain ⟨kind,other,version,rfl,differs⟩ := foreign event List.mem_cons_self
    have one : Alike recorded name log (log ++ [Event.hook kind other version]) := foreign_alike differs
    have two : Alike recorded name (log ++ [Event.hook kind other version]) (log ++ [Event.hook kind other version] ++ rest) :=
      ih fun event inside => foreign event (List.mem_cons_of_mem _ inside)
    rw [List.append_assoc] at two
    exact one.trans two

end Logs

section Hooks
variable {name : String} {recorded : Option String} {log : List Event} {extensions : List LoadedExtension} {ext : LoadedExtension}
  {persisted : StateMap}

theorem hookCall_event {kind : HookKind} {event : Event} (inside : event ∈ hookCall ext kind) :
    event = .hook kind ext.name ext.manifest.version := by
  rw [hookCall] at inside
  split at inside
  · exact List.mem_singleton.mp inside
  · cases inside

theorem deactivation_foreign (differs : ext.name ≠ name) : Foreign name (deactivationHooks ext) := by
  intro event inside
  rw [deactivationHooks] at inside
  split at inside
  · exact ⟨_,_,_,hookCall_event inside,differs⟩
  · cases inside

theorem activation_foreign (differs : ext.name ≠ name) : Foreign name (activationHooks persisted ext) := by
  intro event inside
  rw [activationHooks] at inside
  split at inside
  · rcases List.mem_append.mp inside with first | second
    · split at first
      · exact ⟨_,_,_,hookCall_event first,differs⟩
      · cases first
    · exact ⟨_,_,_,hookCall_event second,differs⟩
  · cases inside

theorem foreign_all {hooks : LoadedExtension → List Event} (each : ∀ ext : LoadedExtension, ext.name ≠ name → Foreign name (hooks ext))
    (absent : name ∉ extensions.map LoadedExtension.name) : Foreign name (extensions.flatMap hooks) := by
  intro event inside
  obtain ⟨ext,there,held⟩ := List.mem_flatMap.mp inside
  exact each ext (fun same => absent (same ▸ List.mem_map_of_mem there)) event held

-- Among extensions of distinct names the hooks of the others change nothing.
theorem hooks_alike (recorded : Option String) (log : List Event) {hooks : LoadedExtension → List Event} (each : ∀ ext : LoadedExtension, ext.name ≠ name → Foreign name (hooks ext))
    (distinct : Distinct extensions) (inside : ext ∈ extensions) (own : ext.name = name) :
    ∃ before, Alike recorded name log before ∧ Alike recorded name (before ++ hooks ext) (log ++ extensions.flatMap hooks) := by
  obtain ⟨left,right,rfl⟩ := List.append_of_mem inside
  rw [Distinct,List.map_append,List.map_cons,List.nodup_append] at distinct
  obtain ⟨-,apart_right,apart⟩ := distinct
  have left_absent : name ∉ left.map LoadedExtension.name := fun there => apart name there ext.name List.mem_cons_self own.symm
  have right_absent : name ∉ right.map LoadedExtension.name := own ▸ (List.nodup_cons.mp apart_right).1
  refine ⟨log ++ left.flatMap hooks,(foreign_all each left_absent).alike,?_⟩
  rw [List.flatMap_append,List.flatMap_cons,← List.append_assoc,← List.append_assoc]
  exact (foreign_all each right_absent).alike

-- An extension with the three hooks.
def Hooked (manifest : ExtensionManifest) : Prop := ∀ kind, kind ≠ .onUninstall → declares manifest kind = true

theorem Hooked.call {kind : HookKind} (hooked : Hooked ext.manifest) (kinds : kind ≠ .onUninstall) :
    hookCall ext kind = [.hook kind ext.name ext.manifest.version] := if_pos (hooked kind kinds)

theorem deactivated_log (distinct : Distinct extensions) (balanced : Balanced recorded name log)
    (each : ∀ ext ∈ extensions, ext.name = name → Hooked ext.manifest ∧ (ext.state.enabled = true → active name log = true)) :
    Balanced recorded name (log ++ extensions.flatMap deactivationHooks) ∧
      (∀ version, Installed recorded name version (log ++ extensions.flatMap deactivationHooks) ↔ Installed recorded name version log) ∧
      (running name (log ++ extensions.flatMap deactivationHooks) = true →
        running name log = true ∧ ∀ ext ∈ extensions, ext.name = name → ext.state.enabled = false) := by
  have foreign : ∀ ext : LoadedExtension, ext.name ≠ name → Foreign name (deactivationHooks ext) := fun _ => deactivation_foreign
  by_cases present : name ∈ extensions.map LoadedExtension.name
  · obtain ⟨ext,inside,own⟩ := List.mem_map.mp present
    obtain ⟨hooked,begun⟩ := each ext inside own
    obtain ⟨before,same,after⟩ := hooks_alike recorded log foreign distinct inside own
    cases enabled : ext.state.enabled with
    | true =>
      have ran : deactivationHooks ext = [.hook .onDeactivate ext.name ext.manifest.version] := by
        rw [deactivationHooks,if_pos enabled,hooked.call (by decide)]
      rw [ran] at after
      refine ⟨after.balanced ((same.balanced balanced).snoc fun _ => same.active.trans (begun enabled)),fun version => ?_,fun runs => ?_⟩
      · rw [after.installed,← same.installed]
        exact or_congr_right (by simp)
      · rw [after.running,running_snoc] at runs
        simp [follow,own] at runs
    | false =>
      have none_ran : deactivationHooks ext = [] := by rw [deactivationHooks,if_neg (by simp [enabled])]
      rw [none_ran,List.append_nil] at after
      refine ⟨after.balanced (same.balanced balanced),fun version => (after.installed version).trans (same.installed version),fun runs => ?_⟩
      refine ⟨(after.running.trans same.running).symm.trans runs,fun other there also => ?_⟩
      rw [Option.some.inj ((find_distinct distinct there).symm.trans (also.trans own.symm ▸ find_distinct distinct inside)),enabled]
  · have alike : Alike recorded name log (log ++ extensions.flatMap deactivationHooks) := (foreign_all foreign present).alike
    refine ⟨alike.balanced balanced,alike.installed,fun runs => ⟨alike.running.symm.trans runs,fun ext inside own => ?_⟩⟩
    exact absurd (own ▸ List.mem_map_of_mem inside) present

-- One extension that is enabled: `onInstall` where its version is new, then `onActivate`.
theorem activated_one (hooked : Hooked ext.manifest) (enabled : ext.state.enabled = true) (balanced : Balanced recorded name log)
    (own : ext.name = name) (rests : running name log = false)
    (persists : Installed recorded name ext.manifest.version log ↔ versionIn persisted name = some ext.manifest.version) :
    Balanced recorded name (log ++ activationHooks persisted ext) ∧
      (∀ version, Installed recorded name version log → Installed recorded name version (log ++ activationHooks persisted ext)) ∧
      active name (log ++ activationHooks persisted ext) = true ∧
      Installed recorded name ext.manifest.version (log ++ activationHooks persisted ext) := by
  have activates : ∀ before, Balanced recorded name before → Installed recorded name ext.manifest.version before → running name before = false →
      Balanced recorded name (before ++ [Event.hook .onActivate ext.name ext.manifest.version]) ∧
        active name (before ++ [Event.hook .onActivate ext.name ext.manifest.version]) = true := by
    intro before balanced installed rests
    refine ⟨balanced.snoc fun _ => ⟨installed,rests⟩,?_⟩
    rw [active_snoc]
    simp [follow,own]
  have split : activationHooks persisted ext =
      (if needsInstallHook ext.manifest.version (versionIn persisted name) then [Event.hook .onInstall ext.name ext.manifest.version] else []) ++
        [Event.hook .onActivate ext.name ext.manifest.version] := by
    rw [activationHooks,if_pos enabled,hooked.call (by decide),hooked.call (by decide),own]
  rw [split,← List.append_assoc]
  by_cases known : versionIn persisted name = some ext.manifest.version
  · have skips : needsInstallHook ext.manifest.version (versionIn persisted name) = false := by
      rw [known]
      exact decide_eq_false fun differs => differs rfl
    rw [skips,if_neg Bool.false_ne_true,List.append_nil]
    obtain ⟨fits,runs⟩ := activates log balanced (persists.mpr known) rests
    exact ⟨fits,fun version installed => installed.later,runs,(persists.mpr known).later⟩
  · have needed : needsInstallHook ext.manifest.version (versionIn persisted name) = true := by
      cases before : versionIn persisted name with
      | none => rfl
      | some version =>
        refine decide_eq_true fun same => known ?_
        rw [before,same]
    rw [needed,if_pos rfl]
    have installs : Balanced recorded name (log ++ [Event.hook .onInstall ext.name ext.manifest.version]) :=
      balanced.snoc fun _ => fun installed => known (persists.mp installed)
    have installed : Installed recorded name ext.manifest.version (log ++ [Event.hook .onInstall ext.name ext.manifest.version]) :=
      .inr (own ▸ List.mem_append_right _ List.mem_cons_self)
    have still : running name (log ++ [Event.hook .onInstall ext.name ext.manifest.version]) = false := by
      rw [running_snoc]
      exact rests
    obtain ⟨fits,runs⟩ := activates _ installs installed still
    exact ⟨fits,fun version before => before.later.later,runs,installed.later⟩

theorem activated_log (distinct : Distinct extensions) (balanced : Balanced recorded name log)
    (each : ∀ ext ∈ extensions, ext.name = name → Hooked ext.manifest ∧ (ext.state.enabled = true → running name log = false) ∧
      (Installed recorded name ext.manifest.version log ↔ versionIn persisted name = some ext.manifest.version)) :
    Balanced recorded name (log ++ extensions.flatMap (activationHooks persisted)) ∧
      (∀ version, Installed recorded name version log → Installed recorded name version (log ++ extensions.flatMap (activationHooks persisted))) ∧
      (∀ ext ∈ extensions, ext.name = name → ext.state.enabled = true →
        active name (log ++ extensions.flatMap (activationHooks persisted)) = true ∧
          Installed recorded name ext.manifest.version (log ++ extensions.flatMap (activationHooks persisted))) ∧
      (running name (log ++ extensions.flatMap (activationHooks persisted)) = true →
        running name log = true ∨ name ∈ extensions.map LoadedExtension.name) := by
  have foreign : ∀ ext : LoadedExtension, ext.name ≠ name → Foreign name (activationHooks persisted ext) := fun _ => activation_foreign
  by_cases present : name ∈ extensions.map LoadedExtension.name
  · obtain ⟨ext,inside,own⟩ := List.mem_map.mp present
    obtain ⟨hooked,rests,persists⟩ := each ext inside own
    obtain ⟨before,same,after⟩ := hooks_alike recorded log foreign distinct inside own
    have only : ∀ other ∈ extensions, other.name = name → other = ext := fun other there also =>
      Option.some.inj ((find_distinct distinct there).symm.trans (also.trans own.symm ▸ find_distinct distinct inside))
    cases enabled : ext.state.enabled with
    | true =>
      obtain ⟨fits,later,runs,installed⟩ := activated_one hooked enabled (same.balanced balanced) own (same.running.trans (rests enabled))
        ((same.installed _).trans persists)
      refine ⟨after.balanced fits,?_,?_,fun _ => .inr present⟩
      · exact fun version held => (after.installed version).mpr (later version ((same.installed version).mpr held))
      · intro other there also _
        rw [only other there also]
        exact ⟨after.active.trans runs,(after.installed _).mpr installed⟩
    | false =>
      have none_ran : activationHooks persisted ext = [] := by rw [activationHooks,if_neg (by simp [enabled])]
      rw [none_ran,List.append_nil] at after
      refine ⟨after.balanced (same.balanced balanced),?_,?_,fun _ => .inr present⟩
      · exact fun version held => (after.installed version).mpr ((same.installed version).mpr held)
      · intro other there also on
        rw [only other there also,enabled] at on
        cases on
  · have alike : Alike recorded name log (log ++ extensions.flatMap (activationHooks persisted)) := (foreign_all foreign present).alike
    refine ⟨alike.balanced balanced,fun version => (alike.installed version).mpr,fun ext inside own => ?_,fun runs => ?_⟩
    · exact absurd (own ▸ List.mem_map_of_mem inside) present
    · exact .inl (alike.running.symm.trans runs)

end Hooks

section Order
variable {recorded : Option String} {name : String} {before after registry : Registry Resolved} {log : List Event} {i : Nat}

def Versions (recorded : Option String) (name : String) (log : List Event) (states : StateMap) : Prop :=
  ∀ version, versionIn states name = some version → Installed recorded name version log

-- Whatever holds a version of the extension, the version is installed.
structure Records (recorded : Option String) (name : String) (registry : Registry Resolved) (log : List Event) : Prop where
  states : Versions recorded name log registry.states
  file : ∀ states, parseStates registry.file = some states → Versions recorded name log states
  writing : ∀ states, registry.writing = some states → Versions recorded name log states
  changes : ∀ call ∈ registry.changes, call.name = name → Installed recorded name call.version log
  memory : ∀ ext ∈ registry.extensions, ext.name = name → Hooked ext.manifest ∧ Installed recorded name ext.manifest.version log

-- With no reload under way the extension has run its `onActivate` where it is enabled,
-- and where it has and is still wanted, it is there to be deactivated.
structure Settled (name : String) (registry : Registry Resolved) (log : List Event) : Prop where
  active : ∀ ext ∈ registry.extensions, ext.name = name → ext.state.enabled = true → active name log = true
  held : running name log = true → registry.wanted name = true → name ∈ registry.extensions.map LoadedExtension.name

def Scanned (name : String) (scan : Scan) : Prop := ∀ entry ∈ scan.found, entry.1.name = name → Hooked entry.1

-- What is still running will not be activated.
def Rests (name : String) (registry : Registry Resolved) (log : List Event) : Prop := running name log = true → registry.wanted name = false

structure Activated (recorded : Option String) (name : String) (registry : Registry Resolved) (log : List Event)
    (extensions : List LoadedExtension) : Prop where
  memory : ∀ ext ∈ extensions, ext.name = name → Hooked ext.manifest ∧ Installed recorded name ext.manifest.version log
  active : ∀ ext ∈ extensions, ext.name = name → ext.state.enabled = true → active name log = true
  held : running name log = true → registry.wanted name = true → name ∈ extensions.map LoadedExtension.name

def Stage.Due (recorded : Option String) (name : String) (registry : Registry Resolved) (log : List Event) (initializing : Bool) :
    Stage Resolved → Prop
  | .deactivating extensions _ => initializing = false ∧ Distinct extensions ∧
    (∀ ext ∈ extensions, ext.name = name → Hooked ext.manifest ∧ (ext.state.enabled = true → active name log = true)) ∧
    (running name log = true → registry.wanted name = true → ∃ ext ∈ extensions, ext.name = name ∧ ext.state.enabled = true)
  | .found scan => Scanned name scan ∧ Rests name registry log ∧ (initializing = true → Settled name registry log)
  | .loaded scan persisted => Scanned name scan ∧ Rests name registry log ∧ Versions recorded name log persisted
  | .activating extensions persisted => Rests name registry log ∧ ∀ ext ∈ extensions, ext.name = name → Hooked ext.manifest ∧
    (Installed recorded name ext.manifest.version log ↔ versionIn persisted name = some ext.manifest.version) ∧
    (ext.state.enabled = false → versionIn persisted name = some ext.manifest.version)
  | .storing extensions _ | .committing extensions _ => Activated recorded name registry log extensions

def Phase (recorded : Option String) (name : String) (registry : Registry Resolved) (log : List Event) : List (Reload Resolved) → Prop
  | [] => Settled name registry log
  | [reload] => Stage.Due recorded name registry log reload.initializing reload.stage
  | _ :: _ :: _ => False

structure Ordered (recorded : Option String) (name : String) (registry : Registry Resolved) (log : List Event) : Prop where
  balanced : Balanced recorded name log
  records : Records recorded name registry log
  phase : Phase recorded name registry log registry.reloads

-- About one extension: its flag changes while no reload is under way and it is enabled
-- only if its `onActivate` ran since its last `onDeactivate`; reloads come one at a time
-- and an initialization while the extension does not run; and a version that a reload
-- finds is new to the store exactly if it was not installed before, and not new where
-- the extension is disabled.
def Orderly (recorded : Option String) (name : String) (system : System Resolved) (action : Action Resolved) : Prop :=
  Careful name system.registry action ∧ match action with
  | .toggle other enable _ _ => other = name → (∃ ext ∈ system.registry.extensions, ext.name = name ∧ ext.state.enabled ≠ enable) →
    system.registry.reloads = [] ∧ (enable = true → active name system.log = true)
  | .initializeWithScanPaths _ => system.registry.reloads = [] ∧ running name system.log = false
  | .hotReload => system.registry.reloads = []
  | .merge i => ∀ reload, system.registry.reloads[i]? = some reload → ∀ scan, (reload.stage = .found scan ∨ ∃ persisted, reload.stage = .loaded scan persisted) →
    ∀ entry ∈ scan.found, entry.1.name = name →
      (Installed recorded name entry.1.version system.log → versionIn (reload.takes system.registry) name = some entry.1.version) ∧
      (enabledIn (reload.takes system.registry) name = false → versionIn (reload.takes system.registry) name = some entry.1.version)
  | _ => True

-- The extension declares the three hooks wherever it is found.
def Declared (name : String) : Action Resolved → Prop
  | .initializeWithScanPaths scan | .deactivated _ scan => Scanned name scan
  | _ => True

theorem Settled.frame (settled : Settled name before log) (members : ∀ ext ∈ after.extensions, ext.name = name → ext ∈ before.extensions)
    (names : name ∈ before.extensions.map LoadedExtension.name → name ∈ after.extensions.map LoadedExtension.name)
    (wanted : after.wanted name = before.wanted name) : Settled name after log where
  active := fun ext inside own => settled.active ext (members ext inside own) own
  held := fun runs on => names (settled.held runs (wanted.symm.trans on))

theorem Stage.Due.frame {initializing : Bool} {stage : Stage Resolved} (due : Stage.Due recorded name before log initializing stage)
    (members : ∀ ext ∈ after.extensions, ext.name = name → ext ∈ before.extensions)
    (names : name ∈ before.extensions.map LoadedExtension.name → name ∈ after.extensions.map LoadedExtension.name)
    (wanted : after.wanted name = before.wanted name) : Stage.Due recorded name after log initializing stage := by
  have rests : Rests name before log → Rests name after log := fun rests runs => wanted.trans (rests runs)
  cases stage with
  | deactivating extensions scanned =>
    obtain ⟨begun,distinct,each,held⟩ := due
    exact ⟨begun,distinct,each,fun runs on => held runs (wanted.symm.trans on)⟩
  | found scan =>
    obtain ⟨scanned,quiet,settled⟩ := due
    exact ⟨scanned,rests quiet,fun begun => (settled begun).frame members names wanted⟩
  | loaded scan persisted =>
    obtain ⟨scanned,quiet,versions⟩ := due
    exact ⟨scanned,rests quiet,versions⟩
  | activating extensions persisted => exact ⟨rests due.1,due.2⟩
  | storing extensions contributions =>
    obtain ⟨memory,active,held⟩ := due
    exact ⟨memory,active,fun runs on => held runs (wanted.symm.trans on)⟩
  | committing extensions contributions =>
    obtain ⟨memory,active,held⟩ := due
    exact ⟨memory,active,fun runs on => held runs (wanted.symm.trans on)⟩

theorem Phase.frame {reloads : List (Reload Resolved)} (phase : Phase recorded name before log reloads)
    (members : ∀ ext ∈ after.extensions, ext.name = name → ext ∈ before.extensions)
    (names : name ∈ before.extensions.map LoadedExtension.name → name ∈ after.extensions.map LoadedExtension.name)
    (wanted : after.wanted name = before.wanted name) : Phase recorded name after log reloads := by
  rcases reloads with _ | ⟨reload,_ | ⟨second,rest⟩⟩
  · exact Settled.frame phase members names wanted
  · exact Stage.Due.frame phase members names wanted
  · exact phase.elim

-- The reload that goes on is the only one.
theorem Phase.only {reloads : List (Reload Resolved)} {reload : Reload Resolved} (phase : Phase recorded name registry log reloads)
    (at_i : reloads[i]? = some reload) : reloads = [reload] ∧ i = 0 ∧ Stage.Due recorded name registry log reload.initializing reload.stage := by
  rcases reloads with _ | ⟨only,_ | ⟨second,rest⟩⟩
  · cases at_i
  · rcases i with _ | i
    · cases at_i
      exact ⟨rfl,rfl,phase⟩
    · cases at_i
  · exact phase.elim

theorem Versions.later {states : StateMap} {more : List Event} (versions : Versions recorded name log states)
    (later : ∀ version, Installed recorded name version log → Installed recorded name version (log ++ more)) :
    Versions recorded name (log ++ more) states := fun version held => later version (versions version held)

theorem Records.later {more : List Event} (records : Records recorded name registry log)
    (later : ∀ version, Installed recorded name version log → Installed recorded name version (log ++ more)) :
    Records recorded name registry (log ++ more) where
  states := records.states.later later
  file := fun states held => (records.file states held).later later
  writing := fun states held => (records.writing states held).later later
  changes := fun call inside own => later _ (records.changes call inside own)
  memory := fun ext inside own => ⟨(records.memory ext inside own).1,later _ (records.memory ext inside own).2⟩

end Order

section Steps
variable {recorded : Option String} {name : String} {registry : Registry Resolved} {log : List Event} {i : Nat}

theorem saved_version (states : StateMap) (name : String) : ∃ map, parseStates (some (saveStates states)) = some map ∧ versionIn map name = versionIn states name := by
  refine ⟨_,rfl,?_⟩
  rw [versionIn,versionIn,saveStates,lookup_mapEntries,lookup_mapEntries]
  cases states.lookup name with
  | none => rfl
  | some state =>
    simp only [Option.map_some,Option.some.injEq]
    split
    · rename_i empty
      exact empty.symm
    · rfl

theorem built_version {extensions : List LoadedExtension} {version : String} (distinct : Distinct extensions)
    (held : versionIn (buildStateMap extensions) name = some version) : ∃ ext ∈ extensions, ext.name = name ∧ ext.manifest.version = version := by
  rw [versionIn,lookup_buildStateMap distinct,Option.map_map] at held
  obtain ⟨ext,found,same⟩ := Option.map_eq_some_iff.mp held
  have named := List.find?_some found
  exact ⟨ext,List.mem_of_find?_eq_some found,of_decide_eq_true named,ext.versioned.symm.trans same⟩

-- The stage of the only reload changes.
theorem Phase.goes {more : List Event} {reload : Reload Resolved} {stage : Stage Resolved} (phase : Phase recorded name registry log registry.reloads)
    (at_i : registry.reloads[i]? = some reload) (due : Stage.Due recorded name registry more reload.initializing stage) :
    Phase recorded name registry more (registry.goes i reload stage).reloads := by
  obtain ⟨one,rfl,-⟩ := phase.only at_i
  rw [Registry.goes,one]
  exact due

theorem early_ordered {ext : LoadedExtension} (kept : Kept name registry) (ordered : Ordered recorded name registry log)
    (inside : ext ∈ registry.extensions) :
    Ordered recorded name { registry with asked := Function.update registry.asked ext.name ext.state.enabled } log where
  balanced := ordered.balanced
  records := ⟨ordered.records.states,ordered.records.file,ordered.records.writing,ordered.records.changes,ordered.records.memory⟩
  phase := ordered.phase.frame (fun _ there _ => there) id (early_wanted kept inside)

theorem change_ordered {ext : LoadedExtension} {enable : Bool} {now : Int} {contributions : List (String × Resolved)}
    (kept : Kept name registry) (ordered : Ordered recorded name registry log) (inside : ext ∈ registry.extensions)
    (alone : ext.name = name → registry.reloads = [] ∧ (enable = true → active name log = true)) :
    Ordered recorded name { registry with
      extensions := toggleFirst ext.name enable now registry.extensions
      contributions := contributions
      changes := registry.changes ++ [(ext.toggled enable now).state] } log where
  balanced := ordered.balanced
  records := by
    refine ⟨ordered.records.states,ordered.records.file,ordered.records.writing,?_,?_⟩
    · intro call held own
      rcases List.mem_append.mp held with there | new
      · exact ordered.records.changes call there own
      · obtain rfl := List.mem_singleton.mp new
        have memory := ordered.records.memory ext inside (ext.named.symm.trans own)
        exact ext.versioned ▸ memory.2
    · intro one there own
      obtain ⟨before,held,same⟩ := toggled_manifest there
      exact same ▸ ordered.records.memory before held ((congrArg (fun manifest : ExtensionManifest => manifest.name) same).trans own)
  phase := by
    have names : (toggleFirst ext.name enable now registry.extensions).map LoadedExtension.name = registry.extensions.map LoadedExtension.name :=
      toggled_names enable now
    by_cases own : ext.name = name
    · obtain ⟨none_under_way,runs⟩ := alone own
      have settled := ordered.phase
      rw [none_under_way] at settled
      change Phase recorded name _ log registry.reloads
      rw [none_under_way]
      refine ⟨fun one there also on => ?_,fun _ _ => ?_⟩
      · rcases toggled_flags kept.distinct there with ⟨-,flag⟩ | ⟨differs,-⟩
        · exact runs (flag.symm.trans on)
        · exact absurd (also.trans own.symm) differs
      · exact names ▸ own ▸ List.mem_map_of_mem inside
    · refine ordered.phase.frame (fun one there also => ?_) (fun there => names ▸ there) ((change_wanted registry ext enable now).trans (if_neg own))
      rcases toggled_flags kept.distinct there with ⟨same,-⟩ | ⟨-,held⟩
      · exact absurd (same.symm.trans also) own
      · exact held

theorem store_ordered {state : ExtensionState} (ordered : Ordered recorded name registry log) (at_i : registry.changes[i]? = some state)
    (first : state.name = name → ∀ call ∈ registry.changes.take i, call.name ≠ name) :
    Ordered recorded name { registry with
      states := registry.states.insert state.name state
      writerSpawned := true
      changes := registry.changes.eraseIdx i
      returning := registry.returning ++ [state] } log where
  balanced := ordered.balanced
  records := by
    refine ⟨?_,ordered.records.file,ordered.records.writing,?_,ordered.records.memory⟩
    · intro version held
      rw [versionIn,lookup_insert_eq] at held
      split at held
      · rename_i same
        cases held
        exact ordered.records.changes state (List.mem_of_getElem? at_i) same.symm
      · exact ordered.records.states version held
    · exact fun call inside own => ordered.records.changes call (List.mem_of_mem_eraseIdx inside) own
  phase := ordered.phase.frame (fun _ there _ => there) id (newest_stored at_i first)

theorem respond_ordered {state : ExtensionState} (ordered : Ordered recorded name registry log) (at_i : registry.returning[i]? = some state)
    (first : state.name = name → ∀ call ∈ registry.returning.take i, call.name ≠ name) :
    Ordered recorded name { registry with
      returning := registry.returning.eraseIdx i
      asked := Function.update registry.asked state.name state.enabled } log where
  balanced := ordered.balanced
  records := ⟨ordered.records.states,ordered.records.file,ordered.records.writing,ordered.records.changes,ordered.records.memory⟩
  phase := ordered.phase.frame (fun _ there _ => there) id (newest_responded at_i first)

-- A reload begins with none under way.
theorem begin_ordered {reload : Reload Resolved} (ordered : Ordered recorded name registry log) (none_under_way : registry.reloads = [])
    (due : Settled name registry log → Stage.Due recorded name registry log reload.initializing reload.stage) :
    Ordered recorded name { registry with reloads := registry.reloads ++ [reload] } log where
  balanced := ordered.balanced
  records := ⟨ordered.records.states,ordered.records.file,ordered.records.writing,ordered.records.changes,ordered.records.memory⟩
  phase := by
    have settled := ordered.phase
    rw [none_under_way] at settled
    change Phase recorded name _ log (registry.reloads ++ [reload])
    rw [none_under_way]
    exact (due settled).frame (fun _ there _ => there) id rfl

theorem hotReload_due (kept : Kept name registry) (records : Records recorded name registry log) (settled : Settled name registry log) :
    Stage.Due recorded name registry log false (.deactivating registry.extensions registry.initialized) := by
  refine ⟨rfl,kept.distinct,fun ext inside own => ⟨(records.memory ext inside own).1,settled.active ext inside own⟩,fun runs on => ?_⟩
  obtain ⟨ext,inside,own⟩ := List.mem_map.mp (settled.held runs on)
  exact ⟨ext,inside,own,(kept.loaded ext inside own).trans on⟩

-- What a reload merges into the scan it has made.
theorem merge_due {scan : Scan} {states : StateMap} {initializing : Bool} (scanned : Scanned name scan) (rests : Rests name registry log)
    (versions : Versions recorded name log states)
    (fresh : ∀ entry ∈ scan.found, entry.1.name = name →
      (Installed recorded name entry.1.version log → versionIn states name = some entry.1.version) ∧
      (enabledIn states name = false → versionIn states name = some entry.1.version)) :
    Stage.Due recorded name registry log initializing (.activating (mergePersistedStates scan.extensions states) states) := by
  refine ⟨rests,fun ext inside own => ?_⟩
  obtain ⟨entry,held,same⟩ := merge_manifest scan inside
  have named : entry.1.name = name := (congrArg (fun manifest : ExtensionManifest => manifest.name) same).symm.trans own
  obtain ⟨known,quiet⟩ := fresh entry held named
  rw [same]
  refine ⟨scanned entry held named,⟨known,versions entry.1.version⟩,fun off => quiet ?_⟩
  rw [← own,← merge_enabled scan inside]
  exact off

theorem goes_ordered {reload : Reload Resolved} {stage : Stage Resolved} (ordered : Ordered recorded name registry log)
    (at_i : registry.reloads[i]? = some reload) (due : Stage.Due recorded name registry log reload.initializing stage) :
    Ordered recorded name (registry.goes i reload stage) log where
  balanced := ordered.balanced
  records := ⟨ordered.records.states,ordered.records.file,ordered.records.writing,ordered.records.changes,ordered.records.memory⟩
  phase := (ordered.phase.goes at_i due).frame (fun _ there _ => there) id rfl

theorem ends_ordered {reload : Reload Resolved} (ordered : Ordered recorded name registry log) (at_i : registry.reloads[i]? = some reload)
    (settled : Settled name registry log) : Ordered recorded name { registry with reloads := registry.reloads.eraseIdx i } log where
  balanced := ordered.balanced
  records := ⟨ordered.records.states,ordered.records.file,ordered.records.writing,ordered.records.changes,ordered.records.memory⟩
  phase := by
    obtain ⟨one,rfl,-⟩ := ordered.phase.only at_i
    change Phase recorded name _ log (registry.reloads.eraseIdx 0)
    rw [one]
    exact settled.frame (fun _ there _ => there) id rfl

-- After the `onDeactivate` of what was enabled, what still runs is not wanted.
theorem deactivated_ordered {extensions : List LoadedExtension} {initializing scanned : Bool} {scan : Scan}
    (ordered : Ordered recorded name registry log) (at_i : registry.reloads[i]? = some ⟨initializing,.deactivating extensions scanned⟩)
    (declared : Scanned name scan) :
    Ordered recorded name (registry.goes i ⟨initializing,.deactivating extensions scanned⟩ (.found scan)) (log ++ extensions.flatMap deactivationHooks) := by
  obtain ⟨-,-,rfl,distinct,each,held⟩ := ordered.phase.only at_i
  obtain ⟨balanced,installed,runs⟩ := deactivated_log distinct ordered.balanced each
  have records := ordered.records.later fun version held => (installed version).mpr held
  have due : Stage.Due recorded name registry (log ++ extensions.flatMap deactivationHooks) false (.found scan) := by
    refine ⟨declared,fun still => ?_,fun begun => absurd begun (by simp)⟩
    obtain ⟨ran,off⟩ := runs still
    cases on : registry.wanted name with
    | false => rfl
    | true =>
      obtain ⟨ext,inside,own,enabled⟩ := held ran on
      exact absurd ((off ext inside own).symm.trans enabled) (by simp)
  exact ⟨balanced,⟨records.states,records.file,records.writing,records.changes,records.memory⟩,
    (ordered.phase.goes at_i due).frame (fun _ there _ => there) id rfl⟩

theorem activated_ordered {extensions : List LoadedExtension} {persisted : StateMap} {initializing : Bool} {now : Int}
    {contributions : List (String × Resolved)} (kept : Kept name registry) (ordered : Ordered recorded name registry log)
    (at_i : registry.reloads[i]? = some ⟨initializing,.activating extensions persisted⟩) :
    Ordered recorded name (registry.goes i ⟨initializing,.activating extensions persisted⟩ (.storing (runActivationHooks now extensions) contributions))
      (log ++ extensions.flatMap (activationHooks persisted)) := by
  obtain ⟨-,-,rests,each⟩ := ordered.phase.only at_i
  have carries : Carries name registry extensions := kept.reloads _ (List.mem_of_getElem? at_i)
  have quiet : ∀ ext ∈ extensions, ext.name = name → ext.state.enabled = true → running name log = false := by
    intro ext inside own on
    cases runs : running name log with
    | false => rfl
    | true => exact absurd ((rests runs).symm.trans ((carries.flags ext inside own).symm.trans on)) (by simp)
  obtain ⟨balanced,later,effect,runs⟩ := activated_log carries.distinct ordered.balanced
    fun ext inside own => ⟨(each ext inside own).1,quiet ext inside own,(each ext inside own).2.1⟩
  have records := ordered.records.later later
  have activated : Activated recorded name registry (log ++ extensions.flatMap (activationHooks persisted)) (runActivationHooks now extensions) := by
    refine ⟨fun ext inside own => ?_,fun ext inside own on => ?_,fun still on => ?_⟩
    · obtain ⟨before,held,same,flag⟩ := hooks_kept inside
      have named := (congrArg (fun manifest : ExtensionManifest => manifest.name) same).trans own
      obtain ⟨hooked,persists,known⟩ := each before held named
      refine same ▸ ⟨hooked,?_⟩
      cases on : before.state.enabled with
      | true => exact (effect before held named on).2
      | false => exact later _ (persists.mpr (known on))
    · obtain ⟨before,held,same,flag⟩ := hooks_kept inside
      exact (effect before held ((congrArg (fun manifest : ExtensionManifest => manifest.name) same).trans own) (flag.trans on)).1
    · rcases runs still with before | there
      · exact absurd ((rests before).symm.trans on) (by simp)
      · exact (hooks_names now).symm ▸ there
  have due : Stage.Due recorded name registry (log ++ extensions.flatMap (activationHooks persisted)) initializing
      (.storing (runActivationHooks now extensions) contributions) := activated
  exact ⟨balanced,⟨records.states,records.file,records.writing,records.changes,records.memory⟩,
    (ordered.phase.goes at_i due).frame (fun _ there _ => there) id rfl⟩

theorem stored_ordered {extensions : List LoadedExtension} {contributions : List (String × Resolved)} {initializing : Bool}
    (kept : Kept name registry) (ordered : Ordered recorded name registry log)
    (at_i : registry.reloads[i]? = some ⟨initializing,.storing extensions contributions⟩) :
    Ordered recorded name { registry.goes i ⟨initializing,.storing extensions contributions⟩ (.committing extensions contributions) with
      states := buildStateMap extensions
      writerSpawned := true } log := by
  obtain ⟨-,-,activated⟩ := ordered.phase.only at_i
  obtain ⟨carries,-⟩ : Stage.Sound name registry (.storing extensions contributions) := kept.reloads _ (List.mem_of_getElem? at_i)
  refine ⟨ordered.balanced,⟨?_,ordered.records.file,ordered.records.writing,ordered.records.changes,ordered.records.memory⟩,?_⟩
  · intro version held
    obtain ⟨ext,inside,own,rfl⟩ := built_version carries.distinct held
    exact (activated.memory ext inside own).2
  · have due : Stage.Due recorded name registry log initializing (.committing extensions contributions) := activated
    exact (ordered.phase.goes at_i due).frame (fun _ there _ => there) id rfl

theorem committed_ordered {extensions : List LoadedExtension} {contributions : List (String × Resolved)} {initializing initialized : Bool}
    (ordered : Ordered recorded name registry log) (at_i : registry.reloads[i]? = some ⟨initializing,.committing extensions contributions⟩) :
    Ordered recorded name { registry with
      extensions := extensions
      contributions := contributions
      initialized := initialized
      reloads := registry.reloads.eraseIdx i } log := by
  obtain ⟨one,rfl,activated⟩ := ordered.phase.only at_i
  refine ⟨ordered.balanced,⟨ordered.records.states,ordered.records.file,ordered.records.writing,ordered.records.changes,activated.memory⟩,?_⟩
  change Phase recorded name _ log (registry.reloads.eraseIdx 0)
  rw [one]
  exact ⟨activated.active,activated.held⟩

theorem restarted_ordered (ordered : Ordered recorded name registry log) : Ordered recorded name (reborn registry.file registry.asked : Registry Resolved) (log ++ [Event.ended]) := by
  have records : Records recorded name registry (log ++ [Event.ended]) := ordered.records.later fun version held => held.later
  refine ⟨ordered.balanced.snoc trivial,⟨fun version held => ?_,records.file,fun states held => ?_,fun call inside => ?_,fun ext inside => ?_⟩,
    fun ext inside => ?_,fun runs => ?_⟩
  · rw [versionIn] at held
    exact absurd held (by simp [reborn])
  · cases held
  · cases inside
  · cases inside
  · cases inside
  · rw [running_snoc] at runs
    cases runs

end Steps

section Runs
variable {recorded : Option String} {name : String} {before after system : System Resolved} {action : Action Resolved}
  {file : Option PersistedStates} {actions : List (Action Resolved)}

structure Tracked (recorded : Option String) (name : String) (system : System Resolved) : Prop where
  kept : Kept name system.registry
  ordered : Ordered recorded name system.registry system.log

theorem step_ordered {registry : Registry Resolved} (kept : Kept name before.registry) (ordered : Ordered recorded name before.registry before.log)
    (orderly : Orderly recorded name before action) (declared : Declared name action) (enabled : step before.registry action = some registry) :
    Ordered recorded name registry (before.log ++ calls before.registry action) := by
  obtain ⟨careful,orderly⟩ := orderly
  cases action with
  | toggle other enable now resolve =>
    rw [calls,List.append_nil]
    simp only [step] at enabled
    split at enabled
    · cases enabled
      exact ordered
    · rename_i ext found
      have inside := List.mem_of_find?_eq_some found
      have named : ext.name = other := by
        have matched := List.find?_some found
        exact of_decide_eq_true matched
      subst named
      split at enabled
      · rename_i same
        cases enabled
        subst same
        exact early_ordered kept ordered inside
      · rename_i differs
        cases enabled
        exact change_ordered kept ordered inside fun own => orderly own ⟨ext,inside,own,differs⟩
  | store i =>
    rw [calls,List.append_nil]
    obtain ⟨state,at_i,rfl⟩ := Option.map_eq_some_iff.mp enabled
    exact store_ordered ordered at_i (careful state at_i)
  | respond i =>
    rw [calls,List.append_nil]
    obtain ⟨state,at_i,rfl⟩ := Option.map_eq_some_iff.mp enabled
    exact respond_ordered ordered at_i (careful state at_i)
  | initializeWithScanPaths scan =>
    rw [calls,List.append_nil]
    cases enabled
    obtain ⟨alone,rests⟩ := orderly
    exact begin_ordered ordered alone fun settled => ⟨declared,fun runs => absurd (rests.symm.trans runs) (by simp),fun _ => settled⟩
  | hotReload =>
    rw [calls,List.append_nil]
    cases enabled
    exact begin_ordered ordered orderly (hotReload_due kept ordered.records)
  | deactivated i scan =>
    simp only [step] at enabled
    split at enabled
    · rename_i initializing extensions scanned at_i
      split at enabled
      · cases enabled
        rw [calls,at_i]
        exact deactivated_ordered ordered at_i declared
      · cases enabled
    · cases enabled
  | readFile i readable =>
    rw [calls,List.append_nil]
    simp only [step] at enabled
    split at enabled
    · rename_i scan at_i
      obtain ⟨-,-,scanned,rests,settled⟩ := ordered.phase.only at_i
      split at enabled
      · rename_i persisted parsed
        cases enabled
        refine goes_ordered ordered at_i ⟨scanned,rests,ordered.records.file persisted ?_⟩
        exact (Option.ite_none_right_eq_some.mp parsed).2
      · cases enabled
        exact ends_ordered ordered at_i (settled rfl)
    · cases enabled
  | merge i =>
    rw [calls,List.append_nil]
    simp only [step] at enabled
    split at enabled
    · rename_i scan persisted at_i
      cases enabled
      obtain ⟨-,-,scanned,rests,versions⟩ := ordered.phase.only at_i
      have due : Stage.Due recorded name before.registry before.log true (.activating (mergePersistedStates scan.extensions persisted) persisted) :=
        merge_due scanned rests versions (orderly _ at_i scan (.inr ⟨persisted,rfl⟩))
      have merged := goes_ordered ordered at_i due
      exact ⟨merged.balanced,⟨versions,merged.records.file,merged.records.writing,merged.records.changes,merged.records.memory⟩,
        merged.phase.frame (fun _ there _ => there) id rfl⟩
    · rename_i scan at_i
      cases enabled
      obtain ⟨-,-,scanned,rests,-⟩ := ordered.phase.only at_i
      exact goes_ordered ordered at_i (merge_due scanned rests ordered.records.states (orderly _ at_i scan (.inl rfl)))
    · cases enabled
  | activated i now resolve =>
    simp only [step] at enabled
    split at enabled
    · rename_i initializing extensions persisted at_i
      cases enabled
      rw [calls,at_i]
      exact activated_ordered kept ordered at_i
    · cases enabled
  | setAll i =>
    rw [calls,List.append_nil]
    simp only [step] at enabled
    split at enabled
    · rename_i initializing extensions contributions at_i
      cases enabled
      exact stored_ordered kept ordered at_i
    · cases enabled
  | commit i =>
    rw [calls,List.append_nil]
    simp only [step] at enabled
    split at enabled
    · rename_i initializing extensions contributions at_i
      cases enabled
      exact committed_ordered ordered at_i
    · cases enabled
  | takeSnapshot =>
    rw [calls,List.append_nil]
    obtain ⟨spawned,taken⟩ := Option.ite_none_right_eq_some.mp enabled
    cases taken
    refine ⟨ordered.balanced,⟨ordered.records.states,ordered.records.file,?_,ordered.records.changes,ordered.records.memory⟩,
      ordered.phase.frame (fun _ there _ => there) id rfl⟩
    intro states held
    cases held
    exact ordered.records.states
  | save =>
    rw [calls,List.append_nil]
    obtain ⟨states,writing,rfl⟩ := Option.map_eq_some_iff.mp enabled
    refine ⟨ordered.balanced,⟨ordered.records.states,?_,?_,ordered.records.changes,ordered.records.memory⟩,
      ordered.phase.frame (fun _ there _ => there) id rfl⟩
    · intro map parsed version held
      obtain ⟨saved,same,versions⟩ := saved_version states name
      cases same.symm.trans parsed
      exact ordered.records.writing states writing version (versions ▸ held)
    · intro map held
      cases held
  | restart =>
    obtain ⟨quiet,ended⟩ := Option.ite_none_right_eq_some.mp enabled
    obtain ⟨flushed,fresh⟩ := Option.ite_none_right_eq_some.mp ended
    cases fresh
    exact restarted_ordered ordered

theorem Tracked.step (tracked : Tracked recorded name before) (orderly : Orderly recorded name before action) (declared : Declared name action)
    (enabled : loggedStep before action = some after) : Tracked recorded name after := by
  obtain ⟨registry,stepped,rfl⟩ := Option.map_eq_some_iff.mp enabled
  exact ⟨step_kept tracked.kept orderly.1 stepped,step_ordered tracked.kept tracked.ordered orderly declared stepped⟩

def begun (file : Option PersistedStates) : System Resolved := ⟨start file,[]⟩

end Runs

section Examples

end Examples

end AlineaCopilot.ExtensionHooks
