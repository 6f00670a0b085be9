import AlineaCopilot.KeyedMaps
import AlineaCopilot.TransitionRuns
open AlineaCopilot.KeyedMaps AlineaCopilot.TransitionRuns

namespace AlineaCopilot.ChannelPlugins

inductive PluginStatus where
  | created
  | initializing
  | ready
  | starting
  | running
  | stopping
  | stopped
  | error
deriving DecidableEq, Repr

-- The types with a runtime of their own (`PluginType::from_str_opt`). Any other
-- type belongs to an extension.
def builtin (type : String) : Bool := ["telegram","lark","dingtalk","weixin","slack","discord"].contains type

-- The columns the lifecycle reads or writes, but for the time stamps.
structure ChannelPluginRow where
  type : String
  enabled : Bool
  status : Option PluginStatus
deriving DecidableEq, Repr

-- An instance a factory has made: whether `initialize` or `start` has spawned its
-- receive loop, and whether `stop` was called on it.
structure Plugin where
  id : String
  loop : Bool
  stopped : Bool
deriving DecidableEq, Repr

-- `shutdown` and `restore_plugins` have a list of plugins still to come.
inductive Operation where
  | enablePlugin
  | enableExtensionPlugin
  | disablePlugin
  | shutdown (rest : List String)
  | restorePlugins (rest : List (String × String))
deriving DecidableEq, Repr

-- The call an operation has come to. Instances are known by their number.
inductive Phase where
  | removing
  | stopping (plugin : Nat)
  | persisting
  | disabling
  | creating
  | initializing (plugin : Nat)
  | starting (plugin : Nat)
  | marking (plugin : Nat)
  | inserting (plugin : Nat)
  | failing
deriving DecidableEq, Repr

structure Task where
  id : String
  operation : Operation
  phase : Phase
deriving DecidableEq, Repr

structure World where
  rows : KeyedMap String ChannelPluginRow
  plugins : KeyedMap String Nat
  instances : KeyedMap Nat Plugin
  tasks : KeyedMap Nat Task
  next : Nat
  -- Plugins that a shutdown has stopped, or the end of an earlier process, and that
  -- were not inserted since; whether a shutdown was the last to come; the instances
  -- of the enables that returned an error.
  halted : List String
  down : Bool
  failed : List Nat

def start (rows : KeyedMap String ChannelPluginRow) : World := ⟨rows,∅,∅,∅,0,rows.keys,false,[]⟩

inductive Event where
  | enablePlugin (id : String)
  | enableExtensionPlugin (id : String)
  | disablePlugin (id : String)
  | shutdown
  | restorePlugins
  -- The call a task has come to succeeds, or fails; what `initialize` or `start` did.
  | proceed (t : Nat)
  | fail (t : Nat)
  | plugin (t : Nat) (spawned ok : Bool)

-- What an operation does when it is done with one plugin.
def Operation.next : Operation → Option Task
  | .shutdown (id :: rest) => some ⟨id,.shutdown rest,.removing⟩
  | .restorePlugins rest =>
    match rest.dropWhile (!builtin ·.2) with
    | row :: rest => some ⟨row.1,.restorePlugins rest,.creating⟩
    | [] => none
  | _ => none

section Tasks
variable (w : World) (t : Nat)

def World.sets : Option Task → World
  | some task => { w with tasks := w.tasks.insert t task }
  | none => { w with tasks := w.tasks.erase t }

def World.moves (task : Task) (phase : Phase) : World := w.sets t (some { task with phase := phase })

def World.goesOn (operation : Operation) : World :=
  { w.sets t operation.next with down := w.down || decide (operation = .shutdown []) }

def World.spawns (task : Option Task) : World := { w.sets w.next task with next := w.next + 1 }

def World.putRow (id : String) (row : ChannelPluginRow) : World := { w with rows := w.rows.insert id row }

def World.change (plugin : Nat) (f : Plugin → Plugin) : World :=
  match w.instances.lookup plugin with
  | some p => { w with instances := w.instances.insert plugin (f p) }
  | none => w

-- `stop_plugin` is over.
def World.afterStop (task : Task) : World :=
  match task.operation with
  | .enablePlugin | .enableExtensionPlugin => w.moves t task .persisting
  | .disablePlugin => w.moves t task .disabling
  | .shutdown _ | .restorePlugins _ => w.goesOn t task.operation

-- An attempt to start a plugin goes wrong: `enable_plugin` returns the error at
-- once unless `initialize` or `start` is to blame, `restore_plugins` records it.
def World.refuses (task : Task) : World :=
  match task.operation,task.phase with
  | .enablePlugin,.initializing n | .enablePlugin,.starting n => { w.moves t task .failing with failed := n :: w.failed }
  | .enablePlugin,.marking n => { w.sets t none with failed := n :: w.failed }
  | .restorePlugins _,_ => w.moves t task .failing
  | _,_ => w.sets t none

def World.updatePluginError (id : String) : World :=
  match w.rows.lookup id with
  | some row => w.putRow id { row with status := some .error }
  | none => w

end Tasks

def Task.proceeds (w : World) (t : Nat) (task : Task) : Option World :=
  match task.phase with
  | .removing =>
    match w.plugins.lookup task.id with
    | some n =>
      let halted := match task.operation with
        | .shutdown _ => task.id :: w.halted
        | _ => w.halted
      some { w.moves t task (.stopping n) with plugins := w.plugins.erase task.id, halted := halted }
    | none => some (w.afterStop t task)
  -- An error of `stop` is only logged.
  | .stopping n => some ((w.change n ({ · with stopped := true })).afterStop t task)
  | .persisting =>
    match task.operation with
    | .enablePlugin => some ((w.putRow task.id ⟨task.id,true,some .created⟩).moves t task .creating)
    -- An extension's plugin has no runtime here: its row is all there is.
    | .enableExtensionPlugin => some ((w.putRow task.id ⟨task.id,true,some .stopped⟩).sets t none)
    | _ => none
  | .disabling =>
    match w.rows.lookup task.id with
    | some row => some ((w.putRow task.id { row with enabled := false, status := some .stopped }).sets t none)
    | none => some (w.sets t none)
  | .creating =>
    some { w.moves t task (.initializing w.next) with
      instances := w.instances.insert w.next ⟨task.id,false,false⟩, next := w.next + 1 }
  | .marking n =>
    match w.rows.lookup task.id with
    | some row => some ((w.putRow task.id { row with status := some .running }).moves t task (.inserting n))
    | none => some (w.refuses t task)
  -- What was in the map is dropped without a `stop`.
  | .inserting n =>
    some ({ w with plugins := w.plugins.insert task.id n, halted := w.halted.filter (· ≠ task.id) }.goesOn t task.operation)
  | .failing => some ((w.updatePluginError task.id).goesOn t task.operation)
  | .initializing _ | .starting _ => none

def Task.fails (w : World) (t : Nat) (task : Task) : Option World :=
  match task.phase with
  | .persisting | .disabling => some (w.sets t none)
  | .creating | .marking _ => some (w.refuses t task)
  | .failing => some (w.goesOn t task.operation)
  | _ => none

def Task.runsPlugin (w : World) (t : Nat) (task : Task) (spawned ok : Bool) : Option World :=
  match task.phase with
  | .initializing n =>
    let w := w.change n fun p => { p with loop := p.loop || spawned }
    some (if ok then w.moves t task (.starting n) else w.refuses t task)
  | .starting n =>
    let w := w.change n fun p => { p with loop := p.loop || spawned }
    some (if ok then w.moves t task (.marking n) else w.refuses t task)
  | _ => none

def step (w : World) : Event → Option World
  | .enablePlugin id =>
    some (if builtin id then { w.spawns (some ⟨id,.enablePlugin,.removing⟩) with down := false } else w)
  | .enableExtensionPlugin id => some (w.spawns (some ⟨id,.enableExtensionPlugin,.removing⟩))
  | .disablePlugin id => some (w.spawns (some ⟨id,.disablePlugin,.removing⟩))
  | .shutdown => some { w.spawns (Operation.next (.shutdown w.plugins.keys)) with down := w.down || w.plugins.keys.isEmpty }
  | .restorePlugins =>
    let enabled := (w.rows.entries.filter (·.2.enabled)).map fun row => (row.1,row.2.type)
    some { w.spawns (Operation.next (.restorePlugins enabled)) with down := false }
  | .proceed t => (w.tasks.lookup t).bind fun task => task.proceeds w t
  | .fail t => (w.tasks.lookup t).bind fun task => task.fails w t
  | .plugin t spawned ok => (w.tasks.lookup t).bind fun task => task.runsPlugin w t spawned ok

end AlineaCopilot.ChannelPlugins
