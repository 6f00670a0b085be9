import AlineaCopilot.ChannelPlugins
open AlineaCopilot.KeyedMaps AlineaCopilot.TransitionRuns

namespace AlineaCopilot.ChannelPlugins

section Statements

-- The row says that the plugin is on, and nothing has halted it since.
def Live (w : World) (id : String) : Prop :=
  (∃ row, w.rows.lookup id = some row ∧ row.enabled = true ∧ row.status = some .running) ∧ id ∉ w.halted

def NoLoop (w : World) (plugin : Nat) : Prop := ∀ p, w.instances.lookup plugin = some p → p.loop = false

-- A row is not taken down under an instance another operation has put in the map,
-- an instance is put in the map when nothing is there, its row still says running
-- and no shutdown is under way or past, and no attempt goes wrong once its plugin
-- has a receive loop, or a stop once it has taken the instance out.
def Within (w : World) : Event → Prop
  | .proceed t => ∀ task, w.tasks.lookup t = some task →
    match task.phase with
    | .persisting | .disabling | .failing => w.plugins.lookup task.id = none
    | .inserting _ => w.plugins.lookup task.id = none ∧
        (∃ row, w.rows.lookup task.id = some row ∧ row.enabled = true ∧ row.status = some .running) ∧ w.down = false ∧
        ∀ j other rest, w.tasks.lookup j = some other → other.operation ≠ .shutdown rest
    | .marking n => w.rows.lookup task.id = none → NoLoop w n
    | _ => True
  | .fail t => ∀ task, w.tasks.lookup t = some task →
    match task.phase with
    | .persisting | .disabling => ¬Live w task.id
    | .marking n => NoLoop w n
    | _ => True
  | .plugin t spawned ok => ∀ task, w.tasks.lookup t = some task →
    match task.phase with
    | .initializing n | .starting n => ok = true ∨ spawned = false ∧ NoLoop w n
    | _ => True
  | _ => True

def Quiescent (w : World) : Prop := w.tasks = ∅

def Plugin.receives (p : Plugin) : Prop := p.loop = true ∧ p.stopped = false

end Statements

section Keeping

-- The instance a task has in hand.
def Phase.plugin : Phase → Option Nat
  | .stopping n | .initializing n | .starting n | .marking n | .inserting n => some n
  | _ => none

-- The row still says running, and the task is about to change that or to bear it out.
def Task.settles (task : Task) : Prop :=
  match task.operation,task.phase with
  | .shutdown _,_ => False
  | _,.stopping _ | _,.persisting | _,.disabling | _,.inserting _ => True
  | _,_ => False

-- A shutdown only stops plugins, a restore stops none.
def Task.shaped (task : Task) : Prop :=
  match task.operation,task.phase with
  | .shutdown _,.removing | .shutdown _,.stopping _ => True
  | .shutdown _,_ | .restorePlugins _,.removing | .restorePlugins _,.stopping _ => False
  | _,_ => True

structure Kept (w : World) : Prop where
  tasks : ∀ t task, w.tasks.lookup t = some task → t < w.next
  shaped : ∀ t task, w.tasks.lookup t = some task → task.shaped
  instances : ∀ n p, w.instances.lookup n = some p → n < w.next
  held : ∀ t task n, w.tasks.lookup t = some task → task.phase.plugin = some n →
    ∃ p, w.instances.lookup n = some p ∧ p.id = task.id
  apart : ∀ t u task other n, w.tasks.lookup t = some task → w.tasks.lookup u = some other →
    task.phase.plugin = some n → other.phase.plugin = some n → t = u
  stored : ∀ id n, w.plugins.lookup id = some n → (∃ p, w.instances.lookup n = some p ∧ p.id = id) ∧
    (∀ t task, w.tasks.lookup t = some task → task.phase.plugin ≠ some n) ∧ Live w id
  receiving : ∀ n p, w.instances.lookup n = some p → p.receives → w.plugins.lookup p.id = some n ∨
    ∃ t task, w.tasks.lookup t = some task ∧ task.phase.plugin = some n
  live : ∀ id, Live w id → w.plugins.lookup id ≠ none ∨ ∃ t task, w.tasks.lookup t = some task ∧ task.id = id ∧ task.settles
  shutting : ∀ t task rest, w.tasks.lookup t = some task → task.operation = .shutdown rest →
    ∀ id, w.plugins.lookup id ≠ none → id ∈ rest ∨ id = task.id ∧ task.phase = .removing
  down : w.down = true → ∀ id, w.plugins.lookup id = none
  failed : ∀ n ∈ w.failed, (∃ p, w.instances.lookup n = some p ∧ ¬p.receives) ∧
    (∀ t task, w.tasks.lookup t = some task → task.phase.plugin ≠ some n) ∧ ∀ id, w.plugins.lookup id ≠ some n

end Keeping

section Parts
variable {w : World}

theorem lookup_sets (w : World) (t : Nat) (x : Option Task) (j : Nat) :
    (w.sets t x).tasks.lookup j = if j = t then x else w.tasks.lookup j := by
  cases x with
  | none => exact lookup_erase_eq _ _ _
  | some task => exact lookup_insert_eq _ _ _ _

theorem sets_rest (w : World) (t : Nat) (x : Option Task) : w.sets t x = { w with tasks := (w.sets t x).tasks } := by
  cases x <;> rfl

theorem Task.shaped.stops {task : Task} (shaped : task.shaped) (removing : task.phase = .removing) {n : Nat} :
    ({ task with phase := .stopping n } : Task).shaped := by
  unfold Task.shaped at shaped ⊢
  rw [removing] at shaped
  cases operation : task.operation with
  | shutdown rest => trivial
  | restorePlugins rest =>
    rw [operation] at shaped
    exact shaped
  | enablePlugin | enableExtensionPlugin | disablePlugin => trivial

theorem Task.shaped.busy {task : Task} (shaped : task.shaped) (working : task.phase ≠ .removing ∧ ∀ n, task.phase ≠ .stopping n)
    (rest : List String) : task.operation ≠ .shutdown rest := by
  intro shutting
  unfold Task.shaped at shaped
  rw [shutting] at shaped
  cases phase : task.phase with
  | removing => exact working.1 phase
  | stopping n => exact working.2 n phase
  | persisting | disabling | creating | initializing _ | starting _ | marking _ | inserting _ | failing =>
    rw [phase] at shaped
    exact shaped

theorem shaped_of {task : Task} (busy : ∀ rest, task.operation ≠ .shutdown rest) {phase : Phase}
    (works : phase ≠ .removing ∧ ∀ n, phase ≠ .stopping n) : ({ task with phase := phase } : Task).shaped := by
  unfold Task.shaped
  cases operation : task.operation with
  | shutdown rest => exact absurd operation (busy rest)
  | restorePlugins rest =>
    cases phase with
    | removing => exact absurd rfl works.1
    | stopping n => exact absurd rfl (works.2 n)
    | persisting | disabling | creating | initializing _ | starting _ | marking _ | inserting _ | failing => trivial
  | enablePlugin | enableExtensionPlugin | disablePlugin => trivial

-- A task goes on to another call, or ends.
theorem Kept.sets (kept : Kept w) {t : Nat} {x : Option Task} (below : t < w.next) (shaped : ∀ after, x = some after → after.shaped)
    (holds : ∀ after, x = some after → ∀ n, after.phase.plugin = some n →
      ∃ task, w.tasks.lookup t = some task ∧ task.id = after.id ∧ task.phase.plugin = some n)
    (drops : ∀ task n, w.tasks.lookup t = some task → task.phase.plugin = some n →
      (∃ after, x = some after ∧ after.phase.plugin = some n) ∨
        ∀ p, w.instances.lookup n = some p → p.receives → w.plugins.lookup p.id = some n)
    (settles : ∀ task, w.tasks.lookup t = some task → task.settles → Live w task.id →
      w.plugins.lookup task.id ≠ none ∨ ∃ after, x = some after ∧ after.id = task.id ∧ after.settles)
    (shuts : ∀ after rest, x = some after → after.operation = .shutdown rest →
      ∀ id, w.plugins.lookup id ≠ none → id ∈ rest ∨ id = after.id ∧ after.phase = .removing) : Kept (w.sets t x) := by
  have lookup := lookup_sets w t x
  -- Whatever a task holds now, a task of the same number held before.
  have before : ∀ u task n, (w.sets t x).tasks.lookup u = some task → task.phase.plugin = some n →
      ∃ earlier, w.tasks.lookup u = some earlier ∧ earlier.id = task.id ∧ earlier.phase.plugin = some n := by
    intro u task n present has
    rw [lookup] at present
    split at present
    · rename_i same
      subst same
      exact holds task present n has
    · exact ⟨task,present,rfl,has⟩
  rw [sets_rest]
  refine ⟨?_,?_,kept.instances,?_,?_,?_,?_,?_,?_,kept.down,?_⟩
  · intro u task present
    rw [lookup] at present
    split at present
    · rename_i same
      rw [same]
      exact below
    · exact kept.tasks u task present
  · intro u task present
    rw [lookup] at present
    split at present
    · exact shaped task present
    · exact kept.shaped u task present
  · intro u task n present has
    obtain ⟨earlier,held,same,has'⟩ := before u task n present has
    rw [← same]
    exact kept.held u earlier n held has'
  · intro u v task other n one two has has'
    obtain ⟨_,held,_,had⟩ := before u task n one has
    obtain ⟨_,held',_,had'⟩ := before v other n two has'
    exact kept.apart u v _ _ n held held' had had'
  · intro id n present
    obtain ⟨known,unheld,live⟩ := kept.stored id n present
    refine ⟨known,fun u task inside has => ?_,live⟩
    obtain ⟨earlier,held,_,had⟩ := before u task n inside has
    exact unheld u earlier held had
  · intro n p present receives
    rcases kept.receiving n p present receives with inside | ⟨u,task,held,has⟩
    · exact .inl inside
    · by_cases same : u = t
      · subst same
        rcases drops task n held has with ⟨after,next,has'⟩ | inside
        · exact .inr ⟨u,after,by rw [lookup,if_pos rfl]; exact next,has'⟩
        · exact .inl (inside p present receives)
      · exact .inr ⟨u,task,by rw [lookup,if_neg same]; exact held,has⟩
  · intro id live
    rcases kept.live id live with inside | ⟨u,task,held,same_id,settles_⟩
    · exact .inl inside
    · by_cases same : u = t
      · subst same
        rcases settles task held settles_ (same_id ▸ live) with inside | ⟨after,next,same_id',settles'⟩
        · exact .inl (same_id ▸ inside)
        · exact .inr ⟨u,after,by rw [lookup,if_pos rfl]; exact next,same_id'.trans same_id,settles'⟩
      · exact .inr ⟨u,task,by rw [lookup,if_neg same]; exact held,same_id,settles_⟩
  · intro u task rest present shutting
    rw [lookup] at present
    split at present
    · exact shuts task rest present shutting
    · exact kept.shutting u task rest present shutting
  · intro n failed
    obtain ⟨ended,unheld,absent⟩ := kept.failed n failed
    refine ⟨ended,fun u task inside has => ?_,absent⟩
    obtain ⟨earlier,held,_,had⟩ := before u task n inside has
    exact unheld u earlier held had

theorem live_putRow {id other : String} {row : ChannelPluginRow} (live : Live (w.putRow id row) other) :
    other = id ∧ (row.enabled = true ∧ row.status = some .running) ∧ id ∉ w.halted ∨ other ≠ id ∧ Live w other := by
  obtain ⟨⟨found,present,on⟩,goes⟩ := live
  simp only [World.putRow] at present goes
  rw [lookup_insert_eq] at present
  split at present
  · rename_i same
    cases present
    exact .inl ⟨same,on,same ▸ goes⟩
  · rename_i different
    exact .inr ⟨different,⟨found,present,on⟩,goes⟩

theorem Live.putRow {id other : String} {row : ChannelPluginRow} (live : Live w other)
    (keeps : other = id → row.enabled = true ∧ row.status = some .running) : Live (w.putRow id row) other := by
  obtain ⟨⟨found,present,on⟩,goes⟩ := live
  by_cases same : other = id
  · exact ⟨⟨row,(lookup_insert_eq _ _ _ _).trans (if_pos same),keeps same⟩,goes⟩
  · exact ⟨⟨found,((lookup_insert_eq _ _ _ _).trans (if_neg same)).trans present,on⟩,goes⟩

-- A row is written under which no instance is in the map, unless it says running.
theorem Kept.putRow (kept : Kept w) {id : String} {row : ChannelPluginRow}
    (stays : w.plugins.lookup id ≠ none → row.enabled = true ∧ row.status = some .running)
    (settled : row.enabled = true → row.status = some .running → id ∉ w.halted →
      w.plugins.lookup id ≠ none ∨ ∃ t task, w.tasks.lookup t = some task ∧ task.id = id ∧ task.settles) : Kept (w.putRow id row) := by
  refine ⟨kept.tasks,kept.shaped,kept.instances,kept.held,kept.apart,?_,kept.receiving,?_,kept.shutting,kept.down,kept.failed⟩
  · intro other n present
    obtain ⟨known,unheld,live⟩ := kept.stored other n present
    refine ⟨known,unheld,live.putRow fun same => stays ?_⟩
    rw [← same,show w.plugins.lookup other = some n from present]
    exact Option.some_ne_none n
  · intro other live
    rcases live_putRow live with ⟨rfl,⟨on,running⟩,goes⟩ | ⟨_,before⟩
    · exact settled on running goes
    · exact kept.live other before

theorem Kept.offRow (kept : Kept w) {id : String} {row : ChannelPluginRow} (out : w.plugins.lookup id = none)
    (off : ¬(row.enabled = true ∧ row.status = some .running)) : Kept (w.putRow id row) :=
  kept.putRow (fun inside => absurd out inside) fun on running => absurd ⟨on,running⟩ off

@[simp] theorem change_tasks (w : World) (n : Nat) (f : Plugin → Plugin) : (w.change n f).tasks = w.tasks := by
  unfold World.change
  split <;> rfl

@[simp] theorem change_plugins (w : World) (n : Nat) (f : Plugin → Plugin) : (w.change n f).plugins = w.plugins := by
  unfold World.change
  split <;> rfl

@[simp] theorem change_next (w : World) (n : Nat) (f : Plugin → Plugin) : (w.change n f).next = w.next := by
  unfold World.change
  split <;> rfl

@[simp] theorem change_live (w : World) (n : Nat) (f : Plugin → Plugin) (id : String) : Live (w.change n f) id ↔ Live w id := by
  unfold World.change
  split <;> rfl

theorem lookup_change {n m : Nat} {f : Plugin → Plugin} {p : Plugin} (present : (w.change n f).instances.lookup m = some p) :
    m = n ∧ (∃ before, w.instances.lookup n = some before ∧ p = f before) ∨ m ≠ n ∧ w.instances.lookup m = some p := by
  unfold World.change at present
  split at present
  · rename_i before held
    simp only at present
    rw [lookup_insert_eq] at present
    split at present
    · rename_i same
      exact .inl ⟨same,before,held,(Option.some.inj present).symm⟩
    · rename_i different
      exact .inr ⟨different,present⟩
  · rename_i missing
    by_cases same : m = n
    · rw [same,missing] at present
      cases present
    · exact .inr ⟨same,present⟩

theorem change_lookup {n m : Nat} {f : Plugin → Plugin} {p : Plugin} (present : w.instances.lookup m = some p) :
    (w.change n f).instances.lookup m = some (if m = n then f p else p) := by
  unfold World.change
  by_cases same : m = n
  · subst same
    rw [present,if_pos rfl]
    exact (lookup_insert_eq _ _ _ _).trans (if_pos rfl)
  · rw [if_neg same]
    split
    · exact ((lookup_insert_eq _ _ _ _).trans (if_neg same)).trans present
    · exact present

-- Something happens to the instance a task has in hand.
theorem Kept.change (kept : Kept w) {t n : Nat} {task : Task} (held : w.tasks.lookup t = some task) (has : task.phase.plugin = some n)
    {f : Plugin → Plugin} (same : ∀ p, (f p).id = p.id) : Kept (w.change n f) := by
  refine ⟨?_,?_,?_,?_,?_,?_,?_,?_,?_,?_,?_⟩
  · rw [change_tasks,change_next]
    exact kept.tasks
  · rw [change_tasks]
    exact kept.shaped
  · intro m p present
    rw [change_next]
    rcases lookup_change present with ⟨rfl,before,held',_⟩ | ⟨_,held'⟩
    · exact kept.instances m before held'
    · exact kept.instances m p held'
  · rw [change_tasks]
    intro u other m present has'
    obtain ⟨p,known,id⟩ := kept.held u other m present has'
    refine ⟨_,change_lookup known,?_⟩
    split
    · rw [same]
      exact id
    · exact id
  · rw [change_tasks]
    exact kept.apart
  · rw [change_plugins,change_tasks]
    intro id m present
    obtain ⟨⟨p,known,same_id⟩,unheld,live⟩ := kept.stored id m present
    refine ⟨⟨_,change_lookup known,?_⟩,unheld,(change_live w n f id).mpr live⟩
    split
    · rw [same]
      exact same_id
    · exact same_id
  · rw [change_plugins,change_tasks]
    intro m p present receives
    rcases lookup_change present with ⟨rfl,_⟩ | ⟨_,before⟩
    · exact .inr ⟨t,task,held,has⟩
    · exact kept.receiving m p before receives
  · rw [change_plugins,change_tasks]
    exact fun id live => kept.live id ((change_live w n f id).mp live)
  · rw [change_plugins,change_tasks]
    exact kept.shutting
  · have down : (w.change n f).down = w.down := by
      unfold World.change
      split <;> rfl
    rw [change_plugins,down]
    exact kept.down
  · have failed : (w.change n f).failed = w.failed := by
      unfold World.change
      split <;> rfl
    rw [change_plugins,change_tasks,failed]
    intro m inside
    obtain ⟨⟨p,known,ended⟩,unheld,absent⟩ := kept.failed m inside
    have different : m ≠ n := fun equal => unheld t task held (equal ▸ has)
    refine ⟨⟨_,change_lookup known,?_⟩,unheld,absent⟩
    rw [if_neg different]
    exact ended

-- The instance is made and taken up.
theorem Kept.creates (kept : Kept w) {t : Nat} {task : Task} (held : w.tasks.lookup t = some task) (creating : task.phase = .creating) :
    Kept { w.moves t task (.initializing w.next) with
      instances := w.instances.insert w.next ⟨task.id,false,false⟩, next := w.next + 1 } := by
  have lookup := lookup_sets w t (some { task with phase := .initializing w.next })
  have empty : task.phase.plugin = none := by rw [creating]; rfl
  have older : ∀ n p, w.instances.lookup n = some p → (w.instances.insert w.next ⟨task.id,false,false⟩).lookup n = some p := by
    intro n p present
    rw [lookup_insert_eq,if_neg (kept.instances n p present).ne]
    exact present
  have newer : ∀ u other n, (w.moves t task (.initializing w.next)).tasks.lookup u = some other → other.phase.plugin = some n →
      n = w.next ∧ u = t ∧ other.id = task.id ∨ n ≠ w.next ∧ w.tasks.lookup u = some other := by
    intro u other n present has
    rw [World.moves,lookup] at present
    split at present
    · rename_i same
      cases present
      cases has
      exact .inl ⟨rfl,same,rfl⟩
    · obtain ⟨p,known,_⟩ := kept.held u other n present has
      exact .inr ⟨(kept.instances n p known).ne,present⟩
  refine ⟨?_,?_,?_,?_,?_,?_,?_,?_,?_,kept.down,?_⟩
  · intro u other present
    rw [World.moves,lookup] at present
    split at present
    · rename_i same
      rw [same]
      exact Nat.lt_succ_of_lt (kept.tasks t task held)
    · exact Nat.lt_succ_of_lt (kept.tasks u other present)
  · intro u other present
    rw [World.moves,lookup] at present
    split at present
    · cases present
      exact shaped_of ((kept.shaped t task held).busy (by simp [creating])) (by simp)
    · exact kept.shaped u other present
  · intro n p present
    rw [lookup_insert_eq] at present
    split at present
    · rename_i same
      rw [same]
      exact Nat.lt_succ_self _
    · exact Nat.lt_succ_of_lt (kept.instances n p present)
  · intro u other n present has
    rcases newer u other n present has with ⟨rfl,_,same⟩ | ⟨_,before⟩
    · exact ⟨_,(lookup_insert_eq _ _ _ _).trans (if_pos rfl),same.symm⟩
    · obtain ⟨p,known,same⟩ := kept.held u other n before has
      exact ⟨p,older n p known,same⟩
  · intro u v one two n first second has has'
    rcases newer u one n first has with ⟨rfl,rfl,_⟩ | ⟨old,before⟩
    · rcases newer v two w.next second has' with ⟨_,rfl,_⟩ | ⟨old,_⟩
      · rfl
      · exact absurd rfl old
    · rcases newer v two n second has' with ⟨same,_,_⟩ | ⟨_,before'⟩
      · exact absurd same old
      · exact kept.apart u v one two n before before' has has'
  · intro id n present
    obtain ⟨⟨p,known,same⟩,unheld,live⟩ := kept.stored id n (by simpa [World.moves,World.sets] using present)
    refine ⟨⟨p,older n p known,same⟩,fun u other inside has => ?_,live⟩
    rcases newer u other n inside has with ⟨same,_,_⟩ | ⟨_,before⟩
    · exact absurd same (kept.instances n p known).ne
    · exact unheld u other before has
  · intro n p present receives
    rw [lookup_insert_eq] at present
    split at present
    · cases present
      cases receives.1
    · rcases kept.receiving n p present receives with inside | ⟨u,other,there,has⟩
      · exact .inl inside
      · refine .inr ⟨u,other,?_,has⟩
        rw [World.moves,lookup,if_neg fun same => ?_]
        · exact there
        · rw [same,held] at there
          cases there
          rw [empty] at has
          cases has
  · intro id live
    rcases kept.live id live with inside | ⟨u,other,there,same,settles⟩
    · exact .inl inside
    · refine .inr ⟨u,other,?_,same,settles⟩
      rw [World.moves,lookup,if_neg fun equal => ?_]
      · exact there
      · rw [equal,held] at there
        cases there
        unfold Task.settles at settles
        rw [creating] at settles
        split at settles <;> simp_all
  · intro u other rest present shutting id inside
    rw [World.moves,lookup] at present
    split at present
    · cases present
      rcases kept.shutting t task rest held shutting id inside with listed | ⟨_,removing⟩
      · exact .inl listed
      · rw [creating] at removing
        cases removing
    · exact kept.shutting u other rest present shutting id inside
  · intro n failed
    obtain ⟨⟨p,known,ended⟩,unheld,absent⟩ := kept.failed n failed
    refine ⟨⟨p,older n p known,ended⟩,fun u other inside has => ?_,absent⟩
    rcases newer u other n inside has with ⟨same,_,_⟩ | ⟨_,before⟩
    · exact absurd same (kept.instances n p known).ne
    · exact unheld u other before has

-- The instance is taken out of the map, to be stopped.
theorem Kept.removes (kept : Kept w) {t n : Nat} {task : Task} (held : w.tasks.lookup t = some task) (removing : task.phase = .removing)
    (inside : w.plugins.lookup task.id = some n) {halted : List String}
    (halts : halted = w.halted ∧ (∀ rest, task.operation ≠ .shutdown rest) ∨ halted = task.id :: w.halted) :
    Kept { w.moves t task (.stopping n) with plugins := w.plugins.erase task.id, halted := halted } := by
  have lookup := lookup_sets w t (some { task with phase := .stopping n })
  have empty : task.phase.plugin = none := by rw [removing]; rfl
  obtain ⟨⟨q,made,owner⟩,unheld,_⟩ := kept.stored task.id n inside
  have erased : ∀ id, (w.plugins.erase task.id).lookup id = if id = task.id then none else w.plugins.lookup id :=
    fun id => lookup_erase_eq _ _ _
  have fewer : ∀ id m, (w.plugins.erase task.id).lookup id = some m → id ≠ task.id ∧ w.plugins.lookup id = some m := by
    intro id m present
    rw [erased] at present
    split at present
    · cases present
    · rename_i different
      exact ⟨different,present⟩
  have less : ∀ id, Live { w.moves t task (.stopping n) with plugins := w.plugins.erase task.id, halted := halted } id → Live w id := by
    intro id ⟨row,goes⟩
    refine ⟨row,fun before => goes ?_⟩
    rcases halts with ⟨same,_⟩ | same
    · exact same ▸ before
    · exact same ▸ List.mem_cons_of_mem _ before
  have newer : ∀ u other m, (w.moves t task (.stopping n)).tasks.lookup u = some other → other.phase.plugin = some m →
      m = n ∧ u = t ∧ other.id = task.id ∨ w.tasks.lookup u = some other := by
    intro u other m present has
    rw [World.moves,lookup] at present
    split at present
    · rename_i same
      cases present
      cases has
      exact .inl ⟨rfl,same,rfl⟩
    · exact .inr present
  refine ⟨?_,?_,kept.instances,?_,?_,?_,?_,?_,?_,?_,?_⟩
  · intro u other present
    rw [World.moves,lookup] at present
    split at present
    · rename_i same
      rw [same]
      exact kept.tasks t task held
    · exact kept.tasks u other present
  · intro u other present
    rw [World.moves,lookup] at present
    split at present
    · cases present
      exact (kept.shaped t task held).stops removing
    · exact kept.shaped u other present
  · intro u other m present has
    rcases newer u other m present has with ⟨rfl,_,same⟩ | before
    · exact ⟨q,made,owner.trans same.symm⟩
    · exact kept.held u other m before has
  · intro u v one two m first second has has'
    rcases newer u one m first has with ⟨rfl,rfl,_⟩ | before
    · rcases newer v two m second has' with ⟨_,rfl,_⟩ | before'
      · rfl
      · exact absurd has' (unheld v two before')
    · rcases newer v two m second has' with ⟨rfl,rfl,_⟩ | before'
      · exact absurd has (unheld u one before)
      · exact kept.apart u v one two m before before' has has'
  · intro id m present
    obtain ⟨different,present⟩ := fewer id m present
    obtain ⟨⟨p,known,same⟩,unheld',live⟩ := kept.stored id m present
    refine ⟨⟨p,known,same⟩,fun u other there has => ?_,live.1,fun goes => ?_⟩
    · rcases newer u other m there has with ⟨rfl,_,_⟩ | before
      · cases made.symm.trans known
        exact different (same.symm.trans owner)
      · exact unheld' u other before has
    · rcases halts with ⟨equal,_⟩ | equal
      · exact live.2 (equal ▸ goes)
      · rw [show halted = _ from equal] at goes
        rcases List.mem_cons.mp goes with same' | before
        · exact different same'
        · exact live.2 before
  · intro m p present receives
    rcases kept.receiving m p present receives with there | ⟨u,other,there,has⟩
    · by_cases same : p.id = task.id
      · rw [same,inside] at there
        cases there
        exact .inr ⟨t,{ task with phase := .stopping n },by rw [World.moves,lookup,if_pos rfl],rfl⟩
      · exact .inl (by rw [erased,if_neg same]; exact there)
    · refine .inr ⟨u,other,?_,has⟩
      rw [World.moves,lookup,if_neg fun same => ?_]
      · exact there
      · rw [same,held] at there
        cases there
        rw [empty] at has
        cases has
  · intro id live
    by_cases same : id = task.id
    · refine .inr ⟨t,{ task with phase := .stopping n },by rw [World.moves,lookup,if_pos rfl],same.symm,?_⟩
      rcases halts with ⟨_,working⟩ | equal
      · cases operation : task.operation with
        | shutdown rest => exact absurd operation (working rest)
        | enablePlugin | enableExtensionPlugin | disablePlugin | restorePlugins _ => simp [Task.settles]
      · exact absurd (by rw [same,show halted = _ from equal]; exact List.mem_cons_self) live.2
    · rcases kept.live id (less id live) with there | ⟨u,other,there,equal,settles⟩
      · exact .inl (by rw [erased,if_neg same]; exact there)
      · refine .inr ⟨u,other,?_,equal,settles⟩
        rw [World.moves,lookup,if_neg fun number => ?_]
        · exact there
        · rw [number,held] at there
          cases there
          exact same equal.symm
  · intro u other rest present shutting id there
    have before : w.plugins.lookup id ≠ none ∧ id ≠ task.id := by
      obtain ⟨m,listed⟩ := Option.ne_none_iff_exists'.mp there
      obtain ⟨different,listed⟩ := fewer id m listed
      exact ⟨by rw [listed]; exact Option.some_ne_none m,different⟩
    rw [World.moves,lookup] at present
    split at present
    · cases present
      rcases kept.shutting t task rest held shutting id before.1 with listed | ⟨same,_⟩
      · exact .inl listed
      · exact absurd same before.2
    · exact kept.shutting u other rest present shutting id before.1
  · intro down id
    rw [erased]
    split
    · rfl
    · exact kept.down down id
  · intro m failed
    obtain ⟨ended,unheld',absent⟩ := kept.failed m failed
    refine ⟨ended,fun u other there has => ?_,fun id present => absent id (fewer id m present).2⟩
    rcases newer u other m there has with ⟨rfl,_,_⟩ | before
    · exact absent task.id inside
    · exact unheld' u other before has

-- What an operation turns to next has no instance in hand yet.
theorem next_task {operation : Operation} {after : Task} (next : operation.next = some after) :
    after.phase.plugin = none ∧ ¬after.settles ∧ after.shaped ∧
      ((∃ rest, after.operation = .shutdown rest ∧ operation = .shutdown (after.id :: rest) ∧ after.phase = .removing) ∨
        (∃ rest, after.operation = .restorePlugins rest) ∧ ∃ rest, operation = .restorePlugins rest) := by
  cases operation with
  | shutdown ids =>
    cases ids with
    | nil => cases next
    | cons id rest =>
      cases next
      exact ⟨rfl,not_false,trivial,.inl ⟨rest,rfl,rfl,rfl⟩⟩
  | restorePlugins rows =>
    simp only [Operation.next] at next
    split at next
    · cases next
      exact ⟨rfl,not_false,trivial,.inr ⟨⟨_,rfl⟩,rows,rfl⟩⟩
    · cases next
  | enablePlugin | enableExtensionPlugin | disablePlugin => cases next

-- An operation is done with a plugin.
theorem Kept.goesOn (kept : Kept w) {t : Nat} {task : Task} (held : w.tasks.lookup t = some task)
    (removed : task.phase = .removing → w.plugins.lookup task.id = none)
    (quiet : ∀ n p, task.phase.plugin = some n → w.instances.lookup n = some p → ¬p.receives)
    (settled : task.settles → ¬Live w task.id) : Kept (w.goesOn t task.operation) := by
  have rest : ∀ rest, task.operation = .shutdown rest → ∀ id, w.plugins.lookup id ≠ none → id ∈ rest := by
    intro rest shutting id inside
    rcases kept.shutting t task rest held shutting id inside with listed | ⟨same,removing⟩
    · exact listed
    · exact absurd (same ▸ removed removing) inside
  have sets : Kept (w.sets t task.operation.next) := by
    refine kept.sets (kept.tasks t task held) (fun after next => (next_task next).2.2.1) ?_ ?_ ?_ ?_
    · intro after next n has
      rw [(next_task next).1] at has
      cases has
    · intro task' n held' has
      cases held.symm.trans held'
      exact .inr fun p present receives => absurd receives (quiet n p has present)
    · intro task' held' settles live
      cases held.symm.trans held'
      exact absurd live (settled settles)
    · intro after others next shutting id inside
      rcases (next_task next).2.2.2 with ⟨others',same,shuts,removing⟩ | ⟨⟨_,restores⟩,_⟩
      · cases shutting.symm.trans same
        rcases List.mem_cons.mp (rest _ shuts id inside) with equal | later
        · exact .inr ⟨equal,removing⟩
        · exact .inl later
      · cases restores.symm.trans shutting
  have plugins : (w.sets t task.operation.next).plugins = w.plugins := by rw [sets_rest]
  have down : (w.sets t task.operation.next).down = w.down := by rw [sets_rest]
  refine ⟨sets.tasks,sets.shaped,sets.instances,sets.held,sets.apart,sets.stored,sets.receiving,sets.live,sets.shutting,?_,sets.failed⟩
  intro over_ id
  show (w.sets t task.operation.next).plugins.lookup id = none
  rw [plugins]
  rcases Bool.or_eq_true_iff.mp over_ with before | last
  · exact kept.down before id
  · by_contra inside
    exact absurd (rest [] (of_decide_eq_true last) id inside) List.not_mem_nil

-- The next number is given out.
theorem Kept.counts (kept : Kept w) : Kept { w with next := w.next + 1 } :=
  ⟨fun t task held => Nat.lt_succ_of_lt (kept.tasks t task held),kept.shaped,
    fun n p present => Nat.lt_succ_of_lt (kept.instances n p present),kept.held,kept.apart,kept.stored,kept.receiving,
    kept.live,kept.shutting,kept.down,kept.failed⟩

theorem Kept.withDown (kept : Kept w) {down : Bool} (empty : down = true → ∀ id, w.plugins.lookup id = none) :
    Kept { w with down := down } :=
  ⟨kept.tasks,kept.shaped,kept.instances,kept.held,kept.apart,kept.stored,kept.receiving,kept.live,kept.shutting,empty,kept.failed⟩

-- An operation begins.
theorem Kept.spawns (kept : Kept w) {x : Option Task} (shaped : ∀ after, x = some after → after.shaped ∧ after.phase.plugin = none)
    (shuts : ∀ after rest, x = some after → after.operation = .shutdown rest →
      ∀ id, w.plugins.lookup id ≠ none → id ∈ rest ∨ id = after.id ∧ after.phase = .removing) : Kept (w.spawns x) := by
  have fresh : ∀ task, w.tasks.lookup w.next ≠ some task := fun task held => absurd (kept.tasks _ task held) (Nat.lt_irrefl _)
  have begins : Kept (World.sets { w with next := w.next + 1 } w.next x) := by
    refine kept.counts.sets (Nat.lt_succ_self _) (fun after next => (shaped after next).1) ?_ ?_ ?_ shuts
    · intro after next n has
      rw [(shaped after next).2] at has
      cases has
    · exact fun task n held => absurd held (fresh task)
    · exact fun task held => absurd held (fresh task)
  cases x <;> exact begins

-- An attempt is over, and what it made receives nothing.
theorem Kept.failsWith (kept : Kept w) {n : Nat} {p : Plugin} (present : w.instances.lookup n = some p) (ended : ¬p.receives)
    (unheld : ∀ t task, w.tasks.lookup t = some task → task.phase.plugin ≠ some n) (absent : ∀ id, w.plugins.lookup id ≠ some n) :
    Kept { w with failed := n :: w.failed } := by
  refine ⟨kept.tasks,kept.shaped,kept.instances,kept.held,kept.apart,kept.stored,kept.receiving,kept.live,kept.shutting,kept.down,?_⟩
  intro m failed
  rcases List.mem_cons.mp failed with rfl | before
  · exact ⟨⟨p,present,ended⟩,unheld,absent⟩
  · exact kept.failed m before

-- A task comes to a call other than a stop.
theorem Kept.moves (kept : Kept w) {t : Nat} {task : Task} {phase : Phase} (held : w.tasks.lookup t = some task)
    (busy : ∀ rest, task.operation ≠ .shutdown rest) (works : phase ≠ .removing ∧ ∀ n, phase ≠ .stopping n)
    (holds : ∀ n, phase.plugin = some n → task.phase.plugin = some n)
    (quiet : ∀ n p, task.phase.plugin = some n → phase.plugin = some n ∨ (w.instances.lookup n = some p → ¬p.receives))
    (settled : task.settles → ({ task with phase := phase } : Task).settles ∨ ¬Live w task.id) : Kept (w.moves t task phase) := by
  refine kept.sets (kept.tasks t task held) ?_ ?_ ?_ ?_ ?_
  · intro after next
    cases next
    exact shaped_of busy works
  · intro after next n has
    cases next
    exact ⟨task,held,rfl,holds n has⟩
  · intro task' n held' has
    cases held.symm.trans held'
    by_cases keeps : phase.plugin = some n
    · exact .inl ⟨_,rfl,keeps⟩
    · refine .inr fun p present receives => ?_
      rcases quiet n p has with keeps' | ended
      · exact absurd keeps' keeps
      · exact absurd receives (ended present)
  · intro task' held' settles live
    cases held.symm.trans held'
    rcases settled settles with settles' | dead
    · exact .inr ⟨_,rfl,rfl,settles'⟩
    · exact absurd live dead
  · intro after rest next shutting
    cases next
    exact absurd shutting (busy rest)

theorem Kept.ends (kept : Kept w) {t : Nat} {task : Task} (held : w.tasks.lookup t = some task)
    (quiet : ∀ n p, task.phase.plugin = some n → w.instances.lookup n = some p → ¬p.receives)
    (settled : task.settles → ¬Live w task.id) : Kept (w.sets t none) := by
  refine kept.sets (kept.tasks t task held) ?_ ?_ ?_ ?_ ?_
  · intro after next
    cases next
  · intro after next
    cases next
  · intro task' n held' has
    cases held.symm.trans held'
    exact .inr fun p present receives => absurd receives (quiet n p has present)
  · intro task' held' settles live
    cases held.symm.trans held'
    exact absurd live (settled settles)
  · intro after rest next
    cases next

-- The attempt of a task goes wrong.
theorem Kept.refuses (kept : Kept w) {t : Nat} {task : Task} (held : w.tasks.lookup t = some task)
    (attempts : task.phase ≠ .removing ∧ ∀ n, task.phase ≠ .stopping n) (unsettled : ¬task.settles)
    (quiet : ∀ n p, task.phase.plugin = some n → w.instances.lookup n = some p → ¬p.receives) : Kept (w.refuses t task) := by
  have fails : Kept (w.moves t task .failing) :=
    kept.moves held ((kept.shaped t task held).busy attempts) (by simp) (by simp [Phase.plugin])
      (fun n p has => .inr (quiet n p has)) (fun settles => absurd settles unsettled)
  have ends : Kept (w.sets t none) := kept.ends held quiet fun settles => absurd settles unsettled
  -- The instance the task had in hand is in no other one's, and not in the map.
  have lost : ∀ {x : Option Task} {n : Nat}, Kept (w.sets t x) → (∀ after, x = some after → after.phase.plugin = none) →
      task.phase.plugin = some n → Kept { w.sets t x with failed := n :: w.failed } := by
    intro x n sets without has
    obtain ⟨p,present,_⟩ := kept.held t task n held has
    have after := sets_rest w t x
    have failed : (w.sets t x).failed = w.failed := by rw [after]
    rw [← failed]
    refine sets.failsWith (p := p) (by rw [after]; exact present) (quiet n p has present) ?_ ?_
    · intro u other inside has'
      rw [lookup_sets] at inside
      split at inside
      · rw [without other inside] at has'
        cases has'
      · rename_i different
        exact different (kept.apart u t other task n inside held has' has)
    · intro id inside
      rw [after] at inside
      exact (kept.stored id n inside).2.1 t task held has
  unfold World.refuses
  split
  · rename_i phase
    exact lost fails (fun after next => by cases next; rfl) (by rw [phase]; rfl)
  · rename_i phase
    exact lost fails (fun after next => by cases next; rfl) (by rw [phase]; rfl)
  · rename_i phase
    exact lost ends (fun after next => by cases next) (by rw [phase]; rfl)
  · exact fails
  · exact ends

-- The instance is put in the map, where nothing was.
theorem Kept.inserts (kept : Kept w) {t n : Nat} {task : Task} (held : w.tasks.lookup t = some task) (inserting : task.phase = .inserting n)
    (out : w.plugins.lookup task.id = none)
    (running : ∃ row, w.rows.lookup task.id = some row ∧ row.enabled = true ∧ row.status = some .running) (up : w.down = false)
    (alone : ∀ j other rest, w.tasks.lookup j = some other → other.operation ≠ .shutdown rest) :
    Kept (World.goesOn { w with plugins := w.plugins.insert task.id n, halted := w.halted.filter (· ≠ task.id) } t task.operation) := by
  have has : task.phase.plugin = some n := by rw [inserting]; rfl
  obtain ⟨p,made,owner⟩ := kept.held t task n held has
  let after : World := { w with plugins := w.plugins.insert task.id n, halted := w.halted.filter (· ≠ task.id) }
  have lookup := lookup_sets after t task.operation.next
  have within : ∀ id, (w.plugins.insert task.id n).lookup id = if id = task.id then some n else w.plugins.lookup id :=
    fun id => lookup_insert_eq _ _ _ _
  have older : ∀ u other m, (after.sets t task.operation.next).tasks.lookup u = some other → other.phase.plugin = some m →
      u ≠ t ∧ w.tasks.lookup u = some other := by
    intro u other m present has'
    rw [lookup] at present
    split at present
    · rw [(next_task present).1] at has'
      cases has'
    · rename_i different
      exact ⟨different,present⟩
  have goes : ∀ id, id ∉ w.halted.filter (· ≠ task.id) ↔ id = task.id ∨ id ∉ w.halted := by
    intro id
    by_cases same : id = task.id <;> simp [same]
  have stays : after.goesOn t task.operation = { after with tasks := (after.sets t task.operation.next).tasks } := by
    unfold World.goesOn
    rw [decide_eq_false (alone t task [] held),Bool.or_false,sets_rest]
  show Kept (after.goesOn t task.operation)
  rw [stays]
  refine ⟨?_,?_,kept.instances,?_,?_,?_,?_,?_,?_,?_,?_⟩
  · intro u other present
    rw [lookup] at present
    split at present
    · rename_i same
      rw [same]
      exact kept.tasks t task held
    · exact kept.tasks u other present
  · intro u other present
    rw [lookup] at present
    split at present
    · exact (next_task present).2.2.1
    · exact kept.shaped u other present
  · intro u other m present has'
    exact kept.held u other m (older u other m present has').2 has'
  · intro u v one two m first second has' has''
    exact kept.apart u v one two m (older u one m first has').2 (older v two m second has'').2 has' has''
  · intro id m present
    rw [within] at present
    split at present
    · rename_i same
      cases present
      refine ⟨⟨p,made,owner.trans same.symm⟩,fun u other there has' => ?_,same ▸ running,(goes id).mpr (.inl same)⟩
      obtain ⟨different,before⟩ := older u other n there has'
      exact different (kept.apart u t other task n before held has' has)
    · obtain ⟨known,unheld,live⟩ := kept.stored id m present
      exact ⟨known,fun u other there has' => unheld u other (older u other m there has').2 has',live.1,(goes id).mpr (.inr live.2)⟩
  · intro m q present receives
    rcases kept.receiving m q present receives with there | ⟨u,other,there,has'⟩
    · refine .inl ?_
      rw [within,if_neg fun same => ?_]
      · exact there
      · rw [same,out] at there
        cases there
    · by_cases number : u = t
      · rw [number] at there
        cases held.symm.trans there
        cases has.symm.trans has'
        cases made.symm.trans present
        exact .inl (by rw [within,if_pos owner])
      · exact .inr ⟨u,other,by rw [lookup,if_neg number]; exact there,has'⟩
  · intro id live
    by_cases same : id = task.id
    · exact .inl (by rw [within,if_pos same]; exact Option.some_ne_none n)
    · have before : Live w id := ⟨live.1,((goes id).mp live.2).resolve_left same⟩
      rcases kept.live id before with there | ⟨u,other,there,equal,settles⟩
      · exact .inl (by rw [within,if_neg same]; exact there)
      · refine .inr ⟨u,other,?_,equal,settles⟩
        rw [lookup,if_neg fun number => ?_]
        · exact there
        · rw [number,held] at there
          cases there
          exact same equal.symm
  · intro u other rest present shutting
    rw [lookup] at present
    split at present
    · rcases (next_task present).2.2.2 with ⟨_,_,shuts,_⟩ | ⟨⟨_,restores⟩,_⟩
      · exact absurd shuts (alone t task _ held)
      · cases restores.symm.trans shutting
    · exact absurd shutting (alone u other rest present)
  · intro down
    rw [show after.down = w.down from rfl,up] at down
    cases down
  · intro m failed
    obtain ⟨ended,unheld,absent⟩ := kept.failed m failed
    refine ⟨ended,fun u other there has' => unheld u other (older u other m there has').2 has',fun id present => ?_⟩
    rw [within] at present
    split at present
    · cases present
      exact unheld t task held has
    · exact absent id present

end Parts

section Steps
variable {w w' : World} {t : Nat} {task : Task}

-- A stop is over, or there was nothing to stop.
theorem Kept.afterStop (kept : Kept w) (held : w.tasks.lookup t = some task)
    (out : task.phase = .removing ∧ w.plugins.lookup task.id = none ∨
      ∃ n, task.phase = .stopping n ∧ ∀ p, w.instances.lookup n = some p → ¬p.receives) : Kept (w.afterStop t task) := by
  have quiet : ∀ n p, task.phase.plugin = some n → w.instances.lookup n = some p → ¬p.receives := by
    intro n p has present
    rcases out with ⟨removing,_⟩ | ⟨m,stopping,ended⟩
    · rw [removing] at has
      cases has
    · rw [stopping] at has
      cases has
      exact ended p present
  have shaped := kept.shaped t task held
  have turns : ∀ phase, phase = Phase.persisting ∨ phase = Phase.disabling → (∀ rest, task.operation ≠ .shutdown rest) →
      Kept (w.moves t task phase) := by
    intro phase kind busy
    refine kept.moves held busy ?_ ?_ (fun n p has => .inr (quiet n p has)) fun settles => ?_
    · rcases kind with rfl | rfl <;> simp
    · rcases kind with rfl | rfl <;> simp [Phase.plugin]
    · left
      unfold Task.settles at settles ⊢
      rcases kind with rfl | rfl <;> cases operation : task.operation <;> simp_all
  unfold World.afterStop
  split
  · rename_i operation
    exact turns _ (.inl rfl) (by simp [operation])
  · rename_i operation
    exact turns _ (.inl rfl) (by simp [operation])
  · rename_i operation
    exact turns _ (.inr rfl) (by simp [operation])
  all_goals
    rename_i operation
    refine kept.goesOn held (fun removing => ?_) quiet fun settles => ?_
    · rcases out with ⟨_,out⟩ | ⟨n,stopping,_⟩
      · exact out
      · cases removing.symm.trans stopping
    · exfalso
      unfold Task.settles at settles
      unfold Task.shaped at shaped
      rcases out with ⟨removing,_⟩ | ⟨n,stopping,_⟩ <;> simp_all

theorem not_live_off {id : String} {row : ChannelPluginRow} (off : ¬(row.enabled = true ∧ row.status = some .running)) :
    ¬Live (w.putRow id row) id := by
  intro live
  rcases live_putRow live with ⟨_,on,_⟩ | ⟨different,_⟩
  · exact off on
  · exact different rfl

theorem Kept.proceeds (kept : Kept w) (held : w.tasks.lookup t = some task) (within : Within w (.proceed t))
    (goes : task.proceeds w t = some w') : Kept w' := by
  have within := within task held
  have busy := (kept.shaped t task held).busy
  unfold Task.proceeds at goes
  cases phase : task.phase with
  | removing =>
    simp only [phase] at goes
    split at goes
    · rename_i n inside
      cases goes
      refine kept.removes held phase inside ?_
      split
      · exact .inr rfl
      · rename_i working
        exact .inl ⟨rfl,working⟩
    · rename_i out
      cases goes
      exact kept.afterStop held (.inl ⟨phase,out⟩)
  | stopping n =>
    simp only [phase] at goes
    cases goes
    have stopped : Kept (w.change n ({ · with stopped := true })) := kept.change held (by rw [phase]; rfl) fun _ => rfl
    refine stopped.afterStop (by rw [change_tasks]; exact held) (.inr ⟨n,phase,fun p present receives => ?_⟩)
    rcases lookup_change present with ⟨_,before,_,rfl⟩ | ⟨different,_⟩
    · cases receives.2
    · exact different rfl
  | persisting =>
    simp only [phase] at goes within
    split at goes
    · cases goes
      have off : Kept (w.putRow task.id ⟨task.id,true,some .created⟩) := kept.offRow within (by simp)
      exact off.moves held (by simp_all) (by simp) (by simp [Phase.plugin]) (by simp [phase,Phase.plugin])
        fun _ => .inr (not_live_off (by simp))
    · cases goes
      have off : Kept (w.putRow task.id ⟨task.id,true,some .stopped⟩) := kept.offRow within (by simp)
      exact off.ends held (by simp [phase,Phase.plugin]) fun _ => not_live_off (by simp)
    · cases goes
  | disabling =>
    simp only [phase] at goes within
    split at goes
    · cases goes
      rename_i row present
      have off : Kept (w.putRow task.id { row with enabled := false, status := some .stopped }) := kept.offRow within (by simp)
      exact off.ends held (by simp [phase,Phase.plugin]) fun _ => not_live_off (by simp)
    · cases goes
      rename_i missing
      refine kept.ends held (by simp [phase,Phase.plugin]) fun _ live => ?_
      obtain ⟨⟨row,present,_⟩,_⟩ := live
      cases missing.symm.trans present
  | creating =>
    simp only [phase] at goes
    cases goes
    exact kept.creates held phase
  | marking n =>
    simp only [phase] at goes within
    split at goes
    · cases goes
      rename_i row present
      have working := busy (by simp [phase])
      have inserting : Kept (w.moves t task (.inserting n)) :=
        kept.moves held working (by simp) (by simp [phase,Phase.plugin]) (fun m p has => .inl (by rw [phase] at has; exact has))
          (by cases operation : task.operation <;> simp [Task.settles,operation,phase])
      refine inserting.putRow (fun inside => ?_) fun _ _ _ => .inr ⟨t,_,(lookup_sets _ _ _ _).trans (if_pos rfl),rfl,?_⟩
      · obtain ⟨m,there⟩ := Option.ne_none_iff_exists'.mp inside
        obtain ⟨_,_,⟨row',present',on⟩,_⟩ := inserting.stored task.id m there
        cases present.symm.trans present'
        exact ⟨on.1,rfl⟩
      · unfold Task.settles
        cases operation : task.operation with
        | shutdown rest => exact absurd operation (working rest)
        | enablePlugin | enableExtensionPlugin | disablePlugin | restorePlugins _ => trivial
    · cases goes
      rename_i missing
      refine kept.refuses held (by simp [phase]) (by cases operation : task.operation <;> simp [Task.settles,operation,phase]) ?_
      intro m p has present receives
      rw [phase] at has
      cases has
      exact absurd (receives.1.symm.trans (within missing p present)) (by decide)
  | inserting n =>
    simp only [phase] at goes within
    cases goes
    obtain ⟨out,running,up,alone⟩ := within
    exact kept.inserts held phase out running up alone
  | failing =>
    simp only [phase] at goes within
    cases goes
    unfold World.updatePluginError
    split
    · rename_i row present
      have off : Kept (w.putRow task.id { row with status := some .error }) := kept.offRow within (by simp)
      exact off.goesOn held (by simp [phase]) (by simp [phase,Phase.plugin])
        (by cases operation : task.operation <;> simp [Task.settles,operation,phase])
    · exact kept.goesOn held (by simp [phase]) (by simp [phase,Phase.plugin])
        (by cases operation : task.operation <;> simp [Task.settles,operation,phase])
  | initializing n | starting n =>
    simp only [phase] at goes
    cases goes

theorem Kept.fails (kept : Kept w) (held : w.tasks.lookup t = some task) (within : Within w (.fail t))
    (goes : task.fails w t = some w') : Kept w' := by
  have within := within task held
  unfold Task.fails at goes
  cases phase : task.phase with
  | persisting | disabling =>
    simp only [phase] at goes within
    cases goes
    exact kept.ends held (by simp [phase,Phase.plugin]) fun _ => within
  | creating =>
    simp only [phase] at goes
    cases goes
    exact kept.refuses held (by simp [phase]) (by cases operation : task.operation <;> simp [Task.settles,operation,phase])
      (by simp [phase,Phase.plugin])
  | marking n =>
    simp only [phase] at goes within
    cases goes
    refine kept.refuses held (by simp [phase]) (by cases operation : task.operation <;> simp [Task.settles,operation,phase]) ?_
    intro m p has present receives
    rw [phase] at has
    cases has
    exact absurd (receives.1.symm.trans (within p present)) (by decide)
  | failing =>
    simp only [phase] at goes
    cases goes
    exact kept.goesOn held (by simp [phase]) (by simp [phase,Phase.plugin])
      (by cases operation : task.operation <;> simp [Task.settles,operation,phase])
  | removing | stopping _ | initializing _ | starting _ | inserting _ =>
    simp only [phase] at goes
    cases goes

theorem Kept.runsPlugin (kept : Kept w) (held : w.tasks.lookup t = some task) {spawned ok : Bool} (within : Within w (.plugin t spawned ok))
    (goes : task.runsPlugin w t spawned ok = some w') : Kept w' := by
  have within := within task held
  have busy := (kept.shaped t task held).busy
  -- Either call may spawn the loop, and goes on to `phase` when it does not fail.
  have runs : ∀ n phase, (task.phase = .initializing n ∨ task.phase = .starting n) → (phase = .starting n ∨ phase = .marking n) →
      (ok = true ∨ spawned = false ∧ NoLoop w n) →
      Kept (if ok then (w.change n fun p => { p with loop := p.loop || spawned }).moves t task phase
        else (w.change n fun p => { p with loop := p.loop || spawned }).refuses t task) := by
    intro n phase calls next fine
    have has : task.phase.plugin = some n := by rcases calls with equal | equal <;> rw [equal] <;> rfl
    have working : task.phase ≠ .removing ∧ ∀ m, task.phase ≠ .stopping m := by rcases calls with equal | equal <;> simp [equal]
    have unsettled : ¬task.settles := by
      rcases calls with equal | equal <;> cases operation : task.operation <;> simp [Task.settles,operation,equal]
    have changed : Kept (w.change n fun p => { p with loop := p.loop || spawned }) := kept.change held has fun _ => rfl
    have held' : (w.change n fun p => { p with loop := p.loop || spawned }).tasks.lookup t = some task := by
      rw [change_tasks]
      exact held
    split
    · refine changed.moves held' (busy working) ?_ ?_ (fun m p has' => .inl ?_) fun settles => absurd settles unsettled
      · rcases next with rfl | rfl <;> simp
      · intro m has'
        rcases next with rfl | rfl <;> cases has' <;> exact has
      · cases has.symm.trans has'
        rcases next with rfl | rfl <;> rfl
    · rename_i failed
      obtain ⟨quiet,before⟩ := fine.resolve_left failed
      refine changed.refuses held' working unsettled fun m p has' present receives => ?_
      cases has.symm.trans has'
      rcases lookup_change present with ⟨_,old,known,rfl⟩ | ⟨different,_⟩
      · have loop : (old.loop || spawned) = true := receives.1
        rw [before old known,quiet] at loop
        cases loop
      · exact different rfl
  unfold Task.runsPlugin at goes
  cases phase : task.phase with
  | initializing n =>
    simp only [phase,Option.some.injEq] at goes within
    exact goes ▸ runs n (.starting n) (.inl phase) (.inl rfl) within
  | starting n =>
    simp only [phase,Option.some.injEq] at goes within
    exact goes ▸ runs n (.marking n) (.inr phase) (.inr rfl) within
  | removing | stopping _ | persisting | disabling | creating | marking _ | inserting _ | failing =>
    simp only [phase] at goes
    cases goes

theorem Kept.begins (kept : Kept w) {operation : Operation} (working : ∀ rest, operation ≠ .shutdown rest) {id : String} {phase : Phase}
    (shaped : (Task.mk id operation phase).shaped) (empty : phase.plugin = none) : Kept (w.spawns (some ⟨id,operation,phase⟩)) := by
  refine kept.spawns (fun after next => ?_) fun after rest next shutting => ?_
  · cases next
    exact ⟨shaped,empty⟩
  · cases next
    exact absurd shutting (working rest)

theorem Kept.keeps {event : Event} (kept : Kept w) (within : Within w event) (stepped : step w event = some w') : Kept w' := by
  cases event with
  | enablePlugin id =>
    cases stepped
    split
    · have begins : Kept (w.spawns (some ⟨id,.enablePlugin,.removing⟩)) := kept.begins (by simp) trivial rfl
      exact begins.withDown (by simp)
    · exact kept
  | enableExtensionPlugin id | disablePlugin id =>
    cases stepped
    exact kept.begins (by simp) trivial rfl
  | shutdown =>
    cases stepped
    have listed : ∀ id, w.plugins.lookup id ≠ none → id ∈ w.plugins.keys := by
      intro id inside
      exact AList.mem_keys.mp (AList.lookup_isSome.mp (Option.isSome_iff_ne_none.mpr inside))
    have plugins : ∀ x, (w.spawns x).plugins = w.plugins := fun x => by cases x <;> rfl
    have begins : Kept (w.spawns (Operation.next (.shutdown w.plugins.keys))) := by
      refine kept.spawns (fun after next => ⟨(next_task next).2.2.1,(next_task next).1⟩) fun after rest next shutting id inside => ?_
      rcases (next_task next).2.2.2 with ⟨others,same,shuts,removing⟩ | ⟨⟨_,restores⟩,_⟩
      · cases shutting.symm.trans same
        have keys : w.plugins.keys = after.id :: rest := by injection shuts
        rcases List.mem_cons.mp (keys ▸ listed id inside) with equal | later
        · exact .inr ⟨equal,removing⟩
        · exact .inl later
      · cases restores.symm.trans shutting
    refine begins.withDown fun down id => ?_
    rw [plugins]
    rcases Bool.or_eq_true_iff.mp down with before | empty
    · exact kept.down before id
    · by_contra inside
      have there := listed id inside
      rw [List.isEmpty_iff.mp empty] at there
      cases there
  | restorePlugins =>
    cases stepped
    refine Kept.withDown (kept.spawns (fun after next => ⟨(next_task next).2.2.1,(next_task next).1⟩) ?_) (by simp)
    intro after rest next shutting
    rcases (next_task next).2.2.2 with ⟨_,_,shuts,_⟩ | ⟨⟨_,restores⟩,_⟩
    · cases shuts
    · cases restores.symm.trans shutting
  | proceed t =>
    obtain ⟨task,held,goes⟩ := Option.bind_eq_some_iff.mp stepped
    exact kept.proceeds held within goes
  | fail t =>
    obtain ⟨task,held,goes⟩ := Option.bind_eq_some_iff.mp stepped
    exact kept.fails held within goes
  | plugin t spawned ok =>
    obtain ⟨task,held,goes⟩ := Option.bind_eq_some_iff.mp stepped
    exact kept.runsPlugin held within goes

theorem kept_start (rows : KeyedMap String ChannelPluginRow) : Kept (start rows) := by
  refine ⟨?_,?_,?_,?_,?_,?_,?_,?_,?_,?_,?_⟩
  · intro t task held
    cases held
  · intro t task held
    cases held
  · intro n p present
    cases present
  · intro t task n held
    cases held
  · intro t u task other n held
    cases held
  · intro id n present
    cases present
  · intro n p present
    cases present
  · intro id ⟨⟨row,present,_⟩,goes⟩
    exact absurd (AList.mem_keys.mp (AList.lookup_isSome.mp (Option.isSome_iff_exists.mpr ⟨row,present⟩))) goes
  · intro t task rest held
    cases held
  · exact fun _ _ => rfl
  · intro n failed
    cases failed

end Steps

end AlineaCopilot.ChannelPlugins
