import Mathlib.Logic.Function.Basic
import AlineaCopilot.TeamRunBroadcasts
open AlineaCopilot.KeyedMaps AlineaCopilot.TransitionRuns AlineaCopilot.TeamRun

namespace AlineaCopilot.TeamRunStream

-- Tasks call one manager, each one call at a time. The critical section of a
-- call is one step; the broadcasts the call makes after the lock wait with its
-- task, which makes them one by one before it calls again. `begun` lists the
-- runs the lock has guarded.
structure System where
  history : History
  begun : List String
  outbox : Nat → List TeamEvent
  stream : List TeamEvent

inductive Action where
  | enter (task : Nat) (operation : Operation)
  | deliver (task : Nat)

def System.start : System := ⟨.start,[],fun _ => [],[]⟩

def System.enter (system : System) (task : Nat) (history : History) (critical : Critical Unit) : System :=
  ⟨history,(currentRunId critical.held).toList ++ system.begun,Function.update system.outbox task critical.deferred,
    system.stream ++ critical.locked⟩

def System.deliver (system : System) (task : Nat) (event : TeamEvent) (rest : List TeamEvent) : System :=
  { system with outbox := Function.update system.outbox task rest, stream := system.stream ++ [event] }

def step (teamId : String) (system : System) : Action → Option System
  | .enter task operation =>
    if system.outbox task = [] then
      (record teamId system.history operation).map fun history =>
        system.enter task history (perform teamId system.history.held operation)
    else none
  | .deliver task =>
    match system.outbox task with
    | [] => none
    | event :: rest => some (system.deliver task event rest)

-- The stream of every run opens with ACCEPTED and stops at its terminal event,
-- of which there is one once the run is over and no task has a broadcast about
-- it left. No turn ends twice.
structure WellTold (system : System) : Prop where
  opens : ∀ runId name rest, runNames runId system.stream = name :: rest → name = .accepted
  closes : ∀ runId before name after, runNames runId system.stream = before ++ name :: after → name.terminal = true →
    after = []
  ends : ∀ runId ∈ system.begun, currentRunId system.history.held ≠ some runId →
    (∀ task, runNames runId (system.outbox task) = []) →
      (runNames runId system.stream).countP TeamRunEventName.terminal = 1
  turns : (closedTurns system.stream).Nodup

-- The calls that broadcast about a run with which nothing was done yet.
def speaksOfNew : Operation → Bool
  | .recordPendingWake .. | .recordEmptyWakeObserved _ | .maybeComplete | .beginCancel _ | .completeFailed => true
  | _ => false

-- A call is made in time: nothing is said about a run before the task that
-- accepted it has said so, no run ends while a task has a broadcast about it
-- left, and a child is reported cancelled while its turn stands in its slot.
structure InTime (system : System) (run : TeamRunRecord) (operation : Operation) : Prop where
  announced : (∃ task, .accepted ∈ runNames run.teamRunId (system.outbox task)) → speaksOfNew operation = false
  settled : Ends run operation → ∀ task, runNames run.teamRunId (system.outbox task) = []
  own : ∀ child, operation = .recordChildCancelled child → InItsSlot run child

def Timely (system : System) : Action → Prop
  | .enter _ operation => ∀ run, system.history.held = some run → InTime system run operation
  | .deliver _ => True

-- Nothing was done with the run since its message was accepted.
structure Untouched (run : TeamRunRecord) : Prop where
  active : run.isActive = true
  idle : run.outstanding = false

-- Where the telling of one run stands: what went out and what waits with the tasks.
inductive Stage (runId : String) (held : Option TeamRunRecord) (begun : List String) (told : List TeamRunEventName)
    (waiting : Nat → List TeamRunEventName) : Prop where
  | unborn (absent : currentRunId held ≠ some runId) (unknown : runId ∉ begun) (silent : told = [])
      (quiet : ∀ task, waiting task = [])
  | announcing (run : TeamRunRecord) (current : held = some run) (same : run.teamRunId = runId) (known : runId ∈ begun)
      (idle : Untouched run) (silent : told = []) (task : Nat) (queued : waiting task = [.accepted])
      (quiet : ∀ other, other ≠ task → waiting other = [])
  | underway (run : TeamRunRecord) (current : held = some run) (same : run.teamRunId = runId) (known : runId ∈ begun)
      (events : List TeamRunEventName) (spoken : told = .accepted :: events) (middle : ∀ name ∈ events, name.middle = true)
      (queued : ∀ task, ∀ name ∈ waiting task, name.middle = true)
  | ending (absent : currentRunId held ≠ some runId) (known : runId ∈ begun) (events : List TeamRunEventName)
      (spoken : told = .accepted :: events) (middle : ∀ name ∈ events, name.middle = true) (task : Nat)
      (last : TeamRunEventName) (final : last.terminal = true) (queued : waiting task = [last])
      (quiet : ∀ other, other ≠ task → waiting other = [])
  | closed (absent : currentRunId held ≠ some runId) (known : runId ∈ begun) (events : List TeamRunEventName)
      (last : TeamRunEventName) (spoken : told = .accepted :: (events ++ [last]))
      (middle : ∀ name ∈ events, name.middle = true) (final : last.terminal = true) (quiet : ∀ task, waiting task = [])

section Stages
variable {runId : String} {held : Option TeamRunRecord} {begun : List String} {told : List TeamRunEventName}
  {waiting : Nat → List TeamRunEventName}

theorem update_quiet (quiet : ∀ other, other ≠ task → waiting other = []) (other : Nat) :
    Function.update waiting task [] other = [] := by
  by_cases same : other = task
  · rw [same,Function.update_self]
  · rw [Function.update_of_ne same,quiet other same]

theorem update_mem (queued : ∀ task, ∀ name ∈ waiting task, name.middle = true)
    (fresh : ∀ name ∈ names, name.middle = true) (other : Nat) :
    ∀ name ∈ Function.update waiting task names other, name.middle = true := by
  by_cases same : other = task
  · rw [same,Function.update_self]
    exact fresh
  · rw [Function.update_of_ne same]
    exact queued other

-- The first broadcast that waits with a task goes out.
theorem Stage.deliver (stage : Stage runId held begun told waiting) (next : waiting task = name :: rest) :
    Stage runId held begun (told ++ [name]) (Function.update waiting task rest) := by
  cases stage with
  | unborn _ _ _ quiet =>
    rw [quiet task] at next
    cases next
  | announcing run current same known _ silent holder queued quiet =>
    by_cases own : task = holder
    · subst own
      rw [queued] at next
      cases next
      exact .underway run current same known [] (by rw [silent]; rfl) (by simp)
        fun other name inside => by rw [update_quiet quiet other] at inside; cases inside
    · rw [quiet task own] at next
      cases next
  | underway run current same known events spoken middle queued =>
    have parts := queued task
    rw [next] at parts
    refine .underway run current same known (events ++ [name]) (by rw [spoken]; rfl) ?_ ?_
    · intro other inside
      rcases List.mem_append.mp inside with old | new
      · exact middle other old
      · rw [List.mem_singleton.mp new]
        exact parts name List.mem_cons_self
    · exact update_mem queued fun other inside => parts other (List.mem_cons_of_mem _ inside)
  | ending absent known events spoken middle holder last final queued quiet =>
    by_cases own : task = holder
    · subst own
      rw [queued] at next
      cases next
      exact .closed absent known events name (by rw [spoken]; rfl) middle final (update_quiet quiet)
    · rw [quiet task own] at next
      cases next
  | closed _ _ _ _ _ _ _ quiet =>
    rw [quiet task] at next
    cases next

-- A run that is not the guarded one, before or after a call.
theorem Stage.aside {after : Option TeamRunRecord} (stage : Stage runId held begun told waiting)
    (before : currentRunId held ≠ some runId) (later : currentRunId after ≠ some runId) :
    Stage runId after ((currentRunId after).toList ++ begun) told waiting := by
  cases stage with
  | unborn _ unknown silent quiet =>
    refine .unborn later ?_ silent quiet
    intro inside
    rcases List.mem_append.mp inside with new | old
    · exact later (Option.mem_toList.mp new)
    · exact unknown old
  | announcing run current same => exact absurd (by rw [current,← same]; rfl) before
  | underway run current same => exact absurd (by rw [current,← same]; rfl) before
  | ending _ known events spoken middle task last final queued quiet =>
    exact .ending later (List.mem_append_right _ known) events spoken middle task last final queued quiet
  | closed _ known events last spoken middle final quiet =>
    exact .closed later (List.mem_append_right _ known) events last spoken middle final quiet

theorem Stage.born {run : TeamRunRecord} (stage : Stage runId none begun told waiting) (fresh : runId ∉ begun)
    (same : run.teamRunId = runId) (idle : Untouched run) :
    Stage runId (some run) ((currentRunId (some run)).toList ++ begun) told (Function.update waiting task [.accepted]) := by
  have known : runId ∈ (currentRunId (some run)).toList ++ begun :=
    List.mem_append_left _ (Option.mem_toList.mpr (congrArg some same))
  cases stage with
  | unborn _ _ silent quiet =>
    refine .announcing run rfl same known idle silent task (Function.update_self ..) fun other apart => ?_
    rw [Function.update_of_ne apart,quiet other]
  | announcing _ current => cases current
  | underway _ current => cases current
  | ending _ known => exact absurd known fresh
  | closed _ known => exact absurd known fresh

-- A call on a run that is under way, made in time.
theorem Stage.speaks {run : TeamRunRecord} {critical : Critical Unit} (known : run.teamRunId ∈ begun)
    (spoken : told = .accepted :: events) (middle : ∀ name ∈ events, name.middle = true)
    (queued : ∀ task, ∀ name ∈ waiting task, name.middle = true) (speaks : Speaks run critical)
    (settled : critical.held = none → ∀ task, waiting task = []) :
    Stage run.teamRunId critical.held ((currentRunId critical.held).toList ++ begun)
      (told ++ runNames run.teamRunId critical.locked)
      (Function.update waiting task (runNames run.teamRunId critical.deferred)) := by
  have kept := List.mem_append_right (currentRunId critical.held).toList known
  cases speaks with
  | goesOn next locked deferred held same names fresh =>
    rw [names.locked,names.deferred,if_pos rfl,if_pos rfl]
    refine .underway next held same kept (events ++ locked) (by rw [spoken]; rfl) ?_ ?_
    · intro name inside
      rcases List.mem_append.mp inside with old | new
      · exact middle name old
      · exact fresh name (List.mem_append_left _ new)
    · exact update_mem queued fun name inside => fresh name (List.mem_append_right _ inside)
  | ends locked deferred last held names final once =>
    have empty := settled held
    have absent : currentRunId critical.held ≠ some run.teamRunId := by rw [held]; rintro ⟨⟩
    rw [names.locked,names.deferred,if_pos rfl,if_pos rfl]
    rcases once with ⟨rfl,rfl⟩ | ⟨rfl,rfl⟩
    · exact .closed absent kept events last (by rw [spoken]; rfl) middle final (update_quiet fun other _ => empty other)
    · refine .ending absent kept events (by rw [spoken,List.append_nil]) middle task last final
        (Function.update_self ..) fun other apart => ?_
      rw [Function.update_of_ne apart,empty other]

end Stages

-- What a call can be: the acceptance of a message into a new run, nothing for
-- want of a run, or a call on the run the lock guards.
theorem perform_kinds (teamId : String) (valid : HeldWellFormed held) (operation : Operation) :
    (∃ freshId target role allow messageId run, operation = .acceptUserMessage freshId target role allow messageId ∧
      held = none ∧ run.teamRunId = freshId ∧ Untouched run ∧
      perform teamId held operation = ⟨(),some run,[],[.teamRun .accepted run.payload]⟩) ∨
    (held = none ∧ perform teamId held operation = .read none ()) ∨
    ∃ run, held = some run ∧ Speaks run (perform teamId held operation) := by
  cases held with
  | some run => exact .inr (.inr ⟨run,rfl,perform_speaks teamId (valid run rfl).live operation⟩)
  | none =>
    cases operation with
    | acceptUserMessage freshId target role allow messageId =>
      exact .inl ⟨freshId,target,role,allow,messageId,_,rfl,rfl,rfl,⟨rfl,rfl⟩,rfl⟩
    | _ => exact .inr (.inl ⟨rfl,rfl⟩)

-- Of an untouched run the other calls find nothing to work on.
theorem untouched_silent (teamId : String) (idle : Untouched run) (quiet : speaksOfNew operation = false)
    (own : ∀ child, operation = .recordChildCancelled child → InItsSlot run child) :
    perform teamId (some run) operation = .read (some run) () := by
  obtain ⟨active,empty⟩ := idle
  obtain ⟨wakes,reservations,children⟩ := outstanding_false.mp empty
  cases operation with
  | acceptUserMessage freshId target role allow messageId =>
    rcases acceptUserMessage_cases teamId freshId (some run) target role allow messageId with ⟨_,_,_,same⟩ | ⟨idle,_⟩
    · rw [perform,same]
      rfl
    · rw [(idle run rfl).1] at active
      cases active
  | claimWakeForTurn freshId slotId role conversationId =>
    rcases claimWakeForTurn_cases freshId (some run) slotId role conversationId with ⟨_,same⟩ | ⟨_,_,_,held,_,taken,_⟩
    · rw [perform,same]
      rfl
    · cases Option.some.inj held
      rw [popWake_none.mpr (wakes slotId)] at taken
      cases taken
  | recordChildStarted now id child =>
    rcases recordChildStarted_cases now (some run) id child with ⟨_,same⟩ | ⟨_,_,held,found,_⟩
    · rw [perform,same]
      rfl
    · cases Option.some.inj held
      rw [reservations id] at found
      cases found
  | recordChildStartFailed id =>
    rcases recordChildStartFailed_cases (some run) id with ⟨_,same⟩ | ⟨_,_,_,held,found,_⟩
    · rw [perform,same]
      rfl
    · cases Option.some.inj held
      rw [reservations id] at found
      cases found
  | recordChildCompleted slotId turnId status =>
    rcases recordChildCompleted_cases (some run) slotId turnId status with ⟨_,same⟩ | ⟨_,_,_,_,held,found,_⟩
    · rw [perform,same]
      rfl
    · cases Option.some.inj held
      rw [children slotId] at found
      cases found
  | tryCompleteCancelled =>
    have finish : maybeCancelledLocked run = ⟨none,run,[]⟩ := by
      rcases maybeCancelledLocked_cases run with ⟨_,shape⟩ | ⟨cancelling,_⟩ | ⟨cancelling,_⟩
      · exact shape
      all_goals exact absurd cancelling (active_not_cancelling active)
    rw [perform,tryCompleteCancelled,finish]
    rfl
  | beginCancelChild slotId =>
    rcases beginCancelChild_cases (some run) slotId with
      ⟨_,same⟩ | ⟨_,_,held,_,found,_⟩ | ⟨_,_,_,_,held,_,_,found,_⟩
    · rw [perform,same]
      rfl
    · cases Option.some.inj held
      rw [children slotId] at found
      cases found
    · cases Option.some.inj held
      rw [reservations _] at found
      cases found
  | recordChildCancelled child =>
    obtain ⟨_,found,_⟩ := own child rfl
    rw [children child.slotId] at found
    cases found
  | recordPendingWake | recordEmptyWakeObserved | maybeComplete | beginCancel | completeFailed => cases quiet

theorem record_some (made : record teamId history operation = some next) :
    history.Fresh operation ∧ next = { history.note operation with held := (perform teamId history.held operation).held } := by
  unfold record at made
  split at made
  · exact ⟨by assumption,(Option.some.inj made).symm⟩
  · cases made

theorem waiting_update (read : List TeamEvent → List β) (outbox : Nat → List TeamEvent) (task : Nat) (events : List TeamEvent) :
    (fun other => read (Function.update outbox task events other)) =
      Function.update (fun other => read (outbox other)) task (read events) := Function.comp_update read outbox task events

-- A task that speaks has no broadcast left over.
theorem waiting_still {waiting : Nat → List β} (free : waiting task = []) : Function.update waiting task [] = waiting := by
  rw [← free,Function.update_eq_self]

section Steps
variable {system : System} {operation : Operation} {history : History}

def Staged (system : System) : Prop :=
  ∀ runId, Stage runId system.history.held system.begun (runNames runId system.stream)
    fun task => runNames runId (system.outbox task)

theorem Staged.deliver (staged : Staged system) (next : system.outbox task = event :: rest) :
    Staged (system.deliver task event rest) := by
  intro runId
  have stage := staged runId
  unfold System.deliver
  rw [waiting_update,runNames_append]
  cases event with
  | childTurn name payload =>
    have still : runNames runId rest = runNames runId (system.outbox task) := by rw [next,runNames_child]
    rw [runNames_child,runNames_nil,List.append_nil,still]
    rw [Function.update_eq_self task fun other => runNames runId (system.outbox other)]
    exact stage
  | teamRun name payload =>
    by_cases own : runId = payload.teamRunId
    · rw [runNames_run,runNames_nil,if_pos own]
      exact stage.deliver (by simp only [next,runNames_run,if_pos own])
    · have still : runNames runId rest = runNames runId (system.outbox task) := by rw [next,runNames_run,if_neg own]
      rw [runNames_run,runNames_nil,if_neg own,List.append_nil,still]
      rw [Function.update_eq_self task fun other => runNames runId (system.outbox other)]
      exact stage

theorem Staged.enter (staged : Staged system) (valid : HeldWellFormed system.history.held)
    (known : system.begun ⊆ system.history.runs) (free : system.outbox task = [])
    (timely : Timely system (.enter task operation)) (made : record teamId system.history operation = some history) :
    Staged (system.enter task history (perform teamId system.history.held operation)) := by
  obtain ⟨fresh,rfl⟩ := record_some made
  intro runId
  have stage := staged runId
  have silent : (fun other => runNames runId (system.outbox other)) task = [] := by simp only [free,runNames_nil]
  simp only [System.enter]
  rw [waiting_update,runNames_append]
  rcases perform_kinds teamId valid operation with
    ⟨freshId,_,_,_,_,run,rfl,none,same,idle,shape⟩ | ⟨none,shape⟩ | ⟨run,current,speaks⟩
  · have unknown : freshId ∉ system.begun := fun inside => fresh (known inside)
    rw [shape,runNames_nil,List.append_nil,runNames_one runId .accepted run.payload rfl,payload_run,same]
    rw [none] at stage
    by_cases own : runId = freshId
    · rw [if_pos own]
      subst own
      exact stage.born unknown same idle
    · rw [if_neg own,waiting_still silent]
      refine stage.aside (by rintro ⟨⟩) ?_
      rintro equal
      exact own ((Option.some.inj equal).symm.trans same)
  · rw [shape]
    simp only [Critical.read,runNames_nil,List.append_nil]
    rw [waiting_still silent]
    rw [none] at stage
    exact stage.aside (by rintro ⟨⟩) (by rintro ⟨⟩)
  · have inTime := timely run current
    rw [current] at stage speaks ⊢
    by_cases own : run.teamRunId = runId
    · subst own
      cases stage with
      | unborn absent => exact absurd rfl absent
      | ending absent => exact absurd rfl absent
      | closed absent => exact absurd rfl absent
      | announcing found held _ inside idle empty holder queued quiet =>
        cases Option.some.inj held
        -- The acceptance is not out yet, so the call is one that says nothing.
        have pending : ∃ task, .accepted ∈ runNames run.teamRunId (system.outbox task) := ⟨holder,by rw [queued]; simp⟩
        rw [untouched_silent teamId idle (inTime.announced pending) inTime.own]
        simp only [Critical.read,runNames_nil,List.append_nil]
        rw [waiting_still silent]
        exact .announcing run rfl rfl (List.mem_append_right _ inside) idle empty holder queued quiet
      | underway found held _ inside events spoken middle queued =>
        refine Stage.speaks inside spoken middle queued speaks fun ended => ?_
        exact inTime.settled ((perform_ends teamId run operation).mp ended)
    · have before : currentRunId (some run) ≠ some runId := fun equal => own (Option.some.inj equal)
      have other : runId ≠ run.teamRunId := fun equal => own equal.symm
      cases speaks with
      | goesOn next locked deferred held same names =>
        rw [names.locked,names.deferred,if_neg other,if_neg other,List.append_nil,waiting_still silent]
        refine stage.aside before ?_
        rw [held]
        exact fun equal => own (same.symm.trans (Option.some.inj equal))
      | ends locked deferred last held names =>
        rw [names.locked,names.deferred,if_neg other,if_neg other,List.append_nil,waiting_still silent]
        refine stage.aside before ?_
        rw [held]
        rintro ⟨⟩

end Steps

def Standing (held : Option TeamRunRecord) (slotId : String) (child : ActiveChildTurn) : Prop :=
  ∃ run, held = some run ∧ run.activeChildTurns.lookup slotId = some child

-- No slot holds a turn that another one holds.
def Distinct (held : Option TeamRunRecord) : Prop :=
  ∀ one two child other, Standing held one child → Standing held two other → child.turnId = other.turnId → one = two

-- The end of a turn was told once, or waits with one task, or is yet to come.
structure TurnsOnce (held : Option TeamRunRecord) (turns : List (String × String)) (told : List String)
    (waiting : Nat → List String) : Prop where
  once : told.Nodup
  each : ∀ task, (waiting task).Nodup
  apart : ∀ task, ∀ turn ∈ waiting task, turn ∉ told
  separate : ∀ one two, one ≠ two → ∀ turn ∈ waiting one, turn ∉ waiting two
  known : ∀ turn, (turn ∈ told ∨ ∃ task, turn ∈ waiting task) → turn ∈ turns.map Prod.fst
  gone : ∀ turn, (turn ∈ told ∨ ∃ task, turn ∈ waiting task) → ∀ slotId child, Standing held slotId child →
    child.turnId ≠ turn

section Turns
variable {held after : Option TeamRunRecord} {turns later : List (String × String)} {told : List String}
  {waiting : Nat → List String}

theorem TurnsOnce.deliver (turnsOnce : TurnsOnce held turns told waiting) (next : waiting task = turn :: rest) :
    TurnsOnce held turns (told ++ [turn]) (Function.update waiting task rest) := by
  have first : turn ∈ waiting task := by rw [next]; exact List.mem_cons_self
  have alone := turnsOnce.each task
  rw [next] at alone
  have within : ∀ other name, name ∈ Function.update waiting task rest other → name ∈ waiting other ∧ name ≠ turn := by
    intro other name inside
    by_cases same : other = task
    · subst same
      rw [Function.update_self] at inside
      refine ⟨by rw [next]; exact List.mem_cons_of_mem _ inside,?_⟩
      rintro rfl
      exact (List.nodup_cons.mp alone).1 inside
    · rw [Function.update_of_ne same] at inside
      refine ⟨inside,?_⟩
      rintro rfl
      exact turnsOnce.separate other task same name inside first
  have past : ∀ name, (name ∈ told ++ [turn] ∨ ∃ other, name ∈ Function.update waiting task rest other) →
      name ∈ told ∨ ∃ other, name ∈ waiting other := by
    rintro name (inside | ⟨other,inside⟩)
    · rcases List.mem_append.mp inside with old | new
      · exact .inl old
      · rw [List.mem_singleton.mp new]
        exact .inr ⟨task,first⟩
    · exact .inr ⟨other,(within other name inside).1⟩
  refine ⟨?_,fun other => ?_,fun other name inside => ?_,fun one two differ name inside also => ?_,
    fun name closed => turnsOnce.known name (past name closed),fun name closed => turnsOnce.gone name (past name closed)⟩
  · rw [List.nodup_append]
    refine ⟨turnsOnce.once,List.nodup_singleton _,fun name old other new equal => ?_⟩
    rw [List.mem_singleton.mp new] at equal
    exact turnsOnce.apart task turn first (equal ▸ old)
  · by_cases same : other = task
    · rw [same,Function.update_self]
      exact (List.nodup_cons.mp alone).2
    · rw [Function.update_of_ne same]
      exact turnsOnce.each other
  · obtain ⟨old,differ⟩ := within other name inside
    intro told
    rcases List.mem_append.mp told with before | new
    · exact turnsOnce.apart other name old before
    · exact differ (List.mem_singleton.mp new)
  · exact turnsOnce.separate one two differ name (within one name inside).1 (within two name also).1

-- What a call may leave standing: what stood, and one turn that was not known.
structure Succeeds (held after : Option TeamRunRecord) (turns later : List (String × String))
    (entrant : Option ActiveChildTurn) : Prop where
  known : turns ⊆ later
  standing : ∀ slotId child, Standing after slotId child → Standing held slotId child ∨
    entrant = some child ∧ child.turnId ∉ turns.map Prod.fst ∧ slotId = child.slotId

theorem TurnsOnce.succeed (turnsOnce : TurnsOnce held turns told waiting) (succeeds : Succeeds held after turns later entrant) :
    TurnsOnce after later told waiting := by
  refine ⟨turnsOnce.once,turnsOnce.each,turnsOnce.apart,turnsOnce.separate,fun turn closed => ?_,
    fun turn closed slotId child stands => ?_⟩
  · exact List.map_subset _ succeeds.known (turnsOnce.known turn closed)
  · rcases succeeds.standing slotId child stands with before | ⟨_,fresh,_⟩
    · exact turnsOnce.gone turn closed slotId child before
    · rintro rfl
      exact fresh (turnsOnce.known child.turnId closed)

-- A turn that ends here: it was in no telling, is known and no longer stands.
structure Ending (held : Option TeamRunRecord) (turns : List (String × String)) (told : List String)
    (waiting : Nat → List String) (turn : String) : Prop where
  untold : ¬(turn ∈ told ∨ ∃ task, turn ∈ waiting task)
  known : turn ∈ turns.map Prod.fst
  gone : ∀ slotId child, Standing held slotId child → child.turnId ≠ turn

theorem TurnsOnce.tell (turnsOnce : TurnsOnce held turns told waiting) (ending : Ending held turns told waiting turn) :
    TurnsOnce held turns (told ++ [turn]) waiting := by
  have past : ∀ name, (name ∈ told ++ [turn] ∨ ∃ task, name ∈ waiting task) →
      name = turn ∨ (name ∈ told ∨ ∃ task, name ∈ waiting task) := by
    rintro name (inside | queued)
    · rcases List.mem_append.mp inside with old | new
      · exact .inr (.inl old)
      · exact .inl (List.mem_singleton.mp new)
    · exact .inr (.inr queued)
  refine ⟨?_,turnsOnce.each,fun task name inside => ?_,turnsOnce.separate,fun name closed => ?_,fun name closed => ?_⟩
  · rw [List.nodup_append]
    refine ⟨turnsOnce.once,List.nodup_singleton _,fun name old other new equal => ?_⟩
    rw [List.mem_singleton.mp new] at equal
    exact ending.untold (.inl (equal ▸ old))
  · intro told
    rcases List.mem_append.mp told with before | new
    · exact turnsOnce.apart task name inside before
    · rw [List.mem_singleton.mp new] at inside
      exact ending.untold (.inr ⟨task,inside⟩)
  · rcases past name closed with rfl | before
    · exact ending.known
    · exact turnsOnce.known name before
  · rcases past name closed with rfl | before
    · exact ending.gone
    · exact turnsOnce.gone name before

theorem TurnsOnce.wait (turnsOnce : TurnsOnce held turns told waiting) (ending : Ending held turns told waiting turn)
    (task : Nat) : TurnsOnce held turns told (Function.update waiting task [turn]) := by
  have within : ∀ other name, name ∈ Function.update waiting task [turn] other →
      (other = task ∧ name = turn) ∨ (other ≠ task ∧ name ∈ waiting other) := by
    intro other name inside
    by_cases same : other = task
    · rw [same,Function.update_self] at inside
      exact .inl ⟨same,List.mem_singleton.mp inside⟩
    · rw [Function.update_of_ne same] at inside
      exact .inr ⟨same,inside⟩
  have past : ∀ name, (name ∈ told ∨ ∃ other, name ∈ Function.update waiting task [turn] other) →
      name = turn ∨ (name ∈ told ∨ ∃ other, name ∈ waiting other) := by
    rintro name (old | ⟨other,inside⟩)
    · exact .inr (.inl old)
    · rcases within other name inside with ⟨_,same⟩ | ⟨_,old⟩
      · exact .inl same
      · exact .inr (.inr ⟨other,old⟩)
  refine ⟨turnsOnce.once,fun other => ?_,fun other name inside => ?_,fun one two differ name inside also => ?_,
    fun name closed => ?_,fun name closed => ?_⟩
  · by_cases same : other = task
    · rw [same,Function.update_self]
      exact List.nodup_singleton _
    · rw [Function.update_of_ne same]
      exact turnsOnce.each other
  · rcases within other name inside with ⟨_,rfl⟩ | ⟨_,old⟩
    · exact fun told => ending.untold (.inl told)
    · exact turnsOnce.apart other name old
  · rcases within one name inside with ⟨here,new⟩ | ⟨_,old⟩ <;> rcases within two name also with ⟨there,new'⟩ | ⟨_,old'⟩
    · exact differ (here.trans there.symm)
    · exact ending.untold (.inr ⟨two,new ▸ old'⟩)
    · exact ending.untold (.inr ⟨one,new' ▸ old⟩)
    · exact turnsOnce.separate one two differ name old old'
  · rcases past name closed with rfl | before
    · exact ending.known
    · exact turnsOnce.known name before
  · rcases past name closed with rfl | before
    · exact ending.gone
    · exact turnsOnce.gone name before

end Turns

section Sound
variable {system next : System} {history : History} {operation : Operation}

-- The turn a call may put into its slot.
def entrant : Operation → Option ActiveChildTurn
  | .recordChildStarted _ _ child => some child
  | _ => none

theorem succeeds_record (recorded : Recorded history) (made : record teamId history operation = some after) :
    Succeeds history.held after.held history.turns after.turns (entrant operation) := by
  obtain ⟨fresh,rfl⟩ := record_some made
  refine ⟨note_turns history operation,?_⟩
  rintro slotId child ⟨run,current,found⟩
  rcases perform_origin teamId recorded.wellFormed operation current with ⟨_,_,_,_,_,born,_⟩ | ⟨old,held,goes⟩
  · rw [born] at found
    simp at found
  · rcases goes.children slotId child found with before | ⟨now,id,rfl⟩
    · exact .inl ⟨old,held,before⟩
    · have valid := perform_wellFormed teamId (.recordChildStarted now id child) recorded.wellFormed run current
      exact .inr ⟨rfl,fresh,(valid.children slotId child found).1.symm⟩

theorem standing_known (recorded : Recorded history) (stands : Standing history.held slotId child) :
    child.turnId ∈ history.turns.map Prod.fst := by
  obtain ⟨run,held,found⟩ := stands
  exact List.mem_map_of_mem (recorded.started run held slotId child found)

theorem distinct_record (recorded : Recorded history) (distinct : Distinct history.held)
    (made : record teamId history operation = some after) : Distinct after.held := by
  have succeeds := succeeds_record recorded made
  intro one two child other first second equal
  rcases succeeds.standing one child first with old | ⟨entered,new,slot⟩ <;>
    rcases succeeds.standing two other second with old' | ⟨entered',new',slot'⟩
  · exact distinct one two child other old old' equal
  · exact absurd (equal ▸ standing_known recorded old) new'
  · exact absurd (equal ▸ standing_known recorded old') new
  · cases Option.some.inj (entered.symm.trans entered')
    rw [slot,slot']

def ToldOnce (system : System) : Prop :=
  TurnsOnce system.history.held system.history.turns (closedTurns system.stream)
    fun task => closedTurns (system.outbox task)

theorem ToldOnce.deliver (once : ToldOnce system) (next : system.outbox task = event :: rest) :
    ToldOnce (system.deliver task event rest) := by
  have still (same : closedTurns rest = closedTurns (system.outbox task)) (silent : closedTurns [event] = []) :
      ToldOnce (system.deliver task event rest) := by
    unfold ToldOnce System.deliver
    rw [waiting_update,closedTurns_append,silent,List.append_nil,same]
    rw [Function.update_eq_self task fun other => closedTurns (system.outbox other)]
    exact once
  have closing (turn : String) (first : closedTurns (system.outbox task) = turn :: closedTurns rest)
      (said : closedTurns [event] = [turn]) : ToldOnce (system.deliver task event rest) := by
    unfold ToldOnce System.deliver
    rw [waiting_update,closedTurns_append,said]
    exact TurnsOnce.deliver once first
  cases event with
  | teamRun name payload => exact still (by rw [next,closedTurns_run]) rfl
  | childTurn name payload =>
    cases name with
    | started => exact still (by rw [next,closedTurns_started]) rfl
    | completed => exact closing payload.turnId (by rw [next,closedTurns_completed]) rfl
    | cancelled => exact closing payload.turnId (by rw [next,closedTurns_cancelled]) rfl

theorem ToldOnce.enter (once : ToldOnce system) (recorded : Recorded system.history) (distinct : Distinct system.history.held)
    (free : system.outbox task = []) (timely : Timely system (.enter task operation))
    (made : record teamId system.history operation = some history) :
    ToldOnce (system.enter task history (perform teamId system.history.held operation)) := by
  have succeeds := succeeds_record recorded made
  have later : history.held = (perform teamId system.history.held operation).held := by rw [(record_some made).2]
  have silent : (fun other => closedTurns (system.outbox other)) task = [] := by simp only [free,closedTurns_nil]
  have kept : TurnsOnce history.held history.turns (closedTurns system.stream) fun task => closedTurns (system.outbox task) :=
    once.succeed succeeds
  unfold ToldOnce System.enter
  simp only []
  rw [waiting_update,closedTurns_append]
  have closes : (closedTurns (perform teamId system.history.held operation).locked ++
        closedTurns (perform teamId system.history.held operation).deferred = []) ∨
      ∃ run, system.history.held = some run ∧ Closes run (perform teamId system.history.held operation) := by
    rcases perform_kinds teamId recorded.wellFormed operation with
      ⟨_,_,_,_,_,_,_,_,_,_,shape⟩ | ⟨_,shape⟩ | ⟨run,current,_⟩
    · exact .inl (by rw [shape]; rfl)
    · exact .inl (by rw [shape]; rfl)
    · refine .inr ⟨run,current,?_⟩
      rw [current]
      exact perform_closes teamId run operation (timely run current).own
  have nothing (told : closedTurns (perform teamId system.history.held operation).locked ++
      closedTurns (perform teamId system.history.held operation).deferred = []) :
      TurnsOnce history.held history.turns
        (closedTurns system.stream ++ closedTurns (perform teamId system.history.held operation).locked)
        (Function.update (fun task => closedTurns (system.outbox task)) task
          (closedTurns (perform teamId system.history.held operation).deferred)) := by
    obtain ⟨locked,deferred⟩ := List.append_eq_nil_iff.mp told
    rw [locked,deferred,List.append_nil,waiting_still silent]
    exact kept
  rcases closes with told | ⟨run,current,told | ⟨slotId,child,found,told,taken⟩⟩
  · exact nothing told
  · exact nothing told
  · -- The turn stood in its slot before the call, so its end was not told; it does not stand there after it.
    have stood : Standing system.history.held slotId child := ⟨run,current,found⟩
    have ending : Ending history.held history.turns (closedTurns system.stream)
        (fun task => closedTurns (system.outbox task)) child.turnId := by
      refine ⟨fun closed => once.gone child.turnId closed slotId child stood rfl,?_,?_⟩
      · exact List.map_subset _ succeeds.known (standing_known recorded stood)
      · intro other standing stands equal
        rcases succeeds.standing other standing stands with before | ⟨_,fresh,_⟩
        · cases distinct other slotId standing child before stood equal
          obtain ⟨next,current,left⟩ := stands
          rw [taken next (later.symm.trans current),lookup_erase_eq,if_pos rfl] at left
          cases left
        · exact fresh (equal ▸ standing_known recorded stood)
    rcases List.append_eq_singleton_iff.mp told with ⟨locked,deferred⟩ | ⟨locked,deferred⟩
    · rw [locked,deferred,List.append_nil]
      exact kept.wait ending task
    · rw [locked,deferred,waiting_still silent]
      exact kept.tell ending

structure Sound (system : System) : Prop where
  recorded : Recorded system.history
  known : system.begun ⊆ system.history.runs
  distinct : Distinct system.history.held
  staged : Staged system
  once : ToldOnce system

theorem start_sound : Sound .start := by
  refine ⟨start_recorded,List.nil_subset _,?_,fun runId => ?_,?_⟩
  · rintro _ _ _ _ ⟨_,⟨⟩,_⟩
  · exact .unborn (by rintro ⟨⟩) (by simp [System.start]) rfl fun _ => rfl
  · refine ⟨List.nodup_nil,fun _ => List.nodup_nil,?_,?_,?_,?_⟩ <;> simp [System.start]

theorem Sound.step (sound : Sound system) (timely : Timely system action)
    (taken : step teamId system action = some next) : Sound next := by
  cases action with
  | enter task operation =>
    simp only [TeamRunStream.step] at taken
    split at taken
    · rename_i free
      obtain ⟨history,made,rfl⟩ := Option.map_eq_some_iff.mp taken
      have later : history.held = (perform teamId system.history.held operation).held := by rw [(record_some made).2]
      have recorded := sound.recorded.step made
      refine ⟨recorded,?_,distinct_record sound.recorded sound.distinct made,?_,?_⟩
      · intro runId inside
        rcases List.mem_append.mp inside with current | before
        · obtain ⟨run,held,rfl⟩ := Option.map_eq_some_iff.mp (Option.mem_toList.mp current)
          exact recorded.current run (later.trans held)
        · rw [(record_some made).2]
          exact note_runs system.history operation (sound.known before)
      · have staged := sound.staged.enter sound.recorded.wellFormed sound.known free timely made
        exact staged
      · exact sound.once.enter sound.recorded sound.distinct free timely made
    · cases taken
  | deliver task =>
    simp only [TeamRunStream.step] at taken
    split at taken
    · cases taken
    · rename_i event rest next
      cases Option.some.inj taken
      exact ⟨sound.recorded,sound.known,sound.distinct,sound.staged.deliver next,sound.once.deliver next⟩

theorem middle_not_terminal (middle : TeamRunEventName.middle name = true) : ¬name.terminal = true := by
  cases name <;> simp_all [TeamRunEventName.middle,TeamRunEventName.terminal]

-- In a list whose last entry alone is marked, nothing follows a marked one.
theorem nothing_follows {marked : β → Bool} (earlier : ∀ item ∈ front, ¬marked item = true)
    (whole : front ++ [last] = before ++ item :: after) (here : marked item = true) : after = [] := by
  rcases List.eq_nil_or_concat after with rfl | ⟨init,final,rfl⟩
  · rfl
  · have same : front ++ [last] = (before ++ item :: init) ++ [final] := by rw [whole]; simp
    have front := (List.append_inj' same rfl).1
    exact absurd here (earlier item (by rw [front]; simp))

theorem Sound.wellTold (sound : Sound system) : WellTold system := by
  have spoken : ∀ events : List TeamRunEventName, (∀ name ∈ events, name.middle = true) →
      ∀ name ∈ TeamRunEventName.accepted :: events, ¬name.terminal = true := by
    intro events middle name inside
    rcases List.mem_cons.mp inside with rfl | later
    · simp [TeamRunEventName.terminal]
    · exact middle_not_terminal (middle name later)
  have unended : ∀ {runId before name after} {events : List TeamRunEventName}, (∀ name ∈ events, name.middle = true) →
      runNames runId system.stream = .accepted :: events → runNames runId system.stream = before ++ name :: after →
      ¬name.terminal = true := by
    intro runId before name after events middle told parts
    exact spoken events middle name (by rw [← told,parts]; simp)
  refine ⟨fun runId name rest told => ?_,fun runId before name after told final => ?_,
    fun runId begun absent settled => ?_,sound.once.once⟩
  · cases sound.staged runId with
    | unborn _ _ silent => rw [silent] at told; cases told
    | announcing _ _ _ _ _ silent => rw [silent] at told; cases told
    | underway _ _ _ _ _ spoken => rw [spoken] at told; exact (List.cons.inj told).1.symm
    | ending _ _ _ spoken => rw [spoken] at told; exact (List.cons.inj told).1.symm
    | closed _ _ _ _ spoken => rw [spoken] at told; exact (List.cons.inj told).1.symm
  · cases sound.staged runId with
    | unborn _ _ silent => rw [silent] at told; simp at told
    | announcing _ _ _ _ _ silent => rw [silent] at told; simp at told
    | underway _ _ _ _ events said middle => exact absurd final (unended middle said told)
    | ending _ _ events said middle => exact absurd final (unended middle said told)
    | closed _ _ events last said middle =>
      rw [said,← List.cons_append] at told
      exact nothing_follows (spoken events middle) told final
  · cases sound.staged runId with
    | unborn _ unknown => exact absurd begun unknown
    | announcing run current same => exact absurd (by rw [current,← same]; rfl) absent
    | underway run current same => exact absurd (by rw [current,← same]; rfl) absent
    | ending _ _ _ _ _ task last _ queued =>
      rw [settled task] at queued
      cases queued
    | closed _ _ events last said middle final =>
      rw [said,← List.cons_append,List.countP_append,List.countP_eq_zero.mpr (spoken events middle)]
      simp [final]

end Sound

-- Every stream of calls made in time is well told, however the tasks interleave.
theorem timely_stream_well_told (path : RunsWhere (step teamId) Timely .start actions system) : WellTold system :=
  Sound.wellTold (path.invariant start_sound fun _ _ _ sound timely taken => Sound.step sound timely taken)

def acceptance : Operation := .acceptUserMessage "run" "lead" .lead false none

-- The acceptance is out before another task's finisher ends the run.
theorem timely_stream_well_told_finished : ∃ system,
    exec (step "team") .start [.enter 0 acceptance,.deliver 0,.enter 1 .maybeComplete] = some system ∧
      runNames "run" system.stream = [.accepted,.completed] ∧ WellTold system := by
  refine ⟨_,rfl,rfl,@timely_stream_well_told "team" [.enter 0 acceptance,.deliver 0,.enter 1 .maybeComplete] _
    (.cons ?_ rfl (.cons ?_ rfl (.cons ?_ rfl .nil)))⟩
  · rintro run ⟨⟩
  · trivial
  · rintro run held
    have quiet : ∀ task, Function.update (Function.update (fun _ : Nat => ([] : List TeamEvent)) 0
        [.teamRun .accepted run.payload]) 0 [] task = [] := by
      intro task
      by_cases same : task = 0 <;> simp [same]
    cases Option.some.inj held
    refine ⟨?_,fun _ task => congrArg (runNames "run") (quiet task),fun _ => nofun⟩
    rintro ⟨task,inside⟩
    have none := congrArg (runNames "run") (quiet task)
    exact absurd inside (none ▸ List.not_mem_nil)

-- The wake of another task comes between the acceptance and its broadcast.
theorem wake_told_before_acceptance : ∃ system,
    exec (step "team") .start [.enter 0 acceptance,.enter 1 (.recordPendingWake "mate" .teammate .mcpSendMessage),
      .deliver 0] = some system ∧ ¬WellTold system := by
  refine ⟨_,rfl,fun told => ?_⟩
  cases told.opens "run" .updated [.accepted] rfl

end AlineaCopilot.TeamRunStream
