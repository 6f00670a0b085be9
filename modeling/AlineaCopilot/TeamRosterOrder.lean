import Mathlib.Data.List.Perm.Subperm
import AlineaCopilot.TeamRoster
open AlineaCopilot.TransitionRuns

namespace AlineaCopilot.TeamRoster

variable {toLowercase : String → String}

-- The changes an operation may make, whatever ids its agent is given.
def Effect.Of : Effect → Operation → Prop
  | .push agent,.addAgent _ req => ∃ slotId conversationId, agent = provisionNewAgent slotId conversationId req.name
      ((TeammateRole.parse req.role).getD .teammate) req.backend req.model req.customAgentId
  | .push agent,.persistSpawnedAgent _ name backend model customAgentId => ∃ slotId conversationId,
      agent = provisionNewAgent slotId conversationId name .teammate backend model customAgentId
  | .remove slotId,.removeAgent _ target => slotId = target
  | .rename slotId name,.renameAgent _ target given => slotId = target ∧ name = given
  | _,_ => False

-- The call stands between its read of the roster and its write.
def Thread.window : Thread → Option Operation
  | .provisioning op _ => some op
  | .writing op _ _ _ => some op
  | _ => none

-- The call has the lock.
def Thread.holding : Thread → Option Operation
  | .admitted op => some op
  | .provisioning op _ => some op
  | .writing op _ _ _ => some op
  | .closing op => some op
  | _ => none

-- The call has written, as far as its state shows.
def Thread.wrote : Thread → Option Operation
  | .closing op => some op
  | .returned op (.ok _) => some op
  | _ => none

def Thread.done : Thread → Option Operation
  | .closing op => some op
  | .returned op _ => some op
  | _ => none

def Blank (system : System) : Prop := system.lock = none ∧ ∀ n, system.threads n = .idle

-- The roster is what some sequential execution leaves: of every call that
-- returned Ok, and of no call that is not known to have gone through.
def Sequential (toLowercase : String → String) (origin system : System) : Prop := ∃ order : List (Nat × Effect),
  (order.map Prod.fst).Nodup ∧
  (∀ n op, system.threads n = .returned op (.ok ()) → ∃ effect, (n,effect) ∈ order ∧ effect.Of op) ∧
  (∀ n effect, (n,effect) ∈ order → ∃ op, (system.threads n).done = some op ∧ effect.Of op) ∧
  Runs (execute toLowercase) origin.row.agents (order.map Prod.snd) system.row.agents

-- No write falls between the read and the write of another call, save where
-- the lock already keeps the two apart.
def Apart (system : System) : Action → Prop
  | .write n (.ok _) => ∀ op m other, (system.threads n).window = some op → m ≠ n →
      (system.threads m).window = some other → op.locks = true ∧ other.locks = true
  | _ => True

structure Consistent (toLowercase : String → String) (origin system : System) : Prop where
  current : ∀ n op loaded, system.threads n = .provisioning op loaded → loaded = system.row.agents
  ready : ∀ n op effect loaded next, system.threads n = .writing op effect loaded next →
    loaded = system.row.agents ∧ execute toLowercase loaded effect = some next ∧ effect.Of op
  locked : ∀ n op, (system.threads n).holding = some op → op.locks = true → system.lock = some n
  ordered : ∃ order : List (Nat × Effect), (order.map Prod.fst).Nodup ∧
    (∀ n op, (system.threads n).wrote = some op → ∃ effect, (n,effect) ∈ order ∧ effect.Of op) ∧
    (∀ n effect, (n,effect) ∈ order → ∃ op, (system.threads n).done = some op ∧ effect.Of op) ∧
    Runs (execute toLowercase) origin.row.agents (order.map Prod.snd) system.row.agents

section Steps
variable {origin system after : System}

theorem goes_same : (system.goes n thread).threads n = thread := by simp [System.goes]

theorem goes_other (other : m ≠ n) : (system.goes n thread).threads m = system.threads m := by
  simp [System.goes,other]

-- One call moves on without writing. What it reads is the roster of the moment.
theorem Consistent.moves (sound : Consistent toLowercase origin system) (threads : after.threads = (system.goes n thread).threads)
    (row : after.row = system.row)
    (current : ∀ op loaded, thread = .provisioning op loaded → loaded = system.row.agents)
    (ready : ∀ op effect loaded next, thread = .writing op effect loaded next →
      loaded = system.row.agents ∧ execute toLowercase loaded effect = some next ∧ effect.Of op)
    (locked : ∀ op, thread.holding = some op → op.locks = true → after.lock = some n)
    (kept : ∀ m, m ≠ n → ∀ op, (system.threads m).holding = some op → op.locks = true → after.lock = some m)
    (wrote : ∀ op, thread.wrote = some op → (system.threads n).wrote = some op)
    (done : ∀ op, (system.threads n).done = some op → thread.done = some op) :
    Consistent toLowercase origin after := by
  have same : after.threads n = thread := by rw [threads,goes_same]
  have others : ∀ m, m ≠ n → after.threads m = system.threads m := fun m other => by rw [threads,goes_other other]
  constructor
  · intro m op loaded found
    rw [row]
    by_cases own : m = n
    · rw [own,same] at found
      exact current op loaded found
    · rw [others m own] at found
      exact sound.current m op loaded found
  · intro m op effect loaded next found
    rw [row]
    by_cases own : m = n
    · rw [own,same] at found
      exact ready op effect loaded next found
    · rw [others m own] at found
      exact sound.ready m op effect loaded next found
  · intro m op holds takes
    by_cases own : m = n
    · rw [own,same] at holds
      rw [own]
      exact locked op holds takes
    · rw [others m own] at holds
      exact kept m own op holds takes
  · obtain ⟨order,distinct,forward,backward,path⟩ := sound.ordered
    refine ⟨order,distinct,fun m op written => ?_,fun m effect member => ?_,row ▸ path⟩
    · by_cases own : m = n
      · rw [own,same] at written
        rw [own]
        exact forward n op (wrote op written)
      · rw [others m own] at written
        exact forward m op written
    · obtain ⟨op,went,fits⟩ := backward m effect member
      by_cases own : m = n
      · rw [own] at went
        exact ⟨op,by rw [own,same]; exact done op went,fits⟩
      · exact ⟨op,by rw [others m own]; exact went,fits⟩

-- A call that holds the lock keeps the others from having it.
theorem Consistent.alone (sound : Consistent toLowercase origin system) (holds : (system.threads n).holding = some op)
    (takes : op.locks = true) (other : m ≠ n) : ∀ rival, (system.threads m).holding = some rival → rival.locks = false := by
  intro rival also
  by_contra both
  have one := sound.locked n op holds takes
  have two := sound.locked m rival also (by simpa using both)
  exact other (Option.some.inj (two.symm.trans one))

theorem Consistent.returns (sound : Consistent toLowercase origin system) (holds : op.locks = true → (system.threads n).holding = some op)
    (before : (system.threads n).done = none ∨ system.threads n = .closing op)
    (result : Except TeamError Unit) (closed : ∀ nothing, result = .ok nothing → system.threads n = .closing op) :
    Consistent toLowercase origin (system.returns n op result) := by
  have threads : (system.returns n op result).threads = (system.goes n (.returned op result)).threads := rfl
  refine sound.moves threads rfl (by simp) (by simp) (by simp [Thread.holding]) ?_ ?_ ?_
  · intro m other rival also takes
    unfold System.returns
    by_cases own : op.locks = true
    · exact absurd takes (by simp [sound.alone (holds own) own other rival also])
    · simp only [own]
      exact sound.locked m rival also takes
  · intro done written
    cases result with
    | error error => cases written
    | ok nothing =>
      rw [closed nothing rfl]
      exact written
  · intro done went
    rcases before with none | closing
    · rw [none] at went; cases went
    · rw [closing] at went; exact went

-- Where a call stands after it has used the roster it read.
def Prepared (toLowercase : String → String) (op : Operation) (agents : List TeamAgent) (thread : Thread) : Prop :=
  thread = .provisioning op agents ∨ ∃ effect next, thread = .writing op effect agents next ∧
    execute toLowercase agents effect = some next ∧ effect.Of op

theorem map_ok {result : Except TeamError α} {change : α → β} (outcome : result.map change = .ok value) :
    ∃ before, result = .ok before ∧ value = change before := by
  cases result with
  | error error => cases outcome
  | ok before => exact ⟨before,rfl,(Except.ok.inj outcome).symm⟩

theorem afterRead_prepared (read : afterRead toLowercase op row = .ok thread) :
    Prepared toLowercase op row.agents thread := by
  cases op with
  | addAgent =>
    simp only [afterRead] at read
    split at read
    · cases read
    · exact .inl (Except.ok.inj read).symm
  | persistSpawnedAgent => exact .inl (Except.ok.inj read).symm
  | removeAgent =>
    simp only [afterRead] at read
    split at read
    · cases read
    · obtain ⟨_,_,shape⟩ := map_ok read
      exact .inl shape
  | renameAgent userId slotId name =>
    simp only [afterRead] at read
    split at read
    · cases read
    · obtain ⟨next,renamed,shape⟩ := map_ok read
      exact .inr ⟨_,next,shape,by simp [execute,Effect.apply,renamed,Except.toOption],rfl,rfl⟩

theorem afterProvision_prepared (provided : afterProvision op loaded outcome = .ok thread) :
    Prepared toLowercase op loaded thread := by
  cases op with
  | addAgent =>
    obtain ⟨ids,_,shape⟩ := map_ok provided
    exact .inr ⟨_,_,shape,rfl,ids.1,ids.2,rfl⟩
  | persistSpawnedAgent =>
    obtain ⟨ids,_,shape⟩ := map_ok provided
    exact .inr ⟨_,_,shape,rfl,ids.1,ids.2,rfl⟩
  | removeAgent userId slotId =>
    obtain ⟨next,removed,shape⟩ := map_ok provided
    exact .inr ⟨_,next,shape,by simp [execute,Effect.apply,removed,Except.toOption],rfl⟩
  | renameAgent => exact .inl (Except.ok.inj provided).symm

theorem Prepared.holding (prepared : Prepared toLowercase op agents thread) : thread.holding = some op := by
  rcases prepared with rfl | ⟨_,_,rfl,_⟩ <;> rfl

theorem Consistent.prepares (sound : Consistent toLowercase origin system)
    (prepared : Prepared toLowercase op system.row.agents thread)
    (holds : op.locks = true → system.lock = some n) (before : (system.threads n).done = none) :
    Consistent toLowercase origin (system.goes n thread) := by
  refine sound.moves rfl rfl ?_ ?_ ?_ (fun m _ rival also takes => sound.locked m rival also takes) ?_ ?_
  · rintro other loaded rfl
    rcases prepared with same | ⟨_,_,same,_⟩
    · cases same; rfl
    · cases same
  · rintro other effect loaded next rfl
    rcases prepared with same | ⟨_,_,same,executed,fits⟩
    · cases same
    · cases same
      exact ⟨rfl,executed,fits⟩
  · intro other held takes
    rw [prepared.holding] at held
    cases Option.some.inj held
    exact holds takes
  · rintro other written
    rcases prepared with rfl | ⟨_,_,rfl,_⟩ <;> cases written
  · intro other went
    rw [before] at went
    cases went

theorem Consistent.reads (sound : Consistent toLowercase origin system)
    (holds : op.locks = true → (system.threads n).holding = some op) (before : (system.threads n).done = none) :
    Consistent toLowercase origin (step.reads toLowercase system n op) := by
  unfold step.reads
  cases read : afterRead toLowercase op system.row with
  | error error => exact sound.returns holds (.inl before) _ fun _ impossible => by cases impossible
  | ok thread => exact sound.prepares (afterRead_prepared read) (fun takes => sound.locked n op (holds takes) takes) before

-- The write that no other pending read sees.
theorem Consistent.writes (sound : Consistent toLowercase origin system)
    (stands : system.threads n = .writing op effect loaded next)
    (apart : ∀ m other, m ≠ n → (system.threads m).window = some other → op.locks = true ∧ other.locks = true) :
    Consistent toLowercase origin
      { system.goes n (.closing op) with row := { system.row with agents := next } } := by
  obtain ⟨rfl,executed,fits⟩ := sound.ready n op effect loaded next stands
  have alone : ∀ m, m ≠ n → (system.threads m).window = none := by
    intro m other
    cases window : (system.threads m).window with
    | none => rfl
    | some rival =>
      obtain ⟨own,theirs⟩ := apart m rival other window
      have also : (system.threads m).holding = some rival := by
        cases thread : system.threads m <;> simp_all [Thread.window,Thread.holding]
      have free := sound.alone (by rw [stands]; rfl) own other rival also
      rw [theirs] at free
      cases free
  have others : ∀ m, m ≠ n → (system.goes n (.closing op)).threads m = system.threads m := fun m other => goes_other other
  constructor
  · intro m rival loaded found
    by_cases own : m = n
    · rw [own] at found
      exact absurd (goes_same.symm.trans found) (by simp)
    · have idle := alone m own
      rw [show system.threads m = .provisioning rival loaded from (others m own).symm.trans found] at idle
      cases idle
  · intro m rival change loaded result found
    by_cases own : m = n
    · rw [own] at found
      exact absurd (goes_same.symm.trans found) (by simp)
    · have idle := alone m own
      rw [show system.threads m = .writing rival change loaded result from (others m own).symm.trans found] at idle
      cases idle
  · intro m rival also takes
    by_cases own : m = n
    · rw [own] at also
      have same : rival = op := (Option.some.inj ((congrArg Thread.holding goes_same).symm.trans also)).symm
      exact own ▸ sound.locked n op (by rw [stands]; rfl) (same ▸ takes)
    · exact sound.locked m rival ((congrArg Thread.holding (others m own)).symm.trans also) takes
  · obtain ⟨order,distinct,forward,backward,path⟩ := sound.ordered
    refine ⟨order ++ [(n,effect)],?_,fun m rival wrote => ?_,fun m change member => ?_,?_⟩
    · have fresh : n ∉ order.map Prod.fst := by
        intro member
        obtain ⟨⟨m,change⟩,listed,rfl⟩ := List.mem_map.mp member
        obtain ⟨rival,went,_⟩ := backward m change listed
        rw [stands] at went
        cases went
      rw [List.map_append,List.map_singleton,List.nodup_append]
      refine ⟨distinct,by simp,fun a listed b last same => fresh ?_⟩
      have own : a = n := same.trans (List.mem_singleton.mp last)
      rw [← own]
      exact listed
    · by_cases own : m = n
      · rw [own] at wrote ⊢
        have same : op = rival := Option.some.inj ((congrArg Thread.wrote goes_same).symm.trans wrote)
        exact ⟨effect,by simp,same ▸ fits⟩
      · obtain ⟨change,listed,fitting⟩ := forward m rival ((congrArg Thread.wrote (others m own)).symm.trans wrote)
        exact ⟨change,List.mem_append_left _ listed,fitting⟩
    · rcases List.mem_append.mp member with listed | last
      · obtain ⟨rival,went,fitting⟩ := backward m change listed
        have own : m ≠ n := by
          rintro rfl
          rw [stands] at went
          cases went
        exact ⟨rival,(congrArg Thread.done (others m own)).trans went,fitting⟩
      · cases List.mem_singleton.mp last
        exact ⟨op,congrArg Thread.done goes_same,fits⟩
    · rw [List.map_append,List.map_singleton]
      exact path.snoc executed

theorem consistent_step (sound : Consistent toLowercase origin system) (apart : Apart system action)
    (taken : step toLowercase system action = some after) : Consistent toLowercase origin after := by
  cases action with
  | call n op =>
    cases stands : system.threads n <;> simp only [step,stands] at taken <;> try cases taken
    refine sound.moves rfl rfl (by simp) (by simp) (by simp [Thread.holding]) ?_ (by simp [Thread.wrote]) ?_
    · exact fun m _ rival also takes => sound.locked m rival also takes
    · intro other went
      rw [stands] at went
      cases went
  | lock n =>
    cases stands : system.threads n <;> simp only [step,stands] at taken <;> try cases taken
    rename_i op
    split at taken
    · rename_i free
      cases Option.some.inj taken
      refine sound.moves rfl rfl (by simp) (by simp) (fun _ _ _ => rfl) ?_ (by simp [Thread.wrote]) ?_
      · intro m _ rival also takes
        have held := sound.locked m rival also takes
        rw [free.2] at held
        cases held
      · intro other went
        rw [stands] at went
        cases went
    · cases taken
  | read n =>
    cases stands : system.threads n <;> simp only [step,stands] at taken <;> try cases taken
    · rename_i op
      split at taken
      · cases taken
      · rename_i free
        cases Option.some.inj taken
        exact sound.reads (fun takes => absurd takes free) (by rw [stands]; rfl)
    · exact sound.reads (fun _ => by rw [stands]; rfl) (by rw [stands]; rfl)
  | provide n outcome =>
    cases stands : system.threads n <;> simp only [step,stands] at taken <;> try cases taken
    rename_i op loaded
    have held : (system.threads n).holding = some op := by rw [stands]; rfl
    have before : (system.threads n).done = none := by rw [stands]; rfl
    cases provided : afterProvision op loaded outcome with
    | ok thread =>
      simp only [provided,Option.some.injEq] at taken
      subst taken
      have prepared : Prepared toLowercase op loaded thread := afterProvision_prepared provided
      rw [sound.current n op loaded stands] at prepared
      exact sound.prepares prepared (sound.locked n op held) before
    | error error =>
      simp only [provided,Option.some.injEq] at taken
      subst taken
      exact sound.returns (fun _ => held) (.inl before) _ fun _ impossible => by cases impossible
  | write n outcome =>
    cases stands : system.threads n <;> simp only [step,stands] at taken <;> try cases taken
    rename_i op effect loaded next
    have held : (system.threads n).holding = some op := by rw [stands]; rfl
    cases outcome with
    | ok nothing =>
      cases Option.some.inj taken
      refine sound.writes stands fun m other different window => ?_
      exact apart op m other (by rw [stands]; rfl) different window
    | error error =>
      cases Option.some.inj taken
      exact sound.returns (fun _ => held) (.inl (by rw [stands]; rfl)) _ fun _ impossible => by cases impossible
  | finish n outcome =>
    cases stands : system.threads n <;> simp only [step,stands] at taken <;> try cases taken
    exact sound.returns (fun _ => by rw [stands]; rfl) (.inr stands) _ fun _ _ => stands

theorem consistent_blank (blank : Blank origin) : Consistent toLowercase origin origin := by
  obtain ⟨_,idle⟩ := blank
  refine ⟨?_,?_,?_,⟨[],List.nodup_nil,?_,by simp,.nil⟩⟩ <;> simp [idle,Thread.holding,Thread.wrote]

-- In every run in which no write falls between another call's read and write,
-- save where the lock keeps them apart, the roster is at every point what the
-- calls leave when they are executed one after the other.
theorem roster_sequential (blank : Blank origin) (path : RunsWhere (step toLowercase) Apart origin actions after) :
    Sequential toLowercase origin after := by
  have start : Consistent toLowercase origin origin := consistent_blank blank
  have sound := path.invariant start fun _ _ _ => consistent_step
  obtain ⟨order,distinct,forward,backward,replay⟩ := sound.ordered
  exact ⟨order,distinct,fun n op returned => forward n op (by rw [returned]; rfl),backward,replay⟩

theorem removeFrom_length (removed : removeFrom agents slotId = .ok next) : next.length + 1 = agents.length := by
  unfold removeFrom at removed
  split at removed
  · cases removed
  · rename_i index found
    cases Except.ok.inj removed
    have bound := (List.findIdx?_eq_some_iff_findIdx_eq.mp found).1
    rw [List.length_eraseIdx_of_lt bound]
    omega

theorem execute_remove_length (executed : execute toLowercase agents (.remove slotId) = some next) :
    next.length + 1 = agents.length := by
  simp only [execute,Effect.apply] at executed
  cases outcome : removeFrom agents slotId with
  | error error => rw [outcome] at executed; cases executed
  | ok rest =>
    rw [outcome] at executed
    exact Option.some.inj executed ▸ removeFrom_length outcome

-- Every removal that goes through takes one agent away.
theorem removals_shorten (path : Runs (execute toLowercase) agents effects next)
    (removals : ∀ effect ∈ effects, ∃ slotId, effect = .remove slotId) : next.length + effects.length = agents.length := by
  induction path with
  | nil => rfl
  | snoc prior executed ih =>
    have shorter := ih fun effect member => removals effect (List.mem_append_left _ member)
    obtain ⟨slotId,rfl⟩ := removals _ (List.mem_append_right _ (List.mem_singleton.mpr rfl))
    have one := execute_remove_length executed
    simp only [List.length_append,List.length_singleton]
    omega

-- When two calls went through, both removals, two agents are gone.
theorem Sequential.two_removals (sequential : Sequential toLowercase origin after)
    (first : after.threads 0 = .returned (.removeAgent user one) (.ok ()))
    (second : after.threads 1 = .returned (.removeAgent user two) (.ok ()))
    (idle : ∀ n, after.threads (n + 2) = .idle) : after.row.agents.length + 2 ≤ origin.row.agents.length := by
  obtain ⟨order,distinct,forward,backward,path⟩ := sequential
  have removals : ∀ effect ∈ order.map Prod.snd, ∃ slotId, effect = .remove slotId := by
    intro effect listed
    obtain ⟨⟨n,change⟩,there,rfl⟩ := List.mem_map.mp listed
    obtain ⟨op,went,fits⟩ := backward n change there
    have removing : ∃ user slotId, op = .removeAgent user slotId := by
      match n with
      | 0 => rw [first] at went; exact ⟨user,one,(Option.some.inj went).symm⟩
      | 1 => rw [second] at went; exact ⟨user,two,(Option.some.inj went).symm⟩
      | n + 2 => rw [idle n] at went; cases went
    obtain ⟨_,_,rfl⟩ := removing
    cases change with
    | remove slotId => exact ⟨slotId,rfl⟩
    | push | rename => exact fits.elim
  obtain ⟨_,listed,_⟩ := forward 0 _ first
  obtain ⟨_,also,_⟩ := forward 1 _ second
  have both : [0,1] ⊆ order.map Prod.fst := by
    simp only [List.cons_subset,List.nil_subset,and_true]
    exact ⟨List.mem_map_of_mem listed,List.mem_map_of_mem also⟩
  have long := (List.subperm_of_subset (by decide) both).length_le
  have short := removals_shorten path removals
  simp only [List.length_map,List.length_cons,List.length_nil] at long short
  omega

def member (slotId : String) : TeamAgent := provisionNewAgent slotId "conversation" slotId .teammate "claude" "sonnet" none
def trio : System := ⟨⟨"team","user",[member "lead",member "first",member "second"]⟩,none,fun _ => .idle⟩

-- Two removals that read the roster before either of them writes it.
def overlappingRemovals : List Action :=
  [.call 0 (.removeAgent "user" "first"),.call 1 (.removeAgent "user" "second"),.read 0,.read 1,
    .provide 0 (.ok ("","")),.provide 1 (.ok ("","")),.write 0 (.ok ()),.write 1 (.ok ()),.finish 0 (.ok ()),
    .finish 1 (.ok ())]

theorem removed_agent_reappears : ∃ after, exec (step id) trio overlappingRemovals = some after ∧
    after.threads 0 = .returned (.removeAgent "user" "first") (.ok ()) ∧
    after.threads 1 = .returned (.removeAgent "user" "second") (.ok ()) ∧
    after.row.agents = [member "lead",member "first"] ∧ ¬Sequential id trio after := by
  refine ⟨_,rfl,rfl,rfl,rfl,fun sequential => ?_⟩
  exact absurd (sequential.two_removals rfl rfl fun _ => rfl) (by decide)

-- An addition and a removal that do not overlap.
def additionThenRemoval : List Action :=
  [.call 0 (.addAgent "user" ⟨"Third","teammate","claude","sonnet",none⟩),.lock 0,.read 0,
    .call 1 (.removeAgent "user" "first"),.provide 0 (.ok ("third","conversation")),.write 0 (.ok ()),.read 1,
    .provide 1 (.ok ("","")),.finish 0 (.ok ()),.write 1 (.ok ()),.finish 1 (.ok ())]

theorem addition_then_removal_apart : ∃ after, RunsWhere (step id) Apart trio additionThenRemoval after := by
  -- At the first write the other call has not read; at the second it is over.
  refine ⟨_,.cons trivial rfl (.cons trivial rfl (.cons trivial rfl (.cons trivial rfl (.cons trivial rfl (.cons ?_ rfl
    (.cons trivial rfl (.cons trivial rfl (.cons trivial rfl (.cons ?_ rfl (.cons trivial rfl .nil))))))))))⟩
  · intro op m other _ different window
    match m,different,window with
    | 0,different,_ => exact absurd rfl different
    | 1,_,window => cases window
    | m + 2,_,window => cases window
  · intro op m other _ different window
    match m,different,window with
    | 1,different,_ => exact absurd rfl different
    | 0,_,window => cases window
    | m + 2,_,window => cases window

theorem roster_sequential_two_calls : ∃ after, exec (step id) trio additionThenRemoval = some after ∧
    Sequential id trio after := by
  obtain ⟨after,path⟩ := addition_then_removal_apart
  exact ⟨after,exec_exact.mpr path.runs,roster_sequential ⟨rfl,fun _ => rfl⟩ path⟩

end Steps

end AlineaCopilot.TeamRoster
