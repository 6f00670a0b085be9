import Mathlib.Data.List.Nodup
import AlineaCopilot.AgentNames
import AlineaCopilot.TransitionRuns

open AlineaCopilot.AgentNames AlineaCopilot.CaseMappings AlineaCopilot.StatefulPrograms AlineaCopilot.TransitionRuns

namespace AlineaCopilot.LiveAgentNames

-- How far a call of `spawn_agent` has come, up to the service call that stores
-- the agent.
inductive Spawn where
  | idle
  | entering (caller : String) (req : TeamMcp.SpawnAgentRequest)
  | admitted (caller : TeamAgent) (req : TeamMcp.SpawnAgentRequest)
  | named (caller : TeamAgent) (req : TeamMcp.SpawnAgentRequest) (requestedName : String)
  | storing
  | refused (error : TeamError)

-- `slots` is the scheduler's map, `due` what a service call has stored and not
-- brought to the scheduler yet. The call of `spawn_agent` with a number goes on as
-- the service call with that number.
structure System where
  roster : TeamRoster.System
  slots : List TeamAgent
  due : Nat → Option TeamRoster.Effect
  spawns : Nat → Spawn

inductive Action where
  | service (action : TeamRoster.Action)
  | spawn (n : Nat) (caller : String) (req : TeamMcp.SpawnAgentRequest)
  | authorize (n : Nat)
  | name (n : Nat)
  | store (n : Nat) (capable : Bool) (serviceAlive : Bool) (defaultModel : Option String) (userId : String)
  | attach (n : Nat)
  | rename (slotId newName : String)

def insertSlot (slots : List TeamAgent) (agent : TeamAgent) : List TeamAgent := slots.filter (·.slotId ≠ agent.slotId) ++ [agent]

-- `TeammateManager::new`.
def slotsOf (agents : List TeamAgent) : List TeamAgent := agents.foldl insertSlot []

def start (row : TeamRoster.TeamRow) : System where
  roster := ⟨row,none,fun _ => .idle⟩
  slots := slotsOf row.agents
  due := fun _ => none
  spawns := fun _ => .idle

def System.sets (system : System) (n : Nat) (spawn : Spawn) : System :=
  { system with spawns := fun m => if m = n then spawn else system.spawns m }

section Steps
variable (toLowercase : String → String)

-- `TeammateManager::add_agent`, `remove_agent` and `rename_agent`. What they
-- answer, the service does not look at.
def applySlots (slots : List TeamAgent) : TeamRoster.Effect → List TeamAgent
  | .push agent => insertSlot slots agent
  | .remove slotId => slots.filter (·.slotId ≠ slotId)
  | .rename slotId newName => (TeamMcp.renameSlot toLowercase slots slotId newName).toOption.getD slots

def spawned : TeamRoster.Operation → Bool
  | .persistSpawnedAgent .. => true
  | .addAgent .. | .removeAgent .. | .renameAgent .. => false

-- The session hears of a change behind the write. The agent of `spawn_agent` is
-- added when the service call has returned, the others before it returns.
def attachable : TeamRoster.Thread → Bool
  | .closing op => !spawned op
  | .returned op (.ok _) => spawned op
  | .idle | .entering _ | .admitted _ | .provisioning .. | .writing .. | .returned _ (.error _) => false

-- The numbers of service calls and of calls of `spawn_agent` are apart, and the
-- other operations return with nothing left to bring to the scheduler.
def allowed (system : System) : TeamRoster.Action → Bool
  | .call n op => !spawned op && match system.spawns n with
    | .idle => true
    | _ => false
  | .finish n _ => match system.roster.threads n with
    | .closing op => spawned op || (system.due n).isNone
    | _ => true
  | .lock _ | .read _ | .provide .. | .write .. => true

-- What a write leaves to bring to the scheduler.
def dueAfter (system : System) : TeamRoster.Action → Nat → Option TeamRoster.Effect
  | .write n (.ok _),m => if m = n then match system.roster.threads n with
      | .writing _ effect _ _ => some effect
      | _ => system.due m
    else system.due m
  | _,m => system.due m

def step (system : System) : Action → Option System
  | .service action =>
    if allowed system action then
      (TeamRoster.step toLowercase system.roster action).map fun roster => { system with roster := roster, due := dueAfter system action }
    else none
  | .spawn n caller req =>
    match system.spawns n,system.roster.threads n with
    | .idle,.idle => some (system.sets n (.entering caller req))
    | _,_ => none
  | .authorize n =>
    match system.spawns n with
    | .entering caller req =>
      match system.slots.find? (·.slotId == caller) with
      | none => some (system.sets n (.refused (.agentNotFound caller)))
      | some agent =>
        if agent.role ≠ .lead then some (system.sets n (.refused (.leaderOnly "spawn_agent")))
        else some (system.sets n (.admitted agent req))
    | _ => none
  | .name n =>
    match system.spawns n with
    | .admitted caller req =>
      match spawnNameCheck toLowercase system.slots req.name with
      | some error => some (system.sets n (.refused error))
      | none => some (system.sets n (.named caller req (RustText.trim req.name)))
    | _ => none
  -- The backend and the model are asked for, and the service call begins.
  | .store n capable serviceAlive defaultModel userId =>
    match system.spawns n with
    | .named caller req requestedName =>
      let backend := ((req.agentType.map RustText.trim).filter (!·.isEmpty)).getD caller.backend
      if !TeamMcp.TEAM_CAPABLE_BACKENDS.contains backend && !capable then some (system.sets n (.refused (.backendNotAllowed backend)))
      else if !serviceAlive then
        some (system.sets n (.refused (.invalidRequest "spawn_agent requires a live TeamSessionService")))
      else
        let model := (req.model.filter (!·.isEmpty)).getD (defaultModel.getD caller.model)
        (TeamRoster.step toLowercase system.roster
          (.call n (.persistSpawnedAgent userId requestedName backend model req.customAgentId))).map fun roster =>
            { system.sets n .storing with roster := roster }
    | _ => none
  | .attach n =>
    match system.due n with
    | some effect =>
      if attachable (system.roster.threads n) then
        some { system with slots := applySlots toLowercase system.slots effect, due := fun m => if m = n then none else system.due m }
      else none
    | none => none
  | .rename slotId newName => some { system with slots := applySlots toLowercase system.slots (.rename slotId newName) }

end Steps

section Names
variable (toLowercase : String → String)

def Distinct (key : TeamAgent → String) (slots : List TeamAgent) : Prop := (slots.map key).Nodup

def normal (agent : TeamAgent) : String := normalizeName toLowercase agent.name

def lower (agent : TeamAgent) : String := toLowercase agent.name

-- No live agent's own name is ambiguous.
def Resolved (slots : List TeamAgent) : Prop :=
  ∀ agent ∈ slots, ∀ e : TeamMcp.Execution, e.team.agents = slots →
    (perform (TeamMcp.resolveAgentTarget toLowercase agent.name) e).1 ≠ .error s!"Multiple agents match '{agent.name}'"

-- What the scheduler takes in has a name that no other agent it holds has: for an
-- agent that is added, nothing else looks; for one renamed, the normal form is
-- looked at.
def Free (slots : List TeamAgent) : TeamRoster.Effect → Prop
  | .push agent => ∀ other ∈ slots, other.slotId ≠ agent.slotId →
      normal toLowercase other ≠ normal toLowercase agent ∧ lower toLowercase other ≠ lower toLowercase agent
  | .remove _ => True
  | .rename slotId newName => (∃ renamed, TeamMcp.renameSlot toLowercase slots slotId newName = .ok renamed) →
      ∀ other ∈ slots, other.slotId ≠ slotId → lower toLowercase other ≠ toLowercase newName

def Clear (system : System) : Action → Prop
  | .attach n => ∀ effect, system.due n = some effect → Free toLowercase system.slots effect
  | .rename slotId newName => Free toLowercase system.slots (.rename slotId newName)
  | .service _ | .spawn .. | .authorize _ | .name _ | .store .. => True

end Names

section Slots
variable {toLowercase : String → String} {slots : List TeamAgent} {key : TeamAgent → String}

theorem Distinct.filter (distinct : Distinct key slots) (keep : TeamAgent → Bool) : Distinct key (slots.filter keep) :=
  List.Nodup.sublist (List.filter_sublist.map key) distinct

theorem Distinct.alone {agent : TeamAgent} (distinct : Distinct key slots) (inside : agent ∈ slots) :
    slots.filter (fun other => key other == key agent) = [agent] := by
  induction slots with
  | nil => cases inside
  | cons first rest ih =>
    obtain ⟨apart,later⟩ := List.nodup_cons.mp distinct
    rcases List.mem_cons.mp inside with rfl | there
    · have others : rest.filter (fun other => key other == key agent) = [] := by
        refine List.filter_eq_nil_iff.mpr fun other held same => ?_
        exact apart (beq_iff_eq.mp same ▸ List.mem_map_of_mem held)
      rw [List.filter_cons,if_pos (beq_self_eq_true _),others]
    · rw [List.filter_cons_of_neg,ih later there]
      intro same
      exact apart (beq_iff_eq.mp same ▸ List.mem_map_of_mem there)

theorem Distinct.insert {agent : TeamAgent} (distinct : Distinct key slots)
    (free : ∀ other ∈ slots, other.slotId ≠ agent.slotId → key other ≠ key agent) : Distinct key (insertSlot slots agent) := by
  rw [Distinct,insertSlot,List.map_append,List.nodup_append]
  refine ⟨distinct.filter _,List.nodup_singleton _,?_⟩
  rintro _ inside _ last rfl
  obtain ⟨other,there,same⟩ := List.mem_map.mp inside
  obtain ⟨held,apart⟩ := List.mem_filter.mp there
  exact free other held (by simpa using apart) (same.trans (List.mem_singleton.mp last))

theorem insertSlot_ids (agent : TeamAgent) (ids : Distinct TeamAgent.slotId slots) : Distinct TeamAgent.slotId (insertSlot slots agent) :=
  ids.insert fun _ _ apart => apart

def renamedAs (slotId newName : String) (agent : TeamAgent) : TeamAgent :=
  if agent.slotId = slotId then { agent with name := newName } else agent

theorem renamedAs_id (slotId newName : String) (agent : TeamAgent) : (renamedAs slotId newName agent).slotId = agent.slotId := by
  unfold renamedAs
  split <;> rfl

theorem Distinct.renamed {shape : String → String} {slotId newName : String} (ids : Distinct TeamAgent.slotId slots)
    (distinct : Distinct (fun agent => shape agent.name) slots)
    (free : ∀ other ∈ slots, other.slotId ≠ slotId → shape other.name ≠ shape newName) :
    Distinct (fun agent => shape agent.name) (slots.map (renamedAs slotId newName)) := by
  rw [Distinct,List.Nodup,List.pairwise_map] at ids distinct
  rw [Distinct,List.map_map,List.Nodup,List.pairwise_map]
  refine (ids.and distinct).imp_of_mem ?_
  rintro first second inside inside' ⟨apart,names⟩
  simp only [Function.comp_apply,renamedAs]
  split <;> split
  · rename_i one two
    exact absurd (one.trans two.symm) apart
  · rename_i one two
    exact (free second inside' two).symm
  · rename_i one two
    exact free first inside one
  · exact names

theorem renameSlot_exact {slotId newName : String} {renamed : List TeamAgent}
    (accepted : TeamMcp.renameSlot toLowercase slots slotId newName = .ok renamed) :
    renamed = slots.map (renamedAs slotId newName) ∧
      ∀ other ∈ slots, other.slotId ≠ slotId → normal toLowercase other ≠ normalizeName toLowercase newName := by
  simp only [TeamMcp.renameSlot] at accepted
  split at accepted
  · cases accepted
  · split at accepted
    · cases accepted
    · split at accepted
      · cases accepted
      · rename_i free
        cases accepted
        refine ⟨rfl,fun other inside apart same => free ?_⟩
        exact List.any_eq_true.mpr ⟨other,inside,decide_eq_true ⟨apart,same⟩⟩

-- What the scheduler holds, at any time.
structure Held (slots : List TeamAgent) : Prop where
  ids : Distinct TeamAgent.slotId slots
  normals : Distinct (normal toLowercase) slots
  lowers : Distinct (lower toLowercase) slots

theorem Held.apply {effect : TeamRoster.Effect} (held : @Held toLowercase slots) (free : Free toLowercase slots effect) :
    @Held toLowercase (applySlots toLowercase slots effect) := by
  cases effect with
  | push agent =>
    exact ⟨insertSlot_ids agent held.ids,held.normals.insert fun other inside apart => (free other inside apart).1,
      held.lowers.insert fun other inside apart => (free other inside apart).2⟩
  | remove slotId => exact ⟨held.ids.filter _,held.normals.filter _,held.lowers.filter _⟩
  | rename slotId newName =>
    rw [applySlots]
    cases accepted : TeamMcp.renameSlot toLowercase slots slotId newName with
    | error error => exact held
    | ok renamed =>
      obtain ⟨rfl,apart⟩ := renameSlot_exact accepted
      refine ⟨?_,held.ids.renamed held.normals apart,held.ids.renamed held.lowers (free ⟨_,accepted⟩)⟩
      have same : (slots.map (renamedAs slotId newName)).map TeamAgent.slotId = slots.map TeamAgent.slotId := by
        rw [List.map_map]
        exact List.map_congr_left fun agent _ => renamedAs_id slotId newName agent
      exact (congrArg List.Nodup same).mpr held.ids

theorem Held.resolved (held : @Held toLowercase slots) : Resolved toLowercase slots := by
  intro agent inside e same
  have alone : slots.filter (fun other => toLowercase other.name == toLowercase agent.name) = [agent] := held.lowers.alone inside
  unfold TeamMcp.resolveAgentTarget
  rw [perform_bind,perform_get]
  simp only [same,alone]
  split <;> exact nofun

end Slots

section Steps
variable {toLowercase : String → String} {system after : System} {action : Action}

end Steps

section Examples

def lead : TeamAgent := ⟨"slot-1","Lead",.lead,"conv-1","claude","opus",none,none,none,none⟩

def row : TeamRoster.TeamRow := ⟨"team-1","user-1",[lead]⟩

-- `POST` of an agent, from the call to the scheduler.
def adds (name : String) : List Action := [
  .service (.call 0 (.addAgent "user-1" ⟨name,"teammate","claude","opus",none⟩)),
  .service (.lock 0),
  .service (.read 0),
  .service (.provide 0 (.ok ("slot-2","conv-2"))),
  .service (.write 0 (.ok ())),
  .attach 0,
  .service (.finish 0 (.ok ()))]

end Examples

end AlineaCopilot.LiveAgentNames
