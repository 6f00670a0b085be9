import AlineaCopilot.TransitionRuns
import AlineaCopilot.TeamMcpServer
import Mathlib.Data.List.Forall2
open AlineaCopilot.StatefulPrograms AlineaCopilot.TransitionRuns

namespace AlineaCopilot.TeamMcp

-- The tools that write something; every other name reads or is unknown.
def effectfulTools : List String :=
  ["team_send_message","team_spawn_agent","team_task_create","team_task_update","team_rename_agent","team_shutdown_agent"]

def leadOnlyTools : List String := ["team_spawn_agent","team_shutdown_agent"]

section Tools
variable {toLowercase : String → String} {answers : Answers}

-- A tool that only reads does not look at who calls it.
theorem dispatch_reads (reading : tool ∉ effectfulTools) :
    dispatchTool toLowercase answers tool args caller callerRole = execReport answers tool args ∨
      dispatchTool toLowercase answers tool args caller callerRole = throw s!"Unknown tool: {tool}" := by
  unfold dispatchTool
  split <;> first | exact absurd (by decide) reading | exact .inl rfl | exact .inr rfl

theorem dispatch_any_caller (reading : tool ∉ effectfulTools) :
    dispatchTool toLowercase answers tool args caller callerRole = dispatchTool toLowercase answers tool args other role := by
  unfold dispatchTool
  split <;> first | exact absurd (by decide) reading | rfl

theorem execReport_state : (perform (execReport answers tool args) e).2 = e := by
  unfold execReport
  cases answers.report tool args <;> rfl

theorem dispatch_reads_state (reading : tool ∉ effectfulTools) :
    (perform (dispatchTool toLowercase answers tool args caller callerRole) e).2 = e := by
  rcases dispatch_reads reading with same | same <;> rw [same]
  · exact execReport_state
  · rfl

-- What the two gates behind the dispatcher see: the slot as the scheduler has
-- it when the tool runs, whatever role the tool was given.
theorem spawnAgent_lead (refused : (e.team.findAgent caller).map (·.role) ≠ some .lead) :
    (perform (spawnAgent toLowercase answers session caller req) e).2 = e := by
  unfold spawnAgent getAgent
  simp only [perform_bind,perform_get]
  cases found : e.team.findAgent caller with
  | none => rfl
  | some agent =>
    have other : agent.role ≠ .lead := by simpa [found] using refused
    simp [other]

theorem handleShutdownAgent_lead (answers : Answers) (target : String) (reason : Option String)
    (refused : (e.team.findAgent caller).map (·.role) ≠ some .lead) :
    (perform (handleShutdownAgent answers caller target reason) e).2 = e ∧
      ∃ error, (perform (handleShutdownAgent answers caller target reason) e).1 = .error error := by
  unfold handleShutdownAgent getAgent
  simp only [perform_bind,perform_get]
  cases found : e.team.findAgent caller with
  | none => exact ⟨rfl,_,rfl⟩
  | some agent =>
    have other : agent.role ≠ .lead := by simpa [found] using refused
    simp [other]

theorem getSession_keeps : Keeps (· = e) getSession := by
  refine Keeps.read fun before same => ?_
  cases session : before.team.session <;> simpa [session] using same

theorem requireActive_keeps : Keeps (· = e) requireActiveTeamRunForTeamWork := by
  refine getSession_keeps.bind fun session => ?_
  intro before same
  cases active : session.activeRun <;> simpa [active] using same

theorem upgrade_keeps : Keeps (· = e) (upgrade refusal) := by
  refine Keeps.read fun before same => ?_
  cases alive : before.team.serviceAlive <;> simpa [alive] using same

theorem resolveAgentTarget_keeps : Keeps (· = e) (resolveAgentTarget toLowercase target) := by
  refine Keeps.read fun before same => ?_
  subst same
  dsimp only
  split
  · rfl
  · split <;> rfl

theorem execSpawnAgent_lead (refused : (e.team.findAgent caller).map (·.role) ≠ some .lead) :
    (perform (execSpawnAgent toLowercase answers args caller callerRole) e).2 = e := by
  have keeps : Keeps (· = e) (execSpawnAgent toLowercase answers args caller callerRole) := by
    unfold execSpawnAgent
    by_cases role : callerRole = .lead
    · simp only [role,ne_eq,not_true_eq_false,if_false]
      split
      · exact Keeps.throw _
      · refine upgrade_keeps.bind fun _ => ?_
        refine Keeps.bind (Keeps.mapError ?_) fun _ => Keeps.pure _
        refine requireActive_keeps.bind fun _ => getSession_keeps.bind fun session => ?_
        intro before same
        subst same
        exact spawnAgent_lead refused
    · simp only [role,ne_eq,not_false_eq_true,if_true]
      exact fun before same => same
  exact keeps e rfl

theorem execShutdownAgent_lead (refused : (e.team.findAgent caller).map (·.role) ≠ some .lead) :
    (perform (execShutdownAgent toLowercase answers args caller callerRole) e).2 = e := by
  have keeps : Keeps (· = e) (execShutdownAgent toLowercase answers args caller callerRole) := by
    unfold execShutdownAgent
    by_cases role : callerRole = .lead
    · simp only [role,ne_eq,not_true_eq_false,if_false]
      split
      · exact Keeps.throw _
      · rename_i input read
        refine resolveAgentTarget_keeps.bind fun target => upgrade_keeps.bind fun _ => ?_
        refine requireActive_keeps.mapError.bind fun _ => ?_
        -- The refusal ends the tool, so the wake that would follow is not reached.
        intro before same
        subst same
        obtain ⟨stays,error,stopped⟩ := handleShutdownAgent_lead answers target input.reason refused
        rw [perform_bind,perform_mapError]
        simp only [executeAction,stopped,Except.mapError]
        exact stays
    · simp only [role,ne_eq,not_false_eq_true,if_true]
      exact fun before same => same
  exact keeps e rfl

theorem dispatch_lead_only (restricted : tool ∈ leadOnlyTools) (refused : (e.team.findAgent caller).map (·.role) ≠ some .lead) :
    (perform (dispatchTool toLowercase answers tool args caller callerRole) e).2 = e := by
  simp only [leadOnlyTools,List.mem_cons,List.not_mem_nil,or_false] at restricted
  rcases restricted with rfl | rfl
  · exact execSpawnAgent_lead refused
  · exact execShutdownAgent_lead refused

end Tools

section Authority
variable (server : Server)

-- A token that `verify` accepts for this server, with the slot bound inside it.
def Accepted (token : Option String) (slotId : String) : Prop :=
  ∃ text teamId, token = some text ∧ server.verify text = some (slotId,teamId)

-- What the claim asks of a call that did something.
def Entry.Authorized (entry : Entry) : Prop :=
  entry.effects ≠ [] → Accepted server entry.token entry.caller ∧
    (entry.tool ∈ leadOnlyTools → entry.current = some .lead)

-- The HTTP loop takes the caller from a header and its role for granted: no HTTP
-- request may call a tool that writes.
def Permitted (_ : System) : Action → Prop
  | .http bytes _ => ∀ tool, (handleHttp server bytes).tool = some tool → tool ∉ effectfulTools
  | _ => True

structure Connection.Bound (connection : Connection) : Prop where
  verified : connection.authenticated = true → Accepted server connection.presented connection.caller
  calls : connection.calling.isSome = true → connection.authenticated = true

structure Secured (system : System) : Prop where
  connections : ∀ n connection, system.connections n = some connection → connection.Bound server
  removals : ∀ removal ∈ system.removals, Accepted server removal.token removal.caller
  log : ∀ entry ∈ system.log, entry.Authorized server

variable {server}

theorem start_secured : Secured server (System.start team) :=
  ⟨fun _ _ found => absurd found (by simp [System.start]),fun _ member => absurd member List.not_mem_nil,
    fun _ member => absurd member List.not_mem_nil⟩

theorem Secured.sets (secured : Secured server system) (bound : connection.Bound server) :
    Secured server (system.sets n connection) := by
  refine ⟨fun m other found => ?_,secured.removals,secured.log⟩
  by_cases same : m = n
  · simp only [System.sets,same,if_true,Option.some.injEq] at found
    exact found ▸ bound
  · simp only [System.sets,same,if_false] at found
    exact secured.connections m other found

theorem Secured.answered (secured : Secured server system) : Secured server { system with http := responses } :=
  ⟨secured.connections,secured.removals,secured.log⟩

theorem handleInitialize_verified (made : handleInitialize server request = .authenticated slotId token response) :
    Accepted server (some token) slotId := by
  unfold handleInitialize at made
  split at made
  · cases made
  · dsimp only at made
    split at made
    · rename_i slot teamId verified
      cases made
      exact ⟨_,teamId,rfl,verified⟩
    · cases made

theorem handleRequest_bound (bound : connection.Bound server) :
    (handleRequest server team connection request).Bound server := by
  unfold handleRequest
  split
  · exact bound
  · split
    · rename_i known
      split
      · exact ⟨bound.verified,bound.calls⟩
      · exact ⟨bound.verified,fun _ => known⟩
    · rename_i unknown
      split
      · rename_i slotId token response made
        exact ⟨fun _ => handleInitialize_verified made,fun _ => rfl⟩
      · exact ⟨bound.verified,bound.calls⟩

theorem removalsOf_nil : removalsOf token caller callerRole [] = [] := rfl

theorem mem_removalsOf (member : removal ∈ removalsOf token caller callerRole effects) :
    effects ≠ [] ∧ removal.token = token ∧ removal.caller = caller := by
  obtain ⟨effect,inside,made⟩ := List.mem_filterMap.mp member
  refine ⟨List.ne_nil_of_mem inside,?_⟩
  cases effect <;> simp only [Option.some.injEq,reduceCtorEq] at made
  subst made
  exact ⟨rfl,rfl⟩

-- A tool runs with a verified caller, or it is one that writes nothing.
theorem Secured.call (secured : Secured server system)
    (trusted : Accepted server token caller ∨ tool ∉ effectfulTools) :
    Secured server (system.call server token answers tool arguments caller callerRole).2 := by
  have authority : (perform (dispatchTool server.toLowercase answers tool arguments caller callerRole)
      ⟨system.team,[]⟩).2.effects ≠ [] → Accepted server token caller := by
    intro wrote
    rcases trusted with accepted | reading
    · exact accepted
    · rw [dispatch_reads_state reading] at wrote
      exact absurd rfl wrote
  refine ⟨secured.connections,fun removal member => ?_,fun entry member => ?_⟩
  · rcases List.mem_append.mp member with earlier | added
    · exact secured.removals removal earlier
    · obtain ⟨wrote,rfl,rfl⟩ := mem_removalsOf added
      exact authority wrote
  · rcases List.mem_append.mp member with earlier | added
    · exact secured.log entry earlier
    · cases List.mem_singleton.mp added
      refine fun wrote => ⟨authority wrote,fun restricted => ?_⟩
      by_contra refused
      have stays : (perform (dispatchTool server.toLowercase answers tool arguments caller callerRole)
          ⟨system.team,[]⟩).2 = ⟨system.team,[]⟩ := dispatch_lead_only restricted refused
      exact wrote (congrArg Execution.effects stays)

theorem Secured.step (secured : Secured server system) (permitted : Permitted server system action)
    (enabled : step server system action = some next) : Secured server next := by
  cases action with
  | connect n =>
    obtain ⟨_,rfl⟩ := connect_cases enabled
    exact secured.sets ⟨nofun,nofun⟩
  | receive n bytes =>
    obtain ⟨connection,found,rfl⟩ := receive_cases enabled
    have bound := secured.connections n connection found
    exact secured.sets ⟨bound.verified,bound.calls⟩
  | read n payload =>
    obtain ⟨connection,rest,request,found,_,_,rfl⟩ := read_cases enabled
    have bound := secured.connections n connection (reading_open found)
    exact secured.sets (handleRequest_bound ⟨bound.verified,bound.calls⟩)
  | dispatch n answers =>
    obtain ⟨connection,calling,found,running,rfl⟩ := dispatch_cases enabled
    have bound := secured.connections n connection found
    have accepted := bound.verified (bound.calls (by rw [running]; rfl))
    exact (secured.call (.inl accepted)).sets ⟨bound.verified,nofun⟩
  | reject n =>
    obtain ⟨connection,found,rfl⟩ := reject_cases enabled
    have bound := secured.connections n connection (reading_open found)
    exact secured.sets ⟨bound.verified,bound.calls⟩
  | hangUp n =>
    obtain ⟨connection,found,rfl⟩ := hangUp_cases enabled
    have bound := secured.connections n connection (reading_open found)
    exact secured.sets ⟨bound.verified,bound.calls⟩
  | http bytes answers =>
    rcases http_cases enabled with ⟨response,_,rfl⟩ | ⟨id,tool,arguments,caller,asked,rfl⟩
    · exact secured.answered
    · exact (secured.call (.inr (permitted tool (by rw [asked]; rfl)))).answered
  | remove index answers =>
    obtain ⟨removal,found,rfl⟩ := remove_cases enabled
    have accepted := secured.removals removal (List.mem_of_getElem? found)
    refine ⟨secured.connections,fun other member => ?_,fun entry member => ?_⟩
    · exact secured.removals other (List.mem_of_mem_eraseIdx member)
    · rcases List.mem_append.mp member with earlier | added
      · exact secured.log entry earlier
      · cases List.mem_singleton.mp added
        have free : "team_send_message" ∉ leadOnlyTools := by decide
        exact fun _ => ⟨accepted,fun restricted => absurd restricted free⟩
  | elsewhere team =>
    cases enabled
    exact ⟨secured.connections,secured.removals,secured.log⟩

end Authority

end AlineaCopilot.TeamMcp
