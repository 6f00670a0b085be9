import AlineaCopilot.TeamMcpAuthority
open AlineaCopilot.StatefulPrograms AlineaCopilot.TransitionRuns

namespace AlineaCopilot.TeamMcp

def Json.without (key : String) : Json → Json
  | .object fields => .object (fields.filter (·.1 ≠ key))
  | other => other

theorem lookup_filter (other : key ≠ erased) (fields : List (String × Json)) :
    List.lookup key (fields.filter (·.1 ≠ erased)) = List.lookup key fields := by
  induction fields with
  | nil => rfl
  | cons field rest ih =>
    obtain ⟨name,value⟩ := field
    by_cases dropped : name = erased
    · have differs : (key == name) = false := by simp [dropped,other]
      rw [List.filter_cons_of_neg (by simp [dropped]),ih,List.lookup_cons,differs]
    · rw [List.filter_cons_of_pos (by simp [dropped]),List.lookup_cons,List.lookup_cons,ih]

theorem Json.get_without (other : key ≠ erased) (value : Json) : (value.without erased).get key = value.get key := by
  cases value with
  | object fields => exact lookup_filter other fields
  | _ => rfl

-- The request without the slot the client says it is.
def JsonRpcRequest.withoutSlot (request : JsonRpcRequest) : JsonRpcRequest :=
  { request with params := request.params.map (Json.without "slot_id") }

-- What stays of a connection when the bytes it holds are forgotten.
def Connection.view (connection : Connection) : Connection := { connection with buffer := [] }

@[simp] theorem Connection.view_calling (connection : Connection) : connection.view.calling = connection.calling := rfl

@[simp] theorem Connection.view_presented (connection : Connection) : connection.view.presented = connection.presented := rfl

@[simp] theorem Connection.view_caller (connection : Connection) : connection.view.caller = connection.caller := rfl

-- What was decided on a call. The caller is left out: where a call did
-- something, the token determines it.
structure Decision where
  token : Option String
  callerRole : TeammateRole
  tool : String
  effects : List Effect
  result : Except String String

def Entry.decision (entry : Entry) : Decision :=
  ⟨entry.token,entry.callerRole,entry.tool,entry.effects,entry.result⟩

structure View where
  team : Team
  connections : Nat → Option Connection
  http : List HttpResponse
  removals : List Removal
  decisions : List Decision

def System.view (system : System) : View :=
  ⟨system.team,fun n => (system.connections n).map Connection.view,system.http,system.removals,
    system.log.map Entry.decision⟩

section Unverified
variable {server : Server}

theorem bind_get_without (other : key ≠ erased) (params : Option Json) :
    (params.map (Json.without erased)).bind (Json.get key) = params.bind (Json.get key) := by
  cases params with
  | none => rfl
  | some value => exact Json.get_without other value

theorem handleInitialize_withoutSlot (request : JsonRpcRequest) :
    handleInitialize server request.withoutSlot = handleInitialize server request := by
  unfold handleInitialize presentedToken JsonRpcRequest.withoutSlot
  rw [bind_get_without (by decide),bind_get_without (by decide)]

theorem handleMethod_withoutSlot (request : JsonRpcRequest) :
    handleMethod server request.withoutSlot role = handleMethod server request role := by
  unfold handleMethod JsonRpcRequest.withoutSlot
  cases request.params with
  | none => rfl
  | some params =>
    have name : "name" ≠ "slot_id" := by decide
    have arguments : "arguments" ≠ "slot_id" := by decide
    simp only [Option.map_some,Json.getStr,Json.get_without name,Json.get_without arguments]

theorem handleRequest_withoutSlot (request : JsonRpcRequest) :
    handleRequest server team connection request.withoutSlot = handleRequest server team connection request := by
  unfold handleRequest
  rw [handleInitialize_withoutSlot,handleMethod_withoutSlot]
  rfl

theorem handleRequest_view : (handleRequest server team connection request).view =
    handleRequest server team connection.view request := by
  have known : connection.view.authenticated = connection.authenticated := rfl
  have caller : connection.view.caller = connection.caller := rfl
  unfold handleRequest
  rw [known,caller]
  cases request.id.isNone with
  | true => rfl
  | false =>
    cases connection.authenticated with
    | true => cases handleMethod server request (team.callerRole connection.caller) <;> rfl
    | false => cases handleInitialize server request <;> rfl

-- Actions that differ in what no check has verified: the bytes that carry a
-- request, its `params.slot_id`, the head of an HTTP request.
inductive Alike (server : Server) : Action → Action → Prop where
  | refl : Alike server action action
  | receive : Alike server (.receive n bytes) (.receive n others)
  | read : (server.parseRequest payload).map JsonRpcRequest.withoutSlot =
      (server.parseRequest other).map JsonRpcRequest.withoutSlot → Alike server (.read n payload) (.read n other)
  | http : httpBody bytes = httpBody others → Alike server (.http bytes answers) (.http others answers)

theorem view_sets (agree : System.view one = System.view two) (same : Connection.view left = Connection.view right) :
    (one.sets n left).view = (two.sets n right).view := by
  have connections := congrFun (congrArg View.connections agree)
  simp only [System.view,View.mk.injEq] at agree connections ⊢
  refine ⟨agree.1,?_,agree.2.2⟩
  funext m
  by_cases here : m = n
  · simp [System.sets,here,same]
  · simpa [System.sets,here] using connections m

theorem view_connection (agree : System.view one = System.view two) (found : one.connections n = some left) :
    ∃ right, two.connections n = some right ∧ left.view = right.view := by
  have same := congrFun (congrArg View.connections agree) n
  simp only [System.view,found,Option.map_some] at same
  obtain ⟨right,there,equal⟩ := Option.map_eq_some_iff.mp same.symm
  exact ⟨right,there,equal.symm⟩

theorem view_absent (agree : System.view one = System.view two) (absent : one.connections n = none) :
    two.connections n = none := by
  have same := congrFun (congrArg View.connections agree) n
  simpa [System.view,absent] using same.symm

theorem view_reading (agree : System.view one = System.view two) (found : one.reading n = some left)
    (there : two.reading n = some right) : left.view = right.view := by
  obtain ⟨other,held,same⟩ := view_connection agree (reading_open found)
  rw [reading_open there] at held
  cases held
  exact same

-- A tool is told apart by its caller only if it writes, and then by the slot
-- that both sides have.
theorem view_call (agree : System.view one = System.view two) (trusted : caller = other ∨ tool ∉ effectfulTools) :
    (one.call server token answers tool arguments caller callerRole).1 =
        (two.call server token answers tool arguments other callerRole).1 ∧
      (one.call server token answers tool arguments caller callerRole).2.view =
        (two.call server token answers tool arguments other callerRole).2.view := by
  have team : one.team = two.team := congrArg View.team agree
  have connections := congrArg View.connections agree
  have http := congrArg View.http agree
  have removals : one.removals = two.removals := congrArg View.removals agree
  have decisions := congrArg View.decisions agree
  simp only [System.view] at connections http decisions
  rcases trusted with rfl | reading
  · simp [System.call,System.view,team,connections,http,removals,decisions,Entry.decision]
  · have same : dispatchTool server.toLowercase answers tool arguments caller callerRole =
        dispatchTool server.toLowercase answers tool arguments other callerRole := dispatch_any_caller reading
    have quiet : (perform (dispatchTool server.toLowercase answers tool arguments other callerRole) ⟨two.team,[]⟩).2 =
        ⟨two.team,[]⟩ := dispatch_reads_state reading
    simp [System.call,System.view,team,connections,http,removals,decisions,Entry.decision,same,quiet,removalsOf]

theorem view_responds (same : Connection.view left = Connection.view right) :
    Connection.view { left with calling := none, responses := left.responses ++ [response] } =
      Connection.view { right with calling := none, responses := right.responses ++ [response] } :=
  congrArg (fun c : Connection => { c with calling := none, responses := c.responses ++ [response] }) same

theorem view_called (agree : System.view one = System.view two) (token : presented = shown) (caller : slotId = other) :
    (one.call server presented answers tool arguments slotId callerRole).1 =
        (two.call server shown answers tool arguments other callerRole).1 ∧
      (one.call server presented answers tool arguments slotId callerRole).2.view =
        (two.call server shown answers tool arguments other callerRole).2.view := by
  subst token caller
  exact view_call agree (.inl rfl)

theorem view_removes (agree : System.view one = System.view two) :
    (one.removes index removal answers).view = (two.removes index removal answers).view := by
  have team : one.team = two.team := congrArg View.team agree
  have removals : one.removals = two.removals := congrArg View.removals agree
  have connections := congrArg View.connections agree
  have http := congrArg View.http agree
  have decisions := congrArg View.decisions agree
  simp only [System.view] at connections http decisions
  simp [System.removes,System.view,team,removals,connections,http,decisions,Entry.decision]

theorem handleHttp_body (server : Server) (same : httpBody bytes = httpBody others) :
    handleHttp server bytes = handleHttp server others ∨
    ∃ id tool arguments caller other, handleHttp server bytes = .call id tool arguments caller ∧
      handleHttp server others = .call id tool arguments other := by
  unfold handleHttp
  rw [same]
  cases server.parseValue (httpBody others) with
  | none => exact .inl rfl
  | some value =>
    dsimp only
    split
    · exact .inl rfl
    · exact .inl rfl
    · exact .inl rfl
    · exact .inr ⟨_,_,_,_,_,rfl,rfl⟩
    · exact .inl rfl

theorem view_http (agree : System.view one = System.view two) (same : responses = others) :
    System.view { one with http := responses } = System.view { two with http := others } := by
  show { one.view with http := responses } = { two.view with http := others }
  rw [agree,same]

theorem read_view (agree : System.view one = System.view two)
    (alike : (server.parseRequest payload).map JsonRpcRequest.withoutSlot =
      (server.parseRequest other).map JsonRpcRequest.withoutSlot)
    (left : step server one (.read n payload) = some next) (right : step server two (.read n other) = some final) :
    next.view = final.view := by
  obtain ⟨connection,rest,request,found,_,parsed,rfl⟩ := read_cases left
  obtain ⟨companion,leftover,question,there,_,understood,rfl⟩ := read_cases right
  rw [parsed,understood,Option.map_some,Option.map_some,Option.some.injEq] at alike
  have same := view_reading agree found there
  have team : one.team = two.team := congrArg View.team agree
  apply view_sets agree
  rw [handleRequest_view,handleRequest_view,← handleRequest_withoutSlot,alike,handleRequest_withoutSlot,team]
  exact congrArg (handleRequest server two.team · question) same

theorem http_view (agree : System.view one = System.view two) (body : httpBody bytes = httpBody others)
    (permitted : Permitted server one (.http bytes answers)) (left : step server one (.http bytes answers) = some next)
    (right : step server two (.http others answers) = some final) : next.view = final.view := by
  have http : one.http = two.http := congrArg View.http agree
  rcases http_cases left with ⟨response,answered,rfl⟩ | ⟨id,tool,arguments,caller,asked,rfl⟩
  · rcases http_cases right with ⟨reply,replied,rfl⟩ | ⟨id,tool,arguments,caller,called,rfl⟩
    · rcases handleHttp_body server body with same | ⟨_,_,_,_,_,call,_⟩
      · rw [same] at answered
        cases answered.symm.trans replied
        exact view_http agree (by rw [http])
      · simp [call,HttpOutcome.answer] at answered
    · rcases handleHttp_body server body with same | ⟨_,_,_,_,_,call,_⟩
      · simp [same,called,HttpOutcome.answer] at answered
      · simp [call,HttpOutcome.answer] at answered
  · have reads : tool ∉ effectfulTools := permitted tool (by rw [asked]; rfl)
    have counterpart : ∃ other, handleHttp server others = .call id tool arguments other := by
      rcases handleHttp_body server body with same | ⟨_,_,_,_,other,call,recalled⟩
      · exact ⟨caller,same ▸ asked⟩
      · cases asked.symm.trans call
        exact ⟨other,recalled⟩
    obtain ⟨other,recalled⟩ := counterpart
    rcases http_cases right with ⟨reply,replied,rfl⟩ | ⟨_,_,_,_,called,rfl⟩
    · simp [recalled,HttpOutcome.answer] at replied
    · cases recalled.symm.trans called
      obtain ⟨result,after⟩ := view_call agree (.inr reads)
      exact view_http after (by rw [http,result])

theorem step_view (agree : System.view one = System.view two) (alike : Alike server action counterpart)
    (permitted : Permitted server one action) (left : step server one action = some next)
    (right : step server two counterpart = some final) : next.view = final.view := by
  cases alike with
  | receive =>
    obtain ⟨connection,found,rfl⟩ := receive_cases left
    obtain ⟨companion,there,rfl⟩ := receive_cases right
    obtain ⟨other,held,same⟩ := view_connection agree found
    cases there.symm.trans held
    exact view_sets agree same
  | read same => exact read_view agree same left right
  | http body => exact http_view agree body permitted left right
  | refl =>
    cases action with
    | connect n =>
      obtain ⟨_,rfl⟩ := connect_cases left
      obtain ⟨_,rfl⟩ := connect_cases right
      exact view_sets agree rfl
    | receive n bytes =>
      obtain ⟨connection,found,rfl⟩ := receive_cases left
      obtain ⟨companion,there,rfl⟩ := receive_cases right
      obtain ⟨other,held,same⟩ := view_connection agree found
      cases there.symm.trans held
      exact view_sets agree same
    | read n payload => exact read_view agree rfl left right
    | dispatch n answers =>
      obtain ⟨connection,calling,found,running,rfl⟩ := dispatch_cases left
      obtain ⟨companion,recalling,there,rerunning,rfl⟩ := dispatch_cases right
      obtain ⟨other,held,same⟩ := view_connection agree found
      cases there.symm.trans held
      have calls : connection.calling = companion.calling := by simpa using congrArg Connection.calling same
      have token : connection.presented = companion.presented := by simpa using congrArg Connection.presented same
      have caller : connection.caller = companion.caller := by simpa using congrArg Connection.caller same
      rw [running,rerunning,Option.some.injEq] at calls
      subst calls
      apply view_sets (view_called agree token caller).2
      rw [(view_called agree token caller).1]
      exact view_responds same
    | reject n =>
      obtain ⟨connection,found,rfl⟩ := reject_cases left
      obtain ⟨companion,there,rfl⟩ := reject_cases right
      exact view_sets agree (congrArg (fun c => { c with closed := true }) (view_reading agree found there))
    | hangUp n =>
      obtain ⟨connection,found,rfl⟩ := hangUp_cases left
      obtain ⟨companion,there,rfl⟩ := hangUp_cases right
      exact view_sets agree (congrArg (fun c => { c with closed := true }) (view_reading agree found there))
    | http bytes answers => exact http_view agree rfl permitted left right
    | remove index answers =>
      obtain ⟨removal,found,rfl⟩ := remove_cases left
      obtain ⟨other,there,rfl⟩ := remove_cases right
      have removals : one.removals = two.removals := congrArg View.removals agree
      rw [removals] at found
      cases found.symm.trans there
      exact view_removes agree
    | elsewhere team =>
      cases left
      cases right
      show { one.view with team := team } = { two.view with team := team }
      rw [agree]

theorem forall₂_snoc {R : α → β → Prop} (related : List.Forall₂ R (earlier ++ [action]) counterparts) :
    ∃ front last, counterparts = front ++ [last] ∧ List.Forall₂ R earlier front ∧ R action last := by
  have size := related.length_eq
  refine ⟨counterparts.take earlier.length,?_⟩
  have fore := List.forall₂_take earlier.length related
  have rest := List.forall₂_drop earlier.length related
  rw [List.take_left] at fore
  rw [List.drop_left] at rest
  cases tail : counterparts.drop earlier.length with
  | nil => rw [tail] at rest; cases rest
  | cons last others =>
    rw [tail] at rest
    cases rest with
    | cons head none =>
      cases none
      exact ⟨last,by rw [← tail,List.take_append_drop],fore,head⟩

-- Both runs are the server's, from its start: what tells them apart is not
-- verified, so they end alike.
theorem runs_view (path : RunsWhere (step server) (Permitted server) origin actions system)
    (alike : List.Forall₂ (Alike server) actions counterparts)
    (counter : Runs (step server) origin counterparts final) : system.view = final.view := by
  induction path generalizing counterparts final with
  | nil =>
    cases alike
    rw [counter.nil_inv]
  | snoc prior permitted enabled ih =>
    obtain ⟨front,last,whole,fore,rest⟩ := forall₂_snoc alike
    subst whole
    obtain ⟨between,reached,taken⟩ := counter.snoc_inv
    exact step_view (ih fore reached) rest permitted enabled taken

end Unverified

theorem verified_callers_only (server : Server) (team : Team)
    (path : RunsWhere (step server) (Permitted server) (System.start team) actions system) :
    (∀ entry ∈ system.log, entry.Authorized server) ∧
      ∀ counterparts final, List.Forall₂ (Alike server) actions counterparts →
        Runs (step server) (System.start team) counterparts final →
        final.log.map Entry.decision = system.log.map Entry.decision := by
  have secured : Secured server system := path.invariant start_secured fun _ _ _ => Secured.step
  exact ⟨secured.log,fun counterparts final alike counter => congrArg View.decisions (runs_view path alike counter).symm⟩

-- A team of a lead and one teammate in an active run, and a token of the teammate.
def slotOf (slotId : String) (role : TeammateRole) : TeamAgent :=
  ⟨slotId,slotId,role,"conversation","claude","opus",none,none,none,none⟩

def pair : Team :=
  ⟨⟨"team","owner",[slotOf "lead" .lead,slotOf "helper" .teammate]⟩,[slotOf "lead" .lead,slotOf "helper" .teammate],true,
    some ⟨"owner",true⟩⟩

def granting : Answers := ⟨fun _ => none,fun _ => false,fun _ => none,fun _ => ("slot","chat"),fun _ _ => .ok "[]",fun _ _ => ""⟩

def ascii (pieces : List String) : List UInt8 := pieces.flatMap fun text => text.toList.map fun c => UInt8.ofNat c.toNat

def framed (payload : List UInt8) : List UInt8 := [0,0,0,UInt8.ofNat payload.length] ++ payload

def spawnBody : List String :=
  ["\x7b\"method\":\"tools/call\",","\"params\":\x7b\"name\":","\"team_spawn_agent\",","\"arguments\":\x7b","\"name\":\"Spy\"\x7d\x7d\x7d"]

def listBody : List String := ["\x7b\"method\":\"tools/call\",","\"params\":\x7b\"name\":","\"team_members\"\x7d\x7d"]

def handshake (slotId : String) : List UInt8 :=
  ascii ["\x7b\"jsonrpc\":\"2.0\",","\"id\":1,","\"method\":\"initialize\",","\"params\":\x7b\"auth_token\":","\"dG9rZW4=\",",
    "\"slot_id\":\"",slotId,"\"\x7d\x7d"]

def report : List UInt8 :=
  ascii ["\x7b\"jsonrpc\":\"2.0\",","\"id\":2,","\"method\":\"tools/call\",","\"params\":\x7b\"name\":","\"team_send_message\",",
    "\"arguments\":\x7b","\"to\":\"lead\",","\"message\":\"done\"\x7d\x7d\x7d"]

def httpRequest (slotId : String) (body : List String) : List UInt8 :=
  ascii (["POST / HTTP/1.1\r\n","X-Slot-Id: ",slotId,"\r\n\r\n"] ++ body)

-- The readers of the texts above.
def demo : Server where
  authToken := "secret"
  decrypt _ token := if token = "dG9rZW4=" then some "helper\nteam" else none
  parseRequest bytes :=
    if bytes = report then some ⟨some 2,"tools/call",some (.object [("name",.string "team_send_message"),
      ("arguments",.object [("to",.string "lead"),("message",.string "done")])])⟩
    else if bytes = handshake "helper" then some ⟨some 1,"initialize",
      some (.object [("auth_token",.string "dG9rZW4="),("slot_id",.string "helper")])⟩
    else if bytes = handshake "lead" then some ⟨some 1,"initialize",
      some (.object [("auth_token",.string "dG9rZW4="),("slot_id",.string "lead")])⟩
    else none
  parseValue text :=
    if text.toList = spawnBody.flatMap String.toList then some (.object [("method",.string "tools/call"),("params",.object
      [("name",.string "team_spawn_agent"),("arguments",.object [("name",.string "Spy")])])])
    else if text.toList = listBody.flatMap String.toList then some (.object [("method",.string "tools/call"),("params",.object
      [("name",.string "team_members")])])
    else none
  toLowercase text := String.ofList (text.toList.map Char.toLower)
  allToolDescriptors := .array []

-- Anyone who can reach the HTTP port and writes the lead's slot into a header
-- spawns an agent.
theorem spawned_by_header :
    ((exec (step demo) (System.start pair) [.http (httpRequest "lead" spawnBody) granting]).map fun system =>
      system.log.map fun entry => (entry.token,entry.caller,entry.tool,entry.effects)) =
    some [(none,"lead","team_spawn_agent",[.persistSpawnedAgent "owner" "Spy" "claude" "opus" none,
      .mailboxWrite "slot" "lead" .message
        "You have been spawned as a teammate. Read your mailbox and wait for instructions.",.pendingWake "slot"])] := by
  decide +kernel

theorem header_spawns_agent : ∃ system,
    exec (step demo) (System.start pair) [.http (httpRequest "lead" spawnBody) granting] = some system ∧
      ∃ entry ∈ system.log, entry.tool = "team_spawn_agent" ∧ entry.effects ≠ [] ∧ ¬entry.Authorized demo := by
  obtain ⟨system,reached,logged⟩ := Option.map_eq_some_iff.mp spawned_by_header
  obtain ⟨entry,only,fields⟩ := List.map_eq_singleton_iff.mp logged
  simp only [Prod.mk.injEq] at fields
  obtain ⟨token,_,tool,effects⟩ := fields
  have wrote : entry.effects ≠ [] := by simp [effects]
  refine ⟨system,reached,entry,by simp [only],tool,wrote,fun authorized => ?_⟩
  obtain ⟨⟨text,teamId,shown,_⟩,_⟩ := authorized wrote
  rw [token] at shown
  cases shown

-- The teammate's bridge reports to the lead, and someone lists the members,
-- whatever slot both of them say they are.
def reporting (slotId : String) : List Action :=
  [.connect 0,.receive 0 (framed (handshake slotId) ++ framed report),.read 0 (handshake slotId),.read 0 report,
    .dispatch 0 granting,.http (httpRequest slotId listBody) granting]

theorem reporting_effects (slotId : String) (known : slotId = "helper" ∨ slotId = "lead") :
    ((exec (step demo) (System.start pair) (reporting slotId)).map fun system =>
      system.log.map fun entry => (entry.tool,entry.effects)) =
    some [("team_send_message",[.mailboxWrite "lead" "helper" .message "done",.pendingWake "lead"]),("team_members",[])] := by
  rcases known with rfl | rfl <;> decide +kernel

theorem verified_callers_only_reporting : ∃ system final,
    exec (step demo) (System.start pair) (reporting "helper") = some system ∧
      exec (step demo) (System.start pair) (reporting "lead") = some final ∧
      final.log.map Entry.decision = system.log.map Entry.decision ∧
      ∃ entry ∈ system.log, entry.effects ≠ [] ∧ entry.Authorized demo := by
  obtain ⟨system,reached,logged⟩ := Option.map_eq_some_iff.mp (reporting_effects "helper" (.inl rfl))
  obtain ⟨final,met,_⟩ := Option.map_eq_some_iff.mp (reporting_effects "lead" (.inr rfl))
  have lists : (handleHttp demo (httpRequest "helper" listBody)).tool = some "team_members" := by decide
  have path : RunsWhere (step demo) (Permitted demo) (System.start pair) (reporting "helper") system := by
    refine .of_runs (exec_exact.mp reached) fun s action inside => ?_
    simp only [reporting,List.mem_cons,List.not_mem_nil,or_false] at inside
    rcases inside with rfl | rfl | rfl | rfl | rfl | rfl
    · trivial
    · trivial
    · trivial
    · trivial
    · trivial
    · intro tool called
      cases called.symm.trans lists
      decide
  have helper : demo.parseRequest (handshake "helper") = some ⟨some 1,"initialize",
      some (.object [("auth_token",.string "dG9rZW4="),("slot_id",.string "helper")])⟩ := by
    unfold demo
    dsimp only
    rw [if_neg (by decide),if_pos rfl]
  have lead : demo.parseRequest (handshake "lead") = some ⟨some 1,"initialize",
      some (.object [("auth_token",.string "dG9rZW4="),("slot_id",.string "lead")])⟩ := by
    unfold demo
    dsimp only
    rw [if_neg (by decide),if_neg (by decide),if_pos rfl]
  have alike : List.Forall₂ (Alike demo) (reporting "helper") (reporting "lead") := by
    refine .cons .refl (.cons .receive (.cons (.read ?_) (.cons .refl (.cons .refl (.cons (.http ?_) .nil)))))
    · rw [helper,lead]
      rfl
    · decide
  obtain ⟨authorized,unmoved⟩ := verified_callers_only demo pair path
  refine ⟨system,final,reached,met,unmoved _ final alike (exec_exact.mp met),?_⟩
  obtain ⟨entry,rest,whole,fields,_⟩ := List.map_eq_cons_iff.mp logged
  simp only [Prod.mk.injEq] at fields
  have inside : entry ∈ system.log := by simp [whole]
  exact ⟨entry,inside,by simp [fields],authorized entry inside⟩

end AlineaCopilot.TeamMcp
