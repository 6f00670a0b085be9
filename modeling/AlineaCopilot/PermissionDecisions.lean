import AlineaCopilot.PermissionRouter
open AlineaCopilot.KeyedMaps AlineaCopilot.RustText AlineaCopilot.TransitionRuns
open AlineaCopilot.TeamMcp (Json)

namespace AlineaCopilot.PermissionRouter

section AutoApproval

-- The server a request says its tool is of: in its raw input, else in the title.
def Names (request : PermissionRequest) (server : String) : Prop :=
  extractMcpServerFromRawInput request = some server ∨ extractMcpServerFromRawInput request = none ∧
    ∃ tool, tool ≠ "" ∧ request.title = some ("mcp__" ++ server ++ "__" ++ tool)

theorem prefixedTitle_exact {title server : String} (plain : '_' ∉ server.toList) (named : server ≠ "") :
    extractMcpServerFromPrefixedTitle title = some server ↔ ∃ tool, tool ≠ "" ∧ title = "mcp__" ++ server ++ "__" ++ tool := by
  unfold extractMcpServerFromPrefixedTitle
  constructor
  · intro extracted
    obtain ⟨rest,stripped,extracted⟩ := Option.bind_eq_some_iff.mp extracted
    obtain ⟨sides,found,extracted⟩ := Option.bind_eq_some_iff.mp extracted
    split at extracted
    · cases extracted
    · rename_i filled
      cases extracted
      rw [not_or] at filled
      refine ⟨String.ofList sides.2,fun empty => filled.2 (by simpa using congrArg String.toList empty),?_⟩
      rw [(stripPrefix_exact _ _ _).mp stripped]
      apply String.toList_injective
      have whole := cut_sound found
      simp only [String.toList_append,String.toList_ofList,List.append_assoc] at whole ⊢
      rw [whole]
  · rintro ⟨tool,filled,rfl⟩
    have stripped := (stripPrefix_exact "mcp__" ("mcp__" ++ server ++ "__" ++ tool) (server ++ "__" ++ tool)).mpr
      (by simp only [String.append_assoc])
    have found := cut_exact plain ['_'] tool.toList
    have whole : (server ++ "__" ++ tool).toList = server.toList ++ ['_','_'] ++ tool.toList := by
      simp only [String.toList_append]
      rfl
    have lists : server.toList ≠ [] ∧ tool.toList ≠ [] := by
      constructor
      · exact fun empty => named (String.toList_injective empty)
      · exact fun empty => filled (String.toList_injective empty)
    rw [stripped,Option.bind_some,whole]
    change Option.bind (cut ['_','_'] _) _ = _
    rw [found,Option.bind_some,if_neg (not_or.mpr lists),String.ofList_toList]

theorem extractMcpServerName_exact {request : PermissionRequest} {server : String} (plain : '_' ∉ server.toList)
    (named : server ≠ "") : extractMcpServerName request = some server ↔ Names request server := by
  unfold extractMcpServerName Names
  cases raw : extractMcpServerFromRawInput request with
  | some other => simp
  | none =>
    simp only [Option.none_or,Option.bind_eq_some_iff,prefixedTitle_exact plain named,reduceCtorEq,false_or,true_and]
    constructor
    · rintro ⟨title,there,tool,filled,rfl⟩
      exact ⟨tool,filled,there⟩
    · rintro ⟨tool,filled,there⟩
      exact ⟨_,there,tool,filled,rfl⟩

theorem plain_servers : ∀ server ∈ AUTO_APPROVE_MCP_SERVERS, '_' ∉ server.toList ∧ server ≠ "" := by decide

theorem autoApproveOptionId_exact {request : PermissionRequest} {optionId : String} :
    autoApproveOptionId request = some optionId ↔
      (∃ server ∈ AUTO_APPROVE_MCP_SERVERS, Names request server) ∧ selectAllowOptionId request = some optionId := by
  unfold autoApproveOptionId
  constructor
  · intro approved
    obtain ⟨server,named,approved⟩ := Option.bind_eq_some_iff.mp approved
    split at approved
    · rename_i member
      obtain ⟨plain,filled⟩ := plain_servers server member
      exact ⟨⟨server,member,(extractMcpServerName_exact plain filled).mp named⟩,approved⟩
    · cases approved
  · rintro ⟨⟨server,member,names⟩,allowed⟩
    obtain ⟨plain,filled⟩ := plain_servers server member
    rw [(extractMcpServerName_exact plain filled).mpr names,Option.bind_some,if_pos member,allowed]

end AutoApproval

-- What the responder of a request was sent.
def decided (w : World) (n : Nat) : List PermissionDecision := (w.decisions.filter (·.1 = n)).map Prod.snd

-- The routing task has it but has not registered it, or a call of `confirm` has
-- taken it out and has not sent the option on.
def InHand (w : World) (n : Nat) : Prop :=
  w.routing = .received n ∨ ∃ k callId optionId, w.callers k = .removed n callId optionId

def Listed (w : World) (n : Nat) : Prop :=
  ∃ callId pending, w.pendingPermissions.lookup callId = some pending ∧ pending.responder = n

structure Routed (render : Json → String) (w : World) : Prop where
  known : ∀ n, w.taken ≤ n → decided w n = [] ∧ ¬InHand w n ∧ ¬Listed w n
  entries : ∀ callId pending, w.pendingPermissions.lookup callId = some pending → ∃ request,
    w.arrived[pending.responder]? = some request ∧ request.toolCallId = callId ∧
    pending.confirmation = toConfirmation render request
  received : ∀ n, w.routing = .received n → ¬Listed w n ∧ ∀ k callId optionId, w.callers k ≠ .removed n callId optionId
  removed : ∀ k n callId optionId, w.callers k = .removed n callId optionId →
    ¬Listed w n ∧ ∀ j id option, w.callers j = .removed n id option → j = k
  unanswered : ∀ n, InHand w n ∨ Listed w n → decided w n = []
  answered : ∀ n, n < w.taken → ¬InHand w n → ¬Listed w n → ∃ decision, decided w n = [decision]

section Places
variable {render : Json → String} {w : World}

theorem decided_respond (w : World) (m n : Nat) (decision : PermissionDecision) :
    decided (w.respond m decision) n = decided w n ++ if m = n then [decision] else [] := by
  by_cases same : m = n
  · simp [decided,World.respond,same]
  · simp [decided,World.respond,same]

-- One responder stands under one call id.
theorem Routed.alone (routed : Routed render w) {one two : String} {first second : PendingPermission}
    (found : w.pendingPermissions.lookup one = some first) (also : w.pendingPermissions.lookup two = some second)
    (same : first.responder = second.responder) : one = two := by
  obtain ⟨request,there,rfl,-⟩ := routed.entries one first found
  obtain ⟨other,here,rfl,-⟩ := routed.entries two second also
  rw [same,here] at there
  cases there
  rfl

theorem listed_erase (routed : Routed render w) {callId : String} {pending : PendingPermission}
    (found : w.pendingPermissions.lookup callId = some pending) (next : World)
    (erased : next.pendingPermissions = w.pendingPermissions.erase callId) (n : Nat) :
    Listed next n ↔ Listed w n ∧ n ≠ pending.responder := by
  constructor
  · rintro ⟨id,entry,there,rfl⟩
    rw [erased,lookup_erase_eq] at there
    split at there
    · cases there
    · rename_i other
      exact ⟨⟨id,entry,there,rfl⟩,fun same => other (routed.alone there found same)⟩
  · rintro ⟨⟨id,entry,there,rfl⟩,other⟩
    refine ⟨id,entry,?_,rfl⟩
    rw [erased,lookup_erase_eq]
    split
    · rename_i here
      subst here
      cases found.symm.trans there
      exact absurd rfl other
    · exact there

end Places

section Steps
variable {render : Json → String} {w next : World} {m : Nat} {decision : PermissionDecision}

theorem Routed.below (routed : Routed render w) {n : Nat} (held : InHand w n ∨ Listed w n) : n < w.taken := by
  by_contra above
  obtain ⟨-,free,unlisted⟩ := routed.known n (Nat.le_of_not_lt above)
  exact held.elim free unlisted

-- A step that moves no request.
theorem Routed.same (routed : Routed render w) (taken : next.taken = w.taken)
    (arrived : ∀ (n : Nat) request, w.arrived[n]? = some request → next.arrived[n]? = some request)
    (lookups : ∀ callId, next.pendingPermissions.lookup callId = w.pendingPermissions.lookup callId)
    (received : ∀ n, next.routing = .received n ↔ w.routing = .received n)
    (removed : ∀ k n callId optionId, next.callers k = .removed n callId optionId ↔ w.callers k = .removed n callId optionId)
    (decisions : next.decisions = w.decisions) : Routed render next := by
  have hands : ∀ n, InHand next n ↔ InHand w n := by
    intro n
    simp only [InHand,received,removed]
  have lists : ∀ n, Listed next n ↔ Listed w n := by
    intro n
    simp only [Listed,lookups]
  have sent : ∀ n, decided next n = decided w n := by
    intro n
    simp only [decided,decisions]
  refine ⟨fun n above => ?_,fun id entry found => ?_,fun n at_hand => ?_,fun k n id option caller => ?_,fun n held => ?_,
    fun n below => ?_⟩
  · rw [sent,hands,lists]
    exact routed.known n (taken ▸ above)
  · rw [lookups] at found
    obtain ⟨request,there,rest⟩ := routed.entries id entry found
    exact ⟨request,arrived _ _ there,rest⟩
  · rw [lists]
    simp only [ne_eq,removed]
    exact routed.received n ((received n).mp at_hand)
  · rw [lists]
    simp only [removed]
    exact routed.removed k n id option ((removed k n id option).mp caller)
  · rw [hands,lists] at held
    rw [sent]
    exact routed.unanswered n held
  · rw [hands,lists,sent]
    exact routed.answered n (taken ▸ below)

-- A step that takes one request out of its place and answers it.
theorem Routed.answers (routed : Routed render w) (taken : next.taken = w.taken) (arrived : next.arrived = w.arrived)
    (lookups : ∀ callId pending, next.pendingPermissions.lookup callId = some pending →
      w.pendingPermissions.lookup callId = some pending)
    (received : ∀ n, next.routing = .received n → w.routing = .received n)
    (removed : ∀ k n callId optionId, next.callers k = .removed n callId optionId → w.callers k = .removed n callId optionId)
    (decisions : next.decisions = w.decisions ++ [(m,decision)])
    (was : InHand w m ∨ Listed w m) (gone : ¬InHand next m ∧ ¬Listed next m)
    (others : ∀ n, n ≠ m → InHand w n ∨ Listed w n → InHand next n ∨ Listed next n) : Routed render next := by
  have hands : ∀ n, InHand next n → InHand w n := by
    rintro n (at_hand | ⟨k,id,option,caller⟩)
    · exact .inl (received n at_hand)
    · exact .inr ⟨k,id,option,removed k n id option caller⟩
  have lists : ∀ n, Listed next n → Listed w n := by
    rintro n ⟨id,entry,found,same⟩
    exact ⟨id,entry,lookups id entry found,same⟩
  have sent : ∀ n, decided next n = decided w n ++ if m = n then [decision] else [] := by
    intro n
    rw [← decided_respond]
    simp only [decided,decisions,World.respond]
  have below := routed.below was
  refine ⟨fun n above => ?_,fun id entry found => ?_,fun n at_hand => ?_,fun k n id option caller => ?_,fun n held => ?_,
    fun n inside free unlisted => ?_⟩
  · rw [taken] at above
    obtain ⟨nothing,free,unlisted⟩ := routed.known n above
    have other : m ≠ n := Nat.ne_of_lt (Nat.lt_of_lt_of_le below above)
    refine ⟨?_,fun at_hand => free (hands n at_hand),fun listed => unlisted (lists n listed)⟩
    rw [sent,if_neg other,nothing]
    rfl
  · rw [arrived]
    exact routed.entries id entry (lookups id entry found)
  · obtain ⟨unlisted,uncalled⟩ := routed.received n (received n at_hand)
    exact ⟨fun listed => unlisted (lists n listed),fun k id option caller => uncalled k id option (removed k n id option caller)⟩
  · obtain ⟨unlisted,alone⟩ := routed.removed k n id option (removed k n id option caller)
    exact ⟨fun listed => unlisted (lists n listed),fun j id' option' caller' =>
      alone j id' option' (removed j n id' option' caller')⟩
  · have other : m ≠ n := by
      rintro rfl
      exact held.elim gone.1 gone.2
    rw [sent,if_neg other,List.append_nil]
    exact routed.unanswered n (held.imp (hands n) (lists n))
  · by_cases same : m = n
    · subst same
      exact ⟨decision,by rw [sent,if_pos rfl,routed.unanswered m was]; rfl⟩
    · have held : ¬(InHand w n ∨ Listed w n) := fun held => (others n (Ne.symm same) held).elim free unlisted
      rw [not_or] at held
      rw [sent,if_neg same,List.append_nil]
      exact routed.answered n (taken ▸ inside) held.1 held.2

theorem Routed.receive (routed : Routed render w) (free : w.routing = .receiving) :
    Routed render { w with taken := w.taken + 1, routing := .received w.taken } := by
  obtain ⟨nothing,idle,unlisted⟩ := routed.known w.taken (Nat.le_refl _)
  have uncalled : ∀ k id option, w.callers k ≠ .removed w.taken id option :=
    fun k id option caller => idle (.inr ⟨k,id,option,caller⟩)
  have hands : ∀ n, n ≠ w.taken → InHand { w with taken := w.taken + 1, routing := .received w.taken } n → InHand w n := by
    rintro n other (at_hand | called)
    · cases at_hand
      exact absurd rfl other
    · exact .inr called
  have kept : ∀ n, InHand w n → InHand { w with taken := w.taken + 1, routing := .received w.taken } n := by
    rintro n (at_hand | called)
    · rw [free] at at_hand
      cases at_hand
    · exact .inr called
  refine ⟨fun n above => ?_,routed.entries,fun n at_hand => ?_,routed.removed,fun n held => ?_,fun n inside free unlisted => ?_⟩
  · obtain ⟨none_sent,free,unlisted⟩ := routed.known n (Nat.le_of_succ_le above)
    exact ⟨none_sent,fun at_hand => free (hands n (Nat.ne_of_gt above) at_hand),unlisted⟩
  · cases at_hand
    exact ⟨unlisted,uncalled⟩
  · by_cases same : n = w.taken
    · subst same
      exact nothing
    · exact routed.unanswered n (held.imp (hands n same) id)
  · by_cases same : n = w.taken
    · subst same
      exact absurd (.inl rfl) free
    · exact routed.answered n (Nat.lt_of_le_of_ne (Nat.le_of_lt_succ inside) same) (fun at_hand => free (kept n at_hand)) unlisted

-- The entry under the call id goes over to the caller that removed it.
theorem Routed.confirm (routed : Routed render w) {k : Nat} {callId optionId : String} {pending : PendingPermission}
    (idle : w.callers k = .idle) (found : w.pendingPermissions.lookup callId = some pending) :
    Routed render { w with
      pendingPermissions := w.pendingPermissions.erase callId
      callers := Function.update w.callers k (.removed pending.responder callId optionId) } := by
  generalize after : ({ w with
    pendingPermissions := w.pendingPermissions.erase callId
    callers := Function.update w.callers k (.removed pending.responder callId optionId) } : World) = next
  have taken : next.taken = w.taken := by rw [← after]
  have arrived : next.arrived = w.arrived := by rw [← after]
  have routing : next.routing = w.routing := by rw [← after]
  have sent : ∀ n, decided next n = decided w n := by
    intro n
    rw [← after]
    rfl
  have lists := listed_erase routed found next (by rw [← after])
  have lookups : ∀ id entry, next.pendingPermissions.lookup id = some entry → w.pendingPermissions.lookup id = some entry := by
    intro id entry there
    rw [← after] at there
    simp only [lookup_erase_eq] at there
    split at there
    · cases there
    · exact there
  have mine : next.callers k = .removed pending.responder callId optionId := by
    rw [← after]
    simp
  have theirs : ∀ j, j ≠ k → next.callers j = w.callers j := by
    intro j other
    rw [← after]
    simp [other]
  have was : Listed w pending.responder := ⟨callId,pending,found,rfl⟩
  -- Nobody else has what was listed.
  have unheld : ∀ j id option, w.callers j ≠ .removed pending.responder id option :=
    fun j id option caller => (routed.removed j _ id option caller).1 was
  have hands : ∀ n, InHand next n → InHand w n ∨ n = pending.responder := by
    rintro n (at_hand | ⟨j,id,option,caller⟩)
    · exact .inl (.inl (routing ▸ at_hand))
    · by_cases here : j = k
      · subst here
        rw [mine] at caller
        cases caller
        exact .inr rfl
      · exact .inl (.inr ⟨j,id,option,(theirs j here).symm.trans caller⟩)
  have kept : ∀ n, InHand w n → InHand next n := by
    rintro n (at_hand | ⟨j,id,option,caller⟩)
    · exact .inl (routing.trans at_hand)
    · have here : j ≠ k := by
        rintro rfl
        rw [idle] at caller
        cases caller
      exact .inr ⟨j,id,option,(theirs j here).trans caller⟩
  refine ⟨fun n above => ?_,fun id entry there => ?_,fun n at_hand => ?_,fun j n id option caller => ?_,fun n held => ?_,
    fun n inside free unlisted => ?_⟩
  · rw [taken] at above
    obtain ⟨nothing,free,unlisted⟩ := routed.known n above
    refine ⟨(sent n).trans nothing,fun at_hand => ?_,fun listed => unlisted ((lists n).mp listed).1⟩
    rcases hands n at_hand with before | rfl
    · exact free before
    · exact unlisted was
  · rw [arrived]
    exact routed.entries id entry (lookups id entry there)
  · rw [routing] at at_hand
    obtain ⟨unlisted,uncalled⟩ := routed.received n at_hand
    refine ⟨fun listed => unlisted ((lists n).mp listed).1,fun j id option caller => ?_⟩
    by_cases here : j = k
    · subst here
      rw [mine] at caller
      cases caller
      exact unlisted was
    · exact uncalled j id option ((theirs j here).symm.trans caller)
  · by_cases here : j = k
    · subst here
      rw [mine] at caller
      cases caller
      refine ⟨fun listed => ((lists _).mp listed).2 rfl,fun i id' option' caller' => ?_⟩
      by_contra elsewhere
      exact unheld i id' option' ((theirs i elsewhere).symm.trans caller')
    · have before := (theirs j here).symm.trans caller
      obtain ⟨unlisted,alone⟩ := routed.removed j n id option before
      refine ⟨fun listed => unlisted ((lists n).mp listed).1,fun i id' option' caller' => ?_⟩
      by_cases also : i = k
      · subst also
        rw [mine] at caller'
        cases caller'
        exact absurd was unlisted
      · exact alone i id' option' ((theirs i also).symm.trans caller')
  · rw [sent]
    rcases held with at_hand | listed
    · rcases hands n at_hand with before | rfl
      · exact routed.unanswered n (.inl before)
      · exact routed.unanswered _ (.inr was)
    · exact routed.unanswered n (.inr ((lists n).mp listed).1)
  · rw [sent]
    have other : n ≠ pending.responder := by
      rintro rfl
      exact free (.inr ⟨k,callId,optionId,mine⟩)
    exact routed.answered n (taken ▸ inside) (fun at_hand => free (kept n at_hand))
      fun listed => unlisted ((lists n).mpr ⟨listed,other⟩)

-- What the routing task has is listed under a call id that is free.
theorem Routed.lists (routed : Routed render w) {n : Nat} {request : PermissionRequest} (at_hand : w.routing = .received n)
    (there : w.arrived[n]? = some request) (absent : w.pendingPermissions.lookup request.toolCallId = none) :
    Routed render { w with
      pendingPermissions := w.pendingPermissions.insert request.toolCallId ⟨n,toConfirmation render request⟩
      routing := .publishing n } := by
  generalize after : ({ w with
    pendingPermissions := w.pendingPermissions.insert request.toolCallId ⟨n,toConfirmation render request⟩
    routing := .publishing n } : World) = next
  have taken : next.taken = w.taken := by rw [← after]
  have arrived : next.arrived = w.arrived := by rw [← after]
  have callers : next.callers = w.callers := by rw [← after]
  have routing : next.routing = .publishing n := by rw [← after]
  have sent : ∀ i, decided next i = decided w i := by
    intro i
    rw [← after]
    rfl
  have lookups : ∀ id entry, next.pendingPermissions.lookup id = some entry ↔
      (id = request.toolCallId ∧ entry = ⟨n,toConfirmation render request⟩) ∨ w.pendingPermissions.lookup id = some entry := by
    intro id entry
    rw [← after]
    simp only [lookup_insert_eq]
    split
    · rename_i here
      subst here
      rw [absent]
      simp [eq_comm]
    · rename_i other
      simp [other]
  have listing : ∀ i, Listed next i ↔ i = n ∨ Listed w i := by
    intro i
    constructor
    · rintro ⟨id,entry,found,rfl⟩
      rcases (lookups id entry).mp found with ⟨rfl,rfl⟩ | before
      · exact .inl rfl
      · exact .inr ⟨id,entry,before,rfl⟩
    · rintro (rfl | ⟨id,entry,found,rfl⟩)
      · exact ⟨_,_,(lookups _ _).mpr (.inl ⟨rfl,rfl⟩),rfl⟩
      · exact ⟨id,entry,(lookups id entry).mpr (.inr found),rfl⟩
  obtain ⟨unlisted,uncalled⟩ := routed.received n at_hand
  have hands : ∀ i, InHand next i → InHand w i ∧ i ≠ n := by
    rintro i (received | ⟨k,id,option,caller⟩)
    · rw [routing] at received
      cases received
    · rw [callers] at caller
      exact ⟨.inr ⟨k,id,option,caller⟩,fun same => uncalled k id option (same ▸ caller)⟩
  have kept : ∀ i, i ≠ n → InHand w i → InHand next i := by
    rintro i other (received | ⟨k,id,option,caller⟩)
    · rw [at_hand] at received
      cases received
      exact absurd rfl other
    · exact .inr ⟨k,id,option,by rw [callers]; exact caller⟩
  have held : InHand w n := .inl at_hand
  refine ⟨fun i above => ?_,fun id entry found => ?_,fun i received => ?_,fun k i id option caller => ?_,fun i place => ?_,
    fun i inside free missing => ?_⟩
  · rw [taken] at above
    obtain ⟨nothing,free,missing⟩ := routed.known i above
    have other : i ≠ n := by
      rintro rfl
      exact free held
    exact ⟨(sent i).trans nothing,fun at_hand => free (hands i at_hand).1,fun listed =>
      missing (((listing i).mp listed).resolve_left other)⟩
  · rw [arrived]
    rcases (lookups id entry).mp found with ⟨rfl,rfl⟩ | before
    · exact ⟨request,there,rfl,rfl⟩
    · exact routed.entries id entry before
  · rw [routing] at received
    cases received
  · rw [callers] at caller ⊢
    obtain ⟨missing,alone⟩ := routed.removed k i id option caller
    refine ⟨fun listed => ?_,alone⟩
    rcases (listing i).mp listed with rfl | before
    · exact uncalled k id option caller
    · exact missing before
  · rw [sent]
    rcases place with at_hand | listed
    · exact routed.unanswered i (.inl (hands i at_hand).1)
    · rcases (listing i).mp listed with rfl | before
      · exact routed.unanswered i (.inl held)
      · exact routed.unanswered i (.inr before)
  · rw [sent]
    have other : i ≠ n := fun same => missing ((listing i).mpr (.inl same))
    exact routed.answered i (taken ▸ inside) (fun at_hand => free (kept i other at_hand))
      fun listed => missing ((listing i).mpr (.inr listed))

theorem Routed.registers (routed : Routed render w) {n : Nat} {request : PermissionRequest} (at_hand : w.routing = .received n)
    (there : w.arrived[n]? = some request) :
    Routed render { w.register request.toolCallId ⟨n,toConfirmation render request⟩ with routing := .publishing n } := by
  unfold World.register
  simp only
  split
  · rename_i previous found
    let erased := { w with pendingPermissions := w.pendingPermissions.erase request.toolCallId }
    have lists := listed_erase routed found (erased.respond previous.responder .cancelled) rfl
    have was : Listed w previous.responder := ⟨request.toolCallId,previous,found,rfl⟩
    have apart : ¬InHand w previous.responder := by
      rintro (received | ⟨k,id,option,caller⟩)
      · exact (routed.received _ received).1 was
      · exact (routed.removed k _ id option caller).1 was
    -- The one replaced is answered first, which leaves its call id free.
    have answered : Routed render (erased.respond previous.responder .cancelled) := by
      refine routed.answers rfl rfl (fun id entry after => ?_) (fun _ received => received) (fun _ _ _ _ caller => caller) rfl
        (.inr was) ⟨apart,fun listed => ((lists _).mp listed).2 rfl⟩ fun i other place => ?_
      · change (w.pendingPermissions.erase _).lookup id = some entry at after
        rw [lookup_erase_eq] at after
        split at after
        · cases after
        · exact after
      · exact place.imp (fun at_hand => at_hand) fun listed => (lists i).mpr ⟨listed,other⟩
    have free : (erased.respond previous.responder .cancelled).pendingPermissions.lookup request.toolCallId = none := by
      change (w.pendingPermissions.erase request.toolCallId).lookup request.toolCallId = none
      rw [lookup_erase_eq,if_pos rfl]
    refine (answered.lists at_hand there free).same rfl (fun _ _ same => same) (fun id => ?_) (fun _ => Iff.rfl)
      (fun _ _ _ _ => Iff.rfl) rfl
    change (w.pendingPermissions.insert request.toolCallId _).lookup id =
      ((w.pendingPermissions.erase request.toolCallId).insert request.toolCallId _).lookup id
    rw [lookup_insert_eq,lookup_insert_eq,lookup_erase_eq]
    split
    · rfl
    · rfl
  · rename_i absent
    exact routed.lists at_hand there absent

theorem decided_cancelAll (routed : Routed render w) (n : Nat) :
    (Listed w n → decided w.cancelAll n = [.cancelled]) ∧ (¬Listed w n → decided w.cancelAll n = decided w n) := by
  have sent : decided w.cancelAll n =
      decided w n ++ ((values w.pendingPermissions).filter (·.responder = n)).map fun _ => PermissionDecision.cancelled := by
    simp [decided,World.cancelAll,List.filter_map,Function.comp_def]
  constructor
  · rintro ⟨id,entry,found,rfl⟩
    have alone : ∀ j other, w.pendingPermissions.lookup j = some other →
        decide (other.responder = entry.responder) = true → j = id :=
      fun j other there same => routed.alone there found (of_decide_eq_true same)
    rw [sent,filter_values_single w.pendingPermissions _ found (decide_eq_true rfl) alone,
      routed.unanswered _ (.inr ⟨id,entry,found,rfl⟩)]
    rfl
  · intro unlisted
    have fails : ∀ id entry, w.pendingPermissions.lookup id = some entry → decide (entry.responder = n) = false :=
      fun id entry found => decide_eq_false fun same => unlisted ⟨id,entry,found,same⟩
    rw [sent,filter_values_nil w.pendingPermissions _ fails,List.map_nil,List.append_nil]

theorem Routed.cancelAll (routed : Routed render w) : Routed render w.cancelAll := by
  have empty : ∀ n, ¬Listed w.cancelAll n := by
    rintro n ⟨id,entry,found,-⟩
    cases found
  refine ⟨fun n above => ?_,fun id entry found => ?_,fun n at_hand => ⟨empty n,(routed.received n at_hand).2⟩,
    fun k n id option caller => ⟨empty n,(routed.removed k n id option caller).2⟩,fun n held => ?_,
    fun n inside free _ => ?_⟩
  · obtain ⟨nothing,free,unlisted⟩ := routed.known n above
    exact ⟨((decided_cancelAll routed n).2 unlisted).trans nothing,free,empty n⟩
  · cases found
  · have at_hand : InHand w n := held.resolve_right (empty n)
    have unlisted : ¬Listed w n := by
      rcases at_hand with received | ⟨k,id,option,caller⟩
      · exact (routed.received n received).1
      · exact (routed.removed k n id option caller).1
    exact ((decided_cancelAll routed n).2 unlisted).trans (routed.unanswered n (.inl at_hand))
  · by_cases listed : Listed w n
    · exact ⟨_,(decided_cancelAll routed n).1 listed⟩
    · rw [(decided_cancelAll routed n).2 listed]
      exact routed.answered n inside free listed

theorem Routed.step (routed : Routed render w) {action : Action} (enabled : step render w action = some next) :
    Routed render next := by
  cases action with
  | arrive request =>
    cases enabled
    refine routed.same rfl (fun n request there => ?_) (fun _ => rfl) (fun _ => Iff.rfl) (fun _ _ _ _ => Iff.rfl) rfl
    exact (List.getElem?_append_left (List.getElem?_eq_some_iff.mp there).1).trans there
  | receive =>
    simp only [PermissionRouter.step] at enabled
    split at enabled
    · rename_i ready
      cases enabled
      exact routed.receive ready.1
    · cases enabled
  | route =>
    simp only [PermissionRouter.step] at enabled
    split at enabled
    · rename_i n at_hand
      obtain ⟨request,there,rfl⟩ := Option.map_eq_some_iff.mp enabled
      split
      · obtain ⟨unlisted,uncalled⟩ := routed.received n at_hand
        refine routed.answers rfl rfl (fun _ _ found => found) nofun (fun _ _ _ _ caller => caller) rfl (.inl (.inl at_hand))
          ⟨?_,unlisted⟩ fun i other => ?_
        · rintro (received | ⟨k,id,option,caller⟩)
          · cases received
          · exact uncalled k id option caller
        · rintro ((received | called) | listed)
          · rw [at_hand] at received
            cases received
            exact absurd rfl other
          · exact .inl (.inr called)
          · exact .inr listed
      · exact routed.registers at_hand there
    · cases enabled
  | publish heard =>
    simp only [PermissionRouter.step] at enabled
    split at enabled
    · rename_i n publishing
      cases enabled
      refine routed.same rfl (fun _ _ there => there) (fun _ => rfl) (fun i => ?_) (fun _ _ _ _ => Iff.rfl) rfl
      rw [publishing]
      cases heard with
      | true => exact ⟨nofun,nofun⟩
      | false => exact ⟨nofun,nofun⟩
    · cases enabled
  | withdraw =>
    simp only [PermissionRouter.step] at enabled
    split at enabled
    · rename_i n unsent
      obtain ⟨request,there,rfl⟩ := Option.map_eq_some_iff.mp enabled
      split
      · rename_i pending found
        let rest := { w with
          pendingPermissions := w.pendingPermissions.erase request.toolCallId
          routing := .receiving }
        have lists := listed_erase routed found (rest.respond pending.responder .cancelled) rfl
        have was : Listed w pending.responder := ⟨request.toolCallId,pending,found,rfl⟩
        refine routed.answers rfl rfl (fun id entry after => ?_) nofun (fun _ _ _ _ caller => caller) rfl (.inr was)
          ⟨?_,fun listed => ((lists _).mp listed).2 rfl⟩ fun i other => ?_
        · change (w.pendingPermissions.erase _).lookup id = some entry at after
          rw [lookup_erase_eq] at after
          split at after
          · cases after
          · exact after
        · rintro (received | ⟨k,id,option,caller⟩)
          · cases received
          · exact (routed.removed k _ id option caller).1 was
        · rintro ((received | called) | listed)
          · rw [unsent] at received
            cases received
          · exact .inl (.inr called)
          · exact .inr ((lists i).mpr ⟨listed,other⟩)
      · rename_i absent
        refine routed.same rfl (fun _ _ there => there) (fun id => ?_) (fun i => ?_) (fun _ _ _ _ => Iff.rfl) rfl
        · rw [lookup_erase_eq]
          split
          · rename_i here
            rw [here,absent]
          · rfl
        · rw [unsent]
          exact ⟨nofun,nofun⟩
    · cases enabled
  | confirm k callId optionId =>
    simp only [PermissionRouter.step] at enabled
    split at enabled
    · rename_i idle
      split at enabled
      · cases enabled
        refine routed.same rfl (fun _ _ there => there) (fun _ => rfl) (fun _ => Iff.rfl) (fun j n id option => ?_) rfl
        by_cases here : j = k
        · subst here
          simp [idle]
        · simp [here]
      · rename_i pending found
        cases enabled
        exact routed.confirm idle found
    · cases enabled
  | deliver k =>
    simp only [PermissionRouter.step] at enabled
    split at enabled
    · rename_i n callId optionId holds
      cases enabled
      obtain ⟨unlisted,alone⟩ := routed.removed k n callId optionId holds
      have theirs : ∀ {j m id option}, Function.update w.callers k (.over (if w.hungUp n then
          .error s!"Pending ACP permission expired: {callId}" else .ok ())) j = .removed m id option →
          j ≠ k ∧ w.callers j = .removed m id option := by
        intro j m id option caller
        by_cases here : j = k
        · subst here
          simp at caller
        · rw [Function.update_of_ne here] at caller
          exact ⟨here,caller⟩
      refine routed.answers rfl rfl (fun _ _ found => found) (fun _ received => received) (fun _ _ _ _ caller => (theirs caller).2)
        rfl (.inl (.inr ⟨k,callId,optionId,holds⟩)) ⟨?_,unlisted⟩ fun i other => ?_
      · rintro (received | ⟨j,id,option,caller⟩)
        · exact (routed.received n received).2 k callId optionId holds
        · exact (theirs caller).1 (alone j id option (theirs caller).2)
      · rintro ((received | ⟨j,id,option,caller⟩) | listed)
        · exact .inl (.inl received)
        · have elsewhere : j ≠ k := by
            rintro rfl
            rw [holds] at caller
            cases caller
            exact other rfl
          exact .inl (.inr ⟨j,id,option,(Function.update_of_ne elsewhere _ _).trans caller⟩)
        · exact .inr listed
    · cases enabled
  | hangUp n =>
    cases enabled
    exact routed.same rfl (fun _ _ there => there) (fun _ => rfl) (fun _ => Iff.rfl) (fun _ _ _ _ => Iff.rfl) rfl
  | setClosing =>
    cases enabled
    exact routed.same rfl (fun _ _ there => there) (fun _ => rfl) (fun _ => Iff.rfl) (fun _ _ _ _ => Iff.rfl) rfl
  | cancelAll =>
    cases enabled
    exact routed.cancelAll

end Steps

section Choices
variable {render : Json → String} {w next final : World} {actions : List Action}

-- A call of `confirm` with this option found this request under its call id.
def Chosen (render : Json → String) (actions : List Action) (n : Nat) (optionId : String) : Prop :=
  ∃ earlier between k callId pending, earlier ++ [.confirm k callId optionId] <+: actions ∧
    Runs (step render) start earlier between ∧ between.pendingPermissions.lookup callId = some pending ∧ pending.responder = n

def Approved (w : World) (n : Nat) (optionId : String) : Prop :=
  ∃ request, w.arrived[n]? = some request ∧ autoApproveOptionId request = some optionId

theorem Chosen.later {n : Nat} {optionId : String} (chosen : Chosen render actions n optionId) (rest : List Action) :
    Chosen render (actions ++ rest) n optionId := by
  obtain ⟨earlier,between,k,callId,pending,inside,prior,found⟩ := chosen
  exact ⟨earlier,between,k,callId,pending,inside.trans (List.prefix_append _ _),prior,found⟩

theorem register_decisions (w : World) (callId : String) (pending : PendingPermission) {n : Nat} {optionId : String}
    (sent : (n,.selected optionId) ∈ (w.register callId pending).decisions) : (n,.selected optionId) ∈ w.decisions := by
  unfold World.register at sent
  simp only at sent
  split at sent
  · simpa [World.respond] using sent
  · exact sent

-- Options come from approvals and from calls of `confirm`.
theorem selected_step {action : Action} (enabled : step render w action = some next) {n : Nat} {optionId : String}
    (sent : (n,.selected optionId) ∈ next.decisions) : (n,.selected optionId) ∈ w.decisions ∨ Approved w n optionId ∨
      ∃ k callId, w.callers k = .removed n callId optionId := by
  cases action with
  | receive =>
    simp only [step] at enabled
    split at enabled
    · cases enabled
      exact .inl sent
    · cases enabled
  | route =>
    simp only [step] at enabled
    split at enabled
    · rename_i m at_hand
      obtain ⟨request,there,rfl⟩ := Option.map_eq_some_iff.mp enabled
      split at sent
      · rename_i option approved
        rcases List.mem_append.mp sent with before | new
        · exact .inl before
        · cases List.mem_singleton.mp new
          exact .inr (.inl ⟨request,there,approved⟩)
      · exact .inl (register_decisions w _ _ sent)
    · cases enabled
  | publish heard =>
    simp only [step] at enabled
    split at enabled
    · cases enabled
      exact .inl sent
    · cases enabled
  | withdraw =>
    simp only [step] at enabled
    split at enabled
    · obtain ⟨request,there,rfl⟩ := Option.map_eq_some_iff.mp enabled
      split at sent
      · exact .inl (by simpa [World.respond] using sent)
      · exact .inl sent
    · cases enabled
  | confirm k callId option =>
    simp only [step] at enabled
    split at enabled
    · split at enabled
      · cases enabled
        exact .inl sent
      · cases enabled
        exact .inl sent
    · cases enabled
  | deliver k =>
    simp only [step] at enabled
    split at enabled
    · rename_i m callId option holds
      cases enabled
      rcases List.mem_append.mp sent with before | new
      · exact .inl before
      · cases List.mem_singleton.mp new
        exact .inr (.inr ⟨k,callId,holds⟩)
    · cases enabled
  | cancelAll =>
    cases enabled
    rcases List.mem_append.mp sent with before | new
    · exact .inl before
    · obtain ⟨pending,-,same⟩ := List.mem_map.mp new
      cases same
  | arrive request | hangUp m | setClosing =>
    cases enabled
    exact .inl sent

theorem removed_step {action : Action} (enabled : step render w action = some next) {k n : Nat} {callId optionId : String}
    (holds : next.callers k = .removed n callId optionId) : w.callers k = .removed n callId optionId ∨
      action = .confirm k callId optionId ∧ ∃ pending, w.pendingPermissions.lookup callId = some pending ∧ pending.responder = n := by
  cases action with
  | receive =>
    simp only [step] at enabled
    split at enabled
    · cases enabled
      exact .inl holds
    · cases enabled
  | route =>
    simp only [step] at enabled
    split at enabled
    · obtain ⟨request,there,rfl⟩ := Option.map_eq_some_iff.mp enabled
      split at holds
      · exact .inl holds
      · simp only [World.register] at holds
        split at holds
        · exact .inl holds
        · exact .inl holds
    · cases enabled
  | publish heard =>
    simp only [step] at enabled
    split at enabled
    · cases enabled
      exact .inl holds
    · cases enabled
  | withdraw =>
    simp only [step] at enabled
    split at enabled
    · obtain ⟨request,there,rfl⟩ := Option.map_eq_some_iff.mp enabled
      split at holds
      · exact .inl holds
      · exact .inl holds
    · cases enabled
  | confirm j id option =>
    simp only [step] at enabled
    split at enabled
    · split at enabled
      · cases enabled
        by_cases here : k = j
        · subst here
          simp at holds
        · exact .inl (by simpa [here] using holds)
      · rename_i pending found
        cases enabled
        by_cases here : k = j
        · subst here
          simp only [Function.update_self] at holds
          cases holds
          exact .inr ⟨rfl,pending,found,rfl⟩
        · exact .inl (by simpa [here] using holds)
    · cases enabled
  | deliver j =>
    simp only [step] at enabled
    split at enabled
    · cases enabled
      by_cases here : k = j
      · subst here
        simp at holds
      · exact .inl (by simpa [here] using holds)
    · cases enabled
  | arrive request | hangUp m | setClosing | cancelAll =>
    cases enabled
    exact .inl holds

theorem arrived_step {action : Action} (enabled : step render w action = some next) : w.arrived <+: next.arrived := by
  cases action with
  | arrive request =>
    cases enabled
    exact List.prefix_append _ _
  | receive =>
    simp only [step] at enabled
    split at enabled <;> cases enabled
    exact List.prefix_refl _
  | route =>
    simp only [step] at enabled
    split at enabled
    · obtain ⟨request,there,rfl⟩ := Option.map_eq_some_iff.mp enabled
      split
      · exact List.prefix_refl _
      · simp only [World.register]
        split
        · exact List.prefix_refl _
        · exact List.prefix_refl _
    · cases enabled
  | publish heard =>
    simp only [step] at enabled
    split at enabled <;> cases enabled
    exact List.prefix_refl _
  | withdraw =>
    simp only [step] at enabled
    split at enabled
    · obtain ⟨request,there,rfl⟩ := Option.map_eq_some_iff.mp enabled
      split
      · exact List.prefix_refl _
      · exact List.prefix_refl _
    · cases enabled
  | confirm j id option =>
    simp only [step] at enabled
    split at enabled
    · split at enabled <;> cases enabled
      · exact List.prefix_refl _
      · exact List.prefix_refl _
    · cases enabled
  | deliver j =>
    simp only [step] at enabled
    split at enabled <;> cases enabled
    exact List.prefix_refl _
  | hangUp m | setClosing | cancelAll =>
    cases enabled
    exact List.prefix_refl _

theorem Approved.step {n : Nat} {optionId : String} (approved : Approved w n optionId) {action : Action}
    (enabled : PermissionRouter.step render w action = some next) : Approved next n optionId := by
  obtain ⟨request,there,allowed⟩ := approved
  obtain ⟨rest,same⟩ := arrived_step enabled
  refine ⟨request,?_,allowed⟩
  rw [← same,List.getElem?_append_left (List.getElem?_eq_some_iff.mp there).1]
  exact there

theorem selected_run (path : Runs (step render) start actions final) :
    (∀ n optionId, (n,.selected optionId) ∈ final.decisions → Chosen render actions n optionId ∨ Approved final n optionId) ∧
    ∀ k n callId optionId, final.callers k = .removed n callId optionId → Chosen render actions n optionId := by
  generalize origin : start = first at path
  induction path with
  | nil =>
    subst origin
    exact ⟨fun n optionId sent => absurd sent List.not_mem_nil,fun k n callId optionId => nofun⟩
  | @snoc earlier middle action after prior enabled ih =>
    subst origin
    obtain ⟨selected,removed⟩ := ih
    refine ⟨fun n optionId sent => ?_,fun k n callId optionId holds => ?_⟩
    · rcases selected_step enabled sent with before | approved | ⟨k,callId,holds⟩
      · exact (selected n optionId before).imp (·.later _) (·.step enabled)
      · exact .inr (approved.step enabled)
      · exact .inl ((removed k n callId optionId holds).later _)
    · rcases removed_step enabled holds with before | ⟨rfl,pending,found,same⟩
      · exact (removed k n callId optionId before).later _
      · exact ⟨earlier,middle,k,callId,pending,List.prefix_refl _,prior,found,same⟩

end Choices

section Runs
variable {render : Json → String} {actions : List Action} {final : World}

theorem routed_start (render : Json → String) : Routed render start := by
  have free : ∀ n, ¬InHand start n := by
    rintro n (received | ⟨k,id,option,caller⟩)
    · cases received
    · cases caller
  have unlisted : ∀ n, ¬Listed start n := by
    rintro n ⟨id,entry,found,-⟩
    cases found
  refine ⟨fun n _ => ⟨rfl,free n,unlisted n⟩,fun id entry found => ?_,fun n => nofun,fun k n id option => nofun,fun n _ => rfl,
    fun n below => absurd below (Nat.not_lt_zero n)⟩
  cases found

theorem routed_run (path : Runs (step render) start actions final) : Routed render final :=
  path.invariant (routed_start render) fun _ _ _ routed enabled => routed.step enabled

-- A request that is taken is in a call's hands, or listed as what it is, or
-- answered once; options go to what was listed for them, and to no other
-- request unless it names one of the two servers; and `cancel_all` answers
-- whatever is listed.
theorem requests_answered_once (path : Runs (step render) start actions final) :
    (∀ n, n < final.taken →
      InHand final n ∧ decided final n = [] ∧ ¬Listed final n ∨
      (decided final n = [] ∧ ¬InHand final n ∧ ∃ request, final.arrived[n]? = some request ∧
        final.pendingPermissions.lookup request.toolCallId = some ⟨n,toConfirmation render request⟩ ∧
        toConfirmation render request ∈ final.getConfirmations) ∨
      (∃ decision, decided final n = [decision]) ∧ ¬InHand final n ∧ ¬Listed final n) ∧
    (∀ n optionId, .selected optionId ∈ decided final n → Chosen render actions n optionId ∨
      ∃ request server, final.arrived[n]? = some request ∧ server ∈ AUTO_APPROVE_MCP_SERVERS ∧ Names request server ∧
        selectAllowOptionId request = some optionId) ∧
    ∀ earlier between after, earlier ++ [.cancelAll] <+: actions → Runs (step render) start earlier between →
      step render between .cancelAll = some after →
      after.getConfirmations = [] ∧ ∀ n, Listed between n → decided after n = [.cancelled] := by
  have routed := routed_run path
  refine ⟨fun n below => ?_,fun n optionId sent => ?_,fun earlier between after inside prior enabled => ?_⟩
  · by_cases listed : Listed final n
    · refine .inr (.inl ⟨routed.unanswered n (.inr listed),?_,?_⟩)
      · rintro (received | ⟨k,id,option,caller⟩)
        · exact (routed.received n received).1 listed
        · exact (routed.removed k n id option caller).1 listed
      · obtain ⟨id,⟨responder,confirmation⟩,found,rfl⟩ := listed
        obtain ⟨request,there,rfl,rfl⟩ := routed.entries id _ found
        exact ⟨request,there,found,List.mem_map.mpr ⟨_,(mem_values _).mpr ⟨_,found⟩,rfl⟩⟩
    · by_cases held : InHand final n
      · exact .inl ⟨held,routed.unanswered n (.inl held),listed⟩
      · exact .inr (.inr ⟨routed.answered n below held listed,held,listed⟩)
  · obtain ⟨⟨m,decision⟩,member,same⟩ := List.mem_map.mp sent
    obtain ⟨inside,at_n⟩ := List.mem_filter.mp member
    cases same
    cases of_decide_eq_true at_n
    refine ((selected_run path).1 m optionId inside).imp_right ?_
    rintro ⟨request,there,approved⟩
    obtain ⟨⟨server,member,names⟩,allowed⟩ := autoApproveOptionId_exact.mp approved
    exact ⟨request,server,there,member,names,allowed⟩
  · cases enabled
    exact ⟨rfl,fun n listed => (decided_cancelAll (routed_run prior) n).1 listed⟩

section Examples

def edit (callId : String) : PermissionRequest := ⟨callId,some "Edit",some .edit,none,[⟨"yes","Allow",.allowOnce⟩]⟩

-- A call id used twice, the second request confirmed; a third one cancelled.
def reusedId : List Action := [.arrive (edit "t1"),.receive,.route,.publish true,.arrive (edit "t1"),.receive,.route,.publish true,
  .confirm 0 "t1" "yes",.deliver 0,.arrive (edit "t2"),.receive,.route,.publish true]

theorem requests_answered_once_reused : ∃ final, Runs (step fun _ => "") start (reusedId ++ [.cancelAll]) final ∧
    final.decisions = [(0,.cancelled),(1,.selected "yes"),(2,.cancelled)] ∧
    (∃ decision, decided final 1 = [decision]) ∧ Chosen (fun _ => "") (reusedId ++ [.cancelAll]) 1 "yes" ∧
    final.getConfirmations = [] := by
  have runs : ∃ between final, Runs (step fun _ => "") start reusedId between ∧
      step (fun _ => "") between .cancelAll = some final ∧ final.taken = 3 ∧
      final.decisions = [(0,.cancelled),(1,.selected "yes"),(2,.cancelled)] ∧ final.arrived[1]? = some (edit "t1") :=
    ⟨_,_,exec_exact.mp rfl,rfl,rfl,rfl,rfl⟩
  obtain ⟨between,final,prior,enabled,taken,decisions,there⟩ := runs
  have path := prior.snoc enabled
  obtain ⟨places,choices,cancelled⟩ := requests_answered_once path
  have sent : decided final 1 = [.selected "yes"] := by
    simp [decided,decisions]
  have once : ∃ decision, decided final 1 = [decision] := by
    rcases places 1 (by omega) with ⟨-,nothing,-⟩ | ⟨nothing,-,-⟩ | ⟨once,-,-⟩
    · rw [sent] at nothing
      cases nothing
    · rw [sent] at nothing
      cases nothing
    · exact once
  have chosen : Chosen (fun _ => "") (reusedId ++ [Action.cancelAll]) 1 "yes" := by
    rcases choices 1 "yes" (by rw [sent]; exact List.mem_singleton_self _) with chosen | ⟨request,server,found,member,names,-⟩
    · exact chosen
    · rw [there] at found
      cases found
      have unnamed : extractMcpServerName (edit "t1") = none := by decide
      obtain ⟨plain,filled⟩ := plain_servers server member
      rw [(extractMcpServerName_exact plain filled).mpr names] at unnamed
      cases unnamed
  exact ⟨final,path,decisions,once,chosen,(cancelled reusedId between final (List.prefix_refl _) prior enabled).1⟩

-- What the agent says its tool is of.
def disguised : PermissionRequest :=
  ⟨"t1",some "rm -rf ~",some .execute,some (.object [("server_name",.string "aionui-team")]),[⟨"yes","Allow",.allowOnce⟩]⟩

-- Raw input alone gets a request approved; and after a kill a request stays.
theorem approved_by_raw_input : (∃ final, Runs (step fun _ => "") start [.arrive disguised,.receive,.route] final ∧
    decided final 0 = [.selected "yes"]) ∧ autoApproveOptionId { disguised with rawInput := none } = none ∧
    ∃ final, Runs (step fun _ => "") start (kill ++ [.arrive (edit "t1"),.receive,.route,.publish true]) final ∧
      final.closing = true ∧ Listed final 0 :=
  ⟨⟨_,exec_exact.mp rfl,rfl⟩,by decide,_,exec_exact.mp rfl,rfl,"t1",_,rfl,rfl⟩

end Examples

end Runs

end AlineaCopilot.PermissionRouter
