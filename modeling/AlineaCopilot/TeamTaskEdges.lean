import AlineaCopilot.TeamTaskBoard
open AlineaCopilot.KeyedMaps AlineaCopilot.TransitionRuns

namespace AlineaCopilot.TeamTaskEdges
open TeamTaskBoard

-- A task blocks later tasks of its own team only. Rows are never removed, so
-- the unblocking loop of a completion always finds its rows.
def Linked (board : Board) : Prop := ∀ a row, board.lookup a = some row → ∀ b ∈ row.blocks,
  b ≠ a ∧ ∃ next, board.lookup b = some next ∧ next.teamId = row.teamId

-- The two sides of every edge of a team say the same.
def EdgesAgree (board : Board) : Prop := ∀ a b blocker blocked,
  board.lookup a = some blocker → board.lookup b = some blocked → blocker.teamId = blocked.teamId →
    (a ∈ blocked.blockedBy ↔ blocker.status ≠ .completed ∧ b ∈ blocker.blocks)

def NoCompletedBlocker (board : Board) : Prop := ∀ a b blocker blocked,
  board.lookup a = some blocker → board.lookup b = some blocked → blocker.teamId = blocked.teamId →
    blocker.status = .completed → a ∉ blocked.blockedBy

def complete (teamId taskId : String) : Call := .updateTask teamId taskId { status := some .completed }

-- Completing the listed blockers one after the other empties the list.
def CompletionsUnblock (board : Board) : Prop := ∀ b blocked, board.lookup b = some blocked →
  (∀ a ∈ blocked.blockedBy, ∃ blocker, findTaskById board blocked.teamId a = some blocker) →
    ∀ after row, Runs step board (blocked.blockedBy.map (complete blocked.teamId)) after →
      after.lookup b = some row → row.blockedBy = []

-- A call is refused, and changes nothing, when a task it names is not there.
def Refused (board : Board) : Call → Prop
  | .createTask _ teamId _ _ _ blockedBy => ∃ dep ∈ blockedBy, findTaskById board teamId dep = none
  | .updateTask teamId taskId _ => findTaskById board teamId taskId = none

-- The calls that keep the two sides of the edges in agreement: no completed
-- dependency at creation and no list that names the new task beforehand, no
-- change of the blockers from one side alone, no reopening of a completed task
-- that blocked others.
def Allowed (board : Board) : Call → Prop
  | .createTask freshId teamId _ _ _ blockedBy =>
    (∀ dep ∈ blockedBy, ∃ row, findTaskById board teamId dep = some row) →
      (∀ dep ∈ blockedBy, ∀ row, findTaskById board teamId dep = some row → row.status ≠ .completed) ∧
      ∀ k row, findTaskById board teamId k = some row → freshId ∉ row.blockedBy
  | .updateTask teamId taskId update => ∀ existing, findTaskById board teamId taskId = some existing →
      (∀ list, update.blockedBy = some list → ∀ other row, findTaskById board teamId other = some row →
        (other ∈ list ↔ other ∈ existing.blockedBy)) ∧
      (∀ status, update.status = some status → status ≠ .completed → existing.status = .completed →
        existing.blocks = [])

section Steps
variable {board after : Board}

theorem step_cases (linked : Linked board) (taken : step board call = some after) :
    (after = board ∧ Refused board call) ∨
    (∃ freshId teamId subject description owner blockedBy row,
      call = .createTask freshId teamId subject description owner blockedBy ∧
      (∀ dep ∈ blockedBy, ∃ row, findTaskById board teamId dep = some row) ∧ board.lookup freshId = none ∧
      row = ⟨freshId,teamId,subject,description,.pending,owner,blockedBy,[],none⟩ ∧
      ∀ k, after.lookup k = created freshId row board k) ∨
    (∃ teamId taskId update existing, call = .updateTask teamId taskId update ∧
      findTaskById board teamId taskId = some existing ∧
      ∀ k, after.lookup k = (board.lookup k).map (updated taskId update existing k)) := by
  cases call with
  | createTask freshId teamId subject description owner blockedBy =>
    rcases createTask_cases freshId board teamId subject description owner blockedBy with
      ⟨dep,member,missing,shape⟩ | ⟨text,shape⟩ | ⟨all,fresh,row,made,rfl,shape,rows⟩
    · simp only [step,answer,shape,Option.some.injEq] at taken
      exact .inl ⟨taken.symm,dep,member,missing⟩
    · simp [step,answer,shape] at taken
    · simp only [step,answer,shape,Option.some.injEq] at taken
      subst taken
      exact .inr (.inl ⟨_,_,_,_,_,_,_,rfl,fun dep member => Option.isSome_iff_exists.mp (all dep member),fresh,rfl,rows⟩)
  | updateTask teamId taskId update =>
    have present : ∀ row, board.lookup taskId = some row → ∀ next ∈ row.blocks, ∃ other, board.lookup next = some other :=
      fun row found next member => (linked taskId row found next member).2.imp fun _ both => both.1
    rcases updateTask_cases teamId taskId update present with ⟨missing,shape⟩ | ⟨existing,row,made,found,shape,rows⟩
    · simp only [step,answer,shape,Option.some.injEq] at taken
      exact .inl ⟨taken.symm,missing⟩
    · simp only [step,answer,shape,Option.some.injEq] at taken
      subst taken
      exact .inr (.inr ⟨_,_,_,existing,rfl,found,rows⟩)

theorem created_inv (found : created freshId row board k = some next) :
    (k = freshId ∧ next = row) ∨
    ∃ old, k ≠ freshId ∧ board.lookup k = some old ∧ next.teamId = old.teamId ∧ next.status = old.status ∧
      next.blockedBy = old.blockedBy ∧ ∀ b, b ∈ next.blocks ↔ b ∈ old.blocks ∨ (b = freshId ∧ k ∈ row.blockedBy) := by
  unfold created at found
  split at found
  · rename_i same
    exact .inl ⟨same,(Option.some.inj found).symm⟩
  · rename_i other
    obtain ⟨old,standing,rfl⟩ := Option.map_eq_some_iff.mp found
    refine .inr ⟨old,other,standing,?_⟩
    by_cases dep : k ∈ row.blockedBy <;> simp [dep]

theorem linked_step (linked : Linked board) (taken : step board call = some after) : Linked after := by
  rcases step_cases linked taken with
    ⟨rfl,_⟩ | ⟨freshId,teamId,_,_,_,blockedBy,row,_,all,fresh,made,rows⟩ | ⟨_,taskId,update,existing,_,_,rows⟩
  · exact linked
  · intro a next found b member
    rw [rows] at found
    rcases created_inv found with ⟨rfl,rfl⟩ | ⟨old,other,standing,team,_,_,blocks⟩
    · simp [made] at member
    · rcases (blocks b).mp member with earlier | ⟨rfl,dep⟩
      · obtain ⟨different,target,present,same⟩ := linked a old standing b earlier
        refine ⟨different,?_⟩
        have notFresh : b ≠ freshId := by rintro rfl; simp [fresh] at present
        rw [rows,created,if_neg notFresh,present]
        refine ⟨_,rfl,?_⟩
        by_cases dep : b ∈ row.blockedBy <;> simp [dep,same,team]
      · refine ⟨fun same => other same.symm,row,by rw [rows,created,if_pos rfl],?_⟩
        have blockedBy_row : row.blockedBy = blockedBy := by rw [made]
        have teamId_row : row.teamId = teamId := by rw [made]
        obtain ⟨dependency,named⟩ := all a (blockedBy_row ▸ dep)
        obtain ⟨present,owner⟩ := findTaskById_some.mp named
        rw [standing] at present
        cases Option.some.inj present
        rw [teamId_row,team,owner]
  · intro a next found b member
    rw [rows] at found
    obtain ⟨old,standing,rfl⟩ := Option.map_eq_some_iff.mp found
    rw [updated_blocks] at member
    obtain ⟨different,target,present,same⟩ := linked a old standing b member
    exact ⟨different,_,by rw [rows,present]; rfl,by simpa using same⟩

-- A new task agrees with the older ones exactly when no dependency is completed
-- and nobody named the task before it existed.
theorem created_exact (linked : Linked board) (agree : EdgesAgree board) (fresh : board.lookup freshId = none)
    (all : ∀ dep ∈ row.blockedBy, ∃ old, findTaskById board row.teamId dep = some old) (empty : row.blocks = [])
    (rows : ∀ k, after.lookup k = created freshId row board k) : EdgesAgree after ↔
      (∀ dep ∈ row.blockedBy, ∀ old, findTaskById board row.teamId dep = some old → old.status ≠ .completed) ∧
      ∀ k old, findTaskById board row.teamId k = some old → freshId ∉ old.blockedBy := by
  have new : after.lookup freshId = some row := by rw [rows,created,if_pos rfl]
  have kept : ∀ k old, board.lookup k = some old → ∃ next, after.lookup k = some next ∧ k ≠ freshId ∧
      next.teamId = old.teamId ∧ next.status = old.status ∧ next.blockedBy = old.blockedBy ∧
      ∀ b, b ∈ next.blocks ↔ b ∈ old.blocks ∨ (b = freshId ∧ k ∈ row.blockedBy) := by
    intro k old standing
    have other : k ≠ freshId := by rintro rfl; simp [fresh] at standing
    have found : ∃ next, after.lookup k = some next := by rw [rows,created,if_neg other,standing]; exact ⟨_,rfl⟩
    obtain ⟨next,found⟩ := found
    refine ⟨next,found,other,?_⟩
    rw [rows] at found
    rcases created_inv found with ⟨same,_⟩ | ⟨before,_,present,facts⟩
    · exact absurd same other
    · rw [standing] at present
      cases Option.some.inj present
      exact facts
  have unnamed : ∀ k old, board.lookup k = some old → freshId ∉ old.blocks := by
    intro k old standing member
    obtain ⟨_,target,present,_⟩ := linked k old standing freshId member
    simp [fresh] at present
  constructor
  · intro agreed
    constructor
    · intro dep member old named
      obtain ⟨standing,team⟩ := findTaskById_some.mp named
      obtain ⟨next,found,_,sameTeam,status,_,_⟩ := kept dep old standing
      rw [← status]
      exact ((agreed dep freshId next row found new (sameTeam.trans team)).mp member).1
    · intro k old named member
      obtain ⟨standing,team⟩ := findTaskById_some.mp named
      obtain ⟨next,found,_,sameTeam,_,same,_⟩ := kept k old standing
      have blocks := ((agreed freshId k row next new found (sameTeam.trans team).symm).mp (same ▸ member)).2
      simp [empty] at blocks
  · rintro ⟨open_deps,unlisted⟩ a b blocker blocked foundA foundB team
    rw [rows] at foundA foundB
    rcases created_inv foundA with ⟨isA,rowA⟩ | ⟨oldA,otherA,standingA,teamA,statusA,_,blocksA⟩
    · have noBlocks : b ∉ blocker.blocks := by simp [rowA,empty]
      refine iff_of_false ?_ fun both => noBlocks both.2
      rcases created_inv foundB with ⟨_,rowB⟩ | ⟨oldB,_,standingB,teamB,_,listB,_⟩
      · intro member
        rw [rowB,isA] at member
        obtain ⟨old,named⟩ := all freshId member
        simp [(findTaskById_some.mp named).1] at fresh
      · rw [isA,listB]
        refine unlisted b oldB (findTaskById_some.mpr ⟨standingB,?_⟩)
        rw [← teamB,← team,rowA]
    · rw [blocksA,statusA]
      rcases created_inv foundB with ⟨isB,rowB⟩ | ⟨oldB,otherB,standingB,teamB,_,listB,_⟩
      · rw [rowB]
        constructor
        · intro member
          refine ⟨open_deps a member oldA (findTaskById_some.mpr ⟨standingA,?_⟩),.inr ⟨isB,member⟩⟩
          rw [← teamA,team,rowB]
        · rintro ⟨_,earlier | ⟨_,member⟩⟩
          · exact absurd (isB ▸ earlier) (unnamed a oldA standingA)
          · exact member
      · rw [listB,agree a b oldA oldB standingA standingB (teamA.symm.trans (team.trans teamB))]
        simp [otherB]

theorem updated_exact (linked : Linked board) (agree : EdgesAgree board)
    (named : findTaskById board teamId taskId = some existing)
    (rows : ∀ k, after.lookup k = (board.lookup k).map (updated taskId update existing k)) : EdgesAgree after ↔
      (∀ list, update.blockedBy = some list → ∀ other row, findTaskById board teamId other = some row →
        (other ∈ list ↔ other ∈ existing.blockedBy)) ∧
      (∀ status, update.status = some status → status ≠ .completed → existing.status = .completed →
        existing.blocks = []) := by
  obtain ⟨standing,team⟩ := findTaskById_some.mp named
  have kept : ∀ k row, board.lookup k = some row → after.lookup k = some (updated taskId update existing k row) := by
    intro k row found
    rw [rows,found]; rfl
  have notSelf : taskId ∉ existing.blocks := fun member => (linked taskId existing standing taskId member).1 rfl
  constructor
  · intro agreed
    constructor
    · intro list given other row namedOther
      obtain ⟨found,sameTeam⟩ := findTaskById_some.mp namedOther
      have now := agreed other taskId _ _ (kept other row found) (kept taskId existing standing)
        (by simp [sameTeam,team])
      have before := agree other taskId row existing found standing (sameTeam.trans team.symm)
      rw [mem_updated_blockedBy,updated_blocks,updated_status] at now
      by_cases self : other = taskId
      · subst self
        rw [found] at standing
        cases Option.some.inj standing
        simp only [if_true,given,Option.getD_some,notSelf,and_false,not_false_eq_true,and_true] at now before
        rw [now,before]
      · simp only [if_true,given,Option.getD_some,self,if_false,false_and,not_false_eq_true,and_true] at now
        rw [now,before]
    · intro status given open_status done
      by_contra occupied
      obtain ⟨b,member⟩ := List.exists_mem_of_ne_nil _ occupied
      obtain ⟨different,target,present,sameTeam⟩ := linked taskId existing standing b member
      have now := agreed taskId b _ _ (kept taskId existing standing) (kept b target present) (by simp [sameTeam])
      have before := agree taskId b existing target standing present sameTeam.symm
      rw [mem_updated_blockedBy,updated_blocks,updated_status] at now
      have unfinished : ¬(status = .completed) := open_status
      simp only [different,if_false,if_true,given,Option.getD_some,Option.some.injEq,unfinished,and_false,
        not_false_eq_true,and_true,ne_eq,member] at now
      exact absurd (before.mp (now.mpr trivial)).1 (by simp [done])
  · rintro ⟨sameList,reopened⟩ a b blocker blocked foundA foundB sameTeam
    rw [rows] at foundA foundB
    obtain ⟨oldA,standingA,rfl⟩ := Option.map_eq_some_iff.mp foundA
    obtain ⟨oldB,standingB,rfl⟩ := Option.map_eq_some_iff.mp foundB
    have teams : oldA.teamId = oldB.teamId := by simpa using sameTeam
    have before := agree a b oldA oldB standingA standingB teams
    rw [mem_updated_blockedBy,updated_blocks,updated_status]
    have list : a ∈ (if b = taskId then update.blockedBy.getD oldB.blockedBy else oldB.blockedBy) ↔ a ∈ oldB.blockedBy := by
      split
      · rename_i same
        subst same
        rw [standing] at standingB
        cases Option.some.inj standingB
        cases given : update.blockedBy with
        | none => rfl
        | some list => exact sameList list given a oldA (findTaskById_some.mpr ⟨standingA,teams.trans team⟩)
      · rfl
    rw [list,before]
    by_cases same : a = taskId
    · subst same
      rw [standing] at standingA
      cases Option.some.inj standingA
      cases given : update.status with
      | none => simp
      | some status =>
        by_cases done : status = .completed
        · simp [done]
        · have empty := reopened status given done
          by_cases was : existing.status = .completed
          · simp [empty was]
          · simp [done,was]
    · simp [same]

theorem edges_step_exact (linked : Linked board) (agree : EdgesAgree board) (taken : step board call = some after) :
    EdgesAgree after ↔ Allowed board call := by
  rcases step_cases linked taken with
    ⟨rfl,refused⟩ | ⟨freshId,teamId,_,_,_,blockedBy,row,rfl,all,fresh,made,rows⟩ | ⟨teamId,taskId,update,existing,rfl,named,rows⟩
  · refine iff_of_true agree ?_
    cases call with
    | createTask =>
      obtain ⟨dep,member,missing⟩ := refused
      intro all
      obtain ⟨row,found⟩ := all dep member
      simp [missing] at found
    | updateTask =>
      intro existing found
      simp [show findTaskById _ _ _ = none from refused] at found
  · have blockedBy_row : row.blockedBy = blockedBy := by rw [made]
    have teamId_row : row.teamId = teamId := by rw [made]
    have exactly := created_exact linked agree fresh (by rw [blockedBy_row,teamId_row]; exact all) (by rw [made]) rows
    rw [blockedBy_row,teamId_row] at exactly
    exact exactly.trans ⟨fun allowed _ => allowed,fun allowed => allowed all⟩
  · refine (updated_exact linked agree named rows).trans ⟨fun allowed other found => ?_,fun allowed => allowed existing named⟩
    rw [named] at found
    cases Option.some.inj found
    exact allowed

end Steps

theorem linked_empty : Linked ∅ := by intro a row found; simp at found

theorem edges_empty : EdgesAgree ∅ := by intro a b blocker blocked found; simp at found

theorem EdgesAgree.no_completed (agree : EdgesAgree board) : NoCompletedBlocker board :=
  fun a b blocker blocked foundA foundB team done member => ((agree a b blocker blocked foundA foundB team).mp member).1 done

theorem complete_allowed : Allowed board (complete teamId taskId) := by
  intro existing found
  simp only [reduceCtorEq,false_implies,implies_true,Option.some.injEq,true_and]
  rintro status rfl other
  exact absurd rfl other

-- Along completions of one team the tasks named so far become completed and no
-- list grows.
theorem completions_run {named : List String} (linked : Linked board) (path : Runs step board (named.map (complete teamId)) after) :
    Linked after ∧ (EdgesAgree board → EdgesAgree after) ∧
    ∀ k row, board.lookup k = some row → ∃ next, after.lookup k = some next ∧ next.teamId = row.teamId ∧
      (∀ other ∈ next.blockedBy, other ∈ row.blockedBy) ∧
      (row.status = .completed ∨ (k ∈ named ∧ row.teamId = teamId) → next.status = .completed) := by
  induction named using List.reverseRecOn generalizing after with
  | nil =>
    cases path.nil_inv
    exact ⟨linked,id,fun k row found => ⟨row,found,rfl,fun _ member => member,by simp⟩⟩
  | append_singleton earlier last ih =>
    rw [List.map_append,List.map_singleton] at path
    obtain ⟨middle,prior,taken⟩ := path.snoc_inv
    obtain ⟨linked_middle,agree,rows⟩ := ih prior
    refine ⟨linked_step linked_middle taken,fun start => ?_,fun k row found => ?_⟩
    · exact (edges_step_exact linked_middle (agree start) taken).mpr complete_allowed
    · obtain ⟨next,standing,team,list,done⟩ := rows k row found
      rcases step_cases linked_middle taken with
        ⟨rfl,missing⟩ | ⟨_,_,_,_,_,_,_,impossible,_⟩ | ⟨_,_,_,existing,same,present,changes⟩
      · refine ⟨next,standing,team,list,fun either => done ?_⟩
        rcases either with was | ⟨member,mine⟩
        · exact .inl was
        · rcases List.mem_append.mp member with old | new
          · exact .inr ⟨old,mine⟩
          · have here := findTaskById_some.mpr ⟨standing,team.trans mine⟩
            rw [List.mem_singleton.mp new,show findTaskById _ teamId last = none from missing] at here
            cases here
      · cases impossible
      · cases same
        refine ⟨_,by rw [changes,standing]; rfl,by simpa using team,?_,?_⟩
        · intro other member
          have kept := (mem_updated_blockedBy.mp member).1
          simp only [Option.getD_none,ite_self] at kept
          exact list other kept
        · intro either
          rw [updated_status]
          by_cases self : k = last
          · simp [self]
          · rw [if_neg self]
            refine done (either.imp_right fun both => ⟨?_,both.2⟩)
            exact (List.mem_append.mp both.1).resolve_right fun new => self (List.mem_singleton.mp new)

theorem completions_unblock (linked : Linked board) (agree : EdgesAgree board) : CompletionsUnblock board := by
  intro b blocked found listed after row path final
  obtain ⟨_,agreed,rows⟩ := completions_run linked path
  obtain ⟨next,standing,team,list,_⟩ := rows b blocked found
  rw [final] at standing
  cases Option.some.inj standing
  rw [List.eq_nil_iff_forall_not_mem]
  intro a member
  obtain ⟨blocker,named⟩ := listed a (list a member)
  obtain ⟨present,mine⟩ := findTaskById_some.mp named
  obtain ⟨last,there,sameTeam,_,done⟩ := rows a blocker present
  exact (agreed agree).no_completed a b last row there final (by rw [sameTeam,team,mine])
    (done (.inr ⟨list a member,mine⟩)) member

-- A run of calls keeps the two sides of every edge in agreement throughout, and
-- with them the two consequences, exactly when all its calls are allowed.
theorem edges_agree_exactly (path : Runs step ∅ calls after) :
    (∀ earlier between, earlier <+: calls → Runs step ∅ earlier between →
      EdgesAgree between ∧ NoCompletedBlocker between ∧ CompletionsUnblock between) ↔
    RunsWhere step Allowed ∅ calls after := by
  have exactly := path.always_exact linked_empty edges_empty (fun _ _ _ => linked_step)
    fun _ _ _ linked agree taken => edges_step_exact linked agree taken
  refine Iff.trans ?_ exactly
  constructor
  · intro always earlier between inside prior
    exact (always earlier between inside prior).1
  · intro always earlier between inside prior
    have agree := always earlier between inside prior
    have linked := prior.invariant linked_empty fun _ _ _ => linked_step
    exact ⟨agree,agree.no_completed,completions_unblock linked agree⟩

-- A dependency that is completed when it is named is never taken off the list.
def lateDependency : List Call :=
  [.createTask "first" "team" "Design" none none [],complete "team" "first",
    .createTask "second" "team" "Build" none none ["first"]]

theorem late_dependency_stays : ∃ board blocked, exec step ∅ lateDependency = some board ∧
    board.lookup "second" = some blocked ∧ blocked.blockedBy = ["first"] ∧
    ¬EdgesAgree board ∧ ¬NoCompletedBlocker board := by
  refine ⟨_,_,rfl,rfl,rfl,fun agree => ?_,fun never => ?_⟩
  · exact ((agree "first" "second" _ _ rfl rfl rfl).mp List.mem_cons_self).1 rfl
  · exact never "first" "second" _ _ rfl rfl rfl rfl List.mem_cons_self

-- Named while it is open and completed afterwards, it is.
def timelyDependency : List Call :=
  [.createTask "first" "team" "Design" none none [],.createTask "second" "team" "Build" none none ["first"],
    complete "team" "first"]

theorem edges_agree_timely : ∃ board, exec step ∅ timelyDependency = some board ∧
    ((∀ earlier between, earlier <+: timelyDependency → Runs step ∅ earlier between →
      EdgesAgree between ∧ NoCompletedBlocker between ∧ CompletionsUnblock between) ↔
    RunsWhere step Allowed ∅ timelyDependency board) :=
  ⟨_,rfl,edges_agree_exactly (exec_exact.mp rfl)⟩

end AlineaCopilot.TeamTaskEdges
