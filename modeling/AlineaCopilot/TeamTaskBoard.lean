import AlineaCopilot.TransitionRuns
import AlineaCopilot.KeyedMaps
import AlineaCopilot.TeamErrors
open AlineaCopilot.KeyedMaps AlineaCopilot.TransitionRuns

namespace AlineaCopilot.TeamTaskBoard

inductive TaskStatus where
  | pending
  | inProgress
  | completed
  | deleted
deriving DecidableEq, Repr

-- A row of the task table. The two JSON columns are the lists they encode.
structure TeamTaskRow where
  id : String
  teamId : String
  subject : String
  description : Option String
  status : TaskStatus
  owner : Option String
  blockedBy : List String
  blocks : List String
  metadata : Option String
deriving DecidableEq, Repr

structure TaskUpdate where
  status : Option TaskStatus := none
  description : Option String := none
  owner : Option String := none
  blockedBy : Option (List String) := none
  metadata : Option String := none
deriving DecidableEq, Repr

-- The rows of every team stand in one table under one primary key.
abbrev Board := KeyedMap String TeamTaskRow

def findTaskById (board : Board) (teamId taskId : String) : Option TeamTaskRow :=
  (board.lookup taskId).filter (·.teamId == teamId)

def insertTask (board : Board) (row : TeamTaskRow) : Except TeamError Board :=
  if (board.lookup row.id).isSome then .error (.database "UNIQUE constraint failed: team_tasks.id")
  else .ok (board.insert row.id row)

-- `UPDATE .. WHERE id = ?`: a missing row is an error, whatever its team.
def modifyTask (board : Board) (taskId : String) (change : TeamTaskRow → TeamTaskRow) : Except TeamError Board :=
  match board.lookup taskId with
  | none => .error (.database s!"task {taskId}")
  | some row => .ok (board.insert taskId (change row))

def TaskUpdate.isEmpty (update : TaskUpdate) : Bool :=
  update.status.isNone && update.description.isNone && update.owner.isNone && update.blockedBy.isNone &&
    update.metadata.isNone

def TaskUpdate.apply (update : TaskUpdate) (row : TeamTaskRow) : TeamTaskRow := { row with
  status := update.status.getD row.status
  description := update.description.or row.description
  owner := update.owner.or row.owner
  blockedBy := update.blockedBy.getD row.blockedBy
  metadata := update.metadata.or row.metadata }

def repoUpdateTask (board : Board) (taskId : String) (update : TaskUpdate) : Except TeamError Board :=
  if update.isEmpty then .ok board else modifyTask board taskId update.apply

def appendBlock (blockedTaskId : String) (row : TeamTaskRow) : TeamTaskRow :=
  if blockedTaskId ∈ row.blocks then row else { row with blocks := row.blocks ++ [blockedTaskId] }

def appendToBlocks (board : Board) (taskId blockedTaskId : String) : Except TeamError Board :=
  modifyTask board taskId (appendBlock blockedTaskId)

def dropBlocker (unblockedTaskId : String) (row : TeamTaskRow) : TeamTaskRow :=
  { row with blockedBy := row.blockedBy.filter (· ≠ unblockedTaskId) }

def removeFromBlockedBy (board : Board) (taskId unblockedTaskId : String) : Except TeamError Board :=
  modifyTask board taskId (dropBlocker unblockedTaskId)

-- One repository write per task of a list. The first failure ends the loop and
-- the writes before it stay.
def forEachTask (write : Board → String → Except TeamError Board) (board : Board) :
    List String → Except TeamError Unit × Board
  | [] => (.ok (),board)
  | taskId :: rest =>
    match write board taskId with
    | .error error => (.error error,board)
    | .ok written => forEachTask write written rest

def createTask (freshId : String) (board : Board) (teamId subject : String) (description owner : Option String)
    (blockedBy : List String) : Except TeamError TeamTaskRow × Board :=
  match blockedBy.find? fun dep => (findTaskById board teamId dep).isNone with
  | some dep => (.error (.blockedTaskNotFound dep),board)
  | none =>
    let row : TeamTaskRow := ⟨freshId,teamId,subject,description,.pending,owner,blockedBy,[],none⟩
    match insertTask board row with
    | .error error => (.error error,board)
    | .ok inserted =>
      let (outcome,linked) := forEachTask (appendToBlocks · · freshId) inserted blockedBy
      (outcome.map fun _ => row,linked)

def checkUnblocks (board : Board) (completedTaskId : String) (completedRow : TeamTaskRow) :
    Except TeamError Unit × Board :=
  forEachTask (removeFromBlockedBy · · completedTaskId) board completedRow.blocks

-- The downstream tasks come from the row as it was before the update.
def updateTask (board : Board) (teamId taskId : String) (update : TaskUpdate) :
    Except TeamError TeamTaskRow × Board :=
  match findTaskById board teamId taskId with
  | none => (.error (.taskNotFound taskId),board)
  | some existing =>
    match repoUpdateTask board taskId update with
    | .error error => (.error error,board)
    | .ok written =>
      let (outcome,unblocked) :=
        if update.status = some .completed then checkUnblocks written taskId existing else (.ok (),written)
      match outcome with
      | .error error => (.error error,unblocked)
      | .ok _ =>
        match findTaskById unblocked teamId taskId with
        | none => (.error (.taskNotFound taskId),unblocked)
        | some updated => (.ok updated,unblocked)

inductive Call where
  | createTask (freshId teamId subject : String) (description owner : Option String) (blockedBy : List String)
  | updateTask (teamId taskId : String) (update : TaskUpdate)
deriving DecidableEq, Repr

def answer (board : Board) : Call → Except TeamError TeamTaskRow × Board
  | .createTask freshId teamId subject description owner blockedBy =>
    createTask freshId board teamId subject description owner blockedBy
  | .updateTask teamId taskId update => updateTask board teamId taskId update

-- A call whose repository failed is no step; one that was refused is a step
-- that leaves the table as it was.
def step (board : Board) (call : Call) : Option Board :=
  match answer board call with
  | (.error (.database _),_) => none
  | (_,after) => some after

section Tables
variable {board after : Board}

theorem findTaskById_some : findTaskById board teamId taskId = some row ↔
    board.lookup taskId = some row ∧ row.teamId = teamId := by
  simp [findTaskById,Option.filter_eq_some_iff]

theorem modifyTask_lookup (written : modifyTask board taskId change = .ok after) (k : String) :
    after.lookup k = (board.lookup k).map fun row => if k = taskId then change row else row := by
  unfold modifyTask at written
  split at written
  · cases written
  · rename_i row found
    cases Except.ok.inj written
    rw [lookup_insert_eq]
    by_cases same : k = taskId
    · subst same; simp [found]
    · simp [same]

theorem modifyTask_ok (change : TeamTaskRow → TeamTaskRow) (found : board.lookup taskId = some row) : ∃ after, modifyTask board taskId change = .ok after := by
  simp [modifyTask,found]

-- When every task of the list is there, the loop writes each of them. A change
-- made twice in one row is made once, so repetitions in the list do not matter.
theorem forEachTask_lookup (change : TeamTaskRow → TeamTaskRow) (idempotent : ∀ row, change (change row) = change row)
    (tasks : List String) (board : Board) (present : ∀ taskId ∈ tasks, ∃ row, board.lookup taskId = some row) :
    ∃ after, forEachTask (modifyTask · · change) board tasks = (.ok (),after) ∧
      ∀ k, after.lookup k = (board.lookup k).map fun row => if k ∈ tasks then change row else row := by
  induction tasks generalizing board with
  | nil => exact ⟨board,rfl,by simp⟩
  | cons head rest ih =>
    obtain ⟨row,found⟩ := present head List.mem_cons_self
    obtain ⟨middle,written⟩ := modifyTask_ok change found
    have looked := modifyTask_lookup written
    have remaining : ∀ taskId ∈ rest, ∃ row, middle.lookup taskId = some row := by
      intro taskId member
      obtain ⟨old,standing⟩ := present taskId (List.mem_cons_of_mem _ member)
      exact ⟨_,by rw [looked,standing]; rfl⟩
    obtain ⟨after,loop,rows⟩ := ih middle remaining
    refine ⟨after,by simp [forEachTask,written,loop],fun k => ?_⟩
    rw [rows,looked,Option.map_map]
    congr 1
    funext old
    by_cases first : k = head <;> by_cases later : k ∈ rest <;> simp [first,later]
    all_goals simp_all

theorem appendBlock_twice (row : TeamTaskRow) : appendBlock blocked (appendBlock blocked row) = appendBlock blocked row := by
  by_cases standing : blocked ∈ row.blocks
  · simp [appendBlock,standing]
  · simp [appendBlock,standing]

theorem dropBlocker_twice (row : TeamTaskRow) : dropBlocker blocked (dropBlocker blocked row) = dropBlocker blocked row := by
  simp [dropBlocker]

theorem apply_empty {update : TaskUpdate} (empty : update.isEmpty = true) (row : TeamTaskRow) : update.apply row = row := by
  simp only [TaskUpdate.isEmpty,Bool.and_eq_true,Option.isNone_iff_eq_none] at empty
  obtain ⟨⟨⟨⟨status,description⟩,owner⟩,blockedBy⟩,metadata⟩ := empty
  simp [TaskUpdate.apply,status,description,owner,blockedBy,metadata]

@[simp] theorem appendBlock_teamId (row : TeamTaskRow) : (appendBlock blocked row).teamId = row.teamId := by
  unfold appendBlock; split <;> rfl

@[simp] theorem appendBlock_status (row : TeamTaskRow) : (appendBlock blocked row).status = row.status := by
  unfold appendBlock; split <;> rfl

@[simp] theorem appendBlock_blockedBy (row : TeamTaskRow) : (appendBlock blocked row).blockedBy = row.blockedBy := by
  unfold appendBlock; split <;> rfl

@[simp] theorem mem_appendBlock (row : TeamTaskRow) : other ∈ (appendBlock blocked row).blocks ↔ other ∈ row.blocks ∨ other = blocked := by
  unfold appendBlock
  split
  · rename_i standing
    exact ⟨.inl,fun either => either.elim (fun old => old) fun same => same ▸ standing⟩
  · simp

theorem repoUpdateTask_lookup (found : board.lookup taskId = some row) (update : TaskUpdate) :
    ∃ after, repoUpdateTask board taskId update = .ok after ∧
      ∀ k, after.lookup k = (board.lookup k).map fun row => if k = taskId then update.apply row else row := by
  unfold repoUpdateTask
  split
  · rename_i empty
    exact ⟨board,rfl,fun k => by simp [apply_empty empty]⟩
  · obtain ⟨after,written⟩ := modifyTask_ok update.apply found
    exact ⟨after,written,modifyTask_lookup written⟩

end Tables

section Calls
variable {board : Board}

-- What a call makes of the table, row by row.
def created (freshId : String) (row : TeamTaskRow) (board : Board) (k : String) : Option TeamTaskRow :=
  if k = freshId then some row
  else (board.lookup k).map fun old => if k ∈ row.blockedBy then appendBlock freshId old else old

def updated (taskId : String) (update : TaskUpdate) (existing : TeamTaskRow) (k : String) (row : TeamTaskRow) : TeamTaskRow :=
  let written := if k = taskId then update.apply row else row
  if update.status = some .completed ∧ k ∈ existing.blocks then dropBlocker taskId written else written

@[simp] theorem updated_teamId : (updated taskId update existing k row).teamId = row.teamId := by
  dsimp only [updated]
  split <;> split <;> rfl

@[simp] theorem updated_blocks : (updated taskId update existing k row).blocks = row.blocks := by
  dsimp only [updated]
  split <;> split <;> rfl

theorem updated_status : (updated taskId update existing k row).status =
    if k = taskId then update.status.getD row.status else row.status := by
  dsimp only [updated]
  split <;> split <;> rfl

-- Completing a task drops it from the lists of the tasks it blocked.
theorem mem_updated_blockedBy : other ∈ (updated taskId update existing k row).blockedBy ↔
    other ∈ (if k = taskId then update.blockedBy.getD row.blockedBy else row.blockedBy) ∧
      ¬(other = taskId ∧ update.status = some .completed ∧ k ∈ existing.blocks) := by
  unfold updated
  by_cases same : k = taskId <;> by_cases drops : update.status = some .completed ∧ k ∈ existing.blocks
  · simp [same,dropBlocker,TaskUpdate.apply,same ▸ drops]
  · have kept : ¬(other = taskId ∧ update.status = some .completed ∧ k ∈ existing.blocks) := fun both => drops both.2
    simp only [if_neg drops,if_pos same,kept,not_false_eq_true,and_true]
    rfl
  · simp [same,dropBlocker,drops]
  · have kept : ¬(other = taskId ∧ update.status = some .completed ∧ k ∈ existing.blocks) := fun both => drops both.2
    simp only [if_neg drops,if_neg same,kept,not_false_eq_true,and_true]

theorem createTask_cases (freshId : String) (board : Board) (teamId subject : String)
    (description owner : Option String) (blockedBy : List String) :
    (∃ dep ∈ blockedBy, findTaskById board teamId dep = none ∧
      createTask freshId board teamId subject description owner blockedBy = (.error (.blockedTaskNotFound dep),board)) ∨
    (∃ text, createTask freshId board teamId subject description owner blockedBy = (.error (.database text),board)) ∨
    ((∀ dep ∈ blockedBy, (findTaskById board teamId dep).isSome) ∧ board.lookup freshId = none ∧
      ∃ row after, row = ⟨freshId,teamId,subject,description,.pending,owner,blockedBy,[],none⟩ ∧
        createTask freshId board teamId subject description owner blockedBy = (.ok row,after) ∧
        ∀ k, after.lookup k = created freshId row board k) := by
  unfold createTask
  cases missing : blockedBy.find? fun dep => (findTaskById board teamId dep).isNone with
  | some dep =>
    refine .inl ⟨dep,List.mem_of_find?_eq_some missing,?_,rfl⟩
    simpa using List.find?_some missing
  | none =>
    have all : ∀ dep ∈ blockedBy, (findTaskById board teamId dep).isSome := by
      simpa [List.find?_eq_none,Option.ne_none_iff_isSome] using missing
    refine .inr ?_
    cases taken : board.lookup freshId with
    | some _ => exact .inl ⟨"UNIQUE constraint failed: team_tasks.id",by simp [insertTask,taken]⟩
    | none =>
      refine .inr ⟨all,rfl,?_⟩
      let row : TeamTaskRow := ⟨freshId,teamId,subject,description,.pending,owner,blockedBy,[],none⟩
      have others : ∀ dep ∈ blockedBy, dep ≠ freshId := by
        rintro dep member rfl
        simpa [findTaskById,taken] using all dep member
      have present : ∀ dep ∈ blockedBy, ∃ old, (board.insert freshId row).lookup dep = some old := by
        intro dep member
        obtain ⟨old,found⟩ := Option.isSome_iff_exists.mp (all dep member)
        exact ⟨old,by rw [lookup_insert_eq,if_neg (others dep member)]; exact (findTaskById_some.mp found).1⟩
      obtain ⟨after,loop,rows⟩ := forEachTask_lookup (appendBlock freshId) appendBlock_twice blockedBy _ present
      refine ⟨row,after,rfl,?_,fun k => ?_⟩
      · have same : forEachTask (appendToBlocks · · freshId) (board.insert freshId row) blockedBy = (.ok (),after) := loop
        simp only [insertTask,taken,Option.isSome_none,Bool.false_eq_true,if_false]
        rw [show (⟨freshId,teamId,subject,description,.pending,owner,blockedBy,[],none⟩ : TeamTaskRow) = row from rfl,same]
        rfl
      · rw [rows,lookup_insert_eq]
        by_cases same : k = freshId
        · subst same
          have absent : k ∉ blockedBy := fun member => others k member rfl
          simp [created,absent]
        · simp [created,same,row]

theorem updateTask_cases (teamId taskId : String) (update : TaskUpdate)
    (linked : ∀ row, board.lookup taskId = some row → ∀ next ∈ row.blocks, ∃ other, board.lookup next = some other) :
    (findTaskById board teamId taskId = none ∧
      updateTask board teamId taskId update = (.error (.taskNotFound taskId),board)) ∨
    ∃ existing row after, findTaskById board teamId taskId = some existing ∧
      updateTask board teamId taskId update = (.ok row,after) ∧
      ∀ k, after.lookup k = (board.lookup k).map (updated taskId update existing k) := by
  unfold updateTask
  cases found : findTaskById board teamId taskId with
  | none => exact .inl ⟨rfl,rfl⟩
  | some existing =>
    obtain ⟨standing,team⟩ := findTaskById_some.mp found
    obtain ⟨written,wrote,rows⟩ := repoUpdateTask_lookup standing update
    -- The unblocking loop finds every row it writes, so it cannot fail.
    have unblocked : ∃ after, (if update.status = some .completed then checkUnblocks written taskId existing
        else (.ok (),written)) = (.ok (),after) ∧
        ∀ k, after.lookup k = (board.lookup k).map (updated taskId update existing k) := by
      by_cases completes : update.status = some .completed
      · have present : ∀ next ∈ existing.blocks, ∃ other, written.lookup next = some other := by
          intro next member
          obtain ⟨other,stands⟩ := linked existing standing next member
          exact ⟨_,by rw [rows,stands]; rfl⟩
        obtain ⟨after,loop,dropped⟩ := forEachTask_lookup (dropBlocker taskId) dropBlocker_twice _ _ present
        refine ⟨after,by rw [if_pos completes]; exact loop,fun k => ?_⟩
        rw [dropped,rows,Option.map_map]
        congr 1
        funext old
        simp [updated,completes]
      · refine ⟨written,by rw [if_neg completes],fun k => ?_⟩
        rw [rows]
        congr 1
        funext old
        simp [updated,completes]
    obtain ⟨after,loop,final⟩ := unblocked
    have kept : ∃ row, findTaskById after teamId taskId = some row := by
      refine ⟨updated taskId update existing taskId existing,findTaskById_some.mpr ⟨by rw [final,standing]; rfl,?_⟩⟩
      rw [updated_teamId,team]
    obtain ⟨row,ends⟩ := kept
    refine .inr ⟨existing,row,after,rfl,?_,final⟩
    simp only [wrote,loop,ends]

end Calls

end AlineaCopilot.TeamTaskBoard
