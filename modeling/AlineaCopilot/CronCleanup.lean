import AlineaCopilot.CronJobs

open AlineaCopilot.KeyedMaps AlineaCopilot.CronJobs

namespace AlineaCopilot.CronCleanup

-- What a clean-up asks about conversations: which there are, whose lookup fails,
-- and which of them the runtime has claimed.
structure Conversations where
  present : List String
  unreadable : String → Bool
  claimed : String → Bool

def Conversations.conversationExists (conversations : Conversations) (id : String) : Except CronError Bool :=
  if conversations.unreadable id then .error (.databaseNotFound id) else .ok (decide (id ∈ conversations.present))

def Conversations.without (conversations : Conversations) (c : String) : Conversations :=
  { conversations with present := conversations.present.filter (· ≠ c) }

def Conversations.having (conversations : Conversations) (c : String) : Conversations :=
  { conversations with present := c :: conversations.present }

structure Service where
  rows : Rows
  handles : Handles
  removed : List String

section Paths
variable (conversations : Conversations)

def isOrphan (job : CronJob) : Bool :=
  if job.executionMode = .newConversation then false
  else if (RustText.trim job.conversationId).isEmpty then false
  else if conversations.claimed job.conversationId then false
  else match conversations.conversationExists job.conversationId with
    | .ok found => !found
    | .error _ => false

-- One round of the loop of `init`. A row's id is its key.
def initJob (s : Service) (row : Sigma fun _ : String => CronJob) : Service :=
  if isOrphan conversations row.2 then
    { s with rows := match deleteRow s.rows row.1 with
        | .ok rows => rows
        | .error _ => s.rows }
  else { s with handles := scheduleJob s.handles row.2 false }

def init (s : Service) : Service := (s.rows.entries.filter (·.2.enabled)).foldl (initJob conversations) s

-- The statement goes by the column alone.
def deleteJobsByConversation (s : Service) (conversation : String) : Service :=
  let jobs := s.rows.entries.filter fun row => decide (row.2.conversationId = conversation)
  { rows := deleteByConversation s.rows conversation
    handles := jobs.foldl (fun handles row => handles.erase row.1) s.handles
    removed := s.removed ++ jobs.map (·.1) }

end Paths

section Agreement
variable {conversations : Conversations} {s : Service} {c id : String} {job : CronJob}

def Removes (before after : Service) (id : String) : Prop :=
  (before.rows.lookup id).isSome = true ∧ after.rows.lookup id = none

-- The jobs that the deletion of the conversation takes along, and those that
-- `init` removes without the conversation but not with it.
def Agree (conversations : Conversations) (s : Service) (c : String) : Prop :=
  ∀ id, Removes s (deleteJobsByConversation s c) id ↔
    Removes s (init (conversations.without c) s) id ∧ ¬Removes s (init (conversations.having c) s) id

theorem deleteRow_erases (rows : Rows) (id other : String) :
    (match deleteRow rows id with
      | .ok after => after
      | .error _ => rows).lookup other = if other = id then none else rows.lookup other := by
  split
  · rename_i deleted
    exact deleteRow_lookup deleted other
  · rename_i failed
    split
    · rename_i same
      rw [same]
      exact deleteRow_error failed
    · rfl

theorem initJob_lookup (conversations : Conversations) (s : Service) (row : Sigma fun _ : String => CronJob) (id : String) :
    (initJob conversations s row).rows.lookup id =
      if row.1 = id ∧ isOrphan conversations row.2 = true then none else s.rows.lookup id := by
  unfold initJob
  by_cases orphan : isOrphan conversations row.2 = true
  · simp only [orphan,if_true,and_true]
    rw [deleteRow_erases]
    by_cases same : id = row.1
    · rw [if_pos same,if_pos same.symm]
    · rw [if_neg same,if_neg fun other => same other.symm]
  · simp only [orphan,if_false,and_false,Bool.false_eq_true]

theorem rounds_lookup (conversations : Conversations) (rounds : List (Sigma fun _ : String => CronJob)) (s : Service) (id : String) :
    (rounds.foldl (initJob conversations) s).rows.lookup id =
      if ∃ row ∈ rounds, row.1 = id ∧ isOrphan conversations row.2 = true then none else s.rows.lookup id := by
  induction rounds generalizing s with
  | nil => simp
  | cons row rounds ih =>
    rw [List.foldl_cons,ih,initJob_lookup]
    simp only [List.exists_mem_cons_iff]
    by_cases later : ∃ row ∈ rounds, row.1 = id ∧ isOrphan conversations row.2 = true
    · rw [if_pos later,if_pos (.inr later)]
    · simp only [later,if_false,or_false]

theorem init_removes (there : s.rows.lookup id = some job) :
    Removes s (init conversations s) id ↔ job.enabled = true ∧ isOrphan conversations job = true := by
  unfold Removes init
  rw [there,rounds_lookup]
  constructor
  · rintro ⟨-,gone⟩
    split at gone
    · rename_i round
      obtain ⟨⟨other,row⟩,inside,rfl,orphan⟩ := round
      obtain ⟨member,enabled⟩ := List.mem_filter.mp inside
      cases ((mem_entries_iff s.rows).mp member).symm.trans there
      exact ⟨enabled,orphan⟩
    · cases there.symm.trans gone
  · rintro ⟨enabled,orphan⟩
    refine ⟨rfl,if_pos ⟨⟨id,job⟩,List.mem_filter.mpr ⟨(mem_entries_iff s.rows).mpr there,enabled⟩,rfl,orphan⟩⟩

theorem deletion_removes (there : s.rows.lookup id = some job) :
    Removes s (deleteJobsByConversation s c) id ↔ job.conversationId = c := by
  unfold Removes deleteJobsByConversation deleteByConversation
  rw [lookup_keep,there]
  simp [Option.filter]

theorem isOrphan_iff (conversations : Conversations) (job : CronJob) : isOrphan conversations job = true ↔
    job.executionMode = .existing ∧ (RustText.trim job.conversationId).isEmpty = false ∧
      conversations.claimed job.conversationId = false ∧ conversations.unreadable job.conversationId = false ∧
      job.conversationId ∉ conversations.present := by
  unfold isOrphan Conversations.conversationExists
  cases mode : job.executionMode with
  | newConversation => simp
  | existing =>
    cases blank : (RustText.trim job.conversationId).isEmpty <;> cases claimed : conversations.claimed job.conversationId <;>
      cases unreadable : conversations.unreadable job.conversationId <;> simp

-- With the conversation there, none of its jobs is an orphan; without it, the
-- others fare as before.
theorem orphaned_iff (conversations : Conversations) (job : CronJob) (c : String) :
    isOrphan (conversations.without c) job = true ∧ ¬isOrphan (conversations.having c) job = true ↔
      job.conversationId = c ∧ job.executionMode = .existing ∧ (RustText.trim c).isEmpty = false ∧
        conversations.claimed c = false ∧ conversations.unreadable c = false := by
  rw [isOrphan_iff,isOrphan_iff]
  constructor
  · rintro ⟨⟨mode,full,free,readable,gone⟩,kept⟩
    have same : job.conversationId = c := by
      refine Classical.byContradiction fun other => kept ⟨mode,full,free,readable,?_⟩
      intro present
      rcases List.mem_cons.mp present with rfl | there
      · exact other rfl
      · exact gone (List.mem_filter.mpr ⟨there,decide_eq_true other⟩)
    exact ⟨same,mode,same ▸ full,same ▸ free,same ▸ readable⟩
  · rintro ⟨rfl,mode,full,free,readable⟩
    refine ⟨⟨mode,full,free,readable,fun present => ?_⟩,fun orphan => orphan.2.2.2.2 List.mem_cons_self⟩
    exact of_decide_eq_true (List.mem_filter.mp present).2 rfl

theorem cleanups_agree_iff (conversations : Conversations) (s : Service) (c : String) :
    Agree conversations s c ↔ ∀ id job, s.rows.lookup id = some job → job.conversationId = c →
      job.enabled = true ∧ job.executionMode = .existing ∧ (RustText.trim c).isEmpty = false ∧
        conversations.claimed c = false ∧ conversations.unreadable c = false := by
  have removed : ∀ id job, s.rows.lookup id = some job →
      ((Removes s (init (conversations.without c) s) id ∧ ¬Removes s (init (conversations.having c) s) id) ↔
        job.enabled = true ∧ job.conversationId = c ∧ job.executionMode = .existing ∧ (RustText.trim c).isEmpty = false ∧
          conversations.claimed c = false ∧ conversations.unreadable c = false) := by
    intro id job there
    rw [init_removes there,init_removes there,← orphaned_iff]
    constructor
    · rintro ⟨⟨enabled,orphan⟩,kept⟩
      exact ⟨enabled,orphan,fun other => kept ⟨enabled,other⟩⟩
    · rintro ⟨enabled,orphan,kept⟩
      exact ⟨⟨enabled,orphan⟩,fun other => kept other.2⟩
  constructor
  · intro agree id job there bound
    obtain ⟨enabled,-,rest⟩ := (removed id job there).mp ((agree id).mp ((deletion_removes there).mpr bound))
    exact ⟨enabled,rest⟩
  · intro fit id
    cases there : s.rows.lookup id with
    | none =>
      constructor
      · intro removes
        rw [Removes,there] at removes
        cases removes.1
      · intro removes
        rw [Removes,there] at removes
        cases removes.1.1
    | some job =>
      rw [deletion_removes there,removed id job there]
      constructor
      · intro bound
        obtain ⟨enabled,rest⟩ := fit id job there bound
        exact ⟨enabled,bound,rest⟩
      · exact fun removes => removes.2.1

-- A job that starts a conversation of its own at every run, and names the first.
def nightly : CronJob where
  id := "cron_1"
  name := "Nightly"
  enabled := true
  schedule := .every 86400000 none
  message := "Sum up the day"
  executionMode := .newConversation
  conversationId := "conv_1"
  description := none
  nextRunAt := some 86400000
  lastRunAt := some 0
  lastStatus := some .ok
  lastError := none
  runCount := 1
  retryCount := 0
  maxRetries := 3

def nightlyService : Service := ⟨AList.insert "cron_1" nightly ∅,∅,[]⟩

theorem new_conversation_job_deleted :
    Removes nightlyService (deleteJobsByConversation nightlyService "conv_1") "cron_1" ∧
      ¬Removes nightlyService (init ⟨[],fun _ => false,fun _ => false⟩ nightlyService) "cron_1" ∧
      ¬Agree ⟨["conv_1"],fun _ => false,fun _ => false⟩ nightlyService "conv_1" := by
  have there : nightlyService.rows.lookup "cron_1" = some nightly := rfl
  refine ⟨(deletion_removes there).mpr rfl,fun removes => ?_,fun agree => ?_⟩
  · have orphan := (isOrphan_iff _ _).mp ((init_removes there).mp removes).2
    cases orphan.1
  · have fits := (init_removes there).mp ((agree "cron_1").mp ((deletion_removes there).mpr rfl)).1
    have orphan := (isOrphan_iff _ _).mp fits.2
    cases orphan.1

end Agreement

end AlineaCopilot.CronCleanup
