import AlineaCopilot.CronOwnership

open AlineaCopilot.KeyedMaps AlineaCopilot.TransitionRuns AlineaCopilot.CronJobs
open AlineaCopilot.CronService (recordParams disabled skippedParams missedParams overdue)

namespace AlineaCopilot.CronOwnership

section Statements
variable (calendar : Calendar)

def Response.shows : Response → List CronJob
  | .listed jobs => jobs
  | .job one | .updated one | .running one _ | .hasSkill one _ => [one]
  | .command _ about => about
  | _ => []

-- What an answer shows, and what has been run, changed or deleted with it, is
-- the user's.
structure Isolated (s : Store) (user : String) (result : Store × Response) : Prop where
  shown : ∀ job ∈ result.2.shows, s.jobOwnerUserId job = user
  jobs : ∀ id job, s.jobs.lookup id = some job → result.1.jobs.lookup id ≠ some job → s.jobOwnerUserId job = user
  skills : ∀ id job, s.jobs.lookup id = some job → result.1.skills.lookup id ≠ s.skills.lookup id → s.jobOwnerUserId job = user

-- The user may still get, delete and edit the job, and the conversations its
-- runs create are the user's.
structure Usable (s : Store) (id user : String) (job : CronJob) : Prop where
  get : ∀ freshId now checks, serve calendar s (.http user (.getJob id) freshId now checks) = (s,.job job)
  delete : ∀ freshId now checks, (serve calendar s (.http user (.deleteJob id) freshId now checks)).1.jobs.lookup id = none
  update : ∀ req freshId now edited, job.edited calendar req now = .ok edited →
    (serve calendar s (.http user (.updateJob id req) freshId now (.ok ()))).2 = .updated edited ∧
      (serve calendar s (.http user (.updateJob id req) freshId now (.ok ()))).1.jobs.lookup id =
        some (job.apply (buildUpdateParams edited req))
  runs : ∀ freshId after conversation, s.resolveConversation job freshId = .ok (after,conversation) →
    after.conversations = s.conversations ∨ after.conversations = s.conversations.insert freshId user

-- An agent's command names a job of the user's or none at all, an edit of it
-- that is refused apart; the jobs of its conversation are the user's; a job is
-- created in a conversation of its creator's; and the resume that is meant for
-- the application itself finds only jobs of the caller.
def Within (s : Store) : Request → Prop
  | .http user (.createJob req) _ _ _ => s.userOwnsConversation user req.conversationId = true → s.ownerOf req.conversationId = user
  | .http user (.systemResume true) _ _ _ => ∀ job ∈ listEnabled s.jobs, s.jobOwnerUserId job = user
  | .output user _ (.update params) _ now checks => ∀ job edited, s.jobs.lookup params.jobId = some job →
    job.edited calendar params.request now = .ok edited → checks = .ok () → s.jobOwnerUserId job = user
  | .output user conversation .list _ _ _ => ∀ job ∈ s.listJobs (some conversation), s.jobOwnerUserId job = user
  | .output user _ (.delete id) _ _ _ => ∀ job, s.jobs.lookup id = some job → s.jobOwnerUserId job = user
  | _ => True

end Statements

section Frames

def Keyed (s : Store) : Prop := ∀ id job, s.jobs.lookup id = some job → job.id = id

-- Nothing about any other job has changed.
def Only (id : String) (s after : Store) : Prop :=
  ∀ other, other ≠ id → after.jobs.lookup other = s.jobs.lookup other ∧ after.skills.lookup other = s.skills.lookup other

-- The same jobs, or fewer, with the owners they had.
structure Follows (s after : Store) : Prop where
  creators : after.creators = s.creators
  jobs : ∀ id job, after.jobs.lookup id = some job →
    ∃ old, s.jobs.lookup id = some old ∧ job.id = old.id ∧ after.jobOwnerUserId job = s.jobOwnerUserId old

variable {s after later : Store} {id : String} {job : CronJob}

theorem Only.refl (id : String) (s : Store) : Only id s s := fun _ _ => ⟨rfl,rfl⟩

theorem Only.trans (first : Only id s after) (second : Only id after later) : Only id s later := fun other apart =>
  ⟨(second other apart).1.trans (first other apart).1,(second other apart).2.trans (first other apart).2⟩

theorem Follows.refl (s : Store) : Follows s s := ⟨rfl,fun _ job there => ⟨job,there,rfl,rfl⟩⟩

theorem Follows.trans (first : Follows s after) (second : Follows after later) : Follows s later := by
  refine ⟨second.creators.trans first.creators,fun id job there => ?_⟩
  obtain ⟨middle,between,same,owner⟩ := second.jobs id job there
  obtain ⟨old,before,also,owned⟩ := first.jobs id middle between
  exact ⟨old,before,same.trans also,owner.trans owned⟩

theorem tries_lookup (s : Store) (id : String) (params : UpdateCronJobParams) (other : String) :
    (s.tries id params).jobs.lookup other = if other = id then (s.jobs.lookup id).map (·.apply params) else s.jobs.lookup other := by
  unfold Store.tries
  split
  · rename_i updated
    exact updateRow_lookup updated other
  · rename_i failed
    split
    · rename_i same
      rw [same,updateRow_error failed]
      rfl
    · rfl

theorem tries_rest (s : Store) (id : String) (params : UpdateCronJobParams) : (s.tries id params).conversations = s.conversations ∧
    (s.tries id params).skills = s.skills ∧ (s.tries id params).creators = s.creators := by
  unfold Store.tries
  split <;> exact ⟨rfl,rfl,rfl⟩

theorem tries_only (s : Store) (id : String) (params : UpdateCronJobParams) : Only id s (s.tries id params) := fun other apart =>
  ⟨(tries_lookup ..).trans (if_neg apart),by rw [(tries_rest s id params).2.1]⟩

theorem ownerOf_congr (same : after.conversations = s.conversations) (conversation : String) :
    after.ownerOf conversation = s.ownerOf conversation := by
  simp only [Store.ownerOf,same]

-- An update follows if the conversation it binds has the owner the job had.
theorem tries_follows (s : Store) (id : String) (params : UpdateCronJobParams)
    (owner : ∀ job, s.jobs.lookup id = some job → s.ownerOf (params.conversationId.getD job.conversationId) = s.jobOwnerUserId job) :
    Follows s (s.tries id params) := by
  obtain ⟨conversations,-,creators⟩ := tries_rest s id params
  refine ⟨creators,fun other job there => ?_⟩
  rw [tries_lookup] at there
  split at there
  · rename_i same
    subst same
    obtain ⟨old,before,rfl⟩ := Option.map_eq_some_iff.mp there
    exact ⟨old,before,rfl,(ownerOf_congr conversations _).trans (owner old before)⟩
  · exact ⟨job,there,rfl,ownerOf_congr conversations _⟩

theorem tries_plain (s : Store) (id : String) {params : UpdateCronJobParams} (unbound : params.conversationId = none) :
    Follows s (s.tries id params) :=
  tries_follows s id params fun job _ => by rw [unbound]; rfl

theorem updateJob_ok {calendar : Calendar} {req : UpdateCronJobRequest} {now : Int} {checks : Except CronError Unit} {edited : CronJob}
    (updated : s.updateJob calendar id req now checks = .ok (after,edited)) :
    ∃ job, s.jobs.lookup id = some job ∧ job.edited calendar req now = .ok edited ∧ checks = .ok () ∧
      after = s.tries id (buildUpdateParams edited req) := by
  unfold Store.updateJob Store.getJob at updated
  cases there : s.jobs.lookup id with
  | none =>
    rw [there] at updated
    cases updated
  | some job =>
    rw [there] at updated
    cases editing : job.edited calendar req now with
    | error error => simp [editing,bind,Except.bind] at updated
    | ok copy =>
      cases checked : checks with
      | error error => simp [editing,checked,bind,Except.bind] at updated
      | ok _ =>
        cases written : updateRow s.jobs id (buildUpdateParams copy req) with
        | error error => simp [editing,checked,written,bind,Except.bind] at updated
        | ok jobs =>
          simp only [editing,checked,written,bind,Except.bind,pure,Except.pure] at updated
          cases updated
          refine ⟨job,rfl,editing,rfl,?_⟩
          rw [Store.tries,written]

theorem edited_conversation {calendar : Calendar} {req : UpdateCronJobRequest} {now : Int} {edited : CronJob}
    (editing : job.edited calendar req now = .ok edited) : edited.conversationId = job.conversationId := by
  unfold CronJob.edited at editing
  cases dto : req.schedule with
  | none =>
    simp only [dto,bind,Except.bind,pure,Except.pure] at editing
    cases editing
    rfl
  | some schedule =>
    simp only [dto,bind,Except.bind,pure,Except.pure] at editing
    split at editing
    · cases editing
    · cases editing
      rfl

end Frames

section Operations
variable {calendar : Calendar} {s after prepared : Store} {id freshId conversation : String} {job : CronJob}

theorem removeJob_lookup (s : Store) (id other : String) :
    (s.removeJob id).1.jobs.lookup other = if other = id then none else s.jobs.lookup other := by
  unfold Store.removeJob
  split
  · rename_i failed
    split
    · rename_i same
      rw [same]
      exact deleteRow_error failed
    · rfl
  · rename_i deleted
    exact deleteRow_lookup deleted other

theorem removeJob_rest (s : Store) (id : String) : (s.removeJob id).1.conversations = s.conversations ∧
    (s.removeJob id).1.skills = s.skills.erase id ∧ (s.removeJob id).1.creators = s.creators := by
  unfold Store.removeJob
  split <;> exact ⟨rfl,rfl,rfl⟩

theorem removeJob_only (s : Store) (id : String) : Only id s (s.removeJob id).1 := fun other apart =>
  ⟨(removeJob_lookup ..).trans (if_neg apart),by rw [(removeJob_rest s id).2.1,lookup_erase_eq,if_neg apart]⟩

theorem removeJob_follows (s : Store) (id : String) : Follows s (s.removeJob id).1 := by
  obtain ⟨conversations,-,creators⟩ := removeJob_rest s id
  refine ⟨creators,fun other job there => ?_⟩
  rw [removeJob_lookup] at there
  split at there
  · cases there
  · exact ⟨job,there,rfl,ownerOf_congr conversations _⟩

theorem resolve_ok (resolved : s.resolveConversation job freshId = .ok (prepared,conversation)) :
    prepared = s.createNewConversation job freshId ∧ conversation = freshId ∨
      prepared = s ∧ conversation = job.conversationId ∧ isBlank job.conversationId = false := by
  unfold Store.resolveConversation at resolved
  split at resolved
  · cases resolved
    exact .inl ⟨rfl,rfl⟩
  · split at resolved
    · cases resolved
      exact .inl ⟨rfl,rfl⟩
    · rename_i there
      split at resolved
      · cases resolved
        exact .inr ⟨rfl,rfl,Bool.eq_false_iff.mpr there⟩
      · cases resolved

theorem resolve_rest (resolved : s.resolveConversation job freshId = .ok (prepared,conversation)) :
    prepared.jobs = s.jobs ∧ prepared.skills = s.skills ∧ prepared.creators = s.creators := by
  rcases resolve_ok resolved with ⟨rfl,-⟩ | ⟨rfl,-⟩ <;> exact ⟨rfl,rfl,rfl⟩

theorem fresh_conversation (fresh : s.freshConversation freshId = true) :
    isBlank freshId = false ∧ s.conversations.lookup freshId = none ∧
      ∀ id job, s.jobs.lookup id = some job → job.conversationId ≠ freshId := by
  simp only [Store.freshConversation,Bool.and_eq_true,Bool.not_eq_true',Option.isNone_iff_eq_none,List.all_eq_true,
    decide_eq_false_iff_not] at fresh
  exact ⟨fresh.1.1,fresh.1.2,fun id job there => fresh.2 job ((mem_values s.jobs).mpr ⟨id,there⟩)⟩

theorem insert_follows (fresh : s.freshConversation freshId = true) (user : String) :
    Follows s { s with conversations := s.conversations.insert freshId user } := by
  obtain ⟨-,-,unnamed⟩ := fresh_conversation fresh
  refine ⟨rfl,fun id job there => ⟨job,there,rfl,?_⟩⟩
  simp only [Store.jobOwnerUserId,Store.ownerOf,lookup_insert_eq,if_neg (unnamed id job there)]

theorem record_only (s : Store) (id : String) (ended : Except String String) (now : Int) : Only id s (s.record id ended now) := by
  unfold Store.record
  split
  · exact .refl id s
  · exact tries_only s _ _

theorem unbound_owner (blank : isBlank job.conversationId = true) : s.jobOwnerUserId job = SYSTEM_DEFAULT_USER_ID := by
  unfold Store.jobOwnerUserId Store.ownerOf
  rw [if_pos blank]

-- Recording a run follows if a conversation bound by it has the owner that a
-- job without one has.
theorem record_follows {ended : Except String String} {now : Int}
    (bound : ∀ conversation, ended = .ok conversation → ∀ job, s.jobs.lookup id = some job → isBlank job.conversationId = true →
      s.ownerOf conversation = SYSTEM_DEFAULT_USER_ID) : Follows s (s.record id ended now) := by
  unfold Store.record
  split
  · exact .refl s
  · rename_i existing there
    refine tries_follows s id _ fun job found => ?_
    cases there.symm.trans found
    cases ended with
    | error message => rfl
    | ok conversation =>
      by_cases blank : isBlank existing.conversationId = true
      · have system : s.jobOwnerUserId existing = SYSTEM_DEFAULT_USER_ID := unbound_owner blank
        simp only [recordParams]
        split
        · exact (bound conversation rfl existing there blank).trans system.symm
        · rfl
      · have unbound : (recordParams existing now (.ok conversation)).conversationId = none := by
          have full : (RustText.trim existing.conversationId).isEmpty = false := Bool.eq_false_iff.mpr blank
          simp [recordParams,full]
        rw [unbound]
        rfl

theorem reschedule_frame (calendar : Calendar) (s : Store) (job : CronJob) (now : Int) :
    Only job.id s (s.reschedule calendar job now) ∧ Follows s (s.reschedule calendar job now) := by
  unfold Store.reschedule
  split
  · exact ⟨tries_only s _ _,tries_plain s _ rfl⟩
  · exact ⟨tries_only s _ _,tries_plain s _ rfl⟩

-- A run's own conversation, when it has created one, is the owner's.
theorem resolved_record_follows (fresh : s.freshConversation freshId = true) (there : s.jobs.lookup id = some job)
    (resolved : s.resolveConversation job freshId = .ok (prepared,conversation)) (ended : Except String Unit) (now : Int) :
    Follows s (prepared.record id (ended.map fun _ => conversation) now) := by
  obtain ⟨full,-,-⟩ := fresh_conversation fresh
  rcases resolve_ok resolved with ⟨rfl,rfl⟩ | ⟨rfl,rfl,named⟩
  · refine (insert_follows fresh (s.jobOwnerUserId job)).trans (record_follows fun bound ended_is other found blank => ?_)
    cases there.symm.trans found
    have same : bound = conversation := by
      cases ended with
      | error message => cases ended_is
      | ok _ =>
        cases ended_is
        rfl
    have owner : s.jobOwnerUserId job = SYSTEM_DEFAULT_USER_ID := unbound_owner blank
    have named : isBlank SYSTEM_DEFAULT_USER_ID = false := by decide
    rw [same]
    simp [Store.ownerOf,full,owner,named]
  · refine record_follows fun bound ended_is other found blank => ?_
    cases there.symm.trans found
    rw [named] at blank
    cases blank

theorem resolved_follows (fresh : s.freshConversation freshId = true)
    (resolved : s.resolveConversation job freshId = .ok (prepared,conversation)) : Follows s prepared := by
  rcases resolve_ok resolved with ⟨rfl,-⟩ | ⟨rfl,-⟩
  · exact insert_follows fresh _
  · exact .refl _

theorem resolved_only (resolved : s.resolveConversation job freshId = .ok (prepared,conversation)) (id : String) : Only id s prepared := by
  obtain ⟨jobs,skills,-⟩ := resolve_rest resolved
  exact fun other _ => ⟨by rw [jobs],by rw [skills]⟩

theorem runNow_ok {run : Run} (ran : s.runNow job run = .ok (after,conversation)) :
    ∃ prepared, s.resolveConversation job run.freshId = .ok (prepared,conversation) ∧
      after = prepared.record job.id (run.ended.map fun _ => conversation) run.now := by
  unfold Store.runNow at ran
  cases checked : run.checks with
  | error error => simp [checked,bind,Except.bind] at ran
  | ok _ =>
    cases resolved : s.resolveConversation job run.freshId with
    | error error => simp [checked,resolved,bind,Except.bind] at ran
    | ok result =>
      simp only [checked,resolved,bind,Except.bind,pure,Except.pure] at ran
      split at ran
      · cases ran
      · cases ran
        exact ⟨_,rfl,rfl⟩

theorem tick_follows (keyed : Keyed s) {run : Run} (fresh : s.freshConversation run.freshId = true) :
    Follows s (s.tick calendar id run) := by
  unfold Store.tick
  split
  · exact .refl s
  · rename_i job there
    cases keyed id job there
    split
    · exact .refl s
    · split
      · exact (record_follows fun _ failed => by cases failed).trans (reschedule_frame ..).2
      · rename_i prepared conversation resolved
        have resolved : s.resolveConversation job run.freshId = .ok (prepared,conversation) := by
          cases checked : run.checks with
          | error error => simp [checked,bind,Except.bind] at resolved
          | ok _ => simpa [checked,bind,Except.bind] using resolved
        have ready := resolved_follows fresh resolved
        split
        · split
          · exact ready.trans (tries_plain prepared _ rfl)
          · exact (ready.trans (tries_plain prepared _ rfl)).trans (reschedule_frame ..).2
        · exact (resolved_record_follows fresh there resolved run.ended run.now).trans (reschedule_frame ..).2

theorem resumeJob_frame (calendar : Calendar) (now : Int) (s : Store) (job : CronJob) :
    Only job.id s (s.resumeJob calendar now job) ∧ Follows s (s.resumeJob calendar now job) := by
  unfold Store.resumeJob
  split
  · have moved := reschedule_frame calendar (s.tries job.id missedParams) job now
    exact ⟨(tries_only s _ _).trans moved.1,(tries_plain s _ rfl).trans moved.2⟩
  · exact ⟨.refl _ s,.refl s⟩

-- A resume comes to the jobs of its list and to no other.
theorem resumeJobs_frame (calendar : Calendar) (now : Int) (jobs : List CronJob) (s : Store) :
    (∀ other, other ∉ jobs.map (·.id) →
      (jobs.foldl (Store.resumeJob calendar now) s).jobs.lookup other = s.jobs.lookup other ∧
      (jobs.foldl (Store.resumeJob calendar now) s).skills.lookup other = s.skills.lookup other) ∧
    Follows s (jobs.foldl (Store.resumeJob calendar now) s) := by
  induction jobs generalizing s with
  | nil => exact ⟨fun _ _ => ⟨rfl,rfl⟩,.refl s⟩
  | cons job jobs ih =>
    obtain ⟨only,follows⟩ := resumeJob_frame calendar now s job
    obtain ⟨rest,onward⟩ := ih (s.resumeJob calendar now job)
    refine ⟨fun other apart => ?_,follows.trans onward⟩
    obtain ⟨here,later⟩ := not_or.mp (fun either => apart (List.mem_cons.mpr either))
    exact ⟨(rest other later).1.trans (only other here).1,(rest other later).2.trans (only other here).2⟩

end Operations

section Isolation
variable {calendar : Calendar} {s after : Store} {user id : String} {job : CronJob} {response : Response}

theorem guarded_cases (s : Store) (user id : String) (act : CronJob → Store × Response) :
    (∃ error, s.guarded user id act = (s,.failed error)) ∨
      ∃ job, s.jobs.lookup id = some job ∧ s.jobOwnerUserId job = user ∧ s.guarded user id act = act job := by
  unfold Store.guarded Store.ensureOwner Store.getJob
  cases there : s.jobs.lookup id with
  | none => exact .inl ⟨_,rfl⟩
  | some job =>
    by_cases owned : s.jobOwnerUserId job = user
    · refine .inr ⟨job,rfl,owned,?_⟩
      simp [owned,bind,Except.bind,pure,Except.pure]
    · refine .inl ⟨.jobNotFound id,?_⟩
      simp [owned,bind,Except.bind,throw,throwThe,MonadExceptOf.throw]

theorem none_shown (empty : response.shows = []) : ∀ job ∈ response.shows, s.jobOwnerUserId job = user := by
  rw [empty]
  exact fun job listed => absurd listed List.not_mem_nil

theorem isolated_still (shown : ∀ job ∈ response.shows, s.jobOwnerUserId job = user) : Isolated s user (s,response) :=
  ⟨shown,fun _ _ there changed => absurd there changed,fun _ _ _ changed => absurd rfl changed⟩

theorem isolated_only (there : s.jobs.lookup id = some job) (owned : s.jobOwnerUserId job = user) (only : Only id s after)
    (shown : ∀ job ∈ response.shows, s.jobOwnerUserId job = user) : Isolated s user (after,response) := by
  refine ⟨shown,fun other row found changed => ?_,fun other row found changed => ?_⟩
  · by_cases same : other = id
    · subst same
      cases there.symm.trans found
      exact owned
    · exact absurd ((only other same).1.trans found) changed
  · by_cases same : other = id
    · subst same
      cases there.symm.trans found
      exact owned
    · exact absurd (only other same).2 changed

-- Where there is no such job, the jobs that there are are left alone.
theorem isolated_absent (absent : s.jobs.lookup id = none) (only : Only id s after)
    (shown : ∀ job ∈ response.shows, s.jobOwnerUserId job = user) : Isolated s user (after,response) := by
  have apart : ∀ {other row}, s.jobs.lookup other = some row → other ≠ id := by
    rintro other row found rfl
    cases absent.symm.trans found
  exact ⟨shown,fun other row found changed => absurd ((only other (apart found)).1.trans found) changed,
    fun other row found changed => absurd (only other (apart found)).2 changed⟩

theorem added_isolated {req : CreateCronJobRequest} {now : Int} {checks : Except CronError Unit} (fresh : s.freshJob id = true)
    (added : s.addJob calendar id req now checks = .ok (after,job)) (creators : KeyedMap String String)
    (shown : ∀ job ∈ response.shows, s.jobOwnerUserId job = user) : Isolated s user ({ after with creators := creators },response) := by
  have absent : s.jobs.lookup id = none := Option.isNone_iff_eq_none.mp fresh
  unfold Store.addJob at added
  simp only [bind,Except.bind,pure,Except.pure] at added
  split at added
  · cases added
  · split at added
    · cases added
    · cases added
      exact isolated_absent absent (fun other apart => ⟨(lookup_insert_eq ..).trans (if_neg apart),rfl⟩) shown

theorem updateJob_isolated {req : UpdateCronJobRequest} {now : Int} {checks : Except CronError Unit} {edited : CronJob}
    (updated : s.updateJob calendar id req now checks = .ok (after,edited))
    (owned : ∀ job, s.jobs.lookup id = some job → s.jobOwnerUserId job = user)
    (shown : ∀ job ∈ response.shows, job = edited) : Isolated s user (after,response) := by
  obtain ⟨job,there,editing,-,rfl⟩ := updateJob_ok updated
  refine isolated_only there (owned job there) (tries_only s _ _) fun other listed => ?_
  rw [shown other listed,Store.jobOwnerUserId,edited_conversation editing]
  exact owned job there

theorem http_isolated (keyed : Keyed s) (user freshId : String) (now : Int) (checks : Except CronError Unit) (request : HttpRequest)
    (fresh : s.fresh (.http user request freshId now checks) = true) (within : Within calendar s (.http user request freshId now checks)) :
    Isolated s user (s.http calendar user freshId now checks request) := by
  have guarded : ∀ id act, (∀ job, s.jobs.lookup id = some job → s.jobOwnerUserId job = user → Isolated s user (act job)) →
      Isolated s user (s.guarded user id act) := by
    intro id act each
    rcases guarded_cases s user id act with ⟨error,refused⟩ | ⟨job,there,owned,allowed⟩
    · rw [refused]
      exact isolated_still fun _ => nofun
    · rw [allowed]
      exact each job there owned
  cases request with
  | createJob req =>
    simp only [Store.http]
    split
    · exact isolated_still (none_shown rfl)
    · split
      · exact isolated_still (none_shown rfl)
      · rename_i added
        exact added_isolated fresh added _ (none_shown rfl)
  | listJobs conversation =>
    refine isolated_still fun job listed => ?_
    exact of_decide_eq_true (List.mem_filter.mp listed).2
  | getJob id =>
    refine guarded id _ fun job there owned => isolated_still fun other listed => ?_
    cases List.mem_singleton.mp listed
    exact owned
  | updateJob id req =>
    refine guarded id _ fun job there owned => ?_
    unfold Store.respond
    split
    · exact isolated_still (none_shown rfl)
    · rename_i updated
      refine updateJob_isolated updated (fun other found => ?_) fun other listed => List.mem_singleton.mp listed
      cases there.symm.trans found
      exact owned
  | deleteJob id =>
    refine guarded id _ fun job there owned => ?_
    have only := removeJob_only s id
    split
    · rename_i after removed
      rw [removed] at only
      exact isolated_only there owned only (none_shown rfl)
    · rename_i after error removed
      rw [removed] at only
      exact isolated_only there owned only (none_shown rfl)
  | runNow id run =>
    refine guarded id _ fun job there owned => ?_
    cases keyed id job there
    split
    · exact isolated_still (none_shown rfl)
    · rename_i after conversation ran
      obtain ⟨prepared,resolved,rfl⟩ := runNow_ok ran
      refine isolated_only there owned ((resolved_only resolved _).trans (record_only prepared _ _ _)) fun other listed => ?_
      cases List.mem_singleton.mp listed
      exact owned
  | systemResume isInternal =>
    simp only [Store.http]
    split
    · rename_i meant
      subst meant
      have owned : ∀ id job, s.jobs.lookup id = some job → id ∈ (listEnabled s.jobs).map (·.id) → s.jobOwnerUserId job = user := by
        intro id job there listed
        obtain ⟨other,enabled,same⟩ := List.mem_map.mp listed
        obtain ⟨key,found⟩ := (mem_values s.jobs).mp (List.mem_filter.mp enabled).1
        have key_is := keyed key other found
        rw [← key_is,same] at found
        cases there.symm.trans found
        exact within job enabled
      have apart := (resumeJobs_frame calendar now (listEnabled s.jobs) s).1
      refine ⟨none_shown rfl,fun id job there changed => ?_,fun id job there changed => ?_⟩
      · by_cases listed : id ∈ (listEnabled s.jobs).map (·.id)
        · exact owned id job there listed
        · exact absurd ((apart id listed).1.trans there) changed
      · by_cases listed : id ∈ (listEnabled s.jobs).map (·.id)
        · exact owned id job there listed
        · exact absurd (apart id listed).2 changed
    · exact isolated_still (none_shown rfl)
  | saveSkill id content =>
    refine guarded id _ fun job there owned => ?_
    split
    · exact isolated_still (none_shown rfl)
    · split
      · exact isolated_still (none_shown rfl)
      · exact isolated_only there owned (fun other apart => ⟨rfl,(lookup_insert_eq ..).trans (if_neg apart)⟩) (none_shown rfl)
  | hasSkill id =>
    refine guarded id _ fun job there owned => isolated_still fun other listed => ?_
    cases List.mem_singleton.mp listed
    exact owned
  | deleteSkill id =>
    refine guarded id _ fun job there owned => ?_
    exact isolated_only there owned (fun other apart => ⟨rfl,(lookup_erase_eq ..).trans (if_neg apart)⟩) (none_shown rfl)

theorem command_isolated (user conversation freshId : String) (now : Int) (checks : Except CronError Unit) (command : CronCommand)
    (fresh : s.fresh (.output user conversation command freshId now checks) = true)
    (within : Within calendar s (.output user conversation command freshId now checks)) :
    Isolated s user (s.command calendar conversation freshId now checks command) := by
  cases command with
  | create params =>
    simp only [Store.command]
    split
    · exact isolated_still (none_shown rfl)
    · rename_i after job added
      exact added_isolated fresh added after.creators (none_shown rfl)
  | update params =>
    simp only [Store.command]
    split
    · exact isolated_still (none_shown rfl)
    · rename_i after edited updated
      refine updateJob_isolated updated (fun job there => ?_) fun other listed => List.mem_singleton.mp listed
      obtain ⟨old,found,editing,passed,-⟩ := updateJob_ok updated
      cases there.symm.trans found
      exact within job edited there editing passed
  | list =>
    simp only [Store.command]
    split
    · exact isolated_still (none_shown rfl)
    · exact isolated_still within
  | delete id =>
    have only := removeJob_only s id
    simp only [Store.command]
    cases there : s.jobs.lookup id with
    | none =>
      split
      · rename_i after removed
        rw [removed] at only
        exact isolated_absent there only (none_shown rfl)
      · rename_i after error removed
        rw [removed] at only
        exact isolated_absent there only (none_shown rfl)
    | some job =>
      have owned := within job there
      split
      · rename_i after removed
        rw [removed] at only
        exact isolated_only there owned only (none_shown rfl)
      · rename_i after error removed
        rw [removed] at only
        exact isolated_only there owned only (none_shown rfl)

end Isolation

section Creators
variable {calendar : Calendar} {s after : Store} {user id freshId : String} {job : CronJob} {now : Int} {checks : Except CronError Unit}

-- Every job is still its creator's.
structure Held (s : Store) : Prop where
  keyed : Keyed s
  creators : ∀ id user, s.creators.lookup id = some user → ∀ job, s.jobs.lookup id = some job → s.jobOwnerUserId job = user

theorem Held.follows (held : Held s) (follows : Follows s after) : Held after := by
  refine ⟨fun id job there => ?_,fun id user made job there => ?_⟩
  · obtain ⟨old,before,same,-⟩ := follows.jobs id job there
    exact same.trans (held.keyed id old before)
  · obtain ⟨old,before,-,owner⟩ := follows.jobs id job there
    exact owner.trans (held.creators id user (follows.creators ▸ made) old before)

theorem addJob_ok {req : CreateCronJobRequest} (added : s.addJob calendar id req now checks = .ok (after,job)) :
    job = newJob calendar id req now ∧ after = { s with jobs := s.jobs.insert id job, creators := s.creators.erase id } := by
  unfold Store.addJob at added
  simp only [bind,Except.bind,pure,Except.pure] at added
  split at added
  · cases added
  · split at added
    · cases added
    · cases added
      exact ⟨rfl,rfl⟩

-- A new job is the creator's if one is noted, whoever the others belong to.
theorem Held.adds (held : Held s) (creators : KeyedMap String String) (new : job.id = id)
    (others : ∀ other, other ≠ id → creators.lookup other = s.creators.lookup other)
    (mine : ∀ user, creators.lookup id = some user → s.ownerOf job.conversationId = user) :
    Held { s with jobs := s.jobs.insert id job, creators := creators } := by
  refine ⟨fun other row there => ?_,fun other user made row there => ?_⟩
  · change (s.jobs.insert id job).lookup other = some row at there
    rw [lookup_insert_eq] at there
    split at there
    · rename_i same
      cases there
      exact new.trans same.symm
    · exact held.keyed other row there
  · change (s.jobs.insert id job).lookup other = some row at there
    rw [lookup_insert_eq] at there
    split at there
    · rename_i same
      cases there
      subst same
      exact mine user made
    · rename_i apart
      exact held.creators other user ((others other apart).symm.trans made) row there

theorem skills_follow (s : Store) (skills : KeyedMap String String) : Follows s { s with skills := skills } :=
  ⟨rfl,fun _ job there => ⟨job,there,rfl,rfl⟩⟩

theorem deleted_follows (s : Store) (conversation : String) :
    Follows s { s with conversations := s.conversations.erase conversation, jobs := deleteByConversation s.jobs conversation } := by
  refine ⟨rfl,fun id job there => ?_⟩
  change (deleteByConversation s.jobs conversation).lookup id = some job at there
  rw [deleteByConversation,lookup_keep,Option.filter_eq_some_iff] at there
  obtain ⟨there,apart⟩ := there
  refine ⟨job,there,rfl,?_⟩
  have other : job.conversationId ≠ conversation := by simpa using apart
  simp only [Store.jobOwnerUserId,Store.ownerOf,lookup_erase_eq,if_neg other]

theorem Held.http (held : Held s) (request : HttpRequest) (fresh : s.fresh (.http user request freshId now checks) = true)
    (within : Within calendar s (.http user request freshId now checks)) :
    Held (s.http calendar user freshId now checks request).1 := by
  have guarded : ∀ id act, (∀ job, s.jobs.lookup id = some job → Follows s (act job).1) → Held (s.guarded user id act).1 := by
    intro id act each
    rcases guarded_cases s user id act with ⟨error,refused⟩ | ⟨job,there,-,allowed⟩
    · rw [refused]
      exact held
    · rw [allowed]
      exact held.follows (each job there)
  cases request with
  | createJob req =>
    simp only [Store.http]
    split
    · exact held
    · rename_i allowed
      split
      · exact held
      · rename_i after job added
        obtain ⟨rfl,rfl⟩ := addJob_ok added
        refine held.adds _ rfl (fun other apart => ?_) fun creator made => ?_
        · rw [lookup_insert_eq,if_neg apart,lookup_erase_eq,if_neg apart]
        · rw [lookup_insert_eq,if_pos rfl] at made
          cases made
          exact within (by simpa using allowed)
  | listJobs conversation => exact held
  | getJob id => exact guarded id _ fun _ _ => .refl s
  | updateJob id req =>
    refine guarded id _ fun job there => ?_
    unfold Store.respond
    split
    · exact .refl s
    · rename_i updated
      obtain ⟨-,-,-,-,rfl⟩ := updateJob_ok updated
      exact tries_plain s id rfl
  | deleteJob id =>
    refine guarded id _ fun job there => ?_
    have follows := removeJob_follows s id
    split
    · rename_i after removed
      rw [removed] at follows
      exact follows
    · rename_i after error removed
      rw [removed] at follows
      exact follows
  | runNow id run =>
    refine guarded id _ fun job there => ?_
    cases held.keyed id job there
    split
    · exact .refl s
    · rename_i after conversation ran
      obtain ⟨prepared,resolved,rfl⟩ := runNow_ok ran
      exact resolved_record_follows fresh there resolved run.ended run.now
  | systemResume isInternal =>
    simp only [Store.http]
    split
    · exact held.follows (resumeJobs_frame calendar now _ s).2
    · exact held
  | saveSkill id content =>
    refine guarded id _ fun job there => ?_
    split
    · exact .refl s
    · split
      · exact .refl s
      · exact skills_follow s _
  | hasSkill id => exact guarded id _ fun _ _ => .refl s
  | deleteSkill id => exact guarded id _ fun _ _ => skills_follow s _

theorem Held.command (held : Held s) (conversation : String) (command : CronCommand) :
    Held (s.command calendar conversation freshId now checks command).1 := by
  cases command with
  | create params =>
    simp only [Store.command]
    split
    · exact held
    · rename_i after job added
      obtain ⟨rfl,rfl⟩ := addJob_ok added
      refine held.adds _ rfl (fun other apart => ?_) fun creator made => ?_
      · rw [lookup_erase_eq,if_neg apart]
      · rw [lookup_erase_eq,if_pos rfl] at made
        cases made
  | update params =>
    simp only [Store.command]
    split
    · exact held
    · rename_i after edited updated
      obtain ⟨-,-,-,-,rfl⟩ := updateJob_ok updated
      exact held.follows (tries_plain s _ rfl)
  | list =>
    simp only [Store.command]
    split
    · exact held
    · exact held
  | delete id =>
    have follows := removeJob_follows s id
    simp only [Store.command]
    split
    · rename_i after removed
      rw [removed] at follows
      exact held.follows follows
    · rename_i after error removed
      rw [removed] at follows
      exact held.follows follows

theorem Held.step (held : Held s) {request : Request} (within : Within calendar s request)
    (served : step calendar s request = some after) : Held after := by
  obtain ⟨fresh,⟨⟩⟩ := Option.ite_none_right_eq_some.mp served
  cases request with
  | http user request freshId now checks => exact held.http request fresh within
  | output user conversation command freshId now checks =>
    show Held (s.command calendar conversation freshId now checks command).1
    exact held.command conversation command
  | tick id run => exact held.follows (tick_follows held.keyed fresh)
  | conversationCreated id user => exact held.follows (insert_follows fresh user)
  | conversationDeleted id => exact held.follows (deleted_follows s id)

theorem guarded_owner (there : s.jobs.lookup id = some job) (owned : s.jobOwnerUserId job = user) (act : CronJob → Store × Response) :
    s.guarded user id act = act job := by
  rcases guarded_cases s user id act with ⟨error,refused⟩ | ⟨other,found,-,allowed⟩
  · unfold Store.guarded Store.ensureOwner Store.getJob at refused ⊢
    simp [there,owned,bind,Except.bind,pure,Except.pure]
  · cases there.symm.trans found
    exact allowed

-- The owner of a job may do with it what the routes offer.
theorem usable (there : s.jobs.lookup id = some job) (owned : s.jobOwnerUserId job = user) : Usable calendar s id user job := by
  refine ⟨fun freshId now checks => guarded_owner there owned _,fun freshId now checks => ?_,fun req freshId now edited editing => ?_,
    fun freshId after conversation resolved => ?_⟩
  · simp only [serve,Store.http,guarded_owner there owned]
    have gone : (s.removeJob id).1.jobs.lookup id = none := (removeJob_lookup ..).trans (if_pos rfl)
    split
    · rename_i after removed
      rw [removed] at gone
      exact gone
    · rename_i after error removed
      rw [removed] at gone
      exact gone
  · have updated : ∃ jobs, updateRow s.jobs id (buildUpdateParams edited req) = .ok jobs ∧
        jobs.lookup id = some (job.apply (buildUpdateParams edited req)) := by
      cases written : updateRow s.jobs id (buildUpdateParams edited req) with
      | error error => cases there.symm.trans (updateRow_error written)
      | ok jobs => exact ⟨jobs,rfl,by rw [updateRow_lookup written,if_pos rfl,there]; rfl⟩
    obtain ⟨jobs,written,row⟩ := updated
    simp only [serve,Store.http,guarded_owner there owned,Store.respond,Store.updateJob,Store.getJob,there,editing,written,bind,
      Except.bind,pure,Except.pure]
    exact ⟨trivial,row⟩
  · rcases resolve_ok resolved with ⟨rfl,-⟩ | ⟨rfl,-⟩
    · exact .inr (by rw [← owned]; rfl)
    · exact .inl rfl

-- In a run whose requests meet the conditions, what is done on behalf of a user
-- touches only jobs of that user's, and the maker of a job keeps the use of it.
theorem ownership_isolated (path : RunsWhere (step calendar) (Within calendar) start requests final) :
    (∀ earlier request between, earlier ++ [request] <+: requests → Runs (step calendar) start earlier between →
      ∀ user, request.user = some user → Isolated between user (serve calendar between request)) ∧
    ∀ id user job, final.creators.lookup id = some user → final.jobs.lookup id = some job → Usable calendar final id user job := by
  have origin : Held start := by
    refine ⟨fun _ _ there => ?_,fun _ _ made => ?_⟩
    · cases there
    · cases made
  have keeps : ∀ s request after, Held s → Within calendar s request → step calendar s request = some after → Held after :=
    fun _ _ _ held within served => held.step within served
  refine ⟨fun earlier request between inside prior user acting => ?_,fun id user job made there => ?_⟩
  · have within := path.at_step inside prior
    have shorter : earlier <+: requests := (List.prefix_append _ _).trans inside
    obtain ⟨early,rest,all,onward⟩ := path.later shorter prior
    have held : Held between := early.invariant origin keeps
    have fresh : between.fresh request = true := by
      obtain ⟨after,reached⟩ := path.reaches inside
      obtain ⟨middle,first,served⟩ := reached.snoc_inv
      cases first.deterministic prior
      exact (Option.ite_none_right_eq_some.mp served).1
    cases request with
    | http caller request freshId now checks =>
      cases acting
      exact http_isolated held.keyed user freshId now checks request fresh within
    | output caller conversation command freshId now checks =>
      cases acting
      show Isolated between user (between.command calendar conversation freshId now checks command)
      exact command_isolated user conversation freshId now checks command fresh within
    | tick id run => cases acting
    | conversationCreated id user => cases acting
    | conversationDeleted id => cases acting
  · have held : Held final := path.invariant origin keeps
    exact usable there (held.creators id user made job there)

section Examples

def nightly (conversation : String) : CreateCronJobRequest :=
  ⟨"Nightly",none,.every 86400000 none,"Sum up the day",conversation,.existing⟩

-- A conversation each, and a job in the first.
def two_users : List Request := [.conversationCreated "conv_a" "alice",
  .http "alice" (.createJob (nightly "conv_a")) "cron_1" 0 (.ok ()),.conversationCreated "conv_b" "bob"]

theorem ownership_isolated_two_users : ∃ final job, Runs (step .plain) start (two_users ++ [.output "bob" "conv_b" (.delete "cron_2") "" 0 (.ok ())])
      final ∧ final.jobs.lookup "cron_1" = some job ∧ Usable .plain final "cron_1" "alice" job := by
  have path : ∃ final job, RunsWhere (step .plain) (Within .plain) start
      (two_users ++ [Request.output "bob" "conv_b" (.delete "cron_2") "" 0 (.ok ())]) final ∧
      final.creators.lookup "cron_1" = some "alice" ∧ final.jobs.lookup "cron_1" = some job := by
    refine ⟨_,_,.cons trivial rfl (.cons (fun _ => rfl) rfl (.cons trivial rfl (.cons (fun job there => ?_) rfl .nil))),rfl,rfl⟩
    cases there
  obtain ⟨final,job,path,made,there⟩ := path
  exact ⟨final,job,path.runs,there,(ownership_isolated path).2 "cron_1" "alice" job made there⟩

-- The agent of another user's conversation deletes the job by its id; and a job
-- made without a conversation is lost to its maker.
theorem foreign_job_deleted :
    (∃ between, Runs (step .plain) start two_users between ∧
      (serve .plain between (.output "bob" "conv_b" (.delete "cron_1") "" 0 (.ok ()))).1.jobs.lookup "cron_1" = none ∧
      ¬Isolated between "bob" (serve .plain between (.output "bob" "conv_b" (.delete "cron_1") "" 0 (.ok ())))) ∧
    ∃ final job, Runs (step .plain) start [.http "alice" (.createJob (nightly "")) "cron_1" 0 (.ok ())] final ∧
      final.creators.lookup "cron_1" = some "alice" ∧ final.jobs.lookup "cron_1" = some job ∧
      ¬Usable .plain final "cron_1" "alice" job := by
  constructor
  · have path : ∃ between job, Runs (step .plain) start two_users between ∧ between.jobs.lookup "cron_1" = some job ∧
        between.jobOwnerUserId job = "alice" ∧
        (serve .plain between (.output "bob" "conv_b" (.delete "cron_1") "" 0 (.ok ()))).1.jobs.lookup "cron_1" = none :=
      ⟨_,_,exec_exact.mp rfl,rfl,rfl,rfl⟩
    obtain ⟨between,job,path,there,owner,gone⟩ := path
    refine ⟨between,path,gone,fun isolated => ?_⟩
    have bob := isolated.jobs "cron_1" job there (by rw [gone]; exact fun same => by cases same)
    rw [owner] at bob
    exact absurd bob (by decide)
  · have path : ∃ final job, Runs (step .plain) start [.http "alice" (.createJob (nightly "")) "cron_1" 0 (.ok ())] final ∧
        final.creators.lookup "cron_1" = some "alice" ∧ final.jobs.lookup "cron_1" = some job ∧
        (serve .plain final (.http "alice" (.getJob "cron_1") "" 0 (.ok ()))).2 = .failed (.jobNotFound "cron_1") :=
      ⟨_,_,exec_exact.mp rfl,rfl,rfl,rfl⟩
    obtain ⟨final,job,path,made,there,lost⟩ := path
    refine ⟨final,job,path,made,there,fun usable => ?_⟩
    rw [usable.get "" 0 (.ok ())] at lost
    cases lost

end Examples

end Creators

end AlineaCopilot.CronOwnership
