import AlineaCopilot.TeamTypes
import AlineaCopilot.TransitionRuns

open AlineaCopilot.TransitionRuns

namespace AlineaCopilot.TeamEventLoop

inductive MailboxMessageType where
  | message
  | idleNotification
  | shutdownRequest
deriving DecidableEq, Repr

structure MailboxMessage where
  id : String
  fromAgentId : String
  kind : MailboxMessageType
  content : String
  summary : Option String
  files : Option (List String)
deriving DecidableEq, Repr

structure AgentSlot where
  agent : TeamAgent
  status : TeammateStatus
  needsRolePrompt : Bool
deriving DecidableEq

-- The texts of the three builders, whatever they say.
structure Prompts (Task : Type) where
  wakePayload : TeamAgent → List Task → List MailboxMessage → String
  leadPrompt : String → List TeamAgent → List (String × String) → String
  teammatePrompt : TeamAgent → String → String

-- A wake body with the role prompt before it on a cold start.
structure FirstMessage where
  rolePrompt : Option String
  wakeBody : String
deriving DecidableEq, Repr

def FirstMessage.text (message : FirstMessage) : String :=
  match message.rolePrompt with
  | some rolePrompt => rolePrompt ++ "\n\n" ++ message.wakeBody
  | none => message.wakeBody

structure WakeInput where
  teamRunId : Option String
  conversationId : String
  firstMessage : FirstMessage
  unread : List MailboxMessage
  agentRole : TeammateRole
deriving DecidableEq

structure TurnExecution where
  finishOk : Bool
  teamRunId : Option String
  turnId : Option String
deriving DecidableEq

-- Where the loop of a slot stands: at its `select!`, at the top of the drain
-- loop, inside `compute_wake_input` before the flag is taken, before the
-- reservation is claimed, in the port's call, before `finalize_turn`.
inductive Phase where
  | waiting
  | draining
  | reading (agent : TeamAgent) (unread : List MailboxMessage) (wakeBody : String)
  | sending (input : WakeInput)
  | atPort (input : WakeInput) (started : Bool)
  | finalizing (turn : TurnExecution)
  | stopped
deriving DecidableEq

structure Loop where
  slot : AgentSlot
  permit : Bool
  mailbox : List MailboxMessage
  activeRun : Option String
  shutdown : Bool
  phase : Phase
  -- What the port has been given in the turns that it started.
  turns : List FirstMessage
deriving DecidableEq

inductive Action (Task : Type) where
  | notified
  | mailWritten (message : MailboxMessage)
  | mailRead (ids : List String)
  | runChanged (run : Option String)
  | statusSet (status : TeammateStatus)
  | agentRenamed (name : String)
  | shutdownSent
  | aborted
  | wake
  | stop
  -- `peeked` is false where the mailbox cannot be read, `tasks` missing where the board cannot.
  | read (peeked : Bool) (tasks : Option (List Task))
  | take (members : List TeamAgent) (backends : List (String × String))
  | claim (claimed : Bool)
  | start
  | finish (turnId : String) (success marked : Bool)
  | fail
  | finalize

def AgentSlot.setStatus (slot : AgentSlot) (status : TeammateStatus) : AgentSlot :=
  { slot with status := status,agent := { slot.agent with status := some status } }

def Loop.to (s : Loop) (phase : Phase) : Loop := { s with phase := phase }

def Loop.withStatus (s : Loop) (status : TeammateStatus) : Loop := { s with slot := s.slot.setStatus status }

def takeNeedsRolePrompt (slot : AgentSlot) : Bool × AgentSlot := (slot.needsRolePrompt,{ slot with needsRolePrompt := false })

section Steps
variable {Task : Type} (prompts : Prompts Task) (teamName : String)

def rolePrompt (agent : TeamAgent) (members : List TeamAgent) (backends : List (String × String)) : String :=
  match agent.role with
  | .lead => prompts.leadPrompt teamName members backends
  | .teammate => prompts.teammatePrompt agent teamName

-- The agent and the mail without its own messages, then the tasks.
def readInput (s : Loop) (peeked : Bool) (tasks : Option (List Task)) : Loop :=
  if peeked then
    match tasks with
    | some tasks =>
      let unread := s.mailbox.filter fun message => message.fromAgentId ≠ s.slot.agent.slotId
      s.to (.reading s.slot.agent unread (prompts.wakePayload s.slot.agent tasks unread))
    | none => s.to .waiting
  else s.to .waiting

-- The flag is taken; only then is it asked whether there is anything to send.
def takeInput (s : Loop) (agent : TeamAgent) (unread : List MailboxMessage) (wakeBody : String)
    (members : List TeamAgent) (backends : List (String × String)) : Loop :=
  let (needed,slot) := takeNeedsRolePrompt s.slot
  let firstMessage := if needed then ⟨some (rolePrompt prompts teamName agent members backends),wakeBody⟩ else ⟨none,wakeBody⟩
  let s := { s with slot := slot }
  if unread.isEmpty then s.to .waiting
  else s.to (.sending ⟨s.activeRun,agent.conversationId,firstMessage,unread,agent.role⟩)

def claimInput (s : Loop) (input : WakeInput) (claimed : Bool) : Loop :=
  if input.teamRunId.isSome ∧ ¬claimed then (s.withStatus .idle).to .waiting
  else (s.withStatus .working).to (.atPort input false)

def step (s : Loop) : Action Task → Option Loop
  | .notified => some { s with permit := true }
  | .mailWritten message => some { s with mailbox := s.mailbox ++ [message] }
  | .mailRead ids => some { s with mailbox := s.mailbox.filter fun message => message.id ∉ ids }
  | .runChanged run => some { s with activeRun := run }
  | .statusSet status => some (s.withStatus status)
  | .agentRenamed name => some { s with slot := { s.slot with agent := { s.slot.agent with name := name } } }
  | .shutdownSent => some { s with shutdown := true }
  | .aborted => some (s.to .stopped)
  | .wake => if s.phase = .waiting ∧ ¬s.shutdown ∧ s.permit then some { s with permit := false,phase := .draining } else none
  | .stop => if (s.phase = .waiting ∨ s.phase = .draining) ∧ s.shutdown then some (s.to .stopped) else none
  | .read peeked tasks => if s.phase = .draining ∧ ¬s.shutdown then some (readInput prompts s peeked tasks) else none
  | .take members backends =>
    match s.phase with
    | .reading agent unread wakeBody => some (takeInput prompts teamName s agent unread wakeBody members backends)
    | _ => none
  | .claim claimed =>
    match s.phase with
    | .sending input => some (claimInput s input claimed)
    | _ => none
  | .start =>
    match s.phase with
    | .atPort input false => some { s with phase := .atPort input true,turns := s.turns ++ [input.firstMessage] }
    | _ => none
  -- An outcome is returned of a turn that was started; its mail is then marked as read.
  | .finish turnId success marked =>
    match s.phase with
    | .atPort input true =>
      let mailbox := if marked then s.mailbox.filter fun message => message.id ∉ input.unread.map MailboxMessage.id else s.mailbox
      some { s with mailbox := mailbox,phase := .finalizing ⟨success,input.teamRunId,some turnId⟩ }
    | _ => none
  | .fail =>
    match s.phase with
    | .atPort input _ => some (s.to (.finalizing ⟨false,input.teamRunId,none⟩))
    | _ => none
  -- `set_status(Error)` where the turn failed, then `mark_idle`.
  | .finalize =>
    match s.phase with
    | .finalizing _ => some ((s.withStatus .idle).to .draining)
    | _ => none

end Steps

def FirstMessage.carries (message : FirstMessage) : Bool := message.rolePrompt.isSome

-- The input of a turn that has not been started.
def Phase.pending : Phase → Option WakeInput
  | .sending input => some input
  | .atPort input false => some input
  | _ => none

-- The mail that has been read for an input.
def Phase.mail : Phase → Option (List MailboxMessage)
  | .reading _ unread _ => some unread
  | _ => none

-- While nothing was started the prompt is still owed or on its way; the first
-- turn that was started carries it and no other does.
structure PromptKept (s : Loop) : Prop where
  owed : s.turns = [] → s.phase ≠ .stopped → s.slot.needsRolePrompt = true ∨ ∃ input, s.phase.pending = some input ∧ input.firstMessage.carries = true
  once : ∀ first rest, s.turns = first :: rest → first.carries = true ∧ ∀ later ∈ rest, later.carries = false

-- The flag is not taken where there is nothing to send, and an input with the
-- prompt is not dropped before its turn is started.
def Delivers {Task : Type} (s : Loop) : Action Task → Prop
  | .take _ _ => s.slot.needsRolePrompt = true → s.phase.mail ≠ some []
  | .claim claimed => ∀ input ∈ s.phase.pending, input.teamRunId.isSome = true → claimed = false → input.firstMessage.carries = false
  | .fail => ∀ input ∈ s.phase.pending, input.firstMessage.carries = false
  | _ => True

-- A slot that has just been created, with its loop.
structure Fresh (s : Loop) : Prop where
  flagged : s.slot.needsRolePrompt = true
  unstarted : s.turns = []
  idle : s.phase = .waiting ∨ s.phase = .draining

-- The prompt is in one place at most.
structure Single (s : Loop) : Prop where
  flag : s.slot.needsRolePrompt = true → s.turns = [] ∧ s.phase.pending = none
  pending : ∀ input, s.phase.pending = some input → input.firstMessage.carries = true → s.turns = []

section Proof
variable {Task : Type} {prompts : Prompts Task} {teamName : String} {s next : Loop} {action : Action Task}

theorem fresh_single (fresh : Fresh s) : Single s := by
  rcases fresh.idle with phase | phase
  · refine ⟨fun _ => ⟨fresh.unstarted,?_⟩,fun _ _ _ => fresh.unstarted⟩
    rw [phase]
    rfl
  · refine ⟨fun _ => ⟨fresh.unstarted,?_⟩,fun _ _ _ => fresh.unstarted⟩
    rw [phase]
    rfl

theorem fresh_kept (fresh : Fresh s) : PromptKept s := by
  refine ⟨fun _ _ => .inl fresh.flagged,fun first rest started => ?_⟩
  rw [fresh.unstarted] at started
  cases started

-- A step that leaves the flag, the turns and the input in flight as they are.
structure Quiet (s next : Loop) : Prop where
  flag : next.slot.needsRolePrompt = s.slot.needsRolePrompt
  turns : next.turns = s.turns
  pending : next.phase.pending = s.phase.pending
  live : s.phase = .stopped → next.phase = .stopped

theorem Quiet.kept (quiet : Quiet s next) (kept : PromptKept s) : PromptKept next := by
  refine ⟨fun none live => ?_,fun first rest started => kept.once first rest (quiet.turns ▸ started)⟩
  rw [quiet.flag,quiet.pending]
  exact kept.owed (quiet.turns ▸ none) fun stopped => live (quiet.live stopped)

theorem Quiet.single (quiet : Quiet s next) (single : Single s) : Single next := by
  refine ⟨fun flagged => ?_,fun input there carried => ?_⟩
  · rw [quiet.turns,quiet.pending]
    exact single.flag (quiet.flag ▸ flagged)
  · rw [quiet.turns]
    exact single.pending input (quiet.pending ▸ there) carried

-- The loop ends; nothing is started any more.
theorem stopped_kept (kept : PromptKept s) : PromptKept (s.to .stopped) :=
  ⟨fun _ live => absurd rfl live,kept.once⟩

theorem stopped_single (single : Single s) : Single (s.to .stopped) :=
  ⟨fun flagged => ⟨(single.flag flagged).1,rfl⟩,fun _ there => by cases there⟩

theorem read_quiet {peeked : Bool} {tasks : Option (List Task)} (phase : s.phase = .draining) : Quiet s (readInput prompts s peeked tasks) := by
  unfold readInput
  split
  · split
    · exact ⟨rfl,rfl,by rw [phase]; rfl,fun stopped => by rw [phase] at stopped; cases stopped⟩
    · exact ⟨rfl,rfl,by rw [phase]; rfl,fun stopped => by rw [phase] at stopped; cases stopped⟩
  · exact ⟨rfl,rfl,by rw [phase]; rfl,fun stopped => by rw [phase] at stopped; cases stopped⟩

section Taking
variable {agent : TeamAgent} {unread : List MailboxMessage} {wakeBody : String} {members : List TeamAgent} {backends : List (String × String)}

theorem take_empty (none : unread = []) : takeInput prompts teamName s agent unread wakeBody members backends =
    { s with slot := { s.slot with needsRolePrompt := false },phase := .waiting } := by
  subst none
  rfl

theorem take_mail (mail : unread ≠ []) : ∃ input, takeInput prompts teamName s agent unread wakeBody members backends =
      { s with slot := { s.slot with needsRolePrompt := false },phase := .sending input } ∧
    input.firstMessage.carries = s.slot.needsRolePrompt := by
  obtain ⟨message,rest,rfl⟩ := List.exists_cons_of_ne_nil mail
  refine ⟨_,rfl,?_⟩
  show (if s.slot.needsRolePrompt = true then _ else _ : FirstMessage).carries = _
  cases s.slot.needsRolePrompt <;> rfl

theorem take_single (single : Single s) : Single (takeInput prompts teamName s agent unread wakeBody members backends) := by
  by_cases mail : unread = []
  · rw [take_empty mail]
    exact ⟨(by rintro ⟨⟩),(by rintro _ ⟨⟩)⟩
  · obtain ⟨input,same,carried⟩ := @take_mail Task prompts teamName s agent unread wakeBody members backends mail
    rw [same]
    refine ⟨(by rintro ⟨⟩),?_⟩
    rintro _ ⟨⟩ full
    rw [carried] at full
    exact (single.flag full).1

theorem take_exact (single : Single s) (kept : PromptKept s) (phase : s.phase = .reading agent unread wakeBody) :
    PromptKept (takeInput prompts teamName s agent unread wakeBody members backends) ↔ (s.slot.needsRolePrompt = true → unread ≠ []) := by
  by_cases mail : unread = []
  · rw [take_empty mail]
    refine ⟨fun after flagged => ?_,fun allowed => ⟨fun unstarted _ => ?_,kept.once⟩⟩
    · rcases after.owed (single.flag flagged).1 (by rintro ⟨⟩) with lost | ⟨_,there,_⟩
      · cases lost
      · cases there
    · rcases kept.owed unstarted (by rw [phase]; rintro ⟨⟩) with flagged | ⟨_,there,_⟩
      · exact absurd mail (allowed flagged)
      · rw [phase] at there
        cases there
  · obtain ⟨input,same,carried⟩ := @take_mail Task prompts teamName s agent unread wakeBody members backends mail
    rw [same]
    have owed : s.turns = [] → input.firstMessage.carries = true := by
      intro unstarted
      rcases kept.owed unstarted (by rw [phase]; rintro ⟨⟩) with flagged | ⟨_,there,_⟩
      · rw [carried,flagged]
      · rw [phase] at there
        cases there
    exact iff_of_true ⟨fun unstarted _ => .inr ⟨input,rfl,owed unstarted⟩,kept.once⟩ fun _ => mail

end Taking

-- A turn that is not started takes its input with it.
theorem drop_exact {input : WakeInput} {phase : Phase} {slot : AgentSlot} (single : Single s)
    (there : s.phase.pending = some input) (flag : slot.needsRolePrompt = s.slot.needsRolePrompt)
    (gone : phase.pending = none) (running : phase ≠ .stopped) :
    Single { s with slot := slot,phase := phase } ∧
      (PromptKept s → (PromptKept { s with slot := slot,phase := phase } ↔ input.firstMessage.carries = false)) := by
  have taken : ¬s.slot.needsRolePrompt = true := by
    intro flagged
    rw [(single.flag flagged).2] at there
    cases there
  have live : s.phase ≠ .stopped := by
    intro stopped
    rw [stopped] at there
    cases there
  refine ⟨⟨fun flagged => absurd (flag ▸ flagged) taken,fun other found => ?_⟩,fun kept => ⟨fun after => ?_,fun empty => ⟨fun unstarted _ => ?_,kept.once⟩⟩⟩
  · rw [show ({ s with slot := slot,phase := phase } : Loop).phase = phase from rfl,gone] at found
    cases found
  · refine Bool.eq_false_iff.mpr fun carried => ?_
    rcases after.owed (single.pending input there carried) running with flagged | ⟨_,found,_⟩
    · exact taken (flag ▸ flagged)
    · rw [show ({ s with slot := slot,phase := phase } : Loop).phase = phase from rfl,gone] at found
      cases found
  · rcases kept.owed unstarted live with flagged | ⟨other,found,carried⟩
    · exact absurd flagged taken
    · cases there.symm.trans found
      rw [empty] at carried
      cases carried

theorem start_sound {input : WakeInput} (single : Single s) (phase : s.phase = .atPort input false) :
    Single { s with phase := .atPort input true,turns := s.turns ++ [input.firstMessage] } ∧
      (PromptKept s → PromptKept { s with phase := .atPort input true,turns := s.turns ++ [input.firstMessage] }) := by
  have pending : s.phase.pending = some input := by rw [phase]; rfl
  have taken : ¬s.slot.needsRolePrompt = true := by
    intro flagged
    rw [(single.flag flagged).2] at pending
    cases pending
  refine ⟨⟨fun flagged => absurd flagged taken,fun _ found => by cases found⟩,fun kept => ⟨fun none _ => ?_,fun first rest started => ?_⟩⟩
  · exact absurd none (List.append_ne_nil_of_right_ne_nil _ (List.cons_ne_nil _ _))
  · change s.turns ++ [input.firstMessage] = first :: rest at started
    cases turns : s.turns with
    | nil =>
      rw [turns] at started
      cases started
      rcases kept.owed turns (by rw [phase]; rintro ⟨⟩) with flagged | ⟨other,found,carried⟩
      · exact absurd flagged taken
      · cases pending.symm.trans found
        exact ⟨carried,fun _ inside => absurd inside List.not_mem_nil⟩
    | cons earliest others =>
      rw [turns] at started
      obtain ⟨rfl,rfl⟩ := List.cons.inj started
      obtain ⟨carries,plain⟩ := kept.once earliest others turns
      refine ⟨carries,fun later inside => ?_⟩
      rcases List.mem_append.mp inside with there | there
      · exact plain later there
      · rw [List.mem_singleton.mp there]
        refine Bool.eq_false_iff.mpr fun carried => ?_
        rw [single.pending input pending carried] at turns
        cases turns

-- What a step does to the two invariants.
theorem step_exact (single : Single s) (taken : step prompts teamName s action = some next) :
    Single next ∧ (PromptKept s → (PromptKept next ↔ Delivers s action)) := by
  have calm : Quiet s next → Single next ∧ (PromptKept s → (PromptKept next ↔ True)) :=
    fun quiet => ⟨quiet.single single,fun kept => iff_of_true (quiet.kept kept) trivial⟩
  cases action with
  | notified =>
    cases taken
    exact calm ⟨rfl,rfl,rfl,id⟩
  | mailWritten message =>
    cases taken
    exact calm ⟨rfl,rfl,rfl,id⟩
  | mailRead ids =>
    cases taken
    exact calm ⟨rfl,rfl,rfl,id⟩
  | runChanged run =>
    cases taken
    exact calm ⟨rfl,rfl,rfl,id⟩
  | statusSet status =>
    cases taken
    exact calm ⟨rfl,rfl,rfl,id⟩
  | agentRenamed name =>
    cases taken
    exact calm ⟨rfl,rfl,rfl,id⟩
  | shutdownSent =>
    cases taken
    exact calm ⟨rfl,rfl,rfl,id⟩
  | aborted =>
    cases taken
    exact ⟨stopped_single single,fun kept => iff_of_true (stopped_kept kept) trivial⟩
  | wake =>
    obtain ⟨⟨phase,-,-⟩,same⟩ := Option.ite_none_right_eq_some.mp taken
    cases same
    exact calm ⟨rfl,rfl,by rw [phase]; rfl,fun stopped => by rw [phase] at stopped; cases stopped⟩
  | stop =>
    obtain ⟨-,same⟩ := Option.ite_none_right_eq_some.mp taken
    cases same
    exact ⟨stopped_single single,fun kept => iff_of_true (stopped_kept kept) trivial⟩
  | read peeked tasks =>
    obtain ⟨⟨phase,-⟩,same⟩ := Option.ite_none_right_eq_some.mp taken
    cases same
    exact calm (read_quiet phase)
  | take members backends =>
    simp only [step] at taken
    split at taken
    · rename_i agent unread wakeBody phase
      cases taken
      refine ⟨take_single single,fun kept => (take_exact single kept phase).trans
        (imp_congr_right fun _ => ?_)⟩
      rw [phase]
      exact not_congr ⟨fun none => congrArg some none,Option.some.inj⟩
    · cases taken
  | claim claimed =>
    simp only [step] at taken
    split at taken
    · rename_i input phase
      cases taken
      have pending : s.phase.pending = some input := by rw [phase]; rfl
      unfold claimInput
      split
      · rename_i failed
        obtain ⟨sound,exact_⟩ := @drop_exact s input .waiting (s.slot.setStatus .idle) single pending rfl rfl (by rintro ⟨⟩)
        refine ⟨sound,fun kept => (exact_ kept).trans ⟨fun empty other found _ _ => ?_,fun delivers => ?_⟩⟩
        · cases pending.symm.trans found
          exact empty
        · exact delivers input pending failed.1 (Bool.eq_false_iff.mpr failed.2)
      · rename_i open_
        have quiet : Quiet s ((s.withStatus .working).to (.atPort input false)) :=
          ⟨rfl,rfl,by rw [pending]; rfl,fun stopped => by rw [phase] at stopped; cases stopped⟩
        refine ⟨quiet.single single,fun kept => iff_of_true (quiet.kept kept) fun other found run failed => ?_⟩
        cases pending.symm.trans found
        exact absurd ⟨run,Bool.eq_false_iff.mp failed⟩ open_
    · cases taken
  | start =>
    simp only [step] at taken
    split at taken
    · rename_i input phase
      cases taken
      obtain ⟨sound,after⟩ := start_sound single phase
      exact ⟨sound,fun kept => iff_of_true (after kept) trivial⟩
    · cases taken
  | finish turnId success marked =>
    simp only [step] at taken
    split at taken
    · rename_i input phase
      cases taken
      exact calm ⟨rfl,rfl,by rw [phase]; rfl,fun stopped => by rw [phase] at stopped; cases stopped⟩
    · cases taken
  | fail =>
    simp only [step] at taken
    split at taken
    · rename_i input started phase
      cases taken
      cases started with
      | true =>
        have quiet : Quiet s (s.to (.finalizing ⟨false,input.teamRunId,none⟩)) :=
          ⟨rfl,rfl,by rw [phase]; rfl,fun stopped => by rw [phase] at stopped; cases stopped⟩
        refine ⟨quiet.single single,fun kept => iff_of_true (quiet.kept kept) fun other found => ?_⟩
        rw [phase] at found
        cases found
      | false =>
        have pending : s.phase.pending = some input := by rw [phase]; rfl
        obtain ⟨sound,exact_⟩ := @drop_exact s input (.finalizing ⟨false,input.teamRunId,none⟩) s.slot single pending rfl rfl (by rintro ⟨⟩)
        refine ⟨sound,fun kept => (exact_ kept).trans ⟨fun empty other found => ?_,fun delivers => delivers input pending⟩⟩
        cases pending.symm.trans found
        exact empty
    · cases taken
  | finalize =>
    simp only [step] at taken
    split at taken
    · rename_i turn phase
      cases taken
      exact calm ⟨rfl,rfl,by rw [phase]; rfl,fun stopped => by rw [phase] at stopped; cases stopped⟩
    · cases taken

-- Every run of the loop from a slot just created.
theorem prompt_kept_iff {actions : List (Action Task)} {origin after : Loop} (fresh : Fresh origin)
    (path : Runs (step prompts teamName) origin actions after) :
    (∀ earlier between, earlier <+: actions → Runs (step prompts teamName) origin earlier between → PromptKept between) ↔
      RunsWhere (step prompts teamName) Delivers origin actions after := by
  have keeps : ∀ s action next, Single s → step prompts teamName s action = some next → Single next :=
    fun _ _ _ single taken => (step_exact single taken).1
  exact Runs.always_exact (fresh_single fresh) (fresh_kept fresh) keeps (fun _ _ _ single kept taken => (step_exact single taken).2 kept) path

end Proof

section Examples

def worker : TeamAgent := ⟨"worker-1","Worker",.teammate,"c2","claude","default",none,some .idle,none,none⟩

def workerPrompts : Prompts Unit where
  wakePayload _ _ unread := String.join (unread.map MailboxMessage.content)
  leadPrompt _ _ _ := "You are the Team Leader."
  teammatePrompt _ _ := "You are a Teammate Agent."

def workerLoop : Loop := ⟨⟨worker,.idle,true⟩,false,[],some "run_1",false,.waiting,[]⟩

def doX : MailboxMessage := ⟨"m1","lead-1",.message,"do X",none,none⟩

-- A wake with mail whose claim succeeds.
def delivery : List (Action Unit) :=
  [.mailWritten doX,.notified,.wake,.read true (some []),.take [worker] [],.claim true,.start,.finish "turn_1" true true,.finalize]

-- A wake without mail comes first.
def emptyWake : List (Action Unit) := [.notified,.wake,.read true (some []),.take [worker] []]

instance (s : Loop) (action : Action Unit) : Decidable (Delivers s action) := by
  cases action <;> unfold Delivers <;> infer_instance

theorem workerLoop_fresh : Fresh workerLoop := ⟨rfl,rfl,.inl rfl⟩

theorem prompt_kept_worker : ∃ after, Runs (step workerPrompts "t") workerLoop delivery after ∧ PromptKept after ∧
    after.turns = [⟨some "You are a Teammate Agent.","do X"⟩] := by
  have ran : (execWhere (step workerPrompts "t") Delivers workerLoop delivery).map Loop.turns = some [⟨some "You are a Teammate Agent.","do X"⟩] := by
    decide
  obtain ⟨after,there,turns⟩ := Option.map_eq_some_iff.mp ran
  have allowed := execWhere_sound there
  exact ⟨after,allowed.runs,(prompt_kept_iff workerLoop_fresh allowed.runs).mpr allowed delivery after (List.prefix_refl _) allowed.runs,turns⟩

-- The empty wake takes the flag, and the turn that follows is started without the prompt.
theorem empty_wake_loses_prompt : ∃ after, Runs (step workerPrompts "t") workerLoop (emptyWake ++ delivery) after ∧
    after.turns = [⟨none,"do X"⟩] ∧ ¬PromptKept after := by
  have ran : (exec (step workerPrompts "t") workerLoop (emptyWake ++ delivery)).map Loop.turns = some [⟨none,"do X"⟩] := by
    decide
  obtain ⟨after,there,turns⟩ := Option.map_eq_some_iff.mp ran
  refine ⟨after,exec_exact.mp there,turns,fun kept => ?_⟩
  cases (kept.once _ _ turns).1

end Examples

end AlineaCopilot.TeamEventLoop
