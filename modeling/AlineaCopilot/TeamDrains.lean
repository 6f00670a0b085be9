import AlineaCopilot.EndlessRuns
import AlineaCopilot.TeamEventLoop

open AlineaCopilot.EndlessRuns

namespace AlineaCopilot.TeamEventLoop

-- The loop has left the drain loop.
def Back (s : Loop) : Prop := s.phase = .waiting ∨ s.phase = .stopped

section Actions
variable {Task : Type}

-- Every iteration of the drain loop begins with the input.
def Iterates : Action Task → Prop
  | .read _ _ => True
  | _ => False

-- A turn whose mail stays unread.
def LeavesMail : Action Task → Prop
  | .fail => True
  | .finish _ _ marked => marked = false
  | _ => False

def Writes : Action Task → Prop
  | .mailWritten _ => True
  | _ => False

end Actions

-- How far the loop is from the next iteration.
def Phase.distance : Phase → Nat
  | .waiting | .draining | .stopped => 0
  | .finalizing _ => 1
  | .atPort _ _ => 2
  | .sending _ => 3
  | .reading _ _ _ => 4

-- The mail the phase is about to have read; what is not in it is the slot's own.
def Covers (s : Loop) (unread : List MailboxMessage) : Prop :=
  ∀ message ∈ s.mailbox, message.fromAgentId ≠ s.slot.agent.slotId → message.id ∈ unread.map MailboxMessage.id

def Phase.carried : Phase → List MailboxMessage
  | .reading _ unread _ => unread
  | .sending input | .atPort input _ => input.unread
  | .waiting | .draining | .finalizing _ | .stopped => []

def Covered (s : Loop) : Prop := Covers s s.phase.carried

-- Nothing to send was found.
def Empty (s : Loop) : Prop := ∃ agent wakeBody, s.phase = .reading agent [] wakeBody

open Classical in
noncomputable def mailRank (s : Loop) : Nat := if Empty s then 0 else if Covered s then 1 else 2

section Steps
variable {Task : Type} {prompts : Prompts Task} {teamName : String} {s next : Loop} {action : Action Task}

-- What a step of the drain loop does to the phase, where it stays in the loop.
theorem distance_step (moved : step prompts teamName s action = some next) (inside : ¬Back s) (stays : ¬Back next) (iterates : ¬Iterates action) :
    next.phase.distance ≤ s.phase.distance ∧ (LeavesMail action → next.phase.distance < s.phase.distance) := by
  have same (phase : next.phase = s.phase) (calm : ¬LeavesMail action) :
      next.phase.distance ≤ s.phase.distance ∧ (LeavesMail action → next.phase.distance < s.phase.distance) :=
    ⟨Nat.le_of_eq (congrArg _ phase),fun leaves => absurd leaves calm⟩
  cases action with
  | notified =>
    cases moved
    exact same rfl id
  | mailWritten message =>
    cases moved
    exact same rfl id
  | mailRead ids =>
    cases moved
    exact same rfl id
  | runChanged run =>
    cases moved
    exact same rfl id
  | statusSet status =>
    cases moved
    exact same rfl id
  | agentRenamed name =>
    cases moved
    exact same rfl id
  | shutdownSent =>
    cases moved
    exact same rfl id
  | aborted =>
    cases moved
    exact absurd (.inr rfl) stays
  | wake =>
    obtain ⟨⟨phase,-,-⟩,-⟩ := Option.ite_none_right_eq_some.mp moved
    exact absurd (.inl phase) inside
  | stop =>
    obtain ⟨-,same⟩ := Option.ite_none_right_eq_some.mp moved
    cases same
    exact absurd (.inr rfl) stays
  | read peeked tasks => exact absurd trivial iterates
  | take members backends =>
    simp only [step] at moved
    split at moved
    · rename_i agent unread wakeBody phase
      cases moved
      refine ⟨?_,False.elim⟩
      by_cases mail : unread = []
      · rw [take_empty mail] at stays
        exact absurd (.inl rfl) stays
      · obtain ⟨input,same,-⟩ := @take_mail Task prompts teamName s agent unread wakeBody members backends mail
        rw [same,phase]
        exact Nat.le_succ 3
    · cases moved
  | claim claimed =>
    simp only [step] at moved
    split at moved
    · rename_i input phase
      cases moved
      refine ⟨?_,False.elim⟩
      rw [phase]
      unfold claimInput
      split
      · exact Nat.zero_le _
      · exact Nat.le_succ 2
    · cases moved
  | start =>
    simp only [step] at moved
    split at moved
    · rename_i input phase
      cases moved
      rw [phase]
      exact ⟨Nat.le_refl _,False.elim⟩
    · cases moved
  | finish turnId success marked =>
    simp only [step] at moved
    split at moved
    · rename_i input phase
      cases moved
      rw [phase]
      exact ⟨Nat.le_succ 1,fun _ => Nat.lt_succ_self 1⟩
    · cases moved
  | fail =>
    simp only [step] at moved
    split at moved
    · rename_i input started phase
      cases moved
      rw [phase]
      exact ⟨Nat.le_succ 1,fun _ => Nat.lt_succ_self 1⟩
    · cases moved
  | finalize =>
    simp only [step] at moved
    split at moved
    · cases moved
      exact ⟨Nat.zero_le _,False.elim⟩
    · cases moved

theorem Covers.fewer {unread : List MailboxMessage} (covers : Covers s unread) (slot : next.slot.agent.slotId = s.slot.agent.slotId)
    (fewer : ∀ message ∈ next.mailbox, message ∈ s.mailbox) : Covers next unread := by
  intro message inside foreign
  rw [slot] at foreign
  exact covers message (fewer message inside) foreign

-- A step that leaves the phase and brings no mail.
theorem Covered.fewer (covered : Covered s) (phase : next.phase = s.phase) (slot : next.slot.agent.slotId = s.slot.agent.slotId)
    (fewer : ∀ message ∈ next.mailbox, message ∈ s.mailbox) : Covered next := by
  unfold Covered
  rw [phase]
  exact Covers.fewer covered slot fewer

-- All mail but the slot's own is in what has just been read.
theorem read_covered {peeked : Bool} {tasks : Option (List Task)} (stays : ¬Back (readInput prompts s peeked tasks)) :
    Covered (readInput prompts s peeked tasks) ∧ (Covers s [] → Empty (readInput prompts s peeked tasks)) := by
  unfold readInput at stays ⊢
  split at stays
  · rename_i readable
    rw [if_pos readable]
    split at stays
    · rename_i board
      refine ⟨fun message inside foreign => ?_,fun drained => ?_⟩
      · exact List.mem_map_of_mem (List.mem_filter.mpr ⟨inside,decide_eq_true foreign⟩)
      · have none_ : (s.mailbox.filter fun message => message.fromAgentId ≠ s.slot.agent.slotId) = [] := by
          refine List.filter_eq_nil_iff.mpr fun message inside foreign => ?_
          exact absurd (drained message inside (of_decide_eq_true foreign)) List.not_mem_nil
        refine ⟨s.slot.agent,prompts.wakePayload s.slot.agent board [],?_⟩
        unfold Loop.to
        dsimp only
        rw [none_]
    · exact absurd (.inl rfl) stays
  · exact absurd (.inl rfl) stays

theorem covered_step (moved : step prompts teamName s action = some next) (stays : ¬Back next) (marks : ¬LeavesMail action) (unwritten : ¬Writes action)
    (covered : Covered s) : Covered next := by
  cases action with
  | notified =>
    cases moved
    exact covered.fewer rfl rfl fun _ => id
  | mailWritten message => exact absurd trivial unwritten
  | mailRead ids =>
    cases moved
    exact covered.fewer rfl rfl fun _ inside => (List.mem_filter.mp inside).1
  | runChanged run =>
    cases moved
    exact covered.fewer rfl rfl fun _ => id
  | statusSet status =>
    cases moved
    exact covered.fewer rfl rfl fun _ => id
  | agentRenamed name =>
    cases moved
    exact covered.fewer rfl rfl fun _ => id
  | shutdownSent =>
    cases moved
    exact covered.fewer rfl rfl fun _ => id
  | aborted =>
    cases moved
    exact absurd (.inr rfl) stays
  | wake =>
    obtain ⟨⟨phase,-,-⟩,same⟩ := Option.ite_none_right_eq_some.mp moved
    cases same
    unfold Covered at covered
    rw [phase] at covered
    exact covered
  | stop =>
    obtain ⟨-,same⟩ := Option.ite_none_right_eq_some.mp moved
    cases same
    exact absurd (.inr rfl) stays
  | read peeked tasks =>
    obtain ⟨-,same⟩ := Option.ite_none_right_eq_some.mp moved
    cases same
    exact (read_covered stays).1
  | take members backends =>
    simp only [step] at moved
    split at moved
    · rename_i agent unread wakeBody phase
      cases moved
      unfold Covered at covered
      rw [phase] at covered
      by_cases mail : unread = []
      · rw [take_empty mail] at stays
        exact absurd (.inl rfl) stays
      · obtain ⟨message,rest,rfl⟩ := List.exists_cons_of_ne_nil mail
        exact covered
    · cases moved
  | claim claimed =>
    simp only [step] at moved
    split at moved
    · rename_i input phase
      cases moved
      unfold Covered at covered
      rw [phase] at covered
      unfold claimInput at stays ⊢
      split at stays
      · exact absurd (.inl rfl) stays
      · rename_i open_
        rw [if_neg open_]
        exact covered
    · cases moved
  | start =>
    simp only [step] at moved
    split at moved
    · rename_i input phase
      cases moved
      unfold Covered at covered
      rw [phase] at covered
      exact covered
    · cases moved
  | finish turnId success marked =>
    simp only [step] at moved
    split at moved
    · rename_i input phase
      cases moved
      unfold Covered at covered
      rw [phase] at covered
      cases marked with
      | false => exact absurd rfl marks
      | true =>
        intro message inside foreign
        obtain ⟨there,unmarked⟩ := List.mem_filter.mp inside
        exact absurd (covered message there foreign) (of_decide_eq_true unmarked)
    · cases moved
  | fail => exact absurd trivial marks
  | finalize =>
    simp only [step] at moved
    split at moved
    · rename_i turn phase
      cases moved
      unfold Covered at covered
      rw [phase] at covered
      exact covered
    · cases moved

-- Where nothing to send was found the loop goes back to its wait.
theorem empty_step (moved : step prompts teamName s action = some next) (stays : ¬Back next) (empty : Empty s) : Empty next ∧ ¬Iterates action := by
  obtain ⟨agent,wakeBody,phase⟩ := empty
  cases action with
  | aborted =>
    cases moved
    exact absurd (.inr rfl) stays
  | take members backends =>
    simp only [step,phase] at moved
    cases moved
    rw [take_empty rfl] at stays
    exact absurd (.inl rfl) stays
  | notified | mailWritten | mailRead | runChanged | statusSet | agentRenamed | shutdownSent =>
    cases moved
    exact ⟨⟨agent,wakeBody,phase⟩,id⟩
  | wake | stop | read =>
    simp only [step,phase] at moved
    obtain ⟨enabled,-⟩ := Option.ite_none_right_eq_some.mp moved
    simp at enabled
  | claim | start | finish | fail | finalize =>
    simp only [step,phase] at moved
    cases moved

theorem rank_step (moved : step prompts teamName s action = some next) (stays : ¬Back next) (marks : ¬LeavesMail action) (unwritten : ¬Writes action) :
    mailRank next ≤ mailRank s ∧ (Iterates action → mailRank next < mailRank s) := by
  have low (covered : Covered next) : mailRank next ≤ 1 := by
    unfold mailRank
    rw [if_pos covered]
    split
    · exact Nat.zero_le _
    · exact Nat.le_refl _
  have zero (empty : Empty next) : mailRank next = 0 := if_pos empty
  by_cases empty : Empty s
  · obtain ⟨kept,other⟩ := empty_step moved stays empty
    exact ⟨(zero kept).trans_le (Nat.zero_le _),fun iterates => absurd iterates other⟩
  · by_cases covered : Covered s
    · have one : mailRank s = 1 := (if_neg empty).trans (if_pos covered)
      rw [one]
      refine ⟨low (covered_step moved stays marks unwritten covered),fun iterates => ?_⟩
      cases action with
      | read peeked tasks =>
        obtain ⟨⟨phase,-⟩,same⟩ := Option.ite_none_right_eq_some.mp moved
        cases same
        unfold Covered at covered
        rw [phase] at covered
        rw [zero ((read_covered stays).2 covered)]
        exact Nat.zero_lt_one
      | _ => exact iterates.elim
    · have two : mailRank s = 2 := (if_neg empty).trans (if_neg covered)
      rw [two]
      have below : mailRank next ≤ 2 := by
        unfold mailRank
        split
        · exact Nat.zero_le _
        · split
          · exact Nat.le_succ 1
          · exact Nat.le_refl _
      refine ⟨below,fun iterates => ?_⟩
      cases action with
      | read peeked tasks =>
        obtain ⟨-,same⟩ := Option.ite_none_right_eq_some.mp moved
        cases same
        exact Nat.lt_succ_of_le (low (read_covered stays).1)
      | _ => exact iterates.elim

end Steps

section Results
variable {Task : Type} {prompts : Prompts Task} {teamName : String} {states : Nat → Loop} {actions : Nat → Action Task}

-- When no more mail is written to the slot, the loop goes back to its wait or
-- iterates finitely often, exactly if it goes back or finitely many of its
-- turns leave their mail unread.
theorem drain_finite_iff (endless : Endless (step prompts teamName) states actions) {start : Nat} (unwritten : ∀ n, start ≤ n → ¬Writes (actions n)) :
    (∃ n, start ≤ n ∧ Back (states n)) ∨ Finally (fun n => ¬Iterates (actions n)) start ↔
      (∃ n, start ≤ n ∧ Back (states n)) ∨ Finally (fun n => ¬LeavesMail (actions n)) start := by
  by_cases back : ∃ n, start ≤ n ∧ Back (states n)
  · exact iff_of_true (.inl back) (.inl back)
  · have inside : ∀ n, start ≤ n → ¬Back (states n) := fun n later here => back ⟨n,later,here⟩
    refine or_congr_right ⟨?_,?_⟩
    · rintro ⟨first,reached,calm⟩
      have each (n : Nat) (later : first ≤ n) :=
        distance_step (endless n) (inside n (Nat.le_trans reached later)) (inside (n + 1) (Nat.le_succ_of_le (Nat.le_trans reached later))) (calm n later)
      have finally_ : Finally (fun n => ¬LeavesMail (actions n)) first :=
        @finally_not Loop (Action Task) states actions (fun s => s.phase.distance) LeavesMail first (fun n later => (each n later).1) fun n later => (each n later).2
      exact finally_.later reached
    · rintro ⟨first,reached,marks⟩
      have each (n : Nat) (later : first ≤ n) :=
        rank_step (endless n) (inside (n + 1) (Nat.le_succ_of_le (Nat.le_trans reached later))) (marks n later) (unwritten n (Nat.le_trans reached later))
      have finally_ : Finally (fun n => ¬Iterates (actions n)) first :=
        @finally_not Loop (Action Task) states actions mailRank Iterates first (fun n later => (each n later).1) fun n later => (each n later).2
      exact finally_.later reached

end Results

section Examples

private def doXInput : WakeInput := ⟨none,"c2",⟨none,"do X"⟩,[doX],.teammate⟩

-- The port answers every turn with an error.
private def failing (n : Nat) : Action Unit :=
  match n % 5 with
  | 0 => .read true (some [])
  | 1 => .take [worker] []
  | 2 => .claim false
  | 3 => .fail
  | _ => .finalize

private def failingSlot (status : TeammateStatus) : AgentSlot := ⟨{ worker with status := some status },status,false⟩

private def failingStates (n : Nat) : Loop :=
  match n % 5 with
  | 0 => ⟨failingSlot .idle,false,[doX],none,false,.draining,[]⟩
  | 1 => ⟨failingSlot .idle,false,[doX],none,false,.reading worker [doX] "do X",[]⟩
  | 2 => ⟨failingSlot .idle,false,[doX],none,false,.sending doXInput,[]⟩
  | 3 => ⟨failingSlot .working,false,[doX],none,false,.atPort doXInput false,[]⟩
  | _ => ⟨failingSlot .working,false,[doX],none,false,.finalizing ⟨false,none,none⟩,[]⟩

private theorem failing_endless : Endless (step workerPrompts "t") failingStates failing := by
  intro n
  have cases_ : n % 5 = 0 ∨ n % 5 = 1 ∨ n % 5 = 2 ∨ n % 5 = 3 ∨ n % 5 = 4 := by omega
  rcases cases_ with here | here | here | here | here
  · have next : (n + 1) % 5 = 1 := by omega
    simp only [failing,failingStates,here,next]
    decide
  · have next : (n + 1) % 5 = 2 := by omega
    simp only [failing,failingStates,here,next]
    decide
  · have next : (n + 1) % 5 = 3 := by omega
    simp only [failing,failingStates,here,next]
    decide
  · have next : (n + 1) % 5 = 4 := by omega
    simp only [failing,failingStates,here,next]
    decide
  · have next : (n + 1) % 5 = 0 := by omega
    simp only [failing,failingStates,here,next]
    decide

private theorem failing_unwritten (n : Nat) : ¬Writes (failing n) := by
  unfold failing
  split <;> exact id

private theorem failing_inside (n : Nat) : ¬Back (failingStates n) := by
  unfold failingStates Back
  split <;> simp

private theorem failing_iterates (n : Nat) : Iterates (failing (5 * n)) := by
  have here : 5 * n % 5 = 0 := by omega
  simp only [failing,here,Iterates]

-- One message, no run, no new mail: the loop never waits again.
theorem drain_never_ends : ∃ (states : Nat → Loop) (actions : Nat → Action Unit), Endless (step workerPrompts "t") states actions ∧
    (∀ n, ¬Writes (actions n)) ∧ (∀ n, ¬Back (states n)) ∧ ∀ n, ∃ m, n ≤ m ∧ Iterates (actions m) :=
  ⟨failingStates,failing,failing_endless,failing_unwritten,failing_inside,fun n => ⟨5 * n,by omega,failing_iterates n⟩⟩

theorem drain_finite_failing : ¬Finally (fun n => ¬LeavesMail (failing n)) 0 := by
  intro finally_
  rcases (drain_finite_iff failing_endless fun n _ => failing_unwritten n).mpr (.inr finally_) with ⟨n,-,back⟩ | ⟨n,-,calm⟩
  · exact failing_inside n back
  · exact calm (5 * n) (by omega) (failing_iterates n)

end Examples

end AlineaCopilot.TeamEventLoop
