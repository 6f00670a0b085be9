import AlineaCopilot.ConversationRuntime
import AlineaCopilot.TransitionRuns
open AlineaCopilot.KeyedMaps AlineaCopilot.TransitionRuns AlineaCopilot.ConversationRuntime

namespace AlineaCopilot.ConversationClaims

-- The service and every claim it has handed out, wherever that is held. A
-- dropped claim stands here as a released one.
structure Turns where
  service : Option RuntimeState
  claims : List TurnClaim

inductive Method where
  | tryClaimTurn (conversationId turnId : String)
  | release (claim : Nat)
  | releaseForTurn (claim : Nat) (turnId : String)
  | drop (claim : Nat)
  | markDeleting (conversationId : String)
  | clearDeleting (conversationId : String)
  | markCancelling (conversationId : String)
  | clearCancelling (conversationId : String)
  | markShuttingDown
  | discardService
deriving DecidableEq, Repr

-- The claim a call takes: the number of it among those handed out.
def Method.claim : Method → Option Nat
  | .release n | .releaseForTurn n _ | .drop n => some n
  | _ => none

def Turns.withClaim (turns : Turns) (n : Nat)
    (given : TurnClaim → Option RuntimeState → Option RuntimeState × TurnClaim × Bool) : Option Turns :=
  turns.claims[n]?.map fun claim =>
    ⟨(given claim turns.service).1,turns.claims.set n (given claim turns.service).2.1⟩

def Turns.flag (turns : Turns) (change : RuntimeState → RuntimeState) : Option Turns :=
  turns.service.map fun state => { turns with service := some (change state) }

def Turns.tryClaimTurn (turns : Turns) (state : RuntimeState) (conversationId turnId : String) : Turns :=
  match state.tryClaimTurn conversationId turnId with
  | .ok (next,claim) => ⟨some next,turns.claims ++ [claim]⟩
  | .error _ => turns

-- One method call under the mutex. Nothing is called on a service that is gone,
-- except by a claim through its weak reference.
def call (turns : Turns) : Method → Option Turns
  | .tryClaimTurn conversationId turnId => turns.service.map fun state => turns.tryClaimTurn state conversationId turnId
  | .release n => turns.withClaim n TurnClaim.releaseInner
  | .releaseForTurn n turnId => turns.withClaim n fun claim service => claim.releaseForTurn service turnId
  | .drop n => turns.withClaim n TurnClaim.releaseInner
  | .markDeleting conversationId => turns.flag fun state => (state.markDeleting conversationId).1
  | .clearDeleting conversationId => turns.flag (·.clearDeleting conversationId)
  | .markCancelling conversationId => turns.flag (·.markCancelling conversationId)
  | .clearCancelling conversationId => turns.flag (·.clearCancelling conversationId)
  | .markShuttingDown => turns.flag (·.markShuttingDown)
  | .discardService => some { turns with service := none }

def fresh : Turns := ⟨some .fresh,[]⟩

-- The claim with this number is still to be released.
def Turns.Holds (turns : Turns) (n : Nat) (c t : String) : Prop := turns.claims[n]? = some ⟨c,t,false⟩

structure Exclusive (turns : Turns) : Prop where
  single : ∀ n m c t u, turns.Holds n c t → turns.Holds m c u → n = m
  active : ∀ state, turns.service = some state → ∀ c t, state.activeTurnIdFor c = some t ↔ ∃ n, turns.Holds n c t

-- What the release of a claim on the turn `t` of the conversation `c` leaves alone.
structure OwnTurnOnly (c t : String) (state next : RuntimeState) : Prop where
  turns : ∀ d u, state.activeTurnIdFor d = some u → (d,u) ≠ (c,t) → next.activeTurnIdFor d = some u
  deleting : ∀ d, d ≠ c → (d ∈ next.deleting ↔ d ∈ state.deleting)
  cancelling : ∀ d, d ≠ c → (d ∈ next.cancelling ↔ d ∈ state.cancelling)

section Calls
variable {turns next : Turns}

theorem set_found {claims : List TurnClaim} (found : claims[n]? = some claim) : claims.set n claim = claims := by
  obtain ⟨inside,rfl⟩ := List.getElem?_eq_some_iff.mp found
  exact List.set_getElem_self inside

-- What a call does to the claims: hand out one more, release one, or nothing.
theorem call_cases (called : call turns method = some next) :
    (∃ c t state, turns.service = some state ∧ method = .tryClaimTurn c t ∧ next = turns.tryClaimTurn state c t) ∨
    (∃ n claim, turns.claims[n]? = some claim ∧ method.claim = some n ∧
      (next = turns ∨ (claim.released = false ∧
        next = ⟨(claim.releaseInner turns.service).1,turns.claims.set n { claim with released := true }⟩))) ∨
    (method.claim = none ∧ next.claims = turns.claims ∧ ∀ state, next.service = some state → ∃ before,
      turns.service = some before ∧ state.activeTurns = before.activeTurns ∧
      (before.shuttingDown = true → state.shuttingDown = true) ∧ (method = .markShuttingDown → state.shuttingDown = true)) := by
  have released : ∀ n, turns.withClaim n TurnClaim.releaseInner = some next → ∃ claim, turns.claims[n]? = some claim ∧
      (next = turns ∨ (claim.released = false ∧
        next = ⟨(claim.releaseInner turns.service).1,turns.claims.set n { claim with released := true }⟩)) := by
    intro n taken
    obtain ⟨claim,found,rfl⟩ := Option.map_eq_some_iff.mp taken
    refine ⟨claim,found,?_⟩
    cases wasReleased : claim.released with
    | true =>
      left
      have same : claim.releaseInner turns.service = (turns.service,claim,false) := by simp [TurnClaim.releaseInner,wasReleased]
      simp only [same,set_found found]
    | false =>
      right
      refine ⟨rfl,?_⟩
      have after : (claim.releaseInner turns.service).2.1 = { claim with released := true } := by
        simp only [TurnClaim.releaseInner,wasReleased,Bool.false_eq_true,if_false]
        cases turns.service <;> rfl
      rw [after]
  have flagged : ∀ change : RuntimeState → RuntimeState, turns.flag change = some next →
      (∀ state, (change state).activeTurns = state.activeTurns ∧ (state.shuttingDown = true → (change state).shuttingDown = true) ∧
        (method = .markShuttingDown → (change state).shuttingDown = true)) →
      next.claims = turns.claims ∧ ∀ state, next.service = some state → ∃ before, turns.service = some before ∧
        state.activeTurns = before.activeTurns ∧ (before.shuttingDown = true → state.shuttingDown = true) ∧
        (method = .markShuttingDown → state.shuttingDown = true) := by
    intro change taken kept
    obtain ⟨before,stands,rfl⟩ := Option.map_eq_some_iff.mp taken
    refine ⟨rfl,fun state equal => ⟨before,stands,?_⟩⟩
    cases Option.some.inj equal
    exact kept before
  cases method with
  | tryClaimTurn c t =>
    obtain ⟨state,stands,rfl⟩ := Option.map_eq_some_iff.mp called
    exact .inl ⟨c,t,state,stands,rfl,rfl⟩
  | release n =>
    obtain ⟨claim,found,outcome⟩ := released n called
    exact .inr (.inl ⟨n,claim,found,rfl,outcome⟩)
  | drop n =>
    obtain ⟨claim,found,outcome⟩ := released n called
    exact .inr (.inl ⟨n,claim,found,rfl,outcome⟩)
  | releaseForTurn n t =>
    obtain ⟨claim,found,equal⟩ := Option.map_eq_some_iff.mp called
    by_cases other : claim.turnId = t
    · have same : turns.withClaim n TurnClaim.releaseInner = some next := by
        rw [← equal]
        simp [Turns.withClaim,found,TurnClaim.releaseForTurn,other]
      obtain ⟨_,again,outcome⟩ := released n same
      cases Option.some.inj (found.symm.trans again)
      exact .inr (.inl ⟨n,claim,found,rfl,outcome⟩)
    · refine .inr (.inl ⟨n,claim,found,rfl,.inl ?_⟩)
      rw [← equal]
      simp only [TurnClaim.releaseForTurn,ne_eq,other,not_false_eq_true,if_true,set_found found]
  | markDeleting c => exact .inr (.inr (.intro rfl (flagged _ called fun state => ⟨rfl,id,nofun⟩)))
  | clearDeleting c => exact .inr (.inr (.intro rfl (flagged _ called fun state => ⟨rfl,id,nofun⟩)))
  | markCancelling c => exact .inr (.inr (.intro rfl (flagged _ called fun state => ⟨rfl,id,nofun⟩)))
  | clearCancelling c => exact .inr (.inr (.intro rfl (flagged _ called fun state => ⟨rfl,id,nofun⟩)))
  | markShuttingDown => exact .inr (.inr (.intro rfl (flagged _ called fun state => ⟨rfl,fun _ => rfl,fun _ => rfl⟩)))
  | discardService =>
    cases called
    exact .inr (.inr ⟨rfl,rfl,nofun⟩)

theorem releaseInner_some (held : claim.released = false) (state : RuntimeState) :
    (TurnClaim.releaseInner claim (some state)).1 = some (state.release claim.conversationId claim.turnId).1 := by
  simp [TurnClaim.releaseInner,held]

-- Releasing one claim takes it off the list of the held ones.
theorem holds_released (found : turns.claims[n]? = some claim) (service : Option RuntimeState) :
    (⟨service,turns.claims.set n { claim with released := true }⟩ : Turns).Holds m c t ↔ m ≠ n ∧ turns.Holds m c t := by
  simp only [Turns.Holds,List.getElem?_set]
  by_cases same : n = m
  · subst same
    have inside : n < turns.claims.length := (List.getElem?_eq_some_iff.mp found).1
    simp [inside]
  · simp [same,Ne.symm same]

theorem holds_claimed (turns : Turns) (service : Option RuntimeState) (c t d u : String) (m : Nat) :
    (⟨service,turns.claims ++ [⟨c,t,false⟩]⟩ : Turns).Holds m d u ↔
      turns.Holds m d u ∨ (m = turns.claims.length ∧ d = c ∧ u = t) := by
  simp only [Turns.Holds,List.getElem?_append,List.getElem?_singleton]
  by_cases earlier : m < turns.claims.length
  · have apart : m ≠ turns.claims.length := Nat.ne_of_lt earlier
    simp [earlier,apart]
  · by_cases last : m = turns.claims.length
    · subst last
      simp [eq_comm]
    · have after : m - turns.claims.length ≠ 0 := by omega
      simp [earlier,last,after]

theorem Exclusive.call (exclusive : Exclusive turns) (called : call turns method = some next) : Exclusive next := by
  rcases call_cases called with ⟨c,t,state,stands,_,rfl⟩ | ⟨n,claim,found,_,rfl | ⟨held,rfl⟩⟩ | ⟨_,same,kept⟩
  · unfold Turns.tryClaimTurn
    cases outcome : state.tryClaimTurn c t with
    | error error => exact exclusive
    | ok both =>
      obtain ⟨after,claim⟩ := both
      obtain ⟨_,_,free,rfl,rfl⟩ := tryClaimTurn_ok outcome
      simp only
      have alone : ∀ n u, ¬turns.Holds n c u := by
        intro n u holds
        have active := (exclusive.active state stands c u).mpr ⟨n,holds⟩
        rw [free] at active
        cases active
      constructor
      · intro n m d u v one two
        rcases (holds_claimed ..).mp one with first | ⟨rfl,rfl,rfl⟩
        · rcases (holds_claimed ..).mp two with second | ⟨rfl,rfl,rfl⟩
          · exact exclusive.single n m d u v first second
          · exact absurd first (alone n u)
        · rcases (holds_claimed ..).mp two with second | ⟨rfl,_,_⟩
          · exact absurd second (alone m v)
          · rfl
      · intro state' equal d u
        cases Option.some.inj equal
        simp only [RuntimeState.activeTurnIdFor,lookup_insert_eq,holds_claimed]
        by_cases same : d = c
        · subst same
          simp [alone,eq_comm]
        · simp only [same,false_and,and_false,or_false,if_false]
          exact exclusive.active state stands d u
  · exact exclusive
  · obtain ⟨c,t,released⟩ := claim
    cases held
    constructor
    · intro i j d u v one two
      obtain ⟨_,one⟩ := (holds_released found _).mp one
      obtain ⟨_,two⟩ := (holds_released found _).mp two
      exact exclusive.single i j d u v one two
    · intro state' equal d u
      cases service : turns.service with
      | none => simp [TurnClaim.releaseInner,service] at equal
      | some state =>
        rw [service] at equal
        replace equal : some (state.release c t).1 = some state' := (releaseInner_some rfl state).symm.trans equal
        cases Option.some.inj equal
        have active := exclusive.active state service
        have itself : state.activeTurnIdFor c = some t := (active c t).mpr ⟨n,found⟩
        rcases release_cases state c t with ⟨_,after⟩ | ⟨other,_⟩
        · rw [after]
          simp only [RuntimeState.activeTurnIdFor,lookup_erase_eq,holds_released found]
          by_cases same : d = c
          · subst same
            simp only [if_true,reduceCtorEq,false_iff,not_exists,not_and]
            intro m apart holds
            exact apart (exclusive.single m n d u t holds found)
          · rw [if_neg same]
            refine (active d u).trans ⟨fun ⟨m,holds⟩ => ⟨m,fun equal => ?_,holds⟩,fun ⟨m,_,holds⟩ => ⟨m,holds⟩⟩
            subst equal
            have both := holds.symm.trans found
            simp only [Option.some.injEq,TurnClaim.mk.injEq] at both
            exact same both.1
        · exact absurd itself other
  · constructor
    · intro n m c t u one two
      simp only [Turns.Holds,same] at one two
      exact exclusive.single n m c t u one two
    · intro state stands c t
      obtain ⟨before,service,turnsKept,_⟩ := kept state stands
      simp only [RuntimeState.activeTurnIdFor,turnsKept,Turns.Holds,same]
      exact exclusive.active before service c t

-- Once shutting down, the service stays so.
theorem shutting_call (called : call turns method = some next)
    (shut : method = .markShuttingDown ∨ ∀ state, turns.service = some state → state.shuttingDown = true) :
    ∀ state, next.service = some state → state.shuttingDown = true := by
  rcases call_cases called with ⟨c,t,before,stands,rfl,rfl⟩ | ⟨n,claim,found,takes,rfl | ⟨held,rfl⟩⟩ | ⟨_,_,kept⟩
  · have down := shut.resolve_left nofun before stands
    have refused : before.tryClaimTurn c t = .error (.busy "conversation runtime is shutting down") := by
      simp [RuntimeState.tryClaimTurn,down]
    simp only [Turns.tryClaimTurn,refused]
    exact shut.resolve_left nofun
  · refine shut.resolve_left ?_
    rintro rfl
    cases takes
  · have down := shut.resolve_left (by rintro rfl; cases takes)
    intro state equal
    cases service : turns.service with
    | none => simp [TurnClaim.releaseInner,service,held] at equal
    | some before =>
      rw [service] at equal
      replace equal := (releaseInner_some held before).symm.trans equal
      cases Option.some.inj equal
      rcases release_cases before claim.conversationId claim.turnId with ⟨_,after⟩ | ⟨_,after⟩ <;>
      · rw [after]
        exact down before service
  · intro state stands
    obtain ⟨before,service,_,stays,shuts⟩ := kept state stands
    rcases shut with rfl | down
    · exact shuts rfl
    · exact stays (down before service)

theorem own_turn_only (found : turns.claims[n]? = some claim) (stands : turns.service = some state)
    (called : call turns method = some next) (takes : method.claim = some n) (after : next.service = some state') :
    OwnTurnOnly claim.conversationId claim.turnId state state' := by
  have refl : OwnTurnOnly claim.conversationId claim.turnId state state :=
    ⟨fun _ _ active _ => active,fun _ _ => Iff.rfl,fun _ _ => Iff.rfl⟩
  rcases call_cases called with ⟨c,t,_,_,rfl,_⟩ | ⟨m,other,there,same,rfl | ⟨held,rfl⟩⟩ | ⟨none,_⟩
  · cases takes
  · cases Option.some.inj (stands.symm.trans after)
    exact refl
  · cases Option.some.inj (takes.symm.trans same)
    cases Option.some.inj (found.symm.trans there)
    rw [stands] at after
    replace after := (releaseInner_some held state).symm.trans after
    cases Option.some.inj after
    rcases release_cases state claim.conversationId claim.turnId with ⟨itself,after⟩ | ⟨_,after⟩
    · rw [after]
      refine ⟨fun d u active other => ?_,fun d other => ?_,fun d other => ?_⟩
      · simp only [RuntimeState.activeTurnIdFor,lookup_erase_eq]
        by_cases same : d = claim.conversationId
        · subst same
          have equal : u = claim.turnId := Option.some.inj (active.symm.trans itself)
          exact absurd (by rw [equal]) other
        · rw [if_neg same]
          exact active
      · simp [other]
      · simp [other]
    · rw [after]; exact refl
  · cases takes.symm.trans none

-- No claim is handed out while shutting down or for a conversation being deleted.
theorem claim_refused (called : call turns (.tryClaimTurn c t) = some next)
    (refuses : ∀ state, turns.service = some state → state.shuttingDown = true ∨ c ∈ state.deleting) : next = turns := by
  obtain ⟨state,stands,rfl⟩ := Option.map_eq_some_iff.mp called
  unfold Turns.tryClaimTurn
  cases outcome : state.tryClaimTurn c t with
  | error error => rfl
  | ok both =>
    obtain ⟨running,unmarked,_⟩ := tryClaimTurn_ok outcome
    rcases refuses state stands with down | marked
    · rw [running] at down
      cases down
    · exact absurd marked unmarked

end Calls

-- What holds after any sequence of calls, and of the next one.
structure TurnsExclusive (methods : List Method) (turns : Turns) : Prop where
  exclusive : Exclusive turns
  own : ∀ n claim state method next state', turns.claims[n]? = some claim → turns.service = some state →
    method.claim = some n → call turns method = some next → next.service = some state' →
      OwnTurnOnly claim.conversationId claim.turnId state state'
  refused : ∀ c t next, call turns (.tryClaimTurn c t) = some next →
    (.markShuttingDown ∈ methods ∨ ∀ state, turns.service = some state → c ∈ state.deleting) → next = turns

theorem exclusive_fresh : Exclusive fresh := by
  constructor
  · intro n m c t u one
    simp [Turns.Holds,fresh] at one
  · intro state stands c t
    cases stands
    simp [RuntimeState.activeTurnIdFor,RuntimeState.fresh,Turns.Holds,fresh]

theorem shut_down (path : Runs call origin methods turns) (told : .markShuttingDown ∈ methods) :
    ∀ state, turns.service = some state → state.shuttingDown = true := by
  induction path with
  | nil => cases told
  | @snoc earlier between method after _ called ih =>
    refine shutting_call called ?_
    rcases List.mem_append.mp told with inside | last
    · exact .inr (ih inside)
    · exact .inl (List.mem_singleton.mp last).symm

theorem turns_exclusive (path : Runs call fresh methods turns) : TurnsExclusive methods turns := by
  have exclusive : Exclusive turns := path.invariant exclusive_fresh fun _ _ _ holds called => holds.call called
  refine ⟨exclusive,fun n claim state method next state' found stands takes called after => ?_,fun c t next called refuses => ?_⟩
  · exact own_turn_only found stands called takes after
  · refine claim_refused called fun state stands => ?_
    rcases refuses with told | marked
    · exact .inl (shut_down path told state stands)
    · exact .inr (marked state stands)

end AlineaCopilot.ConversationClaims
