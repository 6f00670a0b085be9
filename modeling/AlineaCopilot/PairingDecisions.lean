import AlineaCopilot.Pairing
import AlineaCopilot.TransitionRuns
open AlineaCopilot.KeyedMaps AlineaCopilot.TransitionRuns

namespace AlineaCopilot.Pairing

def Authorized (w : World) (user : PlatformUser) : Prop := ∃ row ∈ w.repo.users, row.user = user

-- An unexpired pending code.
def PairingCodeRow.Live (now : Int) (row : PairingCodeRow) : Prop := row.status = .pending ∧ now < row.expiresAt

def Call.Decides (code : String) : Call → Prop
  | .over _ other (.ok _) => other = code
  | _ => False

def Call.Finishes (code : String) : Call → Prop
  | .finishing other _ => other = code
  | _ => False

-- What a call writes, it writes while the row is still as the call has read it;
-- no write fails between creating the user and approving the code; and a code is
-- created while its user has no other.
def Call.Undisturbed (w : World) (fails : Bool) : Call → Prop
  | .creating row => fails = false → w.repo.pairings.lookup row.code = none → w.now < row.expiresAt →
      ∀ code other, w.repo.pairings.lookup code = some other → other.user = row.user → ¬other.Live w.now
  | .marking _ code => fails = false → ∀ row, w.repo.pairings.lookup code = some row → row.status = .pending
  | .authorizing code row => ∀ repo, attempt fails (w.repo.createUser row) = .ok repo →
      ∃ found, w.repo.pairings.lookup code = some found ∧ found.Live w.now
  | .finishing _ _ => fails = false
  | .rejecting code => fails = false → (∀ row, w.repo.pairings.lookup code = some row → row.status = .pending) ∧
      ∀ m, ¬(w.calls m).Finishes code
  | _ => True

def Undisturbed (w : World) : Action → Prop
  | .go n fails _ _ => (w.calls n).Undisturbed w fails
  | _ => True

structure Kept (w : World) : Prop where
  checks : ∀ n verdict code row, w.calls n = .checking verdict code row →
    ∃ found, w.repo.pairings.lookup code = some found ∧ found.user = row.user ∧ found.expiresAt = row.expiresAt
  hands : ∀ n code row, w.calls n = .authorizing code row ∨ w.calls n = .finishing code row →
    ∃ found, w.repo.pairings.lookup code = some found ∧ found.user = row.user
  marks : ∀ n verdict code, w.calls n = .marking verdict code →
    ∃ found, w.repo.pairings.lookup code = some found ∧ found.expiresAt ≤ w.now
  finishes : ∀ n code row, w.calls n = .finishing code row → Authorized w row.user ∧ (∀ m, ¬(w.calls m).Decides code) ∧
    ∀ m, (w.calls m).Finishes code → m = n
  decides : ∀ n code, (w.calls n).Decides code →
    (∃ found, w.repo.pairings.lookup code = some found ∧ found.status ≠ .pending) ∧ ∀ m, (w.calls m).Decides code → m = n
  approves : ∀ n code, w.calls n = .over .approve code (.ok ()) →
    ∃ found, w.repo.pairings.lookup code = some found ∧ Authorized w found.user
  authorized : ∀ user, Authorized w user → ∃ n code found, w.repo.pairings.lookup code = some found ∧ found.user = user ∧
    (w.calls n = .over .approve code (.ok ()) ∨ (w.calls n).Finishes code)
  single : ∀ one two first second, w.repo.pairings.lookup one = some first → w.repo.pairings.lookup two = some second →
    first.user = second.user → first.Live w.now → second.Live w.now → one = two

-- What a step of a call does to the tables and to the call.
inductive Effect (w : World) (n : Nat) (fails : Bool) : World → Prop where
  | moves : next.repo = w.repo → next.now = w.now → next.calls = Function.update w.calls n call →
      (∀ code, ¬call.Finishes code ∧ ¬call.Decides code) → (∀ code, ¬(w.calls n).Decides code) →
      (∀ code, (w.calls n).Finishes code → fails = true ∨ w.repo.pairings.lookup code = none) →
      (∀ verdict code row, call = .checking verdict code row → w.repo.pairings.lookup code = some row) →
      (∀ code row, call = .authorizing code row → ∃ verdict found, w.calls n = .checking verdict code found ∧
        found.user = row.user) →
      (∀ verdict code, call = .marking verdict code → ∃ found, w.calls n = .checking verdict code found ∧
        found.expiresAt ≤ w.now) → Effect w n fails next
  | expires : w.calls n = .expiring requester (code :: codes) → w.repo.updatePairingStatus code .expired = .ok repo →
      next.repo = repo → next.now = w.now → next.calls = Function.update w.calls n (.expiring requester codes) →
      Effect w n fails next
  | marks : fails = false → w.calls n = .marking verdict code → w.repo.updatePairingStatus code .expired = .ok repo →
      next.repo = repo → next.now = w.now →
      next.calls = Function.update w.calls n (.over verdict code (.error (.pairingExpired code))) → Effect w n fails next
  | creates : fails = false → w.calls n = .creating row → w.repo.createPairing row = .ok repo → next.repo = repo →
      next.now = w.now → next.calls = Function.update w.calls n (.requested (.ok row.code)) → Effect w n fails next
  | authorizes : w.calls n = .authorizing code row → attempt fails (w.repo.createUser row) = .ok repo → next.repo = repo →
      next.now = w.now → next.calls = Function.update w.calls n (.finishing code row) → Effect w n fails next
  | approves : w.calls n = .finishing code row → w.repo.updatePairingStatus code .approved = .ok repo →
      next.repo = repo → next.now = w.now → next.calls = Function.update w.calls n (.over .approve code (.ok ())) →
      Effect w n fails next
  | rejects : fails = false → w.calls n = .rejecting code → w.repo.updatePairingStatus code .rejected = .ok repo →
      next.repo = repo → next.now = w.now → next.calls = Function.update w.calls n (.over .reject code (.ok ())) →
      Effect w n fails next

section Effects
variable {w next : World} {n : Nat} {fails : Bool}

theorem attempt_ok {result : Except DbError Repository} {repo : Repository} (made : attempt fails result = .ok repo) :
    fails = false ∧ result = .ok repo := by
  unfold attempt at made
  split at made
  · cases made
  · rename_i holds
    exact ⟨Bool.eq_false_of_not_eq_true holds,made⟩

-- A row that was read, or a verdict that has to be marked, is in hand.
def Call.hands : Call → Bool
  | .checking .. | .authorizing .. | .marking .. => true
  | _ => false

-- The call ends, or goes on with nothing in hand.
theorem Effect.plain {before call : Call} (was : w.calls n = before)
    (idle : ∀ code, ¬before.Decides code ∧ (before.Finishes code → fails = true ∨ w.repo.pairings.lookup code = none))
    (plain : ∀ code, ¬call.Finishes code ∧ ¬call.Decides code) (free : call.hands = false) :
    Effect w n fails (w.call n call) := by
  refine .moves rfl rfl rfl plain (fun code => was ▸ (idle code).1) (fun code => was ▸ (idle code).2)
    (fun verdict code row same => ?_) (fun code row same => ?_) fun verdict code same => ?_
  all_goals
    rw [same] at free
    cases free

theorem advance_effect {num : Nat} {fresh : String} (enabled : w.advance n fails num fresh = some next) :
    Effect w n fails next := by
  have quiet : ∀ code : String, ¬False ∧ ¬False := fun _ => ⟨False.elim,False.elim⟩
  have still : ∀ code, ¬False ∧ (False → fails = true ∨ w.repo.pairings.lookup code = none) :=
    fun _ => ⟨False.elim,False.elim⟩
  unfold World.advance at enabled
  split at enabled
  · rename_i requester listing
    split at enabled
    · cases enabled
      exact .plain listing still quiet rfl
    · cases enabled
      exact .plain listing still quiet rfl
  · rename_i requester code codes expiring
    split at enabled
    · rename_i repo made
      cases enabled
      exact .expires expiring (attempt_ok made).2 rfl rfl rfl
    · cases enabled
      exact .plain expiring still quiet rfl
  · rename_i requester expiring
    cases enabled
    exact .plain expiring still quiet rfl
  · rename_i row creating
    split at enabled
    · rename_i repo made
      cases enabled
      exact .creates (attempt_ok made).1 creating (attempt_ok made).2 rfl rfl rfl
    · cases enabled
      exact .plain creating still quiet rfl
  · rename_i verdict code reading
    split at enabled
    · cases enabled
      exact .plain reading still quiet rfl
    · split at enabled
      · cases enabled
        exact .plain reading still quiet rfl
      · rename_i row found
        cases enabled
        refine .moves rfl rfl rfl quiet (by rw [reading]; exact fun _ => False.elim) (by rw [reading]; exact fun _ => False.elim)
          (fun v c r same => ?_) nofun nofun
        cases same
        exact found
  · rename_i verdict code row checking
    split at enabled
    · cases enabled
      exact .plain checking still quiet rfl
    · split at enabled
      · rename_i late
        cases enabled
        refine .moves rfl rfl rfl quiet (by rw [checking]; exact fun _ => False.elim) (by rw [checking]; exact fun _ => False.elim)
          nofun nofun fun v c same => ?_
        cases same
        exact ⟨row,checking,late⟩
      · split at enabled
        · cases enabled
          refine .moves rfl rfl rfl quiet (by rw [checking]; exact fun _ => False.elim)
            (by rw [checking]; exact fun _ => False.elim) nofun (fun c r same => ?_) nofun
          cases same
          exact ⟨.approve,row,checking,rfl⟩
        · cases enabled
          exact .plain checking still quiet rfl
  · rename_i verdict code marking
    split at enabled
    · rename_i repo made
      cases enabled
      exact .marks (attempt_ok made).1 marking (attempt_ok made).2 rfl rfl rfl
    · cases enabled
      exact .plain marking still quiet rfl
  · rename_i code row authorizing
    split at enabled
    · rename_i repo made
      cases enabled
      exact .authorizes authorizing made rfl rfl rfl
    · cases enabled
      exact .plain authorizing still quiet rfl
  · rename_i code row finishing
    split at enabled
    · rename_i repo made
      cases enabled
      exact .approves finishing (attempt_ok made).2 rfl rfl rfl
    · rename_i error made
      cases enabled
      refine .plain finishing (fun other => ⟨False.elim,?_⟩) quiet rfl
      rintro rfl
      unfold attempt at made
      split at made
      · rename_i failed
        exact .inl failed
      · unfold Repository.updatePairingStatus at made
        split at made
        · rename_i absent
          exact .inr absent
        · cases made
  · rename_i code rejecting
    split at enabled
    · rename_i repo made
      cases enabled
      exact .rejects (attempt_ok made).1 rejecting (attempt_ok made).2 rfl rfl rfl
    · cases enabled
      exact .plain rejecting still quiet rfl
  · cases enabled
  · cases enabled
  · cases enabled

end Effects

section Repository
variable {repo after : Repository}

theorem updated {code : String} {status : PairingStatus} (made : repo.updatePairingStatus code status = .ok after) :
    after.users = repo.users ∧ ∃ row, repo.pairings.lookup code = some row ∧ ∀ other, after.pairings.lookup other =
      if other = code then some { row with status := status } else repo.pairings.lookup other := by
  unfold Repository.updatePairingStatus at made
  split at made
  · cases made
  · rename_i row found
    cases made
    exact ⟨rfl,row,found,fun other => lookup_insert_eq repo.pairings other code _⟩

theorem created {row : PairingCodeRow} (made : repo.createPairing row = .ok after) :
    after.users = repo.users ∧ repo.pairings.lookup row.code = none ∧ ∀ other, after.pairings.lookup other =
      if other = row.code then some row else repo.pairings.lookup other := by
  unfold Repository.createPairing at made
  split at made
  · cases made
  · rename_i absent
    cases made
    exact ⟨rfl,absent,fun other => lookup_insert_eq repo.pairings other row.code row⟩

theorem userCreated {row : AssistantUserRow} (made : repo.createUser row = .ok after) :
    after.pairings = repo.pairings ∧ after.users = repo.users ++ [row] ∧ ∀ other ∈ repo.users, other.user ≠ row.user := by
  unfold Repository.createUser at made
  split at made
  · cases made
  · rename_i free
    cases made
    refine ⟨rfl,rfl,fun other member same => free ?_⟩
    exact List.any_eq_true.mpr ⟨other,member,decide_eq_true (.inr same)⟩

end Repository

section Steps
variable {w next : World} {n : Nat} {call : Call}

-- Rows keep what they are, and nothing becomes pending.
structure Settles (w next : World) : Prop where
  users : next.repo.users = w.repo.users
  calls : next.calls = w.calls
  onward : ∀ code row, w.repo.pairings.lookup code = some row → ∃ later, next.repo.pairings.lookup code = some later ∧
    later.user = row.user ∧ later.expiresAt = row.expiresAt ∧ (later.status = row.status ∨ later.status ≠ .pending)
  back : ∀ code later, next.repo.pairings.lookup code = some later → ∃ row, w.repo.pairings.lookup code = some row ∧
    later.user = row.user ∧ later.expiresAt = row.expiresAt ∧ (later.status = row.status ∨ later.status ≠ .pending)
  clock : w.now ≤ next.now

theorem Settles.live (settles : Settles w next) {code : String} {later : PairingCodeRow}
    (found : next.repo.pairings.lookup code = some later) (live : later.Live next.now) :
    ∃ row, w.repo.pairings.lookup code = some row ∧ row.user = later.user ∧ row.Live w.now := by
  obtain ⟨row,was,user,expires,status⟩ := settles.back code later found
  obtain ⟨waiting,inTime⟩ := live
  rcases status with same | other
  · exact ⟨row,was,user.symm,same.symm.trans waiting,expires ▸ lt_of_le_of_lt settles.clock inTime⟩
  · exact absurd waiting other

theorem Kept.settles (kept : Kept w) (settles : Settles w next) : Kept next := by
  have persons : ∀ {user}, Authorized next user ↔ Authorized w user := by
    intro user
    simp only [Authorized,settles.users]
  refine ⟨fun k v code row there => ?_,fun k code row there => ?_,fun k v code there => ?_,fun k code row there => ?_,
    fun k code there => ?_,fun k code there => ?_,fun user allowed => ?_,fun one two first second found also same live alive => ?_⟩
  · rw [settles.calls] at there
    obtain ⟨found,was,user,expires⟩ := kept.checks k v code row there
    obtain ⟨later,now,user',expires',-⟩ := settles.onward code found was
    exact ⟨later,now,user'.trans user,expires'.trans expires⟩
  · rw [settles.calls] at there
    obtain ⟨found,was,user⟩ := kept.hands k code row there
    obtain ⟨later,now,user',-⟩ := settles.onward code found was
    exact ⟨later,now,user'.trans user⟩
  · rw [settles.calls] at there
    obtain ⟨found,was,late⟩ := kept.marks k v code there
    obtain ⟨later,now,-,expires,-⟩ := settles.onward code found was
    exact ⟨later,now,expires ▸ le_trans late settles.clock⟩
  · rw [persons,settles.calls] at *
    exact kept.finishes k code row there
  · rw [settles.calls] at there ⊢
    obtain ⟨⟨found,was,done⟩,alone⟩ := kept.decides k code there
    obtain ⟨later,now,-,-,status⟩ := settles.onward code found was
    refine ⟨⟨later,now,?_⟩,alone⟩
    rcases status with same | other
    · rw [same]
      exact done
    · exact other
  · rw [settles.calls] at there
    obtain ⟨found,was,allowed⟩ := kept.approves k code there
    obtain ⟨later,now,user,-⟩ := settles.onward code found was
    exact ⟨later,now,persons.mpr (user ▸ allowed)⟩
  · obtain ⟨k,code,found,was,user',call⟩ := kept.authorized user (persons.mp allowed)
    obtain ⟨later,now,same,-⟩ := settles.onward code found was
    exact ⟨k,code,later,now,same.trans user',settles.calls ▸ call⟩
  · obtain ⟨old,was,user,lively⟩ := settles.live found live
    obtain ⟨older,before,user',livelier⟩ := settles.live also alive
    exact kept.single one two old older was before (user.trans (same.trans user'.symm)) lively livelier

theorem settles_update {code : String} {status : PairingStatus} {repo : Repository}
    (made : w.repo.updatePairingStatus code status = .ok repo) (done : status ≠ .pending) : Settles w (w.stores repo) := by
  obtain ⟨users,row,found,lookups⟩ := updated made
  refine ⟨users,rfl,fun other old was => ?_,fun other later there => ?_,le_refl _⟩
  · by_cases here : other = code
    · subst here
      cases found.symm.trans was
      exact ⟨_,(lookups other).trans (if_pos rfl),rfl,rfl,.inr done⟩
    · exact ⟨old,(lookups other).trans ((if_neg here).trans was),rfl,rfl,.inl rfl⟩
  · change repo.pairings.lookup other = some later at there
    rw [lookups] at there
    split at there
    · rename_i here
      subst here
      cases there
      exact ⟨row,found,rfl,rfl,.inr done⟩
    · exact ⟨later,there,rfl,rfl,.inl rfl⟩

theorem settles_cleanup (w : World) (now : Int) : Settles w (w.stores (w.repo.cleanupExpiredPairings now)) := by
  have rows : ∀ row : PairingCodeRow, (row.cleanup now).user = row.user ∧ (row.cleanup now).expiresAt = row.expiresAt ∧
      ((row.cleanup now).status = row.status ∨ (row.cleanup now).status ≠ .pending) := by
    intro row
    unfold PairingCodeRow.cleanup
    split
    · exact ⟨rfl,rfl,.inr nofun⟩
    · exact ⟨rfl,rfl,.inl rfl⟩
  have lookups : ∀ code, (w.stores (w.repo.cleanupExpiredPairings now)).repo.pairings.lookup code =
      (w.repo.pairings.lookup code).map (PairingCodeRow.cleanup now) := fun code => lookup_mapValues _ _ _
  refine ⟨rfl,rfl,fun code row was => ?_,fun code later there => ?_,le_refl _⟩
  · exact ⟨row.cleanup now,by rw [lookups,was]; rfl,rows row⟩
  · rw [lookups] at there
    obtain ⟨row,was,rfl⟩ := Option.map_eq_some_iff.mp there
    exact ⟨row,was,rows row⟩

theorem settles_tick (w : World) (ms : Nat) : Settles w { w with now := w.now + ms } :=
  ⟨rfl,rfl,fun _ row was => ⟨row,was,rfl,rfl,.inl rfl⟩,fun _ row was => ⟨row,was,rfl,rfl,.inl rfl⟩,
    Int.le_add_of_nonneg_right (Int.natCast_nonneg ms)⟩

theorem updated_call {w next : World} {n : Nat} {call : Call} (calls : next.calls = Function.update w.calls n call) (k : Nat) :
    next.calls k = if k = n then call else w.calls k := by
  rw [calls,Function.update_apply]

-- A call goes on, or ends with nothing decided.
theorem Kept.moves (kept : Kept w) (repo : next.repo = w.repo) (now : next.now = w.now)
    (calls : next.calls = Function.update w.calls n call) (plain : ∀ code, ¬call.Finishes code ∧ ¬call.Decides code)
    (was : ∀ code, ¬(w.calls n).Finishes code ∧ ¬(w.calls n).Decides code)
    (checks : ∀ verdict code row, call = .checking verdict code row → w.repo.pairings.lookup code = some row)
    (hands : ∀ code row, call = .authorizing code row → ∃ verdict found, w.calls n = .checking verdict code found ∧
      found.user = row.user)
    (marks : ∀ verdict code, call = .marking verdict code → ∃ found, w.calls n = .checking verdict code found ∧
      found.expiresAt ≤ w.now) : Kept next := by
  have persons : ∀ {user}, Authorized next user ↔ Authorized w user := by
    intro user
    simp only [Authorized,repo]
  have turn := updated_call calls
  have finishing : ∀ k code, (next.calls k).Finishes code ↔ (w.calls k).Finishes code := by
    intro k code
    rw [turn]
    split
    · rename_i here
      subst here
      exact ⟨fun done => absurd done (plain code).1,fun done => absurd done (was code).1⟩
    · exact Iff.rfl
  have deciding : ∀ k code, (next.calls k).Decides code ↔ (w.calls k).Decides code := by
    intro k code
    rw [turn]
    split
    · rename_i here
      subst here
      exact ⟨fun done => absurd done (plain code).2,fun done => absurd done (was code).2⟩
    · exact Iff.rfl
  have final : ∀ k code, next.calls k = .over .approve code (.ok ()) ↔ w.calls k = .over .approve code (.ok ()) := by
    intro k code
    rw [turn]
    split
    · rename_i here
      subst here
      constructor
      · rintro rfl
        exact absurd rfl (plain code).2
      · intro there
        have decided : (w.calls k).Decides code := by rw [there]; rfl
        exact absurd decided (was code).2
    · exact Iff.rfl
  refine ⟨fun k v code row there => ?_,fun k code row there => ?_,fun k v code there => ?_,fun k code row there => ?_,
    fun k code there => ?_,fun k code there => ?_,fun user allowed => ?_,fun one two first second => ?_⟩
  · rw [repo]
    rw [turn] at there
    split at there
    · exact ⟨row,checks v code row there,rfl,rfl⟩
    · exact kept.checks k v code row there
  · rw [repo]
    rw [turn] at there
    split at there
    · rcases there with opened | done
      · obtain ⟨v,read,reading,same⟩ := hands code row opened
        obtain ⟨found,there,user,-⟩ := kept.checks n v code read reading
        exact ⟨found,there,user.trans same⟩
      · exact absurd (done ▸ rfl) (plain code).1
    · exact kept.hands k code row there
  · rw [repo,now]
    rw [turn] at there
    split at there
    · obtain ⟨read,reading,late⟩ := marks v code there
      obtain ⟨found,there,-,expires⟩ := kept.checks n v code read reading
      exact ⟨found,there,expires ▸ late⟩
    · exact kept.marks k v code there
  · have before : w.calls k = .finishing code row := by
      rw [turn] at there
      split at there
      · exact absurd (there ▸ rfl) (plain code).1
      · exact there
    simp only [persons,deciding,finishing]
    exact kept.finishes k code row before
  · simp only [deciding,repo] at there ⊢
    exact kept.decides k code there
  · rw [final] at there
    simp only [persons,repo]
    exact kept.approves k code there
  · obtain ⟨k,code,found,there,same,call⟩ := kept.authorized user (persons.mp allowed)
    exact ⟨k,code,found,repo ▸ there,same,call.imp (final k code).mpr (finishing k code).mpr⟩
  · rw [repo,now]
    exact kept.single one two first second

-- A call of `approve` or `reject` ends well.
theorem Kept.decide (kept : Kept w) {verdict : Verdict} {code : String} (repo : next.repo = w.repo) (now : next.now = w.now)
    (calls : next.calls = Function.update w.calls n (.over verdict code (.ok ())))
    (settled : ∃ found, w.repo.pairings.lookup code = some found ∧ found.status ≠ .pending)
    (alone : ∀ m, m ≠ n → ¬(w.calls m).Finishes code ∧ ¬(w.calls m).Decides code)
    (was : ∀ other, ¬(w.calls n).Decides other ∧ ((w.calls n).Finishes other → other = code ∧ verdict = .approve))
    (allowed : verdict = .approve → ∃ found, w.repo.pairings.lookup code = some found ∧ Authorized w found.user) : Kept next := by
  have persons : ∀ {user}, Authorized next user ↔ Authorized w user := by
    intro user
    simp only [Authorized,repo]
  have turn := updated_call calls
  have finishing : ∀ k other, (next.calls k).Finishes other → k ≠ n ∧ (w.calls k).Finishes other := by
    intro k other there
    rw [turn] at there
    split at there
    · exact there.elim
    · rename_i elsewhere
      exact ⟨elsewhere,there⟩
  have deciding : ∀ k other, (next.calls k).Decides other → k = n ∧ other = code ∨ k ≠ n ∧ (w.calls k).Decides other := by
    intro k other there
    rw [turn] at there
    split at there
    · rename_i here
      exact .inl ⟨here,Eq.symm there⟩
    · rename_i elsewhere
      exact .inr ⟨elsewhere,there⟩
  refine ⟨fun k v other row there => ?_,fun k other row there => ?_,fun k v other there => ?_,fun k other row there => ?_,
    fun k other there => ?_,fun k other there => ?_,fun user held => ?_,fun one two first second => ?_⟩
  · rw [turn] at there
    rw [repo]
    split at there
    · cases there
    · exact kept.checks k v other row there
  · rw [turn] at there
    rw [repo]
    split at there
    · rcases there with there | there
      · cases there
      · cases there
    · exact kept.hands k other row there
  · rw [turn] at there
    rw [repo,now]
    split at there
    · cases there
    · exact kept.marks k v other there
  · rw [turn] at there
    split at there
    · cases there
    · rename_i elsewhere
      obtain ⟨person,undecided,single⟩ := kept.finishes k other row there
      have done : (w.calls k).Finishes other := by rw [there]; rfl
      refine ⟨persons.mpr person,fun m decided => ?_,fun m also => single m (finishing m other also).2⟩
      rcases deciding m other decided with ⟨-,rfl⟩ | ⟨-,before⟩
      · exact (alone k elsewhere).1 done
      · exact undecided m before
  · rw [repo]
    rcases deciding k other there with ⟨rfl,rfl⟩ | ⟨elsewhere,before⟩
    · refine ⟨settled,fun m also => ?_⟩
      rcases deciding m other also with ⟨here,-⟩ | ⟨apart,again⟩
      · exact here
      · exact absurd again (alone m apart).2
    · obtain ⟨row,single⟩ := kept.decides k other before
      refine ⟨row,fun m also => ?_⟩
      rcases deciding m other also with ⟨-,rfl⟩ | ⟨-,again⟩
      · exact absurd before (alone k elsewhere).2
      · exact single m again
  · rw [turn] at there
    rw [repo]
    split at there
    · cases there
      obtain ⟨found,row,person⟩ := allowed rfl
      exact ⟨found,row,persons.mpr person⟩
    · obtain ⟨found,row,person⟩ := kept.approves k other there
      exact ⟨found,row,persons.mpr person⟩
  · obtain ⟨k,other,found,there,same,call⟩ := kept.authorized user (persons.mp held)
    refine ⟨k,other,found,repo ▸ there,same,?_⟩
    rw [turn]
    split
    · rename_i here
      subst here
      rcases call with approved | finishes
      · exact absurd (show (w.calls k).Decides other by rw [approved]; rfl) (was other).1
      · obtain ⟨rfl,rfl⟩ := (was other).2 finishes
        exact .inl rfl
    · exact call
  · rw [repo,now]
    exact kept.single one two first second

-- A code enters the table while its user has no live one.
theorem Kept.creates (kept : Kept w) {row : PairingCodeRow} (absent : w.repo.pairings.lookup row.code = none)
    (users : next.repo.users = w.repo.users) (now : next.now = w.now) (calls : next.calls = w.calls)
    (lookups : ∀ other, next.repo.pairings.lookup other = if other = row.code then some row else w.repo.pairings.lookup other)
    (first : w.now < row.expiresAt → ∀ code other, w.repo.pairings.lookup code = some other → other.user = row.user →
      ¬other.Live w.now) : Kept next := by
  have persons : ∀ {user}, Authorized next user ↔ Authorized w user := by
    intro user
    simp only [Authorized,users]
  have old : ∀ {code found}, w.repo.pairings.lookup code = some found → next.repo.pairings.lookup code = some found := by
    intro code found there
    rw [lookups]
    split
    · rename_i here
      rw [here,absent] at there
      cases there
    · exact there
  refine ⟨fun k v code read there => ?_,fun k code user there => ?_,fun k v code there => ?_,fun k code user there => ?_,
    fun k code there => ?_,fun k code there => ?_,fun user held => ?_,fun one two first' second found also same live alive => ?_⟩
  · rw [calls] at there
    obtain ⟨found,before,rest⟩ := kept.checks k v code read there
    exact ⟨found,old before,rest⟩
  · rw [calls] at there
    obtain ⟨found,before,rest⟩ := kept.hands k code user there
    exact ⟨found,old before,rest⟩
  · rw [calls] at there
    obtain ⟨found,before,rest⟩ := kept.marks k v code there
    exact ⟨found,old before,now ▸ rest⟩
  · rw [calls] at there ⊢
    rw [persons]
    exact kept.finishes k code user there
  · rw [calls] at there ⊢
    obtain ⟨⟨found,before,done⟩,alone⟩ := kept.decides k code there
    exact ⟨⟨found,old before,done⟩,alone⟩
  · rw [calls] at there
    obtain ⟨found,before,person⟩ := kept.approves k code there
    exact ⟨found,old before,persons.mpr person⟩
  · obtain ⟨k,code,found,before,rest⟩ := kept.authorized user (persons.mp held)
    exact ⟨k,code,found,old before,calls ▸ rest⟩
  · rw [now] at live alive
    rw [lookups] at found also
    split at found
    · rename_i here
      split at also
      · rename_i again
        exact here.trans again.symm
      · cases found
        exact absurd alive (first live.2 two second also same.symm)
    · split at also
      · cases also
        exact absurd live (first alive.2 one first' found same)
      · exact kept.single one two first' second found also same live alive

-- The user is created for a live code, which nothing has decided.
theorem Kept.authorizes (kept : Kept w) {code : String} {row : AssistantUserRow} (was : w.calls n = .authorizing code row)
    (pairings : next.repo.pairings = w.repo.pairings) (users : next.repo.users = w.repo.users ++ [row])
    (unknown : ∀ other ∈ w.repo.users, other.user ≠ row.user) (now : next.now = w.now)
    (calls : next.calls = Function.update w.calls n (.finishing code row))
    (live : ∃ found, w.repo.pairings.lookup code = some found ∧ found.Live w.now) : Kept next := by
  have persons : ∀ {user}, Authorized next user ↔ Authorized w user ∨ row.user = user := by
    intro user
    simp [Authorized,users,or_and_right,exists_or]
  have fresh : ¬Authorized w row.user := fun ⟨other,member,same⟩ => unknown other member same
  have turn := updated_call calls
  obtain ⟨found,there,waiting,-⟩ := live
  have undecided : ∀ m, ¬(w.calls m).Decides code := by
    intro m decided
    obtain ⟨⟨done,also,status⟩,-⟩ := kept.decides m code decided
    cases there.symm.trans also
    exact status waiting
  obtain ⟨mine,also,owner⟩ := kept.hands n code row (.inl was)
  cases there.symm.trans also
  -- Whoever else were finishing this code would have created the same user.
  have unfinished : ∀ m, ¬(w.calls m).Finishes code := by
    intro m done
    cases call : w.calls m with
    | finishing other user =>
      rw [call] at done
      cases (show other = code from done)
      obtain ⟨his,again,same⟩ := kept.hands m code user (.inr call)
      cases there.symm.trans again
      rw [← owner,same] at fresh
      exact fresh (kept.finishes m code user call).1
    | _ =>
      rw [call] at done
      exact done
  have deciding : ∀ k other, (next.calls k).Decides other ↔ (w.calls k).Decides other := by
    intro k other
    rw [turn]
    split
    · rename_i here
      rw [here,was]
      exact Iff.rfl
    · exact Iff.rfl
  have finishing : ∀ k other, (next.calls k).Finishes other → k = n ∧ other = code ∨ k ≠ n ∧ (w.calls k).Finishes other := by
    intro k other done
    rw [turn] at done
    split at done
    · rename_i here
      exact .inl ⟨here,Eq.symm done⟩
    · rename_i elsewhere
      exact .inr ⟨elsewhere,done⟩
  refine ⟨fun k v other read opened => ?_,fun k other user opened => ?_,fun k v other opened => ?_,fun k other user opened => ?_,
    fun k other decided => ?_,fun k other approved => ?_,fun user held => ?_,fun one two first second => ?_⟩
  · rw [turn] at opened
    rw [pairings]
    split at opened
    · cases opened
    · exact kept.checks k v other read opened
  · rw [turn] at opened
    rw [pairings]
    split at opened
    · rcases opened with opened | done
      · cases opened
      · cases done
        exact ⟨found,there,owner⟩
    · exact kept.hands k other user opened
  · rw [turn] at opened
    rw [pairings,now]
    split at opened
    · cases opened
    · exact kept.marks k v other opened
  · rw [turn] at opened
    simp only [deciding]
    split at opened
    · rename_i here
      subst here
      cases opened
      refine ⟨persons.mpr (.inr rfl),undecided,fun m done => ?_⟩
      rcases finishing m code done with ⟨here,-⟩ | ⟨-,before⟩
      · exact here
      · exact absurd before (unfinished m)
    · obtain ⟨person,free,single⟩ := kept.finishes k other user opened
      have done : (w.calls k).Finishes other := by rw [opened]; rfl
      refine ⟨persons.mpr (.inl person),free,fun m also => ?_⟩
      rcases finishing m other also with ⟨-,rfl⟩ | ⟨-,before⟩
      · exact absurd done (unfinished k)
      · exact single m before
  · simp only [deciding] at decided ⊢
    rw [pairings]
    exact kept.decides k other decided
  · rw [turn] at approved
    rw [pairings]
    split at approved
    · cases approved
    · obtain ⟨old,before,person⟩ := kept.approves k other approved
      exact ⟨old,before,persons.mpr (.inl person)⟩
  · rcases persons.mp held with before | same
    · obtain ⟨k,other,old,entry,user',call⟩ := kept.authorized user before
      refine ⟨k,other,old,pairings ▸ entry,user',?_⟩
      rw [turn]
      split
      · rename_i here
        rw [here,was] at call
        rcases call with approved | finishes
        · cases approved
        · exact finishes.elim
      · exact call
    · refine ⟨n,code,found,pairings ▸ there,owner.trans same,.inr ?_⟩
      rw [turn,if_pos rfl]
      rfl
  · rw [pairings,now]
    exact kept.single one two first second

theorem Kept.advance (kept : Kept w) {fails : Bool} {num : Nat} {fresh : String}
    (undisturbed : Undisturbed w (.go n fails num fresh)) (enabled : w.advance n fails num fresh = some next) : Kept next := by
  have quiet : ∀ code : String, ¬False ∧ ¬False := fun _ => ⟨False.elim,False.elim⟩
  change (w.calls n).Undisturbed w fails at undisturbed
  cases advance_effect enabled with
  | moves repo now calls plain undecided unfinished checks hands marks =>
    refine kept.moves repo now calls plain (fun code => ⟨fun done => ?_,undecided code⟩) checks hands marks
    cases call : w.calls n with
    | finishing other row =>
      rw [call] at undisturbed done
      obtain ⟨found,there,-⟩ := kept.hands n other row (.inr call)
      cases (show other = code from done)
      rcases unfinished code (by rw [call]; rfl) with failed | absent
      · rw [show fails = false from undisturbed] at failed
        cases failed
      · rw [there] at absent
        cases absent
    | _ =>
      rw [call] at done
      exact done
  | expires was made repo now calls =>
    have mid := kept.settles (settles_update made nofun)
    refine mid.moves repo now calls quiet (fun _ => ?_) nofun nofun nofun
    change ¬(w.calls n).Finishes _ ∧ ¬(w.calls n).Decides _
    rw [was]
    exact ⟨False.elim,False.elim⟩
  | marks holds was made repo now calls =>
    have mid := kept.settles (settles_update made nofun)
    refine mid.moves repo now calls quiet (fun _ => ?_) nofun nofun nofun
    change ¬(w.calls n).Finishes _ ∧ ¬(w.calls n).Decides _
    rw [was]
    exact ⟨False.elim,False.elim⟩
  | @creates row stored _ holds was made repo now calls =>
    rw [was] at undisturbed
    obtain ⟨users,absent,lookups⟩ := created made
    have mid : Kept (w.stores stored) := kept.creates absent users rfl rfl lookups (undisturbed holds absent)
    refine mid.moves repo now calls quiet (fun _ => ?_) nofun nofun nofun
    change ¬(w.calls n).Finishes _ ∧ ¬(w.calls n).Decides _
    rw [was]
    exact ⟨False.elim,False.elim⟩
  | authorizes was made repo now calls =>
    rw [was] at undisturbed
    obtain ⟨pairings,users,unknown⟩ := userCreated (attempt_ok made).2
    exact kept.authorizes was (repo ▸ pairings) (repo ▸ users) unknown now calls (undisturbed _ made)
  | @approves code row stored _ was made repo now calls =>
    have mid := kept.settles (settles_update made nofun)
    have here : (w.stores stored).calls n = .finishing code row := was
    obtain ⟨person,undecided,single⟩ := mid.finishes n code row here
    obtain ⟨found,there,owner⟩ := mid.hands n code row (.inr here)
    obtain ⟨-,old,-,lookups⟩ := updated made
    refine mid.decide repo now calls ⟨_,(lookups code).trans (if_pos rfl),nofun⟩ (fun m other => ⟨fun done => other (single m done),
      undecided m⟩) (fun other => ?_) fun _ => ⟨found,there,owner ▸ person⟩
    rw [here]
    exact ⟨False.elim,fun same => ⟨Eq.symm same,rfl⟩⟩
  | @rejects code stored _ holds was made repo now calls =>
    rw [was] at undisturbed
    obtain ⟨waiting,unfinished⟩ := undisturbed holds
    have mid := kept.settles (settles_update made nofun)
    obtain ⟨-,old,-,lookups⟩ := updated made
    refine mid.decide repo now calls ⟨_,(lookups code).trans (if_pos rfl),nofun⟩ (fun m _ => ⟨unfinished m,fun decided => ?_⟩)
      (fun other => ?_) nofun
    · obtain ⟨⟨found,there,status⟩,-⟩ := kept.decides m code decided
      exact status (waiting found there)
    · change ¬(w.calls n).Decides other ∧ ((w.calls n).Finishes other → _)
      rw [was]
      exact ⟨False.elim,False.elim⟩

theorem Kept.step (kept : Kept w) {action : Action} (undisturbed : Undisturbed w action) (enabled : step w action = some next) :
    Kept next := by
  have quiet : ∀ code : String, ¬False ∧ ¬False := fun _ => ⟨False.elim,False.elim⟩
  cases action with
  | request n requester =>
    simp only [Pairing.step] at enabled
    split at enabled
    · rename_i free
      cases enabled
      refine kept.moves rfl rfl (rfl : _ = Function.update w.calls n (.listing requester)) quiet (fun _ => ?_) nofun nofun nofun
      rw [free]
      exact ⟨False.elim,False.elim⟩
    · cases enabled
  | decide n verdict code =>
    simp only [Pairing.step] at enabled
    split at enabled
    · rename_i free
      cases enabled
      refine kept.moves rfl rfl (rfl : _ = Function.update w.calls n (.reading verdict code)) quiet (fun _ => ?_) nofun nofun nofun
      rw [free]
      exact ⟨False.elim,False.elim⟩
    · cases enabled
  | go n fails num fresh => exact kept.advance undisturbed enabled
  | cleanup now =>
    simp only [Pairing.step] at enabled
    split at enabled
    · cases enabled
      exact kept.settles (settles_cleanup w now)
    · cases enabled
  | tick ms =>
    cases enabled
    exact kept.settles (settles_tick w ms)

end Steps

section Histories
variable {w next : World} {n : Nat}

-- An approve that has created the user: it has returned, or is about to.
def Approved (w : World) (n : Nat) (code : String) : Prop :=
  w.calls n = .over .approve code (.ok ()) ∨ (w.calls n).Finishes code

theorem Approved.step (kept : Kept w) {code : String} (approved : Approved w n code) {action : Action}
    (undisturbed : Undisturbed w action) (enabled : step w action = some next) : Approved next n code := by
  have others : ∀ {k call}, next.calls = Function.update w.calls k call → k ≠ n → Approved next n code := by
    intro k call calls other
    unfold Approved
    rw [updated_call calls,if_neg other.symm]
    exact approved
  cases action with
  | request k requester =>
    simp only [Pairing.step] at enabled
    split at enabled
    · rename_i free
      cases enabled
      refine others rfl ?_
      rintro rfl
      unfold Approved at approved
      rw [free] at approved
      rcases approved with done | finishes
      · cases done
      · exact finishes.elim
    · cases enabled
  | decide k verdict other =>
    simp only [Pairing.step] at enabled
    split at enabled
    · rename_i free
      cases enabled
      refine others rfl ?_
      rintro rfl
      unfold Approved at approved
      rw [free] at approved
      rcases approved with done | finishes
      · cases done
      · exact finishes.elim
    · cases enabled
  | go k fails num fresh =>
    by_cases here : k = n
    · subst here
      change (w.calls k).Undisturbed w fails at undisturbed
      rcases approved with done | finishes
      · change w.advance k fails num fresh = some next at enabled
        unfold World.advance at enabled
        rw [done] at enabled
        cases enabled
      · cases call : w.calls k with
        | finishing other row =>
          rw [call] at undisturbed finishes
          cases (show other = code from finishes)
          obtain ⟨found,there,-⟩ := kept.hands k code row (.inr call)
          change w.advance k fails num fresh = some next at enabled
          unfold World.advance at enabled
          simp only [call,show fails = false from undisturbed,attempt,Repository.updatePairingStatus,there] at enabled
          cases enabled
          left
          exact Function.update_self ..
        | _ =>
          rw [call] at finishes
          exact finishes.elim
    · cases advance_effect enabled with
      | moves repo now calls => exact others calls here
      | expires was made repo now calls => exact others calls here
      | marks holds was made repo now calls => exact others calls here
      | creates holds was made repo now calls => exact others calls here
      | authorizes was made repo now calls => exact others calls here
      | approves was made repo now calls => exact others calls here
      | rejects holds was made repo now calls => exact others calls here
  | cleanup now =>
    simp only [Pairing.step] at enabled
    split at enabled
    · cases enabled
      exact approved
    · cases enabled
  | tick ms =>
    cases enabled
    exact approved

end Histories

section Runs
variable {now : Int} {actions : List Action} {final : World}

theorem kept_start (now : Int) : Kept (start now) := by
  refine ⟨fun n v code row => nofun,fun n code row there => ?_,fun n v code => nofun,fun n code row => nofun,
    fun n code => False.elim,fun n code => nofun,fun user held => ?_,fun one two first second found => ?_⟩
  · rcases there with there | there
    · cases there
    · cases there
  · obtain ⟨row,member,-⟩ := held
    exact absurd member List.not_mem_nil
  · cases found

theorem kept_run (path : RunsWhere step Undisturbed (start now) actions final) : Kept final :=
  path.invariant (kept_start now) fun _ _ _ kept undisturbed enabled => kept.step undisturbed enabled

-- The state before a step of the run, the state after it, and how the run goes on.
theorem around (path : RunsWhere step Undisturbed (start now) actions final) {earlier : List Action} {action : Action}
    {between after : World} (inside : earlier ++ [action] <+: actions) (prior : Runs step (start now) earlier between)
    (enabled : step between action = some after) :
    Kept between ∧ Undisturbed between action ∧ Kept after ∧ ∃ rest, RunsWhere step Undisturbed after rest final := by
  obtain ⟨early,rest,-,onward⟩ := path.later inside (prior.snoc enabled)
  exact ⟨kept_run (path.later ((List.prefix_append _ _).trans inside) prior).1,path.at_step inside prior,kept_run early,
    rest,onward⟩

section Examples

end Examples

end Runs

end AlineaCopilot.Pairing
