import AlineaCopilot.JwtService
open AlineaCopilot.KeyedMaps AlineaCopilot.InterleavedRequests AlineaCopilot.TransitionRuns

namespace AlineaCopilot.JwtService

section Watched
variable {Token : Type} [DecidableEq Token] (crypto : Crypto Token)

-- What `verify` would say now, were it not for the blacklist.
def accepts (service : JwtService) (token : Token) : Bool :=
  (decode crypto {} service.now service.secret token).isOk

-- The calls with lists kept for the proofs: the secrets there have been, the
-- tokens that were signed, the calls that blacklist a token which was valid as
-- they came in, and the tokens that are revoked.
structure Watched (Token : Type) where
  system : System JwtService (Progress Token)
  secrets : List String
  signed : List Token
  revoking : List (Nat × Token)
  revoked : List Token

-- A rotation revokes what was signed before it returns.
def note (w : Watched Token) (action : Nat × Input Token) (next : System JwtService (Progress Token)) : Watched Token :=
  match w.system.threads action.1,action.2 with
  | .idle,.arrive (.blacklistToken token) =>
    if accepts crypto w.system.store token then { w with system := next, revoking := (action.1,token) :: w.revoking }
    else { w with system := next }
  | .encoding claims,.access _ => { w with system := next, signed := crypto.encode w.system.store.secret claims :: w.signed }
  | .inserting token _,.access _ =>
    if (action.1,token) ∈ w.revoking then { w with system := next, revoked := token :: w.revoked } else { w with system := next }
  | .rotating,.access newSecret => { w with system := next, secrets := newSecret :: w.secrets }
  | .unlocking _,.access _ => { w with system := next, revoked := w.signed ++ w.revoked }
  | _,_ => { w with system := next }

-- Sixty-four random bytes are never drawn twice.
def repeated (w : Watched Token) (action : Nat × Input Token) : Bool :=
  match w.system.threads action.1,action.2 with
  | .rotating,.access newSecret => decide (newSecret ∈ w.secrets)
  | _,_ => false

def watch (w : Watched Token) (action : Nat × Input Token) : Option (Watched Token) :=
  if repeated w action then none else (step (advance crypto) w.system action).map (note crypto w action)

def start (secret : String) (now : Nat) : Watched Token := ⟨⟨.new secret now,fun _ => .idle⟩,[secret],[],[],[]⟩

-- A clean-up removes no entry of a revoked token that `decode` still accepts.
def Timely (w : Watched Token) (action : Nat × Input Token) : Prop := ∀ now newSecret,
  w.system.threads action.1 = .retaining now → action.2 = .access newSecret → ∀ token ∈ w.revoked,
    accepts crypto w.system.store token = true →
      ∀ exp, w.system.store.blacklist.lookup (crypto.tokenHash token) = some exp → now < exp

def Barred (service : JwtService) (token : Token) : Prop :=
  (∃ exp, service.blacklist.lookup (crypto.tokenHash token) = some exp) ∨ accepts crypto service token = false

-- The call has read what it needs of the secret, and has the entry to make.
def onward (token : Token) : Progress Token → Prop
  | .defaulting other | .inserting other _ => other = token
  | _ => False

def inside : Progress Token → Prop
  | .clearing _ | .unlocking _ => True
  | _ => False

-- The token was signed under a secret the service has had.
def Opened (w : Watched Token) (token : Token) : Prop :=
  ∃ secret ∈ w.secrets, ∃ claims, crypto.claims secret token = .ok claims

structure Kept (w : Watched Token) : Prop where
  current : w.system.store.secret ∈ w.secrets
  signed : ∀ token ∈ w.signed, Opened crypto w token
  revoking : ∀ n token, (n,token) ∈ w.revoking → Opened crypto w token
  revoked : ∀ token ∈ w.revoked, Opened crypto w token
  barred : ∀ token ∈ w.revoked, Barred crypto w.system.store token
  lock : ∀ n, inside (w.system.threads n) → w.system.store.locked = true ∧ ∀ m, inside (w.system.threads m) → m = n
  -- While a rotation holds the lock, no token signed before it opens.
  signed_dead : w.system.store.locked = true → ∀ token ∈ w.signed, accepts crypto w.system.store token = false
  revoked_dead : w.system.store.locked = true → ∀ token ∈ w.revoked, accepts crypto w.system.store token = false
  revoking_dead : w.system.store.locked = true → ∀ n token, (n,token) ∈ w.revoking → onward token (w.system.threads n) →
    accepts crypto w.system.store token = false

end Watched

section Decoding
variable {Token : Type} {crypto : Crypto Token} {service : JwtService} {token : Token}

theorem accepts_iff : accepts crypto service token = true ↔ ∃ claims, crypto.claims service.secret token = .ok claims ∧
    service.now ≤ claims.exp + 60 ∧ claims.iss = jwtIssuer ∧ claims.aud = jwtAudience := by
  unfold accepts decode
  cases opened : crypto.claims service.secret token with
  | error text => simp [Except.isOk,Except.toBool]
  | ok claims =>
    simp only [true_and,Except.ok.injEq,exists_eq_left']
    split
    · rename_i late
      simp only [Except.isOk,Except.toBool,Bool.false_eq_true,false_iff]
      omega
    · rename_i early
      have there : service.now ≤ claims.exp + 60 := by omega
      split
      · rename_i issuer
        simp [Except.isOk,Except.toBool,issuer]
      · rename_i issuer
        split
        · rename_i audience
          simp [Except.isOk,Except.toBool,audience]
        · rename_i audience
          simp only [ne_eq,Decidable.not_not] at issuer audience
          simp [Except.isOk,Except.toBool,there,issuer,audience]

-- A token that is not accepted is not accepted later, under the same secret.
theorem accepts_later {later : JwtService} (same : later.secret = service.secret) (time : service.now ≤ later.now)
    (dead : accepts crypto service token = false) : accepts crypto later token = false := by
  rw [Bool.eq_false_iff] at dead ⊢
  intro alive
  obtain ⟨claims,opened,before,issuer,audience⟩ := accepts_iff.mp alive
  rw [same] at opened
  exact dead (accepts_iff.mpr ⟨claims,opened,by omega,issuer,audience⟩)

theorem lookup_retain (now : Nat) (blacklist : KeyedMap String Nat) (listed : blacklist.lookup k = some exp) (kept : now < exp) :
    (retain now blacklist).lookup k = some exp := by
  rw [← mem_entries_iff] at listed ⊢
  exact List.mem_filter.mpr ⟨listed,by simpa using kept⟩

end Decoding

section Frames
variable {Token : Type} {crypto : Crypto Token} {w : Watched Token} {n : Nat} {token : Token} {store : JwtService}
  {later : Progress Token}

-- The lock is held by one rotation at most, and a step of another call that does
-- not take it leaves it so.
theorem lock_kept (lock : ∀ m, inside (w.system.threads m) → w.system.store.locked = true ∧
      ∀ o, inside (w.system.threads o) → o = m)
    (locked : store.locked = w.system.store.locked) (still : inside later → inside (w.system.threads n)) :
    ∀ m, inside ((w.system.goes n store later).threads m) → (w.system.goes n store later).store.locked = true ∧
      ∀ o, inside ((w.system.goes n store later).threads o) → o = m := by
  have before : ∀ m, inside ((w.system.goes n store later).threads m) → inside (w.system.threads m) := by
    intro m within
    by_cases same : m = n
    · subst same
      rw [goes_same] at within
      exact still within
    · rwa [goes_other same] at within
  intro m within
  rw [goes_store,locked]
  exact ⟨(lock m (before m within)).1,fun o there => (lock m (before m within)).2 o (before o there)⟩

theorem onward_goes (there : onward token ((w.system.goes n store later).threads m)) :
    (m = n ∧ onward token later) ∨ onward token (w.system.threads m) := by
  by_cases same : m = n
  · subst same
    rw [goes_same] at there
    exact .inl ⟨rfl,there⟩
  · rw [goes_other same] at there
    exact .inr there

theorem barred_same (secret : store.secret = w.system.store.secret) (time : w.system.store.now ≤ store.now)
    (blacklist : store.blacklist = w.system.store.blacklist) (barred : Barred crypto w.system.store token) :
    Barred crypto store token := by
  rcases barred with ⟨exp,listed⟩ | dead
  · exact .inl ⟨exp,by rw [blacklist]; exact listed⟩
  · exact .inr (accepts_later secret time dead)

end Frames

section Steps
variable {Token : Type} {crypto : Crypto Token} {w : Watched Token} {n : Nat} {token : Token} {store : JwtService}
  {later : Progress Token}

-- A step that keeps the secret, the lock and the entries of revoked tokens, and
-- adds to no list.
theorem Kept.quiet (kept : Kept crypto w) (secret : store.secret = w.system.store.secret)
    (locked : store.locked = w.system.store.locked) (time : w.system.store.now ≤ store.now)
    (listed : ∀ token ∈ w.revoked, Barred crypto w.system.store token → Barred crypto store token)
    (still : inside later → inside (w.system.threads n))
    (already : w.system.store.locked = true → ∀ token, onward token later → onward token (w.system.threads n)) :
    Kept crypto { w with system := w.system.goes n store later } := by
  have dead : ∀ token, accepts crypto w.system.store token = false → accepts crypto store token = false :=
    fun token before => accepts_later secret time before
  refine ⟨?_,kept.signed,kept.revoking,kept.revoked,fun token member => listed token member (kept.barred token member),
    lock_kept kept.lock locked still,?_,?_,?_⟩
  · change store.secret ∈ w.secrets
    rw [secret]
    exact kept.current
  · intro holds token member
    exact dead token (kept.signed_dead (locked ▸ holds) token member)
  · intro holds token member
    exact dead token (kept.revoked_dead (locked ▸ holds) token member)
  · intro holds m token member there
    have held : w.system.store.locked = true := locked ▸ holds
    refine dead token (kept.revoking_dead held m token member ?_)
    rcases onward_goes there with ⟨rfl,here⟩ | before
    · exact already held token here
    · exact before

-- A step that only reads.
theorem Kept.reads (kept : Kept crypto w) (n : Nat) (later : Progress Token) (still : inside later → inside (w.system.threads n))
    (already : w.system.store.locked = true → ∀ token, onward token later → onward token (w.system.threads n)) :
    Kept crypto { w with system := w.system.goes n w.system.store later } :=
  kept.quiet rfl rfl (Nat.le_refl _) (fun _ _ barred => barred) still already

theorem Kept.ticks (kept : Kept crypto w) (seconds : Nat) : Kept crypto { w with
    system := w.system.goes n ({ w.system.store with now := w.system.store.now + seconds }) (w.system.threads n) } :=
  kept.quiet rfl rfl (Nat.le_add_right ..) (fun _ _ barred => barred_same rfl (Nat.le_add_right ..) rfl barred) id
    fun _ _ there => there

theorem Kept.revokes (kept : Kept crypto w) (valid : accepts crypto w.system.store token = true) :
    Kept crypto { w with system := w.system.goes n w.system.store (.extracting token), revoking := (n,token) :: w.revoking } := by
  have before := kept.reads n (.extracting token) False.elim fun _ _ => False.elim
  obtain ⟨claims,opened,_⟩ := accepts_iff.mp valid
  refine ⟨before.current,before.signed,?_,before.revoked,before.barred,before.lock,before.signed_dead,before.revoked_dead,?_⟩
  · intro m other member
    rcases List.mem_cons.mp member with same | old
    · cases same
      exact ⟨_,kept.current,claims,opened⟩
    · exact before.revoking m other old
  · intro holds m other member there
    rcases List.mem_cons.mp member with same | old
    · cases same
      rw [goes_same] at there
      exact there.elim
    · exact before.revoking_dead holds m other old there

theorem Kept.signs (kept : Kept crypto w) (opens : ∀ secret claims, crypto.claims secret (crypto.encode secret claims) = .ok claims)
    (free : w.system.store.locked = false) (claims : TokenPayload) :
    Kept crypto { w with
      system := w.system.goes n w.system.store (.returned (.signed (crypto.encode w.system.store.secret claims)))
      signed := crypto.encode w.system.store.secret claims :: w.signed } := by
  have before := kept.reads n (.returned (.signed (crypto.encode w.system.store.secret claims))) False.elim
    fun _ _ => False.elim
  refine ⟨before.current,?_,before.revoking,before.revoked,before.barred,before.lock,?_,before.revoked_dead,before.revoking_dead⟩
  · intro other member
    rcases List.mem_cons.mp member with rfl | old
    · exact ⟨_,kept.current,claims,opens _ _⟩
    · exact before.signed other old
  · intro holds
    cases holds.symm.trans free

theorem Kept.inserts (kept : Kept crypto w) (token : Token) (exp : Nat) :
    Kept crypto { w with system := w.system.goes n ({ w.system.store with
      blacklist := w.system.store.blacklist.insert (crypto.tokenHash token) exp }) (.returned .blacklisted) } := by
  refine kept.quiet rfl rfl (Nat.le_refl _) (fun other _ barred => ?_) False.elim fun _ _ => False.elim
  rcases barred with ⟨old,listed⟩ | dead
  · refine .inl ?_
    rw [lookup_insert_eq]
    split
    · exact ⟨exp,rfl⟩
    · exact ⟨old,listed⟩
  · exact .inr dead

-- The token whose entry is made is revoked from now on.
theorem Kept.revoke (kept : Kept crypto w) (at_entry : w.system.threads n = .inserting token exp) (valid : (n,token) ∈ w.revoking) :
    Kept crypto { w with
      system := w.system.goes n ({ w.system.store with
        blacklist := w.system.store.blacklist.insert (crypto.tokenHash token) exp }) (.returned .blacklisted)
      revoked := token :: w.revoked } := by
  have before := kept.inserts (n := n) token exp
  have listed : (w.system.store.blacklist.insert (crypto.tokenHash token) exp).lookup (crypto.tokenHash token) = some exp :=
    AList.lookup_insert _
  refine ⟨before.current,before.signed,before.revoking,?_,?_,before.lock,before.signed_dead,?_,before.revoking_dead⟩
  · intro other member
    rcases List.mem_cons.mp member with rfl | old
    · exact before.revoking n other valid
    · exact before.revoked other old
  · intro other member
    rcases List.mem_cons.mp member with rfl | old
    · exact .inl ⟨exp,listed⟩
    · exact before.barred other old
  · intro holds other member
    rcases List.mem_cons.mp member with rfl | old
    · exact kept.revoking_dead holds n other valid (by rw [at_entry]; exact rfl)
    · exact before.revoked_dead holds other old

-- Under a secret there never was, no token opens that opened before.
theorem Kept.rotates (kept : Kept crypto w)
    (single : ∀ token one two first second, crypto.claims one token = .ok first → crypto.claims two token = .ok second → one = two)
    (free : w.system.store.locked = false) (fresh : newSecret ∉ w.secrets) :
    Kept crypto { w with
      system := w.system.goes n ({ w.system.store with secret := newSecret, locked := true }) (.clearing newSecret)
      secrets := newSecret :: w.secrets } := by
  have dead : ∀ token, Opened crypto w token →
      accepts crypto { w.system.store with secret := newSecret, locked := true } token = false := by
    rintro token ⟨secret,known,claims,opened⟩
    rw [Bool.eq_false_iff]
    intro alive
    obtain ⟨other,reopened,_⟩ := accepts_iff.mp alive
    have same : secret = newSecret := single token secret newSecret claims other opened reopened
    exact fresh (same ▸ known)
  have opened : ∀ token, Opened crypto w token → ∃ secret ∈ newSecret :: w.secrets, ∃ claims, crypto.claims secret token = .ok claims :=
    fun token ⟨secret,known,rest⟩ => ⟨secret,List.mem_cons_of_mem _ known,rest⟩
  refine ⟨List.mem_cons_self,fun token member => opened token (kept.signed token member),
    fun m token member => opened token (kept.revoking m token member),fun token member => opened token (kept.revoked token member),
    fun token member => .inr (dead token (kept.revoked token member)),?_,fun _ token member => dead token (kept.signed token member),
    fun _ token member => dead token (kept.revoked token member),fun _ m token member _ => dead token (kept.revoking m token member)⟩
  intro m within
  refine ⟨rfl,fun o there => ?_⟩
  -- Nobody else is inside: the lock was free.
  have alone : ∀ o, inside ((w.system.goes n ({ w.system.store with secret := newSecret, locked := true })
      (.clearing newSecret)).threads o) → o = n := by
    intro o there
    by_contra other
    rw [goes_other other] at there
    cases free.symm.trans (kept.lock o there).1
  rw [alone o there,alone m within]

theorem Kept.clears (kept : Kept crypto w) (holding : w.system.threads n = .clearing newSecret) :
    Kept crypto { w with
      system := w.system.goes n ({ w.system.store with blacklist := ∅ }) (.unlocking newSecret) } := by
  have within : inside (w.system.threads n) := by rw [holding]; exact True.intro
  refine kept.quiet rfl rfl (Nat.le_refl _) (fun token member _ => .inr ?_) (fun _ => within) fun _ _ => False.elim
  exact kept.revoked_dead (kept.lock n within).1 token member

theorem Kept.unlocks (kept : Kept crypto w) (holding : w.system.threads n = .unlocking newSecret) :
    Kept crypto { w with
      system := w.system.goes n ({ w.system.store with locked := false }) (.returned (.rotated newSecret))
      revoked := w.signed ++ w.revoked } := by
  have within : inside (w.system.threads n) := by rw [holding]; exact True.intro
  have holds := (kept.lock n within).1
  refine ⟨kept.current,kept.signed,kept.revoking,?_,?_,?_,fun impossible => Bool.noConfusion impossible,
    fun impossible => Bool.noConfusion impossible,fun impossible => Bool.noConfusion impossible⟩
  · intro token member
    rcases List.mem_append.mp member with new | old
    · exact kept.signed token new
    · exact kept.revoked token old
  · intro token member
    rcases List.mem_append.mp member with new | old
    · exact .inr (kept.signed_dead holds token new)
    · exact .inr (kept.revoked_dead holds token old)
  · intro m there
    by_cases same : m = n
    · subst same
      rw [goes_same] at there
      exact there.elim
    · rw [goes_other same] at there
      exact absurd ((kept.lock n within).2 m there) same

theorem Kept.retains (kept : Kept crypto w)
    (timely : ∀ token ∈ w.revoked, accepts crypto w.system.store token = true →
      ∀ exp, w.system.store.blacklist.lookup (crypto.tokenHash token) = some exp → now < exp) :
    Kept crypto { w with system := w.system.goes n ({ w.system.store with
      blacklist := retain now w.system.store.blacklist }) (.returned .cleaned) } := by
  refine kept.quiet rfl rfl (Nat.le_refl _) (fun token member barred => ?_) False.elim fun _ _ => False.elim
  rcases barred with ⟨exp,listed⟩ | dead
  · cases alive : accepts crypto w.system.store token with
    | false => exact .inr alive
    | true => exact .inl ⟨exp,lookup_retain now _ listed (timely token member alive exp listed)⟩
  · exact .inr dead

theorem kept_start (crypto : Crypto Token) (secret : String) (now : Nat) : Kept crypto (start secret now) := by
  refine ⟨List.mem_cons_self,?_,?_,?_,?_,fun _ => False.elim,?_,?_,?_⟩
  · exact fun _ member => absurd member List.not_mem_nil
  · exact fun _ _ member => absurd member List.not_mem_nil
  · exact fun _ member => absurd member List.not_mem_nil
  · exact fun _ member => absurd member List.not_mem_nil
  · exact fun _ _ member => absurd member List.not_mem_nil
  · exact fun _ _ member => absurd member List.not_mem_nil
  · exact fun _ _ _ member => absurd member List.not_mem_nil

-- The secret stays, or a rotation has just taken the lock.
theorem advance_secret {service store : JwtService} {progress later : Progress Token}
    (moved : advance crypto service progress input = some (store,later)) :
    (store.secret = service.secret ∧ service.now ≤ store.now) ∨ store.locked = true := by
  cases input with
  | tick seconds =>
    cases moved
    exact .inl ⟨rfl,Nat.le_add_right ..⟩
  | arrive request =>
    cases progress with
    | idle =>
      cases moved
      exact .inl ⟨rfl,Nat.le_refl _⟩
    | _ => cases moved
  | access newSecret =>
    cases progress with
    | idle | returned => cases moved
    | signing | defaulting | inserting | clearing | unlocking | cleaning | retaining =>
      cases moved
      exact .inl ⟨rfl,Nat.le_refl _⟩
    | encoding | decoding =>
      simp only [advance,serve] at moved
      split at moved
      · cases moved
      · cases moved
        exact .inl ⟨rfl,Nat.le_refl _⟩
    | checking =>
      simp only [advance,serve] at moved
      split at moved
      · cases moved
        exact .inl ⟨rfl,Nat.le_refl _⟩
      · cases moved
        exact .inl ⟨rfl,Nat.le_refl _⟩
    | extracting =>
      simp only [advance,serve] at moved
      split at moved
      · cases moved
      · split at moved
        · cases moved
          exact .inl ⟨rfl,Nat.le_refl _⟩
        · cases moved
          exact .inl ⟨rfl,Nat.le_refl _⟩
    | rotating =>
      simp only [advance,serve] at moved
      split at moved
      · cases moved
      · cases moved
        exact .inr rfl

end Steps

section Runs
variable {Token : Type} [DecidableEq Token] {crypto : Crypto Token} {w next : Watched Token} {n : Nat} {token : Token}

theorem watch_some (taken : watch crypto w (n,input) = some next) : repeated w (n,input) = false ∧
    ∃ store later, advance crypto w.system.store (w.system.threads n) input = some (store,later) ∧
      next = note crypto w (n,input) (w.system.goes n store later) := by
  unfold watch at taken
  split at taken
  · cases taken
  · rename_i fresh
    obtain ⟨system,stepped,rfl⟩ := Option.map_eq_some_iff.mp taken
    obtain ⟨store,later,moved,rfl⟩ := step_some stepped
    exact ⟨by simpa using fresh,store,later,moved,rfl⟩

theorem Kept.step (opens : ∀ secret claims, crypto.claims secret (crypto.encode secret claims) = .ok claims)
    (single : ∀ token one two first second, crypto.claims one token = .ok first → crypto.claims two token = .ok second → one = two)
    (kept : Kept crypto w) (timely : Timely crypto w action) (taken : watch crypto w action = some next) : Kept crypto next := by
  obtain ⟨n,input⟩ := action
  obtain ⟨fresh,store,later,moved,rfl⟩ := watch_some taken
  cases input with
  | tick seconds =>
    cases moved
    cases standing : w.system.threads n with
    | _ => simpa only [note,standing] using kept.ticks (n := n) seconds
  | arrive request =>
    cases standing : w.system.threads n with
    | idle =>
      rw [standing] at moved
      cases moved
      cases request with
      | blacklistToken token =>
        simp only [note,standing]
        split
        · rename_i valid
          exact kept.revokes valid
        · exact kept.reads n _ False.elim fun _ _ => False.elim
      | sign | verify | rotateSecret | cleanupBlacklist =>
        simpa only [note,standing] using kept.reads n _ False.elim fun _ _ => False.elim
    | _ => rw [standing] at moved; cases moved
  | access newSecret =>
    cases standing : w.system.threads n with
    | idle | returned => rw [standing] at moved; cases moved
    | signing userId username =>
      rw [standing] at moved
      cases moved
      simpa only [note,standing] using kept.reads n _ False.elim fun _ _ => False.elim
    | encoding claims =>
      rw [standing] at moved
      simp only [advance,serve] at moved
      split at moved
      · cases moved
      · rename_i free
        cases moved
        simpa only [note,standing] using kept.signs opens (by simpa using free) claims
    | checking token =>
      rw [standing] at moved
      simp only [advance,serve] at moved
      split at moved
      · cases moved
        simpa only [note,standing] using kept.reads n _ False.elim fun _ _ => False.elim
      · cases moved
        simpa only [note,standing] using kept.reads n _ False.elim fun _ _ => False.elim
    | decoding token =>
      rw [standing] at moved
      simp only [advance,serve] at moved
      split at moved
      · cases moved
      · cases moved
        simpa only [note,standing] using kept.reads n _ False.elim fun _ _ => False.elim
    | extracting token =>
      rw [standing] at moved
      simp only [advance,serve] at moved
      split at moved
      · cases moved
      · rename_i free
        have nobody : ∀ token, w.system.store.locked = true → onward token later → onward token (w.system.threads n) :=
          fun _ holds => absurd holds free
        split at moved
        · cases moved
          simpa only [note,standing] using kept.reads n _ False.elim fun holds token => nobody token holds
        · cases moved
          simpa only [note,standing] using kept.reads n _ False.elim fun holds token => nobody token holds
    | defaulting token =>
      rw [standing] at moved
      cases moved
      simpa only [note,standing] using kept.reads n _ False.elim fun _ other there => by rw [standing]; exact there
    | inserting token exp =>
      rw [standing] at moved
      cases moved
      simp only [note,standing]
      split
      · rename_i valid
        exact kept.revoke standing valid
      · exact kept.inserts token exp
    | rotating =>
      rw [standing] at moved
      simp only [advance,serve] at moved
      split at moved
      · cases moved
      · rename_i free
        cases moved
        have never : newSecret ∉ w.secrets := by simpa [repeated,standing] using fresh
        simpa only [note,standing] using kept.rotates single (by simpa using free) never
    | clearing kept_secret =>
      rw [standing] at moved
      cases moved
      simpa only [note,standing] using kept.clears standing
    | unlocking kept_secret =>
      rw [standing] at moved
      cases moved
      simpa only [note,standing] using kept.unlocks standing
    | cleaning =>
      rw [standing] at moved
      cases moved
      simpa only [note,standing] using kept.reads n _ False.elim fun _ _ => False.elim
    | retaining now =>
      rw [standing] at moved
      cases moved
      simpa only [note,standing] using kept.retains fun token member alive exp listed =>
        timely now newSecret standing rfl token member alive exp listed

theorem note_revoked {system : System JwtService (Progress Token)} (member : token ∈ w.revoked) :
    token ∈ (note crypto w action system).revoked := by
  unfold note
  split
  · split
    · exact member
    · exact member
  · exact member
  · split
    · exact List.mem_cons_of_mem _ member
    · exact member
  · exact member
  · exact List.mem_append_right _ member
  · exact member

theorem note_system {system : System JwtService (Progress Token)} : (note crypto w action system).system = system := by
  unfold note
  split
  · split
    · rfl
    · rfl
  · rfl
  · split
    · rfl
    · rfl
  · rfl
  · rfl
  · rfl

-- A verification that began after its token was revoked.
structure Late (crypto : Crypto Token) (n : Nat) (token : Token) (w : Watched Token) : Prop where
  revoked : token ∈ w.revoked
  stands : w.system.threads n = .checking token ∨
    (w.system.threads n = .decoding token ∧ accepts crypto w.system.store token = false) ∨
    ∃ error, w.system.threads n = .returned (.refused error)

theorem Late.step (late : Late crypto n token w) (kept : Kept crypto w) (after : Kept crypto next)
    (taken : watch crypto w action = some next) : Late crypto n token next := by
  obtain ⟨m,input⟩ := action
  obtain ⟨_,store,later,moved,rfl⟩ := watch_some taken
  have revoked : token ∈ (note crypto w (m,input) (w.system.goes m store later)).revoked := note_revoked late.revoked
  refine ⟨revoked,?_⟩
  have dead : accepts crypto w.system.store token = false → accepts crypto store token = false := by
    intro before
    rcases advance_secret moved with ⟨same,time⟩ | locked
    · exact accepts_later same time before
    · have holds := after.revoked_dead (by rw [note_system]; exact locked) token revoked
      rwa [note_system] at holds
  rw [note_system]
  by_cases same : n = m
  · subst same
    rw [goes_same,goes_store]
    rcases late.stands with checking | ⟨decoding,refused⟩ | ⟨error,returned⟩
    · rw [checking] at moved
      cases input with
      | tick seconds =>
        cases moved
        exact .inl rfl
      | arrive request => cases moved
      | access newSecret =>
        simp only [advance,serve] at moved
        split at moved
        · cases moved
          exact .inr (.inr ⟨_,rfl⟩)
        · rename_i unlisted
          cases moved
          refine .inr (.inl ⟨rfl,?_⟩)
          rcases kept.barred token late.revoked with ⟨exp,listed⟩ | closed
          · exact absurd (by rw [listed]; rfl) unlisted
          · exact closed
    · rw [decoding] at moved
      cases input with
      | tick seconds =>
        have here := dead refused
        cases moved
        exact .inr (.inl ⟨rfl,here⟩)
      | arrive request => cases moved
      | access newSecret =>
        simp only [advance,serve] at moved
        split at moved
        · cases moved
        · cases moved
          refine .inr (.inr ?_)
          unfold accepts at refused
          cases answer : decode crypto {} w.system.store.now w.system.store.secret token with
          | ok claims =>
            rw [answer] at refused
            cases refused
          | error error =>
            cases error with
            | expiredSignature => exact ⟨_,rfl⟩
            | other text => exact ⟨_,rfl⟩
    · rw [returned] at moved
      cases input with
      | tick seconds =>
        cases moved
        exact .inr (.inr ⟨error,rfl⟩)
      | arrive request => cases moved
      | access newSecret => cases moved
  · rw [goes_other same,goes_store]
    rcases late.stands with checking | ⟨decoding,refused⟩ | returned
    · exact .inl checking
    · exact .inr (.inl ⟨decoding,dead refused⟩)
    · exact .inr (.inr returned)

def session : String × TokenPayload := ("s0",⟨"u1","ana",0,86400,jwtIssuer,jwtAudience⟩)

end Runs

end AlineaCopilot.JwtService
