import AlineaCopilot.FileListings
open AlineaCopilot.RustPaths AlineaCopilot.KeyedMaps AlineaCopilot.TransitionRuns AlineaCopilot.InterleavedRequests

namespace AlineaCopilot.FileListings
open FileService

section Moments
variable {D : Type} {fs : Fs D} {s t : Service D} {root : Place} {files : List WorkspaceFlatFile} {settled : List Nat}

-- What an uncached listing of the root would have returned at a moment.
def Service.listing (fs : Fs D) (s : Service D) (root : Place) (moment : Nat) : Option (List WorkspaceFlatFile) :=
  (s.diskAt moment).map (listWorkspaceFilesSync fs · root)

def Altered (fs : Fs D) (s : Service D) (change : Nat) (root : Place) : Prop :=
  s.listing fs root change ≠ s.listing fs root (change + 1)

instance (fs : Fs D) (s : Service D) (change : Nat) (root : Place) : Decidable (Altered fs s change root) :=
  inferInstanceAs (Decidable (_ ≠ _))

-- The files of some moment, and none of these changes has altered them since.
def Current (fs : Fs D) (s : Service D) (root : Place) (files : List WorkspaceFlatFile) (settled : List Nat) : Prop :=
  ∃ moment, s.listing fs root moment = some files ∧ ∀ j ∈ settled, moment ≤ j → ¬Altered fs s j root

-- A returned listing misses no change whose call had returned when the listing
-- began; and if there was no other change, it is what an uncached listing
-- returns at that moment.
structure Coherent (fs : Fs D) (s : Service D) (listed : Listed) : Prop where
  current : Current fs s listed.root listed.files listed.settled
  uncached : (∀ j < listed.moment, j ∈ listed.settled) → s.listing fs listed.root listed.moment = some listed.files

-- Disks are only ever added, and a call that returned has returned.
structure Grows (s t : Service D) : Prop where
  disks : ∀ i ≤ s.now, t.diskAt i = s.diskAt i
  now : s.now ≤ t.now
  settled : ∀ j ∈ s.settled, j ∈ t.settled

theorem Grows.same (past : t.past = s.past) (disk : t.disk = s.disk) (settled : ∀ j ∈ s.settled, j ∈ t.settled) : Grows s t := by
  refine ⟨fun i _ => ?_,?_,settled⟩
  · unfold Service.diskAt
    rw [past,disk]
  · unfold Service.now
    rw [past]

theorem Grows.changed (s : Service D) (disk : D) : Grows s (s.changed disk) := by
  refine ⟨fun i early => ?_,?_,fun _ inside => inside⟩
  · have short : i < (s.past ++ [s.disk]).length := by
      simp only [Service.now,List.length_append,List.length_singleton] at early ⊢
      omega
    exact List.getElem?_append_left short
  · simp [Service.now,Service.changed]

theorem now_changed (s : Service D) (disk : D) : (s.changed disk).now = s.now + 1 := by simp [Service.now,Service.changed]

theorem listing_now (fs : Fs D) (s : Service D) (root : Place) :
    s.listing fs root s.now = some (listWorkspaceFilesSync fs s.disk root) := by
  simp [Service.listing,Service.diskAt,Service.now]

theorem listing_past (read : s.listing fs root i = some files) : i ≤ s.now := by
  obtain ⟨disk,there,_⟩ := Option.map_eq_some_iff.mp read
  obtain ⟨short,_⟩ := List.getElem?_eq_some_iff.mp there
  simp only [List.length_append,List.length_singleton] at short
  exact Nat.lt_succ_iff.mp short

theorem Grows.listing (grows : Grows s t) (early : i ≤ s.now) : t.listing fs root i = s.listing fs root i := by
  unfold Service.listing
  rw [grows.disks i early]

theorem Grows.altered (grows : Grows s t) (early : j < s.now) : Altered fs t j root ↔ Altered fs s j root := by
  unfold Altered
  rw [grows.listing (Nat.le_of_lt early),grows.listing (Nat.succ_le_of_lt early)]

theorem Grows.read (grows : Grows s t) (read : s.listing fs root i = some files) : t.listing fs root i = some files :=
  (grows.listing (listing_past read)).trans read

theorem Current.grows (current : Current fs s root files settled) (grows : Grows s t) (past : ∀ j ∈ settled, j < s.now) :
    Current fs t root files settled := by
  obtain ⟨moment,read,still⟩ := current
  refine ⟨moment,grows.read read,fun j inside later altered => ?_⟩
  exact still j inside later ((grows.altered (past j inside)).mp altered)

-- From its own moment on, a current listing that every change is settled for has
-- not been altered.
theorem Current.uncached (current : Current fs s root files settled) (all : ∀ j < s.now, j ∈ settled) :
    s.listing fs root s.now = some files := by
  obtain ⟨moment,read,still⟩ := current
  have steps : ∀ n, moment ≤ n → n ≤ s.now → s.listing fs root n = some files := by
    intro n later
    induction n,later using Nat.le_induction with
    | base => exact fun _ => read
    | succ n later ih =>
      intro early
      have before := ih (Nat.le_of_succ_le early)
      have kept := not_not.mp (still n (all n (Nat.lt_of_succ_le early)) later)
      exact kept ▸ before
  exact steps s.now (listing_past read) (Nat.le_refl _)

theorem Coherent.grows {listed : Listed} (coherent : Coherent fs s listed) (grows : Grows s t) (ended : listed.moment ≤ s.now)
    (past : ∀ j ∈ listed.settled, j < s.now) : Coherent fs t listed :=
  ⟨coherent.current.grows grows past,fun all => (grows.listing ended).trans (coherent.uncached all)⟩

end Moments

section Invariant
variable {D : Type} {fs : Fs D} {allowedRoots : List String} {s t : Service D} {stage next : Stage} {input : Option Call}

structure Good (fs : Fs D) (s : Service D) : Prop where
  past : ∀ j ∈ s.settled, j < s.now
  cached : ∀ key cached, s.cache.lookup key = some cached → s.listing fs cached.root cached.readAt = some cached.files ∧
    ∀ j ∈ s.settled, cached.readAt ≤ j → ¬Altered fs s j cached.root
  listed : ∀ listed ∈ s.listed, Coherent fs s listed ∧ listed.moment ≤ s.now ∧ ∀ j ∈ listed.settled, j < s.now

def Fits (fs : Fs D) (s : Service D) : Stage → Prop
  | .looking _ settled | .walking _ settled => ∀ j ∈ settled, j ∈ s.settled
  | .storing root files readAt settled => s.listing fs root readAt = some files ∧ ∀ j ∈ settled, j ∈ s.settled ∧ j < readAt
  | .copying _ _ _ _ changes | .announcing _ _ _ _ changes _ | .resolving _ changes _ | .returning _ changes _ =>
    ∀ j ∈ changes, j < s.now
  | _ => True

-- The condition on the store and on the call that takes its next step: a hit is a
-- listing of the very root that is asked for; a listing goes into the cache only
-- if no call that returned since it was read altered it; and a call returns only
-- if the cached listings that it altered are under the key that it invalidates.
def Allows (fs : Fs D) (s : Service D) : Stage → Prop
  | .looking root _ => ∀ cached, s.cache.lookup (lossy root) = some cached → cached.root = root
  | .storing root _ readAt _ => ∀ j ∈ s.settled, readAt ≤ j → ¬Altered fs s j root
  | .returning key changes _ => ∀ other cached, s.cache.lookup other = some cached → key ≠ some other →
      ∀ j ∈ changes, cached.readAt ≤ j → ¬Altered fs s j cached.root
  | _ => True

theorem allows_returning (fs : Fs D) (s : Service D) (key : Option String) (changes : List Nat) (result : Except FileError Answer) :
    (∀ entry ∈ s.cache.entries, key ≠ some entry.1 → ∀ j ∈ changes, entry.2.readAt ≤ j → ¬Altered fs s j entry.2.root) ↔
      Allows fs s (.returning key changes result) := by
  constructor
  · exact fun entries other cached found => entries ⟨other,cached⟩ ((mem_entries_iff s.cache).mpr found)
  · exact fun allows entry inside => allows entry.1 entry.2 ((mem_entries_iff s.cache).mp inside)

instance (fs : Fs D) (s : Service D) : (stage : Stage) → Decidable (Allows fs s stage)
  | .looking root _ => inferInstanceAs (Decidable (∀ cached, s.cache.lookup (lossy root) = some cached → cached.root = root))
  | .storing root _ readAt _ => inferInstanceAs (Decidable (∀ j ∈ s.settled, readAt ≤ j → ¬Altered fs s j root))
  | .returning key changes result => decidable_of_iff _ (allows_returning fs s key changes result)
  | .fresh | .walking .. | .writing .. | .copying .. | .removing .. | .moving .. | .announcing .. | .resolving .. | .returned _ =>
    .isTrue trivial

def Undisturbed (fs : Fs D) (system : System (Service D) Stage) (action : Nat × Option Call) : Prop :=
  Allows fs system.store (system.threads action.1)

instance (fs : Fs D) (system : System (Service D) Stage) (action : Nat × Option Call) : Decidable (Undisturbed fs system action) :=
  inferInstanceAs (Decidable (Allows ..))

theorem Fits.grows (fits : Fits fs s stage) (grows : Grows s t) : Fits fs t stage := by
  cases stage with
  | looking root settled | walking root settled => exact fun j inside => grows.settled j (fits j inside)
  | storing root files readAt settled =>
    exact ⟨grows.read fits.1,fun j inside => ⟨grows.settled j (fits.2 j inside).1,(fits.2 j inside).2⟩⟩
  | copying | announcing | resolving | returning => exact fun j inside => Nat.lt_of_lt_of_le (fits j inside) grows.now
  | _ => trivial

-- What was returned before stays as it was.
theorem Good.earlier (good : Good fs s) (grows : Grows s t) (listed : Listed) (inside : listed ∈ s.listed) :
    Coherent fs t listed ∧ listed.moment ≤ t.now ∧ ∀ j ∈ listed.settled, j < t.now := by
  obtain ⟨coherent,ended,past⟩ := good.listed listed inside
  exact ⟨coherent.grows grows ended past,Nat.le_trans ended grows.now,
    fun j inside => Nat.lt_of_lt_of_le (past j inside) grows.now⟩

theorem Good.grows (good : Good fs s) (grows : Grows s t) (settled : t.settled = s.settled) (cache : t.cache = s.cache)
    (listed : t.listed = s.listed) : Good fs t := by
  refine ⟨fun j inside => ?_,fun key cached found => ?_,fun l inside => ?_⟩
  · rw [settled] at inside
    exact Nat.lt_of_lt_of_le (good.past j inside) grows.now
  · rw [cache] at found
    rw [settled]
    obtain ⟨read,still⟩ := good.cached key cached found
    refine ⟨grows.read read,fun j inside later altered => ?_⟩
    exact still j inside later ((grows.altered (good.past j inside)).mp altered)
  · rw [listed] at inside
    exact good.earlier grows l inside

theorem Good.changed (good : Good fs s) (disk : D) : Good fs (s.changed disk) := good.grows (.changed s disk) rfl rfl rfl

theorem Good.returns {root : Place} {files : List WorkspaceFlatFile} {settled : List Nat} (good : Good fs s)
    (current : Current fs s root files settled) (began : ∀ j ∈ settled, j ∈ s.settled) : Good fs (s.returns root files settled) := by
  have grows : Grows s (s.returns root files settled) := .same rfl rfl fun _ inside => inside
  have past : ∀ j ∈ settled, j < s.now := fun j inside => good.past j (began j inside)
  refine ⟨good.past,good.cached,fun l inside => ?_⟩
  rcases List.mem_append.mp inside with earlier | new
  · exact good.earlier grows l earlier
  · cases List.mem_singleton.mp new
    exact ⟨⟨current.grows grows past,fun all => grows.read (current.uncached all)⟩,Nat.le_refl _,past⟩

theorem Good.stores {root : Place} {files : List WorkspaceFlatFile} {readAt : Nat} (good : Good fs s)
    (read : s.listing fs root readAt = some files) (still : ∀ j ∈ s.settled, readAt ≤ j → ¬Altered fs s j root) :
    Good fs { s with cache := s.cache.insert (lossy root) ⟨root,files,readAt⟩ } := by
  refine ⟨good.past,fun key cached found => ?_,good.earlier (.same rfl rfl fun _ inside => inside)⟩
  rw [lookup_insert_eq] at found
  split at found
  · cases found
    exact ⟨read,still⟩
  · exact good.cached key cached found

theorem Good.settles {key : Option String} {changes : List Nat} (good : Good fs s) (past : ∀ j ∈ changes, j < s.now)
    (invalidated : ∀ other cached, s.cache.lookup other = some cached → key ≠ some other →
      ∀ j ∈ changes, cached.readAt ≤ j → ¬Altered fs s j cached.root) :
    Good fs { s with cache := key.elim s.cache s.cache.erase,settled := s.settled ++ changes } := by
  have grows : Grows s { s with cache := key.elim s.cache s.cache.erase,settled := s.settled ++ changes } :=
    .same rfl rfl fun _ inside => List.mem_append_left _ inside
  refine ⟨fun j inside => ?_,fun other cached found => ?_,good.earlier grows⟩
  · rcases List.mem_append.mp inside with earlier | own
    · exact good.past j earlier
    · exact past j own
  · have kept : s.cache.lookup other = some cached ∧ key ≠ some other := by
      cases key with
      | none => exact ⟨found,fun same => by cases same⟩
      | some key =>
        simp only [Option.elim_some] at found
        rw [lookup_erase_eq] at found
        split at found
        · cases found
        · rename_i apart
          exact ⟨found,fun same => apart (Option.some.inj same).symm⟩
    obtain ⟨read,still⟩ := good.cached other cached kept.1
    refine ⟨read,fun j inside later => ?_⟩
    rcases List.mem_append.mp inside with earlier | own
    · exact still j earlier later
    · exact invalidated other cached kept.1 kept.2 j own later

theorem begins_fit {call : Call} (began : begin_ fs allowedRoots s call = .ok stage) : Fits fs s stage := by
  cases call with
  | listWorkspaceFiles root =>
    simp only [begin_,bind,Except.bind,pure,Except.pure] at began
    split at began <;> cases began
    exact fun _ inside => inside
  | copyFilesToWorkspace filePaths workspace sourceRoot =>
    simp only [begin_,bind,Except.bind,pure,Except.pure] at began
    split at began
    · cases began
    · split at began <;> cases began
      exact fun _ inside => absurd inside List.not_mem_nil
  | writeFile path data workspace | removeEntry path workspace =>
    simp only [begin_,bind,Except.bind,pure,Except.pure] at began
    split at began
    · cases began
    · split at began <;> cases began
      trivial
  | renameEntry path newName =>
    simp only [begin_,bind,Except.bind,pure,Except.pure,throw,throwThe,MonadExceptOf.throw] at began
    split at began
    · cases began
    · split at began
      · cases began
      · split at began <;> cases began
        trivial

-- A call's own change is the one that leads on from the moment before it.
theorem own_change (s : Service D) (disk : D) : ∀ j ∈ [s.now], j < (s.changed disk).now := by
  intro j own
  cases List.mem_singleton.mp own
  rw [now_changed]
  exact Nat.lt_succ_self _

theorem advance_sound (good : Good fs s) (fits : Fits fs s stage) (allows : Allows fs s stage)
    (moved : advance fs allowedRoots s stage input = some (t,next)) : Grows s t ∧ Good fs t ∧ Fits fs t next := by
  have still : ∀ s : Service D, Grows s s := fun _ => .same rfl rfl fun _ inside => inside
  cases input with
  | some call =>
    cases stage with
    | fresh =>
      cases moved
      refine ⟨still s,good,?_⟩
      split
      · rename_i began
        exact begins_fit began
      · trivial
    | copying workspace sourceRoot rest => cases rest <;> cases moved
    | _ => cases moved
  | none =>
    cases stage with
    | fresh | returned result => cases moved
    | looking root settled =>
      simp only [advance] at moved
      split at moved
      · rename_i cached found
        cases moved
        have same := allows cached found
        obtain ⟨read,kept⟩ := good.cached _ cached found
        have current : Current fs s root cached.files settled :=
          ⟨cached.readAt,same ▸ read,fun j inside later => same ▸ kept j (fits j inside) later⟩
        exact ⟨.same rfl rfl fun _ inside => inside,good.returns current fits,trivial⟩
      · cases moved
        exact ⟨still s,good,fits⟩
    | walking root settled =>
      cases moved
      exact ⟨still s,good,listing_now fs s root,fun j inside => ⟨fits j inside,good.past j (fits j inside)⟩⟩
    | storing root files readAt settled =>
      cases moved
      obtain ⟨read,began⟩ := fits
      have stored := good.stores read allows
      -- Every change that had settled before the call is older than its reading.
      have current : Current fs _ root files settled :=
        ⟨readAt,read,fun j inside later => absurd later (Nat.not_le_of_lt (began j inside).2)⟩
      exact ⟨.same rfl rfl fun _ inside => inside,stored.returns current fun j inside => (began j inside).1,trivial⟩
    | writing canonical data workspace =>
      simp only [advance] at moved
      split at moved <;> cases moved <;> exact ⟨.changed s _,good.changed _,own_change s _⟩
    | removing canonical workspace =>
      simp only [advance] at moved
      split at moved <;> cases moved <;> exact ⟨.changed s _,good.changed _,own_change s _⟩
    | moving canonical newName =>
      simp only [advance] at moved
      split at moved <;> cases moved <;> exact ⟨.changed s _,good.changed _,own_change s _⟩
    | copying workspace sourceRoot rest result changes =>
      cases rest with
      | nil =>
        cases moved
        exact ⟨still s,good,fits⟩
      | cons filePath rest =>
        cases moved
        refine ⟨.changed s _,good.changed _,fun j inside => ?_⟩
        rcases List.mem_append.mp inside with earlier | own
        · exact Nat.lt_of_lt_of_le (fits j earlier) (Grows.changed s _).now
        · exact own_change s _ j own
    | announcing canonical content operation workspace changes answer =>
      simp only [advance,Option.some.injEq,Prod.mk.injEq] at moved
      obtain ⟨rfl,rfl⟩ := moved
      refine ⟨?_,good.grows ?_ rfl rfl rfl,fits⟩ <;> exact .same rfl rfl fun _ inside => inside
    | resolving workspace changes answer =>
      simp only [advance] at moved
      split at moved <;> cases moved <;> exact ⟨still s,good,fits⟩
    | returning key changes result =>
      cases moved
      exact ⟨.same rfl rfl fun _ inside => List.mem_append_left _ inside,good.settles fits allows,trivial⟩

end Invariant

section Runs
variable {D : Type} {fs : Fs D} {allowedRoots : List String} {system final : System (Service D) Stage}

-- The cache is empty and no call has been made.
def start (disk : D) : System (Service D) Stage := ⟨⟨[],disk,∅,[],[],[]⟩,fun _ => .fresh⟩

theorem sound_start (fs : Fs D) (disk : D) : Sound (Good fs) (Fits fs) (start disk) := by
  refine ⟨⟨fun _ inside => absurd inside List.not_mem_nil,fun key cached found => ?_,fun _ inside => absurd inside List.not_mem_nil⟩,
    fun _ => trivial⟩
  cases found

theorem sound_step (sound : Sound (Good fs) (Fits fs) system) (allowed : Undisturbed fs system action)
    (taken : step (advance fs allowedRoots) system action = some final) : Sound (Good fs) (Fits fs) final := by
  refine sound.step taken (fun store thread moved => ?_) fun store thread m moved apart => ?_
  · exact (advance_sound sound.good (sound.fits _) allowed moved).2
  · exact (sound.fits m).grows (advance_sound sound.good (sound.fits _) allowed moved).1

end Runs

section Examples

-- One directory `/w` with files in it and nothing else on the disk.
def missing : String := "No such file or directory (os error 2)"

def entries (disk : List Name) : Place → Option Bool
  | [] => some true
  | [w] => if w = nameOf "w" then some true else none
  | [w,name] => if w = nameOf "w" ∧ name ∈ disk then some false else none
  | _ => none

def listing (n : Nat) : List (Nat × Option Call) := [(n,some (.listWorkspaceFiles "/w")),(n,none),(n,none),(n,none)]

def writing (n : Nat) : List (Nat × Option Call) :=
  (n,some (.writeFile "/w/b" [] "/w")) :: List.replicate 4 (n,none)

end Examples

end AlineaCopilot.FileListings
