import Mathlib.Data.List.Infix

namespace AlineaCopilot.LeftmostScans

section Scans
variable {α : Type} (hit : List α → Option Nat)

-- `hit` says how long the match is that starts at the head of a text.
-- `is_match`.
def occurs : List α → Bool
  | [] => false
  | c :: rest => (hit (c :: rest)).isSome || occurs rest

-- `replace_all` with the empty text: what is still to be skipped, and the rest.
def erase : Nat → List α → List α
  | _,[] => []
  | skip + 1,_ :: rest => erase skip rest
  | 0,c :: rest => match hit (c :: rest) with
    | some size => erase (size - 1) rest
    | none => c :: erase 0 rest

-- A match by the place where it starts, with the text from there on.
structure Found (α : Type) where
  place : Nat
  text : List α

-- `find_iter`: from left to right, the next match behind the end of the last one.
def scan : Nat → Nat → List α → List (Found α)
  | _,_,[] => []
  | skip + 1,place,_ :: rest => scan skip (place + 1) rest
  | 0,place,c :: rest => match hit (c :: rest) with
    | some size => ⟨place,c :: rest⟩ :: scan (size - 1) (place + 1) rest
    | none => scan 0 (place + 1) rest

end Scans

-- No match is empty, and none is longer than the text.
def Sized (hit : List α → Option Nat) : Prop := ∀ text size, hit text = some size → 0 < size ∧ size ≤ text.length

section Erasing
variable {α : Type} {hit : List α → Option Nat} {text behind : List α} {c : α} {skip : Nat}

theorem Sized.nil (sized : Sized hit) : hit [] = none := by
  cases found : hit [] with
  | none => rfl
  | some size => exact absurd (sized _ _ found).1 (Nat.not_lt.mpr (sized _ _ found).2)

theorem erase_hit {size : Nat} (found : hit (c :: text) = some size) : erase hit 0 (c :: text) = erase hit (size - 1) text := by
  simp only [erase,found]

theorem erase_miss (missed : hit (c :: text) = none) : erase hit 0 (c :: text) = c :: erase hit 0 text := by
  simp only [erase,missed]

theorem erase_sublist (hit : List α → Option Nat) (skip : Nat) (text : List α) : List.Sublist (erase hit skip text) text := by
  induction text generalizing skip with
  | nil => exact List.Sublist.refl _
  | cons c rest ih =>
    cases skip with
    | succ skip => exact (ih skip).cons c
    | zero =>
      cases found : hit (c :: rest) with
      | some size =>
        rw [erase_hit found]
        exact (ih _).cons c
      | none =>
        rw [erase_miss found]
        exact (ih 0).cons_cons c

theorem erase_length (hit : List α → Option Nat) (skip : Nat) (text : List α) : (erase hit skip text).length ≤ text.length :=
  (erase_sublist hit skip text).length_le

theorem occurs_cons : occurs hit (c :: text) = ((hit (c :: text)).isSome || occurs hit text) := rfl

theorem occurs_iff (sized : Sized hit) : occurs hit text = true ↔ ∃ behind, behind <:+ text ∧ (hit behind).isSome = true := by
  induction text with
  | nil =>
    refine ⟨nofun,?_⟩
    rintro ⟨behind,suffix,found⟩
    rw [List.suffix_nil.mp suffix,sized.nil] at found
    cases found
  | cons c rest ih =>
    rw [occurs_cons,Bool.or_eq_true,ih]
    constructor
    · rintro (found | ⟨behind,suffix,found⟩)
      · exact ⟨_,List.suffix_refl _,found⟩
      · exact ⟨behind,suffix.trans (List.suffix_cons _ _),found⟩
    · rintro ⟨behind,suffix,found⟩
      rcases List.suffix_cons_iff.mp suffix with rfl | inner
      · exact Or.inl found
      · exact Or.inr ⟨behind,inner,found⟩

theorem erase_shorter (found : occurs hit text = true) : (erase hit 0 text).length < text.length := by
  induction text with
  | nil => cases found
  | cons c rest ih =>
    cases first : hit (c :: rest) with
    | some size =>
      rw [erase_hit first]
      exact Nat.lt_succ_of_le (erase_length hit _ rest)
    | none =>
      rw [occurs_cons,first] at found
      rw [erase_miss first]
      exact Nat.succ_lt_succ (ih found)

theorem erase_same (missed : occurs hit text = false) : erase hit 0 text = text := by
  induction text with
  | nil => rfl
  | cons c rest ih =>
    rw [occurs_cons,Bool.or_eq_false_iff] at missed
    rw [erase_miss (Option.isNone_iff_eq_none.mp (Option.isSome_eq_false_iff.mp missed.1)),ih missed.2]

theorem erase_same_iff : erase hit 0 text = text ↔ occurs hit text = false := by
  refine ⟨fun same => ?_,erase_same⟩
  rw [Bool.eq_false_iff]
  intro found
  have shorter := erase_shorter found
  rw [same] at shorter
  exact Nat.lt_irrefl _ shorter

-- What is left from some place on is what erasing leaves of the text from a
-- place where no match starts.
theorem erase_suffix (full : behind ≠ []) (suffix : behind <:+ erase hit skip text) :
    ∃ before, before <:+ text ∧ hit before = none ∧ behind = erase hit 0 before := by
  induction text generalizing skip with
  | nil => exact absurd (List.suffix_nil.mp suffix) full
  | cons c rest ih =>
    have inner {skip : Nat} (suffix : behind <:+ erase hit skip rest) :
        ∃ before, before <:+ c :: rest ∧ hit before = none ∧ behind = erase hit 0 before := by
      obtain ⟨before,there,missed,same⟩ := ih suffix
      exact ⟨before,there.trans (List.suffix_cons _ _),missed,same⟩
    cases skip with
    | succ skip => exact inner suffix
    | zero =>
      cases found : hit (c :: rest) with
      | some size =>
        rw [erase_hit found] at suffix
        exact inner suffix
      | none =>
        rw [erase_miss found] at suffix
        rcases List.suffix_cons_iff.mp suffix with rfl | there
        · exact ⟨c :: rest,List.suffix_refl _,found,(erase_miss found).symm⟩
        · exact inner there

-- Erasing looks at the letters only.
theorem erase_map {β : Type} (value : β → α) (skip : Nat) (text : List β) :
    (erase (fun letters => hit (letters.map value)) skip text).map value = erase hit skip (text.map value) := by
  induction text generalizing skip with
  | nil => rfl
  | cons c rest ih =>
    cases skip with
    | succ skip => exact ih skip
    | zero =>
      cases found : hit (value c :: rest.map value) with
      | some size =>
        rw [erase_hit (by exact found),List.map_cons,erase_hit found]
        exact ih _
      | none =>
        rw [erase_miss (by exact found),List.map_cons,List.map_cons,erase_miss found,ih]

end Erasing

-- Which matches a scan takes: those that do not start inside an earlier one.
section Scanning
variable {α : Type} {hit : List α → Option Nat} {text : List α} {c : α} {skip place : Nat} {found : Found α}

theorem scan_hit {size : Nat} (first : hit (c :: text) = some size) :
    scan hit 0 place (c :: text) = ⟨place,c :: text⟩ :: scan hit (size - 1) (place + 1) text := by
  simp only [scan,first]

theorem scan_miss (missed : hit (c :: text) = none) : scan hit 0 place (c :: text) = scan hit 0 (place + 1) text := by
  simp only [scan,missed]

theorem scan_found (member : found ∈ scan hit skip place text) :
    place + skip ≤ found.place ∧ found.text = text.drop (found.place - place) ∧ (hit found.text).isSome = true := by
  induction text generalizing skip place with
  | nil => cases member
  | cons c rest ih =>
    have inner {skip : Nat} (member : found ∈ scan hit skip (place + 1) rest) :
        place + 1 + skip ≤ found.place ∧ found.text = (c :: rest).drop (found.place - place) ∧ (hit found.text).isSome = true := by
      obtain ⟨above,same,hits⟩ := ih member
      refine ⟨above,?_,hits⟩
      rw [same,show found.place - place = found.place - (place + 1) + 1 by omega,List.drop_succ_cons]
    cases skip with
    | succ skip =>
      obtain ⟨above,same,hits⟩ := inner member
      exact ⟨by omega,same,hits⟩
    | zero =>
      cases first : hit (c :: rest) with
      | some size =>
        rw [scan_hit first] at member
        rcases List.mem_cons.mp member with rfl | later
        · refine ⟨Nat.le_refl _,?_,first ▸ rfl⟩
          rw [Nat.sub_self]
          rfl
        · obtain ⟨above,same,hits⟩ := inner later
          exact ⟨by omega,same,hits⟩
      | none =>
        rw [scan_miss first] at member
        obtain ⟨above,same,hits⟩ := inner member
        exact ⟨by omega,same,hits⟩

def Found.size (hit : List α → Option Nat) (found : Found α) : Nat := (hit found.text).getD 0

-- The next match starts behind the end of the one before.
theorem scan_apart (sized : Sized hit) (skip place : Nat) (text : List α) :
    (scan hit skip place text).Pairwise fun first second => first.place + first.size hit ≤ second.place := by
  induction text generalizing skip place with
  | nil => exact List.Pairwise.nil
  | cons c rest ih =>
    cases skip with
    | succ skip => exact ih skip (place + 1)
    | zero =>
      cases first : hit (c :: rest) with
      | none =>
        rw [scan_miss first]
        exact ih 0 (place + 1)
      | some size =>
        rw [scan_hit first]
        refine List.pairwise_cons.mpr ⟨fun found member => ?_,ih (size - 1) (place + 1)⟩
        have full := (sized _ _ first).1
        have above := (scan_found member).1
        show place + (hit (c :: rest)).getD 0 ≤ found.place
        rw [first,Option.getD_some]
        omega

theorem Found.size_pos (sized : Sized hit) (hits : (hit found.text).isSome = true) : 0 < found.size hit := by
  obtain ⟨size,same⟩ := Option.isSome_iff_exists.mp hits
  unfold Found.size
  rw [same]
  exact (sized _ _ same).1

theorem scan_sorted (sized : Sized hit) (skip place : Nat) (text : List α) :
    (scan hit skip place text).Pairwise fun first second => first.place < second.place := by
  refine List.Pairwise.imp_of_mem ?_ (scan_apart sized skip place text)
  intro first second member _ apart
  have full := Found.size_pos sized (scan_found member).2.2
  omega

theorem scan_covers (sized : Sized hit) {i : Nat} (above : place + skip ≤ i) (hits : (hit (text.drop (i - place))).isSome = true) :
    ∃ found ∈ scan hit skip place text, found.place = i ∨ found.place < i ∧ i < found.place + found.size hit := by
  induction text generalizing skip place with
  | nil =>
    rw [List.drop_nil,sized.nil] at hits
    cases hits
  | cons c rest ih =>
    have inner {skip : Nat} (above : place + 1 + skip ≤ i) :
        ∃ found ∈ scan hit skip (place + 1) rest, found.place = i ∨ found.place < i ∧ i < found.place + found.size hit := by
      refine ih above ?_
      rwa [show i - place = i - (place + 1) + 1 by omega,List.drop_succ_cons] at hits
    cases skip with
    | succ skip => exact inner (by omega)
    | zero =>
      cases first : hit (c :: rest) with
      | some size =>
        rw [scan_hit first]
        have full := (sized _ _ first).1
        by_cases close : i < place + size
        · refine ⟨_,List.mem_cons_self,?_⟩
          show place = i ∨ place < i ∧ i < place + (hit (c :: rest)).getD 0
          rw [first,Option.getD_some]
          omega
        · have behind : place + 1 + (size - 1) ≤ i := by omega
          obtain ⟨found,member,covers⟩ := inner behind
          exact ⟨found,List.mem_cons_of_mem _ member,covers⟩
      | none =>
        rw [scan_miss first]
        have later : place ≠ i := by
          rintro rfl
          rw [Nat.sub_self,List.drop_zero,first] at hits
          cases hits
        exact inner (by omega)

def Inside (hit : List α → Option Nat) (text : List α) (i : Nat) : Prop :=
  ∃ found ∈ scan hit 0 0 text, found.place < i ∧ i < found.place + found.size hit

theorem scan_text (member : found ∈ scan hit 0 0 text) : found.text = text.drop found.place := (scan_found member).2.1

-- A sorted list has at most one element at a place.
theorem same_place {β : Type} {place : β → Nat} {entries : List β} (sorted : entries.Pairwise fun first second => place first < place second)
    {first second : β} (member : first ∈ entries) (member' : second ∈ entries) (same : place first = place second) : first = second := by
  induction entries with
  | nil => cases member
  | cons entry rest ih =>
    obtain ⟨below,later⟩ := List.pairwise_cons.mp sorted
    rcases List.mem_cons.mp member with rfl | inner
    · rcases List.mem_cons.mp member' with rfl | inner'
      · rfl
      · have less := below second inner'
        omega
    · rcases List.mem_cons.mp member' with rfl | inner'
      · have less := below first inner
        omega
      · exact ih later inner inner'

-- What holds from left to right holds of any two elements by their places.
theorem by_place {β : Type} {place : β → Nat} {related : β → β → Prop} {entries : List β}
    (sorted : entries.Pairwise fun first second => place first < place second) (each : entries.Pairwise related)
    {first second : β} (member : first ∈ entries) (member' : second ∈ entries) (before : place first < place second) : related first second := by
  induction entries with
  | nil => cases member
  | cons entry rest ih =>
    obtain ⟨below,later⟩ := List.pairwise_cons.mp sorted
    obtain ⟨next,others⟩ := List.pairwise_cons.mp each
    rcases List.mem_cons.mp member with rfl | inner
    · rcases List.mem_cons.mp member' with rfl | inner'
      · exact absurd before (Nat.lt_irrefl _)
      · exact next second inner'
    · rcases List.mem_cons.mp member' with rfl | inner'
      · have less := below first inner
        omega
      · exact ih later others inner inner'

theorem scan_iff (sized : Sized hit) {i : Nat} :
    (∃ found ∈ scan hit 0 0 text, found.place = i) ↔ (hit (text.drop i)).isSome = true ∧ ¬Inside hit text i := by
  constructor
  · rintro ⟨found,member,rfl⟩
    refine ⟨scan_text member ▸ (scan_found member).2.2,?_⟩
    rintro ⟨other,member',before,behind⟩
    have apart := by_place (scan_sorted sized 0 0 text) (scan_apart sized 0 0 text) member' member before
    omega
  · rintro ⟨hits,outside⟩
    have start : 0 + 0 ≤ i := Nat.zero_le i
    obtain ⟨found,member,same | inner⟩ := scan_covers sized start hits
    · exact ⟨found,member,same⟩
    · exact absurd ⟨found,member,inner⟩ outside

end Scanning

section Members
variable {α : Type} {hit : List α → Option Nat} {text : List α} {found : Found α}

theorem scan_mem (sized : Sized hit) : found ∈ scan hit 0 0 text ↔
    found.text = text.drop found.place ∧ (hit found.text).isSome = true ∧ ¬Inside hit text found.place := by
  constructor
  · intro member
    obtain ⟨hits,outside⟩ := (scan_iff sized).mp ⟨found,member,rfl⟩
    exact ⟨scan_text member,scan_text member ▸ hits,outside⟩
  · rintro ⟨same,hits,outside⟩
    obtain ⟨other,member,equal⟩ := (scan_iff sized).mpr ⟨same ▸ hits,outside⟩
    have whole : other = found := by
      obtain ⟨place,text⟩ := other
      obtain ⟨place',text'⟩ := found
      cases equal
      rw [show text = _ from scan_text member,show text' = _ from same]
    exact whole ▸ member

-- The first match of a scan is the first one of the text.
theorem scan_first (sized : Sized hit) : found ∈ (scan hit 0 0 text).take 1 ↔
    found.text = text.drop found.place ∧ (hit found.text).isSome = true ∧
      ∀ i < found.place, (hit (text.drop i)).isSome = false := by
  constructor
  · intro member
    have there := List.mem_of_mem_take member
    obtain ⟨same,hits,_⟩ := (scan_mem sized).mp there
    refine ⟨same,hits,fun i before => ?_⟩
    rw [Bool.eq_false_iff]
    intro early
    have here : 0 + 0 ≤ i := Nat.zero_le i
    obtain ⟨other,member',covers⟩ := scan_covers sized here early
    have sorted := scan_sorted sized 0 0 text
    cases whole : scan hit 0 0 text with
    | nil =>
      rw [whole] at member'
      cases member'
    | cons head rest =>
      rw [whole] at member member' sorted
      cases List.mem_singleton.mp member
      rcases List.mem_cons.mp member' with rfl | later
      · omega
      · have above := (List.pairwise_cons.mp sorted).1 other later
        omega
  · rintro ⟨same,hits,first⟩
    have there : found ∈ scan hit 0 0 text := by
      refine (scan_mem sized).mpr ⟨same,hits,?_⟩
      rintro ⟨other,member,before,_⟩
      have early := first other.place before
      rw [← scan_text member,(scan_found member).2.2] at early
      cases early
    have sorted := scan_sorted sized 0 0 text
    cases whole : scan hit 0 0 text with
    | nil =>
      rw [whole] at there
      cases there
    | cons head rest =>
      have member : head ∈ scan hit 0 0 text := whole ▸ List.mem_cons_self
      rw [whole] at there sorted
      rcases List.mem_cons.mp there with rfl | later
      · exact List.mem_cons_self
      · have early := first head.place ((List.pairwise_cons.mp sorted).1 found later)
        rw [← scan_text member,(scan_found member).2.2] at early
        cases early

theorem sorted_same {β : Type} {place : β → Nat} {entries others : List β}
    (sorted : entries.Pairwise fun first second => place first < place second)
    (sorted' : others.Pairwise fun first second => place first < place second)
    (same : ∀ entry, entry ∈ entries ↔ entry ∈ others) : entries = others := by
  have distinct {list : List β} (sorted : list.Pairwise fun first second => place first < place second) : list.Nodup :=
    sorted.imp fun below equal => absurd (equal ▸ below) (Nat.lt_irrefl _)
  refine List.Perm.eq_of_pairwise (fun first second _ _ below above => ?_) sorted sorted' ?_
  · exact absurd below (Nat.lt_asymm above)
  · exact (List.perm_ext_iff_of_nodup (distinct sorted) (distinct sorted')).mpr same

theorem occurs_scan (place : Nat) :
    occurs hit text = (scan hit 0 place text).head?.isSome := by
  induction text generalizing place with
  | nil => rfl
  | cons c rest ih =>
    cases first : hit (c :: rest) with
    | some size =>
      rw [occurs_cons,scan_hit first,first]
      rfl
    | none =>
      rw [occurs_cons,scan_miss first,first]
      exact ih (place + 1)

end Members

end AlineaCopilot.LeftmostScans
