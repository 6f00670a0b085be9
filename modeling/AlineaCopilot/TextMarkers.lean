import Mathlib.Data.List.Infix
import AlineaCopilot.LeftmostScans

open AlineaCopilot.LeftmostScans

namespace AlineaCopilot.TextMarkers

-- `run` says how long the marker at the head of a text is. What stands behind a
-- marker has no part in it.
structure Marker (α : Type) where
  run : List α → Option Nat
  sized : Sized run
  settled : ∀ text size, run text = some size → ∀ more, run (text.take size ++ more) = some size

-- A marker, and where there is one the next closing marker behind it.
structure Pattern (α : Type) where
  opening : Marker α
  closing : Option (Marker α)

-- The lengths of a match: its opening marker, the text between, its closing one.
structure Reading where
  opening : Nat
  between : Nat
  closing : Nat
deriving DecidableEq

def Reading.size (reading : Reading) : Nat := reading.opening + reading.between + reading.closing

section Reading
variable {α : Type}

-- How far the first occurrence of a marker is, and how long it is.
def Marker.find (marker : Marker α) : List α → Option (Nat × Nat)
  | [] => none
  | c :: rest => match marker.run (c :: rest) with
    | some size => some (0,size)
    | none => (marker.find rest).map fun found => (found.1 + 1,found.2)

def Pattern.read (pattern : Pattern α) (text : List α) : Option Reading :=
  (pattern.opening.run text).bind fun size => match pattern.closing with
    | none => some ⟨size,0,0⟩
    | some closing => (closing.find (text.drop size)).map fun found => ⟨size,found.1,found.2⟩

def Pattern.hit (pattern : Pattern α) (text : List α) : Option Nat := (pattern.read text).map Reading.size

variable {marker : Marker α} {pattern : Pattern α} {text : List α}

theorem Marker.find_within {found : Nat × Nat} (there : marker.find text = some found) : found.1 + found.2 ≤ text.length := by
  induction text generalizing found with
  | nil => cases there
  | cons c rest ih =>
    unfold Marker.find at there
    cases first : marker.run (c :: rest) with
    | some size =>
      rw [first] at there
      cases there
      show 0 + size ≤ (c :: rest).length
      rw [Nat.zero_add]
      exact (marker.sized _ _ first).2
    | none =>
      rw [first] at there
      obtain ⟨later,next,rfl⟩ := Option.map_eq_some_iff.mp there
      have within := ih next
      show later.1 + 1 + later.2 ≤ rest.length + 1
      omega

theorem Marker.find_some {behind : List α} (suffix : behind <:+ text) (here : (marker.run behind).isSome = true) :
    (marker.find text).isSome = true := by
  induction text with
  | nil =>
    rw [List.suffix_nil.mp suffix,marker.sized.nil] at here
    cases here
  | cons c rest ih =>
    unfold Marker.find
    cases first : marker.run (c :: rest) with
    | some size => rfl
    | none =>
      rcases List.suffix_cons_iff.mp suffix with rfl | inner
      · rw [first] at here
        cases here
      · show ((marker.find rest).map _).isSome = true
        rw [Option.isSome_map]
        exact ih inner

theorem Pattern.sized (pattern : Pattern α) : Sized pattern.hit := by
  intro text size hit
  obtain ⟨reading,read,rfl⟩ := Option.map_eq_some_iff.mp hit
  obtain ⟨opening,opens,closes⟩ := Option.bind_eq_some_iff.mp read
  obtain ⟨full,within⟩ := pattern.opening.sized _ _ opens
  cases last : pattern.closing with
  | none =>
    rw [last] at closes
    cases closes
    exact ⟨full,within⟩
  | some closing =>
    rw [last] at closes
    obtain ⟨found,there,rfl⟩ := Option.map_eq_some_iff.mp closes
    have inner := Marker.find_within there
    rw [List.length_drop] at inner
    show 0 < opening + found.1 + found.2 ∧ opening + found.1 + found.2 ≤ text.length
    omega

end Reading

section Markers
variable {α : Type} [DecidableEq α]

def firstWord (words : List (List α)) (text : List α) : Option (List α) := words.find? fun word => word.isPrefixOf text

theorem firstWord_starts {words : List (List α)} {text word : List α} (first : firstWord words text = some word) :
    word ∈ words ∧ word <+: text := by
  unfold firstWord at first
  exact ⟨List.mem_of_find?_eq_some first,List.isPrefixOf_iff_prefix.mp (List.find?_some (p := fun word : List α => word.isPrefixOf text) first)⟩

-- One of several words, none of which starts another.
def Marker.oneOf (words : List (List α)) (full : [] ∉ words) (apart : ∀ word ∈ words, ∀ other ∈ words, word <+: other → word = other) : Marker α where
  run text := (firstWord words text).map List.length
  sized text size found := by
    obtain ⟨word,first,rfl⟩ := Option.map_eq_some_iff.mp found
    obtain ⟨member,starts⟩ := firstWord_starts first
    refine ⟨List.length_pos_iff.mpr ?_,starts.length_le⟩
    rintro rfl
    exact full member
  settled text size found more := by
    obtain ⟨word,first,rfl⟩ := Option.map_eq_some_iff.mp found
    obtain ⟨member,starts⟩ := firstWord_starts first
    rw [← List.prefix_iff_eq_take.mp starts]
    have behind := List.prefix_append word more
    cases again : firstWord words (word ++ more) with
    | none => exact absurd (List.isPrefixOf_iff_prefix.mpr behind) (List.find?_eq_none.mp again word member)
    | some other =>
      obtain ⟨member',starts'⟩ := firstWord_starts again
      have same : other = word := by
        rcases List.prefix_or_prefix_of_prefix starts' behind with shorter | longer
        · exact apart other member' word member shorter
        · exact (apart word member other member' longer).symm
      rw [same]
      rfl

def Marker.word (word : List α) (full : word ≠ []) : Marker α :=
  Marker.oneOf [word] (fun empty => full (List.mem_singleton.mp empty).symm)
    fun _ member _ member' _ => (List.mem_singleton.mp member).trans (List.mem_singleton.mp member').symm

-- What stands before the first `stop`.
def upTo (stop : α) : List α → Option (List α)
  | [] => none
  | c :: rest => if c = stop then some [] else (upTo stop rest).map fun inside => c :: inside

theorem upTo_exact {text inside : List α} {stop : α} : upTo stop text = some inside ↔
    stop ∉ inside ∧ ∃ rest, text = inside ++ stop :: rest := by
  induction text generalizing inside with
  | nil =>
    refine ⟨nofun,?_⟩
    rintro ⟨-,rest,whole⟩
    exact absurd whole (by simp)
  | cons c text ih =>
    unfold upTo
    split
    · rename_i same
      subst same
      constructor
      · rintro ⟨⟩
        exact ⟨List.not_mem_nil,text,rfl⟩
      · rintro ⟨apart,rest,whole⟩
        cases inside with
        | nil => rfl
        | cons d inside => exact absurd (List.cons.inj whole).1 fun same => apart (same ▸ List.mem_cons_self)
    · rename_i other
      constructor
      · intro found
        obtain ⟨later,next,rfl⟩ := Option.map_eq_some_iff.mp found
        obtain ⟨apart,rest,rfl⟩ := ih.mp next
        exact ⟨List.not_mem_cons_of_ne_of_not_mem (fun same => other same.symm) apart,rest,rfl⟩
      · rintro ⟨apart,rest,whole⟩
        cases inside with
        | nil => exact absurd (List.cons.inj whole).1 other
        | cons d inside =>
          obtain ⟨rfl,tail⟩ := List.cons.inj whole
          rw [ih.mpr ⟨fun member => apart (List.mem_cons_of_mem _ member),rest,tail⟩]
          rfl

-- What stands between a word and the next `stop`.
def argument (word : List α) (stop : α) (text : List α) : Option (List α) :=
  if word.isPrefixOf text then upTo stop (text.drop word.length) else none

theorem argument_exact {word text inside : List α} {stop : α} : argument word stop text = some inside ↔
    stop ∉ inside ∧ ∃ rest, text = word ++ inside ++ stop :: rest := by
  unfold argument
  constructor
  · intro found
    split at found
    · rename_i starts
      obtain ⟨tail,rfl⟩ := List.isPrefixOf_iff_prefix.mp starts
      rw [List.drop_left] at found
      obtain ⟨apart,rest,rfl⟩ := upTo_exact.mp found
      exact ⟨apart,rest,(List.append_assoc _ _ _).symm⟩
    · cases found
  · rintro ⟨apart,rest,rfl⟩
    rw [List.append_assoc,if_pos (List.isPrefixOf_iff_prefix.mpr (List.prefix_append _ _)),List.drop_left]
    exact upTo_exact.mpr ⟨apart,rest,rfl⟩

-- A word, an argument that is not empty, and `stop`.
def Marker.tagged (word : List α) (stop : α) : Marker α where
  run text := (argument word stop text).bind fun inside => if inside = [] then none else some (word.length + inside.length + 1)
  sized text size found := by
    obtain ⟨inside,there,same⟩ := Option.bind_eq_some_iff.mp found
    obtain ⟨-,rest,rfl⟩ := argument_exact.mp there
    split at same
    · cases same
    · cases same
      simp only [List.length_append,List.length_cons]
      omega
  settled text size found more := by
    obtain ⟨inside,there,same⟩ := Option.bind_eq_some_iff.mp found
    obtain ⟨apart,rest,rfl⟩ := argument_exact.mp there
    split at same
    · cases same
    · rename_i full
      cases same
      have cutoff : (word ++ inside ++ stop :: rest).take (word.length + inside.length + 1) ++ more = word ++ inside ++ stop :: more := by
        rw [← List.length_append,List.take_length_add_append,List.append_assoc]
        rfl
      rw [cutoff,argument_exact.mpr ⟨apart,more,rfl⟩]
      exact if_neg full

end Markers

-- The letters of a text with their places in it. After some of them are taken
-- out, a marker can be read over a place where letters are missing.
section Places
variable {α : Type} {marker : Marker α} {pattern : Pattern α} {text behind : List (α × Nat)} {size : Nat}

def letters (text : List (α × Nat)) : List α := text.map Prod.fst

def Sorted (text : List (α × Nat)) : Prop := text.Pairwise fun first second => first.2 < second.2

def Adjacent (text : List (α × Nat)) : Prop := text.IsChain fun first second => second.2 = first.2 + 1

structure Marker.Whole (marker : Marker α) (behind : List (α × Nat)) (size : Nat) : Prop where
  stands : marker.run (letters behind) = some size
  adjacent : Adjacent (behind.take size)

def Pattern.Whole (pattern : Pattern α) (behind : List (α × Nat)) : Prop :=
  ∃ size, pattern.opening.Whole behind size ∧ ∀ closing ∈ pattern.closing, ∃ last more, last <:+ behind.drop size ∧ closing.Whole last more

-- A match that cannot be read without a marker over such a place.
def Pattern.Joined (pattern : Pattern α) (text : List (α × Nat)) : Prop :=
  ∃ behind, behind <:+ text ∧ (pattern.hit (letters behind)).isSome = true ∧ ¬pattern.Whole behind

def Pattern.cutOut (pattern : Pattern α) (text : List (α × Nat)) : List (α × Nat) := erase (fun placed => pattern.hit (letters placed)) 0 text

theorem letters_cutOut (pattern : Pattern α) (text : List (α × Nat)) : letters (pattern.cutOut text) = erase pattern.hit 0 (letters text) :=
  erase_map Prod.fst 0 text

theorem letters_zipIdx (text : List α) : letters text.zipIdx = text := List.zipIdx_map_fst 0 text

theorem sorted_zipIdx (text : List α) : Sorted text.zipIdx := by
  have places : (text.zipIdx.map Prod.snd).Pairwise (· < ·) := by
    rw [List.zipIdx_map_snd]
    exact List.pairwise_lt_range'
  exact List.pairwise_map.mp places

theorem sorted_cutOut (pattern : Pattern α) (sorted : Sorted text) : Sorted (pattern.cutOut text) :=
  sorted.sublist (erase_sublist _ _ _)

section Erased
variable {hit : List (α × Nat) → Option Nat}

-- Where the place right behind the last letter is left, no match starts there.
theorem next_missed {c d : α × Nat} {tail : List (α × Nat)} (sorted : Sorted (c :: text)) (left : erase hit 0 text = d :: tail)
    (next : d.2 = c.2 + 1) : hit text = none := by
  cases text with
  | nil => cases left
  | cons e rest =>
    obtain ⟨first,later⟩ := List.pairwise_cons.mp sorted
    cases found : hit (e :: rest) with
    | none => rfl
    | some size =>
      rw [erase_hit found] at left
      have member : d ∈ rest := (erase_sublist hit _ rest).subset (left ▸ List.mem_cons_self)
      have above := (List.pairwise_cons.mp later).1 d member
      have step := first e List.mem_cons_self
      omega

-- Adjacent letters that are left stood in the text in the same way.
theorem erase_adjacent (sorted : Sorted text) (missed : hit text = none) (long : size ≤ (erase hit 0 text).length)
    (adjacent : Adjacent ((erase hit 0 text).take size)) :
    (erase hit 0 text).take size = text.take size ∧ (erase hit 0 text).drop size = erase hit 0 (text.drop size) := by
  induction size generalizing text with
  | zero => exact ⟨rfl,rfl⟩
  | succ size ih =>
    cases text with
    | nil => exact ⟨rfl,rfl⟩
    | cons c rest =>
      rw [erase_miss missed] at long adjacent ⊢
      simp only [List.take_succ_cons,List.drop_succ_cons]
      cases size with
      | zero => exact ⟨rfl,rfl⟩
      | succ size =>
        obtain ⟨d,tail,left⟩ : ∃ d tail, erase hit 0 rest = d :: tail :=
          List.exists_cons_of_length_pos (Nat.lt_of_lt_of_le (Nat.succ_pos size) (Nat.le_of_succ_le_succ long))
        have chain : Adjacent (c :: d :: tail.take size) := by
          rw [left] at adjacent
          exact adjacent
        have next := (List.isChain_cons_cons.mp chain).1
        have inner : Adjacent ((erase hit 0 rest).take (size + 1)) := by
          rw [left]
          exact (List.isChain_cons_cons.mp chain).2
        obtain ⟨same,behind⟩ := ih (List.pairwise_cons.mp sorted).2 (next_missed sorted left next) (Nat.le_of_succ_le_succ long) inner
        exact ⟨congrArg (c :: ·) same,behind⟩

theorem whole_back {skip : Nat} (sorted : Sorted text) (suffix : behind <:+ erase hit skip text) (whole : marker.Whole behind size) :
    ∃ before, before <:+ text ∧ hit before = none ∧ marker.Whole before size ∧ behind.drop size = erase hit 0 (before.drop size) := by
  have full : behind ≠ [] := by
    rintro rfl
    cases marker.sized.nil.symm.trans whole.stands
  obtain ⟨before,there,missed,rfl⟩ := erase_suffix full suffix
  have long := (marker.sized _ _ whole.stands).2
  rw [letters,List.length_map] at long
  obtain ⟨same,rest⟩ := erase_adjacent (sorted.sublist there.sublist) missed long whole.adjacent
  refine ⟨before,there,missed,⟨?_,same ▸ whole.adjacent⟩,rest⟩
  have settled := marker.settled _ _ whole.stands (letters (before.drop size))
  rw [letters,← List.map_take,same,letters,← List.map_append,List.take_append_drop] at settled
  exact settled

theorem pattern_back {skip : Nat} (sorted : Sorted text) (suffix : behind <:+ erase hit skip text) (whole : pattern.Whole behind) :
    ∃ before, before <:+ text ∧ hit before = none ∧ pattern.Whole before := by
  obtain ⟨size,opens,closes⟩ := whole
  obtain ⟨before,there,missed,opened,rest⟩ := whole_back sorted suffix opens
  refine ⟨before,there,missed,size,opened,fun closing member => ?_⟩
  obtain ⟨last,more,inside,ends⟩ := closes closing member
  rw [rest] at inside
  obtain ⟨last',inner,-,ended,-⟩ := whole_back ((sorted.sublist there.sublist).sublist (List.drop_sublist _ _)) inside ends
  exact ⟨last',more,inner,ended⟩

end Erased

theorem whole_hit (whole : pattern.Whole behind) : (pattern.hit (letters behind)).isSome = true := by
  obtain ⟨size,opens,closes⟩ := whole
  unfold Pattern.hit Pattern.read
  rw [Option.isSome_map,opens.stands,Option.bind_some]
  cases last : pattern.closing with
  | none => rfl
  | some closing =>
    obtain ⟨last,more,inside,ends⟩ := closes closing last
    show ((closing.find _).map _).isSome = true
    rw [Option.isSome_map]
    have suffix : letters last <:+ (letters behind).drop size := by
      rw [letters,letters,← List.map_drop]
      exact inside.map _
    exact Marker.find_some suffix (ends.stands ▸ rfl)

-- Nothing of the pattern is left whole, and taking out another one adds nothing.
theorem cutOut_none (sorted : Sorted text) (suffix : behind <:+ pattern.cutOut text) : ¬pattern.Whole behind := by
  intro whole
  obtain ⟨before,-,missed,whole⟩ := pattern_back sorted suffix whole
  have found := whole_hit whole
  rw [missed] at found
  cases found

theorem cutOut_keeps {other : Pattern α} (sorted : Sorted text) (none_ : ∀ behind, behind <:+ text → ¬pattern.Whole behind)
    (suffix : behind <:+ other.cutOut text) : ¬pattern.Whole behind := by
  intro whole
  obtain ⟨before,there,-,whole⟩ := pattern_back sorted suffix whole
  exact none_ before there whole

theorem occurs_joined (none_ : ∀ behind, behind <:+ text → ¬pattern.Whole behind) :
    occurs pattern.hit (letters text) = true ↔ pattern.Joined text := by
  rw [occurs_iff pattern.sized]
  constructor
  · rintro ⟨behind,suffix,found⟩
    obtain ⟨placed,there,rfl⟩ := List.suffix_map_iff.mp suffix
    exact ⟨placed,there,found,none_ placed there⟩
  · rintro ⟨behind,suffix,found,-⟩
    exact ⟨letters behind,suffix.map _,found⟩

end Places

end AlineaCopilot.TextMarkers
