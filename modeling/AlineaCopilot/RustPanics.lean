import Mathlib.Algebra.Ring.Int.Defs
import Mathlib.Algebra.Ring.Nat
import Mathlib.Data.List.Basic

namespace AlineaCopilot.RustPanics

-- Why a thread unwinds. Integer arithmetic is the one of a debug build, where an
-- overflow is not silent.
inductive Panic where
  | slice
  | index
  | unwrap
  | capacity
  | arithmetic
deriving DecidableEq, Repr

abbrev Checked (α : Type) := Except Panic α

-- The call comes back to its caller.
def Returns (x : Checked α) : Prop := ∃ v, x = .ok v

section Returning
variable {x : Checked α} {f : α → Checked β} {v : α} {p : Panic}

@[simp] theorem returns_ok : Returns (.ok v : Checked α) := ⟨v,rfl⟩

@[simp] theorem returns_pure : Returns (pure v : Checked α) := ⟨v,rfl⟩

@[simp] theorem not_returns_error : ¬Returns (.error p : Checked α) := by
  intro ⟨_,returned⟩
  cases returned

theorem returns_bind : Returns (x >>= f) ↔ ∃ v, x = .ok v ∧ Returns (f v) := by
  cases x with
  | ok v => exact ⟨fun returned => ⟨v,rfl,returned⟩,fun ⟨w,same,returned⟩ => by cases same; exact returned⟩
  | error p =>
    constructor
    · exact fun returned => absurd returned not_returns_error
    · intro ⟨_,same,_⟩
      cases same

-- A call whose result does not decide whether the rest returns.
theorem returns_then {q : Prop} (rest : ∀ v, x = .ok v → (Returns (f v) ↔ q)) : Returns (x >>= f) ↔ Returns x ∧ q := by
  rw [returns_bind]
  constructor
  · intro ⟨v,same,returned⟩
    exact ⟨⟨v,same⟩,(rest v same).mp returned⟩
  · intro ⟨⟨v,same⟩,holds⟩
    exact ⟨v,same,(rest v same).mpr holds⟩

theorem returns_bind_pure {g : α → β} : Returns (x >>= fun v => pure (g v)) ↔ Returns x :=
  (returns_then fun _ _ => iff_of_true returns_pure trivial).trans (and_iff_left trivial)

theorem returns_ite {c : Prop} [Decidable c] {y : Checked α} :
    Returns (if c then x else y) ↔ (c → Returns x) ∧ (¬c → Returns y) := by
  by_cases holds : c <;> simp [holds]

theorem returns_mapM {f : α → Checked β} (xs : List α) : Returns (xs.mapM f) ↔ ∀ x ∈ xs, Returns (f x) := by
  induction xs with
  | nil => simp
  | cons head rest ih =>
    rw [List.mapM_cons,List.forall_mem_cons,← ih]
    exact returns_then fun _ _ => returns_bind_pure

end Returning

section Text

def byteLen (text : List Char) : Nat := (text.map Char.utf8Size).sum

-- A text cut behind its first `n` bytes, unless these end within a character.
def splitBytes : List Char → Nat → Option (List Char × List Char)
  | text,0 => some ([],text)
  | [],_ + 1 => none
  | c :: rest,n + 1 =>
    if c.utf8Size ≤ n + 1 then (splitBytes rest (n + 1 - c.utf8Size)).map fun sides => (c :: sides.1,sides.2) else none

-- `str::is_char_boundary`
def isCharBoundary (text : String) (n : Nat) : Bool := (splitBytes text.toList n).isSome

theorem splitBytes_sound {text : List Char} {n : Nat} {sides : List Char × List Char} (cut : splitBytes text n = some sides) :
    text = sides.1 ++ sides.2 ∧ byteLen sides.1 = n := by
  fun_induction splitBytes text n generalizing sides with
  | case1 text =>
    cases cut
    exact ⟨rfl,rfl⟩
  | case2 n => cases cut
  | case3 c rest n fits ih =>
    obtain ⟨before,there,rfl⟩ := Option.map_eq_some_iff.mp cut
    obtain ⟨whole,size⟩ := ih there
    refine ⟨by rw [List.cons_append,← whole],?_⟩
    unfold byteLen at size ⊢
    rw [List.map_cons,List.sum_cons,size]
    omega
  | case4 c rest n fits => cases cut

theorem byteLen_append (before after : List Char) : byteLen (before ++ after) = byteLen before + byteLen after := by
  unfold byteLen
  rw [List.map_append,List.sum_append]

-- A cut behind a first part of a text is a cut of the rest.
theorem splitBytes_skip (before after : List Char) (n : Nat) : splitBytes (before ++ after) (byteLen before + n) =
    (splitBytes after n).map fun sides => (before ++ sides.1,sides.2) := by
  induction before with
  | nil => simp [byteLen]
  | cons c rest ih =>
    have size : byteLen (c :: rest) + n = byteLen rest + n + (c.utf8Size - 1) + 1 := by
      have positive := c.utf8Size_pos
      unfold byteLen
      rw [List.map_cons,List.sum_cons]
      omega
    have left : byteLen rest + n + (c.utf8Size - 1) + 1 - c.utf8Size = byteLen rest + n := by
      have positive := c.utf8Size_pos
      omega
    rw [size,List.cons_append,splitBytes,if_pos (by omega),left,ih,Option.map_map]
    rfl

theorem splitBytes_append (before after : List Char) : splitBytes (before ++ after) (byteLen before) = some (before,after) := by
  have skipped := splitBytes_skip before after 0
  cases after <;> simpa [splitBytes] using skipped

theorem isCharBoundary_iff {text : String} {n : Nat} :
    isCharBoundary text n = true ↔ ∃ before after, text.toList = before ++ after ∧ byteLen before = n := by
  unfold isCharBoundary
  rw [Option.isSome_iff_exists]
  constructor
  · intro ⟨sides,cut⟩
    obtain ⟨whole,size⟩ := splitBytes_sound cut
    exact ⟨sides.1,sides.2,whole,size⟩
  · rintro ⟨before,after,whole,rfl⟩
    exact ⟨(before,after),by rw [whole,splitBytes_append]⟩

theorem byteLen_ascii {text : List Char} (ascii : ∀ c ∈ text, c.utf8Size = 1) : byteLen text = text.length := by
  induction text with
  | nil => rfl
  | cons c rest ih =>
    have size := ih fun c inside => ascii c (List.mem_cons_of_mem _ inside)
    unfold byteLen at size ⊢
    rw [List.map_cons,List.sum_cons,size,ascii c List.mem_cons_self,List.length_cons]
    omega

theorem byteLen_replicate {c : Char} (ascii : c.utf8Size = 1) (n : Nat) : byteLen (List.replicate n c) = n := by
  refine (byteLen_ascii fun d inside => ?_).trans List.length_replicate
  rw [List.eq_of_mem_replicate inside]
  exact ascii

-- Every place in a text of one-byte characters is a boundary.
theorem isCharBoundary_ascii {text : String} (ascii : ∀ c ∈ text.toList, c.utf8Size = 1) {n : Nat} (inside : n ≤ text.toList.length) :
    isCharBoundary text n = true := by
  refine isCharBoundary_iff.mpr ⟨text.toList.take n,text.toList.drop n,(List.take_append_drop _ _).symm,?_⟩
  rw [byteLen_ascii fun c found => ascii c (List.mem_of_mem_take found),List.length_take]
  omega

-- `&text[..n]` and `&text[n..]`
def sliceTo (text : String) (n : Nat) : Checked String :=
  match splitBytes text.toList n with
  | some sides => .ok (String.ofList sides.1)
  | none => .error .slice

def sliceFrom (text : String) (n : Nat) : Checked String :=
  match splitBytes text.toList n with
  | some sides => .ok (String.ofList sides.2)
  | none => .error .slice

-- A place within a character is no boundary.
theorem sliceTo_within {text : String} {before after : List Char} {c : Char} {n : Nat} (whole : text.toList = before ++ c :: after)
    (start : byteLen before < n) (stop : n < byteLen before + c.utf8Size) : sliceTo text n = .error .slice := by
  obtain ⟨k,rfl⟩ : ∃ k, n = byteLen before + (k + 1) := ⟨n - byteLen before - 1,by omega⟩
  unfold sliceTo
  rw [whole,splitBytes_skip,splitBytes,if_neg (by omega)]
  rfl

theorem returns_sliceTo {text : String} {n : Nat} : Returns (sliceTo text n) ↔ isCharBoundary text n = true := by
  unfold sliceTo isCharBoundary
  cases splitBytes text.toList n <;> simp

theorem returns_sliceFrom {text : String} {n : Nat} : Returns (sliceFrom text n) ↔ isCharBoundary text n = true := by
  unfold sliceFrom isCharBoundary
  cases splitBytes text.toList n <;> simp

end Text

section Vectors

def index (xs : List α) (i : Nat) : Checked α :=
  match xs[i]? with
  | some x => .ok x
  | none => .error .index

theorem returns_index {xs : List α} {i : Nat} : Returns (index xs i) ↔ i < xs.length := by
  unfold index
  cases there : xs[i]? with
  | some x => exact iff_of_true returns_ok (List.getElem?_eq_some_iff.mp there).1
  | none => exact iff_of_false not_returns_error (Nat.not_lt.mpr (List.getElem?_eq_none_iff.mp there))

def unwrap : Option α → Checked α
  | some x => .ok x
  | none => .error .unwrap

theorem returns_unwrap {x : Option α} : Returns (unwrap x) ↔ x.isSome = true := by
  cases x <;> simp [unwrap]

def isizeMax : Nat := 2 ^ 63 - 1

end Vectors

section Arithmetic

def addI64 (a b : Int64) : Checked Int64 :=
  if -2 ^ 63 ≤ a.toInt + b.toInt ∧ a.toInt + b.toInt < 2 ^ 63 then .ok (a + b) else .error .arithmetic

def mulI32 (a b : Int32) : Checked Int32 :=
  if -2 ^ 31 ≤ a.toInt * b.toInt ∧ a.toInt * b.toInt < 2 ^ 31 then .ok (a * b) else .error .arithmetic

def divI64 (a b : Int64) : Checked Int64 :=
  if b = 0 ∨ a = Int64.minValue ∧ b = -1 then .error .arithmetic else .ok (a / b)

def subUsize (a b : Nat) : Checked Nat := if b ≤ a then .ok (a - b) else .error .arithmetic

theorem returns_addI64 {a b : Int64} : Returns (addI64 a b) ↔ -2 ^ 63 ≤ a.toInt + b.toInt ∧ a.toInt + b.toInt < 2 ^ 63 := by
  unfold addI64
  split <;> simp_all

theorem returns_mulI32 {a b : Int32} : Returns (mulI32 a b) ↔ -2 ^ 31 ≤ a.toInt * b.toInt ∧ a.toInt * b.toInt < 2 ^ 31 := by
  unfold mulI32
  split <;> simp_all

theorem returns_subUsize {a b : Nat} : Returns (subUsize a b) ↔ b ≤ a := by
  unfold subUsize
  split <;> simp_all

-- A monotonic instant in nanoseconds; its seconds are a signed 64-bit number.
abbrev Instant := Nat

-- `Instant + Duration::from_secs`
def Instant.addSecs (now : Instant) (secs : UInt64) : Checked Instant :=
  if now / 10 ^ 9 + secs.toNat < 2 ^ 63 then .ok (now + secs.toNat * 10 ^ 9) else .error .arithmetic

theorem returns_addSecs {now : Instant} {secs : UInt64} : Returns (now.addSecs secs) ↔ now / 10 ^ 9 + secs.toNat < 2 ^ 63 := by
  unfold Instant.addSecs
  split <;> simp_all

end Arithmetic

end AlineaCopilot.RustPanics
