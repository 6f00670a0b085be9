namespace AlineaCopilot.ShellWords

-- A command line as a shell reads it: words apart from each other, each a chain of
-- bare letters, escaped letters and quoted parts. `text` is how it is written,
-- `value` what it stands for. The letters that separate words are a parameter.
def escapable : List Char := ['"','\\','$',Char.ofNat 0x60]

-- Inside double quotes a backslash is an escape before some letters only; before
-- any other it stands for itself.
inductive Inner where
  | plain (c : Char) (free : c ≠ '"' ∧ c ≠ '\\')
  | escaped (c : Char) (known : c ∈ escapable)
  | kept (c : Char) (unknown : c ∉ escapable ∧ c ≠ '\n')

namespace Inner

def text : Inner → List Char
  | plain c _ => [c]
  | escaped c _ | kept c _ => ['\\',c]

def value : Inner → List Char
  | plain c _ | escaped c _ => [c]
  | kept c _ => ['\\',c]

-- What is left when every backslash counts as an escape.
def bared : Inner → List Char
  | plain c _ | escaped c _ | kept c _ => [c]

end Inner

section Words
variable (space : Char → Bool)

inductive Piece where
  | bare (c : Char) (free : space c = false ∧ c ≠ '"' ∧ c ≠ '\'' ∧ c ≠ '\\')
  | escaped (c : Char)
  | single (inner : List Char) (closed : '\'' ∉ inner)
  | double (inner : List Inner)

-- An empty word has to be quoted.
structure Word where
  pieces : List (Piece space)
  written : pieces ≠ []

structure Gap where
  text : List Char
  written : text ≠ []
  blank : ∀ c ∈ text, space c = true

structure Line where
  first : Word space
  rest : List (Gap space × Word space)

-- No end of the quoted part is in sight; the last letter may be a lone backslash.
inductive Unclosed : Char → List Char → Prop where
  | single (open_ : '\'' ∉ letters) : Unclosed '\'' letters
  | double : Unclosed '"' []
  | lone : Unclosed '"' ['\\']
  | plain (free : c ≠ '"' ∧ c ≠ '\\') (rest : Unclosed '"' letters) : Unclosed '"' (c :: letters)
  | escaped (rest : Unclosed '"' letters) : Unclosed '"' ('\\' :: c :: letters)

structure OpenLine where
  words : List (Word space × Gap space)
  pieces : List (Piece space)
  quote : Char
  inner : List Char
  unclosed : Unclosed quote inner

end Words

variable {space : Char → Bool}

namespace Piece

def text : Piece space → List Char
  | bare c _ => [c]
  | escaped c => ['\\',c]
  | single inner _ => '\'' :: inner ++ ['\'']
  | double inner => '"' :: inner.flatMap Inner.text ++ ['"']

def value : Piece space → List Char
  | bare c _ | escaped c => [c]
  | single inner _ => inner
  | double inner => inner.flatMap Inner.value

def bared : Piece space → List Char
  | bare c _ | escaped c => [c]
  | single inner _ => inner
  | double inner => inner.flatMap Inner.bared

-- A backslash in double quotes that the reader is to keep.
def keeps : Piece space → Bool
  | double inner => inner.any fun
    | .kept _ _ => true
    | _ => false
  | _ => false

def blank : Piece space → Bool
  | escaped c => space c
  | _ => false

end Piece

namespace Word

def text (word : Word space) : List Char := word.pieces.flatMap Piece.text

def value (word : Word space) : List Char := word.pieces.flatMap Piece.value

def keeps (word : Word space) : Bool := word.pieces.any Piece.keeps

-- The word ends in an escaped separator.
def blank (word : Word space) : Bool := (word.pieces.getLast word.written).blank

def cut (word : Word space) : List (Piece space) := if word.blank then word.pieces.dropLast else word.pieces

end Word

-- What is read of each word when the separators at the end of the line are cut off
-- first, the escaped ones too.
def left (f : Piece space → List Char) : List (Word space) → List (List Char)
  | [] => []
  | [word] => [word.cut.flatMap f]
  | word :: next :: rest => word.pieces.flatMap f :: left f (next :: rest)

namespace Line

def words (line : Line space) : List (Word space) := line.first :: line.rest.map Prod.snd

def text (line : Line space) : List Char :=
  line.first.text ++ line.rest.flatMap fun next => next.1.text ++ next.2.text

def last (line : Line space) : Word space := line.words.getLast (List.cons_ne_nil _ _)

end Line

def OpenLine.text (line : OpenLine space) : List Char :=
  (line.words.flatMap fun next => next.1.text ++ next.2.text) ++ line.pieces.flatMap Piece.text ++ line.quote :: line.inner

section Facts

theorem Inner.bared_short (inner : Inner) : inner.bared.length ≤ inner.value.length := by
  cases inner <;> simp [Inner.bared,Inner.value]

theorem Inner.bared_some (inner : Inner) : inner.bared ≠ [] ∧ inner.value ≠ [] := by
  cases inner <;> simp [Inner.bared,Inner.value]

theorem Piece.bared_short (piece : Piece space) : piece.bared.length ≤ piece.value.length := by
  cases piece with
  | bare c free | escaped c | single inner closed => exact Nat.le_refl _
  | double inner =>
    simp only [Piece.bared,Piece.value]
    induction inner with
    | nil => exact Nat.le_refl _
    | cons head rest ih =>
      have short := head.bared_short
      simp only [List.flatMap_cons,List.length_append]
      omega

theorem Piece.bared_keeps (piece : Piece space) :
    piece.keeps = false ∧ piece.bared = piece.value ∨ piece.keeps = true ∧ piece.bared.length < piece.value.length := by
  cases piece with
  | bare c free | escaped c | single inner closed => exact .inl ⟨rfl,rfl⟩
  | double inner =>
    simp only [Piece.bared,Piece.value,Piece.keeps]
    induction inner with
    | nil => exact .inl ⟨rfl,rfl⟩
    | cons head rest ih =>
      have short : (rest.flatMap Inner.bared).length ≤ (rest.flatMap Inner.value).length :=
        (Piece.double rest : Piece space).bared_short
      cases head with
      | plain c free | escaped c known =>
        rcases ih with ⟨none_,same⟩ | ⟨some_,less⟩
        · refine .inl ⟨by simpa using none_,?_⟩
          simp [Inner.bared,Inner.value,same]
        · refine .inr ⟨by simpa using some_,?_⟩
          simp only [List.flatMap_cons,List.length_append,Inner.bared,Inner.value]
          omega
      | kept c unknown =>
        refine .inr ⟨by simp,?_⟩
        simp only [List.flatMap_cons,List.length_append,Inner.bared,Inner.value,List.length_cons,List.length_nil]
        omega

theorem Piece.bared_nil (piece : Piece space) : piece.bared = [] ↔ piece.value = [] := by
  cases piece with
  | bare c free | escaped c | single inner closed => exact Iff.rfl
  | double inner =>
    simp only [Piece.bared,Piece.value,List.flatMap_eq_nil_iff]
    constructor
    · exact fun empty part inside => absurd (empty part inside) part.bared_some.1
    · exact fun empty part inside => absurd (empty part inside) part.bared_some.2

theorem bared_nil_iff (pieces : List (Piece space)) : pieces.flatMap Piece.bared = [] ↔ pieces.flatMap Piece.value = [] := by
  simp only [List.flatMap_eq_nil_iff,Piece.bared_nil]

theorem bared_shorter (pieces : List (Piece space)) :
    (pieces.flatMap Piece.bared).length ≤ (pieces.flatMap Piece.value).length := by
  induction pieces with
  | nil => exact Nat.le_refl _
  | cons head rest ih =>
    have short := head.bared_short
    simp only [List.flatMap_cons,List.length_append]
    omega

theorem bared_iff (pieces : List (Piece space)) :
    pieces.flatMap Piece.bared = pieces.flatMap Piece.value ↔ pieces.any Piece.keeps = false := by
  induction pieces with
  | nil => simp
  | cons head rest ih =>
    have short := bared_shorter rest
    simp only [List.flatMap_cons,List.any_cons]
    rcases head.bared_keeps with ⟨none_,same⟩ | ⟨some_,less⟩
    · simp [same,none_,ih]
    · simp only [some_,Bool.true_or,Bool.true_eq_false,iff_false]
      intro equal
      have length := congrArg List.length equal
      simp only [List.length_append] at length
      omega

-- A word of which the last letter is gone is not read as a whole.
theorem Word.cut_iff (word : Word space) :
    word.cut.flatMap Piece.bared = word.value ↔ word.keeps = false ∧ word.blank = false := by
  unfold Word.cut Word.value Word.keeps
  cases blank : word.blank with
  | false => simpa using bared_iff word.pieces
  | true =>
    simp only [if_true,Bool.true_eq_false,and_false,iff_false]
    intro equal
    have whole := List.dropLast_concat_getLast word.written
    have length := congrArg List.length equal
    have short := bared_shorter word.pieces.dropLast
    rw [← whole,List.flatMap_append,List.length_append] at length
    have letter : (word.pieces.getLast word.written).value.length = 1 := by
      unfold Word.blank at blank
      cases last : word.pieces.getLast word.written with
      | escaped c => rfl
      | bare c free | single inner closed | double inner =>
        rw [last] at blank
        cases blank
    simp only [List.flatMap_cons,List.flatMap_nil,List.append_nil,letter] at length
    rw [List.dropLast_concat_getLast] at length
    omega

theorem left_length (f : Piece space → List Char) (words : List (Word space)) : (left f words).length = words.length := by
  fun_induction left f words with
  | case1 | case2 word => rfl
  | case3 word next rest ih => simp [ih]

theorem left_iff (words : List (Word space)) (written : words ≠ []) :
    left Piece.bared words = words.map Word.value ↔
      (∀ word ∈ words, word.keeps = false) ∧ (words.getLast written).blank = false := by
  fun_induction left Piece.bared words with
  | case1 => exact absurd rfl written
  | case2 word => simpa using word.cut_iff
  | case3 word next rest ih =>
    simp only [List.map_cons,List.cons.injEq] at ih ⊢
    rw [ih (List.cons_ne_nil _ _),List.getLast_cons (List.cons_ne_nil _ _)]
    have first := bared_iff word.pieces
    simp only [List.forall_mem_cons (a := word),Word.keeps,Word.value,first,and_assoc]

-- Nothing is read of a word if and only if nothing is left of it.
theorem left_nonempty (words : List (Word space)) :
    ((left Piece.bared words).filter (· ≠ [])).length = ((left Piece.value words).filter (· ≠ [])).length := by
  fun_induction left Piece.bared words with
  | case1 => rfl
  | case2 word => simp only [left,List.filter_cons,ne_eq,bared_nil_iff]; split <;> rfl
  | case3 word next rest ih =>
    simp only [left,List.filter_cons,ne_eq,bared_nil_iff] at ih ⊢
    split
    · simp only [List.length_cons,ih]
    · exact ih

theorem Unclosed.before {quote : Char} {text : List Char} (unclosed : Unclosed quote text) :
    ∀ {inner after : List Char}, text = inner ++ after → Unclosed quote inner := by
  induction unclosed with
  | single open_ =>
    rintro inner after rfl
    exact .single fun inside => open_ (List.mem_append_left _ inside)
  | double =>
    intro inner after whole
    obtain ⟨rfl,_⟩ := List.append_eq_nil_iff.mp whole.symm
    exact .double
  | lone =>
    intro inner after whole
    match inner with
    | [] => exact .double
    | [c] =>
      cases (List.cons.inj whole).1
      exact .lone
    | c :: d :: rest => cases (List.cons.inj whole).2
  | plain free rest ih =>
    intro inner after whole
    match inner with
    | [] => exact .double
    | c :: tail =>
      rw [← (List.cons.inj whole).1]
      exact .plain free (ih (List.cons.inj whole).2)
  | escaped rest ih =>
    intro inner after whole
    match inner with
    | [] => exact .double
    | [c] =>
      rw [← (List.cons.inj whole).1]
      exact .lone
    | c :: d :: tail =>
      rw [← (List.cons.inj whole).1]
      exact .escaped (ih (List.cons.inj (List.cons.inj whole).2).2)

end Facts

end AlineaCopilot.ShellWords
