namespace AlineaCopilot.JsonComments

-- The surface of a JSON text with comments: string literals, comments outside of
-- them, and any other letter. What JSON puts between its strings never holds a
-- quotation mark or a slash.
inductive Item where
  | plain (c : Char) (free : c ≠ '"' ∧ c ≠ '\\')
  | escaped (c : Char)

def Item.text : Item → List Char
  | plain c _ => [c]
  | escaped c => ['\\',c]

-- A block comment ends at the first `*/`.
def NoEnd : List Char → Prop
  | '*' :: '/' :: _ => False
  | _ :: rest => NoEnd rest
  | [] => True

inductive Part where
  | letter (c : Char) (free : c ≠ '"' ∧ c ≠ '/')
  | string (items : List Item)
  | line (comment : List Char) (free : '\n' ∉ comment)
  | block (comment : List Char) (free : NoEnd comment)

namespace Part

def text : Part → List Char
  | letter c _ => [c]
  | string items => '"' :: items.flatMap Item.text ++ ['"']
  | line comment _ => '/' :: '/' :: comment ++ ['\n']
  | block comment _ => '/' :: '*' :: comment ++ ['*','/']

-- A line comment leaves the end of its line.
def plain : Part → List Char
  | letter c _ => [c]
  | string items => '"' :: items.flatMap Item.text ++ ['"']
  | line _ _ => ['\n']
  | block _ _ => []

def comment : Part → Bool
  | line _ _ | block _ _ => true
  | _ => false

end Part

-- The last line may be a comment that no new line ends.
structure Document where
  parts : List Part
  last : Option { comment : List Char // '\n' ∉ comment }

namespace Document

def text (doc : Document) : List Char :=
  doc.parts.flatMap Part.text ++ (doc.last.map fun comment => '/' :: '/' :: comment.1).getD []

def plain (doc : Document) : List Char := doc.parts.flatMap Part.plain

def commented (doc : Document) : Bool := doc.parts.any Part.comment || doc.last.isSome

theorem text_plain {doc : Document} (free : doc.commented = false) : doc.text = doc.plain := by
  obtain ⟨parts,last⟩ := doc
  simp only [commented,Bool.or_eq_false_iff,Option.isSome_eq_false_iff,Option.isNone_iff_eq_none] at free
  obtain ⟨free,rfl⟩ := free
  simp only [text,plain,Option.map_none,Option.getD_none,List.append_nil]
  induction parts with
  | nil => rfl
  | cons head rest ih =>
    rw [List.any_cons,Bool.or_eq_false_iff] at free
    rw [List.flatMap_cons,List.flatMap_cons,ih free.2]
    cases head with
    | letter c _ | string items => rfl
    | line comment _ | block comment _ => cases free.1

end Document

section Utf8

def ascii (c : Char) : Bool := c.toNat < 0x80

def bytes (text : List Char) : List UInt8 := text.flatMap String.utf8EncodeChar

theorem bytes_append (before after : List Char) : bytes (before ++ after) = bytes before ++ bytes after :=
  List.flatMap_append

theorem encode_ascii (low : ascii c = true) : String.utf8EncodeChar c = [UInt8.ofNat c.toNat] := by
  have low : c.val.toNat ≤ 0x7f := Nat.le_of_lt_succ (of_decide_eq_true low)
  unfold String.utf8EncodeChar
  simp only [low,if_true]
  rfl

-- A letter outside of ASCII takes several bytes, none of which is an ASCII letter.
theorem encode_high (high : ascii c = false) :
    1 < (String.utf8EncodeChar c).length ∧ ∀ b ∈ String.utf8EncodeChar c, 0x80 ≤ b.toNat := by
  have high : ¬c.val.toNat ≤ 0x7f := by
    have := of_decide_eq_false high
    show ¬c.toNat ≤ 0x7f
    omega
  have byte : ∀ n, 0x80 ≤ n → n < 256 → 0x80 ≤ (UInt8.ofNat n).toNat := by
    intro n low small
    rw [UInt8.toNat_ofNat',Nat.mod_eq_of_lt small]
    exact low
  unfold String.utf8EncodeChar
  simp only [high,if_false]
  split
  · refine ⟨by simp,?_⟩
    simp only [List.forall_mem_cons,List.not_mem_nil,false_imp_iff,implies_true,and_true]
    exact ⟨byte _ (by omega) (by omega),byte _ (by omega) (by omega)⟩
  · split
    · refine ⟨by simp,?_⟩
      simp only [List.forall_mem_cons,List.not_mem_nil,false_imp_iff,implies_true,and_true]
      exact ⟨byte _ (by omega) (by omega),byte _ (by omega) (by omega),byte _ (by omega) (by omega)⟩
    · refine ⟨by simp,?_⟩
      simp only [List.forall_mem_cons,List.not_mem_nil,false_imp_iff,implies_true,and_true]
      exact ⟨byte _ (by omega) (by omega),byte _ (by omega) (by omega),byte _ (by omega) (by omega),byte _ (by omega) (by omega)⟩

-- Reading every byte as a letter of its own.
def letters (text : List Char) : List Char := (bytes text).map fun b => Char.ofNat b.toNat

theorem letters_append (before after : List Char) : letters (before ++ after) = letters before ++ letters after := by
  rw [letters,bytes_append,List.map_append]
  rfl

theorem letters_ascii (low : ascii c = true) : letters [c] = [c] := by
  rw [letters,bytes,List.flatMap_singleton,encode_ascii low]
  have low : c.toNat < 0x80 := of_decide_eq_true low
  rw [List.map_singleton,UInt8.toNat_ofNat',Nat.mod_eq_of_lt (by omega),Char.ofNat_toNat]

theorem letters_longer (text : List Char) : text.length ≤ (letters text).length := by
  induction text with
  | nil => exact Nat.le_refl _
  | cons c rest ih =>
    rw [show c :: rest = [c] ++ rest from rfl,letters_append,List.length_append,List.length_append]
    have one : 1 ≤ (letters [c]).length := by
      cases low : ascii c with
      | true => rw [letters_ascii low]; exact Nat.le_refl _
      | false =>
        rw [letters,List.length_map,bytes,List.flatMap_singleton]
        exact Nat.le_of_lt (encode_high low).1
    simp only [List.length_singleton]
    omega

-- It gives the text back if and only if the text is ASCII.
theorem letters_iff (text : List Char) : letters text = text ↔ text.all ascii = true := by
  induction text with
  | nil => simp [letters,bytes]
  | cons c rest ih =>
    rw [show c :: rest = [c] ++ rest from rfl,letters_append]
    cases low : ascii c with
    | true =>
      rw [letters_ascii low,List.append_cancel_left_eq,ih]
      simp [low]
    | false =>
      simp only [List.all_append,List.all_cons,low,Bool.false_and,Bool.false_eq_true,iff_false]
      intro equal
      have length := congrArg List.length equal
      have longer := letters_longer rest
      have more : 1 < (letters [c]).length := by
        rw [letters,List.length_map,bytes,List.flatMap_singleton]
        exact (encode_high low).1
      simp only [List.length_append,List.length_singleton] at length
      omega

end Utf8

end AlineaCopilot.JsonComments
