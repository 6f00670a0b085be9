import AlineaCopilot.JsonComments
open AlineaCopilot.JsonComments

namespace AlineaCopilot.Opencode

-- Where the scanner stands; `b as char` makes a letter of every byte.
inductive Mode where
  | plain
  | string
  | line
  | block

def asChar (b : UInt8) : Char := Char.ofNat b.toNat

def strip : Mode → List UInt8 → List Char
  | _,[] => []
  | .plain,[b] => [asChar b]
  | .plain,b :: next :: rest =>
    if b = 0x22 then '"' :: strip .string (next :: rest)
    else if b = 0x2F ∧ next = 0x2F then strip .line rest
    else if b = 0x2F ∧ next = 0x2A then strip .block rest
    else asChar b :: strip .plain (next :: rest)
  -- A backslash is an escape only where something follows it.
  | .string,[b] => [asChar b]
  | .string,b :: next :: rest =>
    if b = 0x5C then asChar b :: asChar next :: strip .string rest
    else if b = 0x22 then '"' :: strip .plain (next :: rest)
    else asChar b :: strip .string (next :: rest)
  | .line,b :: rest => if b = 0x0A then asChar b :: strip .plain rest else strip .line rest
  -- The loop stops before the last byte, which is then read outside of the comment.
  | .block,[b] => [asChar b]
  | .block,b :: next :: rest => if b = 0x2A ∧ next = 0x2F then strip .plain rest else strip .block (next :: rest)

def stripJsonComments (input : String) : String := String.ofList (strip .plain (bytes input.toList))

section Scanning
variable {b next : UInt8} {rest bs : List UInt8}

-- One step of the loop in each mode.
theorem strip_plain_next : strip .plain (b :: next :: rest) =
    if b = 0x22 then '"' :: strip .string (next :: rest)
    else if b = 0x2F ∧ next = 0x2F then strip .line rest
    else if b = 0x2F ∧ next = 0x2A then strip .block rest
    else asChar b :: strip .plain (next :: rest) := rfl

theorem strip_string_next : strip .string (b :: next :: rest) =
    if b = 0x5C then asChar b :: asChar next :: strip .string rest
    else if b = 0x22 then '"' :: strip .plain (next :: rest)
    else asChar b :: strip .string (next :: rest) := rfl

theorem strip_line_next : strip .line (b :: rest) = if b = 0x0A then asChar b :: strip .plain rest else strip .line rest := by
  cases rest <;> rfl

theorem strip_block_next : strip .block (b :: next :: rest) =
    if b = 0x2A ∧ next = 0x2F then strip .plain rest else strip .block (next :: rest) := rfl

theorem strip_plain (free : b ≠ 0x22 ∧ b ≠ 0x2F) : strip .plain (b :: rest) = asChar b :: strip .plain rest := by
  cases rest with
  | nil => rfl
  | cons next rest => rw [strip_plain_next,if_neg free.1,if_neg fun same => free.2 same.1,if_neg fun same => free.2 same.1]

theorem strip_opens : strip .plain (0x22 :: rest) = '"' :: strip .string rest := by
  cases rest with
  | nil => rfl
  | cons next rest => rw [strip_plain_next,if_pos rfl]

theorem strip_line_opens : strip .plain (0x2F :: 0x2F :: rest) = strip .line rest := by
  rw [strip_plain_next,if_neg (by decide),if_pos ⟨rfl,rfl⟩]

theorem strip_block_opens : strip .plain (0x2F :: 0x2A :: rest) = strip .block rest := by
  rw [strip_plain_next,if_neg (by decide),if_neg (by decide),if_pos ⟨rfl,rfl⟩]

theorem strip_string (free : b ≠ 0x22 ∧ b ≠ 0x5C) : strip .string (b :: rest) = asChar b :: strip .string rest := by
  cases rest with
  | nil => rfl
  | cons next rest => rw [strip_string_next,if_neg free.2,if_neg free.1]

theorem strip_closes : strip .string (0x22 :: rest) = '"' :: strip .plain rest := by
  cases rest with
  | nil => rfl
  | cons next rest => rw [strip_string_next,if_neg (by decide),if_pos rfl]

theorem strip_escaped : strip .string (0x5C :: next :: rest) = '\\' :: asChar next :: strip .string rest := by
  rw [strip_string_next,if_pos rfl]
  rfl

theorem strip_block_skips (other : ¬(b = 0x2A ∧ next = 0x2F)) : strip .block (b :: next :: rest) = strip .block (next :: rest) := by
  rw [strip_block_next,if_neg other]

theorem strip_plains (free : ∀ b ∈ bs, b ≠ 0x22 ∧ b ≠ 0x2F) : strip .plain (bs ++ rest) = bs.map asChar ++ strip .plain rest := by
  induction bs with
  | nil => rfl
  | cons head tail ih =>
    rw [List.forall_mem_cons] at free
    rw [List.cons_append,strip_plain free.1,ih free.2]
    rfl

theorem strip_strings (free : ∀ b ∈ bs, b ≠ 0x22 ∧ b ≠ 0x5C) : strip .string (bs ++ rest) = bs.map asChar ++ strip .string rest := by
  induction bs with
  | nil => rfl
  | cons head tail ih =>
    rw [List.forall_mem_cons] at free
    rw [List.cons_append,strip_string free.1,ih free.2]
    rfl

theorem strip_lines (free : ∀ b ∈ bs, b ≠ 0x0A) : strip .line (bs ++ rest) = strip .line rest := by
  induction bs with
  | nil => rfl
  | cons head tail ih =>
    rw [List.forall_mem_cons] at free
    rw [List.cons_append,strip_line_next,if_neg free.1,ih free.2]

-- A letter has the byte of an ASCII letter only if it is that letter.
theorem encode_free {c d : Char} (low : ascii d = true) (other : c ≠ d) :
    ∀ b ∈ String.utf8EncodeChar c, b ≠ UInt8.ofNat d.toNat := by
  intro b inside same
  have small : d.toNat < 0x80 := of_decide_eq_true low
  cases kind : ascii c with
  | true =>
    have small' : c.toNat < 0x80 := of_decide_eq_true kind
    rw [encode_ascii kind,List.mem_singleton] at inside
    have equal := congrArg UInt8.toNat (inside.symm.trans same)
    rw [UInt8.toNat_ofNat',UInt8.toNat_ofNat',Nat.mod_eq_of_lt (by omega),Nat.mod_eq_of_lt (by omega)] at equal
    exact other (Char.toNat_inj.mp equal)
  | false =>
    have high := (encode_high kind).2 b inside
    rw [same,UInt8.toNat_ofNat',Nat.mod_eq_of_lt (by omega)] at high
    omega

theorem letters_cons (c : Char) (text : List Char) : letters (c :: text) = (String.utf8EncodeChar c).map asChar ++ letters text := by
  rw [letters,bytes,List.flatMap_cons,List.map_append]
  rfl

theorem strip_item (item : Item) : strip .string (bytes item.text ++ rest) = letters item.text ++ strip .string rest := by
  cases item with
  | plain c free =>
    rw [Item.text,letters_cons,bytes,List.flatMap_singleton,strip_strings]
    · simp [letters,bytes]
    · exact fun b inside => ⟨encode_free (d := '"') rfl free.1 b inside,encode_free (d := '\\') rfl free.2 b inside⟩
  | escaped c =>
    rw [Item.text,letters_cons,letters_cons,bytes,List.flatMap_cons,List.flatMap_singleton,encode_ascii (c := '\\') rfl]
    cases kind : ascii c with
    | true =>
      rw [encode_ascii kind]
      exact strip_escaped
    | false =>
      obtain ⟨many,high⟩ := encode_high kind
      cases encoded : String.utf8EncodeChar c with
      | nil =>
        rw [encoded] at many
        cases many
      | cons first tail =>
        rw [encoded] at high
        have free : ∀ b ∈ tail, b ≠ 0x22 ∧ b ≠ 0x5C := by
          intro b inside
          have large := high b (List.mem_cons_of_mem _ inside)
          constructor
          · rintro rfl
            exact absurd large (by decide)
          · rintro rfl
            exact absurd large (by decide)
        have scanned : strip .string (tail ++ rest) = tail.map asChar ++ strip .string rest := strip_strings free
        show strip .string (0x5C :: first :: (tail ++ rest)) = _
        rw [strip_escaped,scanned]
        simp [letters,bytes]
        rfl

theorem strip_items (items : List Item) :
    strip .string (bytes (items.flatMap Item.text) ++ rest) = letters (items.flatMap Item.text) ++ strip .string rest := by
  induction items with
  | nil => rfl
  | cons head tail ih =>
    rw [List.flatMap_cons,bytes_append,List.append_assoc,strip_item,ih,letters_append,List.append_assoc]

theorem strip_comment_line {comment : List Char} (free : '\n' ∉ comment) : strip .line (bytes comment ++ rest) = strip .line rest := by
  refine strip_lines fun b inside => ?_
  obtain ⟨c,member,encoded⟩ := List.mem_flatMap.mp inside
  exact encode_free (d := '\n') rfl (fun same => free (same ▸ member)) b encoded

theorem noEnd_tail {c : Char} {tail : List Char} (free : NoEnd (c :: tail)) : NoEnd tail ∧ (c = '*' → ∀ d rest, tail = d :: rest → d ≠ '/') := by
  unfold NoEnd at free
  split at free
  · exact free.elim
  · rename_i other whole
    cases whole
    refine ⟨free,?_⟩
    rintro rfl d rest rfl rfl
    exact other _ rfl rfl
  · rename_i whole
    cases whole

-- No byte but the two of the end can end the comment.
theorem strip_bytes {bs : List UInt8} (free : ∀ b ∈ bs, b ≠ 0x2A) (some_ : rest ≠ []) :
    strip .block (bs ++ rest) = strip .block rest := by
  induction bs with
  | nil => rfl
  | cons head tail ih =>
    rw [List.forall_mem_cons] at free
    rw [List.cons_append]
    obtain ⟨next,after,whole⟩ := List.exists_cons_of_ne_nil (List.append_ne_nil_of_right_ne_nil tail some_)
    rw [whole,strip_block_skips fun same => free.1 same.1,← whole]
    exact ih free.2

theorem strip_comment_block {comment : List Char} (free : NoEnd comment) :
    strip .block (bytes comment ++ 0x2A :: 0x2F :: rest) = strip .plain rest := by
  induction comment with
  | nil =>
    show strip .block (0x2A :: 0x2F :: rest) = _
    rw [strip_block_next,if_pos ⟨rfl,rfl⟩]
  | cons c tail ih =>
    obtain ⟨closed,apart⟩ := noEnd_tail free
    rw [bytes,List.flatMap_cons,← bytes,List.append_assoc]
    by_cases star : c = '*'
    · subst star
      rw [encode_ascii (c := '*') rfl,List.singleton_append]
      cases tail with
      | nil =>
        show strip .block (0x2A :: 0x2A :: 0x2F :: rest) = _
        rw [strip_block_skips fun same => absurd same.2 (by decide)]
        exact ih closed
      | cons d after =>
        have other := encode_free (d := '/') rfl (apart rfl d after rfl)
        rw [← ih closed,bytes,List.flatMap_cons,List.append_assoc]
        cases encoded : String.utf8EncodeChar d with
        | nil => exact absurd encoded String.utf8EncodeChar_ne_nil
        | cons first more =>
          rw [encoded] at other
          rw [List.cons_append]
          exact strip_block_skips fun same => other first List.mem_cons_self same.2
    · rw [strip_bytes (encode_free (d := '*') rfl star) (List.append_ne_nil_of_right_ne_nil _ (List.cons_ne_nil _ _)),ih closed]

theorem strip_part (part : Part) : strip .plain (bytes part.text ++ rest) = letters part.plain ++ strip .plain rest := by
  cases part with
  | letter c free =>
    rw [Part.text,Part.plain,letters_cons,bytes,List.flatMap_singleton,strip_plains]
    · simp [letters,bytes]
    · exact fun b inside => ⟨encode_free (d := '"') rfl free.1 b inside,encode_free (d := '/') rfl free.2 b inside⟩
  | string items =>
    have text : bytes (Part.string items).text ++ rest = 0x22 :: (bytes (items.flatMap Item.text) ++ 0x22 :: rest) := by
      rw [Part.text,List.cons_append,bytes,List.flatMap_cons,List.flatMap_append,encode_ascii (c := '"') rfl]
      simp [bytes,encode_ascii (c := '"') rfl]
    have plain : letters (Part.string items).plain = '"' :: (letters (items.flatMap Item.text) ++ ['"']) := by
      rw [Part.plain,List.cons_append,letters_cons,letters_append,encode_ascii (c := '"') rfl,letters_ascii (c := '"') rfl]
      rfl
    rw [text,strip_opens,strip_items,strip_closes,plain]
    simp
  | line comment free =>
    have text : bytes (Part.line comment free).text ++ rest = 0x2F :: 0x2F :: (bytes comment ++ 0x0A :: rest) := by
      simp [Part.text,bytes,encode_ascii (c := '/') rfl,encode_ascii (c := '\n') rfl]
    rw [text,strip_line_opens,strip_comment_line free,Part.plain,letters_ascii (c := '\n') rfl]
    rw [strip_line_next,if_pos rfl]
    rfl
  | block comment free =>
    have text : bytes (Part.block comment free).text ++ rest = 0x2F :: 0x2A :: (bytes comment ++ 0x2A :: 0x2F :: rest) := by
      simp [Part.text,bytes,encode_ascii (c := '/') rfl,encode_ascii (c := '*') rfl]
    rw [text,strip_block_opens,strip_comment_block free]
    rfl

theorem strip_parts (parts : List Part) :
    strip .plain (bytes (parts.flatMap Part.text) ++ rest) = letters (parts.flatMap Part.plain) ++ strip .plain rest := by
  induction parts with
  | nil => rfl
  | cons head tail ih =>
    rw [List.flatMap_cons,bytes_append,List.append_assoc,strip_part,ih,List.flatMap_cons,letters_append,List.append_assoc]

-- The comments are gone, and every other letter has become its bytes.
theorem strip_document (doc : Document) : stripJsonComments (String.ofList doc.text) = String.ofList (letters doc.plain) := by
  rw [stripJsonComments,String.toList_ofList,Document.text,bytes_append,strip_parts,Document.plain]
  cases doc.last with
  | none =>
    show String.ofList (_ ++ strip .plain []) = _
    rw [strip,List.append_nil]
  | some comment =>
    obtain ⟨comment,free⟩ := comment
    have text : bytes ('/' :: '/' :: comment) = 0x2F :: 0x2F :: (bytes comment ++ []) := by
      simp [bytes,encode_ascii (c := '/') rfl]
    show String.ofList (_ ++ strip .plain (bytes ('/' :: '/' :: comment))) = _
    rw [text,strip_line_opens,strip_comment_line free,strip,List.append_nil]

theorem strips_iff (doc : Document) :
    stripJsonComments (String.ofList doc.text) = String.ofList doc.plain ↔ doc.plain.all ascii = true := by
  rw [strip_document,← letters_iff]
  exact ⟨fun same => String.ofList_injective same,congrArg String.ofList⟩

end Scanning

end AlineaCopilot.Opencode
