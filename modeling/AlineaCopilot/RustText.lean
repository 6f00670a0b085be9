namespace AlineaCopilot.RustText

-- `char::is_whitespace`: the code points with the Unicode property White_Space.
def isWhitespace (c : Char) : Bool :=
  let n := c.toNat
  (9 ≤ n && n ≤ 13) || n = 0x20 || n = 0x85 || n = 0xA0 || n = 0x1680 || (0x2000 ≤ n && n ≤ 0x200A) ||
    n = 0x2028 || n = 0x2029 || n = 0x202F || n = 0x205F || n = 0x3000

def trim (text : String) : String :=
  String.ofList ((text.toList.dropWhile isWhitespace).reverse.dropWhile isWhitespace).reverse

-- `char::is_control`: the general category Cc.
def isControl (c : Char) : Bool := c.toNat < 0x20 || (0x7F ≤ c.toNat && c.toNat < 0xA0)

-- The two sides of the first occurrence of a separator.
def cut (separator : List Char) : List Char → Option (List Char × List Char)
  | [] => none
  | c :: rest =>
    if separator.isPrefixOf (c :: rest) then some ([],(c :: rest).drop separator.length)
    else (cut separator rest).map fun sides => (c :: sides.1,sides.2)

theorem cut_sound {separator text : List Char} {sides : List Char × List Char} (found : cut separator text = some sides) :
    text = sides.1 ++ separator ++ sides.2 := by
  induction text generalizing sides with
  | nil => cases found
  | cons c rest ih =>
    simp only [cut] at found
    split at found
    · rename_i starts
      cases found
      obtain ⟨tail,whole⟩ := List.isPrefixOf_iff_prefix.mp starts
      rw [← whole,List.drop_left,List.nil_append]
    · obtain ⟨before,there,rfl⟩ := Option.map_eq_some_iff.mp found
      simp only [List.cons_append]
      exact congrArg (c :: ·) (ih there)

-- The text before the separator holds none of its first letter.
theorem cut_exact {c : Char} {before : List Char} (apart : c ∉ before) (separator after : List Char) :
    cut (c :: separator) (before ++ (c :: separator) ++ after) = some (before,after) := by
  induction before with
  | nil =>
    have starts : (c :: separator).isPrefixOf (c :: separator ++ after) = true :=
      List.isPrefixOf_iff_prefix.mpr (List.prefix_append _ _)
    simp only [List.nil_append]
    rw [List.cons_append] at starts ⊢
    rw [cut,if_pos starts]
    simp
  | cons head rest ih =>
    simp only [List.mem_cons,not_or] at apart
    have other : ¬(c :: separator).isPrefixOf (head :: (rest ++ (c :: separator) ++ after)) = true := by
      rw [List.isPrefixOf_iff_prefix,List.cons_prefix_cons]
      exact fun starts => apart.1 starts.1
    simp only [List.cons_append] at other ⊢
    rw [cut,if_neg other]
    have found := ih apart.2
    simp only [List.append_assoc,List.cons_append] at found ⊢
    rw [found]
    rfl
def splitOnce (separator : Char) (text : String) : Option (String × String) :=
  (cut [separator] text.toList).map fun sides => (String.ofList sides.1,String.ofList sides.2)

-- `split(separator).nth(1)`: what stands between the first two occurrences.
def secondPiece (separator text : List Char) : Option (List Char) :=
  (cut separator text).map fun sides => ((cut separator sides.2).map Prod.fst).getD sides.2

def stripPrefix (first text : String) : Option String :=
  if first.toList.isPrefixOf text.toList then some (String.ofList (text.toList.drop first.length)) else none

theorem stripPrefix_exact (first text rest : String) : stripPrefix first text = some rest ↔ text = first ++ rest := by
  unfold stripPrefix
  constructor
  · intro stripped
    split at stripped
    · rename_i starts
      cases stripped
      obtain ⟨tail,whole⟩ := List.isPrefixOf_iff_prefix.mp starts
      apply String.toList_injective
      rw [String.toList_append,String.toList_ofList,← whole,← String.length_toList,List.drop_left]
    · cases stripped
  · rintro rfl
    have starts : first.toList.isPrefixOf (first ++ rest).toList = true := by
      rw [List.isPrefixOf_iff_prefix,String.toList_append]
      exact List.prefix_append _ _
    rw [if_pos starts,String.toList_append,← String.length_toList,List.drop_left,String.ofList_toList]

def stripSuffix (last : Char) (line : List Char) : List Char :=
  if line.getLast? = some last then line.dropLast else line

-- `str::lines`. A last line without a newline keeps its carriage return.
def lines (text : List Char) : List String := (go [] text).map String.ofList
where
  go (line : List Char) : List Char → List (List Char)
    | [] => if line = [] then [] else [line]
    | c :: rest => if c = '\n' then stripSuffix '\r' line :: go [] rest else go (line ++ [c]) rest

-- What may follow the first byte of a UTF-8 sequence: how many more bytes, the
-- range of the next one, and the bits the first byte contributes.
def utf8Lead (first : Nat) : Option (Nat × Nat × Nat × Nat) :=
  if first < 0x80 then some (0,0x80,0xBF,first)
  else if 0xC2 ≤ first ∧ first ≤ 0xDF then some (1,0x80,0xBF,first % 32)
  else if first = 0xE0 then some (2,0xA0,0xBF,first % 16)
  else if first = 0xED then some (2,0x80,0x9F,first % 16)
  else if 0xE1 ≤ first ∧ first ≤ 0xEF then some (2,0x80,0xBF,first % 16)
  else if first = 0xF0 then some (3,0x90,0xBF,first % 8)
  else if 0xF1 ≤ first ∧ first ≤ 0xF3 then some (3,0x80,0xBF,first % 8)
  else if first = 0xF4 then some (3,0x80,0x8F,first % 8)
  else none

-- The code point, if all the bytes are there, and how many of them were good.
def utf8Tail : Nat → Nat → Nat → Nat → List UInt8 → Option Nat × Nat
  | 0,_,_,value,_ => (some value,0)
  | _ + 1,_,_,_,[] => (none,0)
  | more + 1,low,high,value,byte :: rest =>
    if low ≤ byte.toNat ∧ byte.toNat ≤ high then
      let (result,used) := utf8Tail more 0x80 0xBF (value * 64 + byte.toNat % 64) rest
      (result,used + 1)
    else (none,0)

-- `String::from_utf8_lossy`: each longest prefix of a sequence that cannot be
-- completed becomes one replacement character.
def fromUtf8Lossy (bytes : List UInt8) : List Char := go bytes.length bytes
where
  go : Nat → List UInt8 → List Char
    | _,[] => []
    | 0,_ :: _ => []
    | fuel + 1,first :: rest =>
      match utf8Lead first.toNat with
      | none => replacement :: go fuel rest
      | some (more,low,high,value) =>
        let (result,used) := utf8Tail more low high value rest
        (result.map Char.ofNat).getD replacement :: go fuel (rest.drop used)
  replacement : Char := Char.ofNat 0xFFFD

end AlineaCopilot.RustText
