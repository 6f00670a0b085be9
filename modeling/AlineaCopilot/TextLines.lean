import Mathlib.Data.List.DropRight
import AlineaCopilot.RustText

open AlineaCopilot.RustText

namespace AlineaCopilot.TextLines

-- `replace("\r\n", "\n")`.
def crlfToLf : List Char → List Char
  | [] => []
  | [c] => [c]
  | c :: d :: rest => if c = '\r' ∧ d = '\n' then '\n' :: crlfToLf rest else c :: crlfToLf (d :: rest)

def lfOfCr (c : Char) : Char := if c = '\r' then '\n' else c

-- `replace("\r\n", "\n").replace('\r', "\n")`.
def unixBreaks (text : List Char) : List Char := (crlfToLf text).map lfOfCr

def trimEnd (text : List Char) : List Char := text.rdropWhile isWhitespace

def isBreak (c : Char) : Bool := c = '\n' || c = '\r'

def joinLines (lines : List (List Char)) : List Char := ['\n'].intercalate lines

-- A final newline opens no line of its own.
def chop (text : List Char) : List Char := stripSuffix '\n' text

-- A fact about the text of a literal is one about its letters.
theorem of_letters {p : List Char → Prop} {text : String} {letters : List Char} (same : text = String.ofList letters) (holds : p letters) :
    p text.toList := by
  rw [same,String.toList_ofList]
  exact holds

section Breaks
variable {c : Char} {before rest text : List Char}

theorem crlfToLf_next (c d : Char) : crlfToLf (c :: d :: rest) =
    if c = '\r' ∧ d = '\n' then '\n' :: crlfToLf rest else c :: crlfToLf (d :: rest) := rfl

theorem unixBreaks_pair : unixBreaks ('\r' :: '\n' :: rest) = '\n' :: unixBreaks rest := by
  show (crlfToLf ('\r' :: '\n' :: rest)).map lfOfCr = _
  rw [crlfToLf_next,if_pos ⟨rfl,rfl⟩]
  rfl

theorem unixBreaks_single (single : ¬(c = '\r' ∧ rest.head? = some '\n')) : unixBreaks (c :: rest) = lfOfCr c :: unixBreaks rest := by
  cases rest with
  | nil => rfl
  | cons d rest =>
    have apart : ¬(c = '\r' ∧ d = '\n') := fun pair => single ⟨pair.1,congrArg some pair.2⟩
    show (crlfToLf (c :: d :: rest)).map lfOfCr = _
    rw [crlfToLf_next,if_neg apart]
    rfl

theorem lfOfCr_plain (plain : c ≠ '\r') : lfOfCr c = c := if_neg plain

theorem unixBreaks_plain (plain : c ≠ '\r') : unixBreaks (c :: rest) = c :: unixBreaks rest := by
  rw [unixBreaks_single fun pair => plain pair.1,lfOfCr_plain plain]

theorem breaks_induction {motive : List Char → Prop} (nil : motive []) (pair : ∀ rest, motive rest → motive ('\r' :: '\n' :: rest))
    (single : ∀ c rest, ¬(c = '\r' ∧ rest.head? = some '\n') → motive rest → motive (c :: rest)) : ∀ text, motive text
  | [] => nil
  | [c] => single c [] (fun pair => by cases pair.2) nil
  | c :: d :: rest => by
    by_cases both : c = '\r' ∧ d = '\n'
    · obtain ⟨rfl,rfl⟩ := both
      exact pair rest (breaks_induction nil pair single rest)
    · exact single c (d :: rest) (fun found => both ⟨found.1,Option.some.inj found.2⟩) (breaks_induction nil pair single (d :: rest))

theorem unixBreaks_free (text : List Char) : '\r' ∉ unixBreaks text := by
  induction text using breaks_induction with
  | nil => exact List.not_mem_nil
  | pair rest ih =>
    rw [unixBreaks_pair,List.mem_cons,not_or]
    exact ⟨by decide,ih⟩
  | single c rest apart ih =>
    rw [unixBreaks_single apart,List.mem_cons,not_or]
    refine ⟨fun same => ?_,ih⟩
    unfold lfOfCr at same
    split at same
    · exact absurd same (by decide)
    · rename_i other
      exact other same.symm

theorem unixBreaks_append (plain : '\r' ∉ before) : unixBreaks (before ++ rest) = before ++ unixBreaks rest := by
  induction before with
  | nil => rfl
  | cons c before ih =>
    rw [List.mem_cons,not_or] at plain
    rw [List.cons_append,unixBreaks_plain fun same => plain.1 same.symm,ih plain.2]
    rfl

theorem unixBreaks_same (plain : '\r' ∉ text) : unixBreaks text = text := by
  have same := @unixBreaks_append text [] plain
  rwa [List.append_nil,show unixBreaks [] = [] from rfl,List.append_nil] at same

theorem unixBreaks_same_iff : unixBreaks text = text ↔ '\r' ∉ text := by
  refine ⟨fun same => ?_,unixBreaks_same⟩
  have free := unixBreaks_free text
  rwa [same] at free

theorem unixBreaks_nil : unixBreaks text = [] ↔ text = [] := by
  refine ⟨fun empty => ?_,fun empty => by rw [empty]; rfl⟩
  cases text using breaks_induction with
  | nil => rfl
  | pair rest => cases unixBreaks_pair.symm.trans empty
  | single c rest apart => cases (unixBreaks_single apart).symm.trans empty

theorem unixBreaks_length (text : List Char) : (unixBreaks text).length ≤ text.length := by
  induction text using breaks_induction with
  | nil => exact Nat.le_refl _
  | pair rest ih =>
    rw [unixBreaks_pair,List.length_cons,List.length_cons,List.length_cons]
    omega
  | single c rest apart ih =>
    rw [unixBreaks_single apart,List.length_cons,List.length_cons]
    omega

-- Before a newline a carriage return belongs to the line break.
theorem unixBreaks_line (text rest : List Char) :
    unixBreaks (text ++ '\n' :: rest) = unixBreaks (stripSuffix '\r' text) ++ '\n' :: unixBreaks rest := by
  induction text using breaks_induction with
  | nil => exact unixBreaks_plain (by decide)
  | pair text ih =>
    cases text with
    | nil =>
      show unixBreaks ('\r' :: '\n' :: '\n' :: rest) = unixBreaks ['\r','\n'] ++ '\n' :: unixBreaks rest
      rw [unixBreaks_pair,unixBreaks_pair,unixBreaks_plain (by decide)]
      rfl
    | cons d text =>
      have stripped : stripSuffix '\r' ('\r' :: '\n' :: d :: text) = '\r' :: '\n' :: stripSuffix '\r' (d :: text) := by
        unfold stripSuffix
        rw [List.getLast?_cons_cons,List.getLast?_cons_cons]
        split <;> rfl
      rw [stripped,unixBreaks_pair,List.cons_append,List.cons_append,unixBreaks_pair,ih]
      rfl
  | single c text apart ih =>
    cases text with
    | nil =>
      by_cases cr : c = '\r'
      · subst cr
        exact unixBreaks_pair
      · have kept : stripSuffix '\r' [c] = [c] := if_neg fun same => cr (Option.some.inj same)
        rw [kept,List.singleton_append,unixBreaks_plain cr,unixBreaks_plain cr,unixBreaks_plain (by decide)]
        rfl
    | cons d text =>
      have stripped : stripSuffix '\r' (c :: d :: text) = c :: stripSuffix '\r' (d :: text) := by
        unfold stripSuffix
        rw [List.getLast?_cons_cons]
        split <;> rfl
      have apart' : ¬(c = '\r' ∧ (d :: text ++ '\n' :: rest).head? = some '\n') := apart
      have shorter : ¬(c = '\r' ∧ (stripSuffix '\r' (d :: text)).head? = some '\n') := by
        rintro ⟨cr,found⟩
        refine apart ⟨cr,?_⟩
        unfold stripSuffix at found
        split at found
        · cases text with
          | nil => cases found
          | cons e text => exact found
        · exact found
      rw [stripped,List.cons_append,unixBreaks_single apart',ih,unixBreaks_single shorter]
      rfl

end Breaks

section TrimEnd
variable {c : Char} {before rest text word : List Char}

theorem trimEnd_append (before text : List Char) :
    trimEnd (before ++ text) = if trimEnd text = [] then trimEnd before else before ++ trimEnd text := by
  unfold trimEnd List.rdropWhile
  rw [List.reverse_append,List.dropWhile_append]
  by_cases empty : List.dropWhile isWhitespace text.reverse = []
  · rw [empty]
    rfl
  · rw [if_neg (by simpa using empty),if_neg (by simpa using empty),List.reverse_append,List.reverse_reverse]

theorem trimEnd_nil : trimEnd text = [] ↔ ∀ c ∈ text, isWhitespace c = true := List.rdropWhile_eq_nil_iff

theorem trimEnd_keeps (full : trimEnd text ≠ []) : trimEnd (before ++ text) = before ++ trimEnd text := by
  rw [trimEnd_append,if_neg full]

theorem trimEnd_blank (blank : ∀ c ∈ text, isWhitespace c = true) : trimEnd (before ++ text) = trimEnd before := by
  rw [trimEnd_append,if_pos (trimEnd_nil.mpr blank)]

theorem trimEnd_cons (c : Char) (rest : List Char) : trimEnd (c :: rest) = if trimEnd rest = [] then trimEnd [c] else c :: trimEnd rest :=
  trimEnd_append [c] rest

theorem trimEnd_starts (text : List Char) : trimEnd text <+: text := List.rdropWhile_prefix isWhitespace text

-- A text behind something that is not blank is shorter when trimmed.
theorem trimEnd_shorter (c : Char) (inside : c ∈ before) (ink : isWhitespace c = false) :
    (trimEnd text).length < (trimEnd (before ++ text)).length := by
  rw [trimEnd_append]
  split
  · rename_i empty
    rw [empty]
    refine List.length_pos_iff.mpr fun none => ?_
    have blank := trimEnd_nil.mp none c inside
    rw [ink] at blank
    cases blank
  · rw [List.length_append]
    have some_ := List.length_pos_of_mem inside
    omega

theorem trimEnd_suffix (before text : List Char) : (trimEnd text).length ≤ (trimEnd (before ++ text)).length := by
  rw [trimEnd_append]
  split
  · rename_i empty
    rw [empty]
    exact Nat.zero_le _
  · rw [List.length_append]
    omega

theorem chop_trimEnd (text : List Char) : trimEnd (chop text) = trimEnd text := by
  unfold chop stripSuffix
  split
  · rename_i last
    obtain ⟨start,rfl⟩ := List.getLast?_eq_some_iff.mp last
    rw [List.dropLast_concat,trimEnd_blank]
    intro c inside
    rw [List.mem_singleton.mp inside]
    decide
  · rfl

theorem lfOfCr_whitespace (c : Char) : isWhitespace (lfOfCr c) = isWhitespace c := by
  unfold lfOfCr
  split
  · rename_i same
    rw [same]
    decide
  · rfl

theorem trimEnd_single (c : Char) : trimEnd [c] = if isWhitespace c then [] else [c] := List.rdropWhile_singleton _ _

theorem trimEnd_unixBreaks (text : List Char) : trimEnd (unixBreaks text) = unixBreaks (trimEnd text) := by
  induction text using breaks_induction with
  | nil => rfl
  | pair rest ih =>
    rw [unixBreaks_pair,trimEnd_cons '\n',ih,trimEnd_cons '\r',trimEnd_cons '\n' rest]
    by_cases empty : trimEnd rest = []
    · rw [if_pos (unixBreaks_nil.mpr empty),if_pos empty]
      rfl
    · rw [if_neg (mt unixBreaks_nil.mp empty),if_neg empty,if_neg (List.cons_ne_nil _ _),unixBreaks_pair]
  | single c rest apart ih =>
    rw [unixBreaks_single apart,trimEnd_cons (lfOfCr c),ih,trimEnd_cons c]
    by_cases empty : trimEnd rest = []
    · rw [if_pos (unixBreaks_nil.mpr empty),if_pos empty,trimEnd_single,trimEnd_single,lfOfCr_whitespace]
      split
      · rfl
      · exact (@unixBreaks_single c [] fun pair => by cases pair.2).symm
    · rw [if_neg (mt unixBreaks_nil.mp empty),if_neg empty,unixBreaks_single]
      rintro ⟨cr,first⟩
      refine apart ⟨cr,?_⟩
      obtain ⟨tail,whole⟩ := trimEnd_starts rest
      rw [← whole,List.head?_append,first]
      rfl

end TrimEnd

section BlankLines

-- What is left of a text without its leading blank lines; a blank line at the
-- very end is left to `trimEnd`.
def dropBlankLines (text : List Char) : List Char := go [] text
where
  go (line : List Char) : List Char → List Char
    | [] => line
    | c :: rest =>
      if isBreak c then go [] rest
      else if isWhitespace c then go (line ++ [c]) rest
      else line ++ c :: rest

variable {c : Char} {line rest text word : List Char}

theorem go_step (c : Char) : dropBlankLines.go line (c :: rest) =
    if isBreak c then dropBlankLines.go [] rest
    else if isWhitespace c then dropBlankLines.go (line ++ [c]) rest
    else line ++ c :: rest := rfl

theorem go_break (found : isBreak c = true) : dropBlankLines.go line (c :: rest) = dropBlankLines.go [] rest := if_pos found

theorem go_blank (inside : isBreak c = false) (blank : isWhitespace c = true) :
    dropBlankLines.go line (c :: rest) = dropBlankLines.go (line ++ [c]) rest := by
  rw [go_step,if_neg (Bool.eq_false_iff.mp inside),if_pos blank]

theorem go_ink (ink : isWhitespace c = false) : dropBlankLines.go line (c :: rest) = line ++ c :: rest := by
  have inside : ¬isBreak c = true := by
    intro found
    rcases (by simpa [isBreak] using found : c = '\n' ∨ c = '\r') with rfl | rfl <;> exact absurd ink (by decide)
  rw [go_step,if_neg inside,if_neg (Bool.eq_false_iff.mp ink)]

theorem dropBlankLines_unixBreaks (text : List Char) : dropBlankLines (unixBreaks text) = unixBreaks (dropBlankLines text) := by
  have each : ∀ line, '\r' ∉ line → dropBlankLines.go line (unixBreaks text) = unixBreaks (dropBlankLines.go line text) := by
    induction text using breaks_induction with
    | nil => exact fun line plain => (unixBreaks_same plain).symm
    | pair rest ih =>
      intro line _
      rw [unixBreaks_pair,go_break (by decide),go_break (by decide),go_break (by decide)]
      exact ih [] List.not_mem_nil
    | single c rest apart ih =>
      intro line plain
      rw [unixBreaks_single apart]
      by_cases found : isBreak c = true
      · have broken : isBreak (lfOfCr c) = true := by
          rcases (by simpa [isBreak] using found : c = '\n' ∨ c = '\r') with rfl | rfl <;> decide
        rw [go_break found,go_break broken]
        exact ih [] List.not_mem_nil
      · have inside := Bool.eq_false_iff.mpr found
        have other : c ≠ '\r' := by
          rintro rfl
          exact found (by decide)
        rw [lfOfCr_plain other]
        cases blank : isWhitespace c with
        | true =>
          rw [go_blank inside blank,go_blank inside blank]
          refine ih _ fun member => ?_
          rcases List.mem_append.mp member with there | there
          · exact plain there
          · exact other (List.mem_singleton.mp there).symm
        | false => rw [go_ink blank,go_ink blank,unixBreaks_append plain,unixBreaks_plain other]
  exact each [] List.not_mem_nil

theorem go_newline_end (blank : ∀ c ∈ line, isWhitespace c = true) :
    trimEnd (dropBlankLines.go line (text ++ ['\n'])) = trimEnd (dropBlankLines.go line text) := by
  induction text generalizing line with
  | nil =>
    rw [List.nil_append,go_break (by decide)]
    exact (trimEnd_nil.mpr blank).symm
  | cons c text ih =>
    rw [List.cons_append]
    by_cases found : isBreak c = true
    · rw [go_break found,go_break found]
      exact ih fun _ inside => absurd inside List.not_mem_nil
    · have inside := Bool.eq_false_iff.mpr found
      cases white : isWhitespace c with
      | true =>
        rw [go_blank inside white,go_blank inside white]
        refine ih fun d member => ?_
        rcases List.mem_append.mp member with there | there
        · exact blank d there
        · rw [List.mem_singleton.mp there,white]
      | false =>
        rw [go_ink white,go_ink white,← List.cons_append,← List.append_assoc]
        refine trimEnd_blank fun d there => ?_
        rw [List.mem_singleton.mp there]
        decide

theorem dropBlankLines_chop (text : List Char) : trimEnd (dropBlankLines (chop text)) = trimEnd (dropBlankLines text) := by
  unfold chop stripSuffix
  split
  · rename_i last
    obtain ⟨start,rfl⟩ := List.getLast?_eq_some_iff.mp last
    rw [List.dropLast_concat]
    exact (go_newline_end fun _ inside => absurd inside List.not_mem_nil).symm
  · rfl

-- What is dropped is blank.
theorem dropBlankLines_suffix (text : List Char) : dropBlankLines text <:+ text := by
  have each : ∀ line, dropBlankLines.go line text <:+ line ++ text := by
    induction text with
    | nil => exact fun line => by rw [List.append_nil]; exact List.suffix_refl _
    | cons c text ih =>
      intro line
      rw [go_step]
      split
      · exact (ih []).trans ⟨line ++ [c],by simp⟩
      · split
        · have next := ih (line ++ [c])
          rwa [List.append_assoc] at next
        · exact List.suffix_refl _
  exact each []

end BlankLines

section Lines
variable {line rest text before : List Char}

-- `str::lines`, the lines as letters.
def lineList (text : List Char) : List (List Char) := lines.go [] text

theorem lines_go_end : lines.go before [] = if before = [] then [] else [before] := rfl

theorem lines_go_step (c : Char) : lines.go before (c :: rest) =
    if c = '\n' then stripSuffix '\r' before :: lines.go [] rest else lines.go (before ++ [c]) rest := rfl

theorem stripSuffix_free {c : Char} (free : c ∉ text) : stripSuffix c text = text :=
  if_neg fun last => free (List.mem_of_getLast? last)

theorem lines_go_line (plain : '\n' ∉ line) : lines.go before (line ++ '\n' :: rest) = stripSuffix '\r' (before ++ line) :: lines.go [] rest := by
  induction line generalizing before with
  | nil => rw [List.nil_append,lines_go_step,if_pos rfl,List.append_nil]
  | cons c line ih =>
    rw [List.mem_cons,not_or] at plain
    rw [List.cons_append,lines_go_step,if_neg (Ne.symm plain.1),ih plain.2,List.append_assoc]
    rfl

theorem lineList_line (plain : '\n' ∉ line) (free : '\r' ∉ line) : lineList (line ++ '\n' :: rest) = line :: lineList rest := by
  unfold lineList
  rw [lines_go_line plain,List.nil_append,stripSuffix_free free]

theorem chop_append (some_ : text ≠ []) : chop (before ++ text) = before ++ chop text := by
  unfold chop stripSuffix
  rw [List.getLast?_append_of_ne_nil _ some_]
  split
  · rw [List.dropLast_append_of_ne_nil some_]
  · rfl

theorem lines_go_split (plain : '\n' ∉ before) (free : '\r' ∉ before) (clean : '\r' ∉ text) :
    (before ++ text).splitOn '\n' = lines.go before text ∨ (before ++ text).splitOn '\n' = lines.go before text ++ [[]] := by
  induction text generalizing before with
  | nil =>
    rw [List.append_nil,List.splitOn_eq_singleton plain,lines_go_end]
    split
    · rename_i empty
      rw [empty]
      exact .inr rfl
    · exact .inl rfl
  | cons c text ih =>
    rw [List.mem_cons,not_or] at clean
    rw [lines_go_step]
    split
    · rename_i newline
      rw [newline,List.splitOn_append_cons_self_of_not_mem plain,stripSuffix_free free]
      rcases ih List.not_mem_nil List.not_mem_nil clean.2 with split_ | split_
      · exact .inl (congrArg (before :: ·) split_)
      · exact .inr (congrArg (before :: ·) split_)
    · rename_i other
      have step := @ih (before ++ [c])
      rw [List.append_assoc] at step
      refine step ?_ ?_ clean.2
      · rw [List.mem_append,List.mem_singleton,not_or]
        exact ⟨plain,Ne.symm other⟩
      · rw [List.mem_append,List.mem_singleton,not_or]
        exact ⟨free,clean.1⟩

theorem lineList_split (clean : '\r' ∉ text) : text.splitOn '\n' = lineList text ∨ text.splitOn '\n' = lineList text ++ [[]] :=
  @lines_go_split text [] List.not_mem_nil List.not_mem_nil clean

theorem joinLines_split (text : List Char) : joinLines (text.splitOn '\n') = text := List.intercalate_splitOn '\n'

theorem joinLines_cons {lines : List (List Char)} (some_ : lines ≠ []) : joinLines (line :: lines) = line ++ '\n' :: joinLines lines := by
  show List.intercalate _ _ = _
  rw [List.intercalate_cons_of_ne_nil some_]
  rw [List.append_assoc]
  rfl

theorem lines_go_full (some_ : before ≠ []) : lines.go before text ≠ [] := by
  induction text generalizing before with
  | nil =>
    rw [lines_go_end,if_neg some_]
    exact List.cons_ne_nil _ _
  | cons c text ih =>
    rw [lines_go_step]
    split
    · exact List.cons_ne_nil _ _
    · exact ih (List.append_ne_nil_of_right_ne_nil _ (List.cons_ne_nil _ _))

theorem lines_go_nil : lines.go [] text = [] ↔ text = [] := by
  cases text with
  | nil => exact iff_of_true rfl rfl
  | cons c text =>
    refine iff_of_false ?_ (List.cons_ne_nil _ _)
    rw [lines_go_step]
    split
    · exact List.cons_ne_nil _ _
    · exact lines_go_full (List.cons_ne_nil _ _)

theorem joinLines_lineList (clean : '\r' ∉ text) : joinLines (lineList text) = chop text := by
  have each : ∀ before, '\n' ∉ before → '\r' ∉ before → joinLines (lines.go before text) = chop (before ++ text) := by
    induction text with
    | nil =>
      intro before plain _
      rw [List.append_nil,chop,stripSuffix_free plain,lines_go_end]
      split
      · rename_i empty
        rw [empty]
        rfl
      · exact List.intercalate_singleton
    | cons c text ih =>
      intro before plain free
      rw [List.mem_cons,not_or] at clean
      rw [lines_go_step]
      split
      · rename_i newline
        subst newline
        have next := ih clean.2 [] List.not_mem_nil List.not_mem_nil
        rw [List.nil_append] at next
        rw [stripSuffix_free free]
        by_cases empty : text = []
        · subst empty
          rw [show chop (before ++ ['\n']) = before by simp [chop,stripSuffix]]
          exact List.intercalate_singleton
        · rw [joinLines_cons (mt lines_go_nil.mp empty),next,chop_append (List.cons_ne_nil _ _)]
          exact congrArg (before ++ ·) (@chop_append text ['\n'] empty).symm
      · rename_i other
        have step := ih clean.2 (before ++ [c]) ?_ ?_
        · rwa [List.append_assoc] at step
        · rw [List.mem_append,List.mem_singleton,not_or]
          exact ⟨plain,Ne.symm other⟩
        · rw [List.mem_append,List.mem_singleton,not_or]
          exact ⟨free,clean.1⟩
  have whole := each [] List.not_mem_nil List.not_mem_nil
  rwa [List.nil_append] at whole

-- Lines with a newline behind each.
def closed (rows : List (List Char)) : List Char := rows.flatMap (· ++ ['\n'])

theorem closed_cons (line : List Char) (rows : List (List Char)) : closed (line :: rows) = line ++ '\n' :: closed rows := by
  rw [closed,List.flatMap_cons,List.append_assoc]
  rfl

theorem joinLines_closed {rows tail : List (List Char)} (some_ : tail ≠ []) : joinLines (rows ++ tail) = closed rows ++ joinLines tail := by
  induction rows with
  | nil => rfl
  | cons line rows ih =>
    rw [List.cons_append,joinLines_cons (List.append_ne_nil_of_right_ne_nil _ some_),ih,closed_cons,List.append_assoc]
    rfl

theorem break_free {c : Char} (each : ∀ d ∈ text, isBreak d = false) (found : isBreak c = true) : c ∉ text := by
  intro inside
  rw [each c inside] at found
  cases found

theorem unixBreaks_closed {rows : List (List Char)} (each : ∀ row ∈ rows, ∀ c ∈ row, isBreak c = false) :
    unixBreaks (closed rows ++ text) = closed rows ++ unixBreaks text := by
  induction rows with
  | nil => rfl
  | cons line rows ih =>
    rw [List.forall_mem_cons] at each
    rw [closed_cons,List.append_assoc,unixBreaks_append (break_free each.1 (by decide)),List.cons_append,unixBreaks_plain (by decide),
      ih each.2,List.append_assoc,List.cons_append]

theorem lineList_closed {rows : List (List Char)} (each : ∀ row ∈ rows, ∀ c ∈ row, isBreak c = false) :
    lineList (closed rows ++ text) = rows ++ lineList text := by
  induction rows with
  | nil => rfl
  | cons line rows ih =>
    rw [List.forall_mem_cons] at each
    rw [closed_cons,List.append_assoc,List.cons_append,lineList_line (break_free each.1 (by decide)) (break_free each.1 (by decide)),ih each.2]
    rfl

theorem splitOn_closed {rows : List (List Char)} (each : ∀ row ∈ rows, ∀ c ∈ row, isBreak c = false) :
    (closed rows ++ text).splitOn '\n' = rows ++ text.splitOn '\n' := by
  induction rows with
  | nil => rfl
  | cons line rows ih =>
    rw [List.forall_mem_cons] at each
    rw [closed_cons,List.append_assoc,List.cons_append,List.splitOn_append_cons_self_of_not_mem (break_free each.1 (by decide)),ih each.2]
    rfl

end Lines

section Pieces
variable {text word line before : List Char} {rows more : List (List Char)}

def trimLine (line : List Char) : List Char := trimEnd (line.dropWhile isWhitespace)

-- The lines trimmed, blank ones left out.
def inkedLines (rows : List (List Char)) : List (List Char) := (rows.map trimLine).filter fun line => !line.isEmpty

theorem inkedLines_append : inkedLines (rows ++ more) = inkedLines rows ++ inkedLines more := by
  unfold inkedLines
  rw [List.map_append,List.filter_append]

theorem inkedLines_cons (line : List Char) : inkedLines (line :: rows) = inkedLines [line] ++ inkedLines rows :=
  @inkedLines_append [line] rows

-- A line break of two characters leaves one more empty piece, no other line.
theorem split_unixBreaks (text : List Char) : ∃ first tail tail',
    (unixBreaks text).splitOn '\n' = first :: tail ∧ text.splitOnP isBreak = first :: tail' ∧ inkedLines tail = inkedLines tail' := by
  induction text using breaks_induction with
  | nil => exact ⟨[],[],[],rfl,rfl,rfl⟩
  | pair rest ih =>
    obtain ⟨first,tail,tail',left,right,same⟩ := ih
    refine ⟨[],first :: tail,[] :: first :: tail',?_,?_,?_⟩
    · rw [unixBreaks_pair,List.splitOn_cons_eq_if_modifyHead,if_pos (by decide),left]
    · rw [List.splitOnP_cons_eq_if_modifyHead,if_pos (by decide),List.splitOnP_cons_eq_if_modifyHead,if_pos (by decide),right]
    · rw [inkedLines_cons []]
      show _ = [] ++ _
      rw [List.nil_append,inkedLines_cons first,same,← inkedLines_cons]
  | single c rest apart ih =>
    obtain ⟨first,tail,tail',left,right,same⟩ := ih
    rw [unixBreaks_single apart,List.splitOn_cons_eq_if_modifyHead,List.splitOnP_cons_eq_if_modifyHead,left,right]
    by_cases found : isBreak c = true
    · have broken : (lfOfCr c == '\n') = true := by
        rcases (by simpa [isBreak] using found : c = '\n' ∨ c = '\r') with rfl | rfl <;> decide
      rw [if_pos found,if_pos broken]
      refine ⟨[],first :: tail,first :: tail',rfl,rfl,?_⟩
      rw [inkedLines_cons,same,← inkedLines_cons]
    · have both : ¬(c = '\n' ∨ c = '\r') := by simpa [isBreak] using found
      rw [not_or] at both
      rw [if_neg found,lfOfCr_plain both.2,if_neg (by simpa using both.1)]
      exact ⟨c :: first,tail,tail',rfl,rfl,same⟩

theorem inkedLines_unixBreaks (text : List Char) : inkedLines (lineList (unixBreaks text)) = inkedLines (text.splitOnP isBreak) := by
  obtain ⟨first,tail,tail',left,right,same⟩ := split_unixBreaks text
  have whole : inkedLines ((unixBreaks text).splitOn '\n') = inkedLines (text.splitOnP isBreak) := by
    rw [left,right,inkedLines_cons,same,← inkedLines_cons]
  rw [← whole]
  rcases lineList_split (unixBreaks_free text) with split_ | split_
  · rw [split_]
  · rw [split_,inkedLines_append]
    exact (List.append_nil _).symm

theorem prefix_unixBreaks (plain : ∀ c ∈ word, isBreak c = false) : word <+: unixBreaks text ↔ word <+: text := by
  induction word generalizing text with
  | nil => exact iff_of_true List.nil_prefix List.nil_prefix
  | cons d word ih =>
    rw [List.forall_mem_cons] at plain
    have other : d ≠ '\n' ∧ d ≠ '\r' := by
      have broken := plain.1
      simpa [isBreak,not_or] using broken
    cases text using breaks_induction with
    | nil => exact Iff.rfl
    | pair rest =>
      rw [unixBreaks_pair,List.cons_prefix_cons,List.cons_prefix_cons]
      exact iff_of_false (fun both => other.1 both.1) (fun both => other.2 both.1)
    | single c rest apart =>
      rw [unixBreaks_single apart,List.cons_prefix_cons,List.cons_prefix_cons,ih plain.2]
      refine and_congr_left fun _ => ⟨fun same => ?_,fun same => ?_⟩
      · unfold lfOfCr at same
        split at same
        · exact absurd same other.1
        · exact same
      · rw [same,lfOfCr_plain]
        rw [← same]
        exact other.2

theorem infix_unixBreaks (plain : ∀ c ∈ word, isBreak c = false) : word <:+: unixBreaks text ↔ word <:+: text := by
  induction text using breaks_induction with
  | nil => exact Iff.rfl
  | pair rest ih =>
    have apart : ∀ {c} {tail : List Char}, isBreak c = true → (word <+: c :: tail ↔ word = []) := by
      intro c tail found
      cases word with
      | nil => exact iff_of_true List.nil_prefix rfl
      | cons d word =>
        rw [List.cons_prefix_cons]
        refine iff_of_false (fun both => ?_) (List.cons_ne_nil _ _)
        have broken := plain d List.mem_cons_self
        rw [both.1,found] at broken
        cases broken
    rw [unixBreaks_pair,List.infix_cons_iff,List.infix_cons_iff,List.infix_cons_iff,ih,apart (by decide),apart (by decide),
      apart (by decide)]
    tauto
  | single c rest apart ih =>
    rw [List.infix_cons_iff,← ih,← @prefix_unixBreaks (c :: rest) word plain,unixBreaks_single apart,List.infix_cons_iff]

theorem infix_stripSuffix {c : Char} (plain : c ∉ word) : word <:+: stripSuffix c text ↔ word <:+: text := by
  unfold stripSuffix
  split
  · rename_i last
    obtain ⟨start,rfl⟩ := List.getLast?_eq_some_iff.mp last
    rw [List.dropLast_concat]
    refine ⟨fun inside => inside.trans (List.prefix_append _ _).isInfix,?_⟩
    rintro ⟨before,after,whole⟩
    rcases List.eq_nil_or_concat after with rfl | ⟨after,d,rfl⟩
    · rw [List.append_nil] at whole
      rcases List.eq_nil_or_concat word with rfl | ⟨word,d,rfl⟩
      · exact List.nil_infix
      · rw [List.concat_eq_append,← List.append_assoc] at whole
        have same := (List.append_inj_right' whole rfl)
        cases same
        exact absurd (by simp) plain
    · rw [List.concat_eq_append,← List.append_assoc] at whole
      exact ⟨before,after,List.append_inj_left' whole rfl⟩
  · exact Iff.rfl

theorem lines_go_letters {c : Char} (plain : '\n' ∉ before) (member : line ∈ lines.go before text) (inside : c ∈ line) :
    c ≠ '\n' ∧ (c ∈ before ∨ c ∈ text) := by
  have kept : ∀ whole, c ∈ stripSuffix '\r' whole → c ∈ whole := by
    intro whole found
    unfold stripSuffix at found
    split at found
    · exact (List.dropLast_sublist _).subset found
    · exact found
  induction text generalizing before with
  | nil =>
    rw [lines_go_end] at member
    split at member
    · cases member
    · rw [List.mem_singleton.mp member] at inside
      exact ⟨fun same => plain (same ▸ inside),.inl inside⟩
  | cons d text ih =>
    rw [lines_go_step] at member
    split at member
    · rcases List.mem_cons.mp member with rfl | later
      · exact ⟨fun same => plain (same ▸ kept _ inside),.inl (kept _ inside)⟩
      · obtain ⟨other,found⟩ := ih List.not_mem_nil later
        refine ⟨other,.inr (List.mem_cons_of_mem _ (found.resolve_left List.not_mem_nil))⟩
    · rename_i other
      obtain ⟨newline,found⟩ := ih (fun there => by
        rcases List.mem_append.mp there with there | there
        · exact plain there
        · exact other (List.mem_singleton.mp there).symm) member
      refine ⟨newline,?_⟩
      rw [List.mem_append,List.mem_singleton] at found
      rw [List.mem_cons]
      tauto

theorem lineList_letters {c : Char} (clean : '\r' ∉ text) (member : line ∈ lineList text) (inside : c ∈ line) : isBreak c = false := by
  obtain ⟨newline,found⟩ := lines_go_letters List.not_mem_nil member inside
  have other : c ≠ '\r' := fun same => clean (same ▸ found.resolve_left List.not_mem_nil)
  simpa [isBreak] using ⟨newline,other⟩

theorem trimLine_sublist (line : List Char) : trimLine line <:+: line :=
  (trimEnd_starts _).isInfix.trans (List.dropWhile_suffix _).isInfix

end Pieces

section Occurrences
variable {word text before after : List Char}

-- The first occurrence stands no later than a given one.
theorem cut_first (some_ : word ≠ []) : ∃ start rest, RustText.cut word (before ++ word ++ after) = some (start,rest) ∧ start.length ≤ before.length := by
  induction before with
  | nil =>
    cases word with
    | nil => exact absurd rfl some_
    | cons c word =>
      refine ⟨[],after,?_,Nat.zero_le _⟩
      have starts : (c :: word).isPrefixOf (c :: (word ++ after)) = true := List.isPrefixOf_iff_prefix.mpr ⟨after,rfl⟩
      rw [List.nil_append,List.cons_append,RustText.cut,if_pos starts]
      simp
  | cons d before ih =>
    obtain ⟨start,rest,found,early⟩ := ih
    rw [List.cons_append,List.cons_append,RustText.cut]
    split
    · exact ⟨[],_,rfl,Nat.zero_le _⟩
    · rw [found]
      exact ⟨d :: start,rest,rfl,Nat.succ_le_succ early⟩

theorem cut_none (absent : ¬word <:+: text) : RustText.cut word text = none := by
  induction text with
  | nil => rfl
  | cons c text ih =>
    rw [List.infix_cons_iff,not_or] at absent
    rw [RustText.cut,if_neg (mt List.isPrefixOf_iff_prefix.mp absent.1),ih absent.2]
    rfl

theorem prefix_before {c : Char} (apart : c ∉ word) : word <+: text ++ c :: after ↔ word <+: text := by
  refine ⟨fun starts => ?_,fun starts => starts.trans (List.prefix_append _ _)⟩
  induction word generalizing text with
  | nil => exact List.nil_prefix
  | cons d word ih =>
    rw [List.mem_cons,not_or] at apart
    cases text with
    | nil => exact absurd (List.cons_prefix_cons.mp starts).1 (Ne.symm apart.1)
    | cons e text =>
      obtain ⟨same,rest⟩ := List.cons_prefix_cons.mp starts
      exact List.cons_prefix_cons.mpr ⟨same,ih apart.2 rest⟩

-- A letter that the word does not hold separates its occurrences.
theorem infix_around {c : Char} (apart : c ∉ word) (some_ : word ≠ []) : word <:+: text ++ c :: after ↔ word <:+: text ∨ word <:+: after := by
  induction text with
  | nil =>
    rw [List.nil_append,List.infix_cons_iff,List.infix_nil]
    have never : ¬word <+: c :: after := by
      rw [← List.nil_append (c :: after),prefix_before apart,List.prefix_nil]
      exact some_
    tauto
  | cons d text ih =>
    rw [List.cons_append,List.infix_cons_iff,ih,List.infix_cons_iff,← List.cons_append,prefix_before apart]
    tauto

theorem infix_behind {c : Char} (absent : c ∉ before) : (c :: word) <:+: before ++ text ↔ (c :: word) <:+: text := by
  induction before with
  | nil => exact Iff.rfl
  | cons d before ih =>
    rw [List.mem_cons,not_or] at absent
    rw [List.cons_append,List.infix_cons_iff,ih absent.2,List.cons_prefix_cons]
    tauto

-- The first occurrence stands on a line of its own behind a text without any.
theorem cut_behind {c : Char} (apart : c ∉ word) (some_ : word ≠ []) (absent : ¬word <:+: before) :
    RustText.cut word (before ++ c :: (word ++ after)) = some (before ++ [c],after) := by
  induction before with
  | nil =>
    have never : ¬word.isPrefixOf (c :: (word ++ after)) = true := by
      rw [List.isPrefixOf_iff_prefix,← List.nil_append (c :: (word ++ after)),prefix_before apart,List.prefix_nil]
      exact some_
    have starts : word.isPrefixOf (word ++ after) = true := List.isPrefixOf_iff_prefix.mpr (List.prefix_append _ _)
    have there : RustText.cut word (word ++ after) = some ([],after) := by
      obtain ⟨d,tail,rfl⟩ := List.exists_cons_of_ne_nil some_
      rw [List.cons_append] at starts ⊢
      rw [RustText.cut,if_pos starts]
      simp
    rw [List.nil_append,RustText.cut,if_neg never,there]
    rfl
  | cons d before ih =>
    rw [List.infix_cons_iff,not_or] at absent
    have never : ¬word.isPrefixOf (d :: (before ++ c :: (word ++ after))) = true := by
      rw [List.isPrefixOf_iff_prefix,← List.cons_append,prefix_before apart]
      exact absent.1
    rw [List.cons_append,RustText.cut,if_neg never,ih absent.2]
    rfl

theorem prefix_newline_end (apart : '\n' ∉ word) : word <+: chop text ↔ word <+: text := by
  unfold chop stripSuffix
  split
  · rename_i last
    obtain ⟨start,rfl⟩ := List.getLast?_eq_some_iff.mp last
    rw [List.dropLast_concat]
    exact (@prefix_before word start [] '\n' apart).symm
  · exact Iff.rfl

theorem dropWhile_unixBreaks (text : List Char) : (unixBreaks text).dropWhile isWhitespace = unixBreaks (text.dropWhile isWhitespace) := by
  induction text using breaks_induction with
  | nil => rfl
  | pair rest ih =>
    rw [unixBreaks_pair,List.dropWhile_cons_of_pos (by decide),ih,List.dropWhile_cons_of_pos (by decide),List.dropWhile_cons_of_pos (by decide)]
  | single c rest apart ih =>
    rw [unixBreaks_single apart]
    cases blank : isWhitespace c with
    | true => rw [List.dropWhile_cons_of_pos (by rwa [lfOfCr_whitespace]),ih,List.dropWhile_cons_of_pos blank]
    | false =>
      have ink : ¬isWhitespace c = true := Bool.eq_false_iff.mp blank
      rw [List.dropWhile_cons_of_neg (by rwa [lfOfCr_whitespace]),List.dropWhile_cons_of_neg ink,unixBreaks_single apart]

theorem dropWhile_chop (apart : '\n' ∉ word) :
    word <+: (chop text).dropWhile isWhitespace ↔ word <+: text.dropWhile isWhitespace := by
  unfold chop stripSuffix
  split
  · rename_i last
    obtain ⟨start,rfl⟩ := List.getLast?_eq_some_iff.mp last
    rw [List.dropLast_concat,List.dropWhile_append]
    split
    · rename_i blank
      rw [List.isEmpty_iff.mp blank]
      exact Iff.rfl
    · exact (prefix_before apart).symm
  · exact Iff.rfl

-- The first line of a text and what follows it.
theorem splitOn_first (text : List Char) : ∃ line more, text.splitOn '\n' = line :: more ∧ '\n' ∉ line ∧
    (more = [] ∧ text = line ∨ ∃ rest, more = rest.splitOn '\n' ∧ text = line ++ '\n' :: rest) := by
  induction text with
  | nil => exact ⟨[],[],rfl,List.not_mem_nil,.inl ⟨rfl,rfl⟩⟩
  | cons c text ih =>
    rw [List.splitOn_cons_eq_if_modifyHead]
    split
    · rename_i newline
      rw [eq_of_beq newline]
      exact ⟨[],_,rfl,List.not_mem_nil,.inr ⟨text,rfl,rfl⟩⟩
    · rename_i other
      obtain ⟨line,more,split_,plain,whole⟩ := ih
      refine ⟨c :: line,more,by rw [split_]; rfl,?_,?_⟩
      · rw [List.mem_cons,not_or]
        exact ⟨fun same => other (beq_iff_eq.mpr same.symm),plain⟩
      · rcases whole with ⟨none,whole⟩ | ⟨rest,rows,whole⟩
        · exact .inl ⟨none,congrArg (c :: ·) whole⟩
        · exact .inr ⟨rest,rows,congrArg (c :: ·) whole⟩

-- Letters before the text make the first line longer.
theorem splitOn_behind (plain : '\n' ∉ before) : ∃ line more, (before ++ text).splitOn '\n' = (before ++ line) :: more ∧ '\n' ∉ line ∧
    (more = [] ∧ text = line ∨ ∃ rest, more = rest.splitOn '\n' ∧ text = line ++ '\n' :: rest) := by
  obtain ⟨line,more,-,free,whole⟩ := splitOn_first text
  have both : '\n' ∉ before ++ line := by
    rw [List.mem_append,not_or]
    exact ⟨plain,free⟩
  rcases whole with ⟨none,rfl⟩ | ⟨rest,rows,rfl⟩
  · exact ⟨text,[],List.splitOn_eq_singleton both,free,.inl ⟨rfl,rfl⟩⟩
  · refine ⟨line,rest.splitOn '\n',?_,free,.inr ⟨rest,rfl,rfl⟩⟩
    rw [← List.append_assoc,List.splitOn_append_cons_self_of_not_mem both]

theorem joinLines_suffix {rows more : List (List Char)} (behind : more <:+ rows) : joinLines more <:+ joinLines rows := by
  obtain ⟨first,rfl⟩ := behind
  cases more with
  | nil => exact List.nil_suffix
  | cons line more => exact ⟨closed first,(joinLines_closed (List.cons_ne_nil _ _)).symm⟩

end Occurrences

end AlineaCopilot.TextLines
