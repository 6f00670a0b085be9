import AlineaCopilot.McpTransports
import AlineaCopilot.ShellWords
open AlineaCopilot.KeyedMaps AlineaCopilot.RustText AlineaCopilot.ShellWords

namespace AlineaCopilot.McpServers

section Statements
variable (line : Line isWhitespace) (unclosed : OpenLine isWhitespace) (env : KeyedMap String String)

abbrev written (text : List Char) : McpServerTransport := .stdio (String.ofList text) [] env

-- The command starts with a known launcher, as the guard reads its first word.
def NamesLauncher (text : List Char) : Prop :=
  splittableStdioLaunchers.contains (firstToken (trim (String.ofList text))) = true

-- A line of a known launcher gives its words, any other is left as it is.
def SplitsExactly : Prop :=
  if String.ofList line.first.value ∈ splittableStdioLaunchers then
    normalizeTransport (written env line.text) =
      .ok (.stdio (String.ofList line.first.value) (line.rest.map fun next => String.ofList next.2.value) env)
  else normalizeTransport (written env line.text) = .ok (written env line.text)

-- A launcher that stands alone is bare. One that does not is quoted at its ends only;
-- no argument is empty, keeps a backslash of its double quotes or ends the line in an
-- escaped separator. Another program does not look like a launcher, or nothing is
-- left of what follows it.
def Splittable : Prop :=
  if String.ofList line.first.value ∈ splittableStdioLaunchers then
    if line.rest = [] then line.first.text = line.first.value
    else NamesLauncher line.text ∧ (∀ word ∈ line.words, word.value ≠ [] ∧ word.keeps = false) ∧ line.last.blank = false
  else ¬NamesLauncher line.text ∨ ((left Piece.value line.words).filter (· ≠ [])).length < 2

def RefusesUnclosed : Prop :=
  normalizeTransport (written env unclosed.text) = .error (.invalidTransport "Unterminated quoted command string")

def Launched : Prop :=
  (trim (String.ofList unclosed.text)).toList.any isWhitespace = true ∧ NamesLauncher unclosed.text

def Idempotent (transport : McpServerTransport) : Prop :=
  ∀ after, normalizeTransport transport = .ok after → normalizeTransport after = .ok after

def KeepsExplicit (transport : McpServerTransport) : Prop :=
  (∀ command env, transport ≠ .stdio command [] env) → normalizeTransport transport = .ok transport

end Statements

section Scanning

-- One step of the loop inside quotation marks and outside of them; a backslash
-- at the very end is dropped.
theorem scan_within_next : scan (some active) tokens current (ch :: next :: rest) =
    if ch = active then scan none tokens current (next :: rest)
    else if ch = '\\' ∧ active = '"' then scan (some active) tokens (current ++ [next]) rest
    else scan (some active) tokens (current ++ [ch]) (next :: rest) := rfl

theorem scan_within_last : scan (some active) tokens current [ch] =
    if ch = active then scan none tokens current []
    else if ch = '\\' ∧ active = '"' then scan (some active) tokens current []
    else scan (some active) tokens (current ++ [ch]) [] := rfl

theorem scan_outside_next : scan none tokens current (ch :: next :: rest) =
    if ch = '"' ∨ ch = '\'' then scan (some ch) tokens current (next :: rest)
    else if ch = '\\' then scan none tokens (current ++ [next]) rest
    else if isWhitespace ch then scan none (push tokens current) [] (next :: rest)
    else scan none tokens (current ++ [ch]) (next :: rest) := rfl

theorem scan_outside_last : scan none tokens current [ch] =
    if ch = '"' ∨ ch = '\'' then scan (some ch) tokens current []
    else if ch = '\\' then scan none tokens current []
    else if isWhitespace ch then scan none (push tokens current) [] []
    else scan none tokens (current ++ [ch]) [] := rfl

theorem scan_closes : scan (some active) tokens current (active :: rest) = scan none tokens current rest := by
  cases rest <;> simp [scan_within_next,scan_within_last]

theorem scan_quoted (other : ch ≠ active) (free : ¬(ch = '\\' ∧ active = '"')) :
    scan (some active) tokens current (ch :: rest) = scan (some active) tokens (current ++ [ch]) rest := by
  cases rest <;> simp [scan_within_next,scan_within_last,other,free]

theorem scan_escaped_quoted :
    scan (some '"') tokens current ('\\' :: next :: rest) = scan (some '"') tokens (current ++ [next]) rest := by
  simp [scan_within_next]

theorem scan_opens (quote : ch = '"' ∨ ch = '\'') :
    scan none tokens current (ch :: rest) = scan (some ch) tokens current rest := by
  cases rest <;> simp [scan_outside_next,scan_outside_last,quote]

theorem scan_escaped : scan none tokens current ('\\' :: next :: rest) = scan none tokens (current ++ [next]) rest := by
  simp [scan_outside_next]

theorem scan_bare (free : isWhitespace ch = false ∧ ch ≠ '"' ∧ ch ≠ '\'' ∧ ch ≠ '\\') :
    scan none tokens current (ch :: rest) = scan none tokens (current ++ [ch]) rest := by
  cases rest <;> simp [scan_outside_next,scan_outside_last,free]

theorem blank_plain (blank : isWhitespace c = true) : c ≠ '"' ∧ c ≠ '\'' ∧ c ≠ '\\' := by
  refine ⟨?_,?_,?_⟩ <;> rintro rfl <;> cases blank

theorem scan_blank (blank : isWhitespace ch = true) :
    scan none tokens current (ch :: rest) = scan none (push tokens current) [] rest := by
  have plain := blank_plain blank
  cases rest <;> simp [scan_outside_next,scan_outside_last,plain,blank]

theorem scan_single {inner : List Char} (closed : '\'' ∉ inner) :
    scan (some '\'') tokens current (inner ++ '\'' :: rest) = scan none tokens (current ++ inner) rest := by
  induction inner generalizing current with
  | nil => simp [scan_closes]
  | cons head tail ih =>
    simp only [List.mem_cons,not_or] at closed
    rw [List.cons_append,scan_quoted (fun same => closed.1 same.symm) (fun escape => absurd escape.2 (by decide)),ih closed.2]
    simp

theorem scan_inner (inner : Inner) :
    scan (some '"') tokens current (inner.text ++ rest) = scan (some '"') tokens (current ++ inner.bared) rest := by
  cases inner with
  | plain c free => exact scan_quoted free.1 fun escape => free.2 escape.1
  | escaped c _ | kept c _ => exact scan_escaped_quoted

theorem scan_double (inner : List Inner) :
    scan (some '"') tokens current (inner.flatMap Inner.text ++ '"' :: rest) =
      scan none tokens (current ++ inner.flatMap Inner.bared) rest := by
  induction inner generalizing current with
  | nil => simp [scan_closes]
  | cons head tail ih =>
    rw [List.flatMap_cons,List.append_assoc,scan_inner,ih]
    simp

theorem scan_piece (piece : Piece isWhitespace) :
    scan none tokens current (piece.text ++ rest) = scan none tokens (current ++ piece.bared) rest := by
  cases piece with
  | bare c free => exact scan_bare free
  | escaped c => exact scan_escaped
  | single inner closed =>
    simp only [Piece.text,Piece.bared,List.cons_append,List.append_assoc,List.nil_append]
    rw [scan_opens (.inr rfl),scan_single closed]
  | double inner =>
    simp only [Piece.text,Piece.bared,List.cons_append,List.append_assoc,List.nil_append]
    rw [scan_opens (.inl rfl),scan_double]

theorem scan_pieces (pieces : List (Piece isWhitespace)) :
    scan none tokens current (pieces.flatMap Piece.text ++ rest) =
      scan none tokens (current ++ pieces.flatMap Piece.bared) rest := by
  induction pieces generalizing current with
  | nil => simp
  | cons head tail ih =>
    rw [List.flatMap_cons,List.append_assoc,scan_piece,ih]
    simp

theorem scan_blanks {text : List Char} (blank : ∀ c ∈ text, isWhitespace c = true) :
    scan none tokens [] (text ++ rest) = scan none tokens [] rest := by
  induction text with
  | nil => rfl
  | cons head tail ih =>
    rw [List.cons_append,scan_blank (blank head List.mem_cons_self)]
    exact ih fun c inside => blank c (List.mem_cons_of_mem _ inside)

theorem scan_gap (gap : Gap isWhitespace) :
    scan none tokens current (gap.text ++ rest) = scan none (push tokens current) [] rest := by
  obtain ⟨text,written,blank⟩ := gap
  cases text with
  | nil => exact absurd rfl written
  | cons head tail =>
    show scan none tokens current (head :: (tail ++ rest)) = _
    rw [scan_blank (blank head List.mem_cons_self)]
    exact scan_blanks fun c inside => blank c (List.mem_cons_of_mem _ inside)

theorem scan_unclosed {inner : List Char} (unclosed : Unclosed quote inner) :
    scan (some quote) tokens current inner = .error "Unterminated quoted command string" := by
  induction unclosed generalizing current with
  | single open_ =>
    rename_i inner
    induction inner generalizing current with
    | nil => rfl
    | cons head tail ih =>
      simp only [List.mem_cons,not_or] at open_
      rw [scan_quoted (fun same => open_.1 same.symm) (fun escape => absurd escape.2 (by decide))]
      exact ih open_.2
  | double | lone => rfl
  | plain free rest ih => rw [scan_quoted free.1 fun escape => free.2 escape.1,ih]
  | escaped rest ih => rw [scan_escaped_quoted,ih]

-- Words follow each other, and at last something that ends the last word.
theorem scan_groups {ending : List Char} (ends : ∀ tokens current, scan none tokens current ending = .ok (push tokens current))
    (rest : List (Gap isWhitespace × List (Piece isWhitespace))) :
    scan none tokens current ((rest.flatMap fun next => next.1.text ++ next.2.flatMap Piece.text) ++ ending) =
      .ok ((rest.map fun next => next.2.flatMap Piece.bared).foldl push (push tokens current)) := by
  induction rest generalizing tokens current with
  | nil => exact ends tokens current
  | cons head tail ih =>
    simp only [List.flatMap_cons,List.append_assoc,List.map_cons,List.foldl_cons]
    rw [scan_gap,scan_pieces,ih]
    rfl

theorem push_all (words : List (List Char)) :
    words.foldl push tokens = tokens ++ (words.filter (· ≠ [])).map String.ofList := by
  induction words generalizing tokens with
  | nil => simp
  | cons head tail ih =>
    rw [List.foldl_cons,ih]
    by_cases empty : head = []
    · simp [push,empty]
    · simp [push,empty]

end Scanning

section Trimming

theorem trim_list (text : List Char) :
    trim (String.ofList text) = String.ofList ((text.dropWhile isWhitespace).reverse.dropWhile isWhitespace).reverse := by
  rw [trim,String.toList_ofList]

theorem trim_end (front back : List Char) (solid : isWhitespace c = false) :
    ((front ++ c :: back).reverse.dropWhile isWhitespace).reverse = front ++ c :: (back.reverse.dropWhile isWhitespace).reverse := by
  rw [List.reverse_append,List.reverse_cons,List.append_assoc,List.dropWhile_append]
  split
  · rename_i none_
    simp [List.isEmpty_iff.mp none_,solid]
  · simp

theorem piece_head (piece : Piece isWhitespace) : ∃ c tail, piece.text = c :: tail ∧ isWhitespace c = false := by
  cases piece with
  | bare c free => exact ⟨c,[],rfl,free.1⟩
  | escaped c => exact ⟨_,_,rfl,by decide⟩
  | single inner closed => exact ⟨_,_,rfl,by decide⟩
  | double inner => exact ⟨_,_,rfl,by decide⟩

theorem pieces_head (pieces : List (Piece isWhitespace)) (written : pieces ≠ []) :
    ∃ c tail, pieces.flatMap Piece.text = c :: tail ∧ isWhitespace c = false := by
  cases pieces with
  | nil => exact absurd rfl written
  | cons head rest =>
    obtain ⟨c,tail,text,solid⟩ := piece_head head
    exact ⟨c,tail ++ rest.flatMap Piece.text,by rw [List.flatMap_cons,text,List.cons_append],solid⟩

theorem piece_last (piece : Piece isWhitespace) (solid : piece.blank = false) :
    ∃ front c, piece.text = front ++ [c] ∧ isWhitespace c = false := by
  cases piece with
  | bare c free => exact ⟨[],c,rfl,free.1⟩
  | escaped c => exact ⟨['\\'],c,rfl,solid⟩
  | single inner closed => exact ⟨'\'' :: inner,'\'',rfl,by decide⟩
  | double inner => exact ⟨'"' :: inner.flatMap Inner.text,'"',rfl,by decide⟩

-- What stands after the last letter that is not cut off.
def Ends (core tail : List Char) : Prop :=
  (tail = [] ∧ ∃ front c, core = front ++ [c] ∧ isWhitespace c = false) ∨ ∃ c, isWhitespace c = true ∧ tail = ['\\',c]

theorem Ends.after (ends : Ends core tail) (before : List Char) : Ends (before ++ core) tail := by
  rcases ends with ⟨rfl,front,c,rfl,solid⟩ | blank
  · exact .inl ⟨rfl,before ++ front,c,(List.append_assoc _ _ _).symm,solid⟩
  · exact .inr blank

theorem Ends.trims (ends : Ends core tail) :
    ∃ ending, (ending = [] ∨ ending = ['\\']) ∧
      ((core ++ tail).reverse.dropWhile isWhitespace).reverse = core ++ ending := by
  rcases ends with ⟨rfl,front,c,rfl,solid⟩ | ⟨c,blank,rfl⟩
  · refine ⟨[],.inl rfl,?_⟩
    rw [List.append_nil,trim_end front [] solid]
    rfl
  · refine ⟨['\\'],.inr rfl,?_⟩
    rw [trim_end core [c] (by decide)]
    simp [blank]

theorem word_text (word : Word isWhitespace) : ∃ tail, word.text = word.cut.flatMap Piece.text ++ tail ∧
    Ends (word.cut.flatMap Piece.text) tail := by
  have whole := List.dropLast_concat_getLast word.written
  unfold Word.cut Word.text
  cases blank : word.blank with
  | false =>
    refine ⟨[],(List.append_nil _).symm,.inl ⟨rfl,?_⟩⟩
    obtain ⟨front,c,text,solid⟩ := piece_last _ blank
    refine ⟨word.pieces.dropLast.flatMap Piece.text ++ front,c,?_,solid⟩
    simp only [Bool.false_eq_true,if_false]
    rw [← whole,List.flatMap_append,List.flatMap_singleton,List.dropLast_concat_getLast,text,List.append_assoc]
  | true =>
    unfold Word.blank at blank
    cases last : word.pieces.getLast word.written with
    | escaped c =>
      rw [last] at blank
      refine ⟨['\\',c],?_,.inr ⟨c,blank,rfl⟩⟩
      rw [last] at whole
      conv_lhs => rw [← whole,List.flatMap_append]
      rfl
    | bare c free | single inner closed | double inner =>
      rw [last] at blank
      cases blank

def cutRest : List (Gap isWhitespace × Word isWhitespace) → List (Gap isWhitespace × List (Piece isWhitespace))
  | [] => []
  | [next] => [(next.1,next.2.cut)]
  | next :: more :: rest => (next.1,next.2.pieces) :: cutRest (more :: rest)

theorem rest_text (rest : List (Gap isWhitespace × Word isWhitespace)) (some_ : rest ≠ []) :
    ∃ tail, (rest.flatMap fun next => next.1.text ++ next.2.text) =
      ((cutRest rest).flatMap fun next => next.1.text ++ next.2.flatMap Piece.text) ++ tail ∧
        Ends ((cutRest rest).flatMap fun next => next.1.text ++ next.2.flatMap Piece.text) tail := by
  fun_induction cutRest rest with
  | case1 => exact absurd rfl some_
  | case2 next =>
    obtain ⟨tail,text,ends⟩ := word_text next.2
    refine ⟨tail,?_,?_⟩
    · simp [text]
    · simpa using ends.after next.1.text
  | case3 next more rest ih =>
    obtain ⟨tail,text,ends⟩ := ih (List.cons_ne_nil _ _)
    refine ⟨tail,?_,?_⟩
    · rw [List.flatMap_cons,text,List.flatMap_cons]
      simp [Word.text]
    · rw [List.flatMap_cons]
      exact ends.after _

theorem cutRest_left (rest : List (Gap isWhitespace × Word isWhitespace)) :
    (cutRest rest).map (fun next => next.2.flatMap Piece.bared) = left Piece.bared (rest.map Prod.snd) := by
  fun_induction cutRest rest with
  | case1 | case2 next => rfl
  | case3 next more rest ih =>
    simp only [List.map_cons,left,List.cons.injEq,true_and] at ih ⊢
    exact ih

end Trimming

section Splitting

def launch : List String → Option (String × List String)
  | program :: next :: args => some (program,next :: args)
  | _ => none

theorem launch_few {tokens : List String} (few : tokens.length < 2) : launch tokens = none := by
  match tokens with
  | [] | [_] => rfl
  | _ :: _ :: _ =>
    simp only [List.length_cons] at few
    omega

theorem line_head (line : Line isWhitespace) : ∃ c tail, line.text = c :: tail ∧ isWhitespace c = false := by
  obtain ⟨c,tail,text,solid⟩ := pieces_head line.first.pieces line.first.written
  refine ⟨c,tail ++ line.rest.flatMap fun next => next.1.text ++ next.2.text,?_,solid⟩
  rw [Line.text,Word.text,text]
  rfl

theorem ending_scans {ending : List Char} (short : ending = [] ∨ ending = ['\\']) :
    scan none tokens current ending = .ok (push tokens current) := by
  rcases short with rfl | rfl <;> rfl

-- A line is what the words leave, and then at most one escaped separator.
theorem line_core (line : Line isWhitespace) : ∃ core tail, line.text = core ++ tail ∧ Ends core tail ∧
    (line.rest ≠ [] → core.any isWhitespace = true) ∧
    ∀ ending, ending = [] ∨ ending = ['\\'] →
      scan none [] [] (core ++ ending) = .ok (((left Piece.bared line.words).filter (· ≠ [])).map String.ofList) := by
  obtain ⟨first,rest⟩ := line
  cases rest with
  | nil =>
    obtain ⟨tail,text,ends⟩ := word_text first
    refine ⟨_,tail,?_,ends,fun some_ => absurd rfl some_,fun ending short => ?_⟩
    · simp [Line.text,text]
    · rw [scan_pieces,List.nil_append,ending_scans short]
      show Except.ok ([first.cut.flatMap Piece.bared].foldl push []) = _
      rw [push_all]
      rfl
  | cons next rest =>
    obtain ⟨tail,text,ends⟩ := rest_text (next :: rest) (List.cons_ne_nil _ _)
    refine ⟨_,tail,?_,ends.after (first.pieces.flatMap Piece.text),fun _ => ?_,fun ending short => ?_⟩
    · rw [Line.text,text,Word.text,List.append_assoc]
    · -- The first separator stands in the text.
      obtain ⟨gap,groups,begins⟩ : ∃ pieces groups, cutRest (next :: rest) = (next.1,pieces) :: groups := by
        cases rest with
        | nil => exact ⟨_,_,rfl⟩
        | cons more rest => exact ⟨_,_,rfl⟩
      obtain ⟨c,separator,written⟩ := List.exists_cons_of_ne_nil next.1.written
      rw [begins,List.flatMap_cons,List.any_append,List.any_append,List.any_append,written,List.any_cons,
        next.1.blank c (by rw [written]; exact List.mem_cons_self)]
      simp
    · rw [List.append_assoc,scan_pieces,scan_groups (fun _ _ => ending_scans short),List.nil_append,cutRest_left]
      show Except.ok ((first.pieces.flatMap Piece.bared :: left Piece.bared ((next :: rest).map Prod.snd)).foldl push []) = _
      rw [push_all]
      rfl

-- The line without the separators around it.
theorem line_trimmed (line : Line isWhitespace) :
    ∃ text, trim (String.ofList line.text) = String.ofList text ∧ text ≠ [] ∧ (line.rest ≠ [] → text.any isWhitespace = true) ∧
      scan none [] [] text = .ok (((left Piece.bared line.words).filter (· ≠ [])).map String.ofList) := by
  obtain ⟨c,after,head,solid⟩ := line_head line
  have start : line.text.dropWhile isWhitespace = line.text := by
    rw [head,List.dropWhile_cons_of_neg (by simp [solid])]
  obtain ⟨core,tail,text,ends,spaced,scans⟩ := line_core line
  obtain ⟨ending,short,trims⟩ := ends.trims
  refine ⟨core ++ ending,?_,?_,?_,scans ending short⟩
  · rw [trim_list,start,text,trims]
  · rw [← trims,← text,head,← List.nil_append (c :: after),trim_end [] after solid]
    exact List.append_ne_nil_of_right_ne_nil _ (List.cons_ne_nil _ _)
  · intro some_
    rw [List.any_append,spaced some_,Bool.true_or]

theorem left_words (line : Line isWhitespace) (alone : line.rest = []) :
    (((left Piece.bared line.words).filter (· ≠ [])).map String.ofList).length < 2 := by
  have length := left_length Piece.bared line.words
  have fewer := List.length_filter_le (· ≠ []) (left Piece.bared line.words)
  rw [Line.words,alone] at length
  rw [List.length_map]
  simp only [List.map_nil,List.length_cons,List.length_nil] at length
  simp only [Line.words,alone,List.map_nil] at fewer ⊢
  omega

theorem split_line (line : Line isWhitespace) (named : NamesLauncher line.text) :
    splitStdioCommand (String.ofList line.text) =
      .ok (launch (((left Piece.bared line.words).filter (· ≠ [])).map String.ofList)) := by
  obtain ⟨text,trimmed,written,spaced,scans⟩ := line_trimmed line
  unfold NamesLauncher at named
  rw [trimmed] at named
  simp only [splitStdioCommand,trimmed,named,shellSplit,String.toList_ofList,scans]
  split
  · rename_i nothing
    have alone : line.rest = [] := by
      by_contra some_
      rcases nothing with empty | none_
      · exact written (by simpa using congrArg String.toList empty)
      · rw [spaced some_] at none_
        cases none_
    rw [launch_few (left_words line alone)]
  · simp only [Bool.true_eq_false,if_false]
    generalize ((left Piece.bared line.words).filter (· ≠ [])).map String.ofList = tokens
    match tokens with
    | [] | [_] | _ :: _ :: _ => rfl

theorem unclosed_quote {inner : List Char} (unclosed : Unclosed quote inner) : quote = '"' ∨ quote = '\'' := by
  cases unclosed with
  | single _ => exact .inr rfl
  | double | lone | plain _ _ | escaped _ => exact .inl rfl

theorem scan_words (tokens : List String) (current : List Char) (words : List (Word isWhitespace × Gap isWhitespace)) : ∃ after letters,
    scan none tokens current ((words.flatMap fun next => next.1.text ++ next.2.text) ++ tail) = scan none after letters tail := by
  induction words generalizing tokens current with
  | nil => exact ⟨tokens,current,rfl⟩
  | cons head rest ih =>
    simp only [List.flatMap_cons,List.append_assoc,Word.text]
    rw [scan_pieces,scan_gap]
    exact ih _ _

theorem open_head (line : OpenLine isWhitespace) : ∃ c tail, line.text = c :: tail ∧ isWhitespace c = false := by
  obtain ⟨words,pieces,quote,inner,unclosed⟩ := line
  cases words with
  | nil =>
    cases pieces with
    | nil =>
      refine ⟨quote,inner,rfl,?_⟩
      rcases unclosed_quote unclosed with rfl | rfl <;> decide
    | cons head rest =>
      obtain ⟨c,tail,text,solid⟩ := pieces_head (head :: rest) (List.cons_ne_nil _ _)
      refine ⟨c,tail ++ quote :: inner,?_,solid⟩
      simp only [OpenLine.text,List.flatMap_nil,List.nil_append,text,List.cons_append]
  | cons head rest =>
    obtain ⟨c,tail,text,solid⟩ := pieces_head head.1.pieces head.1.written
    refine ⟨c,tail ++ head.2.text ++ (rest.flatMap fun next => next.1.text ++ next.2.text) ++
      pieces.flatMap Piece.text ++ quote :: inner,?_,solid⟩
    simp only [OpenLine.text,List.flatMap_cons,Word.text,text,List.cons_append,List.append_assoc]

-- What is trimmed off an unclosed line was inside its quotes.
theorem open_trimmed (line : OpenLine isWhitespace) : ∃ text, trim (String.ofList line.text) = String.ofList text ∧ text ≠ [] ∧
    scan none [] [] text = .error "Unterminated quoted command string" := by
  obtain ⟨c,after,head,solid⟩ := open_head line
  have start : line.text.dropWhile isWhitespace = line.text := by
    rw [head,List.dropWhile_cons_of_neg (by simp [solid])]
  have quoted := unclosed_quote line.unclosed
  have quote_solid : isWhitespace line.quote = false := by
    rcases quoted with same | same <;> rw [same] <;> decide
  have parts : line.inner = (line.inner.reverse.dropWhile isWhitespace).reverse ++ (line.inner.reverse.takeWhile isWhitespace).reverse := by
    rw [← List.reverse_append,List.takeWhile_append_dropWhile,List.reverse_reverse]
  refine ⟨_,(trim_list _).trans (by rw [start,OpenLine.text,trim_end _ _ quote_solid]),?_,?_⟩
  · exact List.append_ne_nil_of_right_ne_nil _ (List.cons_ne_nil _ _)
  · rw [List.append_assoc]
    obtain ⟨tokens,current,scanned⟩ := scan_words [] [] line.words
    rw [scanned,scan_pieces,scan_opens quoted]
    exact scan_unclosed (line.unclosed.before parts)

theorem split_open (line : OpenLine isWhitespace) (launched : Launched line) :
    splitStdioCommand (String.ofList line.text) = .error (.invalidTransport "Unterminated quoted command string") := by
  obtain ⟨text,trimmed,written,scans⟩ := open_trimmed line
  obtain ⟨spaced,named⟩ := launched
  unfold NamesLauncher at named
  rw [trimmed] at named spaced
  rw [String.toList_ofList] at spaced
  have some_ : String.ofList text ≠ "" := fun empty => written (by simpa using congrArg String.toList empty)
  simp only [splitStdioCommand,trimmed,named,shellSplit,String.toList_ofList,scans,some_,spaced,false_or,Bool.true_eq_false,if_false]

theorem split_plain {text : List Char} (plain : (trim (String.ofList text)).toList.any isWhitespace = false) :
    splitStdioCommand (String.ofList text) = .ok none := by
  simp only [splitStdioCommand,plain,or_true,if_true]

theorem split_other {text : List Char} (other : ¬NamesLauncher text) : splitStdioCommand (String.ofList text) = .ok none := by
  unfold NamesLauncher at other
  rw [Bool.not_eq_true] at other
  simp only [splitStdioCommand,other,if_true]
  split <;> rfl

end Splitting

section Results

theorem normalize_none (unsplit : splitStdioCommand (String.ofList text) = .ok none) :
    normalizeTransport (written env text) = .ok (written env text) := by
  simp only [normalizeTransport,unsplit]
  rfl

theorem normalize_launch (env : KeyedMap String String) (split_ : splitStdioCommand (String.ofList text) = .ok (launch tokens)) :
    (tokens.length < 2 ∧ normalizeTransport (written env text) = .ok (written env text)) ∨
      ∃ program next args, tokens = program :: next :: args ∧
        normalizeTransport (written env text) = .ok (.stdio program (next :: args) env) := by
  match tokens with
  | [] | [_] => exact .inl ⟨by simp,normalize_none split_⟩
  | program :: next :: args =>
    refine .inr ⟨program,next,args,rfl,?_⟩
    simp only [normalizeTransport,split_]
    rfl

theorem ofList_map_inj {xs ys : List (List Char)} : xs.map String.ofList = ys.map String.ofList ↔ xs = ys :=
  (List.map_injective_iff.mpr fun _ _ => String.ofList_injective).eq_iff

theorem filter_exact {read expected : List (List Char)} (length : read.length = expected.length) :
    read.filter (· ≠ []) = expected ↔ read = expected ∧ ∀ word ∈ expected, word ≠ [] := by
  constructor
  · intro equal
    have all := List.length_filter_eq_length_iff.mp ((congrArg List.length equal).trans length.symm)
    have same : read = expected := (List.filter_eq_self.mpr all).symm.trans equal
    exact ⟨same,fun word inside => by simpa using all word (same ▸ inside)⟩
  · rintro ⟨rfl,written⟩
    exact List.filter_eq_self.mpr fun word inside => by simpa using written word inside

theorem line_read_iff (line : Line isWhitespace) :
    (left Piece.bared line.words).filter (· ≠ []) = line.words.map Word.value ↔
      (∀ word ∈ line.words, word.value ≠ [] ∧ word.keeps = false) ∧ line.last.blank = false := by
  rw [filter_exact (by rw [left_length,List.length_map]),left_iff line.words (List.cons_ne_nil _ _)]
  simp only [List.forall_mem_map]
  constructor
  · rintro ⟨⟨bare,solid⟩,written⟩
    exact ⟨fun word inside => ⟨written word inside,bare word inside⟩,solid⟩
  · rintro ⟨whole,solid⟩
    exact ⟨⟨fun word inside => (whole word inside).2,solid⟩,fun word inside => (whole word inside).1⟩

theorem alone_iff (line : Line isWhitespace) (alone : line.rest = []) :
    normalizeTransport (written env line.text) = .ok (.stdio (String.ofList line.first.value) [] env) ↔
      line.first.text = line.first.value := by
  have kept : normalizeTransport (written env line.text) = .ok (written env line.text) := by
    by_cases named : NamesLauncher line.text
    · refine normalize_none ((split_line line named).trans ?_)
      rw [launch_few (left_words line alone)]
    · exact normalize_none (split_other named)
  have text : line.text = line.first.text := by simp [Line.text,alone]
  rw [kept,text,Except.ok.injEq,McpServerTransport.stdio.injEq]
  simp only [and_true]
  exact ⟨fun same => String.ofList_injective same,congrArg String.ofList⟩

theorem launched_iff (line : Line isWhitespace) (some_ : line.rest ≠ []) :
    normalizeTransport (written env line.text) =
        .ok (.stdio (String.ofList line.first.value) (line.rest.map fun next => String.ofList next.2.value) env) ↔
      NamesLauncher line.text ∧ (∀ word ∈ line.words, word.value ≠ [] ∧ word.keeps = false) ∧ line.last.blank = false := by
  have args : (line.rest.map fun next => String.ofList next.2.value) ≠ [] := by simpa using some_
  have expected : String.ofList line.first.value :: (line.rest.map fun next => String.ofList next.2.value) =
      (line.words.map Word.value).map String.ofList := by
    simp only [Line.words,List.map_cons,List.map_map]
    rfl
  by_cases named : NamesLauncher line.text
  · rw [← line_read_iff,← ofList_map_inj,← expected]
    simp only [named,true_and]
    rcases normalize_launch env (split_line line named) with ⟨few,kept⟩ | ⟨program,next,rest,tokens,split_⟩
    · rw [kept,Except.ok.injEq,McpServerTransport.stdio.injEq]
      constructor
      · exact fun same => absurd same.2.1.symm args
      · intro same
        rw [same,List.length_cons] at few
        exact absurd (List.length_eq_zero_iff.mp (by omega)) args
    · rw [split_,tokens,Except.ok.injEq,McpServerTransport.stdio.injEq,List.cons.injEq]
      simp only [and_true]
  · rw [normalize_none (split_other named),Except.ok.injEq,McpServerTransport.stdio.injEq]
    exact ⟨fun same => absurd same.2.1.symm args,fun launched => absurd launched.1 named⟩

theorem kept_iff (line : Line isWhitespace) :
    normalizeTransport (written env line.text) = .ok (written env line.text) ↔
      ¬NamesLauncher line.text ∨ ((left Piece.value line.words).filter (· ≠ [])).length < 2 := by
  by_cases named : NamesLauncher line.text
  · rw [← left_nonempty]
    simp only [named,not_true_eq_false,false_or]
    have tokens : (((left Piece.bared line.words).filter (· ≠ [])).map String.ofList).length = _ := List.length_map String.ofList
    rcases normalize_launch env (split_line line named) with ⟨few,kept⟩ | ⟨program,next,rest,many,split_⟩
    · exact ⟨fun _ => tokens ▸ few,fun _ => kept⟩
    · rw [split_,← tokens,many,Except.ok.injEq,McpServerTransport.stdio.injEq]
      constructor
      · exact fun same => absurd same.2.1 (List.cons_ne_nil _ _)
      · intro few
        simp only [List.length_cons] at few
        omega
  · exact ⟨fun _ => .inl named,fun _ => normalize_none (split_other named)⟩

theorem refuses_iff (unclosed : OpenLine isWhitespace) : RefusesUnclosed unclosed env ↔ Launched unclosed := by
  constructor
  · intro refused
    unfold RefusesUnclosed at refused
    by_contra other
    have kept : splitStdioCommand (String.ofList unclosed.text) = .ok none := by
      by_cases named : NamesLauncher unclosed.text
      · refine split_plain ?_
        rw [← Bool.not_eq_true]
        exact fun spaced => other ⟨spaced,named⟩
      · exact split_other named
    rw [normalize_none kept] at refused
    cases refused
  · intro launched
    simp only [RefusesUnclosed,normalizeTransport,split_open unclosed launched]
    rfl

theorem normalize_explicit {transport : McpServerTransport} : KeepsExplicit transport := by
  intro explicit
  match transport with
  | .stdio command [] env => exact absurd rfl (explicit command env)
  | .stdio command (arg :: args) env => rfl
  | .sse url headers | .http url headers => rfl

theorem split_args (split_ : splitStdioCommand command = .ok (some (program,args))) : ∃ next rest, args = next :: rest := by
  unfold splitStdioCommand at split_
  dsimp only at split_
  split at split_
  · cases split_
  · split at split_
    · cases split_
    · split at split_
      · cases split_
      · cases split_
        exact ⟨_,_,rfl⟩
      · cases split_

theorem normalize_idempotent {transport : McpServerTransport} : Idempotent transport := by
  intro after normalized
  match transport with
  | .stdio command [] env =>
    obtain ⟨text,rfl⟩ : ∃ text, command = String.ofList text := ⟨command.toList,String.ofList_toList.symm⟩
    cases split_ : splitStdioCommand (String.ofList text) with
    | error e =>
      simp only [normalizeTransport,split_] at normalized
      cases normalized
    | ok tokens =>
      match tokens with
      | none =>
        rw [show McpServerTransport.stdio (String.ofList text) [] env = written env text from rfl,normalize_none split_] at normalized
        cases normalized
        exact normalize_none split_
      | some (program,args) =>
        simp only [normalizeTransport,split_] at normalized
        cases normalized
        obtain ⟨next,rest,rfl⟩ := split_args split_
        rfl
  | .stdio command (arg :: args) env =>
    cases normalized
    rfl
  | .sse url headers | .http url headers =>
    cases normalized
    rfl

-- Splitting is exact on the lines named above, an unclosed quote is refused after a
-- launcher and white space, and the other commands are left alone once and for all.
theorem command_splitting_exact_iff (line : Line isWhitespace) (unclosed : OpenLine isWhitespace)
    (transport : McpServerTransport) (env : KeyedMap String String) :
    (SplitsExactly line env ↔ Splittable line) ∧ (RefusesUnclosed unclosed env ↔ Launched unclosed) ∧
      Idempotent transport ∧ KeepsExplicit transport := by
  refine ⟨?_,refuses_iff unclosed,normalize_idempotent,normalize_explicit⟩
  unfold SplitsExactly Splittable
  split
  · split
    · rename_i alone
      rw [alone]
      exact alone_iff line alone
    · rename_i some_
      exact launched_iff line some_
  · exact kept_iff line

def oneBlank : Gap isWhitespace where
  text := [' ']
  written := List.cons_ne_nil _ _
  blank := List.forall_mem_singleton.mpr rfl

-- An empty argument in quotes is lost.
def emptyArgument : Line isWhitespace :=
  ⟨⟨[.bare 'u' (by decide),.bare 'v' (by decide)],List.cons_ne_nil _ _⟩,
    [(oneBlank,⟨[.bare 'a' (by decide)],List.cons_ne_nil _ _⟩),
      (oneBlank,⟨[.single [] List.not_mem_nil],List.cons_ne_nil _ _⟩)]⟩

theorem empty_argument_lost : ¬∀ line env, SplitsExactly line env := by
  intro exact_
  have whole := exact_ emptyArgument ∅
  have known : String.ofList emptyArgument.first.value ∈ splittableStdioLaunchers := by decide
  rw [SplitsExactly,if_pos known] at whole
  have fact : normalizeTransport (written ∅ emptyArgument.text) = .ok (.stdio "uv" ["a"] ∅) := by
    have split_ : splitStdioCommand (String.ofList emptyArgument.text) = .ok (launch ["uv","a"]) := by decide +kernel
    simp only [normalizeTransport,split_]
    rfl
  rw [fact] at whole
  injection whole with whole
  injection whole with command args
  exact absurd (congrArg List.length args) (by decide)

end Results

end AlineaCopilot.McpServers
