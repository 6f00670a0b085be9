import AlineaCopilot.CronJobs
import AlineaCopilot.TextLines

open AlineaCopilot.RustText AlineaCopilot.TextLines AlineaCopilot.CronJobs

namespace AlineaCopilot.SkillFile

structure ParsedSkillContent where
  name : String
  description : String
  body : String
deriving DecidableEq, Repr

def delimiter : List Char := ['-','-','-']

def heading : List Char := "## Instructions".toList

def executing : String := "You are executing a scheduled task. Follow the instructions below directly."

def asking : String := "Do NOT ask clarifying questions — just execute the task and produce the result."

def sanitizedDesc (description : String) : List Char :=
  [' '].intercalate (inkedLines (lineList (unixBreaks description.toList)))

def buildLines (name description prompt : String) (scheduleDescription : Option String) : List (List Char) :=
  [delimiter,"name: ".toList ++ name.toList,"description: ".toList ++ sanitizedDesc description,delimiter,[],
    "This is a scheduled task: **".toList ++ name.toList ++ "**".toList] ++
  (match scheduleDescription with
    | some schedule => ["Schedule: ".toList ++ schedule.toList]
    | none => []) ++
  [[],heading,[],executing.toList,asking.toList,[],prompt.toList]

def buildSkillContent (name description prompt : String) (scheduleDescription : Option String) : String :=
  String.ofList (joinLines (buildLines name description prompt scheduleDescription))

-- The first line with the key, its value trimmed and not blank.
def field (key : String) (frontmatter : List (List Char)) : Option (List Char) :=
  ((frontmatter.findSome? fun line => key.toList.isPrefixOf? line).map trimLine).filter fun value => !value.isEmpty

def parseFrontmatter (content : String) : Except CronError (List Char × List Char × List Char) :=
  match lineList (unixBreaks content.toList) with
  | [] => .error (.invalidSkillContent "skill file must start with YAML frontmatter")
  | first :: rest =>
    if first = delimiter then
      match rest.dropWhile (· ≠ delimiter) with
      | [] => .error (.invalidSkillContent "skill file is missing the closing frontmatter delimiter")
      | _ :: bodyLines =>
        let frontmatter := rest.takeWhile (· ≠ delimiter)
        match field "name:" frontmatter with
        | none => .error (.invalidSkillContent "missing skill name")
        | some name =>
          match field "description:" frontmatter with
          | none => .error (.invalidSkillContent "missing skill description")
          | some description => .ok (name,description,joinLines (bodyLines.dropWhile (·.isEmpty)))
    else .error (.invalidSkillContent "skill file must start with YAML frontmatter")

-- The lines passed over behind the heading.
def skipped (line : List Char) : Bool :=
  let trimmed := trimLine line
  trimmed.isEmpty || "You are executing".toList.isPrefixOf trimmed || "Do NOT ask".toList.isPrefixOf trimmed

def extractPromptFromBody (body : List Char) : List Char :=
  match cut heading body with
  | none => trimEnd body
  | some (_,after) =>
    match (((heading ++ after).splitOn '\n').drop 1).dropWhile skipped with
    | [] => []
    | kept => trimEnd (joinLines kept)

def parseSkillContent (content : String) : Except CronError ParsedSkillContent :=
  (parseFrontmatter content).map fun (name,description,body) =>
    ⟨String.ofList name,String.ofList description,String.ofList (extractPromptFromBody body)⟩

-- What the file is to give back of a description and of a prompt.
def describedBy (description : String) : List Char := [' '].intercalate (inkedLines (description.toList.splitOnP isBreak))

def keptPrompt (prompt : String) : List Char := trimEnd (dropBlankLines prompt.toList)

def RoundTrips (name description prompt : String) (scheduleDescription : Option String) : Prop :=
  parseSkillContent (buildSkillContent name description prompt scheduleDescription) =
    .ok ⟨trim name,String.ofList (describedBy description),String.ofList (keptPrompt prompt)⟩

structure Clean (name prompt : String) (scheduleDescription : Option String) : Prop where
  name : ¬heading <:+: name.toList
  schedule : ∀ text, scheduleDescription = some text → ¬heading <:+: text.toList
  executing : ¬"You are executing".toList <+: prompt.toList.dropWhile isWhitespace
  asking : ¬"Do NOT ask".toList <+: prompt.toList.dropWhile isWhitespace
  breaks : '\r' ∉ keptPrompt prompt

section Descriptions
variable {line : List Char} {rows : List (List Char)}

-- A line with ink at both ends.
def Trimmed (line : List Char) : Prop := line ≠ [] ∧ line.dropWhile isWhitespace = line ∧ trimEnd line = line

theorem trimLine_trimmed (full : trimLine line ≠ []) : Trimmed (trimLine line) := by
  refine ⟨full,?_,List.rdropWhile_idempotent _ _⟩
  have starts := trimEnd_starts (line.dropWhile isWhitespace)
  unfold trimLine at full ⊢
  generalize trimmed : trimEnd (line.dropWhile isWhitespace) = text at full starts ⊢
  obtain ⟨c,rest,rfl⟩ := List.exists_cons_of_ne_nil full
  obtain ⟨tail,whole⟩ := starts
  rw [List.cons_append] at whole
  have ink : ¬isWhitespace c = true := by
    have head := List.head?_dropWhile_not isWhitespace line
    rw [← whole] at head
    simpa using head
  exact List.dropWhile_cons_of_neg ink

theorem inkedLines_trimmed (member : line ∈ inkedLines rows) : Trimmed line := by
  obtain ⟨there,full⟩ := List.mem_filter.mp member
  obtain ⟨raw,-,rfl⟩ := List.mem_map.mp there
  refine trimLine_trimmed fun empty => ?_
  rw [empty] at full
  cases full

theorem joined_trimmed (some_ : rows ≠ []) (each : ∀ line ∈ rows, Trimmed line) : Trimmed ([' '].intercalate rows) := by
  induction rows with
  | nil => exact absurd rfl some_
  | cons first rest ih =>
    rw [List.forall_mem_cons] at each
    by_cases alone : rest = []
    · subst alone
      rw [List.intercalate_singleton]
      exact each.1
    · obtain ⟨full,-,ends⟩ := ih alone each.2
      rw [List.intercalate_cons_of_ne_nil alone,List.append_assoc]
      obtain ⟨⟨head,starts,-⟩,-⟩ := each
      obtain ⟨c,tail,rfl⟩ := List.exists_cons_of_ne_nil head
      refine ⟨List.cons_ne_nil _ _,?_,?_⟩
      · have ink : ¬isWhitespace c = true := by
          intro blank
          rw [List.dropWhile_cons_of_pos blank] at starts
          have short := (List.dropWhile_suffix isWhitespace (l := tail)).length_le
          rw [starts,List.length_cons] at short
          omega
        exact List.dropWhile_cons_of_neg ink
      · have last : trimEnd ([' '] ++ [' '].intercalate rest) = [' '] ++ [' '].intercalate rest := by
          rw [trimEnd_keeps (by rwa [ends]),ends]
        rw [trimEnd_keeps (by rw [last]; exact List.cons_ne_nil _ _),last]

theorem sanitizedDesc_described (description : String) : sanitizedDesc description = describedBy description := by
  unfold sanitizedDesc describedBy
  rw [inkedLines_unixBreaks]

end Descriptions

section Layout
variable {name description prompt : String} {scheduleDescription : Option String}

def titleLine (name : String) : List Char := "This is a scheduled task: **".toList ++ name.toList ++ "**".toList

def scheduleText (schedule : String) : List Char := "Schedule: ".toList ++ schedule.toList

def nameLine (name : String) : List Char := "name: ".toList ++ name.toList

def descriptionLine (description : String) : List Char := "description: ".toList ++ sanitizedDesc description

def headerLines (name description : String) : List (List Char) :=
  [delimiter,nameLine name,descriptionLine description,delimiter,[]]

def leadLines : List (List Char) := [[],heading,[],executing.toList,asking.toList,[]]

-- The schedule's line as the reader sees it.
def scheduleLines : Option String → List (List Char)
  | some schedule => [unixBreaks (stripSuffix '\r' (scheduleText schedule))]
  | none => []

-- What stands behind the frontmatter and a blank line.
def bodyText (name prompt : String) (scheduleDescription : Option String) : List Char :=
  closed (titleLine name :: scheduleLines scheduleDescription) ++ (closed leadLines ++ unixBreaks prompt.toList)

theorem free_of_all {text : List Char} (each : text.all (fun c => !isBreak c) = true) : ∀ c ∈ text, isBreak c = false :=
  fun c inside => Bool.not_eq_true' _ ▸ List.all_eq_true.mp each c inside

theorem literal_free {text : String} {letters : List Char} (same : text = String.ofList letters)
    (each : letters.all (fun c => !isBreak c) = true) : ∀ c ∈ text.toList, isBreak c = false :=
  of_letters (p := fun text => ∀ c ∈ text, isBreak c = false) same (free_of_all each)

theorem heading_free : ∀ c ∈ heading, isBreak c = false := by
  unfold heading
  exact literal_free rfl (by decide)

theorem executing_free : ∀ c ∈ executing.toList, isBreak c = false := by
  unfold executing
  exact literal_free rfl (by decide)

theorem asking_free : ∀ c ∈ asking.toList, isBreak c = false := by
  unfold asking
  exact literal_free rfl (by decide)

theorem leadLines_free : ∀ row ∈ leadLines, ∀ c ∈ row, isBreak c = false := by
  have none : ∀ c ∈ ([] : List Char), isBreak c = false := fun _ inside => absurd inside List.not_mem_nil
  unfold leadLines
  rw [List.forall_mem_cons,List.forall_mem_cons,List.forall_mem_cons,List.forall_mem_cons,List.forall_mem_cons,List.forall_mem_singleton]
  exact ⟨none,heading_free,none,executing_free,asking_free,none⟩

theorem sanitizedDesc_free (description : String) : ∀ c ∈ sanitizedDesc description, isBreak c = false := by
  intro c inside
  have pieces : ∀ rows : List (List Char), (∀ line ∈ rows, ∀ d ∈ line, isBreak d = false) → c ∈ [' '].intercalate rows → isBreak c = false := by
    intro rows each
    induction rows with
    | nil => exact fun there => absurd there List.not_mem_nil
    | cons first rest ih =>
      rw [List.forall_mem_cons] at each
      by_cases alone : rest = []
      · subst alone
        rw [List.intercalate_singleton]
        exact each.1 c
      · rw [List.intercalate_cons_of_ne_nil alone,List.mem_append,List.mem_append,List.mem_singleton]
        rintro ((there | rfl) | there)
        · exact each.1 c there
        · decide
        · exact ih each.2 there
  refine pieces _ (fun line member d there => ?_) inside
  obtain ⟨raw,listed,rfl⟩ := List.mem_map.mp (List.mem_filter.mp member).1
  exact lineList_letters (unixBreaks_free _) listed ((trimLine_sublist raw).subset there)

theorem free_append {before after : List Char} (left : ∀ c ∈ before, isBreak c = false) (right : ∀ c ∈ after, isBreak c = false) :
    ∀ c ∈ before ++ after, isBreak c = false :=
  fun c inside => (List.mem_append.mp inside).elim (left c) (right c)

theorem titleLine_free (single : ∀ c ∈ name.toList, isBreak c = false) : ∀ c ∈ titleLine name, isBreak c = false :=
  free_append (free_append (literal_free rfl (by decide)) single) (literal_free rfl (by decide))

theorem headerLines_free (single : ∀ c ∈ name.toList, isBreak c = false) : ∀ row ∈ headerLines name description, ∀ c ∈ row, isBreak c = false := by
  have line : ∀ c ∈ delimiter, isBreak c = false := free_of_all (by decide)
  unfold headerLines
  rw [List.forall_mem_cons,List.forall_mem_cons,List.forall_mem_cons,List.forall_mem_cons,List.forall_mem_singleton]
  exact ⟨line,free_append (literal_free rfl (by decide)) single,free_append (literal_free rfl (by decide)) (sanitizedDesc_free _),line,
    fun _ inside => absurd inside List.not_mem_nil⟩

theorem unixBreaks_lead (prompt : String) :
    unixBreaks (joinLines (leadLines ++ [prompt.toList])) = closed leadLines ++ unixBreaks prompt.toList := by
  rw [joinLines_closed (List.cons_ne_nil _ _),unixBreaks_closed leadLines_free]
  exact congrArg (fun text => closed leadLines ++ unixBreaks text) List.intercalate_singleton

-- The written text with its line breaks as the reader sees them.
theorem content_text (single : ∀ c ∈ name.toList, isBreak c = false) :
    unixBreaks (buildSkillContent name description prompt scheduleDescription).toList =
      closed (headerLines name description) ++ bodyText name prompt scheduleDescription := by
  have free : ∀ row ∈ headerLines name description ++ [titleLine name], ∀ c ∈ row, isBreak c = false := by
    intro row member
    rcases List.mem_append.mp member with header | title
    · exact headerLines_free single row header
    · rw [List.mem_singleton.mp title]
      exact titleLine_free single
  have some_ : leadLines ++ [prompt.toList] ≠ [] := List.append_ne_nil_of_right_ne_nil _ (List.cons_ne_nil _ _)
  have glue : ∀ rows more : List (List Char), closed (rows ++ more) = closed rows ++ closed more := fun _ _ => List.flatMap_append
  rw [buildSkillContent,String.toList_ofList]
  cases scheduleDescription with
  | none =>
    show unixBreaks (joinLines ((headerLines name description ++ [titleLine name]) ++ (leadLines ++ [prompt.toList]))) = _
    rw [joinLines_closed some_,unixBreaks_closed free,unixBreaks_lead,glue,List.append_assoc]
    rfl
  | some schedule =>
    show unixBreaks (joinLines ((headerLines name description ++ [titleLine name]) ++ (scheduleText schedule :: (leadLines ++ [prompt.toList])))) = _
    rw [joinLines_closed (List.cons_ne_nil _ _),unixBreaks_closed free,joinLines_cons some_,unixBreaks_line,unixBreaks_lead,glue,
      List.append_assoc]
    unfold bodyText
    rw [closed_cons,scheduleLines,closed_cons,closed_cons]
    simp only [List.append_assoc,List.cons_append]
    rfl

theorem bodyText_clean (single : ∀ c ∈ name.toList, isBreak c = false) : '\r' ∉ bodyText name prompt scheduleDescription := by
  have free := unixBreaks_free (buildSkillContent name "" prompt scheduleDescription).toList
  rw [content_text single,List.mem_append,not_or] at free
  exact free.2

theorem nameLine_other (name : String) : nameLine name ≠ delimiter := by
  intro same
  cases (List.cons.inj same).1

theorem descriptionLine_other (description : String) : descriptionLine description ≠ delimiter := by
  intro same
  cases (List.cons.inj same).1

theorem titleLine_full (name : String) : titleLine name ≠ [] :=
  List.append_ne_nil_of_right_ne_nil _ (of_letters (p := (· ≠ [])) rfl (by decide))

-- One space stands between the key and the value.
theorem trimLine_space (text : List Char) : trimLine (' ' :: text) = trimLine text := by
  unfold trimLine
  rw [List.dropWhile_cons_of_pos (by decide)]

theorem field_name (named : trimLine name.toList ≠ []) (rest : List (List Char)) :
    field "name:" (nameLine name :: rest) = some (trimLine name.toList) := by
  have found : "name:".toList.isPrefixOf? (nameLine name) = some (' ' :: name.toList) := rfl
  have full : (!(trimLine name.toList).isEmpty) = true := by simpa using named
  unfold field
  rw [List.findSome?_cons,found,Option.map_some,trimLine_space,Option.filter_some,if_pos full]

theorem field_description (described : Trimmed (sanitizedDesc description)) (rest : List (List Char)) :
    field "description:" (nameLine name :: descriptionLine description :: rest) = some (sanitizedDesc description) := by
  have absent : "description:".toList.isPrefixOf? (nameLine name) = none := rfl
  have found : "description:".toList.isPrefixOf? (descriptionLine description) = some (' ' :: sanitizedDesc description) := rfl
  have full : (!(sanitizedDesc description).isEmpty) = true := by simpa using described.1
  have same : trimLine (sanitizedDesc description) = sanitizedDesc description := by
    unfold trimLine
    rw [described.2.1,described.2.2]
  unfold field
  rw [List.findSome?_cons,absent,List.findSome?_cons,found,Option.map_some,trimLine_space,same,Option.filter_some,if_pos full]

-- The reader's way through a file with two lines of frontmatter.
theorem parse_lines {content : String} {first second : List Char} {rest : List (List Char)} {name description : List Char}
    (rows : lineList (unixBreaks content.toList) = delimiter :: first :: second :: delimiter :: rest)
    (one : first ≠ delimiter) (two : second ≠ delimiter) (named : field "name:" [first,second] = some name)
    (described : field "description:" [first,second] = some description) :
    parseFrontmatter content = .ok (name,description,joinLines (rest.dropWhile (·.isEmpty))) := by
  have behind : (first :: second :: delimiter :: rest).dropWhile (· ≠ delimiter) = delimiter :: rest := by
    simp only [List.dropWhile_cons,decide_eq_true one,decide_eq_true two,ne_eq,not_true,decide_false,if_true,Bool.false_eq_true,if_false]
  have between : (first :: second :: delimiter :: rest).takeWhile (· ≠ delimiter) = [first,second] := by
    simp only [List.takeWhile_cons,decide_eq_true one,decide_eq_true two,ne_eq,not_true,decide_false,if_true,Bool.false_eq_true,if_false]
  unfold parseFrontmatter
  simp only [rows,if_pos,behind,between,named,described]

theorem parse_content (single : ∀ c ∈ name.toList, isBreak c = false) (named : trimLine name.toList ≠ [])
    (described : Trimmed (sanitizedDesc description)) :
    parseSkillContent (buildSkillContent name description prompt scheduleDescription) =
      .ok ⟨trim name,String.ofList (sanitizedDesc description),
        String.ofList (extractPromptFromBody (chop (bodyText name prompt scheduleDescription)))⟩ := by
  have rows : lineList (unixBreaks (buildSkillContent name description prompt scheduleDescription).toList) =
      delimiter :: nameLine name :: descriptionLine description :: delimiter :: [] :: lineList (bodyText name prompt scheduleDescription) := by
    rw [content_text single,lineList_closed (headerLines_free single)]
    simp only [headerLines,List.cons_append,List.nil_append]
  have first : ∃ more, lineList (bodyText name prompt scheduleDescription) = titleLine name :: more := by
    unfold bodyText
    have free := titleLine_free single
    rw [closed_cons,List.append_assoc,List.cons_append,lineList_line (break_free free (by decide)) (break_free free (by decide))]
    exact ⟨_,rfl⟩
  have bodied : ([] :: lineList (bodyText name prompt scheduleDescription)).dropWhile (·.isEmpty) =
      lineList (bodyText name prompt scheduleDescription) := by
    obtain ⟨more,starts⟩ := first
    have full : ¬(titleLine name).isEmpty = true := by simpa using titleLine_full name
    rw [List.dropWhile_cons_of_pos rfl,starts,List.dropWhile_cons_of_neg full]
  unfold parseSkillContent
  rw [parse_lines rows (nameLine_other name) (descriptionLine_other description) (field_name named _) (field_description described _),
    bodied,joinLines_lineList (bodyText_clean single)]
  rfl

end Layout

section Skipping
variable {line text word : List Char}

-- A phrase by which lines are passed over, with ink at both ends.
structure Phrase (word : List Char) : Prop where
  trimmed : Trimmed word
  free : ∀ c ∈ word, isBreak c = false
  skips : ∀ {line}, word <+: trimLine line → skipped line = true

theorem executing_phrase : Phrase "You are executing".toList where
  trimmed := of_letters rfl ⟨by decide,by decide,by decide⟩
  free := literal_free rfl (by decide)
  skips starts := by
    show (_ || _ || _) = true
    rw [List.isPrefixOf_iff_prefix.mpr starts,Bool.or_true,Bool.true_or]

theorem asking_phrase : Phrase "Do NOT ask".toList where
  trimmed := of_letters rfl ⟨by decide,by decide,by decide⟩
  free := literal_free rfl (by decide)
  skips starts := by
    show (_ || _ || _) = true
    rw [List.isPrefixOf_iff_prefix.mpr starts,Bool.or_true]

theorem trimLine_blank (blank : ∀ c ∈ line, isWhitespace c = true) : trimLine line = [] := by
  have none := List.dropWhile_eq_nil_iff.mpr blank
  unfold trimLine
  rw [none]
  rfl

theorem skipped_blank (blank : ∀ c ∈ line, isWhitespace c = true) : skipped line = true := by
  unfold skipped
  rw [trimLine_blank blank]
  rfl

theorem trimLine_ink {c : Char} {rest : List Char} (blank : ∀ c ∈ line, isWhitespace c = true) (ink : isWhitespace c = false) :
    trimLine (line ++ c :: rest) = trimEnd (c :: rest) := by
  have stops : ¬isWhitespace c = true := Bool.eq_false_iff.mp ink
  unfold trimLine
  rw [List.dropWhile_append_of_pos blank,List.dropWhile_cons_of_neg stops]

theorem trimEnd_ink {c : Char} {rest : List Char} (ink : isWhitespace c = false) : trimEnd (c :: rest) ≠ [] := by
  intro none
  have blank := trimEnd_nil.mp none c List.mem_cons_self
  rw [ink] at blank
  cases blank

-- A line is kept unless it is blank or starts with one of the phrases.
theorem skipped_ink {c : Char} {rest : List Char} (blank : ∀ c ∈ line, isWhitespace c = true) (ink : isWhitespace c = false)
    (first : ¬"You are executing".toList <+: c :: rest) (second : ¬"Do NOT ask".toList <+: c :: rest) :
    ¬skipped (line ++ c :: rest) = true := by
  unfold skipped
  rw [trimLine_ink blank ink,Bool.or_eq_true,Bool.or_eq_true,List.isPrefixOf_iff_prefix,List.isPrefixOf_iff_prefix,List.isEmpty_iff]
  rintro ((none | starts) | starts)
  · exact trimEnd_ink ink none
  · exact first (starts.trans (trimEnd_starts _))
  · exact second (starts.trans (trimEnd_starts _))

theorem phrase_trimmed (phrase : Phrase word) (starts : word <+: text) : word <+: trimEnd text := by
  obtain ⟨rest,rfl⟩ := starts
  rw [trimEnd_append]
  split
  · exact ⟨[],(List.append_nil _).trans phrase.trimmed.2.2.symm⟩
  · exact List.prefix_append _ _

-- The reader's loop along the lines: blank ones fall away, and at the first
-- other line everything that is left is taken.
theorem skip_keeps (plain : '\n' ∉ line) (blank : ∀ c ∈ line, isWhitespace c = true) (clean : '\r' ∉ text)
    (first : ¬"You are executing".toList <+: text.dropWhile isWhitespace) (second : ¬"Do NOT ask".toList <+: text.dropWhile isWhitespace) :
    trimEnd (joinLines (((line ++ text).splitOn '\n').dropWhile skipped)) = trimEnd (dropBlankLines.go line text) := by
  induction text generalizing line with
  | nil =>
    rw [List.append_nil,List.splitOn_eq_singleton plain,List.dropWhile_cons_of_pos (skipped_blank blank)]
    exact (trimEnd_nil.mpr blank).symm
  | cons c text ih =>
    rw [List.mem_cons,not_or] at clean
    cases white : isWhitespace c with
    | true =>
      rw [List.dropWhile_cons_of_pos white] at first second
      by_cases newline : c = '\n'
      · subst newline
        rw [List.splitOn_append_cons_self_of_not_mem plain,List.dropWhile_cons_of_pos (skipped_blank blank),go_break (by decide)]
        have step := @ih []
        rw [List.nil_append] at step
        exact step List.not_mem_nil (fun _ inside => absurd inside List.not_mem_nil) clean.2 first second
      · have inside : isBreak c = false := by simpa [isBreak] using ⟨newline,Ne.symm clean.1⟩
        have step := @ih (line ++ [c])
        rw [List.append_assoc] at step
        rw [go_blank inside white]
        refine step ?_ ?_ clean.2 first second
        · rw [List.mem_append,List.mem_singleton,not_or]
          exact ⟨plain,Ne.symm newline⟩
        · intro d there
          rcases List.mem_append.mp there with there | there
          · exact blank d there
          · rw [List.mem_singleton.mp there,white]
    | false =>
      have stops : ¬isWhitespace c = true := Bool.eq_false_iff.mp white
      rw [List.dropWhile_cons_of_neg stops] at first second
      have joined : '\n' ∉ line ++ [c] := by
        rw [List.mem_append,List.mem_singleton,not_or]
        refine ⟨plain,fun same => ?_⟩
        rw [← same] at white
        cases white
      obtain ⟨start,more,rows,-,whole⟩ := @splitOn_behind text _ joined
      rw [List.append_assoc,List.append_assoc] at rows
      have starts : c :: start <+: c :: text := by
        rw [List.cons_prefix_cons]
        rcases whole with ⟨-,rfl⟩ | ⟨rest,-,rfl⟩
        · exact ⟨rfl,List.prefix_refl _⟩
        · exact ⟨rfl,List.prefix_append _ _⟩
      have kept : ¬skipped (line ++ ([c] ++ start)) = true :=
        skipped_ink blank white (fun found => first (found.trans starts)) (fun found => second (found.trans starts))
      rw [go_ink white]
      have rows' : (line ++ c :: text).splitOn '\n' = (line ++ ([c] ++ start)) :: more := rows
      rw [rows',List.dropWhile_cons_of_neg kept,← rows',joinLines_split]

theorem skip_drops (phrase : Phrase word) (plain : '\n' ∉ line) (blank : ∀ c ∈ line, isWhitespace c = true) (clean : '\r' ∉ text)
    (starts : word <+: text.dropWhile isWhitespace) :
    (trimEnd (joinLines (((line ++ text).splitOn '\n').dropWhile skipped))).length < (trimEnd (dropBlankLines.go line text)).length := by
  induction text generalizing line with
  | nil => exact absurd (List.prefix_nil.mp starts) phrase.trimmed.1
  | cons c text ih =>
    rw [List.mem_cons,not_or] at clean
    cases white : isWhitespace c with
    | true =>
      rw [List.dropWhile_cons_of_pos white] at starts
      by_cases newline : c = '\n'
      · subst newline
        rw [List.splitOn_append_cons_self_of_not_mem plain,List.dropWhile_cons_of_pos (skipped_blank blank),go_break (by decide)]
        have step := @ih []
        rw [List.nil_append] at step
        exact step List.not_mem_nil (fun _ inside => absurd inside List.not_mem_nil) clean.2 starts
      · have inside : isBreak c = false := by simpa [isBreak] using ⟨newline,Ne.symm clean.1⟩
        have step := @ih (line ++ [c])
        rw [List.append_assoc] at step
        rw [go_blank inside white]
        refine step ?_ ?_ clean.2 starts
        · rw [List.mem_append,List.mem_singleton,not_or]
          exact ⟨plain,Ne.symm newline⟩
        · intro d there
          rcases List.mem_append.mp there with there | there
          · exact blank d there
          · rw [List.mem_singleton.mp there,white]
    | false =>
      have stops : ¬isWhitespace c = true := Bool.eq_false_iff.mp white
      rw [List.dropWhile_cons_of_neg stops] at starts
      have joined : '\n' ∉ line ++ [c] := by
        rw [List.mem_append,List.mem_singleton,not_or]
        refine ⟨plain,fun same => ?_⟩
        rw [← same] at white
        cases white
      obtain ⟨start,more,rows,-,whole⟩ := @splitOn_behind text _ joined
      rw [List.append_assoc,List.append_assoc] at rows
      have found : word <+: c :: start := by
        rcases whole with ⟨-,rfl⟩ | ⟨rest,-,rfl⟩
        · exact starts
        · rw [← List.cons_append] at starts
          exact (prefix_before (break_free phrase.free (by decide))).mp starts
      have gone : skipped (line ++ ([c] ++ start)) = true := by
        refine phrase.skips ?_
        rw [List.singleton_append,trimLine_ink blank white]
        exact phrase_trimmed phrase found
      have rows' : (line ++ c :: text).splitOn '\n' = (line ++ ([c] ++ start)) :: more := rows
      rw [go_ink white,rows',List.dropWhile_cons_of_pos gone]
      -- What is left of the later lines stands behind the dropped one.
      have behind : ∃ between, line ++ c :: text = (line ++ c :: between) ++ joinLines (more.dropWhile skipped) := by
        rcases whole with ⟨rfl,-⟩ | ⟨rest,rfl,rfl⟩
        · exact ⟨text,(List.append_nil _).symm⟩
        · obtain ⟨between,whole⟩ := joinLines_suffix (List.dropWhile_suffix (l := rest.splitOn '\n') skipped)
          rw [joinLines_split] at whole
          refine ⟨start ++ '\n' :: between,?_⟩
          simp only [List.append_assoc,List.cons_append,whole]
      obtain ⟨between,whole⟩ := behind
      rw [whole]
      exact trimEnd_shorter c (List.mem_append_right _ List.mem_cons_self) white

end Skipping

section Extraction
variable {name prompt : String} {scheduleDescription : Option String}

def closingLines : List (List Char) := [heading,[],executing.toList,asking.toList]

-- The prompt as it stands in the file, behind one blank line.
def promptTail (prompt : String) : List Char := chop ('\n' :: unixBreaks prompt.toList)

def titleText (name : String) (scheduleDescription : Option String) : List Char :=
  closed (titleLine name :: scheduleLines scheduleDescription)

theorem closingLines_free : ∀ row ∈ closingLines, ∀ c ∈ row, isBreak c = false :=
  fun row inside => leadLines_free row (List.mem_cons_of_mem _ (List.mem_append_left [[]] inside))

theorem heading_full : heading ≠ [] := by
  unfold heading
  exact of_letters (p := (· ≠ [])) rfl (by decide)

theorem chop_bodyText (name prompt : String) (scheduleDescription : Option String) :
    chop (bodyText name prompt scheduleDescription) =
      titleText name scheduleDescription ++ '\n' :: (closed closingLines ++ promptTail prompt) := by
  have lead : closed leadLines ++ unixBreaks prompt.toList = '\n' :: (closed closingLines ++ '\n' :: unixBreaks prompt.toList) := by
    show closed ([] :: closingLines ++ [[]]) ++ _ = _
    rw [List.cons_append,closed_cons,List.nil_append]
    unfold closed
    rw [List.flatMap_append,List.cons_append,List.append_assoc]
    rfl
  have tail : ∀ before : List Char, chop (before ++ '\n' :: unixBreaks prompt.toList) = before ++ promptTail prompt :=
    fun before => chop_append (List.cons_ne_nil _ _)
  unfold bodyText
  rw [lead,← List.cons_append,← List.append_assoc,tail,List.append_assoc]
  rfl

theorem promptTail_clean (prompt : String) : '\r' ∉ promptTail prompt := by
  have free := unixBreaks_free ('\n' :: prompt.toList)
  rw [unixBreaks_plain (by decide)] at free
  unfold promptTail chop stripSuffix
  split
  · exact fun inside => free ((List.dropLast_sublist _).subset inside)
  · exact free

theorem promptTail_kept (prompt : String) : trimEnd (dropBlankLines (promptTail prompt)) = unixBreaks (keptPrompt prompt) := by
  unfold promptTail keptPrompt
  rw [dropBlankLines_chop]
  show trimEnd (dropBlankLines.go [] _) = _
  rw [go_break (by decide)]
  show trimEnd (dropBlankLines _) = _
  rw [dropBlankLines_unixBreaks,trimEnd_unixBreaks]

theorem promptTail_starts {word : List Char} (phrase : Phrase word) (prompt : String) :
    word <+: (promptTail prompt).dropWhile isWhitespace ↔ word <+: prompt.toList.dropWhile isWhitespace := by
  unfold promptTail
  rw [dropWhile_chop (break_free phrase.free (by decide)),List.dropWhile_cons_of_pos (by decide),dropWhile_unixBreaks,
    prefix_unixBreaks phrase.free]

theorem extract_found {body before after : List Char} (found : cut heading body = some (before,after)) :
    extractPromptFromBody body = trimEnd (joinLines ((((heading ++ after).splitOn '\n').drop 1).dropWhile skipped)) := by
  unfold extractPromptFromBody
  simp only [found]
  split
  · rename_i none
    rw [none]
    rfl
  · rfl

theorem closing_skipped : ∀ row ∈ closingLines.drop 1, skipped row = true := by
  show ∀ row ∈ [[],executing.toList,asking.toList], skipped row = true
  rw [List.forall_mem_cons,List.forall_mem_cons,List.forall_mem_singleton]
  unfold executing asking
  exact ⟨by decide,of_letters (p := (skipped · = true)) rfl (by decide),of_letters (p := (skipped · = true)) rfl (by decide)⟩

theorem heading_hash : '#' ∈ heading := by
  unfold heading
  exact of_letters (p := ('#' ∈ ·)) rfl (by decide)

theorem heading_kept : ¬skipped heading = true := by
  unfold heading
  exact of_letters (p := (¬skipped · = true)) rfl (by decide)

theorem closed_closing : closed closingLines = heading ++ '\n' :: closed (closingLines.drop 1) := closed_cons _ _

-- The heading is first met where it was written.
theorem extract_heading (absent : ¬heading <:+: titleText name scheduleDescription) :
    extractPromptFromBody (chop (bodyText name prompt scheduleDescription)) =
      trimEnd (joinLines (((promptTail prompt).splitOn '\n').dropWhile skipped)) := by
  have found : cut heading (chop (bodyText name prompt scheduleDescription)) =
      some (titleText name scheduleDescription ++ ['\n'],'\n' :: closed (closingLines.drop 1) ++ promptTail prompt) := by
    rw [chop_bodyText,closed_closing,List.append_assoc]
    exact cut_behind (break_free heading_free (by decide)) heading_full absent
  rw [extract_found found,← List.append_assoc,← closed_closing,splitOn_closed closingLines_free]
  show trimEnd (joinLines (((closingLines.drop 1) ++ _).dropWhile skipped)) = _
  rw [List.dropWhile_append_of_pos closing_skipped]

-- The heading is met before, and everything from the written one on is taken.
theorem extract_early (found : heading <:+: titleText name scheduleDescription) :
    (trimEnd (promptTail prompt)).length < (extractPromptFromBody (chop (bodyText name prompt scheduleDescription))).length := by
  obtain ⟨before,after,whole⟩ := found
  have body : chop (bodyText name prompt scheduleDescription) =
      before ++ heading ++ (after ++ '\n' :: (closed closingLines ++ promptTail prompt)) := by
    rw [chop_bodyText,← whole]
    simp only [List.append_assoc]
  obtain ⟨start,rest,cutted,early⟩ := @cut_first heading before (after ++ '\n' :: (closed closingLines ++ promptTail prompt)) heading_full
  have sides : before ++ heading ++ (after ++ '\n' :: (closed closingLines ++ promptTail prompt)) = start ++ heading ++ rest := cut_sound cutted
  rw [← body] at cutted
  -- The rest behind the first heading ends as the file does.
  have tail : ∃ between, rest = between ++ '\n' :: (closed closingLines ++ promptTail prompt) := by
    rcases List.append_eq_append_iff.mp sides with ⟨between,starts,-⟩ | ⟨between,starts,ends⟩
    · have short := congrArg List.length starts
      simp only [List.length_append] at short
      have none : between = [] := List.length_eq_zero_iff.mp (by omega)
      subst none
      rw [List.append_nil] at starts
      rw [starts] at sides
      exact ⟨after,(List.append_cancel_left sides).symm⟩
    · exact ⟨between ++ after,by rw [ends,List.append_assoc]⟩
  obtain ⟨between,rfl⟩ := tail
  obtain ⟨line,more,split_,-,-⟩ := splitOn_first (heading ++ between)
  have rows : ((heading ++ (between ++ '\n' :: (closed closingLines ++ promptTail prompt))).splitOn '\n').drop 1 =
      more ++ heading :: (closingLines.drop 1 ++ (promptTail prompt).splitOn '\n') := by
    rw [← List.append_assoc,List.splitOn_append_cons_self,split_,splitOn_closed closingLines_free]
    rfl
  have left : ∃ first, (more ++ heading :: (closingLines.drop 1 ++ (promptTail prompt).splitOn '\n')).dropWhile skipped =
      first ++ (closingLines ++ (promptTail prompt).splitOn '\n') := by
    rw [List.dropWhile_append]
    split
    · exact ⟨[],List.dropWhile_cons_of_neg heading_kept⟩
    · exact ⟨_,rfl⟩
  obtain ⟨first,left⟩ := left
  have some_ : (promptTail prompt).splitOn '\n' ≠ [] := List.splitOn_ne_nil _ _
  rw [extract_found cutted,rows,left,joinLines_closed (List.append_ne_nil_of_right_ne_nil _ some_),joinLines_closed some_,joinLines_split,
    ← List.append_assoc]
  refine trimEnd_shorter '#' (List.mem_append_right _ ?_) (by decide)
  rw [closed_closing]
  exact List.mem_append_left _ heading_hash

theorem extract_inside (body : List Char) : extractPromptFromBody body <:+: body := by
  cases found : cut heading body with
  | none =>
    unfold extractPromptFromBody
    simp only [found]
    exact (trimEnd_starts body).isInfix
  | some sides =>
    obtain ⟨before,after⟩ := sides
    rw [extract_found found]
    refine (trimEnd_starts _).isInfix.trans ?_
    have behind := joinLines_suffix ((List.dropWhile_suffix skipped).trans (List.drop_suffix 1 ((heading ++ after).splitOn '\n')))
    rw [joinLines_split] at behind
    refine behind.isInfix.trans ?_
    rw [cut_sound found,List.append_assoc]
    exact (List.suffix_append _ _).isInfix

theorem heading_titleText : heading <:+: titleText name scheduleDescription ↔
    heading <:+: name.toList ∨ ∃ text, scheduleDescription = some text ∧ heading <:+: text.toList := by
  obtain ⟨letters,starts⟩ : ∃ letters, heading = '#' :: letters := ⟨_,rfl⟩
  have star : '*' ∉ heading := by
    unfold heading
    exact of_letters (p := ('*' ∉ ·)) rfl (by decide)
  have newline : '\n' ∉ heading := break_free heading_free (by decide)
  have title : heading <:+: titleText name scheduleDescription ↔
      heading <:+: name.toList ∨ heading <:+: closed (scheduleLines scheduleDescription) := by
    have whole : titleText name scheduleDescription =
        "This is a scheduled task: **".toList ++ (name.toList ++ '*' :: (['*','\n'] ++ closed (scheduleLines scheduleDescription))) := by
      unfold titleText
      rw [closed_cons]
      unfold titleLine
      simp only [List.append_assoc]
      rfl
    have behind : heading <:+: ['*','\n'] ++ closed (scheduleLines scheduleDescription) ↔
        heading <:+: closed (scheduleLines scheduleDescription) := by
      rw [starts]
      exact infix_behind (by decide)
    have lead : heading <:+: titleText name scheduleDescription ↔
        heading <:+: name.toList ++ '*' :: (['*','\n'] ++ closed (scheduleLines scheduleDescription)) := by
      rw [whole,starts]
      exact infix_behind (of_letters (p := ('#' ∉ ·)) rfl (by decide))
    rw [lead,infix_around star heading_full,behind]
  rw [title]
  refine or_congr_right ?_
  cases scheduleDescription with
  | none => exact iff_of_false (fun inside => heading_full (List.infix_nil.mp inside)) (by rintro ⟨_,⟨⟩,_⟩)
  | some schedule =>
    have label : heading <:+: scheduleText schedule ↔ heading <:+: schedule.toList := by
      unfold scheduleText
      rw [starts]
      exact infix_behind (of_letters (p := ('#' ∉ ·)) rfl (by decide))
    have line : closed (scheduleLines (some schedule)) = unixBreaks (stripSuffix '\r' (scheduleText schedule)) ++ '\n' :: [] := closed_cons _ _
    have none : ¬heading <:+: [] := fun inside => heading_full (List.infix_nil.mp inside)
    rw [line,infix_around newline heading_full,infix_unixBreaks heading_free,infix_stripSuffix (break_free heading_free (by decide)),label]
    constructor
    · exact fun inside => ⟨schedule,rfl,inside.resolve_right none⟩
    · rintro ⟨_,⟨⟩,inside⟩
      exact .inl inside

theorem extract_iff (single : ∀ c ∈ name.toList, isBreak c = false) : extractPromptFromBody (chop (bodyText name prompt scheduleDescription)) = keptPrompt prompt ↔
    Clean name prompt scheduleDescription := by
  have blank : ∀ c ∈ ([] : List Char), isWhitespace c = true := fun _ inside => absurd inside List.not_mem_nil
  constructor
  · intro same
    have breaks : '\r' ∉ keptPrompt prompt := by
      rw [← same]
      intro inside
      have there := (extract_inside _).subset inside
      unfold chop stripSuffix at there
      split at there
      · exact bodyText_clean single ((List.dropLast_sublist _).subset there)
      · exact bodyText_clean single there
    have kept := promptTail_kept prompt
    rw [unixBreaks_same breaks] at kept
    have absent : ¬heading <:+: titleText name scheduleDescription := by
      intro inside
      have longer := @extract_early name prompt _ inside
      rw [same,← kept] at longer
      obtain ⟨before,whole⟩ := dropBlankLines_suffix (promptTail prompt)
      have short := trimEnd_suffix before (dropBlankLines (promptTail prompt))
      rw [whole] at short
      omega
    have taken : ∀ {word}, Phrase word → ¬word <+: prompt.toList.dropWhile isWhitespace := by
      intro word phrase starts
      have shorter := skip_drops phrase List.not_mem_nil blank (promptTail_clean prompt) ((promptTail_starts phrase prompt).mpr starts)
      rw [List.nil_append,← extract_heading absent,same] at shorter
      have equal : (trimEnd (dropBlankLines.go [] (promptTail prompt))).length = (keptPrompt prompt).length := congrArg List.length kept
      rw [equal] at shorter
      exact Nat.lt_irrefl _ shorter
    rw [heading_titleText,not_or] at absent
    exact ⟨absent.1,fun text given inside => absent.2 ⟨text,given,inside⟩,taken executing_phrase,taken asking_phrase,breaks⟩
  · intro clean
    have absent : ¬heading <:+: titleText name scheduleDescription := by
      rw [heading_titleText]
      rintro (inside | ⟨text,given,inside⟩)
      · exact clean.name inside
      · exact clean.schedule text given inside
    have kept := @skip_keeps [] (promptTail prompt) List.not_mem_nil blank (promptTail_clean prompt)
      (mt (promptTail_starts executing_phrase prompt).mp clean.executing) (mt (promptTail_starts asking_phrase prompt).mp clean.asking)
    rw [List.nil_append] at kept
    rw [extract_heading absent,kept]
    show trimEnd (dropBlankLines _) = _
    rw [promptTail_kept,unixBreaks_same clean.breaks]

end Extraction

-- A name on one line, a description with ink on some line.
theorem round_trip_iff {name description prompt : String} {scheduleDescription : Option String}
    (single : ∀ c ∈ name.toList, isBreak c = false) (named : ∃ c ∈ name.toList, isWhitespace c = false)
    (described : ∃ line ∈ description.toList.splitOnP isBreak, ∃ c ∈ line, isWhitespace c = false) :
    RoundTrips name description prompt scheduleDescription ↔ Clean name prompt scheduleDescription := by
  have inked : ∀ {line : List Char}, (∃ c ∈ line, isWhitespace c = false) → trimLine line ≠ [] := by
    rintro line ⟨c,inside,ink⟩ none
    have blank := trimEnd_nil.mp none
    have gone : ∀ d ∈ line, isWhitespace d = true := by
      rw [← List.dropWhile_eq_nil_iff]
      refine Classical.byContradiction fun full => ?_
      obtain ⟨d,rest,starts⟩ := List.exists_cons_of_ne_nil full
      have head := List.head?_dropWhile_not isWhitespace line
      rw [starts] at head
      have white := blank d (by rw [starts]; exact List.mem_cons_self)
      simp [white] at head
    rw [gone c inside] at ink
    cases ink
  have trimmed : Trimmed (sanitizedDesc description) := by
    rw [sanitizedDesc_described]
    obtain ⟨line,member,full⟩ := described
    refine joined_trimmed (fun none => ?_) fun line => inkedLines_trimmed
    have there : trimLine line ∈ inkedLines (description.toList.splitOnP isBreak) :=
      List.mem_filter.mpr ⟨List.mem_map_of_mem member,by simpa using inked full⟩
    rw [none] at there
    cases there
  unfold RoundTrips
  rw [parse_content single (inked named) trimmed,sanitizedDesc_described,← extract_iff single]
  constructor
  · intro same
    exact String.ofList_injective (ParsedSkillContent.mk.inj (Except.ok.inj same)).2.2
  · intro same
    rw [same]

section Examples

theorem digest_round_trip : RoundTrips "Digest" "Sends the digest.\n\n Every morning. " "\n\nCollect the news.\n## Instructions\nBe short.\n" (some "daily") := by
  refine (round_trip_iff (free_of_all (by decide)) ⟨'D',by decide,by decide⟩
    ⟨"Sends the digest.".toList,by decide +kernel,'S',by decide +kernel,by decide⟩).mpr ⟨by decide +kernel,?_,by decide,by decide +kernel,
    by decide +kernel⟩
  rintro _ ⟨⟩
  decide +kernel

-- The first line of the prompt is lost.
theorem first_line_lost :
    parseSkillContent (buildSkillContent "Digest" "Sends the digest." "Do NOT ask me anything.\nCollect the news." none) =
        .ok ⟨"Digest","Sends the digest.","Collect the news."⟩ ∧
      ¬RoundTrips "Digest" "Sends the digest." "Do NOT ask me anything.\nCollect the news." none := by
  have absent : ¬heading <:+: titleText "Digest" none := by
    rw [heading_titleText]
    rintro (inside | ⟨_,⟨⟩,_⟩)
    revert inside
    decide +kernel
  have lost : parseSkillContent (buildSkillContent "Digest" "Sends the digest." "Do NOT ask me anything.\nCollect the news." none) =
      .ok ⟨"Digest","Sends the digest.","Collect the news."⟩ := by
    rw [parse_content (free_of_all (by decide +kernel)) (by decide +kernel) ⟨by decide +kernel,by decide +kernel,by decide +kernel⟩,extract_heading absent]
    decide +kernel
  refine ⟨lost,fun kept => ?_⟩
  rw [RoundTrips,lost] at kept
  have same := (ParsedSkillContent.mk.inj (Except.ok.inj kept)).2.2
  revert same
  decide

end Examples

end AlineaCopilot.SkillFile
