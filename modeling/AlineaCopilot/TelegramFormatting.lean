import AlineaCopilot.RustPanics
import AlineaCopilot.TextRewrites

open AlineaCopilot.LeftmostScans AlineaCopilot.RustPanics AlineaCopilot.TextRewrites

namespace AlineaCopilot.TelegramFormatting

section Formatter

-- The text before the first occurrence of a marker, with allowed letters only.
def before (allowed : Char → Bool) (marker : List Char) : List Char → Option (List Char)
  | [] => none
  | c :: rest =>
    if marker.isPrefixOf (c :: rest) then some []
    else if allowed c then (before allowed marker rest).map (c :: ·)
    else none

-- `\w`. Beyond ASCII it is a table of the regex crate.
def isWord (wide : Char → Bool) (c : Char) : Bool := if c.val < 128 then c.isAlphanum || c = '_' else wide c

def fence : List Char := ['`','`','`']

def skipNewline : List Char → List Char
  | '\n' :: rest => rest
  | text => text

-- `RE_CODE_BLOCK`.
def codeBlock (wide : Char → Bool) : Rule Char := fun text =>
  if fence.isPrefixOf text then
    let body := skipNewline ((text.drop 3).dropWhile (isWord wide))
    (before (fun _ => true) fence body).map fun inner =>
      (text.length - body.length + inner.length + 3,"<pre><code>".toList ++ inner ++ "</code></pre>".toList)
  else none

-- `RE_INLINE_CODE`.
def inlineCode : Rule Char := fun text =>
  if ['`'].isPrefixOf text then
    (before (fun _ => true) ['`'] (text.drop 1)).bind fun inner =>
      if inner = [] then none else some (inner.length + 2,"<code>".toList ++ inner ++ "</code>".toList)
  else none

-- `RE_BOLD_STAR`, `RE_BOLD_UNDER`, `RE_ITALIC_STAR` and `RE_ITALIC_UNDER`: one
-- letter or more between the markers, all of them on one line.
def wrapped (marker opening closing : List Char) : Rule Char := fun text =>
  if marker.isPrefixOf text then match text.drop marker.length with
    | [] => none
    | c :: rest =>
      if c = '\n' then none
      else (before (fun d => d ≠ '\n') marker rest).map fun inner =>
        (marker.length + (inner.length + 1) + marker.length,opening ++ (c :: inner) ++ closing)
  else none

-- `RE_LINK`.
def link : Rule Char := fun text =>
  if ['['].isPrefixOf text then
    (before (fun _ => true) [']'] (text.drop 1)).bind fun label =>
      if label = [] then none
      else if [']','('].isPrefixOf (text.drop (label.length + 1)) then
        (before (fun _ => true) [')'] (text.drop (label.length + 3))).bind fun url =>
          if url = [] then none
          else some (label.length + url.length + 4,"<a href=\"".toList ++ url ++ "\">".toList ++ label ++ "</a>".toList)
      else none
  else none

def telegramRules (wide : Char → Bool) : List (Rule Char) := [
  codeBlock wide,
  inlineCode,
  wrapped ['*','*'] "<b>".toList "</b>".toList,
  wrapped ['_','_'] "<b>".toList "</b>".toList,
  wrapped ['*'] "<i>".toList "</i>".toList,
  wrapped ['_'] "<i>".toList "</i>".toList,
  link]

def replaceChar (old : Char) (new text : List Char) : List Char := text.flatMap fun c => if c = old then new else [c]

def escapeHtml (text : List Char) : List Char :=
  replaceChar '>' "&gt;".toList (replaceChar '<' "&lt;".toList (replaceChar '&' "&amp;".toList text))

def markdownToTelegramHtml (wide : Char → Bool) (text : List Char) : List Char := rewriteAll (telegramRules wide) (escapeHtml text)

end Formatter

section Messages

inductive OutgoingMessageType where
  | text
  | image
  | file
  | buttons
deriving DecidableEq, Repr

inductive ParseMode where
  | html
  | markdownV2
  | markdown
deriving DecidableEq, Repr

structure ActionButton where
  label : String
  action : String
deriving DecidableEq, Repr

-- The fields that the relay's messages leave empty are left out.
structure UnifiedOutgoingMessage where
  messageType : OutgoingMessageType
  text : Option (List Char)
  parseMode : Option ParseMode
  buttons : Option (List (List ActionButton))
deriving DecidableEq, Repr

def buildStreamingMessage (text : List Char) : UnifiedOutgoingMessage := ⟨.text,some text,none,none⟩

def buildFinalMessage (text : List Char) : UnifiedOutgoingMessage where
  messageType := .buttons
  text := some text
  parseMode := none
  buttons := some [[⟨"🔄 Regenerate","chat.regenerate"⟩,⟨"▶️ Continue","chat.continue"⟩,⟨"➕ New Session","session.new"⟩]]

def telegramMessageLimit : Nat := 4096

def truncateMessage (text : List Char) (limit : Nat) : List Char :=
  if byteLen text ≤ limit then text else text.take (limit - 3) ++ ['.','.','.']

def formatParseMode : ParseMode → String
  | .html => "HTML"
  | .markdownV2 => "MarkdownV2"
  | .markdown => "Markdown"

-- What `send_message` and `edit_message` ask Telegram to show.
structure MessageRequest where
  text : List Char
  parseMode : Option String

def messageRequest (message : UnifiedOutgoingMessage) : MessageRequest :=
  ⟨truncateMessage (message.text.getD []) telegramMessageLimit,message.parseMode.map formatParseMode⟩

-- The messages that show a text of the assistant.
def relayed (wide : Char → Bool) (text : List Char) : List UnifiedOutgoingMessage :=
  [buildStreamingMessage (markdownToTelegramHtml wide text),buildFinalMessage (markdownToTelegramHtml wide text)]

end Messages

-- What a faithful message is.
section Faithful

-- Telegram shows a text without a parse mode as it is. How it reads the others
-- is its own.
def displayed (decode : ParseMode → List Char → List Char) (message : UnifiedOutgoingMessage) : List Char :=
  match message.parseMode with
  | none => message.text.getD []
  | some mode => decode mode (message.text.getD [])

def markers : List Char := ['*','_','`','[',']','(',')']

inductive UpToMarkers : List Char → List Char → Prop where
  | nil : UpToMarkers [] []
  | keep (c : Char) : UpToMarkers shown text → UpToMarkers (c :: shown) (c :: text)
  | drop (c : Char) : c ∈ markers → UpToMarkers shown text → UpToMarkers shown (c :: text)

-- A tag or an entity begins before the cut and does not end there.
def Torn (text : List Char) (cut : Nat) : Prop :=
  ∃ ahead inside opening closing, (opening,closing) ∈ [('<','>'),('&',';')] ∧
    text.take cut = ahead ++ opening :: inside ∧ closing ∉ inside

structure Faithful (decode : ParseMode → List Char → List Char) (text : List Char) (message : UnifiedOutgoingMessage) : Prop where
  renders : UpToMarkers (displayed decode message) text
  whole : (messageRequest message).text = message.text.getD [] ∨
    telegramMessageLimit < (message.text.getD []).length ∧ ¬Torn (message.text.getD []) (telegramMessageLimit - 3)

-- No letter is escaped and no markdown rewritten; what is too long in bytes is
-- too long in letters, or ends as a shortened text would.
structure Plain (wide : Char → Bool) (text : List Char) : Prop where
  unescaped : '&' ∉ text ∧ '<' ∉ text ∧ '>' ∉ text
  unmarked : ∀ rule ∈ telegramRules wide, occurs rule.hit text = false
  fits : byteLen text ≤ telegramMessageLimit ∨ text.take (telegramMessageLimit - 3) ++ ['.','.','.'] = text ∨
    telegramMessageLimit < text.length

end Faithful

section Rules
variable {allowed : Char → Bool} {marker text inside : List Char} {wide : Char → Bool} {c : Char}

theorem before_exact (found : before allowed marker text = some inside) : ∃ rest, text = inside ++ marker ++ rest := by
  induction text generalizing inside with
  | nil => cases found
  | cons d text ih =>
    unfold before at found
    split at found
    · rename_i starts
      cases found
      obtain ⟨rest,same⟩ := List.isPrefixOf_iff_prefix.mp starts
      exact ⟨rest,same.symm⟩
    · split at found
      · obtain ⟨later,next,rfl⟩ := Option.map_eq_some_iff.mp found
        obtain ⟨rest,rfl⟩ := ih next
        exact ⟨rest,rfl⟩
      · cases found

-- Letters that no marker and no language tag has.
def Solid (c : Char) : Prop := c = ';' ∨ c = '<'

theorem Solid.absent (solid : Solid c) : c ∉ fence ∧ c ∉ ['[',']','(',')','*','_'] ∧ c ≠ '\n' ∧ ∀ wide, isWord wide c = false := by
  rcases solid with rfl | rfl
  · exact ⟨by decide,by decide,by decide,fun _ => rfl⟩
  · exact ⟨by decide,by decide,by decide,fun _ => rfl⟩

theorem keeps_matched {matched later new : List Char} {size : Nat} (long : matched.length = size) (full : 0 < size)
    (less : matched.count c ≤ new.count c) :
    0 < size ∧ (matched ++ later).count c ≤ new.count c + ((matched ++ later).drop size).count c := by
  rw [List.drop_left' long,List.count_append]
  exact ⟨full,Nat.add_le_add_right less _⟩

theorem wrapped_keeps (opening closing : List Char) (absent : c ∉ marker) :
    (wrapped marker opening closing).Keeps c := by
  intro text size new found
  unfold wrapped at found
  split at found
  · rename_i starts
    obtain ⟨rest,rfl⟩ := List.isPrefixOf_iff_prefix.mp starts
    rw [List.drop_left] at found
    cases rest with
    | nil => cases found
    | cons d rest =>
      dsimp only at found
      split at found
      · cases found
      · obtain ⟨inner,there,same⟩ := Option.map_eq_some_iff.mp found
        obtain ⟨later,rfl⟩ := before_exact there
        cases same
        have none_ : marker.count c = 0 := List.count_eq_zero.mpr absent
        have whole : marker ++ d :: (inner ++ marker ++ later) = (marker ++ (d :: inner) ++ marker) ++ later := by simp
        rw [whole]
        refine keeps_matched (by simp; omega) (by omega) ?_
        simp only [List.count_append,none_]
        omega
  · cases found

theorem wrapped_brings (opening closing : List Char) (brings : c ∈ opening) : (wrapped marker opening closing).Brings c := by
  intro text size new found
  unfold wrapped at found
  split at found
  · split at found
    · cases found
    · split at found
      · cases found
      · obtain ⟨inner,_,same⟩ := Option.map_eq_some_iff.mp found
        cases same
        simp [brings]
  · cases found

theorem inlineCode_keeps (absent : c ∉ fence) : inlineCode.Keeps c := by
  intro text size new found
  unfold inlineCode at found
  split at found
  · rename_i starts
    obtain ⟨rest,rfl⟩ := List.isPrefixOf_iff_prefix.mp starts
    obtain ⟨inner,there,same⟩ := Option.bind_eq_some_iff.mp found
    obtain ⟨later,whole⟩ := before_exact there
    split at same
    · cases same
    · cases same
      have quote : c ≠ '`' := fun equal => absent (equal ▸ List.mem_cons_self)
      have parts : ['`'] ++ rest = ('`' :: inner ++ ['`']) ++ later := by
        simpa using whole
      rw [parts]
      refine keeps_matched (by simp) (by omega) ?_
      simp only [List.cons_append,List.count_cons,List.count_append,List.count_nil,beq_iff_eq,Ne.symm quote,if_false]
      omega
  · cases found

theorem skipNewline_exact (text : List Char) : skipNewline text = text ∨ text = '\n' :: skipNewline text := by
  unfold skipNewline
  split
  · exact .inr rfl
  · exact .inl rfl

theorem count_words (solid : Solid c) (text : List Char) : (text.takeWhile (isWord wide)).count c = 0 := by
  refine List.count_eq_zero.mpr fun inside => ?_
  have word := List.all_eq_true.mp List.all_takeWhile c inside
  rw [solid.absent.2.2.2 wide] at word
  cases word

theorem codeBlock_keeps (solid : Solid c) : (codeBlock wide).Keeps c := by
  intro text size new found
  unfold codeBlock at found
  split at found
  · rename_i starts
    obtain ⟨rest,rfl⟩ := List.isPrefixOf_iff_prefix.mp starts
    have behind : (fence ++ rest).drop 3 = rest := rfl
    simp only [behind] at found
    obtain ⟨inner,there,same⟩ := Option.map_eq_some_iff.mp found
    obtain ⟨later,whole⟩ := before_exact there
    obtain ⟨absent,_,line,_⟩ := solid.absent
    have ticks : fence.count c = 0 := List.count_eq_zero.mpr absent
    obtain ⟨skipped,split,none_⟩ : ∃ skipped, rest = skipped ++ skipNewline (rest.dropWhile (isWord wide)) ∧ skipped.count c = 0 := by
      have words : (rest.takeWhile (isWord wide)).count c = 0 := count_words solid rest
      have parts := List.takeWhile_append_dropWhile (p := isWord wide) (l := rest)
      rcases skipNewline_exact (rest.dropWhile (isWord wide)) with same | next
      · exact ⟨_,by rw [same,parts],words⟩
      · refine ⟨rest.takeWhile (isWord wide) ++ ['\n'],?_,?_⟩
        · rw [List.append_assoc,List.singleton_append,← next,parts]
        · simp [words,line.symm]
    cases same
    rw [whole] at split ⊢
    have parts : fence ++ rest = (fence ++ skipped ++ inner ++ fence) ++ later := by
      rw [split]
      simp
    rw [parts]
    refine keeps_matched ?_ (by omega) ?_
    · simp [fence]
      omega
    · simp only [List.count_append,ticks,none_]
      omega
  · cases found

theorem link_keeps (absent : c ∉ ['[',']','(',')','*','_']) : link.Keeps c := by
  intro text size new found
  unfold link at found
  split at found
  · rename_i starts
    obtain ⟨rest,rfl⟩ := List.isPrefixOf_iff_prefix.mp starts
    obtain ⟨label,there,found⟩ := Option.bind_eq_some_iff.mp found
    obtain ⟨later,whole⟩ := before_exact there
    split at found
    · cases found
    · split at found
      · rename_i opens
        obtain ⟨url,there',same⟩ := Option.bind_eq_some_iff.mp found
        obtain ⟨tail,ends⟩ := before_exact there'
        split at same
        · cases same
        · cases same
          have head : ['['] ++ rest = ('[' :: label) ++ ']' :: later := by
            simpa using whole
          rw [head,List.drop_left' (by simp)] at opens
          obtain ⟨more,next⟩ := List.isPrefixOf_iff_prefix.mp opens
          have inner : later = '(' :: more := (List.cons.inj next).2.symm
          have link : ['['] ++ rest = ('[' :: label ++ [']','(']) ++ more := by simp [head,inner]
          rw [link,List.drop_left' (by simp)] at ends
          have parts : ['['] ++ rest = ('[' :: label ++ [']','('] ++ url ++ [')']) ++ tail := by simp [link,ends]
          rw [parts]
          refine keeps_matched (by simp; omega) (by omega) ?_
          have none_ : ∀ d ∈ ['[',']','(',')'], (d == c) = false := by
            intro d inside
            refine beq_eq_false_iff_ne.mpr fun same => absent (same ▸ ?_)
            simp only [List.mem_cons,List.not_mem_nil,or_false] at inside ⊢
            tauto
          simp [List.count_cons,none_]
          omega
      · cases found
  · cases found

theorem inlineCode_brings : inlineCode.Brings '<' := by
  intro text size new found
  unfold inlineCode at found
  split at found
  · obtain ⟨inner,_,same⟩ := Option.bind_eq_some_iff.mp found
    split at same
    · cases same
    · cases same
      simp
  · cases found

theorem codeBlock_brings : (codeBlock wide).Brings '<' := by
  intro text size new found
  unfold codeBlock at found
  split at found
  · obtain ⟨inner,_,same⟩ := Option.map_eq_some_iff.mp found
    cases same
    simp
  · cases found

theorem link_brings : link.Brings '<' := by
  intro text size new found
  unfold link at found
  split at found
  · obtain ⟨label,_,found⟩ := Option.bind_eq_some_iff.mp found
    split at found
    · cases found
    · split at found
      · obtain ⟨url,_,same⟩ := Option.bind_eq_some_iff.mp found
        split at same
        · cases same
        · cases same
          simp
      · cases found
  · cases found

theorem rules_keep (wide : Char → Bool) (solid : Solid c) : ∀ rule ∈ telegramRules wide, rule.Keeps c := by
  obtain ⟨ticks,marks,_⟩ := solid.absent
  simp only [List.mem_cons,List.not_mem_nil,or_false,not_or] at marks
  intro rule inside
  simp only [telegramRules,List.mem_cons,List.not_mem_nil,or_false] at inside
  rcases inside with rfl | rfl | rfl | rfl | rfl | rfl | rfl
  · exact codeBlock_keeps solid
  · exact inlineCode_keeps ticks
  · exact wrapped_keeps _ _ (by simp [marks])
  · exact wrapped_keeps _ _ (by simp [marks])
  · exact wrapped_keeps _ _ (by simp [marks])
  · exact wrapped_keeps _ _ (by simp [marks])
  · exact link_keeps solid.absent.2.1

theorem rules_bring (wide : Char → Bool) : ∀ rule ∈ telegramRules wide, rule.Brings '<' := by
  intro rule inside
  simp only [telegramRules,List.mem_cons,List.not_mem_nil,or_false] at inside
  rcases inside with rfl | rfl | rfl | rfl | rfl | rfl | rfl
  · exact codeBlock_brings
  · exact inlineCode_brings
  · exact wrapped_brings _ _ (by simp)
  · exact wrapped_brings _ _ (by simp)
  · exact wrapped_brings _ _ (by simp)
  · exact wrapped_brings _ _ (by simp)
  · exact link_brings

end Rules

section Escaping
variable {text : List Char}

theorem replaceChar_count (old c : Char) (new text : List Char) (other : old ≠ c) :
    (replaceChar old new text).count c = text.count c + text.count old * new.count c := by
  induction text with
  | nil => simp [replaceChar]
  | cons d rest ih =>
    have first : replaceChar old new (d :: rest) = (if d = old then new else [d]) ++ replaceChar old new rest := rfl
    rw [first,List.count_append,ih]
    by_cases same : d = old
    · subst same
      simp [other,Nat.add_mul]
      omega
    · simp [List.count_cons,same]
      omega

theorem replaceChar_same {old : Char} (new : List Char) (absent : old ∉ text) : replaceChar old new text = text := by
  induction text with
  | nil => rfl
  | cons d rest ih =>
    have first : replaceChar old new (d :: rest) = (if d = old then new else [d]) ++ replaceChar old new rest := rfl
    rw [first,ih fun inside => absent (List.mem_cons_of_mem _ inside),if_neg fun same : d = old => absent (same ▸ List.mem_cons_self)]
    rfl

-- Each escaped letter brings a semicolon in.
theorem escape_count (text : List Char) :
    (escapeHtml text).count ';' = text.count ';' + text.count '&' + text.count '<' + text.count '>' := by
  unfold escapeHtml
  rw [replaceChar_count _ _ _ _ (by decide),replaceChar_count '<' ';' _ _ (by decide),replaceChar_count '&' ';' _ _ (by decide),
    replaceChar_count '<' '>' _ _ (by decide),replaceChar_count '&' '>' _ _ (by decide),replaceChar_count '&' '<' _ _ (by decide)]
  simp

theorem escape_same (absent : '&' ∉ text ∧ '<' ∉ text ∧ '>' ∉ text) : escapeHtml text = text := by
  unfold escapeHtml
  rw [replaceChar_same _ absent.1,replaceChar_same _ absent.2.1,replaceChar_same _ absent.2.2]

end Escaping

section Faithfulness
variable {wide : Char → Bool} {text shown : List Char}

theorem UpToMarkers.refl (text : List Char) : UpToMarkers text text := by
  induction text with
  | nil => exact .nil
  | cons c rest ih => exact .keep c ih

theorem UpToMarkers.sublist (upTo : UpToMarkers shown text) : shown.Sublist text := by
  induction upTo with
  | nil => exact List.Sublist.refl _
  | keep c _ ih => exact ih.cons_cons c
  | drop c _ _ ih => exact ih.cons c

-- A displayed text that has no letter of its own was left as it is.
theorem upTo_same (upTo : UpToMarkers (markdownToTelegramHtml wide text) text) :
    ('&' ∉ text ∧ '<' ∉ text ∧ '>' ∉ text) ∧ ∀ rule ∈ telegramRules wide, occurs rule.hit text = false := by
  have fewer := upTo.sublist.count_le ';'
  have kept := rewriteAll_count (rules_keep wide (.inl rfl)) (escapeHtml text)
  have escaped := escape_count text
  unfold markdownToTelegramHtml at fewer
  have unescaped : '&' ∉ text ∧ '<' ∉ text ∧ '>' ∉ text := by
    refine ⟨?_,?_,?_⟩ <;> refine List.count_eq_zero.mp ?_ <;> omega
  refine ⟨unescaped,fun rule inside => Bool.not_eq_true _ ▸ fun found => ?_⟩
  have brought := rewriteAll_brings (rules_keep wide (.inr rfl)) (rules_bring wide) ⟨rule,inside,found⟩
  have there := upTo.sublist.subset (show '<' ∈ markdownToTelegramHtml wide text by
    unfold markdownToTelegramHtml
    rw [escape_same unescaped]
    exact brought)
  exact unescaped.2.1 there

theorem html_same (unescaped : '&' ∉ text ∧ '<' ∉ text ∧ '>' ∉ text) (unmarked : ∀ rule ∈ telegramRules wide, occurs rule.hit text = false) :
    markdownToTelegramHtml wide text = text := by
  unfold markdownToTelegramHtml
  rw [escape_same unescaped]
  exact rewriteAll_same unmarked

theorem untorn (unescaped : '&' ∉ text ∧ '<' ∉ text ∧ '>' ∉ text) (cut : Nat) : ¬Torn text cut := by
  rintro ⟨ahead,inside,opening,closing,pair,taken,_⟩
  have there : opening ∈ text := List.mem_of_mem_take (taken ▸ List.mem_append_right _ List.mem_cons_self)
  simp only [List.mem_cons,Prod.mk.injEq,List.not_mem_nil,or_false] at pair
  rcases pair with ⟨rfl,_⟩ | ⟨rfl,_⟩
  · exact unescaped.2.1 there
  · exact unescaped.1 there

-- Telegram shows the text itself exactly where formatting had nothing to do.
theorem telegram_faithful_iff (wide : Char → Bool) (decode : ParseMode → List Char → List Char) (text : List Char) :
    (∀ message ∈ relayed wide text, Faithful decode text message) ↔ Plain wide text := by
  constructor
  · intro faithful
    obtain ⟨renders,whole⟩ := faithful (buildStreamingMessage (markdownToTelegramHtml wide text)) List.mem_cons_self
    obtain ⟨unescaped,unmarked⟩ := upTo_same renders
    have same := html_same unescaped unmarked
    refine ⟨unescaped,unmarked,?_⟩
    simp only [messageRequest,buildStreamingMessage,Option.getD_some,same,truncateMessage] at whole
    rcases whole with sent | ⟨long,_⟩
    · split at sent
      · rename_i fits
        exact .inl fits
      · exact .inr (.inl sent)
    · exact .inr (.inr long)
  · rintro ⟨unescaped,unmarked,fits⟩
    have same := html_same unescaped unmarked
    have whole : truncateMessage text telegramMessageLimit = text ∨
        telegramMessageLimit < text.length ∧ ¬Torn text (telegramMessageLimit - 3) := by
      rcases fits with fits | ends | long
      · exact .inl (if_pos fits)
      · refine .inl ?_
        unfold truncateMessage
        split
        · rfl
        · exact ends
      · exact .inr ⟨long,untorn unescaped _⟩
    intro message inside
    simp only [relayed,same,List.mem_cons,List.not_mem_nil,or_false] at inside
    rcases inside with rfl | rfl
    · exact ⟨.refl text,whole⟩
    · exact ⟨.refl text,whole⟩

end Faithfulness

section Examples

-- Without a parse mode, entities and tags are what the reader sees.
theorem entities_shown :
    displayed (fun _ text => text) (buildFinalMessage (markdownToTelegramHtml (fun _ => false) "a < b".toList)) = "a &lt; b".toList ∧
    displayed (fun _ text => text) (buildFinalMessage (markdownToTelegramHtml (fun _ => false) "**a**".toList)) =
      "<b>a</b>".toList ∧
    ¬Faithful (fun _ text => text) "a < b".toList (buildFinalMessage (markdownToTelegramHtml (fun _ => false) "a < b".toList)) := by
  have shown : displayed (fun _ text => text) (buildFinalMessage (markdownToTelegramHtml (fun _ => false) "a < b".toList)) =
      "a &lt; b".toList := by decide
  refine ⟨shown,by decide,fun faithful => ?_⟩
  have fewer := faithful.renders.sublist.length_le
  rw [shown] at fewer
  exact absurd fewer (by decide)

end Examples

end AlineaCopilot.TelegramFormatting
