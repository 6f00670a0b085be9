import AlineaCopilot.ChannelPlatforms
open AlineaCopilot.ChannelMessages AlineaCopilot.ChannelPlatforms AlineaCopilot.KeyedMaps AlineaCopilot.RustPanics AlineaCopilot.RustText

namespace AlineaCopilot.ChannelCallbacks

section Codecs

def actionCategoryPrefix (action : String) : String :=
  if action = "system.confirm" then "chat"
  else match String.ofList ((split '.' action.toList).headD []) with
    | "pairing" => "platform"
    | "chat" | "action" => "chat"
    | _ => "system"

def encodeParams (params : Params) : List Char :=
  List.intercalate [','] (params.entries.map fun entry => entry.1.toList ++ '=' :: entry.2.toList)

-- The three encoders are the same text too. A map is met in the order of its entries.
def formatCallback (action : String) (params : Option Params) : String :=
  let plain := (actionCategoryPrefix action).toList ++ ':' :: action.toList
  match params with
  | some p => String.ofList (if p.entries.isEmpty then plain else plain ++ ':' :: encodeParams p)
  | none => String.ofList plain

structure ActionButton where
  label : String
  action : String
  params : Option Params

abbrev Parsed := Checked (Option (String × ActionCategory × Option Params))

-- A platform writes a button and reads it back when it is pressed; the readers of
-- Lark and DingTalk leave the category a text that their callers resolve.
def formatCallbackData (button : ActionButton) : String := formatCallback button.action button.params

def formatLarkCallback : String → Option Params → String := formatCallback
def formatDingtalkCallback : String → Option Params → String := formatCallback

def resolved (parsed : Checked (Option (String × String × Option Params))) : Parsed :=
  parsed.map fun found => found.map fun (category,action,params) => (action,categoryOf category,params)

def parseLarkCallback (data : String) : Parsed := resolved (parseCallback data)
def parseDingtalkCallback (data : String) : Parsed := resolved (parseCallback data)

-- The actions each handler of `ActionExecutor` knows.
def handledActions : ActionCategory → List String
  | .platform => ["pairing.show","pairing.refresh","pairing.check","pairing.help"]
  | .system => ["session.new","session.status","help.show","help.features","help.pairing","help.tips","settings.show",
      "agent.show","agent.select"]
  | .chat => ["chat.send","chat.regenerate","chat.continue","action.copy","system.confirm"]

end Codecs

section Statements

-- The parameters that were read are the ones of the button; no map and an empty
-- map count as the same.
def SameParams (read params : Option Params) : Prop :=
  (∀ k, (read.getD ∅).lookup k = (params.getD ∅).lookup k) ∧ (read = none ↔ (params.getD ∅).entries = [])

def RoundTrips (read : Parsed) (action : String) (params : Option Params) : Prop :=
  ∃ category back, read = .ok (some (action,category,back)) ∧ SameParams back params ∧
    ∀ handler, action ∈ handledActions handler → handler = category

-- No separator stands where the reader would take it for one.
def Separable (action : String) (params : Option Params) : Prop :=
  ':' ∉ action.toList ∧ ∀ k v, (params.getD ∅).lookup k = some v → ',' ∉ k.toList ∧ '=' ∉ k.toList ∧ ',' ∉ v.toList

end Statements

section Splitting

theorem split_free {piece : List Char} (free : separator ∉ piece) : split separator piece = [piece] := by
  induction piece with
  | nil => rfl
  | cons c rest ih =>
    simp only [List.mem_cons,not_or] at free
    rw [split,if_neg fun same => free.1 same.symm,ih free.2]

theorem split_next {piece : List Char} (free : separator ∉ piece) (rest : List Char) :
    split separator (piece ++ separator :: rest) = piece :: split separator rest := by
  induction piece with
  | nil => rw [List.nil_append,split,if_pos rfl]
  | cons c tail ih =>
    simp only [List.mem_cons,not_or] at free
    rw [List.cons_append,split,if_neg fun same => free.1 same.symm,ih free.2]

-- Splitting undoes joining.
theorem split_intercalate (pieces : List (List Char)) (some_ : pieces ≠ []) (free : ∀ piece ∈ pieces, separator ∉ piece) :
    split separator (List.intercalate [separator] pieces) = pieces := by
  induction pieces with
  | nil => exact absurd rfl some_
  | cons head rest ih =>
    cases rest with
    | nil => simpa using split_free (free head List.mem_cons_self)
    | cons next rest =>
      rw [List.intercalate_cons_cons,List.append_assoc,List.singleton_append,split_next (free head List.mem_cons_self)]
      rw [ih (List.cons_ne_nil _ _) fun piece inside => free piece (List.mem_cons_of_mem _ inside)]

theorem split_pieces (text : List Char) : ∀ piece ∈ split separator text, separator ∉ piece := by
  induction text with
  | nil => simp [split]
  | cons c rest ih =>
    rw [split]
    split
    · simpa using ih
    · rename_i other
      split
      · rename_i piece pieces found
        rw [found,List.forall_mem_cons] at ih
        rw [List.forall_mem_cons,List.mem_cons,not_or]
        exact ⟨⟨fun same => other same.symm,ih.1⟩,ih.2⟩
      · simpa using fun same => other same.symm

theorem cut_cons : cut [separator] (c :: rest) =
    if c = separator then some ([],rest) else (cut [separator] rest).map fun sides => (c :: sides.1,sides.2) := by
  by_cases same : separator = c
  · simp [cut,same]
  · simp [cut,same,Ne.symm same]

theorem cut_none {text : List Char} : cut [separator] text = none ↔ separator ∉ text := by
  induction text with
  | nil => simp [cut]
  | cons c rest ih =>
    rw [cut_cons,List.mem_cons,not_or]
    split
    · rename_i same
      simp [same]
    · rename_i other
      rw [Option.map_eq_none_iff,ih]
      exact ⟨fun free => ⟨fun same => other same.symm,free⟩,And.right⟩

theorem cut_before {text : List Char} {sides : List Char × List Char} (found : cut [separator] text = some sides) :
    separator ∉ sides.1 := by
  induction text generalizing sides with
  | nil => cases found
  | cons c rest ih =>
    rw [cut_cons] at found
    split at found
    · cases found
      exact List.not_mem_nil
    · rename_i other
      obtain ⟨later,there,rfl⟩ := Option.map_eq_some_iff.mp found
      rw [List.mem_cons,not_or]
      exact ⟨fun same => other same.symm,ih there⟩

theorem cut_next {before : List Char} (free : separator ∉ before) (after : List Char) :
    cut [separator] (before ++ separator :: after) = some (before,after) := by
  simpa using cut_exact free [] after

end Splitting

section Params

def insertPair (map : Params) (pair : List Char) : Params :=
  match cut ['='] pair with
  | some (k,v) => map.insert (String.ofList k) (String.ofList v)
  | none => map

theorem fold_pairs (entries : List (Sigma fun _ : String => String)) (free : ∀ entry ∈ entries, '=' ∉ entry.1.toList) (m : Params) :
    (entries.map fun entry => entry.1.toList ++ '=' :: entry.2.toList).foldl insertPair m =
      entries.foldl (fun map entry => map.insert entry.1 entry.2) m := by
  induction entries generalizing m with
  | nil => rfl
  | cons head rest ih =>
    rw [List.map_cons,List.foldl_cons,ih fun entry inside => free entry (List.mem_cons_of_mem _ inside)]
    rw [insertPair,cut_next (free head List.mem_cons_self)]
    simp only [String.ofList_toList,List.foldl_cons]

-- No pair that was read holds a comma, and no key an equals sign.
def Clean (m : Params) : Prop := ∀ k v, m.lookup k = some v → ',' ∉ k.toList ∧ '=' ∉ k.toList ∧ ',' ∉ v.toList

theorem clean_pair {m : Params} (clean : Clean m) {pair : List Char} (free : ',' ∉ pair) : Clean (insertPair m pair) := by
  unfold insertPair
  split
  · rename_i before after found
    have whole := cut_sound found
    intro k v present
    rw [lookup_insert_eq] at present
    split at present
    · rename_i same
      cases present
      simp only [same,String.toList_ofList]
      rw [whole] at free
      simp only [List.mem_append,not_or] at free
      exact ⟨free.1.1,cut_before found,free.2⟩
    · exact clean k v present
  · exact clean

theorem clean_pairs (pairs : List (List Char)) (free : ∀ pair ∈ pairs, ',' ∉ pair) {m : Params} (clean : Clean m) :
    Clean (pairs.foldl insertPair m) := by
  induction pairs generalizing m with
  | nil => exact clean
  | cons head rest ih =>
    rw [List.forall_mem_cons] at free
    exact ih free.2 (clean_pair clean free.1)

theorem parseParams_clean {text : List Char} {m : Params} (read : parseParams text = some m) : Clean m := by
  have clean : Clean ((split ',' text).foldl insertPair ∅) := clean_pairs _ (split_pieces text) fun _ _ present => by cases present
  simp only [parseParams] at read
  split at read
  · cases read
  · cases read
    exact clean

theorem parseParams_encode (p : Params) (some_ : p.entries ≠ []) (clean : Clean p) :
    ∃ m, parseParams (encodeParams p) = some m ∧ ∀ k, m.lookup k = p.lookup k := by
  have held : ∀ entry ∈ p.entries, p.lookup entry.1 = some entry.2 := fun entry inside => (mem_entries_iff p).mp inside
  have free : ∀ pair ∈ p.entries.map (fun entry => entry.1.toList ++ '=' :: entry.2.toList), ',' ∉ pair := by
    intro pair inside
    obtain ⟨entry,member,rfl⟩ := List.mem_map.mp inside
    obtain ⟨key,_,value⟩ := clean _ _ (held entry member)
    simp only [List.mem_append,List.mem_cons,not_or]
    exact ⟨key,by decide,value⟩
  have read : (split ',' (encodeParams p)).foldl insertPair ∅ = collect p.entries := by
    rw [encodeParams,split_intercalate _ (by simpa using some_) free]
    exact fold_pairs _ (fun entry inside => (clean _ _ (held entry inside)).2.1) ∅
  have same : ∀ k, ((split ',' (encodeParams p)).foldl insertPair ∅).lookup k = p.lookup k := by
    intro k
    rw [read,lookup_collect]
  obtain ⟨entry,member⟩ := List.exists_mem_of_ne_nil _ some_
  refine ⟨_,if_neg ?_,same⟩
  intro empty
  have missing := (entries_nil_iff _).mp (List.isEmpty_iff.mp empty) entry.1
  cases (held entry member).symm.trans ((same entry.1).symm.trans missing)

end Params

section Reading

-- What is read behind the category: up to the next colon the action, then the
-- parameters.
def afterCategory (rest : List Char) : List Char × Option Params :=
  match cut [':'] rest with
  | some (action,text) => (action,if text = [] then none else parseParams text)
  | none => (rest,none)

theorem afterCategory_free (rest : List Char) : ':' ∉ (afterCategory rest).1 := by
  unfold afterCategory
  split
  · rename_i found
    exact cut_before found
  · rename_i none_
    exact cut_none.mp none_

theorem parseCallback_read {category : String} (known : category ∈ ["platform","system","chat"]) (rest : List Char) :
    parseCallback (String.ofList (category.toList ++ ':' :: rest)) =
      .ok (some (category,String.ofList (afterCategory rest).1,(afterCategory rest).2)) := by
  have free : ':' ∉ category.toList := by
    simp only [List.mem_cons,List.not_mem_nil,or_false] at known
    rcases known with rfl | rfl | rfl <;> decide
  unfold parseCallback afterCategory
  rw [String.toList_ofList]
  simp only [splitn,cut_next free]
  cases found : cut [':'] rest with
  | none =>
    simp only [List.length_cons,List.length_nil]
    show (if String.ofList category.toList ∈ ["platform","system","chat"] then _ else _) = _
    rw [String.ofList_toList,if_pos known]
    rfl
  | some sides =>
    show (if String.ofList category.toList ∈ ["platform","system","chat"] then _ else _) = _
    rw [String.ofList_toList,if_pos known]
    rfl

-- The reader of Telegram resolves the category at once, the others later.
theorem parsers_agree (data : String) : parseCallbackData data = parseLarkCallback data := by
  unfold parseCallbackData parseLarkCallback resolved parseCallback
  dsimp only
  split
  · rfl
  · rename_i many
    match parts : splitn ':' 3 data.toList with
    | [] | [_] =>
      rw [parts] at many
      simp at many
    | category :: action :: rest =>
      obtain ⟨params,third⟩ := returns_thirdPart (category :: action :: rest)
      by_cases known : String.ofList category ∈ ["platform","system","chat"]
      · show (if String.ofList category ∈ ["platform","system","chat"] then _ else _) =
          Except.map _ (if String.ofList category ∈ ["platform","system","chat"] then _ else _)
        rw [if_pos known,if_pos known,third]
        rfl
      · show (if String.ofList category ∈ ["platform","system","chat"] then _ else _) =
          Except.map _ (if String.ofList category ∈ ["platform","system","chat"] then _ else _)
        rw [if_neg known,if_neg known]
        rfl

theorem prefix_known (action : String) : actionCategoryPrefix action ∈ ["platform","system","chat"] := by
  unfold actionCategoryPrefix
  split
  · decide
  · split <;> decide

theorem handled_category (action : String) (handler : ActionCategory) (handled : action ∈ handledActions handler) :
    handler = categoryOf (actionCategoryPrefix action) := by
  cases handler <;> simp only [handledActions,List.mem_cons,List.not_mem_nil,or_false] at handled <;>
    casesm* _ ∨ _ <;> subst action <;> decide

def restOf (action : String) (params : Option Params) : List Char :=
  match params with
  | some p => if p.entries.isEmpty then action.toList else action.toList ++ ':' :: encodeParams p
  | none => action.toList

theorem formatCallback_rest (action : String) (params : Option Params) :
    formatCallback action params = String.ofList ((actionCategoryPrefix action).toList ++ ':' :: restOf action params) := by
  unfold formatCallback restOf
  cases params with
  | none => rfl
  | some p =>
    dsimp only
    split <;> simp

theorem lark_read (action : String) (params : Option Params) :
    parseLarkCallback (formatCallback action params) =
      .ok (some (String.ofList (afterCategory (restOf action params)).1,categoryOf (actionCategoryPrefix action),
        (afterCategory (restOf action params)).2)) := by
  rw [formatCallback_rest,parseLarkCallback,parseCallback_read (prefix_known action)]
  rfl

theorem restOf_read {action : String} {params : Option Params} (separable : Separable action params) :
    ∃ back, afterCategory (restOf action params) = (action.toList,back) ∧ SameParams back params := by
  obtain ⟨free,clean⟩ := separable
  have plain : afterCategory action.toList = (action.toList,none) := by rw [afterCategory,cut_none.mpr free]
  cases params with
  | none => exact ⟨none,plain,fun _ => rfl,fun _ => rfl,fun _ => rfl⟩
  | some p =>
    by_cases some_ : p.entries = []
    · refine ⟨none,?_,fun k => ?_,fun _ => some_,fun _ => rfl⟩
      · rw [restOf,if_pos (List.isEmpty_iff.mpr some_),plain]
      · exact ((entries_nil_iff p).mp some_ k).symm
    · obtain ⟨m,read,same⟩ := parseParams_encode p some_ clean
      have written : encodeParams p ≠ [] := by
        intro empty
        rw [empty] at read
        cases read
      refine ⟨some m,?_,same,fun missing => (by cases missing),fun empty => absurd empty some_⟩
      rw [restOf,if_neg (by simpa [List.isEmpty_iff] using some_),afterCategory,cut_next free]
      simp only [written,if_false,read]

theorem lark_round_trips (action : String) (params : Option Params) :
    RoundTrips (parseLarkCallback (formatCallback action params)) action params ↔ Separable action params := by
  unfold RoundTrips
  rw [lark_read]
  constructor
  · rintro ⟨category,back,read,⟨same,absent⟩,_⟩
    simp only [Except.ok.injEq,Option.some.injEq,Prod.mk.injEq] at read
    obtain ⟨action_,_,back_⟩ := read
    have free : ':' ∉ action.toList := by
      rw [← action_,String.toList_ofList]
      exact afterCategory_free _
    refine ⟨free,fun k v present => ?_⟩
    rw [← same k] at present
    cases back with
    | none => cases present
    | some m =>
      unfold afterCategory at back_
      split at back_
      · dsimp only at back_
        split at back_
        · cases back_
        · exact parseParams_clean back_ k v present
      · cases back_
  · intro separable
    obtain ⟨back,read,same⟩ := restOf_read separable
    rw [read]
    exact ⟨categoryOf (actionCategoryPrefix action),back,by rw [String.ofList_toList],same,handled_category action⟩

-- A button comes back as it was sent if and only if no separator stands in its
-- action, its keys or its values; the three platforms read and write alike.
theorem callbacks_round_trip_iff (button : ActionButton) (data : String) :
    (RoundTrips (parseCallbackData (formatCallbackData button)) button.action button.params ∧
      RoundTrips (parseLarkCallback (formatLarkCallback button.action button.params)) button.action button.params ∧
      RoundTrips (parseDingtalkCallback (formatDingtalkCallback button.action button.params)) button.action button.params ↔
        Separable button.action button.params) ∧
    formatCallbackData button = formatLarkCallback button.action button.params ∧
    formatLarkCallback button.action button.params = formatDingtalkCallback button.action button.params ∧
    parseCallbackData data = parseLarkCallback data ∧ parseLarkCallback data = parseDingtalkCallback data := by
  have reads := lark_round_trips button.action button.params
  refine ⟨⟨fun round => reads.mp round.2.1,fun separable => ⟨?_,reads.mpr separable,reads.mpr separable⟩⟩,rfl,rfl,
    parsers_agree data,rfl⟩
  rw [parsers_agree]
  exact reads.mpr separable

def injecting : ActionButton := ⟨"Confirm","system.confirm",some ⟨[⟨"callId","x,value=no"⟩],List.nodupKeys_singleton _⟩⟩

def readValue : Parsed → Option String
  | .ok (some (_,_,some m)) => m.lookup "value"
  | _ => none

-- A value with a comma sets another parameter.
theorem value_injects_parameter : ¬∀ button : ActionButton,
    RoundTrips (parseCallbackData (formatCallbackData button)) button.action button.params := by
  intro round
  obtain ⟨category,back,read,⟨same,_⟩,_⟩ := round injecting
  have injected : readValue (parseCallbackData (formatCallbackData injecting)) = some "no" := by decide
  rw [read] at injected
  cases back with
  | none => cases injected
  | some m => cases injected.symm.trans (same "value")

end Reading

end AlineaCopilot.ChannelCallbacks
