import AlineaCopilot.McpTransportJson
import AlineaCopilot.OpencodeComments
open AlineaCopilot.JsonComments AlineaCopilot.KeyedMaps AlineaCopilot.McpServers AlineaCopilot.TeamMcp

namespace AlineaCopilot.Opencode

structure DetectedServer where
  name : String
  transport : McpServerTransport
  importable : Bool
  importSkipReason : Option String

def parseServerEntry (name : String) (config : Json) : Option DetectedServer :=
  match (config.getStr "type").getD "stdio" with
  | "stdio" => (config.getStr "command").map fun command =>
      ⟨name,.stdio command (stringList (config.get "args")) (stringMap (config.get "env")),true,none⟩
  | "sse" => (config.getStr "url").map fun url => ⟨name,.sse url (stringMap (config.get "headers")),true,none⟩
  | "http" | "streamable_http" => (config.getStr "url").map fun url => ⟨name,.http url (stringMap (config.get "headers")),true,none⟩
  | _ => none

def parseMcpField (root : Json) : Except McpError (List DetectedServer) :=
  match root.get "mcp" with
  | none => .ok []
  | some (.object servers) => .ok (servers.filterMap fun entry => parseServerEntry entry.1 entry.2)
  | some _ => .error (.agentOperationFailed "mcp field is not an object")

def fieldUnlessEmpty (key : String) (m : KeyedMap String String) : List (String × Json) :=
  if m.entries.isEmpty then [] else [(key,mapJson m)]

def transportToJson : McpServerTransport → Json
  | .stdio command args env =>
    .object ([("type",.string "stdio"),("command",.string command),("args",.array (args.map .string))] ++ fieldUnlessEmpty "env" env)
  | .sse url headers => .object ([("type",.string "sse"),("url",.string url)] ++ fieldUnlessEmpty "headers" headers)
  | .http url headers => .object ([("type",.string "http"),("url",.string url)] ++ fieldUnlessEmpty "headers" headers)

-- `Map::insert`; the order of the fields is the one of the map and says nothing.
def putField (fields : List (String × Json)) (key : String) (value : Json) : List (String × Json) :=
  (key,value) :: fields.filter (·.1 ≠ key)

section Operations
variable (serde : Serde)

def parseJsonc (input : String) : Except McpError Json :=
  match serde.fromStr (stripJsonComments input) with
  | some value => .ok value
  | none => .error .json

def installed (root : Json) (name : String) (transport : McpServerTransport) : Except McpError Json :=
  match root with
  | .object fields =>
    match (root.get "mcp").getD (.object []) with
    | .object servers => .ok (.object (putField fields "mcp" (.object (putField servers name (transportToJson transport)))))
    | _ => .error (.agentOperationFailed "mcp field is not an object")
  | _ => .error (.agentOperationFailed "config root is not an object")

def removed (root : Json) (name : String) : Option Json :=
  match root,root.get "mcp" with
  | .object fields,some (.object servers) =>
    if (List.lookup name servers).isSome then some (.object (putField fields "mcp" (.object (servers.filter (·.1 ≠ name))))) else none
  | _,_ => none

-- The text that is written, if any is. A file that does not exist is an empty object.
def installServer (file : Option String) (name : String) (transport : McpServerTransport) : Except McpError String := do
  let root ← (file.map (parseJsonc serde)).getD (.ok (.object []))
  let after ← installed root name transport
  pure (serde.toStringPretty after)

def removeServer (file : Option String) (name : String) : Except McpError (Option String) :=
  match file with
  | none => .ok none
  | some content => do
    let root ← parseJsonc serde content
    pure ((removed root name).map serde.toStringPretty)

def detectExisting (file : Option String) : Except McpError (List DetectedServer) :=
  match file with
  | none => .ok []
  | some content => do
    let root ← parseJsonc serde content
    parseMcpField root

end Operations

section Statements

def entryOf (root : Json) (name : String) : Option Json := (root.get "mcp").bind (·.get name)

-- Two configurations that differ at most in the entry of one server.
def OnlyEntry (root after : Json) (name : String) (entry : Option Json) : Prop :=
  (∀ key, key ≠ "mcp" → after.get key = root.get key) ∧ (∀ other, other ≠ name → entryOf after other = entryOf root other) ∧
    entryOf after name = entry

-- A file is read as the document without its comments, the text that an
-- installation writes is so too, and the operations do what they are for.
structure Faithful (serde : Serde) (doc written : Document) (root after : Json) (name : String) (transport : McpServerTransport) :
    Prop where
  strips : stripJsonComments (String.ofList doc.text) = String.ofList doc.plain
  bare : doc.commented = false → stripJsonComments (String.ofList doc.text) = String.ofList doc.text
  parses : parseJsonc serde (String.ofList doc.text) = .ok root
  installs : installServer serde (some (String.ofList doc.text)) name transport = .ok (String.ofList written.text) ∧
    OnlyEntry root after name (some (transportToJson transport))
  removes : ∃ result, removeServer serde (some (String.ofList doc.text)) name = .ok result ∧
    (entryOf root name = none ∧ result = none ∨ ∃ v, result = some (serde.toStringPretty v) ∧ OnlyEntry root v name none)
  rereads : stripJsonComments (String.ofList written.text) = String.ofList written.plain
  detects : ∃ servers, detectExisting serde (some (String.ofList written.text)) = .ok servers ∧
    (∃ server ∈ servers, server.name = name) ∧ ∀ server ∈ servers, server.name = name → transport.Same server.transport

def asciiText (text : String) : Bool := text.toList.all ascii

mutual

def asciiJson : Json → Bool
  | .string text => asciiText text
  | .array items => asciiItems items
  | .object fields => asciiFields fields
  | _ => true

def asciiItems : List Json → Bool
  | [] => true
  | value :: rest => asciiJson value && asciiItems rest

def asciiFields : List (String × Json) → Bool
  | [] => true
  | (key,value) :: rest => asciiText key && asciiJson value && asciiFields rest

end

def asciiMap (m : KeyedMap String String) : Bool := m.entries.all fun entry => asciiText entry.1 && asciiText entry.2

def asciiTransport : McpServerTransport → Bool
  | .stdio command args env => asciiText command && args.all asciiText && asciiMap env
  | .sse url headers | .http url headers => asciiText url && asciiMap headers

-- Everything in a configuration but the entry of one server.
def asciiAround (root : Json) (name : String) : Bool :=
  match root with
  | .object fields => asciiFields (fields.filter (·.1 ≠ "mcp")) &&
    match root.get "mcp" with
    | some (.object servers) => asciiFields (servers.filter (·.1 ≠ name))
    | _ => true
  | _ => true

end Statements

section Entries

theorem lookup_cons_ite (key other : String) (value : Json) (rest : List (String × Json)) :
    List.lookup other ((key,value) :: rest) = if other = key then some value else List.lookup other rest := by
  rw [List.lookup_cons]
  by_cases same : other = key
  · rw [if_pos same,beq_iff_eq.mpr same]
  · rw [if_neg same,beq_false_of_ne same]

theorem lookup_filter (fields : List (String × Json)) (key other : String) :
    List.lookup other (fields.filter (·.1 ≠ key)) = if other = key then none else List.lookup other fields := by
  induction fields with
  | nil => exact (ite_self _).symm
  | cons head rest ih =>
    obtain ⟨first,value⟩ := head
    by_cases dropped : first = key
    · subst dropped
      rw [List.filter_cons_of_neg (by simp),ih,lookup_cons_ite]
      by_cases same : other = first
      · rw [if_pos same,if_pos same]
      · rw [if_neg same,if_neg same,if_neg same]
    · rw [List.filter_cons_of_pos (by simpa using dropped),lookup_cons_ite,lookup_cons_ite,ih]
      by_cases same : other = first
      · subst same
        rw [if_pos rfl,if_neg dropped,if_pos rfl]
      · rw [if_neg same,if_neg same]

theorem lookup_putField (fields : List (String × Json)) (key other : String) (value : Json) :
    List.lookup other (putField fields key value) = if other = key then some value else List.lookup other fields := by
  rw [putField,lookup_cons_ite,lookup_filter]
  by_cases same : other = key
  · rw [if_pos same,if_pos same]
  · rw [if_neg same,if_neg same,if_neg same]

theorem installed_object (accepts : installed root name transport = .ok after) : ∃ fields servers, root = .object fields ∧
    (root.get "mcp").getD (.object []) = .object servers ∧
    after = .object (putField fields "mcp" (.object (putField servers name (transportToJson transport)))) := by
  unfold installed at accepts
  split at accepts
  · rename_i fields
    split at accepts
    · rename_i servers whole
      exact ⟨fields,servers,rfl,whole,(Except.ok.inj accepts).symm⟩
    · cases accepts
  · cases accepts

theorem entryOf_of_servers (whole : (root.get "mcp").getD (.object []) = .object servers) (name : String) :
    entryOf root name = List.lookup name servers := by
  unfold entryOf
  cases found : root.get "mcp" with
  | none =>
    rw [found] at whole
    cases whole
    rfl
  | some value =>
    rw [found] at whole
    obtain rfl : value = .object servers := whole
    rfl

theorem entryOf_put (fields : List (String × Json)) (servers : List (String × Json)) (name : String) :
    entryOf (.object (putField fields "mcp" (.object servers))) name = List.lookup name servers :=
  entryOf_of_servers (by rw [Json.get,lookup_putField,if_pos rfl]; rfl) name

theorem installed_only (accepts : installed root name transport = .ok after) :
    OnlyEntry root after name (some (transportToJson transport)) := by
  obtain ⟨fields,servers,rfl,whole,rfl⟩ := installed_object accepts
  refine ⟨fun key other => ?_,fun other apart => ?_,?_⟩
  · rw [Json.get,lookup_putField,if_neg other]
    rfl
  · rw [entryOf_put,lookup_putField,if_neg apart,entryOf_of_servers whole]
  · rw [entryOf_put,lookup_putField,if_pos rfl]

theorem removed_only (root : Json) (name : String) :
    entryOf root name = none ∧ removed root name = none ∨ ∃ after, removed root name = some after ∧ OnlyEntry root after name none := by
  unfold removed
  split
  · rename_i fields servers found
    have whole : ((Json.object fields).get "mcp").getD (.object []) = .object servers := by rw [found]; rfl
    split
    · refine .inr ⟨_,rfl,fun key other => ?_,fun other apart => ?_,?_⟩
      · rw [Json.get,lookup_putField,if_neg other]
        rfl
      · rw [entryOf_put,lookup_filter,if_neg apart,entryOf_of_servers whole]
      · rw [entryOf_put,lookup_filter,if_pos rfl]
    · rename_i absent
      rw [entryOf_of_servers whole]
      exact .inl ⟨Option.not_isSome_iff_eq_none.mp absent,rfl⟩
  · rename_i root _ _ other
    refine .inl ⟨?_,rfl⟩
    cases root with
    | object fields =>
      unfold entryOf
      cases found : (Json.object fields).get "mcp" with
      | none => rfl
      | some value =>
        cases value with
        | object servers => exact (other fields servers rfl found).elim
        | _ => rfl
    | _ => rfl

theorem stringMap_unlessEmpty (key : String) (before : List (String × Json)) (fresh : List.lookup key before = none) (m : KeyedMap String String)
    (k : String) : (stringMap ((Json.object (before ++ fieldUnlessEmpty key m)).get key)).lookup k = m.lookup k := by
  unfold fieldUnlessEmpty
  split
  · rename_i empty
    rw [List.append_nil,Json.get,fresh]
    exact ((entries_nil_iff m).mp (List.isEmpty_iff.mp empty) k).symm
  · have found : (Json.object (before ++ [(key,mapJson m)])).get key = some (mapJson m) := by
      rw [Json.get,List.lookup_append,fresh,lookup_cons_ite,if_pos rfl]
      rfl
    rw [found,stringMap_mapJson]

theorem parseServerEntry_written (name : String) (transport : McpServerTransport) :
    ∃ server, parseServerEntry name (transportToJson transport) = some server ∧ server.name = name ∧ transport.Same server.transport := by
  cases transport with
  | stdio command args env =>
    refine ⟨_,rfl,rfl,rfl,(stringList_strings args).symm,fun k => ?_⟩
    exact (stringMap_unlessEmpty "env" [("type",.string "stdio"),("command",.string command),("args",.array (args.map .string))] rfl env k).symm
  | sse url headers =>
    exact ⟨_,rfl,rfl,rfl,fun k => (stringMap_unlessEmpty "headers" [("type",.string "sse"),("url",.string url)] rfl headers k).symm⟩
  | http url headers =>
    exact ⟨_,rfl,rfl,rfl,fun k => (stringMap_unlessEmpty "headers" [("type",.string "http"),("url",.string url)] rfl headers k).symm⟩

theorem parseServerEntry_name (read : parseServerEntry name config = some server) : server.name = name := by
  unfold parseServerEntry at read
  split at read
  all_goals first
    | obtain ⟨_,_,rfl⟩ := Option.map_eq_some_iff.mp read
      rfl
    | cases read

-- An object has one field of a name, so that one server is read for it.
theorem detected_installed (accepts : installed root name transport = .ok after) :
    ∃ servers, parseMcpField after = .ok servers ∧ (∃ server ∈ servers, server.name = name) ∧
      ∀ server ∈ servers, server.name = name → transport.Same server.transport := by
  obtain ⟨fields,servers,rfl,whole,rfl⟩ := installed_object accepts
  obtain ⟨written,read,named,same⟩ := parseServerEntry_written name transport
  refine ⟨(putField servers name (transportToJson transport)).filterMap fun entry => parseServerEntry entry.1 entry.2,?_,
    ⟨written,?_,named⟩,fun server member called => ?_⟩
  · have found : (Json.object (putField fields "mcp" (.object (putField servers name (transportToJson transport))))).get "mcp" =
        some (.object (putField servers name (transportToJson transport))) := by rw [Json.get,lookup_putField,if_pos rfl]
    rw [parseMcpField,found]
  · exact List.mem_filterMap.mpr ⟨(name,transportToJson transport),List.mem_cons_self,read⟩
  · obtain ⟨⟨other,config⟩,inside,read'⟩ := List.mem_filterMap.mp member
    cases (parseServerEntry_name read').symm.trans called
    rcases List.mem_cons.mp inside with here | elsewhere
    · cases here
      cases read'.symm.trans read
      exact same
    · exact absurd rfl (of_decide_eq_true (List.mem_filter.mp elsewhere).2)

end Entries

section Ascii

theorem asciiJson_string (text : String) : asciiJson (.string text) = asciiText text := rfl

theorem asciiJson_object (fields : List (String × Json)) : asciiJson (.object fields) = asciiFields fields := rfl

theorem asciiFields_nil : asciiFields [] = true := rfl

theorem asciiFields_cons (key : String) (value : Json) (rest : List (String × Json)) :
    asciiFields ((key,value) :: rest) = (asciiText key && asciiJson value && asciiFields rest) := rfl

theorem asciiItems_strings (texts : List String) : asciiItems (texts.map .string) = texts.all asciiText := by
  induction texts with
  | nil => rfl
  | cons head rest ih =>
    show (asciiText head && asciiItems (rest.map .string)) = _
    rw [ih,List.all_cons]

theorem asciiFields_append (before after : List (String × Json)) :
    asciiFields (before ++ after) = (asciiFields before && asciiFields after) := by
  induction before with
  | nil => rfl
  | cons head rest ih =>
    obtain ⟨key,value⟩ := head
    rw [List.cons_append,asciiFields_cons,asciiFields_cons,ih]
    ac_rfl

theorem asciiJson_map (m : KeyedMap String String) : asciiJson (mapJson m) = asciiMap m := by
  rw [mapJson,asciiJson_object,asciiMap]
  induction m.entries with
  | nil => rfl
  | cons head rest ih =>
    rw [List.map_cons,asciiFields_cons,ih,List.all_cons]
    rfl

theorem asciiFields_unlessEmpty (low : asciiText key = true) (m : KeyedMap String String) :
    asciiFields (fieldUnlessEmpty key m) = asciiMap m := by
  unfold fieldUnlessEmpty
  split
  · rename_i empty
    rw [asciiMap,List.isEmpty_iff.mp empty]
    rfl
  · rw [asciiFields_cons,low,asciiJson_map,asciiFields_nil,Bool.and_true,Bool.true_and]

theorem asciiJson_transport (transport : McpServerTransport) : asciiJson (transportToJson transport) = asciiTransport transport := by
  cases transport with
  | stdio command args env =>
    rw [transportToJson,asciiJson_object,asciiFields_append,asciiFields_unlessEmpty (by decide),asciiTransport,← asciiItems_strings]
    have array (items : List Json) : asciiJson (.array items) = asciiItems items := rfl
    simp [asciiFields_cons,asciiFields_nil,asciiJson_string,array,show asciiText "type" = true by decide,show asciiText "stdio" = true by decide,
      show asciiText "command" = true by decide,show asciiText "args" = true by decide]
  | sse url headers =>
    rw [transportToJson,asciiJson_object,asciiFields_append,asciiFields_unlessEmpty (by decide),asciiTransport]
    simp [asciiFields_cons,asciiFields_nil,asciiJson_string,show asciiText "type" = true by decide,show asciiText "sse" = true by decide,show asciiText "url" = true by decide]
  | http url headers =>
    rw [transportToJson,asciiJson_object,asciiFields_append,asciiFields_unlessEmpty (by decide),asciiTransport]
    simp [asciiFields_cons,asciiFields_nil,asciiJson_string,show asciiText "type" = true by decide,show asciiText "http" = true by decide,show asciiText "url" = true by decide]

theorem asciiJson_installed (accepts : installed root name transport = .ok after) :
    asciiJson after = (asciiAround root name && asciiText name && asciiTransport transport) := by
  obtain ⟨fields,servers,rfl,whole,rfl⟩ := installed_object accepts
  have around : asciiAround (.object fields) name =
      (asciiFields (fields.filter (·.1 ≠ "mcp")) && asciiFields (servers.filter (·.1 ≠ name))) := by
    unfold asciiAround
    cases found : (Json.object fields).get "mcp" with
    | none =>
      rw [found] at whole
      cases whole
      rfl
    | some value =>
      rw [found] at whole
      obtain rfl : value = .object servers := whole
      rfl
  rw [around,asciiJson_object,putField,asciiFields_cons,asciiJson_object,putField,asciiFields_cons,asciiJson_transport,show asciiText "mcp" = true by decide]
  ac_rfl

end Ascii

-- The scanner reads one letter from every byte, so that the comments go and the rest
-- stays exactly when the rest is ASCII. An installation writes the configuration as
-- it is, without escapes, and the next reading meets all its strings.
theorem jsonc_faithful_iff {serde : Serde} {doc written : Document}
    (reads : serde.fromStr (String.ofList doc.plain) = some root)
    (accepts : installed root name transport = .ok after)
    (writes : serde.toStringPretty after = String.ofList written.text)
    (back : serde.fromStr (String.ofList written.plain) = some after)
    (verbatim : written.plain.all ascii = asciiJson after) :
    Faithful serde doc written root after name transport ↔
      doc.plain.all ascii = true ∧ asciiAround root name = true ∧ asciiText name = true ∧ asciiTransport transport = true := by
  have low : written.plain.all ascii = true ↔
      asciiAround root name = true ∧ asciiText name = true ∧ asciiTransport transport = true := by
    rw [verbatim,asciiJson_installed accepts,Bool.and_eq_true,Bool.and_eq_true,and_assoc]
  rw [← low]
  constructor
  · intro faithful
    exact ⟨(strips_iff doc).mp faithful.strips,(strips_iff written).mp faithful.rereads⟩
  · rintro ⟨first,second⟩
    have strips := (strips_iff doc).mpr first
    have rereads := (strips_iff written).mpr second
    have parses : parseJsonc serde (String.ofList doc.text) = .ok root := by rw [parseJsonc,strips,reads]
    have parses' : parseJsonc serde (String.ofList written.text) = .ok after := by rw [parseJsonc,rereads,back]
    refine ⟨strips,fun bare => by rw [strips,Document.text_plain bare],parses,⟨?_,installed_only accepts⟩,?_,rereads,?_⟩
    · show (parseJsonc serde (String.ofList doc.text) >>= fun root => installed root name transport >>= fun after =>
        pure (serde.toStringPretty after)) = _
      rw [parses]
      show (installed root name transport >>= fun after => pure (serde.toStringPretty after)) = _
      rw [accepts,← writes]
      rfl
    · refine ⟨(removed root name).map serde.toStringPretty,?_,?_⟩
      · show (parseJsonc serde (String.ofList doc.text) >>= fun root => pure ((removed root name).map serde.toStringPretty)) = _
        rw [parses]
        rfl
      · rcases removed_only root name with ⟨absent,nothing⟩ | ⟨v,removed,only⟩
        · exact .inl ⟨absent,by rw [nothing]; rfl⟩
        · exact .inr ⟨v,by rw [removed]; rfl,only⟩
    · obtain ⟨servers,detected,present,same⟩ := detected_installed accepts
      refine ⟨servers,?_,present,same⟩
      show (parseJsonc serde (String.ofList written.text) >>= fun root => parseMcpField root) = _
      rw [parses']
      exact detected

section Files

def between (text : String) : List Part :=
  text.toList.filterMap fun c => if free : c ≠ '"' ∧ c ≠ '/' then some (.letter c free) else none

def quoted (text : String) : Part :=
  .string (text.toList.filterMap fun c => if free : c ≠ '"' ∧ c ≠ '\\' then some (.plain c free) else none)

-- {"theme":"dark"/**/}
def settings : Document := ⟨between "\x7b" ++ quoted "theme" :: between ":" ++ quoted "dark" :: .block [] trivial :: between "\x7d",none⟩

def settingsValue : Json := .object [("theme",.string "dark")]

def search : McpServerTransport := .sse "https://search" ∅

-- The same with the server `search` in it.
def settingsWritten : Document :=
  ⟨between "\x7b" ++ quoted "mcp" :: between ":\x7b" ++ quoted "search" :: between ":\x7b" ++ quoted "type" :: between ":" ++
    quoted "sse" :: between "," ++ quoted "url" :: between ":" ++ quoted "https://search" :: between "\x7d\x7d," ++ quoted "theme" ::
    between ":" ++ quoted "dark" :: between "\x7d",none⟩

def settingsAfter : Json := .object (putField [("theme",.string "dark")] "mcp" (.object (putField [] "search" (transportToJson search))))

-- A reader and a writer that know these two files.
def filesSerde : Serde where
  fromStr text :=
    if text = String.ofList settings.plain then some settingsValue
    else if text = String.ofList settingsWritten.plain then some settingsAfter else none
  toString _ := ""
  toStringPretty value := if (value.get "mcp").isSome then String.ofList settingsWritten.text else String.ofList settings.text

theorem jsonc_faithful_settings : Faithful filesSerde settings settingsWritten settingsValue settingsAfter "search" search := by
  have apart : String.ofList settingsWritten.plain ≠ String.ofList settings.plain := by
    intro same
    exact absurd (congrArg List.length (String.ofList_injective same)) (by decide +kernel)
  have reads : filesSerde.fromStr (String.ofList settings.plain) = some settingsValue := by
    simp only [filesSerde,if_true]
  have back : filesSerde.fromStr (String.ofList settingsWritten.plain) = some settingsAfter := by
    simp only [filesSerde,apart,if_false,if_true]
  refine (jsonc_faithful_iff reads rfl rfl back ?_).mpr ⟨?_,?_,?_,?_⟩
  all_goals decide

-- A name with an accent: its two bytes come back as two letters, and every
-- installation writes them so.
theorem accent_garbled :
    stripJsonComments "\x7b\"editor\":\"é\"\x7d" = "\x7b\"editor\":\"Ã©\"\x7d" ∧
      stripJsonComments "\x7b\"editor\":\"é\"\x7d" ≠ "\x7b\"editor\":\"é\"\x7d" := by
  decide

end Files

end AlineaCopilot.Opencode
