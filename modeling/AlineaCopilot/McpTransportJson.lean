import AlineaCopilot.McpTransports
import AlineaCopilot.TeamMcpTools
open AlineaCopilot.KeyedMaps AlineaCopilot.TeamMcp

namespace AlineaCopilot.McpServers

-- `serde_json`: the reader of a value, and the two writers.
structure Serde where
  fromStr : String → Option Json
  toString : Json → String
  toStringPretty : Json → String

def mapJson (m : KeyedMap String String) : Json := .object (m.entries.map fun entry => (entry.1,.string entry.2))

-- Entries that are no strings are passed over, a missing field counts as empty.
def stringMap : Option Json → KeyedMap String String
  | some (.object fields) => collect (fields.filterMap fun field => field.2.asStr.map fun text => ⟨field.1,text⟩)
  | _ => ∅

def stringList : Option Json → List String
  | some (.array items) => items.filterMap Json.asStr
  | _ => []

-- A map is the same in any order of its entries.
def McpServerTransport.Same : McpServerTransport → McpServerTransport → Prop
  | .stdio command args env,.stdio command' args' env' => command = command' ∧ args = args' ∧ ∀ k, env.lookup k = env'.lookup k
  | .sse url headers,.sse url' headers' | .http url headers,.http url' headers' => url = url' ∧ ∀ k, headers.lookup k = headers'.lookup k
  | _,_ => False

section Database

def McpServerTransport.transportType : McpServerTransport → String
  | .stdio .. => "stdio"
  | .sse .. => "sse"
  | .http .. => "http"

def McpServerTransport.config : McpServerTransport → Json
  | .stdio command args env => .object [("command",.string command),("args",.array (args.map .string)),("env",mapJson env)]
  | .sse url headers | .http url headers => .object [("url",.string url),("headers",mapJson headers)]

def McpServerTransport.toConfigJson (serde : Serde) (transport : McpServerTransport) : String := serde.toString transport.config

def fromValue (transportType : String) (value : Json) : Except McpError McpServerTransport :=
  match transportType with
  | "stdio" =>
    match value.getStr "command" with
    | none => .error (.invalidTransport "stdio: missing command")
    | some command => .ok (.stdio command (stringList (value.get "args")) (stringMap (value.get "env")))
  | "sse" =>
    match value.getStr "url" with
    | none => .error (.invalidTransport "sse: missing url")
    | some url => .ok (.sse url (stringMap (value.get "headers")))
  | "http" =>
    match value.getStr "url" with
    | none => .error (.invalidTransport "http: missing url")
    | some url => .ok (.http url (stringMap (value.get "headers")))
  | other => .error (.invalidTransport ("unknown transport type: " ++ other))

def fromDb (serde : Serde) (transportType configJson : String) : Except McpError McpServerTransport :=
  match serde.fromStr configJson with
  | none => .error .json
  | some value => fromValue transportType value

end Database

section Facts

theorem stringMap_mapJson (m : KeyedMap String String) (k : String) : (stringMap (some (mapJson m))).lookup k = m.lookup k := by
  have entries : (m.entries.map fun entry => ((entry.1,.string entry.2) : String × Json)).filterMap
      (fun field => field.2.asStr.map fun text => (⟨field.1,text⟩ : Sigma fun _ : String => String)) = m.entries := by
    rw [List.filterMap_map]
    exact List.filterMap_some
  rw [mapJson,stringMap,entries,lookup_collect]

theorem stringList_strings (args : List String) : stringList (some (.array (args.map .string))) = args := by
  rw [stringList,List.filterMap_map]
  exact List.filterMap_some

-- What was written for a transport is read as that transport.
theorem fromValue_config (transport : McpServerTransport) :
    ∃ back, fromValue transport.transportType transport.config = .ok back ∧ transport.Same back := by
  cases transport with
  | stdio command args env =>
    refine ⟨.stdio command (stringList (some (.array (args.map .string)))) (stringMap (some (mapJson env))),rfl,rfl,?_,fun k => ?_⟩
    · exact (stringList_strings args).symm
    · exact (stringMap_mapJson env k).symm
  | sse url headers => exact ⟨.sse url (stringMap (some (mapJson headers))),rfl,rfl,fun k => (stringMap_mapJson headers k).symm⟩
  | http url headers => exact ⟨.http url (stringMap (some (mapJson headers))),rfl,rfl,fun k => (stringMap_mapJson headers k).symm⟩

end Facts

end AlineaCopilot.McpServers
