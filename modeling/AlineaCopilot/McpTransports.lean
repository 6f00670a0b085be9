import AlineaCopilot.KeyedMaps
import AlineaCopilot.RustText
open AlineaCopilot.KeyedMaps AlineaCopilot.RustText

namespace AlineaCopilot.McpServers

inductive McpServerTransport where
  | stdio (command : String) (args : List String) (env : KeyedMap String String)
  | sse (url : String) (headers : KeyedMap String String)
  | http (url : String) (headers : KeyedMap String String)
deriving DecidableEq

inductive McpError where
  | notFound (id : String)
  | conflict (message : String)
  | invalidEdit (message : String)
  | invalidTransport (message : String)
  | agentOperationFailed (message : String)
  | database (message : String)
  | json
deriving DecidableEq, Repr

def splittableStdioLaunchers : List String := ["npx","pnpx","bunx","uvx","uv","node","python","python3","deno"]

def push (tokens : List String) (current : List Char) : List String :=
  if current = [] then tokens else tokens ++ [String.ofList current]

def scan : Option Char → List String → List Char → List Char → Except String (List String)
  | quote,tokens,current,[] =>
    if quote.isSome then .error "Unterminated quoted command string"
    else .ok (push tokens current)
  | some active,tokens,current,ch :: rest =>
    if ch = active then scan none tokens current rest
    else if ch = '\\' ∧ active = '"' then
      match rest with
      | next :: rest => scan (some active) tokens (current ++ [next]) rest
      | [] => scan (some active) tokens current []
    else scan (some active) tokens (current ++ [ch]) rest
  | none,tokens,current,ch :: rest =>
    if ch = '"' ∨ ch = '\'' then scan (some ch) tokens current rest
    else if ch = '\\' then
      match rest with
      | next :: rest => scan none tokens (current ++ [next]) rest
      | [] => scan none tokens current []
    else if isWhitespace ch then
      scan none (push tokens current) [] rest
    else scan none tokens (current ++ [ch]) rest

def shellSplit (input : String) : Except String (List String) := scan none [] [] input.toList

-- `split_whitespace().next()`, with the quotation marks at its ends trimmed off.
def firstToken (text : String) : String :=
  let token := (text.toList.dropWhile isWhitespace).takeWhile (!isWhitespace ·)
  let quotation := fun c => ['"','\''].contains c
  String.ofList ((token.dropWhile quotation).reverse.dropWhile quotation).reverse

def splitStdioCommand (command : String) : Except McpError (Option (String × List String)) :=
  let trimmed := trim command
  if trimmed = "" ∨ trimmed.toList.any isWhitespace = false then .ok none
  else if splittableStdioLaunchers.contains (firstToken trimmed) = false then .ok none
  else
    match shellSplit trimmed with
    | .error message => .error (.invalidTransport message)
    | .ok (program :: next :: args) => .ok (some (program,next :: args))
    | .ok _ => .ok none

def normalizeTransport : McpServerTransport → Except McpError McpServerTransport
  | .stdio command [] env =>
    (splitStdioCommand command).map fun
      | none => .stdio command [] env
      | some (command,args) => .stdio command args env
  | transport => .ok transport


end AlineaCopilot.McpServers
