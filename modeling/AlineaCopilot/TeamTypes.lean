import AlineaCopilot.RustText
import AlineaCopilot.TeamErrors

namespace AlineaCopilot

inductive TeammateRole where
  | lead
  | teammate
deriving DecidableEq, Repr

def TeammateRole.parse (text : String) : Option TeammateRole :=
  if text = "lead" ∨ text = "leader" then some .lead
  else if text = "teammate" then some .teammate
  else none

inductive TeammateStatus where
  | idle
  | working
  | thinking
  | toolUse
  | completed
  | error
deriving DecidableEq, Repr

structure TeamAgent where
  slotId : String
  name : String
  role : TeammateRole
  conversationId : String
  backend : String
  model : String
  customAgentId : Option String
  status : Option TeammateStatus
  conversationType : Option String
  cliPath : Option String
deriving DecidableEq, Repr

-- `toLowercase` stands for the standard library's Unicode-aware function.
def normalizeName (toLowercase : String → String) (name : String) : String :=
  toLowercase (String.ofList ((RustText.trim name).toList.filter fun c => !RustText.isControl c))

end AlineaCopilot
