namespace AlineaCopilot

-- The errors the team operations return, with the text each one carries. A
-- repository error keeps its text only.
inductive TeamError where
  | teamNotFound (teamId : String)
  | agentNotFound (slotId : String)
  | taskNotFound (taskId : String)
  | blockedTaskNotFound (taskId : String)
  | invalidRequest (text : String)
  | leaderOnly (text : String)
  | duplicateAgentName (name : String)
  | sessionNotFound (teamId : String)
  | forbidden (text : String)
  | backendNotAllowed (backend : String)
  | database (text : String)
deriving DecidableEq, Repr

def TeamError.display : TeamError → String
  | .teamNotFound teamId => "Team not found: " ++ teamId
  | .agentNotFound slotId => "Agent not found: " ++ slotId
  | .taskNotFound taskId => "Task not found: " ++ taskId
  | .blockedTaskNotFound taskId => "Blocked task not found: " ++ taskId
  | .invalidRequest text => "Invalid request: " ++ text
  | .leaderOnly text => "Leader-only action: " ++ text
  | .duplicateAgentName name => "Agent name already taken: " ++ name
  | .sessionNotFound teamId => "Session not found: " ++ teamId
  | .forbidden text => "Forbidden: " ++ text
  | .backendNotAllowed backend => "Backend not allowed: " ++ backend
  | .database text => text

end AlineaCopilot
