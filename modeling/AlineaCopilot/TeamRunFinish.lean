import AlineaCopilot.TeamRunReach
open AlineaCopilot.KeyedMaps AlineaCopilot.TransitionRuns

namespace AlineaCopilot.TeamRun

def TeamRunStatus.terminal (status : TeamRunStatus) : Prop :=
  status = .completed ∨ status = .cancelled ∨ status = .failed

-- One user message to the lead, woken, claimed and (in the second list) started.
def leadChild : ActiveChildTurn := ⟨"run","lead",.lead,"conversation","turn"⟩
def leadStarting : List Operation :=
  [.acceptUserMessage "run" "lead" .lead false none,.recordPendingWake "lead" .lead .userMessage,
    .claimWakeForTurn "reservation" "lead" .lead "conversation"]
def leadRunning : List Operation := leadStarting ++ [.recordChildStarted 0 "reservation" leadChild]

end AlineaCopilot.TeamRun
