import AlineaCopilot.TransitionRuns
import AlineaCopilot.KeyedMaps
import AlineaCopilot.TeamErrors
import AlineaCopilot.TeamRun
import AlineaCopilot.TeamRunCalls
import AlineaCopilot.TeamRunReach
import AlineaCopilot.TeamRunFinish
import AlineaCopilot.TeamTaskBoard
import AlineaCopilot.TeamTaskEdges
import AlineaCopilot.TeamTypes
import AlineaCopilot.TeamRoster
import AlineaCopilot.TeamRosterOrder
import AlineaCopilot.RustText
import AlineaCopilot.StatefulPrograms
import AlineaCopilot.ProjectTasks
import AlineaCopilot.ProjectTaskCalls
import AlineaCopilot.ProjectTaskTransitions
import AlineaCopilot.ProjectTaskUpkeep
import AlineaCopilot.ProjectTaskOrder
import AlineaCopilot.ProjectTaskRollup
import AlineaCopilot.TeamMcpTools
import AlineaCopilot.TeamMcpServer
import AlineaCopilot.TeamMcpAuthority
import AlineaCopilot.TeamMcpTransports
import AlineaCopilot.TeamRunHistory
import AlineaCopilot.TeamRunIsolation
import AlineaCopilot.TeamRunBroadcasts
import AlineaCopilot.TeamRunStream
import AlineaCopilot.InterleavedRequests
import AlineaCopilot.ProjectMembers
import AlineaCopilot.ProjectWorkspace
import AlineaCopilot.ProjectIsolation
import AlineaCopilot.ProjectIsolationRuns
import AlineaCopilot.ProjectTaskRequests
import AlineaCopilot.ConversationRuntime
import AlineaCopilot.ConversationClaims
import AlineaCopilot.MessageTable
import AlineaCopilot.ConversationRequests
import AlineaCopilot.ConversationSteps
import AlineaCopilot.ConversationFlags
import AlineaCopilot.ChannelPluginRuns
import AlineaCopilot.ChannelRelayTurns
import AlineaCopilot.ChannelSessionBindings
import AlineaCopilot.ConversationCancel
import AlineaCopilot.ConversationDelete
import AlineaCopilot.ConversationExtra
import AlineaCopilot.ConversationExtraWrites
import AlineaCopilot.KeysetPages
import AlineaCopilot.ConversationPages
import AlineaCopilot.ConversationPageWalk
import AlineaCopilot.StreamPersistence
import AlineaCopilot.StreamConfinement
import AlineaCopilot.StreamRelays
import AlineaCopilot.StreamRelayRows
import AlineaCopilot.StreamRelayText
import AlineaCopilot.StreamRelayTurns
import AlineaCopilot.StreamRelayFaithful
import AlineaCopilot.StreamRelaySegments
import AlineaCopilot.StreamRelaySlots
import AlineaCopilot.StreamRelayGrowth
import AlineaCopilot.StreamRelayDiscipline
import AlineaCopilot.StreamRelayRecovery
import AlineaCopilot.ProjectTaskInterleavings
import AlineaCopilot.ProjectTaskLinear
import AlineaCopilot.JwtService
import AlineaCopilot.JwtRevocation
import AlineaCopilot.AgentTasks
import AlineaCopilot.AgentTaskLeaks
import AlineaCopilot.IdleCleanup
import AlineaCopilot.PermissionRouter
import AlineaCopilot.PermissionDecisions
import AlineaCopilot.AcpTurns
import AlineaCopilot.AcpTurnTerminals
import AlineaCopilot.Pairing
import AlineaCopilot.PairingDecisions
import AlineaCopilot.CronJobs
import AlineaCopilot.CronService
import AlineaCopilot.CronTimers
import AlineaCopilot.CronOneShots
import AlineaCopilot.CronOwnership
import AlineaCopilot.CronIsolation
import AlineaCopilot.AcpSession
import AlineaCopilot.AcpSessionFlow
import AlineaCopilot.AcpSessionIds
import AlineaCopilot.AcpSessionViews
import AlineaCopilot.RateLimitRuns
import AlineaCopilot.RustPanics
import AlineaCopilot.ChannelMessages
import AlineaCopilot.ChannelPlatforms
import AlineaCopilot.ChannelIntake
import AlineaCopilot.ShellWords
import AlineaCopilot.McpTransports
import AlineaCopilot.McpCommands
import AlineaCopilot.ChannelCallbacks
import AlineaCopilot.JsonComments
import AlineaCopilot.OpencodeComments
import AlineaCopilot.McpTransportJson
import AlineaCopilot.OpencodeConfig
import AlineaCopilot.McpServerStore
import AlineaCopilot.McpServerEffects
import AlineaCopilot.McpServerInvariants
import AlineaCopilot.Reassembly
import AlineaCopilot.LarkFrames
import AlineaCopilot.LarkReassembly
import AlineaCopilot.RustPaths
import AlineaCopilot.FileService
import AlineaCopilot.FileListings
import AlineaCopilot.FileCache
import AlineaCopilot.CronCleanup
import AlineaCopilot.CronNextRuns
import AlineaCopilot.TextLines
import AlineaCopilot.SkillFile
import AlineaCopilot.TeamEventLoop
import AlineaCopilot.TopologicalOrders
import AlineaCopilot.CycleSearch
import AlineaCopilot.ExtensionDependencies
import AlineaCopilot.DecimalText
import AlineaCopilot.CronUpdates
import AlineaCopilot.CronRuns
import AlineaCopilot.AcpReconcile
import AlineaCopilot.LeftmostScans
import AlineaCopilot.TextRewrites
import AlineaCopilot.TelegramFormatting
import AlineaCopilot.TextMarkers
import AlineaCopilot.ResponseMiddleware
import AlineaCopilot.ResponseStripping
import AlineaCopilot.CronExtraction
import AlineaCopilot.JsonTrees
import AlineaCopilot.CaseConvert
import AlineaCopilot.MessageCompaction
import AlineaCopilot.AcpToolCallRows
import AlineaCopilot.OffsetPages
import AlineaCopilot.MessagePages
import AlineaCopilot.TeamWakes
import AlineaCopilot.TeamRunCancel
import AlineaCopilot.EndlessRuns
import AlineaCopilot.TeamDrains
import AlineaCopilot.InterruptedPrograms
import AlineaCopilot.ProjectTaskCompletion
import AlineaCopilot.PipelineInstantiation
import AlineaCopilot.PipelineFidelity
import AlineaCopilot.TurnOrchestrator
import AlineaCopilot.EndTrims
import AlineaCopilot.CaseMappings
import AlineaCopilot.AgentNames
import AlineaCopilot.ChannelReplies
import AlineaCopilot.LiveAgentNames
import AlineaCopilot.TeamRunAccounting
import AlineaCopilot.ExtensionEnablement
import AlineaCopilot.ExtensionHooks
import AlineaCopilot.LinkedTrees
import AlineaCopilot.HubUninstall
import AlineaCopilot.TeamRunEnding
import AlineaCopilot.TeamRunWakeups
import AlineaCopilot.AcpSessionSync
