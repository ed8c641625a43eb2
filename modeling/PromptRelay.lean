import PromptRelay.LineBuffer
import PromptRelay.LogFilter
import PromptRelay.Rendering
import PromptRelay.ChildHandle
import PromptRelay.ToolServer
import PromptRelay.Proofs.AcceptedLines
import PromptRelay.Proofs.BufferUses
import PromptRelay.Proofs.IdleStack
import PromptRelay.Proofs.LeavingCallers
import PromptRelay.Proofs.LineCap
import PromptRelay.Proofs.LostInput
import PromptRelay.Proofs.OutputPortions
import PromptRelay.Proofs.OwedBlanks
import PromptRelay.Proofs.OwnMoves
import PromptRelay.Proofs.OwnStops
import PromptRelay.Proofs.PrintedListings
import PromptRelay.Proofs.PrintedPlaces
import PromptRelay.Proofs.PrintedValues
import PromptRelay.Proofs.RefusedCalls
import PromptRelay.Proofs.ReplyAttribution
import PromptRelay.Proofs.ReportedState
import PromptRelay.Proofs.SequentialDebugging
import PromptRelay.Proofs.SessionFrames
import PromptRelay.Proofs.SessionIsolation
import PromptRelay.Proofs.StopContext
import PromptRelay.Proofs.StopDetection
import PromptRelay.Proofs.StopRace
import PromptRelay.Proofs.StopStacks
import PromptRelay.Proofs.UnclaimedReplies
import PromptRelay.Proofs.VariableFetches
import PromptRelay.Proofs.WrittenText
