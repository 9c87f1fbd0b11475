import CommandShell.Main
import CommandShell.Proofs.Files.Written
import CommandShell.Proofs.Line.QuotedLine
import CommandShell.Proofs.Line.Stretches
import CommandShell.Proofs.Process.Completion
import CommandShell.Proofs.Process.Ledger
import CommandShell.Proofs.Shell.QuotedEcho
import CommandShell.Proofs.Shell.Redirection
import CommandShell.Proofs.Shell.Targets
import CommandShell.Proofs.Line.Expansion
import CommandShell.Proofs.Shell.Stages
import CommandShell.Proofs.Shell.Operators
import CommandShell.Proofs.Process.Forgotten
import CommandShell.Proofs.Process.Calls
import CommandShell.Proofs.Process.Killing
import CommandShell.Proofs.Process.Cancelling
import CommandShell.Proofs.Shell.Composition
import CommandShell.Proofs.Shell.StageEvents
import CommandShell.Proofs.Shell.Pipelines
import CommandShell.Proofs.Shell.Interleavings
import CommandShell.Proofs.Files.Copied
import CommandShell.Proofs.Program.Executed
import CommandShell.Proofs.Line.SpacedWords
import CommandShell.Proofs.Shell.Refusals
import CommandShell.Proofs.Shell.Leaving
import CommandShell.Proofs.Line.Structure
import CommandShell.Proofs.Shell.Assignment
import CommandShell.Proofs.Shell.Directories
import CommandShell.Proofs.Shell.Uniform
import CommandShell.Proofs.Text.Order
import CommandShell.Proofs.Shell.Variables
import CommandShell.Proofs.Line.Pieces
import CommandShell.Proofs.Shell.Display
import CommandShell.Proofs.Shell.Orderly
import CommandShell.Proofs.Shell.Passable
import CommandShell.Proofs.Line.Delimiters
import CommandShell.Proofs.Process.Draining
import CommandShell.Proofs.Program.Candidates
import CommandShell.Proofs.Shell.Operands
import CommandShell.Proofs.Shell.PromptTokens
import CommandShell.Proofs.Shell.Recording
import CommandShell.Proofs.Shell.KillTurns
import CommandShell.Proofs.Process.Sweeps
import CommandShell.Proofs.Line.Reread
import CommandShell.Proofs.Line.Segments
import CommandShell.Proofs.Line.Words
import CommandShell.Proofs.Files.Reordered
import CommandShell.Proofs.Shell.Listing
