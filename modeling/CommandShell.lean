import CommandShell.Log
import CommandShell.Main
import CommandShell.Proofs.Archive
import CommandShell.Proofs.Copying
import CommandShell.Proofs.Directory
import CommandShell.Proofs.Diversion
import CommandShell.Proofs.Echo
import CommandShell.Proofs.Failing
import CommandShell.Proofs.Gathering
import CommandShell.Proofs.HistoryFile
import CommandShell.Proofs.HistoryRun
import CommandShell.Proofs.Interleaving
import CommandShell.Proofs.Listing
import CommandShell.Proofs.Naming
import CommandShell.Proofs.Outcome
import CommandShell.Proofs.Outline
import CommandShell.Proofs.Placing
import CommandShell.Proofs.Prompt
import CommandShell.Proofs.QuotedPiece
import CommandShell.Proofs.Reach
import CommandShell.Proofs.Relative
import CommandShell.Proofs.Reloading
import CommandShell.Proofs.Searching
import CommandShell.Proofs.Simulation
import CommandShell.Proofs.Spacing
import CommandShell.Proofs.Stopping
import CommandShell.Proofs.Tiling
