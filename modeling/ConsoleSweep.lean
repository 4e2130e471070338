import ConsoleSweep.Main
import ConsoleSweep.Proofs.Collection.Chosen
import ConsoleSweep.Proofs.Collection.Combined
import ConsoleSweep.Proofs.Collection.Described
import ConsoleSweep.Proofs.Collection.Excluded
import ConsoleSweep.Proofs.Collection.Hidden
import ConsoleSweep.Proofs.Collection.Shallow
import ConsoleSweep.Proofs.Collection.Spelling
import ConsoleSweep.Proofs.Glob.Matching
import ConsoleSweep.Proofs.Glob.Reading
import ConsoleSweep.Proofs.Program.Exit
import ConsoleSweep.Proofs.Selection.Pattern
import ConsoleSweep.Proofs.Statement.Joined
import ConsoleSweep.Proofs.Statement.Seams
import ConsoleSweep.Proofs.Sweep.Account
import ConsoleSweep.Proofs.Sweep.Colors
import ConsoleSweep.Proofs.Sweep.Converge
import ConsoleSweep.Proofs.Sweep.Dialogue
import ConsoleSweep.Proofs.Sweep.Limit
import ConsoleSweep.Proofs.Sweep.Listing
import ConsoleSweep.Proofs.Sweep.Preview
import ConsoleSweep.Proofs.Sweep.Repeat
import ConsoleSweep.Proofs.Sweep.Reply
import ConsoleSweep.Proofs.Sweep.Reread
import ConsoleSweep.Proofs.Sweep.Stale
import ConsoleSweep.Proofs.Sweep.Stop
import ConsoleSweep.Proofs.Sweep.Unread
import ConsoleSweep.Proofs.Theme.Loading
import ConsoleSweep.Proofs.Options.History
import ConsoleSweep.Proofs.Options.Normal
import ConsoleSweep.Proofs.CommandLine.RoundTrip
