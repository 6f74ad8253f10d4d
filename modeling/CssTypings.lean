import CssTypings.Main
import CssTypings.Proofs.Stylesheet.Escapes
import CssTypings.Proofs.Stylesheet.Fillings
import CssTypings.Proofs.Stylesheet.Scoping
import CssTypings.Proofs.Path.Reading
import CssTypings.Proofs.Tree.Soundness
import CssTypings.Proofs.Tree.Walking
import CssTypings.Proofs.Text.Encoding
import CssTypings.Proofs.Tree.Changes
import CssTypings.Proofs.Pipeline.Verdict
import CssTypings.Proofs.Pipeline.Containment
import CssTypings.Proofs.Pipeline.Scratch
import CssTypings.Proofs.Pipeline.Batch
import CssTypings.Proofs.Pipeline.Independence
import CssTypings.Proofs.Glob.Literals
import CssTypings.Proofs.Glob.Reach
import CssTypings.Proofs.Glob.Search
import CssTypings.Proofs.Path.Order
import CssTypings.Proofs.Dangling
import CssTypings.Proofs.Glob.Growth
import CssTypings.Proofs.Tree.Places
import CssTypings.Proofs.Watch.Snapshots
import CssTypings.Proofs.Pipeline.Logging
import CssTypings.Proofs.Watch.Edits
import CssTypings.Proofs.Watch.Session
import CssTypings.Proofs.Watch.Updates
import CssTypings.Proofs.Tree.Contents
import CssTypings.Proofs.Config.Accepted
import CssTypings.Proofs.Glob.Roots
import CssTypings.Proofs.Sources
import CssTypings.Proofs.Pipeline.Copies
import CssTypings.Proofs.Pipeline.Reports
import CssTypings.Proofs.Watch.Rounds
import CssTypings.Proofs.Watch.Quiet
import CssTypings.Proofs.Pipeline.Interleaving
import CssTypings.Proofs.Watch.FirstRound
import CssTypings.Proofs.CommandLine.Batch
import CssTypings.Proofs.Declaration
import CssTypings.Proofs.Json.RoundTrip
import CssTypings.Proofs.EventLog.Records
import CssTypings.Proofs.EventLog.Appending
import CssTypings.Proofs.Pipeline.Recording
import CssTypings.Proofs.Config.Refusals
import CssTypings.Proofs.Pipeline.Unwritten
import CssTypings.Proofs.Watch.Unwritten
import CssTypings.Proofs.CommandLine.Stages
import CssTypings.Proofs.CommandLine.Breakage
import CssTypings.Proofs.Number.Integers
import CssTypings.Proofs.Config.Checks
import CssTypings.Proofs.Config.Fields
import CssTypings.Proofs.Config.Entries
import CssTypings.Proofs.Config.Layers
import CssTypings.Proofs.Config.Validity
import CssTypings.Proofs.CommandLine.Refused
import CssTypings.Proofs.CommandLine.Silence
import CssTypings.Proofs.Stylesheet.Faults
import CssTypings.Proofs.Stylesheet.Concatenation
import CssTypings.Proofs.Stylesheet.Unescaped
import CssTypings.Proofs.Stylesheet.PseudoClasses
import CssTypings.Proofs.Path.Inverse
import CssTypings.Proofs.EventLog.Torn
import CssTypings.Proofs.EventLog.Filtering
import CssTypings.Proofs.Watch.Differences
import CssTypings.Proofs.Glob.Directories
import CssTypings.Proofs.Path.Display
import CssTypings.Proofs.Stylesheet.Partners
