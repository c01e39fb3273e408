import LintFront.Main
import LintFront.Settings.Held
import LintFront.Settings.Memory
import LintFront.Proofs.Run.Script
import LintFront.Proofs.Run.Inspection
import LintFront.Proofs.Run.Accounts
import LintFront.Proofs.Settings.Layers
import LintFront.Proofs.Settings.Precedence
import LintFront.Proofs.FileTree.Following
import LintFront.Proofs.FileTree.Rewriting
import LintFront.Proofs.Path.Spelling
import LintFront.Proofs.Path.Absolute
import LintFront.Proofs.FileTree.Respelling
import LintFront.Proofs.FileTree.Continuation
import LintFront.Proofs.Settings.Project
import LintFront.Proofs.Directory.Branches
import LintFront.Proofs.Directory.Covered
import LintFront.Proofs.Directory.Expansion
import LintFront.Proofs.Run.Reading
import LintFront.Proofs.Run.Coverage
import LintFront.Proofs.FileTree.Access
import LintFront.Proofs.Directory.Faultless
import LintFront.Proofs.Package.Specifier
import LintFront.Proofs.Package.Location
import LintFront.Proofs.Package.Display
import LintFront.Proofs.Package.Places
import LintFront.Proofs.Package.Below
import LintFront.Proofs.Package.Denotation
import LintFront.Proofs.Package.Resolution
import LintFront.Proofs.Package.Agreement
import LintFront.Proofs.Run.Completion
import LintFront.Proofs.Run.Endings
import LintFront.Proofs.Run.Repetition
import LintFront.Proofs.FileTree.Parents
import LintFront.Proofs.Run.Trace
import LintFront.Proofs.Run.Insertion
import LintFront.Proofs.Run.Order
import LintFront.Proofs.Run.Named
import LintFront.Proofs.CommandLine.Stages
import LintFront.Proofs.CommandLine.Status
import LintFront.Proofs.CommandLine.Threshold
import LintFront.Proofs.Text.Utf8
import LintFront.Proofs.Settings.Faults
import LintFront.Proofs.Directory.Preorder
import LintFront.Proofs.CommandLine.Stricter
import LintFront.Proofs.Engine.Loading
import LintFront.Proofs.CommandLine.Plugins
import LintFront.Proofs.Package.Shadowing
import LintFront.Proofs.Settings.Complaints
import LintFront.Proofs.Settings.Folding
import LintFront.Proofs.Settings.Rejection
import LintFront.Proofs.FileTree.Dots
import LintFront.Proofs.Directory.Partition
import LintFront.Proofs.Directory.Subwalk
import LintFront.Proofs.Engine.Promise
import LintFront.Proofs.Engine.Overlay
import LintFront.Proofs.Console.Highlighting
import LintFront.Proofs.Settings.Overriding
import LintFront.Proofs.Package.Grammar
import LintFront.Proofs.Run.Planning
import LintFront.Proofs.Settings.Spelling
import LintFront.Proofs.Settings.Assigning
