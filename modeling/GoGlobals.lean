import GoGlobals.CommandLine
import GoGlobals.Declaration.Reader
import GoGlobals.FileSystem.Edit
import GoGlobals.Go.SourceTree
import GoGlobals.Json.Parser
import GoGlobals.Json.Printer
import GoGlobals.Main
import GoGlobals.Proofs.Bindings
import GoGlobals.Proofs.Complaints
import GoGlobals.Proofs.Diagnostic
import GoGlobals.Proofs.Go.Files
import GoGlobals.Proofs.Go.Kinds
import GoGlobals.Proofs.Links
import GoGlobals.Proofs.Marker
import GoGlobals.Proofs.Narrow
import GoGlobals.Proofs.Settings
import GoGlobals.Proofs.Spelling
import GoGlobals.Proofs.Surfaces
import GoGlobals.Proofs.Tree.Comments
import GoGlobals.Proofs.Tree.Package
import GoGlobals.Proofs.Tree.Report
import GoGlobals.Proofs.Tree.Text
import GoGlobals.Scan
import GoGlobals.Service
import GoGlobals.Settings.Load
