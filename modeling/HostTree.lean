import HostTree.Text.Quoted
import HostTree.Text.Json
import HostTree.Tree.Walk
import HostTree.Tree.Drawing
import HostTree.Database.Connection
import HostTree.FileSystem.Access
import HostTree.FileSystem.Edit
import HostTree.Failure
import HostTree.Marker
import HostTree.Report.Section
import HostTree.CommandLine.Reader
import HostTree.Program
import HostTree.Main
import HostTree.Proofs.Walk.Termination
import HostTree.Proofs.Walk.Preorder
import HostTree.Proofs.Drawing.Completeness
import HostTree.Proofs.Drawing.Inside
import HostTree.Proofs.Drawing.Restriction
import HostTree.Proofs.Drawing.Subtree
import HostTree.Proofs.Entry.Arranged
import HostTree.Proofs.Walk.Order
import HostTree.Proofs.FileSystem.Gain
import HostTree.Proofs.FileSystem.Marker
import HostTree.Proofs.Drawing.Gain
import HostTree.Proofs.Entry.Extended
import HostTree.Proofs.Output.Unlimited
import HostTree.Proofs.Report.Sections
import HostTree.Proofs.Report.Again
import HostTree.Proofs.Report.Outcome
import HostTree.Proofs.Walk.Visit
import HostTree.Proofs.Walk.Failure
import HostTree.Proofs.FileSystem.Tree
import HostTree.Proofs.Walk.Cycle
import HostTree.Proofs.FileSystem.Markers
import HostTree.Proofs.Output.Rows
import HostTree.Proofs.Output.Plain
import HostTree.Proofs.Output.Paths
import HostTree.Proofs.Output.Limited
import HostTree.Proofs.Output.Coloured
import HostTree.Proofs.Drawing.Relisted
import HostTree.Proofs.Entry.Stable
import HostTree.Proofs.Report.Arguments
import HostTree.Proofs.Report.Environment
import HostTree.Proofs.Walk.State
import HostTree.Proofs.CommandLine.RoundTrip
