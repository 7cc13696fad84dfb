import DesignRecords.Text.Blank
import DesignRecords.Text.Line
import DesignRecords.Text.Increasing
import DesignRecords.Text.Alphanumeric
import DesignRecords.Text.Lowercase
import DesignRecords.Calendar.Instant
import DesignRecords.Document.Printer
import DesignRecords.Document.Reader
import DesignRecords.Document.Diagram
import DesignRecords.Document.Summary
import DesignRecords.Path
import DesignRecords.Disk.Basic
import DesignRecords.Disk.Tree
import DesignRecords.Disk.Session
import DesignRecords.Workspace.Layout
import DesignRecords.Workspace.Ticket
import DesignRecords.Failure
import DesignRecords.Document.Update
import DesignRecords.Adr.Basic
import DesignRecords.Communication.Basic
import DesignRecords.Workspace.Basic
import DesignRecords.Adr.Listing
import DesignRecords.Workspace.Store
import DesignRecords.Conflict.Source
import DesignRecords.Workspace.Settings
import DesignRecords.Command.Run
import DesignRecords.Main
import DesignRecords.Proofs.Text.Line
import DesignRecords.Proofs.Document.Fence
import DesignRecords.Proofs.Calendar.Writing
import DesignRecords.Proofs.Document.Body
import DesignRecords.Proofs.Document.Head
import DesignRecords.Proofs.Document.Reading
import DesignRecords.Proofs.Document.RoundTrip
import DesignRecords.Proofs.Disk.Change
import DesignRecords.Proofs.Disk.Directory
import DesignRecords.Proofs.Disk.Name
import DesignRecords.Proofs.Document.Revision
import DesignRecords.Proofs.Workspace.Atomic
import DesignRecords.Proofs.Workspace.Home
import DesignRecords.Proofs.Workspace.Refinement
import DesignRecords.Proofs.Document.Stable
import DesignRecords.Proofs.Document.Stray
import DesignRecords.Proofs.Workspace.Damage
import DesignRecords.Proofs.Document.Clear
import DesignRecords.Proofs.Conflict.Own
import DesignRecords.Proofs.Conflict.Always
import DesignRecords.Proofs.Workspace.Populate
import DesignRecords.Proofs.Conflict.Unusable
import DesignRecords.Proofs.Workspace.Gradual
import DesignRecords.Proofs.Document.Normal
import DesignRecords.Proofs.Conflict.Monotone
import DesignRecords.Proofs.Conflict.Archived
import DesignRecords.Proofs.Workspace.Absorbed
import DesignRecords.Proofs.Document.WellFormed
import DesignRecords.Proofs.Document.Partition
import DesignRecords.Proofs.Conflict.Stated
import DesignRecords.Proofs.Document.Ending
import DesignRecords.Proofs.Document.Diagram
import DesignRecords.Proofs.Workspace.Learned
import DesignRecords.Proofs.Adr.Related
import DesignRecords.Proofs.Workspace.Follow
import DesignRecords.Proofs.Adr.Identifier
import DesignRecords.Proofs.Conflict.Pages
