import TableAudit.Log.Output
import TableAudit.Module.Target
import TableAudit.Outcome.Fields
import TableAudit.Proofs.Block.Agreement
import TableAudit.Proofs.Block.AsWritten
import TableAudit.Proofs.Block.Bodies
import TableAudit.Proofs.Block.ColumnOrder
import TableAudit.Proofs.Block.Escapes
import TableAudit.Proofs.Block.Extraction
import TableAudit.Proofs.Block.Located
import TableAudit.Proofs.Block.Shifted
import TableAudit.Proofs.Check.Errors
import TableAudit.Proofs.Check.Turns
import TableAudit.Proofs.CheckSet.Isolation
import TableAudit.Proofs.CheckSet.Masking
import TableAudit.Proofs.CheckSet.Reports
import TableAudit.Proofs.CheckSet.Shapes
import TableAudit.Proofs.CheckSet.Share
import TableAudit.Proofs.CheckSet.Snapshots
import TableAudit.Proofs.Log.Structured
import TableAudit.Proofs.Outcome.Accepted
import TableAudit.Proofs.Outcome.Order
import TableAudit.Proofs.Report.Lines
import TableAudit.Proofs.Report.Terminal
import TableAudit.Proofs.Source.Labels
import TableAudit.Proofs.Summary.Bounds
import TableAudit.Proofs.Summary.Failures
import TableAudit.Proofs.Summary.Ordered
import TableAudit.Run.Engine
