import RecordTables.Container.Open
import RecordTables.Exchange.Mask
import RecordTables.Exchange.Project
import RecordTables.Exchange.Schema
import RecordTables.Proofs.Cell.ReadBack
import RecordTables.Proofs.Container.ReadBack
import RecordTables.Proofs.Execution.Apply
import RecordTables.Proofs.Store.Loading
import RecordTables.Proofs.Store.RecordFile
import RecordTables.Proofs.Reconcile.Bookkeeping
import RecordTables.Proofs.Cell.Leaf
import RecordTables.Proofs.Sheet.Export
import RecordTables.Proofs.Reconcile.Order
import RecordTables.Proofs.Reconcile.Temporaries
import RecordTables.Proofs.Coherence
import RecordTables.Proofs.Store.Agreement
import RecordTables.Proofs.Project.Correspondence
import RecordTables.Proofs.Schema.Ancestry
import RecordTables.Proofs.Schema.Containment
import RecordTables.Proofs.Cell.Obstacles
import RecordTables.Proofs.Container.Acceptance
import RecordTables.Proofs.Container.LoadOrder
import RecordTables.Proofs.Fingerprint
import RecordTables.Proofs.Container.Remains
import RecordTables.Proofs.Container.Lookup
import RecordTables.Proofs.Container.Nesting
import RecordTables.Proofs.Container.Limits
import RecordTables.Proofs.Sheet.Stamping
import RecordTables.Proofs.Merging
import RecordTables.Proofs.DataFile
import RecordTables.Proofs.Execution.Unreadable
import RecordTables.Proofs.Project.Emissions
import RecordTables.Proofs.Time.Words
import RecordTables.Proofs.Time.DateTime
import RecordTables.Proofs.Sheet.ColumnOrder
import RecordTables.Proofs.Sensitivity
import RecordTables.Proofs.Layout.Assembly
import RecordTables.Proofs.Project.Repetition
import RecordTables.Proofs.Project.Validity
