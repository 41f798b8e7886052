import Telemetry.Argument
import Telemetry.Arrangement
import Telemetry.Binary64
import Telemetry.Builder.Basic
import Telemetry.Builder.Fields
import Telemetry.Builder.Point
import Telemetry.Builder.Snapshot
import Telemetry.Collection
import Telemetry.Conversion
import Telemetry.Datum
import Telemetry.Decimal
import Telemetry.Dictionary
import Telemetry.Display
import Telemetry.Error
import Telemetry.Error.Argument
import Telemetry.Error.Details
import Telemetry.Error.Label
import Telemetry.Error.Naming
import Telemetry.Error.Point
import Telemetry.Error.Report
import Telemetry.Error.Snapshot
import Telemetry.Exporter
import Telemetry.Exporter.Meter
import Telemetry.Exporter.Notice
import Telemetry.Exporter.Scrape
import Telemetry.Exporter.Sink
import Telemetry.Family
import Telemetry.Family.Bound
import Telemetry.Family.Sample
import Telemetry.Kind
import Telemetry.Labels
import Telemetry.Labels.Basic
import Telemetry.Labels.Order
import Telemetry.Labels.Union
import Telemetry.Logging
import Telemetry.MeasureUnit
import Telemetry.Metadata
import Telemetry.Naming
import Telemetry.Naming.Grammar
import Telemetry.Naming.Label
import Telemetry.Naming.Metric
import Telemetry.Naming.Problem
import Telemetry.Naming.Reserved
import Telemetry.Naming.Unit
import Telemetry.Number
import Telemetry.Numeral
import Telemetry.Observation
import Telemetry.Pipeline
import Telemetry.Pipeline.Collector
import Telemetry.Point
import Telemetry.Point.Amount
import Telemetry.Point.Buckets
import Telemetry.Point.Exemplar
import Telemetry.Point.Field
import Telemetry.Point.Measurement
import Telemetry.Point.Quantiles
import Telemetry.Point.StateSet
import Telemetry.SelfMetrics
import Telemetry.Settings
import Telemetry.Settings.Checked
import Telemetry.Settings.Document
import Telemetry.Settings.Load
import Telemetry.Settling
import Telemetry.Settling.Chain
import Telemetry.Settling.Halving
import Telemetry.Settling.Merging
import Telemetry.Settling.Runs
import Telemetry.Snapshot
import Telemetry.Snapshot.Basic
import Telemetry.Text.Blank
import Telemetry.Text.Digit
import Telemetry.Text.Printable
import Telemetry.Text.Quoted
import Telemetry.Proofs.Arrangement
import Telemetry.Proofs.Builder.Points
import Telemetry.Proofs.Builder.SingleUse
import Telemetry.Proofs.Builder.Snapshots
import Telemetry.Proofs.Collection.Built
import Telemetry.Proofs.Collection.Change
import Telemetry.Proofs.Collection.Content
import Telemetry.Proofs.Collection.Merging
import Telemetry.Proofs.Collection.Renamed
import Telemetry.Proofs.Datum.Entries
import Telemetry.Proofs.Datum.Written
import Telemetry.Proofs.Decimal.Magnitude
import Telemetry.Proofs.Decimal.Reading
import Telemetry.Proofs.Display.Reading
import Telemetry.Proofs.Exporter.Calls
import Telemetry.Proofs.Exporter.Duplicates
import Telemetry.Proofs.Exporter.Instruments
import Telemetry.Proofs.Exporter.Relabelled
import Telemetry.Proofs.Exporter.Servable
import Telemetry.Proofs.Exporter.Serving
import Telemetry.Proofs.Family.Apart
import Telemetry.Proofs.Family.Bound
import Telemetry.Proofs.Family.Conversion
import Telemetry.Proofs.Family.Cumulative
import Telemetry.Proofs.Family.Keys
import Telemetry.Proofs.Family.Merged
import Telemetry.Proofs.Family.Names
import Telemetry.Proofs.Family.Observed
import Telemetry.Proofs.Family.Renamed
import Telemetry.Proofs.Family.Series
import Telemetry.Proofs.Family.Shown
import Telemetry.Proofs.Labels.Addition
import Telemetry.Proofs.Labels.Clash
import Telemetry.Proofs.Labels.Construction
import Telemetry.Proofs.Labels.Order
import Telemetry.Proofs.Labels.Union
import Telemetry.Proofs.Naming.Beginning
import Telemetry.Proofs.Naming.Exposed
import Telemetry.Proofs.Naming.Lead
import Telemetry.Proofs.Naming.Nearest
import Telemetry.Proofs.Naming.Pieces
import Telemetry.Proofs.Naming.Stem
import Telemetry.Proofs.Number.Whole
import Telemetry.Proofs.Number.Written
import Telemetry.Proofs.Observation.Apart
import Telemetry.Proofs.Pipeline.Accounts
import Telemetry.Proofs.Pipeline.Collecting
import Telemetry.Proofs.Pipeline.Isolation
import Telemetry.Proofs.Pipeline.Passes
import Telemetry.Proofs.Pipeline.SelfNames
import Telemetry.Proofs.Pipeline.Stopping
import Telemetry.Proofs.Point.Assigned
import Telemetry.Proofs.Point.Buckets
import Telemetry.Proofs.Point.Canonical
import Telemetry.Proofs.Point.Fields
import Telemetry.Proofs.Point.Key
import Telemetry.Proofs.Point.Magnitude
import Telemetry.Proofs.Point.Relabelled
import Telemetry.Proofs.Point.Written
import Telemetry.Proofs.Settings.ConstantLabels
import Telemetry.Proofs.Settings.Documents
import Telemetry.Proofs.Settings.Leads
import Telemetry.Proofs.Settings.Loading
import Telemetry.Proofs.Settings.Overriding
import Telemetry.Proofs.Settings.Parts
import Telemetry.Proofs.Settings.Sections
import Telemetry.Proofs.Snapshot.Canonical
import Telemetry.Proofs.Snapshot.Equality
import Telemetry.Proofs.Snapshot.Merging
import Telemetry.Proofs.Snapshot.Relabelling
import Telemetry.Proofs.Snapshot.Repeated
import Telemetry.Proofs.Steps
import Telemetry.Proofs.Text.Quoted
