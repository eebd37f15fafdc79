import Docket.Host.Machine
import Docket.Main
import Docket.Page.Record
import Docket.Proofs.Calendar
import Docket.Proofs.Calibration.Collapse
import Docket.Proofs.Calibration.Consistency
import Docket.Proofs.Calibration.Excluding
import Docket.Proofs.Calibration.Likeness
import Docket.Proofs.Calibration.Median
import Docket.Proofs.Calibration.Moving
import Docket.Proofs.Calibration.Outliers
import Docket.Proofs.Calibration.Recovery
import Docket.Proofs.Calibration.Reordering
import Docket.Proofs.Calibration.Searching
import Docket.Proofs.Calibration.Sources
import Docket.Proofs.Catalog.Constants
import Docket.Proofs.Command.Setting
import Docket.Proofs.Extraction.Accounting
import Docket.Proofs.Extraction.Dating
import Docket.Proofs.Extraction.Feeding
import Docket.Proofs.Extraction.Isolation
import Docket.Proofs.Extraction.Separators
import Docket.Proofs.Extraction.Stopping
import Docket.Proofs.Formula.Blaming
import Docket.Proofs.Formula.Guarding
import Docket.Proofs.Formula.Noting
import Docket.Proofs.Formula.Placeholders
import Docket.Proofs.Formula.Replay
import Docket.Proofs.Formula.Spelling
import Docket.Proofs.Formula.Tiling
import Docket.Proofs.Host.FileTree
import Docket.Proofs.Host.Writing
import Docket.Proofs.Intake.Choosing
import Docket.Proofs.Intake.Custody
import Docket.Proofs.Intake.Exclusion
import Docket.Proofs.Intake.Failing
import Docket.Proofs.Intake.Routing
import Docket.Proofs.Intake.Scanning
import Docket.Proofs.Json.Atoms
import Docket.Proofs.Json.Containers
import Docket.Proofs.Json.Decoding
import Docket.Proofs.Json.Numbers
import Docket.Proofs.Json.Records
import Docket.Proofs.Layout.Agreement
import Docket.Proofs.Layout.Enclosing
import Docket.Proofs.Layout.Narrowing
import Docket.Proofs.Layout.Phrases
import Docket.Proofs.Layout.ReadingOrder
import Docket.Proofs.Lookup
import Docket.Proofs.Number.Comparing
import Docket.Proofs.Number.Places
import Docket.Proofs.Page.Collecting
import Docket.Proofs.Page.Reading
import Docket.Proofs.Pdf.Compound
import Docket.Proofs.Pdf.Gathering
import Docket.Proofs.Pdf.Guarding
import Docket.Proofs.Pdf.Inheriting
import Docket.Proofs.Pdf.Nesting
import Docket.Proofs.Pdf.Saving
import Docket.Proofs.Pdf.Showing
import Docket.Proofs.Pdf.Spanning
import Docket.Proofs.Period
import Docket.Proofs.Query.Causality
import Docket.Proofs.Query.Listing
import Docket.Proofs.Query.Single
import Docket.Proofs.Query.Story
import Docket.Proofs.Results.Freshness
import Docket.Proofs.Results.Processing
import Docket.Proofs.Results.Restoring
import Docket.Proofs.Results.RoundTrip
import Docket.Proofs.Results.Settling
import Docket.Proofs.Results.Sharing
import Docket.Proofs.Results.Storing
import Docket.Proofs.Results.Threshold
import Docket.Proofs.Template.Validity
