import FossilRecord.Http.Serve
import FossilRecord.Main
import FossilRecord.Store.Edit
import FossilRecord.Proofs.Store.History
import FossilRecord.Proofs.Store.Coherence
import FossilRecord.Proofs.Decimal.Powers
import FossilRecord.Proofs.Except
import FossilRecord.Proofs.Fossil
import FossilRecord.Proofs.Http.Addressing
import FossilRecord.Proofs.Http.Logging
import FossilRecord.Proofs.Instant
import FossilRecord.Proofs.Json.Canonical
import FossilRecord.Proofs.Payload
import FossilRecord.Proofs.Related
import FossilRecord.Proofs.Store.Finding
import FossilRecord.Proofs.Store.Ingested
import FossilRecord.Proofs.Store.Listing
import FossilRecord.Proofs.Store.RelatedFiles
import FossilRecord.Proofs.Store.Reading
import FossilRecord.Proofs.Store.Naming
import FossilRecord.Proofs.Store.Growth
import FossilRecord.Proofs.Store.Own
import FossilRecord.Proofs.Store.Addressing
import FossilRecord.Proofs.Text.Octets
import FossilRecord.Proofs.Store.Outcome
import FossilRecord.Proofs.Http.Answering
import FossilRecord.Proofs.Http.Storing
import FossilRecord.Proofs.Http.Missing
import FossilRecord.Proofs.Store.Inactive
import FossilRecord.Proofs.Http.Inactive
import FossilRecord.Proofs.Http.LogIndependence
import FossilRecord.Proofs.Serial.Records
import FossilRecord.Proofs.Store.Unfailing
import FossilRecord.Proofs.Json.Pretty
import FossilRecord.Proofs.Payload.Holding
import FossilRecord.Proofs.Payload.Fence
import FossilRecord.Proofs.Payload.Nulls
import FossilRecord.Proofs.Source.Scan
import FossilRecord.Proofs.Store.ProjectRows
import FossilRecord.Proofs.Store.Snapshot
import FossilRecord.Proofs.Command.Ingesting
import FossilRecord.Proofs.Store.Resolution
import FossilRecord.Proofs.Store.Edges
import FossilRecord.Proofs.Payload.Analysis
import FossilRecord.Proofs.Payload.Numbers
import FossilRecord.Proofs.Source.Declarations
import FossilRecord.Proofs.Fragment
import FossilRecord.Proofs.Http.Spelling
import FossilRecord.Proofs.Store.Counts
import FossilRecord.Proofs.Store.Newest
import FossilRecord.Proofs.Store.Usage
import FossilRecord.Proofs.Store.InForce
import FossilRecord.Proofs.Corpus
import FossilRecord.Proofs.Command.Recording
import FossilRecord.Proofs.Http.Capping
import FossilRecord.Proofs.Source.Lines
import FossilRecord.Proofs.Source.Signature
import FossilRecord.Proofs.Instant.Timeline
import FossilRecord.Proofs.Fossil.Total
