import SbomScanner.Storage.ListWatch
import SbomScanner.Storage.WatchScope
import SbomScanner.Jobs.Progress
import SbomScanner.Jobs.Ownership
import SbomScanner.Runner.Rescan
import SbomScanner.Runner.Additions
import SbomScanner.Worker.Isolation
import SbomScanner.Admission.WorkloadScanReport
import SbomScanner.Storage.ReportStatus
import SbomScanner.Storage.ReportWatch
import SbomScanner.Storage.Refinement
import SbomScanner.Messaging.Subscriber
import SbomScanner.NodeScan.Runner
import SbomScanner.WorkloadScan.Placement
import SbomScanner.Catalog.TargetLists
import SbomScanner.Catalog.Lookup
import SbomScanner.Storage.Transaction
import SbomScanner.Catalog.Attempts
import SbomScanner.Telemetry.JobMetrics
import SbomScanner.NodeScan.Progress
import SbomScanner.Mcp.Listing
import SbomScanner.WorkloadScan.Watch
import SbomScanner.Webhook.History
import SbomScanner.Messaging.NodeSubscriber
import SbomScanner.Catalog.ImageUID
import SbomScanner.Worker.TrivyReport
import SbomScanner.WorkloadScan.ImageStatus
import SbomScanner.Catalog.ExactReferences
import SbomScanner.WorkloadScan.Convergence
