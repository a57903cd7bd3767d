import SbomScanner.Api.Registry

/-!
# Workload scan reports

What the storage holds for a workload: its containers with the images they run, to be joined with
the results of the scans when the report is read. The fields that are filled in then are not part of
the stored object and are left out.
-/

namespace SbomScanner.Api

structure ImageRef where
  registry : String
  ns : String
  repository : String
  tag : String
  deriving DecidableEq

structure ContainerRef where
  name : String
  imageRef : ImageRef
  deriving DecidableEq

/-- A report, with whatever else its metadata says. -/
structure WorkloadScanReport (α : Type) where
  name : String
  ns : String
  labels : Labels
  containers : List ContainerRef
  metadata : α
  deriving DecidableEq

def WorkloadScanReport.key {α : Type} (report : WorkloadScanReport α) : String × String :=
  (report.ns, report.name)

end SbomScanner.Api
