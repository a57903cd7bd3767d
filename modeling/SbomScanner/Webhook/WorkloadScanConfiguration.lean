import SbomScanner.Storage.Selector
import SbomScanner.Webhook.Registry
import SbomScanner.WorkloadScan.Registries

/-!
# The admission webhook of the WorkloadScanConfiguration

There is one WorkloadScanConfiguration, and anybody who may write it at all may create, change and
delete it. The one check that looks at the object before a change is about the artifacts namespace,
which may only be changed while scanning is disabled.

The namespace selector is the selector it stands for; one that `validateNamespaceSelector` refuses
stands for none.
-/

namespace SbomScanner.Webhook

/-- The specification, with all that concerns the registries in `settings`. -/
structure WorkloadScanConfiguration where
  enabled : Bool
  namespaceSelector : Option Storage.LabelSelector
  settings : WorkloadScan.Configuration

def workloadScanConfigurationName := "default"

def validateWorkloadScanConfiguration (configuration : WorkloadScanConfiguration) :
    List FieldError :=
  validateScanInterval configuration.settings.scanInterval ++
    validatePlatforms configuration.settings.platforms

def validateArtifactsNamespaceUpdate (oldArtifactsNamespace newArtifactsNamespace : String)
    (enabled : Bool) : List FieldError :=
  if oldArtifactsNamespace ≠ newArtifactsNamespace ∧ enabled then
    [⟨.invalid, "spec.artifactsNamespace", "can only be changed when enabled is false"⟩]
  else
    []

namespace WorkloadScanConfigurationCustomValidator

def validateCreate (configuration : WorkloadScanConfiguration) : Admission :=
  admitUnless "WorkloadScanConfiguration" workloadScanConfigurationName
    (validateWorkloadScanConfiguration configuration)
    (caBundleWarnings configuration.settings.caBundle)

def validateUpdate (oldConfiguration configuration : WorkloadScanConfiguration) : Admission :=
  admitUnless "WorkloadScanConfiguration" workloadScanConfigurationName
    (validateWorkloadScanConfiguration configuration ++
      validateArtifactsNamespaceUpdate oldConfiguration.settings.artifactsNamespace
        configuration.settings.artifactsNamespace oldConfiguration.enabled)
    (caBundleWarnings configuration.settings.caBundle)

def validateDelete : Admission :=
  .ok ["WorkloadScanConfiguration deleted. Workload scan feature is now disabled"]

end WorkloadScanConfigurationCustomValidator

/-- A configuration that is enabled keeps its artifacts namespace. -/
theorem artifactsNamespace_of_validateUpdate {old new : WorkloadScanConfiguration}
    {warnings : List String}
    (h : WorkloadScanConfigurationCustomValidator.validateUpdate old new = .ok warnings)
    (henabled : old.enabled = true) :
    old.settings.artifactsNamespace = new.settings.artifactsNamespace := by
  by_contra hne
  simp [WorkloadScanConfigurationCustomValidator.validateUpdate, admitUnless,
    validateArtifactsNamespaceUpdate, hne, henabled] at h

end SbomScanner.Webhook
