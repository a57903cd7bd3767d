import SbomScanner.Api.WorkloadScanReport
import SbomScanner.WorkloadScan.Reconcile

/-!
# The containers of a report

A WorkloadScanReport does not hold results: it says under what registry, repository and tag they are
found. `buildContainerRefs` computes these from the image of each container, apart from the managed
registries and from the worker that scans them.
-/

namespace SbomScanner.WorkloadScan

open Api List

inductive ImageError where
  | empty
  | unparsable (image : String)
  deriving DecidableEq

/-- Where the results for a reference are looked for. -/
def imageRefOf (lib : Libraries) (ns : String) (reference : Reference) : ImageRef where
  registry := computeRegistryName lib reference.registry
  ns := ns
  repository := reference.repository
  tag := reference.identifier

def parseImageToImageRef (lib : Libraries) (ns image : String) : Except ImageError ImageRef :=
  if image = "" then
    .error .empty
  else
    match lib.parseReference image with
    | none => .error (.unparsable image)
    | some reference => .ok (imageRefOf lib ns reference)

/-- One pass of the loops of `buildContainerRefs`: a container whose image does not parse is left
out. -/
def containerRef (lib : Libraries) (ns : String) (container : Container) : Option ContainerRef :=
  match parseImageToImageRef lib ns container.image with
  | .error _ => none
  | .ok reference => some ⟨container.name, reference⟩

/-- Builds the entries of a report from a PodSpec, sorted by the name of the container. -/
def buildContainerRefs (lib : Libraries) (ns : String) (podSpec : PodSpec) : List ContainerRef :=
  (podSpec.initContainers.filterMap (containerRef lib ns) ++
    podSpec.containers.filterMap (containerRef lib ns)).insertionSort fun a b => a.name ≤ b.name

variable {lib : Libraries} {ns : String} {podSpec : PodSpec} {container : Container}
  {reference : Reference}

theorem containerRef_of_parse (h : lib.parseReference container.image = some reference) :
    containerRef lib ns container = some ⟨container.name, imageRefOf lib ns reference⟩ := by
  have hne : container.image ≠ "" := by
    intro hempty
    rw [hempty, lib.parseReference_empty] at h
    cases h
  simp only [containerRef, parseImageToImageRef, hne, if_false, h]

theorem mem_buildContainerRefs
    (hmem : container ∈ podSpec.initContainers ++ podSpec.containers)
    (h : lib.parseReference container.image = some reference) :
    ⟨container.name, imageRefOf lib ns reference⟩ ∈ buildContainerRefs lib ns podSpec := by
  rw [buildContainerRefs, mem_insertionSort, ← filterMap_append, mem_filterMap]
  exact ⟨container, hmem, containerRef_of_parse h⟩

/-- The containers of the pods are those whose images the registries are for. -/
theorem uses_of_mem {pods : List Pod} {pod : Pod} (hpod : pod ∈ pods)
    (hmem : container ∈ pod.spec.initContainers ++ pod.spec.containers)
    (h : lib.parseReference container.image = some reference) : Uses lib pods reference := by
  refine ⟨pod, hpod, container.image, ?_, h⟩
  rw [extractImagesFromPodSpec, ← map_append]
  exact mem_map_of_mem hmem

end SbomScanner.WorkloadScan
