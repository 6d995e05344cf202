import RegistryKeeper.Document.PackageRegistry

namespace RegistryKeeper

structure SourceSpec where
  endpoint : String
  registryNamespace : String
  deriving DecidableEq, Repr, Inhabited

structure SourceStatus where
  packages : List String
  lastSynced : Option String
  deriving DecidableEq, Repr, Inhabited

structure PackageSource where
  metadata : Metadata
  spec : SourceSpec
  status : Option SourceStatus
  deriving DecidableEq, Repr, Inhabited

namespace SourceSpec

def record : String := "struct PackageSourceSpec with 2 elements"

def ofJson : Json.Reader SourceSpec
  | .arr l => do
      let endpoint ← Json.item Json.readText record l 0
      let registryNamespace ← Json.item Json.readText record l 1
      Json.atMost 2 l
      return ⟨endpoint, registryNamespace⟩
  | .obj l => do
      Json.checkFields
        [("endpoint", Json.fits Json.readText), ("registryNamespace", Json.fits Json.readText)] l
      let endpoint ← Json.required Json.readText l "endpoint"
      return ⟨endpoint, ← Json.required Json.readText l "registryNamespace"⟩
  | j => j.misfit "struct PackageSourceSpec"

def toJson (s : SourceSpec) : Json :=
  Json.object
    [("endpoint", .str s.endpoint), ("registryNamespace", .str s.registryNamespace)]

end SourceSpec

namespace SourceStatus

def record : String := "struct PackageSourceStatus with 2 elements"

/-- The packages may be left out, in a list only together with the time. -/
def ofJson : Json.Reader SourceStatus
  | .arr l => do
      let packages ← match l with
        | [] => pure []
        | l => Json.item (Json.readList Json.readText) record l 0
      let synced ← Json.item (Json.readOption Json.readText) record l 1
      Json.atMost 2 l
      return ⟨packages, synced⟩
  | .obj l => do
      Json.checkFields
        [("lastSynced", Json.fits (Json.readOption Json.readText)),
          ("packages", Json.fits (Json.readList Json.readText))] l
      let packages ← Json.readField (Json.readList Json.readText) "packages" l
      return ⟨packages.getD [], ← Json.optional Json.readText l "lastSynced"⟩
  | j => j.misfit "struct PackageSourceStatus"

def toJson (s : SourceStatus) : Json :=
  Json.object
    [("lastSynced", RegistryStatus.textOrNull s.lastSynced), ("packages", Json.strings s.packages)]

end SourceStatus

namespace PackageSource

def kind : String := "PackageSource"

def plural : String := "packagesources"

def record : String := "struct PackageSource with 3 elements"

def ofJson : Json.Reader PackageSource
  | .arr l => do
      let metadata ← Json.item Metadata.ofJson record l 0
      let spec ← Json.item SourceSpec.ofJson record l 1
      let status ← Json.item (Json.readOption SourceStatus.ofJson) record l 2
      Json.atMost 3 l
      return ⟨metadata, spec, status⟩
  | .obj l => do
      Json.checkFields
        [("metadata", Json.fits Metadata.ofJson), ("spec", Json.fits SourceSpec.ofJson),
          ("status", Json.fits (Json.readOption SourceStatus.ofJson))] l
      let metadata ← Json.required Metadata.ofJson l "metadata"
      let spec ← Json.required SourceSpec.ofJson l "spec"
      return ⟨metadata, spec, ← Json.optional SourceStatus.ofJson l "status"⟩
  | j => j.misfit "struct PackageSource"

def toJson (s : PackageSource) : Json :=
  Json.present
    [("apiVersion", some (.str apiVersion)), ("kind", some (.str kind)),
      ("metadata", some s.metadata.toJson), ("spec", some s.spec.toJson),
      ("status", s.status.map SourceStatus.toJson)]

end PackageSource

end RegistryKeeper
