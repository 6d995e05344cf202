import RegistryKeeper.Document.Metadata

namespace RegistryKeeper

def apiGroup : String := "appregistry.dev"

def apiRevision : String := "v1alpha1"

def apiVersion : String := "appregistry.dev/v1alpha1"

structure RegistrySpec where
  packages : List String
  deriving DecidableEq, Repr, Inhabited

inductive Phase where
  | pending
  | succeeded
  | failed
  deriving DecidableEq, Repr, Inhabited

structure RegistryStatus where
  phase : Phase
  address : Option String
  message : Option String
  observedGeneration : Int
  lastUpdated : Option String
  deriving DecidableEq, Repr, Inhabited

structure PackageRegistry where
  metadata : Metadata
  spec : RegistrySpec
  status : Option RegistryStatus
  deriving DecidableEq, Repr, Inhabited

namespace RegistrySpec

def ofJson : Json.Reader RegistrySpec
  | .arr l => do
      let packages ← Json.item (Json.readList Json.readText)
        "struct PackageRegistrySpec with 1 element" l 0
      Json.atMost 1 l
      return ⟨packages⟩
  | .obj l => do
      Json.checkFields [("packages", Json.fits (Json.readList Json.readText))] l
      return ⟨← Json.required (Json.readList Json.readText) l "packages"⟩
  | j => j.misfit "struct PackageRegistrySpec"

def toJson (s : RegistrySpec) : Json := Json.object [("packages", Json.strings s.packages)]

end RegistrySpec

namespace Phase

def text : Phase → String
  | .pending => "Pending"
  | .succeeded => "Succeeded"
  | .failed => "Failed"

def ofText? (s : String) : Option Phase := [pending, succeeded, failed].find? fun p => p.text = s

def ofName (s : String) : Except Misfit Phase :=
  match ofText? s with
  | some p => .ok p
  | none => .error (.unknownVariant s ([pending, succeeded, failed].map text))

def oneKey : Misfit := .invalidValue .map "map with a single key"

def ofField (k : String) (j : Json) : Except Snag Phase := do
  let p ← (Json.interpret ofName k).mapError (·.after 1)
  match j with
  | .null => return p
  | j => (j.misfit "unit").mapError (·.after (1 + Json.keySize k))

/-- The name alone, or an object whose only field it is. The text of an object is found wrong no
sooner than what follows the first field, and where no phase can begin only that is told. -/
def ofJson : Json.Reader Phase
  | .str s => Json.interpret ofName s
  | .obj [] => .error ⟨oneKey, .noValue, 2⟩
  | .obj [(k, j)] => ofField k j
  | .obj ((k, j) :: _) =>
      match ofField k j with
      | .ok _ => .error ⟨oneKey, .noValue, 1 + Json.keySize k + j.size⟩
      | .error s => .error { s with misfit := oneKey }
  | j => .error ⟨.invalidType j.found "string or map", .noValue, 1⟩

def toJson (p : Phase) : Json := .str p.text

end Phase

namespace RegistryStatus

def record : String := "struct PackageRegistryStatus with 5 elements"

def ofJson : Json.Reader RegistryStatus
  | .arr l => do
      let phase ← Json.item Phase.ofJson record l 0
      let address ← Json.item (Json.readOption Json.readText) record l 1
      let message ← Json.item (Json.readOption Json.readText) record l 2
      let generation ← Json.item (Json.readInt 64) record l 3
      let updated ← Json.item (Json.readOption Json.readText) record l 4
      Json.atMost 5 l
      return ⟨phase, address, message, generation, updated⟩
  | .obj l => do
      Json.checkFields
        [("address", Json.fits (Json.readOption Json.readText)),
          ("lastUpdated", Json.fits (Json.readOption Json.readText)),
          ("message", Json.fits (Json.readOption Json.readText)),
          ("observedGeneration", Json.fits (Json.readInt 64)),
          ("phase", Json.fits Phase.ofJson)] l
      let phase ← Json.required Phase.ofJson l "phase"
      let generation ← Json.required (Json.readInt 64) l "observedGeneration"
      return ⟨phase, ← Json.optional Json.readText l "address",
        ← Json.optional Json.readText l "message", generation,
        ← Json.optional Json.readText l "lastUpdated"⟩
  | j => j.misfit "struct PackageRegistryStatus"

def textOrNull : Option String → Json
  | some s => .str s
  | none => .null

def toJson (s : RegistryStatus) : Json :=
  Json.object
    [("address", textOrNull s.address), ("lastUpdated", textOrNull s.lastUpdated),
      ("message", textOrNull s.message), ("observedGeneration", .int s.observedGeneration),
      ("phase", s.phase.toJson)]

end RegistryStatus

namespace PackageRegistry

def kind : String := "PackageRegistry"

def plural : String := "packageregistries"

def record : String := "struct PackageRegistry with 3 elements"

def ofJson : Json.Reader PackageRegistry
  | .arr l => do
      let metadata ← Json.item Metadata.ofJson record l 0
      let spec ← Json.item RegistrySpec.ofJson record l 1
      let status ← Json.item (Json.readOption RegistryStatus.ofJson) record l 2
      Json.atMost 3 l
      return ⟨metadata, spec, status⟩
  | .obj l => do
      Json.checkFields
        [("metadata", Json.fits Metadata.ofJson), ("spec", Json.fits RegistrySpec.ofJson),
          ("status", Json.fits (Json.readOption RegistryStatus.ofJson))] l
      let metadata ← Json.required Metadata.ofJson l "metadata"
      let spec ← Json.required RegistrySpec.ofJson l "spec"
      return ⟨metadata, spec, ← Json.optional RegistryStatus.ofJson l "status"⟩
  | j => j.misfit "struct PackageRegistry"

def toJson (r : PackageRegistry) : Json :=
  Json.present
    [("apiVersion", some (.str apiVersion)), ("kind", some (.str kind)),
      ("metadata", some r.metadata.toJson), ("spec", some r.spec.toJson),
      ("status", r.status.map RegistryStatus.toJson)]

def generation (r : PackageRegistry) : Int := r.metadata.generation.getD 0

end PackageRegistry

end RegistryKeeper
