import RegistryKeeper.Document.PackageSource
import RegistryKeeper.Document.Schema

namespace RegistryKeeper

structure Column where
  name : String
  type : String
  path : String
  deriving DecidableEq, Repr

def Column.toJson (c : Column) : Json :=
  Json.object [("name", .str c.name), ("type", .str c.type), ("jsonPath", .str c.path)]

structure Definition where
  kind : String
  plural : String
  shortName : String
  columns : List Column
  schema : Schema
  deriving Repr

def Definition.toJson (d : Definition) : Json :=
  Json.object
    [("apiVersion", .str "apiextensions.k8s.io/v1"),
      ("kind", .str "CustomResourceDefinition"),
      ("metadata", Json.object [("name", .str (d.plural ++ "." ++ apiGroup))]),
      ("spec", Json.object
        [("group", .str apiGroup),
          ("names", Json.object
            [("categories", .arr []), ("kind", .str d.kind), ("plural", .str d.plural),
              ("shortNames", Json.strings [d.shortName]), ("singular", .str d.kind.toLower)]),
          ("scope", .str "Namespaced"),
          ("versions", .arr [Json.object
            [("name", .str apiRevision), ("served", .bool true), ("storage", .bool true),
              ("additionalPrinterColumns", .arr (d.columns.map Column.toJson)),
              ("schema", Json.object [("openAPIV3Schema", d.schema.toJson)]),
              ("subresources", Json.object [("status", .obj [])])]])])]

def ageColumn : Column := ⟨"Age", "date", ".metadata.creationTimestamp"⟩

def documentSchema (kind : String) (spec status : Schema) : Schema :=
  .record
    (.of ("Auto-generated derived type for " ++ kind ++ "Spec via \x60CustomResource\x60"))
    [("spec", spec), ("status", status)] ["spec"] (some kind)

def textSchema (note : Note) : Schema := .text note none []

namespace PackageRegistry

def specSchema : Schema :=
  .record
    (.of ("PackageRegistry custom resource definition\n\nEach PackageRegistry is served by a "
      ++ "single-replica registry Deployment plus the ServiceAccount, Role, RoleBinding and "
      ++ "Service it needs. All of them carry an owner reference back to the PackageRegistry."))
    [("packages", .list (.of "Package ids to serve, in order (1-256 entries)") (textSchema .none)
      (some (1, 256)) none)]
    ["packages"] none

def statusSchema : Schema :=
  .record (.optional "Status of a PackageRegistry resource")
    [("address", textSchema (.optional "\x60clusterIP:port\x60 of the registry Service")),
      ("lastUpdated", textSchema (.optional "Last time the status was updated")),
      ("message", textSchema (.optional "Error or progress message")),
      ("observedGeneration", .wholeNumber (.of "Generation the status was computed for")),
      ("phase", .text (.of "Current phase of the registry") none
        ([Phase.pending, .succeeded, .failed].map Phase.text))]
    ["observedGeneration", "phase"] none

def definition : Definition where
  kind := kind
  plural := plural
  shortName := "preg"
  columns :=
    [⟨"Packages", "string", ".spec.packages"⟩, ⟨"Phase", "string", ".status.phase"⟩,
      ⟨"Address", "string", ".status.address"⟩, ageColumn]
  schema := documentSchema kind specSchema statusSchema

end PackageRegistry

namespace PackageSource

def specSchema : Schema :=
  .record
    (.of ("PackageSource custom resource definition\n\nAn upstream app-registry. The process that "
      ++ "syncs the upstream publishes the package ids it currently offers in "
      ++ "\x60status.packages\x60."))
    [("endpoint", textSchema (.of "Upstream app-registry URL")),
      ("registryNamespace",
        .text (.of "Namespace inside the upstream registry") (some (1, 253)) [])]
    ["endpoint", "registryNamespace"] none

def statusSchema : Schema :=
  .record (.optional "Status of a PackageSource resource")
    [("lastSynced", textSchema (.optional "Last time the package list was synced")),
      ("packages", .list (.of "Package ids offered by this source") (textSchema .none) none
        (some (.arr [])))]
    [] none

def definition : Definition where
  kind := kind
  plural := plural
  shortName := "psrc"
  columns :=
    [⟨"Endpoint", "string", ".spec.endpoint"⟩,
      ⟨"Registry", "string", ".spec.registryNamespace"⟩, ageColumn]
  schema := documentSchema kind specSchema statusSchema

end PackageSource

end RegistryKeeper
