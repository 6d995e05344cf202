import RegistryKeeper.Proofs.CatalogHistories
import RegistryKeeper.Proofs.PackageIds
import RegistryKeeper.Proofs.RecordReadings
import RegistryKeeper.Proofs.Rereadings
import RegistryKeeper.Proofs.SchemaKeywords

namespace RegistryKeeper

namespace Json
variable {α : Type} {known : List (String × Reader Unit)} {l : List (String × Json)} {k : String}

end Json

namespace Schema
open Json

def ReadBy {α : Type} (s : Schema) (f : Reader α) : Prop :=
  ∀ v, s.toJson.satisfies v = true → ∃ a, f v = .ok a

section
variable {α : Type} {f : Reader α} {note : Note}

theorem ReadBy.fits {s : Schema} (h : s.ReadBy f) {v : Json} (hv : s.toJson.satisfies v = true) :
    Json.fits f v = .ok () :=
  fits_eq_ok_iff.2 (h v hv)

end

end Schema

section
open Schema

end

section
open Schema

end

example :
    let document (phase : String) : Json := .obj [("metadata", .obj []),
      ("spec", .obj [("packages", .arr [.str "etcd"])]),
      ("status", .obj [("address", .null), ("colour", .int 7), ("observedGeneration", .int 3),
        ("phase", .str phase)])]
    let schema := PackageRegistry.definition.schema.toJson
    schema.satisfies (document "Failed") = true ∧ schema.satisfies (document "failed") = false := by
  decide +kernel

end RegistryKeeper
