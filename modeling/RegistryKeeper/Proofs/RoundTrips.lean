import Mathlib.Logic.Relation
import RegistryKeeper.Proofs.RecordReadings

namespace RegistryKeeper

inductive DocumentType where
  | registry
  | source
  | registryStatus
  | sourceStatus
  deriving DecidableEq

namespace DocumentType

def Value : DocumentType → Type
  | registry => PackageRegistry
  | source => PackageSource
  | registryStatus => RegistryStatus
  | sourceStatus => SourceStatus

def read : (t : DocumentType) → Json.Reader t.Value
  | registry => PackageRegistry.ofJson
  | source => PackageSource.ofJson
  | registryStatus => RegistryStatus.ofJson
  | sourceStatus => SourceStatus.ofJson

def write : (t : DocumentType) → t.Value → Json
  | registry => PackageRegistry.toJson
  | source => PackageSource.toJson
  | registryStatus => RegistryStatus.toJson
  | sourceStatus => SourceStatus.toJson

def declared : DocumentType → List Json.Field
  | registry | source => ResourceReading.declared
  | registryStatus => RegistryStatus.declared
  | sourceStatus => SourceStatus.declared

def parts : DocumentType → List (String × (Json → Json → Prop))
  | registry => ResourceReading.parts RegistrySpec.declared RegistryStatus.declared
  | source => ResourceReading.parts SourceSpec.declared SourceStatus.declared
  | registryStatus | sourceStatus => []

def MetadataKept : DocumentType → Json → Prop
  | registry | source => ResourceReading.MetadataKept
  | registryStatus | sourceStatus => fun _ => True

inductive Reworded (t : DocumentType) : Json → Json → Prop
  | whole {j j' : Json} (h : Json.Reworded t.declared j j') : Reworded t j j'
  | part {k : String} {R : Json → Json → Prop} (hk : (k, R) ∈ t.parts) {l : List (String × Json)}
      {v v' : Json} (hv : Table.lookup k l = some v) (h : R v v') :
      Reworded t (.obj l) (.obj (Json.put k v' l))

theorem restores (t : DocumentType) {d : Json} {v : t.Value} (h : t.read d = .ok v)
    (hkept : t.MetadataKept d) : t.read (t.write v) = .ok v := by
  cases t with
  | registry =>
      exact PackageRegistry.resource.restores RegistrySpec.restores RegistryStatus.restores
        (fun _ => Json.noConfusion) h hkept _ _
  | source =>
      exact PackageSource.resource.restores SourceSpec.restores SourceStatus.restores
        (fun _ => Json.noConfusion) h hkept _ _
  | registryStatus => exact RegistryStatus.restores d v h
  | sourceStatus => exact SourceStatus.restores d v h

theorem read_reworded {t : DocumentType} {d d' : Json} {v : t.Value} (h : t.read d = .ok v)
    (hd : t.Reworded d d') : t.read d' = .ok v := by
  cases hd with
  | whole hd =>
      cases t with
      | registry => exact PackageRegistry.resource.reading.read_reworded h hd
      | source => exact PackageSource.resource.reading.read_reworded h hd
      | registryStatus => exact RegistryStatus.reading.read_reworded h hd
      | sourceStatus => exact SourceStatus.reading.read_reworded h hd
  | part hk hv hR =>
      cases t with
      | registry =>
          exact PackageRegistry.resource.read_part RegistrySpec.reading RegistryStatus.reading hk h
            hv hR
      | source =>
          exact PackageSource.resource.read_part SourceSpec.reading SourceStatus.reading hk h hv hR
      | registryStatus | sourceStatus => cases hk

theorem read_rewordings {t : DocumentType} {d d' : Json} {v : t.Value} (h : t.read d = .ok v)
    (hd : Relation.ReflTransGen t.Reworded d d') : t.read d' = .ok v := by
  induction hd with
  | refl => exact h
  | tail _ hd ih => exact read_reworded ih hd

end DocumentType

theorem documents_round_trip (t : DocumentType) {d : Json} {v : t.Value} (h : t.read d = .ok v)
    (hkept : t.MetadataKept d) :
    let w := t.write v
    t.read w = .ok v ∧ t.write <$> t.read w = .ok w ∧
      ∀ d', Relation.ReflTransGen t.Reworded w d' → t.read d' = .ok v := by
  intro w
  have hw : t.read w = .ok v := t.restores h hkept
  refine ⟨hw, ?_, fun d' hd' => DocumentType.read_rewordings hw hd'⟩
  rw [hw]
  rfl

theorem documents_round_trip_of_registry :
    let metadata : Json :=
      .obj [("generation", .int 3), ("name", .str "community"), ("namespace", .str "default")]
    let fields : List (String × Json) :=
      [("lastUpdated", .null), ("message", .null),
        ("observedGeneration", .int 9223372036854775807), ("phase", .str "Failed")]
    let d : Json :=
      .obj [("colour", .str "blue"), ("metadata", metadata), ("spec", .arr [.arr [.str "etcd"]]),
        ("status", .obj [("observedGeneration", .int 9223372036854775807),
          ("phase", .obj [("Failed", .null)])])]
    let written (version : String) (spec status : Json) : Json :=
      .obj [("apiVersion", .str version), ("kind", .str "PackageRegistry"),
        ("metadata", metadata), ("spec", spec), ("status", status)]
    let v : PackageRegistry :=
      ⟨{ Metadata.empty with
          generation := some 3, name := some "community", «namespace» := some "default" },
        ⟨["etcd"]⟩, some ⟨.failed, none, none, 9223372036854775807, none⟩⟩
    let t := DocumentType.registry
    let spec : Json := .obj [("packages", .arr [.str "etcd"])]
    let spec' : Json := .arr [.arr [.str "etcd"]]
    let status : Json := .obj (("address", .null) :: fields)
    let w := written apiVersion spec status
    let w' := written "apps/v1" spec' (.obj fields)
    t.read d = .ok v ∧ t.MetadataKept d ∧ t.write v = w ∧ t.read w = .ok v ∧
      t.write <$> t.read w = .ok w ∧ Relation.ReflTransGen t.Reworded w w' ∧ t.read w' = .ok v := by
  intro metadata fields d written v t spec spec' status w w'
  have hread : PackageRegistry.ofJson d = .ok v := by decide
  have hkept : t.MetadataKept d := by
    rintro m hm
    cases hm
    exact ⟨v.metadata, by decide, by decide⟩
  have hwritten : t.write v = w := by decide
  have hversion : t.Reworded w (written "apps/v1" spec status) :=
    .whole (.padded (.put (k := "apiVersion") (by decide) _ _))
  have hspec : t.Reworded (written "apps/v1" spec status) (written "apps/v1" spec' status) :=
    .part (k := "spec") (R := Json.Reworded RegistrySpec.declared)
      (by simp [t, DocumentType.parts, ResourceReading.parts]) rfl
      (.listed (.cons (.inl rfl) .nil))
  have hstatus : t.Reworded (written "apps/v1" spec' status) w' :=
    .part (k := "status") (R := Json.Reworded RegistryStatus.declared)
      (by simp [t, DocumentType.parts, ResourceReading.parts]) rfl
      (.leftOut (f := ⟨"address", true⟩) (by decide) rfl rfl)
  have hreworded : Relation.ReflTransGen t.Reworded w w' :=
    .tail (.tail (.single hversion) hspec) hstatus
  obtain ⟨h₁, h₂, h₃⟩ := documents_round_trip t (d := d) (v := v) hread hkept
  rw [hwritten] at h₁ h₂ h₃
  exact ⟨hread, hkept, hwritten, h₁, h₂, hreworded, h₃ w' hreworded⟩

end RegistryKeeper
