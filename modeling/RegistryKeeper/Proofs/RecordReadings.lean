import RegistryKeeper.Document.PackageSource
import RegistryKeeper.Proofs.RecordFields
import RegistryKeeper.Proofs.WrittenDocuments

namespace RegistryKeeper

namespace Json

def Restores {α : Type} (f : Reader α) (write : α → Json) : Prop :=
  ∀ j a, f j = .ok a → f (write a) = .ok a

theorem readList_strings (l : List String) : readList readText (strings l) = .ok l := by
  unfold readList strings
  induction l with
  | nil => rfl
  | cons s l ih =>
      simp only [List.map_cons, readEach, readText, ih]
      rfl

theorem readOption_textOrNull (o : Option String) :
    readOption readText (RegistryStatus.textOrNull o) = .ok o := by
  cases o <;> rfl

theorem readOption_eq_some_iff {α : Type} {f : Reader α} {j : Json} {a : α} :
    readOption f j = .ok (some a) ↔ j ≠ .null ∧ f j = .ok a := by
  cases j <;> simp [readOption, map_eq_ok_iff]

theorem readOption_of_ne_null {α : Type} {f : Reader α} {j j' : Json} (hj : j ≠ .null)
    (hj' : j' ≠ .null) (h : ∀ a, f j = .ok a → f j' = .ok a) {o : Option α}
    (ho : readOption f j = .ok o) : readOption f j' = .ok o := by
  cases o with
  | none =>
      cases j with
      | null => exact absurd rfl hj
      | _ =>
          obtain ⟨_, -, hnone⟩ := map_eq_ok_iff.1 ho
          cases hnone
  | some a => exact readOption_eq_some_iff.2 ⟨hj', h a (readOption_eq_some_iff.1 ho).2⟩

end Json

namespace RegistrySpec

def declared : List Json.Field := [⟨"packages", false⟩]

def reading : Json.RecordReading ofJson declared where
  readings := [.ofRequired "packages" (Json.readList Json.readText) packages]
  known := [("packages", Json.fits (Json.readList Json.readText))]
  declared := rfl
  nodup := by decide
  fits := by
    simp only [List.forall_mem_singleton]
    rfl
  known_declared := by decide
  obj_iff {l s} := by
    simp only [ofJson, bind_eq_ok_iff, List.forall_mem_singleton,
      Json.FieldReading.ofRequired_tells_lookup]
    constructor
    · rintro ⟨_, hc, _, hp, ⟨⟩⟩
      exact ⟨hc, hp⟩
    · rintro ⟨hc, hp⟩
      exact ⟨_, hc, _, hp, rfl⟩
  arr_iff {items s} := by
    change _ ↔ List.Forall₂ _ _ (items.drop 0)
    simp only [ofJson, bind_eq_ok_iff, Json.item_eq_ok_iff, Json.atMost_eq_ok_iff,
      Json.forall₂_cons_iff, Json.forall₂_nil_iff, Nat.reduceAdd,
      Json.FieldReading.ofRequired_tells_some]
    constructor
    · rintro ⟨_, ⟨v, hv, hp⟩, _, hlen, ⟨⟩⟩
      exact ⟨v, hv, hp, hlen⟩
    · rintro ⟨v, hv, hp, hlen⟩
      exact ⟨_, ⟨v, hv, hp⟩, (), hlen, rfl⟩
  record {j s} h := by
    cases j with
    | obj l => exact .inl ⟨l, rfl⟩
    | arr items => exact .inr ⟨items, rfl⟩
    | _ => cases h

theorem restores : Json.Restores ofJson toJson := by
  intro _ s _
  refine reading.read_object _ ?_
  simp only [reading, List.forall_mem_singleton, Json.field?_object]
  exact Json.FieldReading.ofRequired_tells_some.2 (Json.readList_strings s.packages)

end RegistrySpec

namespace SourceSpec

def declared : List Json.Field := [⟨"endpoint", false⟩, ⟨"registryNamespace", false⟩]

def reading : Json.RecordReading ofJson declared where
  readings :=
    [.ofRequired "endpoint" Json.readText endpoint,
      .ofRequired "registryNamespace" Json.readText registryNamespace]
  known :=
    [("endpoint", Json.fits Json.readText), ("registryNamespace", Json.fits Json.readText)]
  declared := rfl
  nodup := by decide
  fits := by
    simp only [List.forall_mem_cons]
    exact ⟨rfl, rfl, nofun⟩
  known_declared := by decide
  obj_iff {l s} := by
    simp only [ofJson, bind_eq_ok_iff, List.forall_mem_cons,
      Json.FieldReading.ofRequired_tells_lookup]
    constructor
    · rintro ⟨_, hc, _, he, _, hn, ⟨⟩⟩
      exact ⟨hc, he, hn, nofun⟩
    · rintro ⟨hc, he, hn, -⟩
      exact ⟨_, hc, _, he, _, hn, rfl⟩
  arr_iff {items s} := by
    change _ ↔ List.Forall₂ _ _ (items.drop 0)
    simp only [ofJson, bind_eq_ok_iff, Json.item_eq_ok_iff, Json.atMost_eq_ok_iff,
      Json.forall₂_cons_iff, Json.forall₂_nil_iff, Nat.reduceAdd,
      Json.FieldReading.ofRequired_tells_some]
    constructor
    · rintro ⟨_, ⟨v, hv, he⟩, _, ⟨w, hw, hn⟩, _, hlen, ⟨⟩⟩
      exact ⟨v, hv, he, w, hw, hn, hlen⟩
    · rintro ⟨v, hv, he, w, hw, hn, hlen⟩
      exact ⟨_, ⟨v, hv, he⟩, _, ⟨w, hw, hn⟩, (), hlen, rfl⟩
  record {j s} h := by
    cases j with
    | obj l => exact .inl ⟨l, rfl⟩
    | arr items => exact .inr ⟨items, rfl⟩
    | _ => cases h

theorem restores : Json.Restores ofJson toJson := by
  intro _ s _
  refine reading.read_object _ ?_
  simp only [reading, List.forall_mem_cons, Json.field?_object]
  exact ⟨Json.FieldReading.ofRequired_tells_some.2 rfl,
    Json.FieldReading.ofRequired_tells_some.2 rfl, nofun⟩

end SourceSpec

namespace SourceStatus

def declared : List Json.Field := [⟨"packages", false⟩, ⟨"lastSynced", true⟩]

def reading : Json.RecordReading ofJson declared where
  readings :=
    [.ofDefaulted "packages" (Json.readList Json.readText) [] packages,
      .ofOptional "lastSynced" Json.readText lastSynced]
  known :=
    [("lastSynced", Json.fits (Json.readOption Json.readText)),
      ("packages", Json.fits (Json.readList Json.readText))]
  declared := rfl
  nodup := by decide
  fits := by
    simp only [List.forall_mem_cons]
    exact ⟨rfl, rfl, nofun⟩
  known_declared := by decide
  obj_iff {l s} := by
    simp only [ofJson, bind_eq_ok_iff, List.forall_mem_cons,
      Json.FieldReading.ofDefaulted_tells_lookup, Json.FieldReading.ofOptional_tells_lookup]
    constructor
    · rintro ⟨_, hc, _, hp, _, hs, ⟨⟩⟩
      exact ⟨hc, ⟨_, hp, rfl⟩, hs, nofun⟩
    · rintro ⟨hc, ⟨_, hp, hpackages⟩, hs, -⟩
      refine ⟨_, hc, _, hp, _, hs, ?_⟩
      rw [hpackages]
      rfl
  arr_iff {items s} := by
    change _ ↔ List.Forall₂ _ _ (items.drop 0)
    simp only [Json.forall₂_cons_iff, Json.forall₂_nil_iff, Nat.reduceAdd,
      Json.FieldReading.ofDefaulted_tells_some, Json.FieldReading.ofOptional_tells_some]
    cases items with
    | nil =>
        constructor
        · intro h
          cases h
        · rintro ⟨_, h, -⟩
          cases h
    | cons v items =>
        simp only [ofJson, bind_eq_ok_iff, Json.item_eq_ok_iff, Json.atMost_eq_ok_iff]
        constructor
        · rintro ⟨_, ⟨v, hv, hp⟩, _, ⟨w, hw, hs⟩, _, hlen, ⟨⟩⟩
          exact ⟨v, hv, hp, w, hw, hs, hlen⟩
        · rintro ⟨v, hv, hp, w, hw, hs, hlen⟩
          exact ⟨_, ⟨v, hv, hp⟩, _, ⟨w, hw, hs⟩, (), hlen, rfl⟩
  record {j s} h := by
    cases j with
    | obj l => exact .inl ⟨l, rfl⟩
    | arr items => exact .inr ⟨items, rfl⟩
    | _ => cases h

theorem restores : Json.Restores ofJson toJson := by
  intro _ s _
  refine reading.read_object _ ?_
  simp only [reading, List.forall_mem_cons, Json.field?_object]
  exact ⟨Json.readList_strings s.packages, Json.readOption_textOrNull s.lastSynced, nofun⟩

end SourceStatus

namespace RegistryStatus

def declared : List Json.Field :=
  [⟨"phase", false⟩, ⟨"address", true⟩, ⟨"message", true⟩, ⟨"observedGeneration", false⟩,
    ⟨"lastUpdated", true⟩]

def reading : Json.RecordReading ofJson declared where
  readings :=
    [.ofRequired "phase" Phase.ofJson phase, .ofOptional "address" Json.readText address,
      .ofOptional "message" Json.readText message,
      .ofRequired "observedGeneration" (Json.readInt 64) observedGeneration,
      .ofOptional "lastUpdated" Json.readText lastUpdated]
  known := known
  declared := rfl
  nodup := by decide
  fits := by
    simp only [List.forall_mem_cons]
    exact ⟨rfl, rfl, rfl, rfl, rfl, nofun⟩
  known_declared := by decide
  obj_iff {l s} := by
    simp only [ofJson_eq_ok_iff, List.forall_mem_cons, Json.FieldReading.ofRequired_tells_lookup,
      Json.FieldReading.ofOptional_tells_lookup]
    constructor
    · rintro ⟨hc, hp, hg, ha, hm, hu⟩
      exact ⟨hc, hp, ha, hm, hg, hu, nofun⟩
    · rintro ⟨hc, hp, ha, hm, hg, hu, -⟩
      exact ⟨hc, hp, hg, ha, hm, hu⟩
  arr_iff {items s} := by
    change _ ↔ List.Forall₂ _ _ (items.drop 0)
    simp only [ofJson, bind_eq_ok_iff, Json.item_eq_ok_iff, Json.atMost_eq_ok_iff,
      Json.forall₂_cons_iff, Json.forall₂_nil_iff, Nat.reduceAdd,
      Json.FieldReading.ofRequired_tells_some, Json.FieldReading.ofOptional_tells_some]
    constructor
    · rintro ⟨_, ⟨_, h0, hp⟩, _, ⟨_, h1, ha⟩, _, ⟨_, h2, hm⟩, _, ⟨_, h3, hg⟩, _, ⟨_, h4, hu⟩, _,
        hlen, ⟨⟩⟩
      exact ⟨_, h0, hp, _, h1, ha, _, h2, hm, _, h3, hg, _, h4, hu, hlen⟩
    · rintro ⟨_, h0, hp, _, h1, ha, _, h2, hm, _, h3, hg, _, h4, hu, hlen⟩
      exact ⟨_, ⟨_, h0, hp⟩, _, ⟨_, h1, ha⟩, _, ⟨_, h2, hm⟩, _, ⟨_, h3, hg⟩, _, ⟨_, h4, hu⟩, (),
        hlen, rfl⟩
  record {j s} h := by
    cases j with
    | obj l => exact .inl ⟨l, rfl⟩
    | arr items => exact .inr ⟨items, rfl⟩
    | _ => cases h

theorem restores : Json.Restores ofJson toJson := by
  intro j s h
  have hgeneration : Json.readInt 64 (.int s.observedGeneration) = .ok s.observedGeneration := by
    obtain ⟨_, v, -, hv⟩ := reading.tells_of_read h
      (r := .ofRequired "observedGeneration" (Json.readInt 64) observedGeneration)
      (by simp [reading])
    have hnull : v ≠ .null := by
      rintro rfl
      cases hv
    exact Json.readInt_of_readOption (Json.readOption_eq_some_iff.2 ⟨hnull, hv⟩)
  refine reading.read_object _ ?_
  simp only [reading, List.forall_mem_cons, Json.field?_object]
  refine ⟨?_, ?_, ?_, ?_, ?_, nofun⟩
  · exact Json.FieldReading.ofRequired_tells_some.2 (phase_ofJson_toJson s.phase)
  · exact Json.readOption_textOrNull s.address
  · exact Json.readOption_textOrNull s.message
  · exact Json.FieldReading.ofRequired_tells_some.2 hgeneration
  · exact Json.readOption_textOrNull s.lastUpdated

end RegistryStatus

namespace Metadata

def names : List String := known.map (·.1)

theorem ofJson_padded {j j' : Json} {m : Metadata} (h : ofJson j = .ok m)
    (hj : Json.Padded names j j') : ofJson j' = .ok m := by
  obtain ⟨l, l', rfl, rfl, hlookup, hcheck⟩ := hj.agrees
  have hopt {α : Type} (f : Json.Reader α) (k : String) (hk : k ∈ names) (o : Option α) :
      Json.optional f l' k = .ok o ↔ Json.optional f l k = .ok o := by
    rw [Json.optional_eq_ok_iff, Json.optional_eq_ok_iff, hlookup k hk]
  simp only [ofJson, bind_eq_ok_iff] at h
  obtain ⟨_, hc, h⟩ := h
  have hc' := hcheck known (fun e he => List.mem_map_of_mem he) hc
  simp (disch := decide) only [ofJson, bind_eq_ok_iff, hopt]
  exact ⟨_, hc', h⟩

end Metadata

structure ResourceReading {α S T : Type} (f : Json.Reader α) (readSpec : Json.Reader S)
    (readStatus : Json.Reader T) where
  make : Metadata → S → Option T → α
  metadata : α → Metadata
  spec : α → S
  status : α → Option T
  make_eq_iff {m : Metadata} {s : S} {t : Option T} {a : α} :
    make m s t = a ↔ metadata a = m ∧ spec a = s ∧ status a = t
  record : String
  expected : String
  read (j : Json) : f j = match j with
    | .arr l => do
        let m ← Json.item Metadata.ofJson record l 0
        let s ← Json.item readSpec record l 1
        let t ← Json.item (Json.readOption readStatus) record l 2
        Json.atMost 3 l
        return make m s t
    | .obj l => do
        Json.checkFields
          [("metadata", Json.fits Metadata.ofJson), ("spec", Json.fits readSpec),
            ("status", Json.fits (Json.readOption readStatus))] l
        let m ← Json.required Metadata.ofJson l "metadata"
        let s ← Json.required readSpec l "spec"
        return make m s (← Json.optional readStatus l "status")
    | j => j.misfit expected

namespace ResourceReading

def declared : List Json.Field := [⟨"metadata", false⟩, ⟨"spec", false⟩, ⟨"status", true⟩]

def parts (specFields statusFields : List Json.Field) : List (String × (Json → Json → Prop)) :=
  [("metadata", Json.Padded Metadata.names), ("spec", Json.Reworded specFields),
    ("status", Json.Reworded statusFields)]

def metadataOf? : Json → Option Json
  | .obj l => Table.lookup "metadata" l
  | .arr items => items[0]?
  | _ => none

def MetadataKept (d : Json) : Prop := ∀ m, metadataOf? d = some m → Metadata.Written m

section
variable {α S T : Type} {f : Json.Reader α} {readSpec : Json.Reader S} {readStatus : Json.Reader T}

def reading (X : ResourceReading f readSpec readStatus) : Json.RecordReading f declared where
  readings :=
    [.ofRequired "metadata" Metadata.ofJson X.metadata, .ofRequired "spec" readSpec X.spec,
      .ofOptional "status" readStatus X.status]
  known :=
    [("metadata", Json.fits Metadata.ofJson), ("spec", Json.fits readSpec),
      ("status", Json.fits (Json.readOption readStatus))]
  declared := rfl
  nodup := by decide
  fits := by
    simp only [List.forall_mem_cons]
    exact ⟨rfl, rfl, rfl, nofun⟩
  known_declared := by simp [declared]
  obj_iff {l a} := by
    simp only [X.read, bind_eq_ok_iff, List.forall_mem_cons,
      Json.FieldReading.ofRequired_tells_lookup, Json.FieldReading.ofOptional_tells_lookup]
    constructor
    · rintro ⟨_, hc, _, hm, _, hs, _, ht, h⟩
      obtain ⟨rfl, rfl, rfl⟩ := X.make_eq_iff.1 (Except.ok.inj h)
      exact ⟨hc, hm, hs, ht, nofun⟩
    · rintro ⟨hc, hm, hs, ht, -⟩
      exact ⟨_, hc, _, hm, _, hs, _, ht, congrArg Except.ok (X.make_eq_iff.2 ⟨rfl, rfl, rfl⟩)⟩
  arr_iff {items a} := by
    change _ ↔ List.Forall₂ _ _ (items.drop 0)
    simp only [X.read, bind_eq_ok_iff, Json.item_eq_ok_iff, Json.atMost_eq_ok_iff,
      Json.forall₂_cons_iff, Json.forall₂_nil_iff, Nat.reduceAdd,
      Json.FieldReading.ofRequired_tells_some, Json.FieldReading.ofOptional_tells_some]
    constructor
    · rintro ⟨_, ⟨_, h0, hm⟩, _, ⟨_, h1, hs⟩, _, ⟨_, h2, ht⟩, _, hlen, h⟩
      obtain ⟨rfl, rfl, rfl⟩ := X.make_eq_iff.1 (Except.ok.inj h)
      exact ⟨_, h0, hm, _, h1, hs, _, h2, ht, hlen⟩
    · rintro ⟨_, h0, hm, _, h1, hs, _, h2, ht, hlen⟩
      exact ⟨_, ⟨_, h0, hm⟩, _, ⟨_, h1, hs⟩, _, ⟨_, h2, ht⟩, (), hlen,
        congrArg Except.ok (X.make_eq_iff.2 ⟨rfl, rfl, rfl⟩)⟩
  record {j a} h := by
    rw [X.read] at h
    cases j with
    | obj l => exact .inl ⟨l, rfl⟩
    | arr items => exact .inr ⟨items, rfl⟩
    | _ => cases h

variable (X : ResourceReading f readSpec readStatus)
include X

theorem metadata_of_read {d : Json} {a : α} (h : f d = .ok a) :
    ∃ m, metadataOf? d = some m ∧ Metadata.ofJson m = .ok (X.metadata a) := by
  obtain ⟨l, rfl⟩ | ⟨items, rfl⟩ := X.reading.record h
  · exact (X.reading.obj_iff.1 h).2 _ List.mem_cons_self
  · obtain ⟨m, items, hm, -, rfl⟩ := List.forall₂_cons_left_iff.1 (X.reading.arr_iff.1 h)
    exact ⟨m, rfl, Json.FieldReading.ofRequired_tells_some.1 hm⟩

theorem restores {writeSpec : S → Json} (hspec : Json.Restores readSpec writeSpec)
    {writeStatus : T → Json} (hstatus : Json.Restores readStatus writeStatus)
    (hnull : ∀ t, writeStatus t ≠ .null) {d : Json} {a : α} (h : f d = .ok a)
    (hkept : MetadataKept d) (version kind : Json) :
    f (Json.present
      [("apiVersion", some version), ("kind", some kind),
        ("metadata", some (X.metadata a).toJson), ("spec", some (writeSpec (X.spec a))),
        ("status", (X.status a).map writeStatus)]) = .ok a := by
  refine X.reading.read_present (by simp) ?_
  simp only [reading, List.forall_mem_cons]
  refine ⟨?_, ?_, ?_, nofun⟩
  · obtain ⟨m, hm, hread⟩ := X.metadata_of_read h
    obtain ⟨m', hm', rfl⟩ := hkept m hm
    cases hm'.symm.trans hread
    exact Json.FieldReading.ofRequired_tells_some.2 hread
  · obtain ⟨_, v, -, hv⟩ := X.reading.tells_of_read h (r := .ofRequired "spec" readSpec X.spec)
      (by simp [reading])
    exact Json.FieldReading.ofRequired_tells_some.2 (hspec _ _ hv)
  · obtain ⟨o, ho⟩ := X.reading.tells_of_read h (r := .ofOptional "status" readStatus X.status)
      (by simp [reading])
    change Json.readOption readStatus (((X.status a).map writeStatus).getD .null) = _
    cases hs : X.status a with
    | none => rfl
    | some t =>
        change Json.readOption readStatus (o.getD .null) = .ok (X.status a) at ho
        rw [hs] at ho
        exact Json.readOption_eq_some_iff.2
          ⟨hnull t, hstatus _ t (Json.readOption_eq_some_iff.1 ho).2⟩

theorem read_part {specFields statusFields : List Json.Field}
    (hspec : Json.RecordReading readSpec specFields)
    (hstatus : Json.RecordReading readStatus statusFields) {k : String} {R : Json → Json → Prop}
    (hk : (k, R) ∈ parts specFields statusFields) {l : List (String × Json)} {a : α}
    (h : f (.obj l) = .ok a) {v v' : Json} (hv : Table.lookup k l = some v) (hR : R v v') :
    f (.obj (Json.put k v' l)) = .ok a := by
  have htells := (X.reading.obj_iff.1 h).2
  simp only [reading, List.forall_mem_cons] at htells
  obtain ⟨⟨m, hm, hmetadata⟩, ⟨s, hs, hspec'⟩, hstatus', -⟩ := htells
  simp only [parts, List.mem_cons, List.not_mem_nil, or_false, Prod.mk.injEq] at hk
  obtain ⟨rfl, rfl⟩ | ⟨rfl, rfl⟩ | ⟨rfl, rfl⟩ := hk
  · cases hm.symm.trans hv
    refine X.reading.read_put h (r := .ofRequired "metadata" Metadata.ofJson X.metadata)
      (by simp [reading]) ?_
    exact Json.FieldReading.ofRequired_tells_some.2 (Metadata.ofJson_padded hmetadata hR)
  · cases hs.symm.trans hv
    refine X.reading.read_put h (r := .ofRequired "spec" readSpec X.spec) (by simp [reading]) ?_
    exact Json.FieldReading.ofRequired_tells_some.2 (hspec.read_reworded hspec' hR)
  · refine X.reading.read_put h (r := .ofOptional "status" readStatus X.status)
      (by simp [reading]) ?_
    change Json.readOption readStatus ((Table.lookup "status" l).getD .null) = _ at hstatus'
    rw [hv] at hstatus'
    exact Json.readOption_of_ne_null hR.ne_null.1 hR.ne_null.2
      (fun t ht => hstatus.read_reworded ht hR) hstatus'

end

end ResourceReading

def PackageRegistry.resource :
    ResourceReading ofJson RegistrySpec.ofJson RegistryStatus.ofJson where
  make := .mk
  metadata := metadata
  spec := spec
  status := status
  make_eq_iff {m s t a} := by
    constructor
    · rintro rfl
      exact ⟨rfl, rfl, rfl⟩
    · rintro ⟨rfl, rfl, rfl⟩
      rfl
  record := record
  expected := "struct PackageRegistry"
  read j := by cases j <;> rfl

def PackageSource.resource :
    ResourceReading ofJson SourceSpec.ofJson SourceStatus.ofJson where
  make := .mk
  metadata := metadata
  spec := spec
  status := status
  make_eq_iff {m s t a} := by
    constructor
    · rintro rfl
      exact ⟨rfl, rfl, rfl⟩
    · rintro ⟨rfl, rfl, rfl⟩
      rfl
  record := record
  expected := "struct PackageSource"
  read j := by cases j <;> rfl

end RegistryKeeper
