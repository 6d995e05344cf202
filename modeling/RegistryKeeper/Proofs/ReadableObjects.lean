import RegistryKeeper.Proofs.Blueprints
import RegistryKeeper.Proofs.Rereadings

namespace RegistryKeeper

namespace Managed
variable {k : ManagedKind} {j live desired : Json}

def Readable (k : ManagedKind) (j : Json) : Prop := ∃ live, ofJson k j = .ok live

theorem readable_iff :
    Readable k j ↔ ∃ l, j = .obj l ∧ Json.checkFields (known k) l = .ok () := by
  constructor
  · rintro ⟨live, h⟩
    cases j with
    | obj l =>
        simp only [ofJson, bind_eq_ok_iff] at h
        obtain ⟨_, h, -⟩ := h
        exact ⟨l, rfl, h⟩
    | _ => cases h
  · rintro ⟨l, rfl, h⟩
    obtain ⟨o, ho⟩ := Json.exists_optional (k := "metadata") h rfl
    simp only [Readable, ofJson, bind_eq_ok_iff]
    exact ⟨_, (), h, o, ho, rfl⟩

theorem readable_object {fields : List (String × Json)}
    (h : Json.checkFields (known k) fields = .ok ()) : Readable k (Json.object fields) :=
  readable_iff.2 ⟨(Json.object fields).fields, rfl, Json.checkFields_object h⟩

theorem checkFields_document {metadata : Json} {rest : List (String × Json)}
    (hm : Json.FieldFits (known k) "metadata" metadata)
    (hr : Json.checkFields (known k) rest = .ok ()) :
    Json.checkFields (known k) (("apiVersion", .str k.apiVersion) :: ("kind", .str k.name) ::
      ("metadata", metadata) :: rest) = .ok () := by
  have hconstant (s : String) : readConstant s (.str s) = .ok () := by
    simp only [readConstant, Json.readTextAs, Json.interpret, mapError_eq_ok_iff, if_true]
  rw [Json.checkFields_eq_ok_iff] at hr ⊢
  simp only [List.forall_mem_cons]
  refine ⟨?_, ?_, hm, hr⟩
  · rintro f ⟨⟩
    exact hconstant _
  · rintro f ⟨⟩
    exact hconstant _

theorem ofJson_eq_ok {l : List (String × Json)} (h : ofJson k (.obj l) = .ok live) :
    Json.checkFields (known k) l = .ok () ∧ ∃ o rest,
      Json.optional Metadata.ofJson l "metadata" = .ok o ∧
      Json.checkFields (known k) rest = .ok () ∧ "metadata" ∉ rest.map (·.1) ∧
      live = Json.object (("apiVersion", .str k.apiVersion) :: ("kind", .str k.name) ::
        ("metadata", (o.getD .empty).toJson) :: rest) := by
  simp only [ofJson, bind_eq_ok_iff] at h
  obtain ⟨_, hl, o, ho, h⟩ := h
  have hrest := Json.checkFields_filter hl fun e => e.1 ∈ k.contents ∧ e.2 ≠ .null
  have hnot : "metadata" ∉ (l.filter fun e => e.1 ∈ k.contents ∧ e.2 ≠ .null).map (·.1) := by
    intro hmem
    obtain ⟨e, he, hkey⟩ := List.mem_map.1 hmem
    have hown := (List.mem_filter.1 he).2
    rw [hkey] at hown
    cases k <;> simp [ManagedKind.contents] at hown
  refine ⟨hl, o, _, ho, ?_, ?_, (Except.ok.inj h).symm⟩
  · split
    · exact Json.checkFields_put hrest (by rintro f ⟨⟩)
    · exact hrest
  · split
    · rw [Json.mem_keys_put]
      rintro (h | h)
      · exact absurd h (by decide)
      · exact hnot h
    · exact hnot

theorem readable_of_ofJson (h : ofJson k j = .ok live) : Readable k live := by
  cases j with
  | obj l =>
      obtain ⟨-, o, rest, ho, hrest, -, rfl⟩ := ofJson_eq_ok h
      refine readable_object (checkFields_document ?_ hrest)
      cases o with
      | none =>
          rintro f ⟨⟩
          rfl
      | some m => exact Metadata.rereads.fieldFits rfl ho _ rfl
  | _ => cases h

theorem textAt?_metadata_of_ofJson (h : ofJson k j = .ok live) {f : String}
    (hf : f ∈ ["name", "namespace", "resourceVersion"]) :
    live.textAt? ["metadata", f] = j.textAt? ["metadata", f] := by
  cases j with
  | obj l =>
      obtain ⟨-, o, rest, ho, -, hnot, rfl⟩ := ofJson_eq_ok h
      have hreversed : Table.lookup "metadata" rest.reverse = none :=
        Json.lookup_eq_none_of_notMem (by simpa using hnot)
      have hwritten : (Json.object (("apiVersion", .str k.apiVersion) :: ("kind", .str k.name) ::
          ("metadata", (o.getD .empty).toJson) :: rest)).field? "metadata" =
            some (o.getD .empty).toJson := by
        simp [Json.field?_object, Json.lookup_append, hreversed, Table.lookup]
      rw [Json.textAt?_cons _ "metadata", hwritten, Option.bind_some,
        Json.textAt?_cons (.obj l) "metadata"]
      rw [Json.optional_eq_ok_iff] at ho
      have hblank : Metadata.empty.toJson.textAt? [f] = none := rfl
      rw [Json.field?, Json.fields]
      cases hm : Table.lookup "metadata" l with
      | none =>
          rw [hm] at ho
          cases ho
          exact hblank
      | some v =>
          rw [hm, Option.getD_some] at ho
          rw [Option.bind_some]
          cases v with
          | null =>
              cases ho
              exact hblank
          | obj ml =>
              obtain ⟨m, hread, rfl⟩ := map_eq_ok_iff.1 ho
              exact Metadata.textAt?_toJson hread hf
          | _ => cases ho
  | _ => cases h

theorem Readable.withField (h : Readable k j) {f : String} {v : Json}
    (hv : Json.FieldFits (known k) f v) : Readable k (j.withField f v) := by
  obtain ⟨l, rfl, hl⟩ := readable_iff.1 h
  exact readable_iff.2 ⟨_, rfl, Json.checkFields_put hl hv⟩

theorem Readable.copyField (h : Readable k j) {f : String}
    (hf : Table.lookup f (known k) = none) (source : Json) : Readable k (copyField f source j) := by
  unfold Managed.copyField
  split
  · refine h.withField ?_
    intro g hg
    cases hf.symm.trans hg
  · obtain ⟨l, rfl, hl⟩ := readable_iff.1 h
    exact readable_iff.2 ⟨_, rfl, Json.checkFields_filter hl _⟩

theorem Readable.amend (h : Readable k live) : Readable k (amend k live desired) := by
  cases k with
  | serviceAccount | service => exact h
  | role => exact h.copyField rfl desired
  | roleBinding => exact (h.copyField rfl desired).copyField rfl desired
  | deployment =>
      have hspec (v : Json) : Json.FieldFits (known .deployment) "spec" v := by
        rintro f ⟨⟩
        rfl
      simp only [Managed.amend]
      split
      · exact h
      · split
        · exact h.withField (hspec _)
        · exact h.withField (hspec _)

theorem Readable.setAt (h : Readable k j) {f f' : String} {g : Json.Reader Unit}
    (hf : Table.lookup f (known k) = some g) {inner : List (String × Json.Reader Unit)}
    (hold : ∀ v, g v = .ok () → Json.checkFields inner v.fields = .ok ())
    (hnew : ∀ l, Json.checkFields inner l = .ok () → g (.obj l) = .ok ()) {v : Json}
    (hv : Json.FieldFits inner f' v) : Readable k (j.setAt [f, f'] v) := by
  obtain ⟨l, rfl, hl⟩ := readable_iff.1 h
  have hfields : Json.checkFields inner (((Json.obj l).field? f).getD .null).fields = .ok () := by
    cases hm : (Json.obj l).field? f with
    | none => rfl
    | some v => exact hold v (Json.checkFields_eq_ok_iff.1 hl _ (Table.mem_of_lookup hm) _ hf)
  refine h.withField ?_
  intro g' hg
  cases hf.symm.trans hg
  exact hnew _ (Json.checkFields_put hfields hv)

theorem Readable.stamp (h : Readable k j) {f : String}
    (hf : Table.lookup f Metadata.known = some (Json.fits (Json.readOption Json.readText)))
    (s : String) : Readable k (j.setAt ["metadata", f] (.str s)) := by
  have hold (v : Json) (hv : Json.fits (Json.readOption Metadata.ofJson) v = .ok ()) :
      Json.checkFields Metadata.known v.fields = .ok () := by
    obtain ⟨o, ho⟩ := Json.fits_eq_ok_iff.1 hv
    cases v with
    | obj l =>
        obtain ⟨m, hm, -⟩ := map_eq_ok_iff.1 ho
        exact Metadata.exists_ofJson_iff.1 ⟨m, hm⟩
    | _ => rfl
  have hnew (l : List (String × Json)) (hl : Json.checkFields Metadata.known l = .ok ()) :
      Json.fits (Json.readOption Metadata.ofJson) (.obj l) = .ok () := by
    obtain ⟨m, hm⟩ := Metadata.exists_ofJson_iff.2 hl
    exact Json.fits_eq_ok_iff.2 ⟨some m, map_eq_ok_iff.2 ⟨m, hm, rfl⟩⟩
  refine h.setAt rfl hold hnew ?_
  intro g hg
  cases hf.symm.trans hg
  rfl

def serviceFields : List (String × Json.Reader Unit) :=
  [("clusterIP", Json.fits (Json.readOption Json.readText)),
    ("ports", Json.fits (Json.readOption (Json.readList readPort)))]

theorem fits_serviceSpec_obj {l : List (String × Json)} :
    Json.fits (Json.readOption readServiceSpec) (.obj l) = .ok () ↔
      Json.checkFields serviceFields l = .ok () := by
  rw [Json.fits_eq_ok_iff]
  constructor
  · rintro ⟨o, ho⟩
    obtain ⟨_, hl, -⟩ := map_eq_ok_iff.1 ho
    exact hl
  · intro hl
    exact ⟨some (), map_eq_ok_iff.2 ⟨(), hl, rfl⟩⟩

theorem Readable.withAddress (h : Readable .service j) (a : String) :
    Readable .service (j.setAt addressPath (.str a)) := by
  have hold (v : Json) (hv : Json.fits (Json.readOption readServiceSpec) v = .ok ()) :
      Json.checkFields serviceFields v.fields = .ok () := by
    cases v with
    | obj l => exact fits_serviceSpec_obj.1 hv
    | _ => rfl
  refine h.setAt rfl hold (fun l => fits_serviceSpec_obj.2) ?_
  rintro g ⟨⟩
  rfl

theorem Readable.withIdentity (h : Readable k j) (v : Nat) : Readable k (withIdentity v j) := by
  unfold RegistryKeeper.withIdentity
  have hversion := h.stamp (f := "resourceVersion") rfl (resourceVersion v)
  dsimp only
  split
  · exact hversion.stamp (f := "uid") rfl _
  · exact hversion

end Managed

theorem Store.readable_write {κ : Type} [DecidableEq κ] (s : Store κ) (p : Place κ)
    {k : ManagedKind} {isService : Bool} (hk : isService = true → k = .service) {j : Json}
    (h : Managed.Readable k j) : Managed.Readable k (s.write p isService j).1 := by
  have hstamped := h.withIdentity (s.versions + 1)
  rw [write_fst, addressed]
  split
  · next hawaits =>
      obtain rfl : k = .service := hk (Bool.and_eq_true_iff.1 hawaits).1
      cases s.addressing with
      | drawn => exact hstamped.withAddress _
      | fixed address => exact hstamped.withAddress _
      | absent => exact hstamped
  · exact hstamped

namespace Blueprint
variable (b : Blueprint)

theorem exists_ofJson_metadata : ∃ m, Metadata.ofJson b.metadata = .ok m := by
  obtain ⟨labels, hlabels⟩ := Json.exists_readMap_stringMap (objectLabels b.name)
  obtain ⟨owners, howners⟩ := Json.exists_readEach (f := OwnerReference.ofJson)
    (l := [b.owner.toJson]) (by simpa using b.owner.exists_ofJson_toJson)
  refine Metadata.exists_ofJson_object ?_
  rw [Json.checkFields_eq_ok_iff]
  simp only [List.forall_mem_cons]
  refine ⟨?_, ?_, ?_, ?_, List.forall_mem_nil _⟩
  · rintro f ⟨⟩
    exact Json.fits_eq_ok_iff.2 ⟨some labels, map_eq_ok_iff.2 ⟨labels, hlabels, rfl⟩⟩
  · rintro f ⟨⟩
    rfl
  · rintro f ⟨⟩
    rfl
  · rintro f ⟨⟩
    exact Json.fits_eq_ok_iff.2 ⟨some owners, map_eq_ok_iff.2 ⟨owners, howners, rfl⟩⟩

theorem readable_desired (command : List String) (sources : List SourceRef) (k : ManagedKind) :
    Managed.Readable k (b.desired command sources k) := by
  have hmetadata (k : ManagedKind) : Json.FieldFits (Managed.known k) "metadata" b.metadata := by
    obtain ⟨m, hm⟩ := b.exists_ofJson_metadata
    rintro f ⟨⟩
    exact Json.fits_eq_ok_iff.2 ⟨some m, map_eq_ok_iff.2 ⟨m, hm, rfl⟩⟩
  have hdocument (k : ManagedKind) {contents : List (String × Json)}
      (h : Json.checkFields (Managed.known k) contents = .ok ()) :
      Managed.Readable k (b.document k contents) :=
    Managed.readable_object (Managed.checkFields_document (hmetadata k) h)
  cases k with
  | serviceAccount => exact hdocument _ rfl
  | role => exact hdocument _ rfl
  | roleBinding => exact hdocument _ rfl
  | deployment => exact hdocument _ rfl
  | service =>
      refine hdocument _ ?_
      rw [Json.checkFields_eq_ok_iff, List.forall_mem_singleton]
      rintro f ⟨⟩
      have hspec : Json.checkFields Managed.serviceFields [("ports", .arr [servicePort]),
          ("selector", Json.stringMap (podLabels b.name))] = .ok () := rfl
      exact Managed.fits_serviceSpec_obj.2 (Json.checkFields_object hspec)

end Blueprint

end RegistryKeeper
