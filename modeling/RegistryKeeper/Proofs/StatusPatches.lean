import RegistryKeeper.Proofs.Readings
import RegistryKeeper.Proofs.Stamps

namespace RegistryKeeper

namespace Json

def setText (k : String) (s : Option String) (l : List (String × Json)) : List (String × Json) :=
  match s with
  | none => l.filter (·.1 ≠ k)
  | some s => put k (.str s) l

theorem lookup_setText (k k' : String) (s : Option String) (l : List (String × Json)) :
    Table.lookup k' (setText k s l) = if k = k' then s.map .str else Table.lookup k' l := by
  cases s with
  | none => exact lookup_filter_ne k k' l
  | some s => exact lookup_put k k' (.str s) l

theorem checkFields_setText {known : List (String × Reader Unit)} {l : List (String × Json)}
    (h : checkFields known l = .ok ()) {k : String}
    (hk : Table.lookup k known = some (fits (readOption readText))) (s : Option String) :
    checkFields known (setText k s l) = .ok () := by
  cases s with
  | none => exact checkFields_filter h _
  | some s =>
      refine checkFields_put h ?_
      intro f hf
      cases hk.symm.trans hf
      rfl

theorem mergeFields_text (k : String) (s : Option String) (l r : List (String × Json)) :
    mergeFields l ((k, RegistryStatus.textOrNull s) :: r) = mergeFields (setText k s l) r := by
  cases s <;> simp [RegistryStatus.textOrNull, mergeFields, merge, setText]

theorem readOption_text (s : Option String) :
    readOption readText ((s.map .str).getD .null) = .ok s := by
  cases s <;> rfl

end Json

namespace RegistryStatus

def known : List (String × Json.Reader Unit) :=
  [("address", Json.fits (Json.readOption Json.readText)),
    ("lastUpdated", Json.fits (Json.readOption Json.readText)),
    ("message", Json.fits (Json.readOption Json.readText)),
    ("observedGeneration", Json.fits (Json.readInt 64)),
    ("phase", Json.fits Phase.ofJson)]

theorem ofJson_eq_ok_iff {l : List (String × Json)} {s : RegistryStatus} :
    ofJson (.obj l) = .ok s ↔
      Json.checkFields known l = .ok () ∧
        Json.required Phase.ofJson l "phase" = .ok s.phase ∧
        Json.required (Json.readInt 64) l "observedGeneration" = .ok s.observedGeneration ∧
        Json.optional Json.readText l "address" = .ok s.address ∧
        Json.optional Json.readText l "message" = .ok s.message ∧
        Json.optional Json.readText l "lastUpdated" = .ok s.lastUpdated := by
  simp only [ofJson, bind_eq_ok_iff]
  constructor
  · rintro ⟨_, hc, _, hp, _, hg, _, ha, _, hm, _, hu, h⟩
    cases h
    exact ⟨hc, hp, hg, ha, hm, hu⟩
  · rintro ⟨hc, hp, hg, ha, hm, hu⟩
    exact ⟨_, hc, _, hp, _, hg, _, ha, _, hm, _, hu, rfl⟩

def writtenOver (s : RegistryStatus) (l : List (String × Json)) : List (String × Json) :=
  Json.put "phase" s.phase.toJson
    (Json.put "observedGeneration" (.int s.observedGeneration)
      (Json.setText "message" s.message
        (Json.setText "lastUpdated" s.lastUpdated (Json.setText "address" s.address l))))

theorem toJson_eq (s : RegistryStatus) : s.toJson = .obj
    [("address", textOrNull s.address), ("lastUpdated", textOrNull s.lastUpdated),
      ("message", textOrNull s.message), ("observedGeneration", .int s.observedGeneration),
      ("phase", s.phase.toJson)] := by
  simp only [toJson, Json.object, List.foldl_cons, List.foldl_nil, Json.put, String.reduceEq,
    String.reduceLT, if_false]

theorem merge_toJson (j : Json) (s : RegistryStatus) :
    j.merge s.toJson = .obj (s.writtenOver j.fields) := by
  rw [toJson_eq, Json.merge, Json.mergeFields_text, Json.mergeFields_text, Json.mergeFields_text]
  simp [Json.mergeFields, Json.merge, writtenOver, Phase.toJson]

theorem phase_ofJson_toJson (p : Phase) : Phase.ofJson p.toJson = .ok p := by
  cases p <;> rfl

theorem ofJson_writtenOver {l : List (String × Json)} (h : Json.checkFields known l = .ok ())
    {s : RegistryStatus}
    (hg : Json.readInt 64 (.int s.observedGeneration) = .ok s.observedGeneration) :
    ofJson (.obj (s.writtenOver l)) = .ok s := by
  have hp : Phase.ofJson s.phase.toJson = .ok s.phase := phase_ofJson_toJson s.phase
  refine ofJson_eq_ok_iff.2 ⟨?_, ?_, ?_, ?_, ?_, ?_⟩
  · refine Json.checkFields_put (Json.checkFields_put (Json.checkFields_setText
      (Json.checkFields_setText (Json.checkFields_setText h rfl _) rfl _) rfl _) ?_) ?_
    · intro f hf
      cases hf
      exact Json.fits_eq_ok_iff.2 ⟨_, hg⟩
    · intro f hf
      cases hf
      exact Json.fits_eq_ok_iff.2 ⟨_, hp⟩
  · refine Json.required_eq_ok_iff.2 ⟨_, ?_, hp⟩
    simp [writtenOver, Json.lookup_put]
  · refine Json.required_eq_ok_iff.2 ⟨_, ?_, hg⟩
    simp [writtenOver, Json.lookup_put]
  · rw [Json.optional_eq_ok_iff, writtenOver]
    simp only [Json.lookup_put, Json.lookup_setText, String.reduceEq, if_false, if_true]
    exact Json.readOption_text s.address
  · rw [Json.optional_eq_ok_iff, writtenOver]
    simp only [Json.lookup_put, Json.lookup_setText, String.reduceEq, if_false, if_true]
    exact Json.readOption_text s.message
  · rw [Json.optional_eq_ok_iff, writtenOver]
    simp only [Json.lookup_put, Json.lookup_setText, String.reduceEq, if_false, if_true]
    exact Json.readOption_text s.lastUpdated

theorem checkFields_of_readOption {j : Json} {o : Option RegistryStatus}
    (h : Json.readOption ofJson j = .ok o) : Json.checkFields known j.fields = .ok () := by
  cases j with
  | obj l =>
      obtain ⟨s, hs, -⟩ := map_eq_ok_iff.1 h
      exact (ofJson_eq_ok_iff.1 hs).1
  | _ => rfl

end RegistryStatus

theorem Json.readInt_of_readOption {bits : Nat} {j : Json} {n : Int}
    (h : readOption (readInt bits) j = .ok (some n)) : readInt bits (.int n) = .ok n := by
  cases j with
  | int i =>
      obtain ⟨_, hi, hn⟩ := map_eq_ok_iff.1 h
      cases hn
      simp only [readInt] at hi
      split at hi
      · next hr =>
          cases hi
          rw [readInt, if_pos hr]
      · cases hi
  | _ => cases h

theorem Metadata.fields_of_ofJson {j : Json} {m : Metadata} (h : ofJson j = .ok m) :
    ∃ l, j = .obj l ∧ Json.optional Json.readText l "name" = .ok m.name ∧
      Json.optional Json.readText l "namespace" = .ok m.namespace ∧
      Json.optional (Json.readInt 64) l "generation" = .ok m.generation := by
  cases j with
  | obj l =>
      simp only [ofJson, bind_eq_ok_iff] at h
      obtain ⟨_, -, _, -, _, -, _, -, _, -, _, -, _, -, _, hg, _, -, _, -, _, hn, _, hs, _, -, _, -,
        _, -, _, -, h⟩ := h
      cases h
      exact ⟨l, rfl, hn, hs, hg⟩
  | _ => cases h

theorem Metadata.ofJson_withField_version {j : Json} {m : Metadata} (h : ofJson j = .ok m)
    (v : String) :
    ofJson (j.withField "resourceVersion" (.str v)) = .ok { m with resourceVersion := some v } := by
  cases j with
  | obj l =>
      have hv : Json.optional Json.readText (Json.put "resourceVersion" (.str v) l)
          "resourceVersion" = .ok (some v) := by
        rw [Json.optional_eq_ok_iff, Json.lookup_put, if_pos rfl]
        rfl
      simp only [ofJson, bind_eq_ok_iff] at h
      obtain ⟨_, hc, h⟩ := h
      have hc' : Json.checkFields known (Json.put "resourceVersion" (.str v) l) = .ok () := by
        refine Json.checkFields_put hc ?_
        intro f hf
        cases hf
        rfl
      obtain ⟨_, h1, _, h2, _, h3, _, h4, _, h5, _, h6, _, h7, _, h8, _, h9, _, h10, _, h11, _, h12,
        _, h13, _, h14, _, h15, h⟩ := h
      cases h
      simp (disch := decide) only [Json.withField, Json.fields, ofJson, bind_eq_ok_iff,
        Json.optional_put_of_ne]
      exact ⟨_, hc', _, h1, _, h2, _, h3, _, h4, _, h5, _, h6, _, h7, _, h8, _, h9, _, h10, _, h11,
        _, h12, _, hv, _, h14, _, h15, rfl⟩
  | _ => cases h

namespace PackageRegistry

def known : List (String × Json.Reader Unit) :=
  [("metadata", Json.fits Metadata.ofJson), ("spec", Json.fits RegistrySpec.ofJson),
    ("status", Json.fits (Json.readOption RegistryStatus.ofJson))]

theorem ofJson_eq_ok_iff {l : List (String × Json)} {r : PackageRegistry} :
    ofJson (.obj l) = .ok r ↔
      Json.checkFields known l = .ok () ∧
        Json.required Metadata.ofJson l "metadata" = .ok r.metadata ∧
        Json.required RegistrySpec.ofJson l "spec" = .ok r.spec ∧
        Json.optional RegistryStatus.ofJson l "status" = .ok r.status := by
  simp only [ofJson, bind_eq_ok_iff]
  constructor
  · rintro ⟨_, hc, _, hm, _, hp, _, hs, h⟩
    cases h
    exact ⟨hc, hm, hp, hs⟩
  · rintro ⟨hc, hm, hp, hs⟩
    exact ⟨_, hc, _, hm, _, hp, _, hs, rfl⟩

def withStatus (r : PackageRegistry) (version : String) (s : RegistryStatus) : PackageRegistry :=
  ⟨{ r.metadata with resourceVersion := some version }, r.spec, some s⟩

def patched (j : Json) (s : RegistryStatus) : Json :=
  j.merge (Json.object [("status", s.toJson)])

theorem patched_eq_setAt (j : Json) (s : RegistryStatus) :
    patched j s =
      j.setAt ["status"] (.obj (s.writtenOver ((j.field? "status").getD .null).fields)) := by
  rw [← RegistryStatus.merge_toJson, patched, RegistryStatus.toJson_eq]
  simp [Json.object, Json.put, Json.merge, Json.mergeFields, Json.setAt, Json.withField,
    Json.field?]

theorem agreeOff_patched (j : Json) (s : RegistryStatus) :
    Json.AgreeOff [["status"]] j (patched j s) := by
  rw [patched_eq_setAt]
  exact Json.agreeOff_setAt j ["status"] _

theorem ofJson_patched {l : List (String × Json)} {r : PackageRegistry}
    (h : ofJson (.obj l) = .ok r) {s : RegistryStatus}
    (hg : Json.readInt 64 (.int s.observedGeneration) = .ok s.observedGeneration) (v : String) :
    ofJson ((patched (.obj l) s).setAt versionPath (.str v)) = .ok (r.withStatus v s) := by
  obtain ⟨hc, hm, hp, hs⟩ := ofJson_eq_ok_iff.1 h
  obtain ⟨m, hmeta, hread⟩ := Json.required_eq_ok_iff.1 hm
  let old := ((Table.lookup "status" l).getD .null).fields
  have hstatus : Json.readOption RegistryStatus.ofJson (.obj (s.writtenOver old)) = .ok (some s) :=
    map_eq_ok_iff.2 ⟨s, RegistryStatus.ofJson_writtenOver
      (RegistryStatus.checkFields_of_readOption (Json.optional_eq_ok_iff.1 hs)) hg, rfl⟩
  have hversion := Metadata.ofJson_withField_version hread v
  have hdoc : (patched (.obj l) s).setAt versionPath (.str v) =
      .obj (Json.put "metadata" (m.withField "resourceVersion" (.str v))
        (Json.put "status" (.obj (s.writtenOver old)) l)) := by
    rw [patched_eq_setAt]
    simp [old, Json.setAt, Json.withField, Json.field?, Json.fields, Json.lookup_put, hmeta]
  rw [hdoc]
  refine ofJson_eq_ok_iff.2 ⟨?_, ?_, ?_, ?_⟩
  · refine Json.checkFields_put (Json.checkFields_put hc ?_) ?_
    · intro f hf
      cases hf
      exact Json.fits_eq_ok_iff.2 ⟨_, hstatus⟩
    · intro f hf
      cases hf
      exact Json.fits_eq_ok_iff.2 ⟨_, hversion⟩
  · refine Json.required_eq_ok_iff.2 ⟨_, ?_, hversion⟩
    simp [Json.lookup_put]
  · obtain ⟨p, hspec, hread⟩ := Json.required_eq_ok_iff.1 hp
    refine Json.required_eq_ok_iff.2 ⟨p, ?_, hread⟩
    simp [Json.lookup_put, hspec]
  · rw [Json.optional_eq_ok_iff]
    simp only [Json.lookup_put, String.reduceEq, if_false, if_true, Option.getD_some]
    exact hstatus

theorem readInt_generation {l : List (String × Json)} {r : PackageRegistry}
    (h : ofJson (.obj l) = .ok r) : Json.readInt 64 (.int r.generation) = .ok r.generation := by
  obtain ⟨m, -, hm⟩ := Json.required_eq_ok_iff.1 (ofJson_eq_ok_iff.1 h).2.1
  obtain ⟨ml, rfl, -, -, hg⟩ := Metadata.fields_of_ofJson hm
  rw [Json.optional_eq_ok_iff] at hg
  unfold generation
  cases hgen : r.metadata.generation with
  | none => rfl
  | some g =>
      rw [hgen] at hg
      exact Json.readInt_of_readOption hg

theorem metadata_of_place {j : Json} {r : PackageRegistry} (h : ofJson j = .ok r)
    {n m : String} (hp : Managed.place j = .ok (n, m)) :
    r.metadata.namespace = some n ∧ r.metadata.name = some m ∧ ∃ l, j = .obj l := by
  obtain ⟨hname, hspace⟩ := Managed.place_eq_ok_iff.1 hp
  cases j with
  | obj l =>
      obtain ⟨d, hd, hm⟩ := Json.required_eq_ok_iff.1 (ofJson_eq_ok_iff.1 h).2.1
      obtain ⟨ml, rfl, hn, hs, -⟩ := Metadata.fields_of_ofJson hm
      have hfield (k s : String) (ht : (Json.obj l).textAt? ["metadata", k] = some s) :
          Table.lookup k ml = some (.str s) := by
        rw [Json.textAt?, Json.at?_cons, Json.field?, Json.fields, hd, Option.bind_some,
          Json.at?_singleton] at ht
        obtain ⟨v, hv, ht⟩ := Option.bind_eq_some_iff.1 ht
        cases v with
        | str t =>
            cases ht
            exact hv
        | _ => cases ht
      rw [Json.optional_eq_ok_iff, hfield "name" m hname] at hn
      rw [Json.optional_eq_ok_iff, hfield "namespace" n hspace] at hs
      exact ⟨(Except.ok.inj hs).symm, (Except.ok.inj hn).symm, l, rfl⟩
  | _ => cases hname

end PackageRegistry

end RegistryKeeper
