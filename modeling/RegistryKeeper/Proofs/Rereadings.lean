import RegistryKeeper.Proofs.LenientTimes
import RegistryKeeper.Proofs.StatusPatches

namespace RegistryKeeper

namespace Json

theorem mem_foldl_put {new l : List (String × Json)} {e : String × Json}
    (h : e ∈ new.foldl (fun l e => put e.1 e.2 l) l) : e ∈ new ∨ e ∈ l := by
  induction new generalizing l with
  | nil => exact .inr h
  | cons e' new ih =>
      rcases ih h with h | h
      · exact .inl (List.mem_cons_of_mem _ h)
      · rcases mem_put h with rfl | h
        · exact .inl List.mem_cons_self
        · exact .inr h

theorem mem_object {new : List (String × Json)} {e : String × Json}
    (h : e ∈ (object new).fields) : e ∈ new := by
  rcases mem_foldl_put h with h | h
  · exact h
  · cases h

section
variable {known : List (String × Reader Unit)}

theorem checkFields_object {new : List (String × Json)} (h : checkFields known new = .ok ()) :
    checkFields known (object new).fields = .ok () := by
  rw [checkFields_eq_ok_iff] at h ⊢
  intro e he
  exact h e (mem_object he)

def FieldFits (known : List (String × Reader Unit)) (k : String) (v : Json) : Prop :=
  ∀ f, Table.lookup k known = some f → f v = .ok ()

theorem checkFields_present {fields : List (String × Option Json)}
    (h : ∀ e ∈ fields, ∀ v, e.2 = some v → FieldFits known e.1 v) :
    checkFields known (present fields).fields = .ok () := by
  refine checkFields_object (checkFields_eq_ok_iff.2 ?_)
  intro e he
  obtain ⟨⟨k, o⟩, hmem, ho⟩ := List.mem_filterMap.1 he
  obtain ⟨v, hv, rfl⟩ := Option.map_eq_some_iff.1 ho
  exact h (k, o) hmem v hv

theorem exists_optional {α : Type} {f : Reader α} {k : String} {l : List (String × Json)}
    (h : checkFields known l = .ok ())
    (hk : Table.lookup k known = some (fits (readOption f))) : ∃ o, optional f l k = .ok o := by
  simp only [optional_eq_ok_iff]
  cases hl : Table.lookup k l with
  | none => exact ⟨none, rfl⟩
  | some j => exact fits_eq_ok_iff.1 (checkFields_eq_ok_iff.1 h _ (Table.mem_of_lookup hl) _ hk)

end

def Rereads {α : Type} (f : Reader α) (write : α → Json) : Prop :=
  ∀ j a, f j = .ok a → ∃ b, f (write a) = .ok b

section
variable {α : Type} {f : Reader α} {write : α → Json}

theorem Rereads.fieldFits (h : Rereads f write) {known : List (String × Reader Unit)} {k : String}
    (hk : Table.lookup k known = some (fits (readOption f))) {l : List (String × Json)}
    {o : Option α} (ho : optional f l k = .ok o) :
    ∀ v, o.map write = some v → FieldFits known k v := by
  intro v hv g hg
  cases hk.symm.trans hg
  obtain ⟨a, rfl, rfl⟩ := Option.map_eq_some_iff.1 hv
  have hread : ∃ j, f j = .ok a := by
    rw [optional_eq_ok_iff] at ho
    generalize (Table.lookup k l).getD .null = j at ho
    cases j with
    | null => cases ho
    | _ =>
        obtain ⟨b, hb, hab⟩ := map_eq_ok_iff.1 ho
        cases hab
        exact ⟨_, hb⟩
  obtain ⟨j, hj⟩ := hread
  obtain ⟨b, hb⟩ := h j a hj
  refine fits_eq_ok_iff.2 ?_
  generalize write a = v at hb
  cases v with
  | null => exact ⟨none, rfl⟩
  | _ => exact ⟨some b, map_eq_ok_iff.2 ⟨b, hb, rfl⟩⟩

theorem rereads_text : Rereads readText .str := fun _ s _ => ⟨s, rfl⟩

theorem rereads_int (bits : Nat) : Rereads (readInt bits) .int := by
  intro j n h
  refine ⟨n, readInt_of_readOption (j := j) ?_⟩
  cases j with
  | int i => exact map_eq_ok_iff.2 ⟨n, h, rfl⟩
  | _ => cases h

theorem exists_readEach {l : List Json} (h : ∀ j ∈ l, ∃ a, f j = .ok a) :
    ∃ as, readEach f l = .ok as := by
  induction l with
  | nil => exact ⟨[], rfl⟩
  | cons j l ih =>
      obtain ⟨⟨a, ha⟩, hl⟩ := List.forall_mem_cons.1 h
      obtain ⟨as, has⟩ := ih hl
      exact ⟨a :: as, by simp [readEach, bind_eq_ok_iff, mapError_eq_ok_iff, ha, has]; rfl⟩

theorem mem_of_readEach {l : List Json} {as : List α} (h : readEach f l = .ok as) {a : α}
    (ha : a ∈ as) : ∃ j ∈ l, f j = .ok a := by
  induction l generalizing as with
  | nil =>
      cases h
      cases ha
  | cons j l ih =>
      simp only [readEach, bind_eq_ok_iff, mapError_eq_ok_iff] at h
      obtain ⟨b, hb, bs, hbs, h⟩ := h
      cases h
      rcases List.mem_cons.1 ha with rfl | ha
      · exact ⟨j, List.mem_cons_self, hb⟩
      · obtain ⟨i, hi, hread⟩ := ih hbs ha
        exact ⟨i, List.mem_cons_of_mem _ hi, hread⟩

theorem Rereads.list (h : Rereads f write) :
    Rereads (readList f) fun as => .arr (as.map write) := by
  intro j as hj
  cases j with
  | arr l =>
      refine exists_readEach ?_
      intro v hv
      obtain ⟨a, ha, rfl⟩ := List.mem_map.1 hv
      obtain ⟨i, -, hi⟩ := mem_of_readEach hj ha
      exact h i a hi
  | _ => cases hj

end

theorem exists_readMap_stringMap (l : List (String × String)) :
    ∃ l', readMap readText (stringMap l) = .ok l' := by
  suffices h : ∀ fields : List (String × Json), (∀ e ∈ fields, ∃ s, e.2 = .str s) →
      ∃ l, readValues readText fields = .ok l by
    refine h _ ?_
    intro e he
    obtain ⟨e', -, rfl⟩ := List.mem_map.1 (mem_object he)
    exact ⟨e'.2, rfl⟩
  intro fields
  induction fields with
  | nil => exact fun _ => ⟨[], rfl⟩
  | cons e fields ih =>
      intro h
      obtain ⟨⟨s, hs⟩, hfields⟩ := List.forall_mem_cons.1 h
      obtain ⟨l, hl⟩ := ih hfields
      obtain ⟨k, v⟩ := e
      cases hs
      exact ⟨(k, s) :: l, by simp [readValues, readText, bind_eq_ok_iff, mapError_eq_ok_iff, hl]; rfl⟩

theorem rereads_textMap : Rereads (readMap readText) stringMap :=
  fun _ l _ => exists_readMap_stringMap l

theorem textAt?_cons (j : Json) (k : String) (p : List String) :
    j.textAt? (k :: p) = (j.field? k).bind fun i => i.textAt? p := by
  rw [textAt?, at?_cons]
  cases j.field? k <;> rfl

theorem text?_of_optional {k : String} {l : List (String × Json)} {o : Option String}
    (h : optional readText l k = .ok o) : o = (Table.lookup k l).bind text? := by
  rw [optional_eq_ok_iff] at h
  cases hl : Table.lookup k l with
  | none =>
      rw [hl] at h
      exact (Except.ok.inj h).symm
  | some v =>
      rw [hl, Option.getD_some] at h
      cases v with
      | null | str s => exact (Except.ok.inj h).symm
      | _ => cases h

end Json

theorem rereads_time : Json.Rereads readTime .str := by
  intro j s h
  cases j with
  | str text =>
      have hread : ∃ t, Lenient.instant text = .ok t ∧ t.secondsText = s := by
        simp only [readTime, Json.readTextAs, Json.interpret, mapError_eq_ok_iff] at h
        split at h
        · next t ht =>
            cases h
            exact ⟨t, ht, rfl⟩
        · cases h
      obtain ⟨t, ht, rfl⟩ := hread
      obtain ⟨u, hu⟩ := Lenient.instant_secondsText (Lenient.isYear_of_instant ht)
      refine ⟨u.secondsText, ?_⟩
      simp only [readTime, Json.readTextAs, Json.interpret, mapError_eq_ok_iff, hu]
  | _ => cases h

namespace OwnerReference

def known : List (String × Json.Reader Unit) :=
  [("apiVersion", ofJson.field Json.readText), ("blockOwnerDeletion", ofJson.field Json.readBool),
    ("controller", ofJson.field Json.readBool), ("kind", ofJson.field Json.readText),
    ("name", ofJson.field Json.readText), ("uid", ofJson.field Json.readText)]

theorem exists_ofJson {l : List (String × Json)} (h : Json.checkFields known l = .ok ()) :
    ∃ r, ofJson (.obj l) = .ok r := by
  obtain ⟨_, hversion⟩ := Json.exists_optional (k := "apiVersion") h rfl
  obtain ⟨_, hblock⟩ := Json.exists_optional (k := "blockOwnerDeletion") h rfl
  obtain ⟨_, hcontroller⟩ := Json.exists_optional (k := "controller") h rfl
  obtain ⟨_, hkind⟩ := Json.exists_optional (k := "kind") h rfl
  obtain ⟨_, hname⟩ := Json.exists_optional (k := "name") h rfl
  obtain ⟨_, huid⟩ := Json.exists_optional (k := "uid") h rfl
  simp only [ofJson, bind_eq_ok_iff]
  exact ⟨_, _, h, _, hversion, _, hkind, _, hname, _, huid, _, hcontroller, _, hblock, rfl⟩

theorem exists_ofJson_toJson (r : OwnerReference) : ∃ r', ofJson r.toJson = .ok r' := by
  refine exists_ofJson (l := r.toJson.fields) (Json.checkFields_present ?_)
  have htext (k s : String) (hk : Table.lookup k known = some (ofJson.field Json.readText)) :
      ∀ v, some (Json.str s) = some v → Json.FieldFits known k v := by
    rintro _ ⟨⟩ f hf
    cases hk.symm.trans hf
    rfl
  have hbool (k : String) (o : Option Bool)
      (hk : Table.lookup k known = some (ofJson.field Json.readBool)) :
      ∀ v, o.map Json.bool = some v → Json.FieldFits known k v := by
    intro v hv f hf
    obtain ⟨b, -, rfl⟩ := Option.map_eq_some_iff.1 hv
    cases hk.symm.trans hf
    rfl
  simp only [List.forall_mem_cons]
  exact ⟨htext _ _ rfl, hbool _ _ rfl, hbool _ _ rfl, htext _ _ rfl, htext _ _ rfl, htext _ _ rfl,
    List.forall_mem_nil _⟩

end OwnerReference

namespace FieldsEntry

def known : List (String × Json.Reader Unit) :=
  [("apiVersion", ofJson.field Json.readText), ("fieldsType", ofJson.field Json.readText),
    ("manager", ofJson.field Json.readText), ("operation", ofJson.field Json.readText),
    ("subresource", ofJson.field Json.readText), ("time", ofJson.field readTime)]

theorem exists_ofJson {l : List (String × Json)} (h : Json.checkFields known l = .ok ()) :
    ∃ e, ofJson (.obj l) = .ok e := by
  obtain ⟨_, hversion⟩ := Json.exists_optional (k := "apiVersion") h rfl
  obtain ⟨_, htype⟩ := Json.exists_optional (k := "fieldsType") h rfl
  obtain ⟨_, hmanager⟩ := Json.exists_optional (k := "manager") h rfl
  obtain ⟨_, hoperation⟩ := Json.exists_optional (k := "operation") h rfl
  obtain ⟨_, hsubresource⟩ := Json.exists_optional (k := "subresource") h rfl
  obtain ⟨_, htime⟩ := Json.exists_optional (k := "time") h rfl
  have hfields : ∃ o, Json.optional readFields l "fieldsV1" = .ok o := by
    simp only [Json.optional_eq_ok_iff]
    cases (Table.lookup "fieldsV1" l).getD .null <;> exact ⟨_, rfl⟩
  obtain ⟨_, hfields⟩ := hfields
  simp only [ofJson, bind_eq_ok_iff]
  exact ⟨_, _, h, _, hversion, _, htype, _, hfields, _, hmanager, _, hoperation, _, hsubresource, _,
    htime, rfl⟩

theorem rereads : Json.Rereads ofJson toJson := by
  intro j e h
  cases j with
  | obj l =>
      simp only [ofJson, bind_eq_ok_iff] at h
      obtain ⟨_, -, _, hversion, _, htype, _, -, _, hmanager, _, hoperation, _, hsubresource, _,
        htime, h⟩ := h
      cases h
      refine exists_ofJson (Json.checkFields_present ?_)
      simp only [List.forall_mem_cons]
      refine ⟨Json.rereads_text.fieldFits rfl hversion, Json.rereads_text.fieldFits rfl htype, ?_,
        Json.rereads_text.fieldFits rfl hmanager, Json.rereads_text.fieldFits rfl hoperation,
        Json.rereads_text.fieldFits rfl hsubresource, rereads_time.fieldFits rfl htime,
        List.forall_mem_nil _⟩
      rintro v - f ⟨⟩
  | _ => cases h

end FieldsEntry

namespace Metadata

theorem exists_ofJson_iff {l : List (String × Json)} :
    (∃ m, ofJson (.obj l) = .ok m) ↔ Json.checkFields known l = .ok () := by
  constructor
  · rintro ⟨m, h⟩
    simp only [ofJson, bind_eq_ok_iff] at h
    obtain ⟨_, h, -⟩ := h
    exact h
  · intro h
    obtain ⟨_, h1⟩ := Json.exists_optional (k := "annotations") h rfl
    obtain ⟨_, h2⟩ := Json.exists_optional (k := "creationTimestamp") h rfl
    obtain ⟨_, h3⟩ := Json.exists_optional (k := "deletionGracePeriodSeconds") h rfl
    obtain ⟨_, h4⟩ := Json.exists_optional (k := "deletionTimestamp") h rfl
    obtain ⟨_, h5⟩ := Json.exists_optional (k := "finalizers") h rfl
    obtain ⟨_, h6⟩ := Json.exists_optional (k := "generateName") h rfl
    obtain ⟨_, h7⟩ := Json.exists_optional (k := "generation") h rfl
    obtain ⟨_, h8⟩ := Json.exists_optional (k := "labels") h rfl
    obtain ⟨_, h9⟩ := Json.exists_optional (k := "managedFields") h rfl
    obtain ⟨_, h10⟩ := Json.exists_optional (k := "name") h rfl
    obtain ⟨_, h11⟩ := Json.exists_optional (k := "namespace") h rfl
    obtain ⟨_, h12⟩ := Json.exists_optional (k := "ownerReferences") h rfl
    obtain ⟨_, h13⟩ := Json.exists_optional (k := "resourceVersion") h rfl
    obtain ⟨_, h14⟩ := Json.exists_optional (k := "selfLink") h rfl
    obtain ⟨_, h15⟩ := Json.exists_optional (k := "uid") h rfl
    simp only [ofJson, bind_eq_ok_iff]
    exact ⟨_, _, h, _, h1, _, h2, _, h3, _, h4, _, h5, _, h6, _, h7, _, h8, _, h9, _, h10, _, h11,
      _, h12, _, h13, _, h14, _, h15, rfl⟩

theorem exists_ofJson_object {fields : List (String × Json)}
    (h : Json.checkFields known fields = .ok ()) : ∃ m, ofJson (Json.object fields) = .ok m :=
  (exists_ofJson_iff (l := (Json.object fields).fields)).2 (Json.checkFields_object h)

theorem textAt?_toJson {l : List (String × Json)} {m : Metadata} (h : ofJson (.obj l) = .ok m)
    {f : String} (hf : f ∈ ["name", "namespace", "resourceVersion"]) :
    m.toJson.textAt? [f] = (Json.obj l).textAt? [f] := by
  simp only [ofJson, bind_eq_ok_iff] at h
  obtain ⟨_, -, _, -, _, -, _, -, _, -, _, -, _, -, _, -, _, -, _, -, _, hn, _, hs, _, -, _, hv,
    _, -, _, -, h⟩ := h
  cases h
  have hn := Json.text?_of_optional hn
  have hs := Json.text?_of_optional hs
  have hv := Json.text?_of_optional hv
  have hstr (o : Option String) : (o.map Json.str).bind Json.text? = o := by cases o <;> rfl
  simp only [List.mem_cons, List.not_mem_nil, or_false] at hf
  rw [Json.textAt?, Json.textAt?, Json.at?_singleton, Json.at?_singleton, toJson,
    Json.field?_present (by simp)]
  rcases hf with rfl | rfl | rfl
  · exact (hstr _).trans hn
  · exact (hstr _).trans hs
  · exact (hstr _).trans hv

theorem rereads : Json.Rereads ofJson toJson := by
  intro j m h
  cases j with
  | obj l =>
      simp only [ofJson, bind_eq_ok_iff] at h
      obtain ⟨_, -, _, h1, _, h2, _, h3, _, h4, _, h5, _, h6, _, h7, _, h8, _, h9, _, h10, _, h11,
        _, h12, _, h13, _, h14, _, h15, h⟩ := h
      cases h
      have hint := Json.rereads_int 64
      have howners : Json.Rereads OwnerReference.ofJson OwnerReference.toJson :=
        fun _ r _ => r.exists_ofJson_toJson
      refine exists_ofJson_iff.2 (Json.checkFields_present ?_)
      simp only [List.forall_mem_cons]
      exact ⟨Json.rereads_textMap.fieldFits rfl h1, rereads_time.fieldFits rfl h2,
        hint.fieldFits rfl h3, rereads_time.fieldFits rfl h4,
        Json.rereads_text.list.fieldFits rfl h5, Json.rereads_text.fieldFits rfl h6,
        hint.fieldFits rfl h7, Json.rereads_textMap.fieldFits rfl h8,
        FieldsEntry.rereads.list.fieldFits rfl h9, Json.rereads_text.fieldFits rfl h10,
        Json.rereads_text.fieldFits rfl h11, howners.list.fieldFits rfl h12,
        Json.rereads_text.fieldFits rfl h13, Json.rereads_text.fieldFits rfl h14,
        Json.rereads_text.fieldFits rfl h15, List.forall_mem_nil _⟩
  | _ => cases h

end Metadata

end RegistryKeeper
