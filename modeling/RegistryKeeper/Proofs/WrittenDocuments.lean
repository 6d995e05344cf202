import RegistryKeeper.Proofs.ReadableObjects
import RegistryKeeper.Proofs.ServerStates

namespace RegistryKeeper

namespace Json

theorem lookup_eq_none_of_lt {k : String} {l : List (String × Json)} (h : ∀ e ∈ l, k < e.1) :
    Table.lookup k l = none := by
  refine lookup_eq_none_of_notMem fun hmem => ?_
  obtain ⟨e, he, rfl⟩ := List.mem_map.1 hmem
  exact String.lt_irrefl _ (h e he)

theorem fields_ext {l l' : List (String × Json)} (h : l.Pairwise fun a b => a.1 < b.1)
    (h' : l'.Pairwise fun a b => a.1 < b.1)
    (heq : ∀ k, Table.lookup k l = Table.lookup k l') : l = l' := by
  induction l generalizing l' with
  | nil =>
      cases l' with
      | nil => rfl
      | cons e l' =>
          have hfirst := heq e.1
          simp [Table.lookup] at hfirst
  | cons e l ih =>
      obtain ⟨hlt, hl⟩ := List.pairwise_cons.1 h
      cases l' with
      | nil =>
          have hfirst := heq e.1
          simp [Table.lookup] at hfirst
      | cons e' l' =>
          obtain ⟨hlt', hl'⟩ := List.pairwise_cons.1 h'
          have below {a b : String × Json} {r : List (String × Json)} (hab : a.1 < b.1)
              (hr : ∀ c ∈ r, b.1 < c.1) : Table.lookup a.1 (b :: r) = none := by
            refine lookup_eq_none_of_lt fun c hc => ?_
            rcases List.mem_cons.1 hc with rfl | hc
            · exact hab
            · exact String.lt_trans hab (hr c hc)
          rcases Std.lt_trichotomy e.1 e'.1 with hk | hk | hk
          · have hfirst := heq e.1
            rw [below hk hlt'] at hfirst
            simp [Table.lookup] at hfirst
          · have hfirst := heq e.1
            obtain ⟨k, v⟩ := e
            obtain ⟨k', v'⟩ := e'
            obtain rfl : k = k' := hk
            simp only [Table.lookup, if_true, Option.some.injEq] at hfirst
            subst hfirst
            refine congrArg _ (ih hl hl' fun q => ?_)
            by_cases hq : k = q
            · subst hq
              rw [lookup_eq_none_of_lt hlt, lookup_eq_none_of_lt hlt']
            · have hrest := heq q
              simpa only [Table.lookup, if_neg hq] using hrest
          · have hfirst := heq e'.1
            rw [below hk hlt] at hfirst
            simp [Table.lookup] at hfirst

theorem ordered_present (l : List (String × Option Json)) : (present l).Ordered :=
  ordered_object _

theorem keys_set {l : List (String × Option Json)} {i : Nat} {k : String} {o : Option Json}
    (hi : l[i]? = some (k, o)) (v : Option Json) :
    (l.set i (k, v)).map (·.1) = l.map (·.1) := by
  induction l generalizing i with
  | nil => rfl
  | cons e l ih =>
      cases i with
      | zero =>
          cases hi
          rfl
      | succ i => exact congrArg (e.1 :: ·) (ih hi)

theorem lookup_set {l : List (String × Option Json)} (h : (l.map (·.1)).Nodup) {i : Nat}
    {k : String} {o : Option Json} (hi : l[i]? = some (k, o)) (v : Option Json) (q : String) :
    Table.lookup q (l.set i (k, v)) = if k = q then some v else Table.lookup q l := by
  induction l generalizing i with
  | nil => cases hi
  | cons e l ih =>
      obtain ⟨hnot, hl⟩ := List.nodup_cons.1 h
      cases i with
      | zero =>
          cases hi
          by_cases hq : k = q <;> simp [Table.lookup, hq]
      | succ i =>
          have hrest := ih hl hi
          have hne : e.1 ≠ k := by
            rintro rfl
            exact hnot (List.mem_map.2 ⟨_, List.mem_of_getElem? hi, rfl⟩)
          rw [List.set_cons_succ, Table.lookup, Table.lookup, hrest]
          by_cases hq : e.1 = q
          · subst hq
            simp [Ne.symm hne]
          · simp [hq]

theorem withField_present {l : List (String × Option Json)} (h : (l.map (·.1)).Nodup) {i : Nat}
    {k : String} {o : Option Json} (hi : l[i]? = some (k, o)) (v : Json) :
    (present l).withField k v = present (l.set i (k, some v)) := by
  have hset : ((l.set i (k, some v)).map (·.1)).Nodup := by
    rw [keys_set hi]
    exact h
  refine congrArg obj
    (fields_ext (pairwise_put (ordered_present l) k v) (ordered_present (l.set i (k, some v))) ?_)
  intro q
  refine (field?_withField (present l) k q v).trans ?_
  refine Eq.trans ?_ (field?_present hset q).symm
  rw [field?_present h, lookup_set h hi]
  split <;> rfl

end Json

namespace Metadata

def Written (j : Json) : Prop := ∃ m, ofJson j = .ok m ∧ m.toJson = j

theorem ofJson_withField_uid {j : Json} {m : Metadata} (h : ofJson j = .ok m) (u : String) :
    ofJson (j.withField "uid" (.str u)) = .ok { m with uid := some u } := by
  cases j with
  | obj l =>
      have hu : Json.optional Json.readText (Json.put "uid" (.str u) l) "uid" = .ok (some u) := by
        rw [Json.optional_eq_ok_iff, Json.lookup_put, if_pos rfl]
        rfl
      simp only [ofJson, bind_eq_ok_iff] at h
      obtain ⟨_, hc, h⟩ := h
      have hc' : Json.checkFields known (Json.put "uid" (.str u) l) = .ok () := by
        refine Json.checkFields_put hc ?_
        rintro f ⟨⟩
        rfl
      obtain ⟨_, h1, _, h2, _, h3, _, h4, _, h5, _, h6, _, h7, _, h8, _, h9, _, h10, _, h11, _, h12,
        _, h13, _, h14, _, -, h⟩ := h
      cases h
      simp (disch := decide) only [Json.withField, Json.fields, ofJson, bind_eq_ok_iff,
        Json.optional_put_of_ne]
      exact ⟨_, hc', _, h1, _, h2, _, h3, _, h4, _, h5, _, h6, _, h7, _, h8, _, h9, _, h10, _, h11,
        _, h12, _, h13, _, h14, _, hu, rfl⟩
  | _ => cases h

theorem withField_version_toJson (m : Metadata) (v : String) :
    m.toJson.withField "resourceVersion" (.str v) =
      { m with resourceVersion := some v }.toJson :=
  Json.withField_present (i := 12) (by simp) rfl _

theorem withField_uid_toJson (m : Metadata) (u : String) :
    m.toJson.withField "uid" (.str u) = { m with uid := some u }.toJson :=
  Json.withField_present (i := 14) (by simp) rfl _

theorem Written.version {j : Json} (h : Written j) (v : String) :
    Written (j.withField "resourceVersion" (.str v)) := by
  obtain ⟨m, hm, rfl⟩ := h
  exact ⟨_, ofJson_withField_version hm v, (m.withField_version_toJson v).symm⟩

theorem Written.uid {j : Json} (h : Written j) (u : String) :
    Written (j.withField "uid" (.str u)) := by
  obtain ⟨m, hm, rfl⟩ := h
  exact ⟨_, ofJson_withField_uid hm u, (m.withField_uid_toJson u).symm⟩

end Metadata

namespace Managed
variable {k : ManagedKind} {j : Json}

def commonFields : List String := ["apiVersion", "kind", "metadata"]

/-- All that the document holds is read, and is written as it stands. -/
structure Written (k : ManagedKind) (j : Json) : Prop where
  readable : Readable k j
  ordered : j.Ordered
  apiVersion : j.field? "apiVersion" = some (.str k.apiVersion)
  kind : j.field? "kind" = some (.str k.name)
  metadata : ∃ d, j.field? "metadata" = some d ∧ Metadata.Written d
  contents : ∀ f v, j.field? f = some v → f ∈ commonFields ∨ f ∈ k.contents ∧ v ≠ .null
  roleRef : k = .roleBinding → (j.field? "roleRef").isSome

theorem notMem_contents {f : String} (hf : f ∈ commonFields) : f ∉ k.contents := by
  revert f
  cases k <;> decide

def ownFields (k : ManagedKind) (l : List (String × Json)) : List (String × Json) :=
  l.filter fun e => e.1 ∈ k.contents ∧ e.2 ≠ .null

theorem lookup_ownFields {l : List (String × Json)} (h : (Json.obj l).Ordered) (f : String) :
    Table.lookup f (ownFields k l) =
      (Table.lookup f l).filter fun v => f ∈ k.contents ∧ v ≠ .null :=
  Table.lookup_filter (fun f v => decide (f ∈ k.contents ∧ v ≠ Json.null)) f h.nodup_keys

def assembled (k : ManagedKind) (metadata : Json) (own : List (String × Json)) :
    List (String × Json) :=
  ("apiVersion", .str k.apiVersion) :: ("kind", .str k.name) :: ("metadata", metadata) :: own

theorem lookup_assembled (metadata : Json) {own : List (String × Json)} {f : String}
    (hf : f ∉ commonFields) : Table.lookup f (assembled k metadata own) = Table.lookup f own := by
  simp only [commonFields, List.mem_cons, List.not_mem_nil, or_false, not_or] at hf
  simp only [assembled, Table.lookup, Ne.symm hf.1, Ne.symm hf.2.1, Ne.symm hf.2.2, if_false]

theorem nodup_assembled (metadata : Json) {own : List (String × Json)}
    (hown : (own.map (·.1)).Nodup) (hkeys : ∀ f ∈ own.map (·.1), f ∈ k.contents) :
    ((assembled k metadata own).map (·.1)).Nodup := by
  have hnot (f : String) (hf : f ∈ commonFields) : f ∉ own.map (·.1) :=
    fun hmem => notMem_contents hf (hkeys f hmem)
  have hversion := hnot "apiVersion" (by decide)
  have hkind := hnot "kind" (by decide)
  have hmetadata := hnot "metadata" (by decide)
  simp only [assembled, List.map_cons, List.nodup_cons, List.mem_cons, not_or]
  exact ⟨⟨by decide, by decide, hversion⟩, ⟨by decide, hkind⟩, hmetadata, hown⟩

theorem field?_assembled (metadata : Json) {own : List (String × Json)}
    (hown : (own.map (·.1)).Nodup) (hkeys : ∀ f ∈ own.map (·.1), f ∈ k.contents) (f : String) :
    (Json.object (assembled k metadata own)).field? f =
      Table.lookup f (assembled k metadata own) := by
  rw [Json.field?_object, Json.lookup_reverse f (nodup_assembled metadata hown hkeys)]

theorem mem_keys_ownFields {l : List (String × Json)} {f : String}
    (h : f ∈ (ownFields k l).map (·.1)) : f ∈ k.contents := by
  obtain ⟨e, he, rfl⟩ := List.mem_map.1 h
  have hown := (List.mem_filter.1 he).2
  simp only [decide_eq_true_eq] at hown
  exact hown.1

theorem nodup_ownFields {l : List (String × Json)} (h : (Json.obj l).Ordered) :
    ((ownFields k l).map (·.1)).Nodup :=
  h.nodup_keys.sublist (List.filter_sublist.map _)

namespace Written

theorem lookup_ownFields {l : List (String × Json)} (h : Written k (.obj l)) {f : String}
    (hf : f ∉ commonFields) : Table.lookup f (ownFields k l) = Table.lookup f l := by
  rw [Managed.lookup_ownFields h.ordered]
  cases hv : Table.lookup f l with
  | none => rfl
  | some v =>
      obtain hcommon | hcontents := h.contents f v hv
      · exact absurd hcommon hf
      · simp [Option.filter, hcontents]

theorem ofJson_eq (h : Written k j) : ofJson k j = .ok j := by
  obtain ⟨l, rfl, hfits⟩ := readable_iff.1 h.readable
  obtain ⟨d, hd, m, hread, rfl⟩ := h.metadata
  have hlookup : Table.lookup "metadata" l = some m.toJson := hd
  have hmetadata : Json.optional Metadata.ofJson l "metadata" = .ok (some m) := by
    rw [Json.optional_eq_ok_iff, hlookup]
    refine map_eq_ok_iff.2 ⟨m, ?_⟩
    exact ⟨hread, rfl⟩
  have hroleRef : ¬ (k = .roleBinding ∧ (Table.lookup "roleRef" (ownFields k l)).isNone) := by
    rintro ⟨rfl, hnone⟩
    have hsome : (Table.lookup "roleRef" l).isSome := h.roleRef rfl
    rw [h.lookup_ownFields (by decide), Option.isNone_iff_eq_none] at hnone
    rw [hnone] at hsome
    cases hsome
  have hassembled : Json.object (assembled k m.toJson (ownFields k l)) = .obj l := by
    have hordered := Json.ordered_object (assembled k m.toJson (ownFields k l))
    refine congrArg Json.obj (Json.fields_ext hordered h.ordered fun f => ?_)
    refine (field?_assembled m.toJson (nodup_ownFields h.ordered)
      (fun _ => mem_keys_ownFields) f).trans ?_
    by_cases hf : f ∈ commonFields
    · simp only [commonFields, List.mem_cons, List.not_mem_nil, or_false] at hf
      obtain rfl | rfl | rfl := hf
      · exact h.apiVersion.symm
      · exact h.kind.symm
      · exact hd.symm
    · rw [lookup_assembled m.toJson hf, h.lookup_ownFields hf]
  simp only [ofJson, bind_eq_ok_iff]
  refine ⟨(), hfits, some m, hmetadata, ?_⟩
  rw [← ownFields, if_neg hroleRef]
  exact congrArg Except.ok hassembled

theorem withMetadata (h : Written k j) {d : Json} (hd : Metadata.Written d)
    (hr : Readable k (j.withField "metadata" d)) : Written k (j.withField "metadata" d) := by
  have hkeep (f : String) (hf : "metadata" ≠ f) :
      (j.withField "metadata" d).field? f = j.field? f :=
    (Json.field?_withField ..).trans (if_neg hf)
  refine ⟨hr, Json.pairwise_put h.ordered _ _, ?_, ?_, ⟨d, ?_, hd⟩, ?_, ?_⟩
  · exact (hkeep _ (by decide)).trans h.apiVersion
  · exact (hkeep _ (by decide)).trans h.kind
  · exact (Json.field?_withField ..).trans (if_pos rfl)
  · intro f v hv
    by_cases hf : "metadata" = f
    · exact .inl (hf ▸ by decide)
    · exact h.contents f v ((hkeep f hf).symm.trans hv)
  · intro hk
    rw [hkeep _ (by decide)]
    exact h.roleRef hk

theorem withField (h : Written k j) {f : String} (hf : f ∈ k.contents) {v : Json}
    (hv : v ≠ .null) (hr : Readable k (j.withField f v)) : Written k (j.withField f v) := by
  have hkeep (f' : String) (hne : f ≠ f') : (j.withField f v).field? f' = j.field? f' :=
    (Json.field?_withField ..).trans (if_neg hne)
  have hcommon (f' : String) (hf' : f' ∈ commonFields) : f ≠ f' := by
    rintro rfl
    exact notMem_contents hf' hf
  refine ⟨hr, Json.pairwise_put h.ordered _ _, ?_, ?_, ?_, ?_, ?_⟩
  · exact (hkeep _ (hcommon _ (by decide))).trans h.apiVersion
  · exact (hkeep _ (hcommon _ (by decide))).trans h.kind
  · obtain ⟨d, hd, hwritten⟩ := h.metadata
    exact ⟨d, (hkeep _ (hcommon _ (by decide))).trans hd, hwritten⟩
  · intro f' v' hv'
    by_cases hne : f = f'
    · subst hne
      rw [Json.field?_withField, if_pos rfl, Option.some.injEq] at hv'
      exact .inr ⟨hf, hv' ▸ hv⟩
    · exact h.contents f' v' ((hkeep f' hne).symm.trans hv')
  · intro hk
    rw [Json.field?_withField]
    split
    · rfl
    · exact h.roleRef hk

theorem withVersion (h : Written k j) (v : String) :
    Written k (j.setAt versionPath (.str v)) := by
  obtain ⟨d, hd, hwritten⟩ := h.metadata
  have hset : j.setAt versionPath (.str v) =
      j.withField "metadata" (d.withField "resourceVersion" (.str v)) :=
    (Json.withField_withField_eq_setAt hd "resourceVersion" (.str v)).symm
  have hr : Readable k (j.setAt versionPath (.str v)) := h.readable.stamp rfl v
  rw [hset] at hr ⊢
  exact h.withMetadata (hwritten.version v) hr

theorem withUid (h : Written k j) (u : String) : Written k (j.setAt uidPath (.str u)) := by
  obtain ⟨d, hd, hwritten⟩ := h.metadata
  have hset : j.setAt uidPath (.str u) = j.withField "metadata" (d.withField "uid" (.str u)) :=
    (Json.withField_withField_eq_setAt hd "uid" (.str u)).symm
  have hr : Readable k (j.setAt uidPath (.str u)) := h.readable.stamp rfl u
  rw [hset] at hr ⊢
  exact h.withMetadata (hwritten.uid u) hr

theorem withIdentity (h : Written k j) (v : Nat) : Written k (withIdentity v j) := by
  cases hu : j.blankAt uidPath with
  | true =>
      rw [withIdentity_of_no_uid hu]
      exact (h.withVersion _).withUid _
  | false =>
      rw [withIdentity_of_uid hu]
      exact h.withVersion _

theorem withAddress (h : Written .service j) (a : String) :
    Written .service (j.setAt addressPath (.str a)) :=
  h.withField (by decide) Json.noConfusion (h.readable.withAddress a)

theorem withUnread (h : Written k j) {f : String} (hf : f ∈ k.contents)
    (hunread : Table.lookup f (known k) = none) {v : Json} (hv : v ≠ .null) :
    Written k (j.withField f v) := by
  refine h.withField hf hv (h.readable.withField fun g hg => ?_)
  cases hunread.symm.trans hg

theorem amend (h : Written k j) (b : Blueprint) (command : List String)
    (sources : List SourceRef) :
    Written k (Managed.amend k j (b.desired command sources k)) := by
  cases k with
  | serviceAccount | service => exact h
  | role =>
      have hamend : Managed.amend .role j (b.desired command sources .role) =
          j.withField "rules" (Blueprint.rules sources) := b.amend_role sources j
      rw [hamend]
      exact h.withUnread (by decide) rfl Json.noConfusion
  | roleBinding =>
      have hamend : Managed.amend .roleBinding j (b.desired command sources .roleBinding) =
          (j.withField "roleRef" b.roleRef).withField "subjects" b.subjects :=
        b.amend_roleBinding j
      rw [hamend]
      have hroleRef := h.withUnread (f := "roleRef") (by decide) rfl (v := b.roleRef)
        Json.noConfusion
      exact hroleRef.withUnread (by decide) rfl Json.noConfusion
  | deployment =>
      have hr : Readable .deployment (Managed.amend .deployment j (b.deployment command)) :=
        h.readable.amend
      change Written .deployment (Managed.amend .deployment j (b.deployment command))
      cases hspec : j.field? "spec" with
      | none =>
          rw [b.amend_deployment_of_no_spec command hspec] at hr ⊢
          exact h.withField (by decide) Json.noConfusion hr
      | some own =>
          rw [b.amend_deployment_of_spec command hspec,
            ← Json.withField_withField_eq_setAt hspec] at hr ⊢
          exact h.withField (by decide) Json.noConfusion hr

end Written

def takenOver (k : ManagedKind) (l : List (String × Json)) : List (String × Json) :=
  if k = .roleBinding ∧ (Table.lookup "roleRef" (ownFields k l)).isNone then
    Json.put "roleRef" emptyRoleRef (ownFields k l)
  else ownFields k l

theorem ordered_takenOver {l : List (String × Json)} (h : (Json.obj l).Ordered) :
    (Json.obj (takenOver k l)).Ordered := by
  have hown : (Json.obj (ownFields k l)).Ordered := List.Pairwise.filter _ h
  unfold takenOver
  split
  · exact Json.pairwise_put hown _ _
  · exact hown

theorem of_mem_takenOver {l : List (String × Json)} {e : String × Json} (h : e ∈ takenOver k l) :
    e.1 ∈ k.contents ∧ e.2 ≠ .null := by
  have hown (he : e ∈ ownFields k l) : e.1 ∈ k.contents ∧ e.2 ≠ .null := by
    simpa using (List.mem_filter.1 he).2
  unfold takenOver at h
  split at h
  · next hk =>
      obtain rfl | he := Json.mem_put h
      · rw [hk.1]
        exact ⟨by decide, Json.noConfusion⟩
      · exact hown he
  · exact hown h

theorem roleRef_takenOver (l : List (String × Json)) :
    (Table.lookup "roleRef" (takenOver .roleBinding l)).isSome := by
  unfold takenOver
  split
  · rw [Json.lookup_put, if_pos rfl]
    rfl
  · next hk => simpa [Option.isSome_iff_ne_none] using hk

theorem written_of_ofJson (h : ofJson k j = .ok j) : Written k j := by
  have hr : Readable k j := ⟨j, h⟩
  obtain ⟨l, rfl, -⟩ := readable_iff.1 hr
  simp only [ofJson, bind_eq_ok_iff] at h
  obtain ⟨_, -, o, ho, h⟩ := h
  have hdoc : Json.object (assembled k (o.getD .empty).toJson (takenOver k l)) = .obj l :=
    Except.ok.inj h
  have hordered : (Json.obj l).Ordered := hdoc ▸ Json.ordered_object _
  have htaken := ordered_takenOver (k := k) hordered
  have hfield (f : String) : (Json.obj l).field? f =
      Table.lookup f (assembled k (o.getD .empty).toJson (takenOver k l)) := by
    rw [← hdoc]
    refine field?_assembled _ htaken.nodup_keys (fun f hf => ?_) f
    obtain ⟨e, he, rfl⟩ := List.mem_map.1 hf
    exact (of_mem_takenOver he).1
  have hmetadata : Metadata.Written (o.getD .empty).toJson := by
    have hd : Table.lookup "metadata" l = some (o.getD .empty).toJson := hfield "metadata"
    rw [Json.optional_eq_ok_iff, hd] at ho
    have hread : some <$> Metadata.ofJson (o.getD .empty).toJson = .ok o := ho
    obtain ⟨m, hm, rfl⟩ := map_eq_ok_iff.1 hread
    exact ⟨m, hm, rfl⟩
  refine ⟨hr, hordered, hfield _, hfield _, ⟨_, hfield _, hmetadata⟩, ?_, ?_⟩
  · intro f v hv
    by_cases hf : f ∈ commonFields
    · exact .inl hf
    · rw [hfield, lookup_assembled _ hf] at hv
      exact .inr (of_mem_takenOver (Table.mem_of_lookup hv))
  · rintro rfl
    rw [hfield, lookup_assembled _ (by decide)]
    exact roleRef_takenOver l

end Managed

theorem Store.written_write {κ : Type} [DecidableEq κ] (s : Store κ) (p : Place κ)
    {k : ManagedKind} {isService : Bool} (hk : isService = true → k = .service) {j : Json}
    (h : Managed.Written k j) : Managed.Written k (s.write p isService j).1 := by
  have hstamped := h.withIdentity (s.versions + 1)
  rw [write_fst, addressed]
  split
  · next hawaits =>
      obtain rfl : k = .service := hk (Bool.and_eq_true_iff.1 hawaits).1
      cases s.addressing with
      | drawn => exact hstamped.withAddress _
      | fixed address => exact hstamped.withAddress _
      | absent => exact hstamped
  · exact hstamped

namespace Blueprint
variable (b : Blueprint)

def readMetadata : Metadata :=
  { Metadata.empty with
      labels := some
        [("app.kubernetes.io/instance", b.name),
          ("app.kubernetes.io/managed-by", "appregistry-operator"),
          ("app.kubernetes.io/name", serverBinary)],
      name := some b.name,
      «namespace» := some b.namespace,
      ownerReferences := some [b.owner] }

theorem labels_eq : Json.stringMap (objectLabels b.name) = .obj
    [("app.kubernetes.io/instance", .str b.name),
      ("app.kubernetes.io/managed-by", .str "appregistry-operator"),
      ("app.kubernetes.io/name", .str serverBinary)] := by
  simp only [Json.stringMap, objectLabels, podLabels, Json.object, List.map_cons, List.map_nil,
    List.foldl_cons, List.foldl_nil, Json.put, String.reduceEq, String.reduceLT, if_false, if_true]

theorem owner_eq : b.owner.toJson = .obj
    [("apiVersion", .str RegistryKeeper.apiVersion), ("blockOwnerDeletion", .bool true),
      ("controller", .bool true), ("kind", .str PackageRegistry.kind), ("name", .str b.name),
      ("uid", .str b.uid)] := by
  simp only [OwnerReference.toJson, owner, Json.present, Json.object, List.filterMap_cons,
    List.filterMap_nil, Option.map_some, List.foldl_cons, List.foldl_nil, Json.put,
    String.reduceEq, String.reduceLT, if_false]

theorem metadata_eq : b.metadata = .obj
    [("labels", Json.stringMap (objectLabels b.name)), ("name", .str b.name),
      ("namespace", .str b.namespace), ("ownerReferences", .arr [b.owner.toJson])] := by
  simp only [metadata, Json.object, List.foldl_cons, List.foldl_nil, Json.put, String.reduceEq,
    String.reduceLT, if_false]

theorem written_metadata : Metadata.Written b.metadata := by
  refine ⟨b.readMetadata, ?_, ?_⟩
  · rw [metadata_eq, labels_eq, owner_eq]
    rfl
  · rw [metadata_eq, labels_eq]
    simp only [Metadata.toJson, readMetadata, Metadata.empty, Json.present, Json.stringMap,
      Json.object, List.filterMap_cons, List.filterMap_nil, Option.map_some, Option.map_none,
      List.map_cons, List.map_nil, List.foldl_cons, List.foldl_nil, Json.put, String.reduceEq,
      String.reduceLT, if_false]

theorem written_document {k : ManagedKind} {own : List (String × Json)}
    (hown : (own.map (·.1)).Nodup) (hkeys : ∀ e ∈ own, e.1 ∈ k.contents ∧ e.2 ≠ .null)
    (hr : Managed.Readable k (b.document k own))
    (hroleRef : k = .roleBinding → (Table.lookup "roleRef" own).isSome) :
    Managed.Written k (b.document k own) := by
  have hfield (f : String) : (b.document k own).field? f =
      Table.lookup f (Managed.assembled k b.metadata own) := by
    refine Managed.field?_assembled b.metadata hown (fun f hf => ?_) f
    obtain ⟨e, he, rfl⟩ := List.mem_map.1 hf
    exact (hkeys e he).1
  refine ⟨hr, Json.ordered_object _, hfield _, hfield _, ⟨b.metadata, hfield _, b.written_metadata⟩,
    ?_, ?_⟩
  · intro f v hv
    by_cases hf : f ∈ Managed.commonFields
    · exact .inl hf
    · rw [hfield, Managed.lookup_assembled b.metadata hf] at hv
      exact .inr (hkeys _ (Table.mem_of_lookup hv))
  · intro hk
    rw [hfield, Managed.lookup_assembled b.metadata (by decide)]
    exact hroleRef hk

theorem written_desired (command : List String) (sources : List SourceRef) (k : ManagedKind) :
    Managed.Written k (b.desired command sources k) := by
  have hr := b.readable_desired command sources k
  cases k with
  | serviceAccount => exact b.written_document (by simp) (by simp) hr (by simp)
  | role => exact b.written_document (by simp) (by simp [ManagedKind.contents]) hr (by simp)
  | roleBinding =>
      refine b.written_document (by simp) ?_ hr fun _ => rfl
      simp [ManagedKind.contents, roleRef, subjects, Json.object]
  | deployment =>
      refine b.written_document (by simp) ?_ hr (by simp)
      simp [ManagedKind.contents, Json.object]
  | service =>
      refine b.written_document (by simp) ?_ hr (by simp)
      simp [ManagedKind.contents, Json.object]

end Blueprint

end RegistryKeeper
