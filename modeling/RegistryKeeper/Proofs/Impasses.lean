import RegistryKeeper.Proofs.Reports
import RegistryKeeper.Proofs.Settings

namespace RegistryKeeper

def noAddress : Failure := .reconcileFailed "Service has no cluster IP assigned"

def flaw? (k : ManagedKind) : Except Failure Json → Option Failure
  | .error f => some f
  | .ok j =>
      if k = .service then
        match addressOfService j with
        | .error f => some f
        | .ok _ => none
      else none

theorem flaw?_ok_of_ne {k : ManagedKind} (h : k ≠ .service) (j : Json) : flaw? k (.ok j) = none := by
  rw [flaw?, if_neg h]

theorem flaw?_of_spec {j spec : Json} (h : j.field? "spec" = some spec) {port : Json}
    {ports : List Json} (hp : spec.field? "ports" = some (.arr (port :: ports))) :
    flaw? .service (.ok j) =
      match (spec.textAt? ["clusterIP"]).filter fun a => a ≠ "" ∧ a ≠ "None" with
      | some _ => none
      | none => some noAddress := by
  simp only [flaw?, addressOfService, h, hp, if_true, Option.getD_some, Json.items]
  cases (spec.textAt? ["clusterIP"]).filter fun a => a ≠ "" ∧ a ≠ "None" <;> rfl

namespace Blueprint

def serviceSpec (b : Blueprint) : Json :=
  Json.object [("ports", .arr [servicePort]), ("selector", Json.stringMap (podLabels b.name))]

theorem field?_service_spec (b : Blueprint) : b.service.field? "spec" = some b.serviceSpec := by
  simp [service, document, Json.field?_object, Table.lookup, serviceSpec, servicePort]

theorem field?_serviceSpec_ports (b : Blueprint) :
    b.serviceSpec.field? "ports" = some (.arr [servicePort]) := by
  simp [serviceSpec, Json.field?_object, Table.lookup]

theorem textAt?_serviceSpec_address (b : Blueprint) : b.serviceSpec.textAt? ["clusterIP"] = none := by
  simp [serviceSpec, Json.textAt?, Json.field?_object, Table.lookup]

end Blueprint

namespace Setting

def mintFlaw? (c : Setting) : Option Failure :=
  match c.addressing with
  | .drawn => none
  | .fixed address => if address = "" ∨ address = "None" then some noAddress else none
  | .absent => some noAddress

def makingFlaw? (c : Setting) (k : ManagedKind) (v : Option Json) : Option Failure :=
  match c.creationFailure? k v with
  | none => if k = .service then c.mintFlaw? else none
  | some f =>
      if f.isAlreadyExists then
        match k.drift with
        | .renew => flaw? k ((fun o => o.getD (c.desired k)) <$> c.read k v)
        | .leave | .amend => none
      else some f

def flawAt? (c : Setting) (k : ManagedKind) (v : Option Json) : Option Failure :=
  match c.read k v with
  | .error f => some f
  | .ok none => c.makingFlaw? k v
  | .ok (some live) =>
      match k.drift with
      | .leave => none
      | .amend => c.replacementFailure? k (Managed.amend k live (c.desired k))
      | .renew => c.makingFlaw? k (c.remaining k v)

variable {c : Setting} {k : ManagedKind} {v v' v'' : Option Json} {o o' : Except Failure Json}
  {f : Failure}

theorem ne_service_of_drift (h : k.drift ≠ .renew) : k ≠ .service := by
  rintro rfl
  exact h rfl

theorem eq_service_of_drift (h : k.drift = .renew) : k = .service := by
  cases k <;> first | rfl | cases h

theorem spec_of_stores {j : Json} (hs : c.Stores .service (c.desired .service) j) :
    j.Ordered ∧ ∃ spec, j.field? "spec" = some spec ∧
      spec.field? "ports" = some (.arr [Blueprint.servicePort]) ∧
      match c.addressing with
      | .drawn => ∃ n, spec.textAt? ["clusterIP"] = some (drawnAddress n)
      | .fixed address => spec.textAt? ["clusterIP"] = some address
      | .absent => spec.textAt? ["clusterIP"] = none := by
  obtain ⟨store, haddressing, rfl⟩ := hs
  refine ⟨Store.ordered_write _ _ _ (Json.ordered_object _), ?_⟩
  let w := withIdentity (store.versions + 1) c.blueprint.service
  have hagree := agreeOff_withIdentity (store.versions + 1) c.blueprint.service
  have hspec : w.field? "spec" = some c.blueprint.serviceSpec := by
    have h := hagree ["spec"] (by decide)
    rwa [Json.at?_singleton, Json.at?_singleton, Blueprint.field?_service_spec] at h
  have hawaits : Store.awaitsAddress true w = true := by
    rw [Store.awaitsAddress, Bool.true_and]
    exact (hagree.blankAt (by decide)).trans c.blueprint.address_service
  have hgiven (address : String) :
      ∃ spec, (w.setAt addressPath (.str address)).field? "spec" = some spec ∧
        spec.field? "ports" = some (.arr [Blueprint.servicePort]) ∧
        spec.textAt? ["clusterIP"] = some address := by
    refine ⟨c.blueprint.serviceSpec.withField "clusterIP" (.str address), ?_, ?_, ?_⟩
    · simp [Json.setAt, Json.field?_withField, hspec]
    · simp [Json.field?_withField, Blueprint.field?_serviceSpec_ports]
    · simp [Json.textAt?, Json.field?_withField, Json.text?]
  have hservice : decide ((.managed .service : ResourceKind) = .managed .service) = true :=
    decide_eq_true rfl
  have hdesired : c.desired .service = c.blueprint.service := rfl
  rw [Store.write_fst, hservice, hdesired, Store.addressed, if_pos hawaits, haddressing]
  cases c.addressing with
  | drawn =>
      obtain ⟨spec, h, hports, haddress⟩ := hgiven (drawnAddress (store.addresses + 1))
      exact ⟨spec, h, hports, _, haddress⟩
  | fixed address => exact hgiven address
  | absent =>
      exact ⟨_, hspec, Blueprint.field?_serviceSpec_ports _,
        Blueprint.textAt?_serviceSpec_address _⟩

theorem flaw?_of_made {j live : Json} (hs : c.Stores .service (c.desired .service) j)
    (hr : Managed.ofJson .service j = .ok live) : flaw? .service (.ok live) = c.mintFlaw? := by
  obtain ⟨ho, spec, hspec, hports, haddress⟩ := spec_of_stores hs
  have hlive : live.field? "spec" = some spec := by
    rw [Managed.field?_of_ofJson (by decide) hr ho (f := "spec") (by decide), hspec,
      Option.filter_eq_some_iff]
    refine ⟨rfl, ?_⟩
    cases spec with
    | null => cases hports
    | _ => simp
  rw [flaw?_of_spec hlive hports, mintFlaw?]
  cases haddressing : c.addressing with
  | drawn =>
      rw [haddressing] at haddress
      obtain ⟨n, haddress⟩ := haddress
      simp [haddress, drawnAddress_usable n, Option.filter]
  | fixed address =>
      rw [haddressing] at haddress
      by_cases h : address = "" ∨ address = "None"
      · have hno : ¬ (address ≠ "" ∧ address ≠ "None") := by
          rintro ⟨h₁, h₂⟩
          exact h.elim h₁ h₂
        simp [haddress, h, hno, Option.filter]
      · have hyes : address ≠ "" ∧ address ≠ "None" := not_or.1 h
        simp [haddress, hyes, Option.filter]
  | absent =>
      rw [haddressing] at haddress
      simp [haddress]

theorem Making.flaw?_eq (h : c.Making k v o v') : flaw? k o = c.makingFlaw? k v := by
  cases h with
  | refused f hc hf => simp [makingFlaw?, hc, hf, flaw?]
  | outrun f hc hf hd =>
      rw [flaw?_ok_of_ne (ne_service_of_drift hd)]
      cases hk : k.drift with
      | renew => exact absurd hk hd
      | leave | amend => simp [makingFlaw?, hc, hf, hk]
  | reread f hc hf hd => simp [makingFlaw?, hc, hf, hd]
  | made j live hc hs hr =>
      simp only [makingFlaw?, hc]
      split
      · next hk =>
          subst hk
          exact flaw?_of_made hs hr
      · next hk => exact flaw?_ok_of_ne hk live

theorem Settling.flaw?_eq (h : c.Settling k v o v') : flaw? k o = c.flawAt? k v := by
  cases h with
  | unread f hl => simp [flawAt?, hl, flaw?]
  | missing hl hm => simp [flawAt?, hl, hm.flaw?_eq]
  | left live hl hd =>
      have hk : k ≠ .service := ne_service_of_drift (by simp [hd])
      simp [flawAt?, hl, hd, flaw?_ok_of_ne hk]
  | kept live f hl hd hf => simp [flawAt?, hl, hd, hf, flaw?]
  | amended live j live' hl hd hf hs hr =>
      have hk : k ≠ .service := ne_service_of_drift (by simp [hd])
      simp [flawAt?, hl, hd, hf, flaw?_ok_of_ne hk]
  | renewed live hl hd hm => simp [flawAt?, hl, hd, hm.flaw?_eq]

theorem read_none_of_read {r : Option Json} (h : c.read k v = .ok r) :
    c.read k none = .ok none := by
  unfold read at h ⊢
  split at h
  · cases h
  · split at h
    · split at h
      · cases h
      · rfl
    · rfl

theorem read_some_of_read_none (h : c.read k none = .ok none) {j live : Json}
    (hr : Managed.ofJson k j = .ok live) :
    c.read k (some j) = .ok none ∨ c.read k (some j) = .ok (some live) := by
  unfold read at h ⊢
  split at h
  · cases h
  · split at h
    · exact .inl h
    · exact .inr (map_eq_ok_iff.2 ⟨live, Server.readBack_eq_ok_iff.2 hr, rfl⟩)

theorem read_some_of_read_some {live j live' : Json} (h : c.read k v = .ok (some live))
    (hr : Managed.ofJson k j = .ok live') : c.read k (some j) = .ok (some live') := by
  obtain ⟨hfault, hget, -⟩ := read_eq_ok_some h
  simp only [read, hfault, hget]
  exact map_eq_ok_iff.2 ⟨live', Server.readBack_eq_ok_iff.2 hr, rfl⟩

theorem eq_none_of_creation (h : c.creationFailure? k v = none) : v = none := by
  unfold creationFailure? at h
  split at h
  · cases h
  · split at h
    · cases h
    · exact Option.map_eq_none_iff.1 h

theorem creationFailure?_some (h : c.creationFailure? k none = none) (j : Json) :
    c.creationFailure? k (some j) = some (.alreadyExists (c.named k)) := by
  unfold creationFailure? at h ⊢
  split at h
  · cases h
  · split at h
    · cases h
    · rfl

theorem eq_noAddress_of_mintFlaw? (h : c.mintFlaw? = some f) : f = noAddress := by
  unfold mintFlaw? at h
  split at h
  · cases h
  · split at h
    · exact (Option.some.inj h).symm
    · cases h
  · exact (Option.some.inj h).symm

theorem flaw?_desired_service (c : Setting) :
    flaw? .service (.ok (c.desired .service)) = some noAddress := by
  have hspec : (c.desired .service).field? "spec" = some c.blueprint.serviceSpec :=
    c.blueprint.field?_service_spec
  rw [flaw?_of_spec hspec c.blueprint.field?_serviceSpec_ports,
    c.blueprint.textAt?_serviceSpec_address]
  rfl

theorem flawAt?_of_made (hread : c.read .service none = .ok none)
    (hc : c.creationFailure? .service none = none) {j live : Json}
    (hs : c.Stores .service (c.desired .service) j) (hr : Managed.ofJson .service j = .ok live)
    (hf : c.mintFlaw? = some f) : c.flawAt? .service (some j) = some f := by
  have hexists := creationFailure?_some hc j
  have hlive : flaw? .service (.ok live) = some f := (flaw?_of_made hs hr).trans hf
  rcases read_some_of_read_none hread hr with hl | hl
  · simp only [flawAt?, hl, makingFlaw?, hexists, Failure.isAlreadyExists, if_true,
      ManagedKind.drift]
    rw [eq_noAddress_of_mintFlaw? hf]
    exact c.flaw?_desired_service
  · simp only [flawAt?, hl, ManagedKind.drift, remaining]
    split
    · simp [makingFlaw?, hc, hf]
    · simp only [makingFlaw?, hexists, Failure.isAlreadyExists, if_true, ManagedKind.drift, hl]
      exact hlive

theorem Settling.fails_again (h : c.Settling k v o v') (hf : c.flawAt? k v = some f) :
    c.flawAt? k v' = some f := by
  have hflaw := h.flaw?_eq
  cases h with
  | unread f' hl => exact hf
  | missing hl hm =>
      cases hm with
      | refused f' hc hf' | outrun f' hc hf' hd | reread f' hc hf' hd => exact hf
      | made j live hc hs hr =>
          obtain rfl := eq_none_of_creation hc
          by_cases hk : k = .service
          · subst hk
            have hmint : c.mintFlaw? = some f := by
              simpa [flawAt?, hl, makingFlaw?, hc] using hf
            exact flawAt?_of_made hl hc hs hr hmint
          · simp [flawAt?, hl, makingFlaw?, hc, hk] at hf
  | left live hl hd | kept live f' hl hd hf' => exact hf
  | amended live j live' hl hd hf' hs hr => simp [flawAt?, hl, hd, hf'] at hf
  | renewed live hl hd hm =>
      obtain rfl := eq_service_of_drift hd
      have hnone := read_none_of_read hl
      -- whatever the deletion leaves, the next pass begins with that
      have hrest : c.makingFlaw? .service (c.remaining .service v) = some f := by
        simpa [flawAt?, hl, ManagedKind.drift] using hf
      have hsame : c.flawAt? .service (c.remaining .service v) = some f := by
        by_cases hgone : (c.deleting .service).fault? = none ∧ c.refusal? "delete" .service = none
        · simp only [remaining, if_pos hgone] at hrest ⊢
          simpa [flawAt?, hnone] using hrest
        · simpa only [remaining, if_neg hgone] using hf
      cases hm with
      | refused f' hc hf' | outrun f' hc hf' hd | reread f' hc hf' hd => exact hsame
      | made j live' hc hs hr =>
          have hgone := eq_none_of_creation hc
          rw [hgone] at hc
          have hmint : c.mintFlaw? = some f := by
            simpa [makingFlaw?, hgone, hc] using hrest
          exact flawAt?_of_made hnone hc hs hr hmint

theorem Settling.leaves_nothing_to_make (h : c.Settling k v o v') (hk : k ≠ .service)
    (hf : c.flawAt? k v = none) (hl' : c.read k v' = .ok none) :
    c.creationFailure? k v' ≠ none := by
  cases h with
  | unread f hl => simp [flawAt?, hl] at hf
  | missing hl hm =>
      cases hm with
      | refused f' hc hf' | outrun f' hc hf' hd | reread f' hc hf' hd => simp [hc]
      | made j live hc hs hr =>
          obtain rfl := eq_none_of_creation hc
          simp [creationFailure?_some hc j]
  | left live hl hd | kept live f' hl hd hf' => simp [hl] at hl'
  | amended live j live' hl hd hf' hs hr =>
      cases (read_some_of_read_some hl hr).symm.trans hl'
  | renewed live hl hd hm => exact absurd (eq_service_of_drift hd) hk

theorem place_congr {j j' : Json} (hname : Managed.nameOf j' = Managed.nameOf j)
    (hspace : Managed.namespaceOf j' = Managed.namespaceOf j) :
    Managed.place j' = Managed.place j := by
  unfold Managed.place
  rw [hname, hspace]

theorem replacementFailure?_of_amended {live j live' : Json}
    (hs : c.Stores k (Managed.amend k live (c.desired k)) j) (hr : Managed.ofJson k j = .ok live') :
    c.replacementFailure? k (Managed.amend k live' (c.desired k)) =
      c.replacementFailure? k (Managed.amend k live (c.desired k)) := by
  obtain ⟨store, -, rfl⟩ := hs
  have hagree := Store.agreeOff_write store
    ⟨.managed k, c.blueprint.namespace, c.blueprint.name⟩
    ((.managed k : ResourceKind) = .managed .service) (Managed.amend k live (c.desired k))
  have hplace : Managed.place (Managed.amend k live' (c.desired k)) =
      Managed.place (Managed.amend k live (c.desired k)) := by
    apply place_congr
    · rw [Managed.nameOf_amend, Managed.nameOf, Managed.textAt?_metadata_of_ofJson hr (by decide)]
      exact hagree.textAt? (by decide)
    · rw [Managed.namespaceOf, Json.textAt?, Managed.at?_amend_metadata, ← Json.textAt?,
        Managed.textAt?_metadata_of_ofJson hr (by decide)]
      exact hagree.textAt? (by decide)
  rw [replacementFailure?, replacementFailure?, hplace]
  rfl

theorem Settling.stays_settled (hk : k ≠ .service) (h : c.Settling k v o v')
    (hf : c.flawAt? k v = none) (h' : c.Settling k v' o' v'') (hf' : c.flawAt? k v' = none) :
    c.flawAt? k v'' = none := by
  have hmore := h.leaves_nothing_to_make hk hf
  cases h' with
  | unread f hl | left live hl hd | kept live f hl hd hr => exact hf'
  | missing hl hm =>
      cases hm with
      | refused f hc ha | outrun f hc ha hd | reread f hc ha hd => exact hf'
      | made j live hc hs hr => exact absurd hc (hmore hl)
  | amended live j live' hl hd hr hs hj =>
      simp only [flawAt?, read_some_of_read_some hl hj, hd]
      exact (replacementFailure?_of_amended hs hj).trans hr
  | renewed live hl hd hm => exact absurd (eq_service_of_drift hd) hk

inductive Passes (c : Setting) : List ManagedKind → (ManagedKind → Option Json) →
    (ManagedKind → Option Json) → Option Failure → Prop where
  | nil (V V' : ManagedKind → Option Json) : Passes c [] V V' none
  | stop {k : ManagedKind} {ks : List ManagedKind} {V V' : ManagedKind → Option Json}
      {o : Except Failure Json} {f : Failure} (h : c.Settling k (V k) o (V' k))
      (hf : c.flawAt? k (V k) = some f) (hks : ∀ k' ∈ ks, V' k' = V k') :
      Passes c (k :: ks) V V' (some f)
  | cons {k : ManagedKind} {ks : List ManagedKind} {V V' : ManagedKind → Option Json}
      {o : Except Failure Json} {r : Option Failure} (h : c.Settling k (V k) o (V' k))
      (hf : c.flawAt? k (V k) = none) (hks : Passes c ks V V' r) : Passes c (k :: ks) V V' r

section
variable {ks : List ManagedKind} {V V₁ V₂ V₃ : ManagedKind → Option Json} {f₁ f₂ : Failure}
  {r : Option Failure}

theorem Passes.fails_again (h₁ : c.Passes ks V V₁ (some f₁)) (h₂ : c.Passes ks V₁ V₂ r) :
    r ≠ none := by
  induction ks generalizing r with
  | nil => cases h₁
  | cons k ks ih =>
      cases h₁ with
      | stop h hf _ =>
          have hagain := h.fails_again hf
          cases h₂ with
          | stop h' hf' _ => simp
          | cons h' hf' _ => simp [hagain] at hf'
      | cons h hf hks =>
          cases h₂ with
          | stop h' hf' _ => simp
          | cons h' hf' hks' => exact ih hks hks'

theorem Passes.fails_alike (hks : ∀ k ∈ ks.dropLast, k ≠ .service)
    (h₁ : c.Passes ks V V₁ (some f₁)) (h₂ : c.Passes ks V₁ V₂ (some f₂))
    (h₃ : c.Passes ks V₂ V₃ r) : r = some f₂ := by
  induction ks with
  | nil => cases h₁
  | cons k ks ih =>
      cases h₂ with
      | stop h hf _ =>
          have hagain := h.fails_again hf
          cases h₃ with
          | stop h' hf' _ => exact hf'.symm.trans hagain
          | cons h' hf' _ => simp [hagain] at hf'
      | cons h hf hrest₂ =>
          cases h₁ with
          | stop h₀ hf₀ _ => simp [h₀.fails_again hf₀] at hf
          | cons h₀ hf₀ hrest₁ =>
              cases ks with
              | nil => cases hrest₁
              | cons k' ks =>
                  -- settled in both passes, and not the last kind: the third pass gets past it
                  have hk : k ≠ .service := hks k List.mem_cons_self
                  have hsettled := h₀.stays_settled hk hf₀ h hf
                  cases h₃ with
                  | stop h' hf' _ => simp [hsettled] at hf'
                  | cons h' hf' hrest₃ =>
                      exact ih (fun k hk => hks k (List.mem_cons_of_mem _ hk)) hrest₁ hrest₂ hrest₃

end

end Setting

end RegistryKeeper
