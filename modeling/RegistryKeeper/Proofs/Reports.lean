import RegistryKeeper.Proofs.Addresses
import RegistryKeeper.Proofs.Exchanges

namespace RegistryKeeper

theorem Managed.field?_of_ofJson {k : ManagedKind} (hk : k ≠ .roleBinding) {stored j : Json}
    (h : ofJson k stored = .ok j) (ho : stored.Ordered) {f : String} (hf : f ∈ k.contents) :
    j.field? f = (stored.field? f).filter (· ≠ .null) := by
  cases stored with
  | obj l =>
      simp only [ofJson, bind_eq_ok_iff] at h
      obtain ⟨_, -, m, -, h⟩ := h
      let rest := l.filter fun e => e.1 ∈ k.contents ∧ e.2 ≠ .null
      have hj : j = Json.object (("apiVersion", .str k.apiVersion) :: ("kind", .str k.name)
          :: ("metadata", (m.getD .empty).toJson) :: rest) := by
        simp only [hk, false_and, if_false] at h
        exact (Except.ok.inj h).symm
      have hown : ∀ f ∈ k.contents, "apiVersion" ≠ f ∧ "kind" ≠ f ∧ "metadata" ≠ f := by
        cases k <;> decide
      have hrest : (rest.map (·.1)).Nodup := ho.nodup_keys.sublist (List.filter_sublist.map _)
      have hlookup : Table.lookup f rest = (Table.lookup f l).filter (· ≠ .null) := by
        have hfilter := Table.lookup_filter
          (fun f (v : Json) => decide (f ∈ k.contents ∧ v ≠ .null)) f ho.nodup_keys
        simpa [hf, rest, Json.fields] using hfilter
      obtain ⟨ha, hkind, hm⟩ := hown f hf
      rw [hj, Json.field?_object]
      simp [Json.lookup_append, Table.lookup, ha, hkind, hm, Json.lookup_reverse _ hrest, hlookup,
        Json.field?, Json.fields]
  | _ => cases h

namespace Server

def Shows (s : Server) (k : ManagedKind) (n m : String) (j : Json) : Prop :=
  ∃ stored, s.object (.managed k) n m = some stored ∧ Managed.ofJson k stored = .ok j

theorem object_of_get {k : ResourceKind} {n m : String} {s s' : Server} {j : Json}
    (h : s.answer (.get k n m) = (.ok j, s')) : s'.object k n m = some j := by
  obtain ⟨outages, h⟩ := serve_of_answer_ok h
  simp only [serve] at h
  split at h
  · next hj =>
      cases h
      exact hj
  · cases h

theorem object_of_create {k : ResourceKind} {n : String} {d : Json} {s s' : Server} {j : Json}
    (h : s.answer (.create k n d) = (.ok j, s')) :
    s'.object k n ((Managed.nameOf d).getD "") = some j := by
  obtain ⟨outages, h⟩ := serve_of_answer_ok h
  simp only [serve] at h
  split at h
  · cases h
  · cases h
    exact (object_write ..).trans (if_pos rfl)

theorem shows_of_get {k : ManagedKind} {n m : String} {s s' : Server} {j : Json}
    (h : call (.get k n m) s = (.ok (some j), s')) : s'.Shows k n m j := by
  simp only [call] at h
  split at h
  · cases h
  · split at h
    · next i s₁ ha =>
        obtain ⟨hi, rfl⟩ := Prod.mk.inj h
        obtain ⟨a, hr, ha'⟩ := map_eq_ok_iff.1 hi
        cases ha'
        exact ⟨i, object_of_get ha, readBack_eq_ok_iff.1 hr⟩
    · next e s₁ ha =>
        split at h <;> cases h

theorem shows_of_create {k : ManagedKind} {n : String} {d j : Json} {s s' : Server}
    (h : call (.create k n d) s = (.ok j, s')) :
    s'.Shows k n ((Managed.nameOf d).getD "") j := by
  simp only [call] at h
  split at h
  · cases h
  · rcases ha : s.answer (.create (.managed k) n d) with ⟨a, s₁⟩
    rw [ha] at h
    obtain ⟨hi, rfl⟩ := Prod.mk.inj h
    cases a with
    | ok i => exact ⟨i, object_of_create ha, readBack_eq_ok_iff.1 hi⟩
    | error e => cases hi

theorem shows_of_run_make {k : ManagedKind} {n : String} {desired j : Json} {s s' : Server}
    (h : Program.run call (make k n desired).run s = (.ok j, s')) :
    s'.Shows k n ((Managed.nameOf desired).getD "") j ∨ j = desired := by
  simp only [make, ExceptT.run, ExceptT.mk, Program.run_call] at h
  rcases ha : call (.create k n desired) s with ⟨a, s₁⟩
  rw [ha] at h
  cases a with
  | ok created =>
      cases h
      exact .inl (shows_of_create ha)
  | error f =>
      simp only at h
      split at h
      · cases hk : k.drift with
        | leave =>
            rw [hk] at h
            cases h
            exact .inr rfl
        | amend =>
            rw [hk] at h
            cases h
            exact .inr rfl
        | renew =>
            simp only [hk, Program.run_call] at h
            rcases hg : call (.get k n ((Managed.nameOf desired).getD "")) s₁ with ⟨a, s₂⟩
            rw [hg] at h
            rcases a with f | _ | live
            · cases h
            · cases h
              exact .inr rfl
            · cases h
              exact .inl (shows_of_get hg)
      · cases h

theorem shows_of_run_converge {k : ManagedKind} (hk : k.drift ≠ .amend) {n m : String}
    {desired j : Json} (hp : Managed.place desired = .ok (n, m)) {s s' : Server}
    (h : Program.run call (converge k desired).run s = (.ok j, s')) :
    s'.Shows k n m j ∨ j = desired := by
  have hm := Managed.nameOf_getD_of_place hp
  rw [run_converge_of_place k hp, Program.run_call] at h
  rcases hg : call (.get k n m) s with ⟨a, s₁⟩
  rw [hg] at h
  rcases a with f | _ | live
  · cases h
  · rw [← hm]
    exact shows_of_run_make h
  · simp only at h
    cases hd : k.drift with
    | leave =>
        rw [hd] at h
        cases h
        exact .inl (shows_of_get hg)
    | amend => exact absurd hd hk
    | renew =>
        rw [hd] at h
        rw [← hm]
        exact shows_of_run_make h

end Server

theorem addressOfService_congr {j i : Json} (h : j.field? "spec" = i.field? "spec") :
    addressOfService j = addressOfService i := by
  simp only [addressOfService, h]

theorem addressOfService_of_no_address {j : Json} (h : j.blankAt addressPath = true)
    (address : String) : addressOfService j ≠ .ok address := by
  intro ha
  obtain ⟨ip, -, -, hip, -⟩ := reachedAt_of_addressOfService ha
  rw [Json.textAt?] at hip
  obtain ⟨v, hv, ht⟩ := Option.bind_eq_some_iff.1 hip
  rw [Json.blankAt, hv] at h
  cases v <;> simp_all [Json.text?]

theorem Server.reached_of_run_converge {desired : Json} {n m : String}
    (hp : Managed.place desired = .ok (n, m)) (ho : desired.Ordered)
    (hb : desired.blankAt addressPath = true) {s s' : Server}
    (hs : s.Sound (· = .managed .service)) {service : Json}
    (h : Program.run call (converge .service desired).run s = (.ok service, s'))
    {address : String} (ha : addressOfService service = .ok address) :
    ∃ stored, s'.object (.managed .service) n m = some stored ∧ ReachedAt stored address := by
  have hs' : s'.Sound (· = .managed .service) := by
    have hx := (within_converge .service desired).exchange
      (R := fun r => ∀ j, r.body? = some j → j.Ordered) (fun c hc t => ?_) s
    · rw [h] at hx
      exact hx.sound (fun r hr _ => hr) hs
    · refine (exchange_call c t).mono ?_
      intro r hr j hj
      rw [hc.2 (by decide) j (hr.2 ▸ hj)]
      exact ho
  rcases shows_of_run_converge (by decide) hp h with ⟨stored, hstored, hread⟩ | rfl
  · have hspec := Managed.field?_of_ofJson (by decide) hread (hs' _ _ hstored rfl).1
      (f := "spec") (by decide)
    refine ⟨stored, hstored, reachedAt_of_addressOfService ?_⟩
    rw [← ha]
    refine addressOfService_congr ?_
    cases hv : service.field? "spec" with
    | none => simp [addressOfService, hv] at ha
    | some v =>
        rw [hv] at hspec
        exact (Option.filter_eq_some_iff.1 hspec.symm).1
  · exact absurd ha (addressOfService_of_no_address hb address)

end RegistryKeeper
