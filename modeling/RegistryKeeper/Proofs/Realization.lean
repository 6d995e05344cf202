import RegistryKeeper.Proofs.Settling

namespace RegistryKeeper

/-- Stamped with a version that was drawn later, and with the uid of that version. -/
def Issued (before : LocalCluster) (desired j : Json) : Prop :=
  ∃ v, before.store.versions < v ∧ j = Store.issue v desired

theorem Issued.at? {c : LocalCluster} {desired j : Json} (h : Issued c desired j) {q : List String}
    (hq : ∀ p ∈ [versionPath, uidPath], Json.Apart p q) : j.at? q = desired.at? q := by
  obtain ⟨v, -, rfl⟩ := h
  exact ((Json.AgreeOff.refl [versionPath, uidPath] desired).setAt (by simp) _).setAt
    (by simp) _ q hq

theorem issued_of_settle {c : LocalCluster} {t : Store ManagedKind} {k : ManagedKind}
    {n m : String} {desired : Json} (hv : c.store.versions ≤ t.versions) (hk : k ≠ .service)
    (h : t.get? ⟨k, n, m⟩ = none) (hu : desired.blankAt uidPath = true) :
    Issued c desired (t.settle k n m desired).1 :=
  ⟨t.versions + 1, Nat.lt_succ_of_le hv, Store.settle_of_absent hk h hu⟩

theorem at?_amended {live : Json} {p : List String} (hp : Json.Apart versionPath p) (v w : Json) :
    ((live.setAt p v).setAt versionPath w).at? p = some v := by
  rw [Json.at?_setAt_of_apart hp, Json.at?_setAt]

namespace Blueprint

def live (b : Blueprint) (c : LocalCluster) (k : ManagedKind) : Option Json :=
  c.object k b.namespace b.name

/-- What a pass makes of the objects of a registry: the missing ones are issued, of the others
nothing changes but their version and what the registry owns, and the Service is a new one. -/
structure Realized (b : Blueprint) (packages : List String) (sources : List SourceRef)
    (before after : LocalCluster) : Prop where
  serviceAccount : ∃ j, b.live after .serviceAccount = some j ∧
    match b.live before .serviceAccount with
    | none => Issued before b.serviceAccount j
    | some live => j = live
  role : ∃ j, b.live after .role = some j ∧ j.at? ["rules"] = some (rules sources) ∧
    match b.live before .role with
    | none => Issued before (b.role sources) j
    | some live => Json.AgreeOff [versionPath, ["rules"]] live j
  roleBinding : ∃ j, b.live after .roleBinding = some j ∧
    j.at? ["roleRef"] = some b.roleRef ∧ j.at? ["subjects"] = some b.subjects ∧
    match b.live before .roleBinding with
    | none => Issued before b.roleBinding j
    | some live => Json.AgreeOff [versionPath, ["roleRef"], ["subjects"]] live j
  deployment : ∃ j, b.live after .deployment = some j ∧
    j.at? ["spec", "template"] = some (b.podTemplate (serverCommand packages sources)) ∧
    match b.live before .deployment with
    | none => Issued before (b.deployment (serverCommand packages sources)) j
    | some live =>
        match live.field? "spec" with
        | none =>
            j.at? ["spec"] = some (b.deploymentSpec (serverCommand packages sources)) ∧
              Json.AgreeOff [versionPath, ["spec"]] live j
        | some _ => Json.AgreeOff [versionPath, ["spec", "template"]] live j
  service : ∃ j address, Issued before b.service j ∧
    b.live after .service = some (j.setAt addressPath (.str address)) ∧
    address = drawnAddress (before.store.addresses + 1) ∧
    ∀ n ≤ before.store.addresses, address ≠ drawnAddress n

section
variable {b : Blueprint} {packages : List String} {sources : List SourceRef} {c : LocalCluster}

theorem run_establish (b : Blueprint) (packages : List String) (sources : List SourceRef)
    (hs : c.store.Sound) (hf : c.faults = .empty) :
    ∃ service after, after.store = Store.settleAll b.namespace b.name
        (b.desired (serverCommand packages sources) sources) ManagedKind.all c.store ∧
      b.live after .service = some service ∧
      Program.run LocalCluster.answer (b.establish packages sources).run c =
        (addressOfService service, after) := by
  let d := b.desired (serverCommand packages sources) sources
  have hp : ∀ k, Managed.place (d k) = .ok (b.namespace, b.name) := b.place_desired _ _
  let first : List ManagedKind := [.serviceAccount, .role, .roleBinding, .deployment]
  obtain ⟨calls, h⟩ := LocalCluster.run_convergeEach hp first hs hf
  let c' : LocalCluster := ⟨Store.settleAll b.namespace b.name d first c.store, .empty, calls⟩
  have hs' : c'.store.Sound :=
    hs.settleAll (fun k => Managed.nameOf_getD_of_place (hp k)) first
  obtain ⟨calls', h'⟩ := LocalCluster.run_converge (k := .service) hs' rfl (hp .service)
  refine ⟨(c'.store.settle .service b.namespace b.name b.service).1,
    ⟨(c'.store.settle .service b.namespace b.name b.service).2, .empty, calls'⟩, rfl, ?_, ?_⟩
  · exact (Store.get?_settle c'.store .service b.namespace b.name b.service _).trans (if_pos rfl)
  · rw [establish_eq, Pass.run_bind, h]
    change Program.run LocalCluster.answer
      (converge .service (d .service) >>= fun service => .mk (.done (addressOfService service))).run
      c' = _
    rw [Pass.run_bind, h']
    rfl

section
variable {t : Store ManagedKind} (ht : t.Sound) (hv : c.store.versions ≤ t.versions)
include ht hv

theorem settled_role : let j := (t.settle .role b.namespace b.name (b.role sources)).1
    j.at? ["rules"] = some (rules sources) ∧
      match t.get? ⟨.role, b.namespace, b.name⟩ with
      | none => Issued c (b.role sources) j
      | some live => Json.AgreeOff [versionPath, ["rules"]] live j := by
  intro j
  cases hl : t.get? ⟨.role, b.namespace, b.name⟩ with
  | none =>
      have hi : Issued c (b.role sources) j :=
        issued_of_settle hv (by decide) hl (b.uid_desired [] sources .role)
      refine ⟨?_, hi⟩
      rw [hi.at? (by decide), Json.at?_singleton, field?_role_rules]
  | some live =>
      have hj : j = (live.setAt ["rules"] (rules sources)).setAt versionPath
          (.str (resourceVersion (t.versions + 1))) := by
        rw [← amend_role]
        exact Store.settle_of_amend rfl ht hl
      rw [hj]
      refine ⟨at?_amended (by decide) _ _, ?_⟩
      exact ((Json.AgreeOff.refl _ live).setAt (by simp) _).setAt (by simp) _

theorem settled_roleBinding : let j := (t.settle .roleBinding b.namespace b.name b.roleBinding).1
    j.at? ["roleRef"] = some b.roleRef ∧ j.at? ["subjects"] = some b.subjects ∧
      match t.get? ⟨.roleBinding, b.namespace, b.name⟩ with
      | none => Issued c b.roleBinding j
      | some live => Json.AgreeOff [versionPath, ["roleRef"], ["subjects"]] live j := by
  intro j
  cases hl : t.get? ⟨.roleBinding, b.namespace, b.name⟩ with
  | none =>
      have hi : Issued c b.roleBinding j :=
        issued_of_settle hv (by decide) hl (b.uid_desired [] [] .roleBinding)
      refine ⟨?_, ?_, hi⟩
      · rw [hi.at? (by decide), Json.at?_singleton, field?_roleBinding_roleRef]
      · rw [hi.at? (by decide), Json.at?_singleton, field?_roleBinding_subjects]
  | some live =>
      have hj : j = ((live.setAt ["roleRef"] b.roleRef).setAt ["subjects"] b.subjects).setAt
          versionPath (.str (resourceVersion (t.versions + 1))) := by
        rw [← amend_roleBinding]
        exact Store.settle_of_amend rfl ht hl
      rw [hj]
      refine ⟨?_, at?_amended (by decide) _ _, ?_⟩
      · rw [Json.at?_setAt_of_apart (by decide), Json.at?_setAt_of_apart (by decide),
          Json.at?_setAt]
      · exact (((Json.AgreeOff.refl _ live).setAt (by simp) _).setAt (by simp) _).setAt
          (by simp) _

theorem settled_deployment (command : List String) :
    let j := (t.settle .deployment b.namespace b.name (b.deployment command)).1
    j.at? ["spec", "template"] = some (b.podTemplate command) ∧
      match t.get? ⟨.deployment, b.namespace, b.name⟩ with
      | none => Issued c (b.deployment command) j
      | some live =>
          match live.field? "spec" with
          | none => j.at? ["spec"] = some (b.deploymentSpec command) ∧
              Json.AgreeOff [versionPath, ["spec"]] live j
          | some _ => Json.AgreeOff [versionPath, ["spec", "template"]] live j := by
  intro j
  have inSpec (i : Json) (hi : i.field? "spec" = some (b.deploymentSpec command)) :
      i.at? ["spec", "template"] = some (b.podTemplate command) := by
    rw [Json.at?_cons, hi, Option.bind_some, Json.at?_singleton, field?_deploymentSpec_template]
  cases hl : t.get? ⟨.deployment, b.namespace, b.name⟩ with
  | none =>
      have hi : Issued c (b.deployment command) j :=
        issued_of_settle hv (by decide) hl (b.uid_desired command [] .deployment)
      refine ⟨?_, hi⟩
      rw [hi.at? (by decide), inSpec _ (b.field?_deployment_spec command)]
  | some live =>
      have hj : j = (Managed.amend .deployment live (b.deployment command)).setAt versionPath
          (.str (resourceVersion (t.versions + 1))) :=
        Store.settle_of_amend rfl ht hl
      cases hsp : live.field? "spec" with
      | none =>
          rw [amend_deployment_of_no_spec b command hsp] at hj
          have hspec : j.at? ["spec"] = some (b.deploymentSpec command) := by
            rw [hj]
            exact at?_amended (by decide) _ _
          refine ⟨inSpec j ((Json.at?_singleton j _).symm.trans hspec), ?_⟩
          simp only [hsp]
          refine ⟨hspec, ?_⟩
          rw [hj]
          exact ((Json.AgreeOff.refl _ live).setAt (by simp) _).setAt (by simp) _
      | some own =>
          rw [amend_deployment_of_spec b command hsp] at hj
          simp only [hsp]
          rw [hj]
          refine ⟨at?_amended (by decide) _ _, ?_⟩
          exact ((Json.AgreeOff.refl _ live).setAt (by simp) _).setAt (by simp) _

end

theorem realized_of_settleAll {after : LocalCluster} (hs : c.store.Sound)
    (h : after.store = Store.settleAll b.namespace b.name
      (b.desired (serverCommand packages sources) sources) ManagedKind.all c.store) :
    b.Realized packages sources c after := by
  let d := b.desired (serverCommand packages sources) sources
  have settled (k : ManagedKind) : ∃ t : Store ManagedKind, t.Sound ∧
      c.store.versions ≤ t.versions ∧ t.get? ⟨k, b.namespace, b.name⟩ = b.live c k ∧
      (k = .service → t.addresses = c.store.addresses) ∧
      b.live after k = some (t.settle k b.namespace b.name (d k)).1 := by
    have hk : k ∈ ManagedKind.all := by cases k <;> decide
    have hp (k : ManagedKind) := Managed.nameOf_getD_of_place
      (b.place_desired (serverCommand packages sources) sources k)
    obtain ⟨t, ht, hv, hg, ha, hr⟩ :=
      Store.exists_get?_settleAll (n := b.namespace) hp (by decide) hk hs
    refine ⟨t, ht, hv, hg, ha, ?_⟩
    rw [live, LocalCluster.object, h, hr]
  constructor
  · obtain ⟨t, ht, hv, hg, -, hr⟩ := settled .serviceAccount
    refine ⟨_, hr, ?_⟩
    cases hl : b.live c .serviceAccount with
    | none =>
        have hu := b.uid_desired [] [] .serviceAccount
        exact issued_of_settle hv (by decide) (hg.trans hl) hu
    | some live => exact Store.settle_of_leave rfl (hg.trans hl)
  · obtain ⟨t, ht, hv, hg, -, hr⟩ := settled .role
    exact ⟨_, hr, hg ▸ settled_role ht hv⟩
  · obtain ⟨t, ht, hv, hg, -, hr⟩ := settled .roleBinding
    exact ⟨_, hr, hg ▸ settled_roleBinding ht hv⟩
  · obtain ⟨t, ht, hv, hg, -, hr⟩ := settled .deployment
    exact ⟨_, hr, hg ▸ settled_deployment ht hv _⟩
  · obtain ⟨t, ht, hv, -, ha, hr⟩ := settled .service
    refine ⟨Store.issue (t.versions + 1) b.service, _, ⟨_, Nat.lt_succ_of_le hv, rfl⟩, ?_, rfl, ?_⟩
    · rw [hr, ← ha rfl]
      exact congrArg some
        (Store.settle_service ht (b.uid_desired [] [] .service) b.address_service)
    · intro i hi h
      exact absurd (drawnAddress_injective h) (by omega)

theorem Realized.addressOfService {after : LocalCluster} (h : b.Realized packages sources c after)
    {service : Json} (hl : b.live after .service = some service) :
    addressOfService service = .ok
      (drawnAddress (c.store.addresses + 1) ++ ":" ++ toString serverPort) := by
  obtain ⟨j, address, hi, hj, rfl, -⟩ := h.service
  obtain rfl : _ = service := Option.some.inj (hj.symm.trans hl)
  have hu := drawnAddress_usable (c.store.addresses + 1)
  refine addressOfService_of_reachedAt ⟨_, servicePort, [], ?_, hu.1, hu.2, ?_, ?_⟩
  · rw [Json.textAt?, Json.at?_setAt]
    rfl
  · rw [Json.at?_setAt_of_apart (by decide), hi.at? (by decide), ports_service]
  · rw [portNumber_servicePort]

end

end Blueprint

theorem establish_realizes {c : LocalCluster} (hc : c.Reachable) {r : PackageRegistry}
    {namespace' name : String} (hn : r.metadata.namespace = some namespace')
    (hm : r.metadata.name = some name) (lookup : Lookup) (image : String) :
    ∃ after, Program.run LocalCluster.answer (establish lookup r image).run c.clearFaults =
        (.ok (drawnAddress (c.store.addresses + 1) ++ ":" ++ toString serverPort), after) ∧
      Blueprint.Realized ⟨name, namespace', r.metadata.uid.getD "", image⟩ r.spec.packages
        (Resolution.resolve lookup r.spec.packages) c after := by
  have hb : Blueprint.ofRegistry r image =
      .ok ⟨name, namespace', r.metadata.uid.getD "", image⟩ := by
    simp only [Blueprint.ofRegistry, hn, hm]
  obtain ⟨service, after, hstore, hservice, hrun⟩ := Blueprint.run_establish
    ⟨name, namespace', r.metadata.uid.getD "", image⟩ r.spec.packages
    (Resolution.resolve lookup r.spec.packages) (c := c.clearFaults) hc.sound rfl
  have hr := Blueprint.realized_of_settleAll hc.sound hstore
  refine ⟨after, ?_, hr⟩
  rw [establish, hb, ← hr.addressOfService hservice]
  exact hrun

theorem establish_realizes_after_stopped_pass :
    let r : PackageRegistry :=
      ⟨{ Metadata.empty with
          name := some "community", «namespace» := some "marketplace", uid := some "r-1" },
        ⟨["etcd", "vault"]⟩, none⟩
    let b : Blueprint := ⟨"community", "marketplace", "r-1", "quay.io/registry:1"⟩
    let lookup : Lookup := fun p => .error (.packageNotFound p)
    let c := (Program.run LocalCluster.answer (establish lookup r b.image).run
      (LocalCluster.empty.fail .create .deployment .transport)).2
    c.Reachable ∧ ManagedKind.all.map (fun k => (b.live c k).isSome) =
        [true, true, true, false, false] ∧
      ∃ after, Program.run LocalCluster.answer (establish lookup r b.image).run
          c.clearFaults = (.ok (drawnAddress (c.store.addresses + 1) ++ ":" ++ toString serverPort),
            after) ∧
        b.Realized r.spec.packages (Resolution.resolve lookup r.spec.packages) c after := by
  intro r b lookup c
  have hc : c.Reachable := LocalCluster.Reachable.run _ (.fail _ _ _ .empty)
  exact ⟨hc, by decide +kernel, establish_realizes hc rfl rfl _ _⟩

end RegistryKeeper
