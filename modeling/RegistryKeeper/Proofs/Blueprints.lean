import RegistryKeeper.Cluster.Converge
import RegistryKeeper.Proofs.Addresses

namespace RegistryKeeper

theorem Pass.run_bind {α β σ : Type} (answer : (c : Call) → σ → c.Answer × σ) (p : Pass α)
    (f : α → Pass β) (s : σ) :
    Program.run answer (p >>= f).run s =
      match Program.run answer p.run s with
      | (.ok a, s') => Program.run answer (f a).run s'
      | (.error e, s') => (.error e, s') := by
  rw [ExceptT.run_bind, Program.run_bind]
  obtain ⟨r, s'⟩ := Program.run answer p.run s
  cases r <;> rfl

theorem Pass.run_bind_eq_ok {α β σ : Type} {answer : (c : Call) → σ → c.Answer × σ} {p : Pass α}
    {f : α → Pass β} {s s' : σ} {b : β} (h : Program.run answer (p >>= f).run s = (.ok b, s')) :
    ∃ a s₁, Program.run answer p.run s = (.ok a, s₁) ∧
      Program.run answer (f a).run s₁ = (.ok b, s') := by
  rw [run_bind] at h
  split at h
  · next a s₁ hp => exact ⟨a, s₁, hp, h⟩
  · cases (Prod.mk.inj h).1

def beaten (k : ManagedKind) (n : String) (desired : Json) : Pass Json :=
  .mk (match k.drift with
    | .renew =>
        .call (.get k n ((Managed.nameOf desired).getD "")) fun
          | .ok live => .done (.ok (live.getD desired))
          | .error f => .done (.error f)
    | .leave | .amend => .done (.ok desired))

theorem run_make_eq (k : ManagedKind) (n : String) (desired : Json) :
    (make k n desired).run = .call (.create k n desired) fun
      | .ok created => .done (.ok created)
      | .error f => if f.isAlreadyExists then (beaten k n desired).run else .done (.error f) := by
  cases k <;> rfl

def convergeEach (desired : ManagedKind → Json) : List ManagedKind → Pass Unit
  | [] => pure ()
  | k :: ks => do
      let _ ← converge k (desired k)
      convergeEach desired ks

namespace Blueprint

theorem ofRegistry_eq_ok_iff {r : PackageRegistry} {image : String} {b : Blueprint} :
    ofRegistry r image = .ok b ↔
      ∃ name namespace', r.metadata.name = some name ∧ r.metadata.namespace = some namespace' ∧
        b = ⟨name, namespace', r.metadata.uid.getD "", image⟩ := by
  unfold ofRegistry
  split <;> simp_all [eq_comm]

def rules (sources : List SourceRef) : Json :=
  .arr ((PolicyRule.forSources sources).map PolicyRule.toJson)

def deploymentSpec (b : Blueprint) (command : List String) : Json :=
  Json.object
    [("replicas", .int 1),
      ("selector", Json.object [("matchLabels", Json.stringMap (podLabels b.name))]),
      ("template", b.podTemplate command)]

def servicePort : Json :=
  Json.object [("name", .str portName), ("port", .int serverPort), ("targetPort", .int serverPort)]

theorem portNumber_servicePort : portNumber servicePort = serverPort := by
  simp [portNumber, servicePort, Json.field?_object, Table.lookup, Json.int?]

def desired (b : Blueprint) (command : List String) (sources : List SourceRef) :
    ManagedKind → Json
  | .serviceAccount => b.serviceAccount
  | .role => b.role sources
  | .roleBinding => b.roleBinding
  | .deployment => b.deployment command
  | .service => b.service

theorem field?_document_metadata (b : Blueprint) (k : ManagedKind) {contents : List (String × Json)}
    (h : Table.lookup "metadata" contents.reverse = none) :
    (b.document k contents).field? "metadata" = some b.metadata := by
  simp [document, Json.field?_object, Json.lookup_append, h, Table.lookup]

section
variable (b : Blueprint) (command : List String) (sources : List SourceRef)

theorem field?_desired_metadata (k : ManagedKind) :
    (b.desired command sources k).field? "metadata" = some b.metadata := by
  cases k <;> exact field?_document_metadata b _ (by simp [Table.lookup])

theorem place_desired (k : ManagedKind) :
    Managed.place (b.desired command sources k) = .ok (b.namespace, b.name) := by
  have below (q : String) :
      (b.desired command sources k).at? ["metadata", q] = b.metadata.field? q := by
    rw [Json.at?_cons, field?_desired_metadata, Option.bind_some, Json.at?_singleton]
  rw [Managed.place_eq_ok_iff, Managed.nameOf, Managed.namespaceOf, Json.textAt?, Json.textAt?,
    below, below]
  simp [metadata, Json.field?_object, Table.lookup, Json.text?]

theorem uid_desired (k : ManagedKind) : (b.desired command sources k).blankAt uidPath = true := by
  have h : (b.desired command sources k).at? uidPath = none := by
    rw [Json.at?_cons, field?_desired_metadata, Option.bind_some, Json.at?_singleton]
    simp [metadata, Json.field?_object, Table.lookup]
  rw [Json.blankAt, h]

theorem field?_role_rules : (b.role sources).field? "rules" = some (rules sources) := by
  simp [role, document, Json.field?_object, Table.lookup, rules]

theorem field?_roleBinding_roleRef : b.roleBinding.field? "roleRef" = some b.roleRef := by
  simp [roleBinding, document, Json.field?_object, Table.lookup]

theorem field?_roleBinding_subjects : b.roleBinding.field? "subjects" = some b.subjects := by
  simp [roleBinding, document, Json.field?_object, Table.lookup]

theorem field?_deployment_spec :
    (b.deployment command).field? "spec" = some (b.deploymentSpec command) := by
  simp [deployment, document, Json.field?_object, Table.lookup, deploymentSpec]

theorem field?_deploymentSpec_template :
    (b.deploymentSpec command).field? "template" = some (b.podTemplate command) := by
  simp [deploymentSpec, Json.field?_object, Table.lookup]

theorem containers_podTemplate :
    (b.podTemplate command).at? ["spec", "containers"] = some (.arr [b.container command]) := by
  simp [podTemplate, Json.at?_cons, Json.field?_object, Table.lookup]

theorem amend_role (live : Json) :
    Managed.amend .role live (b.role sources) = live.setAt ["rules"] (rules sources) := by
  simp only [Managed.amend, Managed.copyField, field?_role_rules]
  exact Json.withField_eq_setAt ..

theorem amend_roleBinding (live : Json) :
    Managed.amend .roleBinding live b.roleBinding =
      (live.setAt ["roleRef"] b.roleRef).setAt ["subjects"] b.subjects := by
  simp only [Managed.amend, Managed.copyField, field?_roleBinding_roleRef,
    field?_roleBinding_subjects, Json.withField_eq_setAt]

theorem amend_deployment_of_no_spec {live : Json} (h : live.field? "spec" = none) :
    Managed.amend .deployment live (b.deployment command) =
      live.setAt ["spec"] (b.deploymentSpec command) := by
  simp only [Managed.amend, field?_deployment_spec, h]
  exact Json.withField_eq_setAt ..

theorem amend_deployment_of_spec {live own : Json} (h : live.field? "spec" = some own) :
    Managed.amend .deployment live (b.deployment command) =
      live.setAt ["spec", "template"] (b.podTemplate command) := by
  simp only [Managed.amend, field?_deployment_spec, h, field?_deploymentSpec_template,
    Option.getD_some, Json.withField_withField_eq_setAt h]

theorem address_service : b.service.blankAt addressPath = true := by
  simp [service, document, Json.blankAt, Json.at?_cons, Json.field?_object, Table.lookup]

theorem ports_service : b.service.at? ["spec", "ports"] = some (.arr [servicePort]) := by
  simp [service, document, Json.at?_cons, Json.field?_object, Table.lookup, servicePort]

end

theorem establish_eq (b : Blueprint) (packages : List String) (sources : List SourceRef) :
    b.establish packages sources =
      convergeEach (b.desired (serverCommand packages sources) sources)
          [.serviceAccount, .role, .roleBinding, .deployment] >>= fun _ =>
        converge .service b.service >>= fun service => .mk (.done (addressOfService service)) := by
  simp only [establish, convergeEach, bind_assoc, pure_bind, desired]

end Blueprint

end RegistryKeeper
