import RegistryKeeper.Proofs.ContestedObjects
import RegistryKeeper.Proofs.Realization
import RegistryKeeper.Proofs.SeparatePasses

namespace RegistryKeeper

namespace Json

def Within (a b : Json) : Prop := ∀ k v, a.field? k = some v → b.field? k = some v

theorem within_iff {a b : Json} :
    a.Within b ↔ ∀ e ∈ a.fields, a.field? e.1 = some e.2 → b.field? e.1 = some e.2 := by
  constructor
  · intro h e _ he
    exact h e.1 e.2 he
  · intro h k v hv
    exact h (k, v) (Table.mem_of_lookup hv) hv

instance (a b : Json) : Decidable (a.Within b) := decidable_of_iff _ within_iff.symm

end Json

namespace Managed

def matchLabels (deployment : Json) : Json :=
  (deployment.at? ["spec", "selector", "matchLabels"]).getD .null

def templateLabels (deployment : Json) : Json :=
  (deployment.at? ["spec", "template", "metadata", "labels"]).getD .null

def containerPorts (deployment : Json) : List Json :=
  ((deployment.at? ["spec", "template", "spec", "containers"]).getD .null).items.flatMap fun c =>
    ((c.field? "ports").getD .null).items.filterMap (·.field? "containerPort")

def serviceSelector (service : Json) : Json := (service.at? ["spec", "selector"]).getD .null

def targetPorts (service : Json) : List Json :=
  ((service.at? ["spec", "ports"]).getD .null).items.filterMap (·.field? "targetPort")

end Managed

open Managed

namespace Blueprint

def selector (b : Blueprint) : Json := Json.stringMap (podLabels b.name)

section
variable (b : Blueprint) (command : List String)

theorem field?_selector_instance :
    b.selector.field? "app.kubernetes.io/instance" = some (.str b.name) := by
  simp [selector, Json.stringMap, podLabels, Json.field?_object, Table.lookup]

theorem labels_podTemplate :
    (b.podTemplate command).at? ["metadata", "labels"] = some b.selector := by
  simp [podTemplate, Json.at?_cons, Json.field?_object, Table.lookup, selector]

theorem matchLabels_deploymentSpec :
    (b.deploymentSpec command).at? ["selector", "matchLabels"] = some b.selector := by
  simp [deploymentSpec, Json.at?_cons, Json.field?_object, Table.lookup, selector]

theorem ports_container : (b.container command).field? "ports" =
    some (.arr [Json.object [("containerPort", .int serverPort), ("name", .str portName)]]) := by
  simp [container, Json.field?_object, Table.lookup]

theorem selector_service : b.service.at? ["spec", "selector"] = some b.selector := by
  simp [service, document, Json.at?_cons, Json.field?_object, Table.lookup, selector]

end

theorem eq_of_selector_within {b b' : Blueprint} (h : Json.Within b.selector b'.selector) :
    b.name = b'.name := by
  have hname := (h _ _ b.field?_selector_instance).symm.trans b'.field?_selector_instance
  exact Json.str.inj (Option.some.inj hname)

section
variable {b : Blueprint} {command : List String} {deployment service : Json}

theorem templateLabels_eq
    (h : deployment.at? ["spec", "template"] = some (b.podTemplate command)) :
    templateLabels deployment = b.selector := by
  rw [templateLabels, show ["spec", "template", "metadata", "labels"] =
    ["spec", "template"] ++ ["metadata", "labels"] from rfl, Json.at?_append, h, Option.bind_some,
    labels_podTemplate, Option.getD_some]

theorem containerPorts_eq
    (h : deployment.at? ["spec", "template"] = some (b.podTemplate command)) :
    containerPorts deployment = [.int serverPort] := by
  rw [containerPorts, show ["spec", "template", "spec", "containers"] =
    ["spec", "template"] ++ ["spec", "containers"] from rfl, Json.at?_append, h, Option.bind_some,
    containers_podTemplate, Option.getD_some]
  simp [Json.items, ports_container, Json.field?_object, Table.lookup]

theorem targetPorts_eq (h : service.at? ["spec", "ports"] = some (.arr [servicePort])) :
    targetPorts service = [.int serverPort] := by
  simp [targetPorts, h, Json.items, servicePort, Json.field?_object, Table.lookup]

end

/-- The selectors of a registry's Deployment and Service against the labels of its pods, where this
Deployment was there before. -/
structure SelectorsFit (b : Blueprint) (before : Option Json) (deployment service : Json) :
    Prop where
  own : (matchLabels deployment).Within (templateLabels deployment) ↔
    ∀ live, before = some live → (matchLabels live).Within b.selector
  served : (serviceSelector service).Within (templateLabels deployment)
  port : ∃ p, targetPorts service = [p] ∧ p ∈ containerPorts deployment

namespace Realized
variable {b : Blueprint} {packages : List String} {sources : List SourceRef}
  {before after : LocalCluster}

theorem matchLabels_deployment (h : b.Realized packages sources before after) {j : Json}
    (hj : b.live after .deployment = some j) :
    (matchLabels j = b.selector ∧
        ∀ live, b.live before .deployment = some live → matchLabels live = .null) ∨
      ∃ live, b.live before .deployment = some live ∧ matchLabels j = matchLabels live := by
  have inSpec {i : Json} {command : List String}
      (hi : i.at? ["spec"] = some (b.deploymentSpec command)) : matchLabels i = b.selector := by
    rw [matchLabels, show ["spec", "selector", "matchLabels"] =
      ["spec"] ++ ["selector", "matchLabels"] from rfl, Json.at?_append, hi, Option.bind_some,
      matchLabels_deploymentSpec, Option.getD_some]
  obtain ⟨j', hj', -, hkept⟩ := h.deployment
  cases hj'.symm.trans hj
  cases hl : b.live before .deployment with
  | none =>
      rw [hl] at hkept
      have hspec : j.at? ["spec"] = some (b.deploymentSpec (serverCommand packages sources)) := by
        rw [hkept.at? (by decide), Json.at?_singleton, field?_deployment_spec]
      refine .inl ⟨inSpec hspec, ?_⟩
      rintro live ⟨⟩
  | some live =>
      simp only [hl] at hkept
      cases hspec : live.field? "spec" with
      | none =>
          simp only [hspec] at hkept
          refine .inl ⟨inSpec hkept.1, ?_⟩
          rintro _ ⟨⟩
          rw [matchLabels, Json.at?_cons, hspec, Option.bind_none, Option.getD_none]
      | some own =>
          simp only [hspec] at hkept
          refine .inr ⟨live, rfl, ?_⟩
          rw [matchLabels, hkept _ (by decide), matchLabels]

theorem selectorsFit (h : b.Realized packages sources before after) {c : LocalCluster}
    {base : Store ManagedKind}
    (hc : ∀ k, Option.Rel (Restamped base k) (b.live c k) (b.live after k)) :
    ∃ deployment service, b.live c .deployment = some deployment ∧
      b.live c .service = some service ∧ templateLabels deployment = b.selector ∧
      serviceSelector service = b.selector ∧
      SelectorsFit b (b.live before .deployment) deployment service := by
  obtain ⟨j, hj, htemplate, -⟩ := h.deployment
  obtain ⟨i, address, hissued, hi, -⟩ := h.service
  have hdeployment := hc .deployment
  have hservice := hc .service
  rw [hj] at hdeployment
  rw [hi] at hservice
  generalize b.live c .deployment = d, b.live c .service = s at hdeployment hservice
  obtain @⟨deployment, _, hdeployment⟩ := hdeployment
  obtain @⟨service, _, hservice⟩ := hservice
  have htemplate : deployment.at? ["spec", "template"] =
      some (b.podTemplate (serverCommand packages sources)) :=
    (hdeployment.at? (by decide)).symm.trans htemplate
  have hasked {q : List String} (hq : ∀ p ∈ [versionPath, uidPath, addressPath], Json.Apart p q) :
      service.at? q = b.service.at? q := by
    rw [← hservice.at? hq, Json.at?_setAt_of_apart (hq addressPath (by simp))]
    exact hissued.at? fun p hp => hq p (List.mem_append_left [addressPath] hp)
  have hlabels := templateLabels_eq htemplate
  have hselector : serviceSelector service = b.selector := by
    rw [serviceSelector, hasked (by decide), selector_service, Option.getD_some]
  have hkept : matchLabels deployment = matchLabels j := by
    rw [matchLabels, matchLabels, hdeployment.at? (by decide)]
  refine ⟨deployment, service, rfl, rfl, hlabels, hselector, ?_, ?_, ?_⟩
  · rw [hlabels, hkept]
    rcases h.matchLabels_deployment hj with ⟨hown, hnull⟩ | ⟨live, hlive, hsame⟩
    · rw [hown]
      refine iff_of_true (fun _ _ hv => hv) fun live hlive => ?_
      rw [hnull live hlive]
      intro _ _ hv
      cases hv
    · rw [hsame, hlive]
      constructor
      · rintro hwithin _ ⟨⟩
        exact hwithin
      · intro hall
        exact hall live rfl
  · rw [hlabels, hselector]
    exact fun _ _ hv => hv
  · refine ⟨.int serverPort, targetPorts_eq ?_, ?_⟩
    · rw [hasked (by decide), b.ports_service]
    · rw [containerPorts_eq htemplate]
      exact List.mem_singleton_self _

end Realized

end Blueprint

theorem Shared.realized_of_done {ι : Type} [DecidableEq ι] {c : LocalCluster} (hc : c.Reachable)
    (hf : c.faults = .empty) {r : ι → PackageRegistry} (hr : Distinct r) {lookup : ι → Lookup}
    {image : ι → String} {turns : List ι} {i : ι} {address : String}
    (hdone : ((Shared.passes c lookup r image).after (turns.map .turn)).programs i =
      .done (.ok address)) :
    ∃ b : Blueprint, Blueprint.ofRegistry (r i) (image i) = .ok b ∧ ∃ sources after,
      b.Realized (r i).spec.packages sources c after ∧
        ∀ k, Option.Rel (Restamped c.store k)
          (b.live ((Shared.passes c lookup r image).after (turns.map .turn)).cluster k)
          (b.live after k) := by
  have hs : Separate r (Shared.passes c lookup r image) :=
    ⟨hc.sound, fun i => underway_establish (lookup i) (image i) c.store⟩
  cases hb : Blueprint.ofRegistry (r i) (image i) with
  | error f =>
      have hended := Shared.programs_after_of_done (s := Shared.passes c lookup r image)
        (run_establish_of_no_blueprint hb (lookup i)) (turns.map .turn)
      cases hended.symm.trans hdone
  | ok b =>
      let p := Plan.of (lookup i) (r i) b
      obtain ⟨-, hobjects⟩ := hs.alike_of_done hr (p := p) (Blueprint.keptAt hb)
        (run_establish_of_blueprint hb (lookup i)) hdone
      obtain ⟨service, after, hstore, -, halone⟩ :=
        Blueprint.run_establish b p.packages p.sources hc.sound hf
      have hrun : (p.program (.fetch .serviceAccount)).run LocalCluster.answer
          (Shared.passes c lookup r image).cluster = (addressOfService service, after) := halone
      rw [hrun] at hobjects
      exact ⟨b, rfl, p.sources, after, Blueprint.realized_of_settleAll hc.sound hstore, hobjects⟩

theorem live_selectors_fit {ι : Type} [DecidableEq ι] {c : LocalCluster} (hc : c.Reachable)
    (hf : c.faults = .empty) {r : ι → PackageRegistry} (hr : Distinct r) (lookup : ι → Lookup)
    (image : ι → String) (turns : List ι) :
    let s := (Shared.passes c lookup r image).after (turns.map .turn)
    ∀ i address, s.programs i = .done (.ok address) →
      ∃ b deployment service, Blueprint.ofRegistry (r i) (image i) = .ok b ∧
        b.live s.cluster .deployment = some deployment ∧
        b.live s.cluster .service = some service ∧
        b.SelectorsFit (b.live c .deployment) deployment service ∧
        ∀ j address' name other, j ≠ i → s.programs j = .done (.ok address') →
          (r j).KeptAt b.namespace name →
          s.cluster.object .deployment b.namespace name = some other →
          ¬ (serviceSelector service).Within (templateLabels other) := by
  intro s i address hdone
  obtain ⟨b, hb, sources, after, hrealized, hlike⟩ := Shared.realized_of_done hc hf hr hdone
  obtain ⟨deployment, service, hdeployment, hservice, -, hselector, hfit⟩ :=
    hrealized.selectorsFit hlike
  refine ⟨b, deployment, service, hb, hdeployment, hservice, hfit, ?_⟩
  intro j address' name other hj hdone' hplace hother hwithin
  obtain ⟨b', hb', sources', after', hrealized', hlike'⟩ := Shared.realized_of_done hc hf hr hdone'
  obtain ⟨hspace, hname⟩ := keptAt_unique (Blueprint.keptAt hb') hplace
  obtain ⟨other', -, hother', -, hlabels, -, -⟩ := hrealized'.selectorsFit hlike'
  rw [Blueprint.live, hspace, hname] at hother'
  cases hother'.symm.trans hother
  rw [hselector, hlabels] at hwithin
  have hsame := Blueprint.eq_of_selector_within hwithin
  exact hr.not_keptAt hj.symm (Blueprint.keptAt hb) (hsame ▸ hname ▸ hplace)

namespace LiveSelectors

def registry (name : String) : PackageRegistry :=
  ⟨{ Metadata.empty with
      name := some name, «namespace» := some "marketplace", uid := some "r-1" }, ⟨["etcd"]⟩, none⟩

def lookup : Lookup := fun package => .error (.packageNotFound package)

def selecting (name key value : String) : Json :=
  .obj [("metadata", .obj [("name", .str name), ("namespace", .str "marketplace")]),
    ("spec", .obj [("selector", .obj [("matchLabels", .obj [(key, .str value)])])])]

end LiveSelectors

theorem live_selectors_fit_of_two :
    let r (i : Bool) := LiveSelectors.registry (if i then "community" else "extra")
    let narrow := LiveSelectors.selecting "community" "app.kubernetes.io/name" serverBinary
    let foreign := LiveSelectors.selecting "extra" "app" "legacy"
    let c := (LocalCluster.empty.insert .deployment narrow).insert .deployment foreign
    let s := (Shared.passes c (fun _ => LiveSelectors.lookup) r fun _ => "registry:1").after
      ((List.replicate 10 [true, false]).flatten.map .turn)
    c.Reachable ∧ c.faults = .empty ∧ Distinct r ∧
      s.programs true = .done (.ok "10.96.0.1:50051") ∧
      s.programs false = .done (.ok "10.96.0.2:50051") ∧
      ∃ deployment service other,
        s.cluster.object .deployment "marketplace" "community" = some deployment ∧
        s.cluster.object .service "marketplace" "community" = some service ∧
        s.cluster.object .deployment "marketplace" "extra" = some other ∧
        (matchLabels deployment).Within (templateLabels deployment) ∧
        ¬ (matchLabels other).Within (templateLabels other) ∧
        (serviceSelector service).Within (templateLabels deployment) ∧
        ¬ (serviceSelector service).Within (templateLabels other) := by
  intro r narrow foreign c s
  have hc : c.Reachable := .insert _ _ (.insert _ _ .empty)
  have hr : Distinct r := by
    intro i j hij
    cases i <;> cases j <;> first | exact absurd rfl hij | exact .inr (by decide)
  have hdone : s.programs true = .done (.ok "10.96.0.1:50051") :=
    Shared.outcome?_eq_some_iff.1 (by decide +kernel)
  have hdone' : s.programs false = .done (.ok "10.96.0.2:50051") :=
    Shared.outcome?_eq_some_iff.1 (by decide +kernel)
  have hfit := live_selectors_fit hc rfl hr (fun _ => LiveSelectors.lookup) (fun _ => "registry:1")
    (List.replicate 10 [true, false]).flatten
  obtain ⟨b, deployment, service, hb, hd, hs, hown, hapart⟩ := hfit true _ hdone
  obtain ⟨b', other, service', hb', hd', -, hother, -⟩ := hfit false _ hdone'
  cases hb
  cases hb'
  have hnarrow : ∃ live, c.object .deployment "marketplace" "community" = some live ∧
      (matchLabels live).Within (Blueprint.selector ⟨"community", "marketplace", "r-1", ""⟩) := by
    decide +kernel
  have hforeign : ∃ live, c.object .deployment "marketplace" "extra" = some live ∧
      ¬ (matchLabels live).Within (Blueprint.selector ⟨"extra", "marketplace", "r-1", ""⟩) := by
    decide +kernel
  refine ⟨hc, rfl, hr, hdone, hdone', deployment, service, other, hd, hs, hd', ?_, ?_,
    hown.served, hapart false _ "extra" other (by decide) hdone' ⟨rfl, rfl⟩ hd'⟩
  · refine hown.own.2 fun live hlive => ?_
    obtain ⟨live', hlive', hwithin⟩ := hnarrow
    cases hlive'.symm.trans hlive
    exact hwithin
  · intro hwithin
    obtain ⟨live, hlive, hnot⟩ := hforeign
    exact hnot (hother.own.1 hwithin live hlive)

theorem live_selectors_kept_by_deployment :
    ¬ ∀ (c : LocalCluster), c.Reachable → c.faults = .empty → ∀ (r : Unit → PackageRegistry),
      Distinct r → ∀ (lookup : Unit → Lookup) (image : Unit → String) (turns : List Unit)
      (address : String), let s := (Shared.passes c lookup r image).after (turns.map .turn)
      s.programs () = .done (.ok address) → ∀ n m, (r ()).KeptAt n m → ∀ deployment,
      s.cluster.object .deployment n m = some deployment →
      (matchLabels deployment).Within (templateLabels deployment) := by
  intro h
  let c := LocalCluster.empty.insert .deployment
    (LiveSelectors.selecting "community" "app" "legacy")
  let r (_ : Unit) := LiveSelectors.registry "community"
  let s := (Shared.passes c (fun _ => LiveSelectors.lookup) r fun _ => "registry:1").after
    ((List.replicate 10 ()).map .turn)
  have hdone : s.programs () = .done (.ok "10.96.0.1:50051") :=
    Shared.outcome?_eq_some_iff.1 (by decide +kernel)
  have hnot : ∃ deployment, s.cluster.object .deployment "marketplace" "community" =
      some deployment ∧ ¬ (matchLabels deployment).Within (templateLabels deployment) := by
    decide +kernel
  obtain ⟨deployment, hdeployment, hnot⟩ := hnot
  exact hnot (h c (.insert _ _ .empty) rfl r (fun i j hij => absurd rfl hij) _ _
    (List.replicate 10 ()) _ hdone _ _ ⟨rfl, rfl⟩ _ hdeployment)

end RegistryKeeper
