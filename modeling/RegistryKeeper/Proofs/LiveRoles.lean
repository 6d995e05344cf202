import RegistryKeeper.Proofs.Grants
import RegistryKeeper.Proofs.Realization

namespace RegistryKeeper

def Allows (role : Json) (a : Access) : Prop := ∃ rule ∈ rulesOf role, RuleApplies rule a

theorem Resolution.mem_names_resolve {lookup : Lookup} {packages : List String} {name : String} :
    name ∈ names (resolve lookup packages) ↔
      ∃ package ∈ packages, ∃ owner, lookup package = .ok owner ∧ owner.name = name := by
  rw [names, List.mem_map]
  simp only [mem_resolve]
  constructor
  · rintro ⟨owner, ⟨package, hp, ho⟩, hname⟩
    exact ⟨package, hp, owner, ho, hname⟩
  · rintro ⟨package, hp, owner, ho, hname⟩
    exact ⟨owner, ⟨package, hp, ho⟩, hname⟩

namespace Blueprint

theorem allows_iff_of_rules {role : Json} {sources : List SourceRef}
    (h : role.at? ["rules"] = some (rules sources)) (a : Access) :
    Allows role a ↔ a.IsSourceRead ∧ a.name ∈ Resolution.names sources ∨ a.IsSecretRead := by
  have hrules : rulesOf role = (PolicyRule.forSources sources).map PolicyRule.toJson := by
    rw [rulesOf, ← Json.at?_singleton, h]
    rfl
  rw [Allows, hrules]
  exact PolicyRule.exists_ruleApplies_iff sources a

theorem not_allows_of_no_sources {role : Json}
    (h : role.at? ["rules"] = some (rules [])) {a : Access}
    (ha : a.resource = PackageSource.plural) : ¬ Allows role a := by
  rw [allows_iff_of_rules h]
  rintro (⟨-, hname⟩ | ⟨-, -, hsecret⟩)
  · cases hname
  · exact absurd (ha.symm.trans hsecret) (by decide)

end Blueprint

theorem Resolution.resolve_eq_nil {lookup : Lookup} {packages : List String}
    (h : ∀ package ∈ packages, ∀ owner, lookup package ≠ .ok owner) :
    resolve lookup packages = [] := by
  apply List.eq_nil_iff_forall_not_mem.2
  intro s hs
  obtain ⟨package, hp, ho⟩ := mem_resolve.1 hs
  exact h package hp s ho

theorem establish_ok_cases {c : LocalCluster} (hs : c.store.Sound) (hf : c.faults = .empty)
    (lookup : Lookup) (r : PackageRegistry) (image : String) :
    (∃ b address after, Blueprint.ofRegistry r image = .ok b ∧
      Program.run LocalCluster.answer (establish lookup r image).run c = (.ok address, after) ∧
      b.Realized r.spec.packages (Resolution.resolve lookup r.spec.packages) c after) ∨
    ∃ f, Blueprint.ofRegistry r image = .error f ∧
      Program.run LocalCluster.answer (establish lookup r image).run c = (.error f, c) := by
  cases hb : Blueprint.ofRegistry r image with
  | error f =>
      refine .inr ⟨f, rfl, ?_⟩
      rw [establish, hb]
      rfl
  | ok b =>
      obtain ⟨service, after, hstore, hservice, hrun⟩ := Blueprint.run_establish b r.spec.packages
        (Resolution.resolve lookup r.spec.packages) hs hf
      have hr := Blueprint.realized_of_settleAll hs hstore
      have hpass : establish lookup r image = b.establish r.spec.packages
          (Resolution.resolve lookup r.spec.packages) := by
        rw [establish, hb]
      rw [hr.addressOfService hservice, ← hpass] at hrun
      exact .inl ⟨b, _, after, rfl, hrun, hr⟩

theorem Blueprint.exists_ofRegistry_iff {r : PackageRegistry} {image : String} :
    (∃ b, ofRegistry r image = .ok b) ↔ r.metadata.name.isSome ∧ r.metadata.namespace.isSome := by
  simp only [ofRegistry_eq_ok_iff, Option.isSome_iff_exists]
  constructor
  · rintro ⟨b, m, n, hm, hn, -⟩
    exact ⟨⟨m, hm⟩, n, hn⟩
  · rintro ⟨⟨m, hm⟩, n, hn⟩
    exact ⟨_, m, n, hm, hn, rfl⟩

theorem live_role_allows_iff {c : LocalCluster} (hc : c.Reachable) (hf : c.faults = .empty)
    (lookup : Lookup) (r : PackageRegistry) (image : String) :
    let ran := Program.run LocalCluster.answer (establish lookup r image).run c
    ((∃ address, ran.1 = .ok address) ↔
      r.metadata.name.isSome ∧ r.metadata.namespace.isSome) ∧
    ∀ address, ran.1 = .ok address →
      ∃ n m role, r.metadata.namespace = some n ∧ r.metadata.name = some m ∧
        ran.2.object .role n m = some role ∧
        (∀ a, Allows role a ↔
          (a.IsSourceRead ∧ ∃ package ∈ r.spec.packages, ∃ owner,
            lookup package = .ok owner ∧ owner.name = a.name) ∨ a.IsSecretRead) ∧
        ((∀ package ∈ r.spec.packages, ∀ owner, lookup package ≠ .ok owner) →
          ∀ a, a.resource = PackageSource.plural → ¬ Allows role a) := by
  intro ran
  rw [← @Blueprint.exists_ofRegistry_iff r image]
  obtain ⟨b, address, after, hb, hrun, hr⟩ | ⟨f, hb, hrun⟩ :=
    establish_ok_cases hc.sound hf lookup r image
  · obtain ⟨m, n, hm, hn, rfl⟩ := Blueprint.ofRegistry_eq_ok_iff.1 hb
    obtain ⟨role, hlive, hrules, -⟩ := hr.role
    simp only [ran, hrun]
    refine ⟨iff_of_true ⟨address, rfl⟩ ⟨_, hb⟩, fun _ _ => ⟨n, m, role, hn, hm, hlive, ?_, ?_⟩⟩
    · intro a
      rw [Blueprint.allows_iff_of_rules hrules, Resolution.mem_names_resolve]
    · intro hnone a ha
      rw [Resolution.resolve_eq_nil hnone] at hrules
      exact Blueprint.not_allows_of_no_sources hrules ha
  · simp only [ran, hrun, hb]
    exact ⟨by simp, by simp⟩

namespace LiveRoles

def community : PackageRegistry :=
  ⟨{ Metadata.empty with
      name := some "community", «namespace» := some "marketplace", uid := some "r-1" },
    ⟨["etcd", "vault"]⟩, none⟩

def everything : PolicyRule := ⟨["*"], ["*"], ["*"], none⟩

def before : LocalCluster :=
  LocalCluster.empty.insert .role
    (((Blueprint.mk "community" "marketplace" "r-1" "registry:1").role []).setAt ["rules"]
      (.arr [everything.toJson]))

def catalog : Catalog := Catalog.empty.register ⟨"default", "upstream"⟩ ["etcd"]

def after (lookup : Lookup) : LocalCluster :=
  (Program.run LocalCluster.answer (establish lookup community "registry:1").run before).2

end LiveRoles

theorem live_role_closes_wide_one :
    LiveRoles.before.Reachable ∧ LiveRoles.before.faults = .empty ∧
      (∃ role, LiveRoles.before.object .role "marketplace" "community" = some role ∧
        ∀ a, Allows role a) ∧
      (∃ role, (LiveRoles.after LiveRoles.catalog.read).object .role "marketplace" "community" =
          some role ∧
        ∀ a, Allows role a ↔ (a.IsSourceRead ∧ a.name = "upstream") ∨ a.IsSecretRead) ∧
      ∃ role, (LiveRoles.after Catalog.empty.read).object .role "marketplace" "community" =
          some role ∧
        ∀ a, a.resource = PackageSource.plural → ¬ Allows role a := by
  have hc : LiveRoles.before.Reachable := .insert _ _ .empty
  have hpass (lookup : Lookup) := live_role_allows_iff hc rfl lookup LiveRoles.community "registry:1"
  have hlive (lookup : Lookup) : ∃ role,
      (LiveRoles.after lookup).object .role "marketplace" "community" = some role ∧
        (∀ a, Allows role a ↔
          (a.IsSourceRead ∧ ∃ package ∈ ["etcd", "vault"], ∃ owner,
            lookup package = .ok owner ∧ owner.name = a.name) ∨ a.IsSecretRead) ∧
        ((∀ package ∈ ["etcd", "vault"], ∀ owner, lookup package ≠ .ok owner) →
          ∀ a, a.resource = PackageSource.plural → ¬ Allows role a) := by
    obtain ⟨address, hok⟩ := (hpass lookup).1.2 ⟨rfl, rfl⟩
    obtain ⟨n, m, role, hn, hm, hrole⟩ := (hpass lookup).2 address hok
    cases hn
    cases hm
    exact ⟨role, hrole⟩
  refine ⟨hc, rfl, ?_, ?_, ?_⟩
  · have hrules : ∃ role, LiveRoles.before.object .role "marketplace" "community" = some role ∧
        rulesOf role = [LiveRoles.everything.toJson] := by
      decide +kernel
    obtain ⟨role, hrole, hrules⟩ := hrules
    refine ⟨role, hrole, fun a => ⟨_, hrules ▸ List.mem_singleton_self _, ?_⟩⟩
    rw [PolicyRule.ruleApplies_toJson]
    simp [LiveRoles.everything, Covers]
  · obtain ⟨role, hrole, hallows, -⟩ := hlive LiveRoles.catalog.read
    have hetcd : LiveRoles.catalog.read "etcd" = .ok ⟨"default", "upstream"⟩ := rfl
    have hvault : LiveRoles.catalog.read "vault" = .error (.packageNotFound "vault") := rfl
    refine ⟨role, hrole, fun a => (hallows a).trans ?_⟩
    simp [hetcd, hvault, eq_comm]
  · obtain ⟨role, hrole, -, hclosed⟩ := hlive Catalog.empty.read
    refine ⟨role, hrole, hclosed ?_⟩
    simp [Catalog.read, Catalog.empty]

end RegistryKeeper
