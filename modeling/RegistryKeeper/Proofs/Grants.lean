import RegistryKeeper.Proofs.Blueprints

namespace RegistryKeeper

structure Access where
  verb : String
  apiGroup : String
  resource : String
  «namespace» : String
  name : String
  deriving DecidableEq, Repr

def Access.reading (s : SourceRef) : Access :=
  ⟨"get", RegistryKeeper.apiGroup, PackageSource.plural, s.namespace, s.name⟩

def Access.IsSourceRead (a : Access) : Prop :=
  a.verb = "get" ∧ a.apiGroup = RegistryKeeper.apiGroup ∧ a.resource = PackageSource.plural

def Access.IsSecretRead (a : Access) : Prop :=
  a.verb = "get" ∧ a.apiGroup = "" ∧ a.resource = "secrets"

def Covers (given : List String) (asked : String) : Prop := asked ∈ given ∨ "*" ∈ given

instance (given : List String) (asked : String) : Decidable (Covers given asked) :=
  inferInstanceAs (Decidable (_ ∨ _))

namespace Json

def textsAt (j : Json) (k : String) : List String :=
  ((j.field? k).getD .null).items.filterMap text?

theorem filterMap_text?_map_str (l : List String) : (l.map Json.str).filterMap text? = l := by
  induction l with
  | nil => rfl
  | cons s l ih => simp [text?, ih]

theorem textsAt_of_strings {j : Json} {k : String} {l : List String}
    (h : j.field? k = some (strings l)) : j.textsAt k = l := by
  rw [textsAt, h]
  exact filterMap_text?_map_str l

theorem textsAt_of_none {j : Json} {k : String} (h : j.field? k = none) : j.textsAt k = [] := by
  rw [textsAt, h]
  rfl

end Json

/-- The rule is for this use of this object; a rule without names is for objects of any name. -/
def RuleApplies (rule : Json) (a : Access) : Prop :=
  Covers (rule.textsAt "verbs") a.verb ∧ Covers (rule.textsAt "apiGroups") a.apiGroup ∧
    Covers (rule.textsAt "resources") a.resource ∧
    (rule.textsAt "resourceNames" = [] ∨ a.name ∈ rule.textsAt "resourceNames")

def rulesOf (role : Json) : List Json := ((role.field? "rules").getD .null).items

def Permits (role : Json) (a : Access) : Prop :=
  Managed.namespaceOf role = some a.namespace ∧ ∃ rule ∈ rulesOf role, RuleApplies rule a

namespace PolicyRule

theorem textsAt_resourceNames (rule : PolicyRule) :
    rule.toJson.textsAt "resourceNames" = rule.resourceNames.getD [] := by
  cases h : rule.resourceNames with
  | none => exact Json.textsAt_of_none (by simp [toJson, Json.field?_present, Table.lookup, h])
  | some names =>
      exact Json.textsAt_of_strings (by simp [toJson, Json.field?_present, Table.lookup, h])

theorem ruleApplies_toJson (rule : PolicyRule) (a : Access) :
    RuleApplies rule.toJson a ↔
      Covers rule.verbs a.verb ∧ Covers rule.apiGroups a.apiGroup ∧
        Covers rule.resources a.resource ∧
        (rule.resourceNames.getD [] = [] ∨ a.name ∈ rule.resourceNames.getD []) := by
  have hverbs : rule.toJson.textsAt "verbs" = rule.verbs :=
    Json.textsAt_of_strings (by simp [toJson, Json.field?_present, Table.lookup])
  have hgroups : rule.toJson.textsAt "apiGroups" = rule.apiGroups :=
    Json.textsAt_of_strings (by simp [toJson, Json.field?_present, Table.lookup])
  have hresources : rule.toJson.textsAt "resources" = rule.resources :=
    Json.textsAt_of_strings (by simp [toJson, Json.field?_present, Table.lookup])
  rw [RuleApplies, hverbs, hgroups, hresources, textsAt_resourceNames]

theorem exists_ruleApplies_iff (sources : List SourceRef) (a : Access) :
    (∃ rule ∈ (forSources sources).map toJson, RuleApplies rule a) ↔
      a.IsSourceRead ∧ a.name ∈ Resolution.names sources ∨ a.IsSecretRead := by
  have hsecrets : RuleApplies (toJson ⟨["get"], [""], ["secrets"], none⟩) a ↔ a.IsSecretRead := by
    rw [ruleApplies_toJson]
    simp [Access.IsSecretRead, Covers]
  cases sources with
  | nil => simpa [forSources, Resolution.names] using hsecrets
  | cons first rest =>
      have hsources :
          RuleApplies
              (toJson ⟨["get"], [RegistryKeeper.apiGroup], [PackageSource.plural],
                some (Resolution.names (first :: rest))⟩) a ↔
            a.IsSourceRead ∧ a.name ∈ Resolution.names (first :: rest) := by
        rw [ruleApplies_toJson]
        simp [Access.IsSourceRead, RegistryKeeper.apiGroup, PackageSource.plural, Covers,
          Resolution.names, and_assoc]
      simp [forSources, hsecrets, hsources]

theorem exists_forSources_iff (sources : List SourceRef) (s : SourceRef) :
    (∃ rule ∈ (forSources sources).map toJson, RuleApplies rule (.reading s)) ↔
      s.name ∈ Resolution.names sources := by
  have hread : (Access.reading s).IsSourceRead := ⟨rfl, rfl, rfl⟩
  have hsecret : ¬ (Access.reading s).IsSecretRead := by
    rintro ⟨-, hgroup, -⟩
    exact absurd hgroup (by simp [Access.reading, RegistryKeeper.apiGroup])
  rw [exists_ruleApplies_iff, or_iff_left hsecret, and_iff_right hread]
  rfl

end PolicyRule

theorem Resolution.mem_resolve {lookup : Lookup} {packages : List String} {s : SourceRef} :
    s ∈ resolve lookup packages ↔ ∃ package ∈ packages, lookup package = .ok s := by
  have hanswer (answer : Except Failure SourceRef) : answer.toOption = some s ↔ answer = .ok s := by
    cases answer <;> simp [Except.toOption]
  simp [resolve, ofAnswers, mem_distinct, hanswer]

namespace Blueprint

theorem namespaceOf_role (b : Blueprint) (sources : List SourceRef) :
    Managed.namespaceOf (b.role sources) = some b.namespace :=
  (Managed.place_eq_ok_iff.1 (place_desired b [] sources .role)).2

theorem permits_role_iff (b : Blueprint) (sources : List SourceRef) (s : SourceRef) :
    Permits (b.role sources) (.reading s) ↔
      s.namespace = b.namespace ∧ s.name ∈ Resolution.names sources := by
  have hrules : rulesOf (b.role sources) = (PolicyRule.forSources sources).map PolicyRule.toJson := by
    rw [rulesOf, field?_role_rules]
    rfl
  rw [Permits, hrules, namespaceOf_role, PolicyRule.exists_forSources_iff, Option.some.injEq]
  exact and_congr_left fun _ => eq_comm

end Blueprint

theorem role_permits_resolved_iff (lookup : Lookup) (r : PackageRegistry) (image : String)
    {n m : String} (hname : r.metadata.name = some m) (hnamespace : r.metadata.namespace = some n) :
    ∃ b, Blueprint.ofRegistry r image = .ok b ∧
      (∀ s, Permits (b.role (Resolution.resolve lookup r.spec.packages)) (.reading s) ↔
        s.namespace = n ∧
          ∃ package ∈ r.spec.packages, ∃ owner, lookup package = .ok owner ∧ owner.name = s.name) ∧
      ((∀ s, Permits (b.role (Resolution.resolve lookup r.spec.packages)) (.reading s) ↔
          ∃ package ∈ r.spec.packages, lookup package = .ok s) ↔
        ∀ package ∈ r.spec.packages, ∀ owner, lookup package = .ok owner → owner.namespace = n) := by
  have hpermits (s : SourceRef) :
      Permits ((⟨m, n, r.metadata.uid.getD "", image⟩ : Blueprint).role
          (Resolution.resolve lookup r.spec.packages)) (.reading s) ↔
        s.namespace = n ∧
          ∃ package ∈ r.spec.packages, ∃ owner, lookup package = .ok owner ∧
            owner.name = s.name := by
    rw [Blueprint.permits_role_iff, Resolution.names, List.mem_map]
    simp only [Resolution.mem_resolve]
    constructor
    · rintro ⟨hn, owner, ⟨package, hp, ho⟩, hs⟩
      exact ⟨hn, package, hp, owner, ho, hs⟩
    · rintro ⟨hn, package, hp, owner, ho, hs⟩
      exact ⟨hn, owner, ⟨package, hp, ho⟩, hs⟩
  refine ⟨⟨m, n, r.metadata.uid.getD "", image⟩, ?_, hpermits, ?_⟩
  · simp only [Blueprint.ofRegistry, hname, hnamespace]
  · constructor
    · intro hexact package hp owner ho
      have howner := (hexact owner).2 ⟨package, hp, ho⟩
      exact ((hpermits owner).1 howner).1
    · intro hbeside s
      rw [hpermits]
      constructor
      · rintro ⟨hn, package, hp, owner, ho, hs⟩
        have howner : owner = s := by
          have hon := hbeside package hp owner ho
          cases owner
          cases s
          simp_all
        exact ⟨package, hp, howner ▸ ho⟩
      · rintro ⟨package, hp, ho⟩
        exact ⟨hbeside package hp s ho, package, hp, s, ho, rfl⟩

namespace Grants

def catalog : Catalog := Catalog.empty.register ⟨"default", "upstream"⟩ ["etcd"]

def community : PackageRegistry :=
  ⟨{ Metadata.empty with name := some "community", «namespace» := some "marketplace" },
    ⟨["etcd"]⟩, none⟩

end Grants

theorem role_permits_source_beside :
    Resolution.resolve Grants.catalog.read ["etcd"] = [⟨"default", "upstream"⟩] ∧
      ∃ b, Blueprint.ofRegistry Grants.community "registry:1" = .ok b ∧
        ¬ Permits (b.role [⟨"default", "upstream"⟩]) (.reading ⟨"default", "upstream"⟩) ∧
        Permits (b.role [⟨"default", "upstream"⟩]) (.reading ⟨"marketplace", "upstream"⟩) := by
  have hresolved : Resolution.resolve Grants.catalog.read ["etcd"] = [⟨"default", "upstream"⟩] := by
    decide
  obtain ⟨b, hb, hpermits, -⟩ :=
    role_permits_resolved_iff Grants.catalog.read Grants.community "registry:1" rfl rfl
  rw [show Grants.community.spec.packages = ["etcd"] from rfl, hresolved] at hpermits
  refine ⟨hresolved, b, hb, ?_, ?_⟩
  · intro h
    exact absurd ((hpermits _).1 h).1 (by decide)
  · exact (hpermits _).2 ⟨rfl, "etcd", by decide, ⟨"default", "upstream"⟩, rfl, rfl⟩

end RegistryKeeper
