import RegistryKeeper.Proofs.Blueprints
import RegistryKeeper.Proofs.LocalRuns

namespace RegistryKeeper

namespace Json

theorem put_put_self (k : String) (v w : Json) (l : List (String × Json)) :
    put k w (put k v l) = put k w l := by
  induction l with
  | nil => simp [put]
  | cons e l ih =>
      obtain ⟨a, u⟩ := e
      by_cases ha : a = k
      · simp [put, ha]
      · by_cases hl : k < a
        · simp [put, ha, hl]
        · simp [put, ha, hl, ih]

theorem put_comm_of_lt {k k' : String} (h : k < k') (v v' : Json) (l : List (String × Json)) :
    put k v (put k' v' l) = put k' v' (put k v l) := by
  have hnot : ¬ k' < k := fun h' => String.lt_irrefl k (String.lt_trans h h')
  have hne : k ≠ k' := fun heq => String.lt_irrefl k (heq ▸ h)
  induction l with
  | nil => simp [put, h, hne, hne.symm, hnot]
  | cons e l ih =>
      obtain ⟨a, u⟩ := e
      by_cases ha : a = k
      · subst ha
        simp [put, hne, hnot]
      · by_cases ha' : a = k'
        · subst ha'
          simp [put, h, hne, hne.symm, hnot]
        · by_cases hl : k < a
          · by_cases hl' : k' < a
            · simp [put, ha, ha', h, hl, hl', hne, hne.symm, hnot]
            · simp [put, ha, ha', hl, hl', hne, hnot]
          · have hl' : ¬ k' < a := fun hlt => hl (String.lt_trans h hlt)
            simp [put, ha, ha', hl, hl', ih]

theorem put_comm {k k' : String} (h : k ≠ k') (v v' : Json) (l : List (String × Json)) :
    put k v (put k' v' l) = put k' v' (put k v l) := by
  rcases Std.lt_trichotomy k k' with hlt | heq | hlt
  · exact put_comm_of_lt hlt v v' l
  · exact absurd heq h
  · exact (put_comm_of_lt hlt v' v l).symm

theorem withField_withField_self (j : Json) (k : String) (v w : Json) :
    (j.withField k v).withField k w = j.withField k w :=
  congrArg obj (put_put_self k v w j.fields)

theorem withField_comm {k k' : String} (h : k ≠ k') (j v v' : Json) :
    (j.withField k' v').withField k v = (j.withField k v).withField k' v' :=
  congrArg obj (put_comm h v v' j.fields)

theorem setAt_setAt_self (j : Json) (p : List String) (v w : Json) :
    (j.setAt p v).setAt p w = j.setAt p w := by
  induction p generalizing j with
  | nil => rfl
  | cons k p ih =>
      rw [setAt, setAt, setAt, field?_withField, if_pos rfl, Option.getD_some, ih,
        withField_withField_self]

theorem setAt_comm {p q : List String} (h : Apart p q) (j v w : Json) :
    (j.setAt p v).setAt q w = (j.setAt q w).setAt p v := by
  induction p generalizing j q with
  | nil => exact absurd List.nil_prefix h.1
  | cons k p ih =>
      cases q with
      | nil => exact absurd rfl h.ne_nil
      | cons k' q =>
          by_cases hk : k = k'
          · subst hk
            simp only [setAt, field?_withField, if_true, Option.getD_some,
              withField_withField_self, ih (apart_cons_self.1 h)]
          · simp only [setAt, field?_withField, if_neg hk, if_neg (Ne.symm hk)]
            exact withField_comm (Ne.symm hk) j _ _

theorem object_concat (l : List (String × Json)) (k : String) (v : Json) :
    object (l ++ [(k, v)]) = (object l).withField k v := by
  rw [object, List.foldl_append]
  rfl

end Json

namespace Blueprint

structure Alike (b b' : Blueprint) : Prop where
  name : b.name = b'.name
  «namespace» : b.namespace = b'.namespace
  uid : b.uid = b'.uid

theorem document_concat (b : Blueprint) (k : ManagedKind) (contents : List (String × Json))
    (key : String) (v : Json) :
    b.document k (contents ++ [(key, v)]) = (b.document k contents).withField key v :=
  Json.object_concat (("apiVersion", .str k.apiVersion) :: ("kind", .str k.name) ::
    ("metadata", b.metadata) :: contents) key v

theorem role_eq (b : Blueprint) (sources : List SourceRef) :
    b.role sources = (b.document .role []).withField "rules" (rules sources) :=
  b.document_concat .role [] "rules" _

theorem deployment_eq (b : Blueprint) (command : List String) :
    b.deployment command =
      (b.document .deployment []).withField "spec" (b.deploymentSpec command) :=
  b.document_concat .deployment [] "spec" _

section
variable {b b' : Blueprint} {command command' : List String} {sources sources' : List SourceRef}

theorem Alike.document (h : b.Alike b') (k : ManagedKind) (contents : List (String × Json)) :
    b.document k contents = b'.document k contents := by
  simp only [Blueprint.document, Blueprint.metadata, owner, h.name, h.namespace, h.uid]

theorem Alike.roleBinding (h : b.Alike b') : b.roleBinding = b'.roleBinding := by
  simp only [Blueprint.roleBinding, h.document, roleRef, subjects, h.name, h.namespace]

theorem Alike.deploymentSpec (h : b.Alike b') :
    (b.deploymentSpec command).withField "template" (b'.podTemplate command') =
      b'.deploymentSpec command' := by
  let rest (b : Blueprint) : List (String × Json) :=
    [("replicas", .int 1),
      ("selector", Json.object [("matchLabels", Json.stringMap (podLabels b.name))])]
  have hrest : rest b = rest b' := by simp only [rest, h.name]
  calc (b.deploymentSpec command).withField "template" (b'.podTemplate command')
      = ((Json.object (rest b)).withField "template" (b.podTemplate command)).withField "template"
          (b'.podTemplate command') :=
          congrArg (Json.withField · "template" _) (Json.object_concat (rest b) _ _)
    _ = (Json.object (rest b')).withField "template" (b'.podTemplate command') := by
          rw [Json.withField_withField_self, hrest]
    _ = b'.deploymentSpec command' := (Json.object_concat (rest b') _ _).symm

theorem Alike.setAt_template (h : b.Alike b') {j : Json}
    (hj : j.field? "spec" = some (b.deploymentSpec command)) :
    j.setAt ["spec", "template"] (b'.podTemplate command') =
      j.withField "spec" (b'.deploymentSpec command') := by
  rw [← Json.withField_withField_eq_setAt hj, h.deploymentSpec]

theorem amend_desired (h : b.Alike b') {k : ManagedKind} (hk : k.drift = .amend) :
    Managed.amend k (b.desired command sources k) (b'.desired command' sources' k) =
      b'.desired command' sources' k := by
  cases k with
  | serviceAccount | service => cases hk
  | role =>
      simp only [desired, amend_role]
      rw [← Json.withField_eq_setAt, role_eq, Json.withField_withField_self, h.document, role_eq]
  | roleBinding =>
      have hlast := document_concat b' .roleBinding [("roleRef", b'.roleRef)] "subjects" b'.subjects
      have hfirst := document_concat b' .roleBinding [] "roleRef" b'.roleRef
      simp only [desired, amend_roleBinding, h.roleBinding, ← Json.withField_eq_setAt]
      rw [show b'.roleBinding = _ from hlast, show b'.document _ [("roleRef", _)] = _ from hfirst,
        Json.withField_comm (show "roleRef" ≠ "subjects" by decide),
        Json.withField_withField_self, Json.withField_withField_self]
  | deployment =>
      have hspec := b.field?_deployment_spec command
      simp only [desired, amend_deployment_of_spec _ _ hspec]
      rw [h.setAt_template hspec, deployment_eq, Json.withField_withField_self, h.document,
        deployment_eq]

theorem amend_amend (h : b.Alike b') (k : ManagedKind) (live : Json) :
    Managed.amend k (Managed.amend k live (b.desired command sources k))
        (b'.desired command' sources' k) =
      Managed.amend k live (b'.desired command' sources' k) := by
  cases k with
  | serviceAccount | service => rfl
  | role => simp only [desired, amend_role, Json.setAt_setAt_self]
  | roleBinding =>
      simp only [desired, amend_roleBinding, h.roleBinding]
      rw [Json.setAt_comm (p := ["subjects"]) (q := ["roleRef"]) (by decide),
        Json.setAt_setAt_self, Json.setAt_setAt_self]
  | deployment =>
      cases hlive : live.field? "spec" with
      | none =>
          have hspec : (live.setAt ["spec"] (b.deploymentSpec command)).field? "spec" =
              some (b.deploymentSpec command) := by
            rw [← Json.withField_eq_setAt, Json.field?_withField, if_pos rfl]
          simp only [desired, amend_deployment_of_no_spec _ _ hlive,
            amend_deployment_of_spec _ _ hspec]
          rw [h.setAt_template hspec, ← Json.withField_eq_setAt, Json.withField_withField_self,
            Json.withField_eq_setAt]
      | some own =>
          have hspec : ∃ own', (live.setAt ["spec", "template"]
              (b.podTemplate command)).field? "spec" = some own' := by
            rw [Json.setAt, Json.field?_withField, if_pos rfl]
            exact ⟨_, rfl⟩
          obtain ⟨own', hspec⟩ := hspec
          simp only [desired, amend_deployment_of_spec _ _ hlive,
            amend_deployment_of_spec _ _ hspec, Json.setAt_setAt_self]

end

theorem amend_setAt_metadata (b : Blueprint) (command : List String) (sources : List SourceRef)
    (k : ManagedKind) (live v : Json) (p : List String) :
    Managed.amend k (live.setAt ("metadata" :: p) v) (b.desired command sources k) =
      (Managed.amend k live (b.desired command sources k)).setAt ("metadata" :: p) v := by
  have apart (key : String) (hkey : key ≠ "metadata") (q : List String) :
      Json.Apart ("metadata" :: p) (key :: q) :=
    Json.apart_cons_of_ne hkey.symm p q
  cases k with
  | serviceAccount | service => rfl
  | role =>
      simp only [desired, amend_role]
      exact Json.setAt_comm (apart _ (by decide) _) ..
  | roleBinding =>
      simp only [desired, amend_roleBinding]
      rw [Json.setAt_comm (apart "roleRef" (by decide) _),
        Json.setAt_comm (apart "subjects" (by decide) _)]
  | deployment =>
      have hspec : (live.setAt ("metadata" :: p) v).field? "spec" = live.field? "spec" := by
        rw [Json.setAt, Json.field?_withField, if_neg (by decide)]
      cases hlive : live.field? "spec" with
      | none =>
          simp only [desired, amend_deployment_of_no_spec _ _ hlive,
            amend_deployment_of_no_spec _ _ (hspec.trans hlive)]
          exact Json.setAt_comm (apart _ (by decide) _) ..
      | some own =>
          simp only [desired, amend_deployment_of_spec _ _ hlive,
            amend_deployment_of_spec _ _ (hspec.trans hlive)]
          exact Json.setAt_comm (apart _ (by decide) _) ..

end Blueprint

end RegistryKeeper
