import RegistryKeeper.Proofs.LocalRuns
import RegistryKeeper.Proofs.PassStages

namespace RegistryKeeper

theorem ManagedKind.rank_injective {k k' : ManagedKind} (h : k.rank = k'.rank) : k = k' := by
  revert h
  cases k <;> cases k' <;> decide

theorem ManagedKind.rank_le_service (k : ManagedKind) : k.rank ≤ ManagedKind.service.rank := by
  cases k <;> decide

theorem ManagedKind.drift_eq_renew_iff {k : ManagedKind} : k.drift = .renew ↔ k = .service := by
  cases k <;> decide

def Stage.Proper (name : String) : Stage → Prop
  | amend k live => k.drift = .amend ∧ (Managed.nameOf live).getD "" = name
  | clear k | reread k => k.drift = .renew
  | fetch _ | make _ | failed _ _ | closed _ => True

namespace Plan
variable {p : Plan} {k : ManagedKind} {s : Store ManagedKind}

def Suits (p : Plan) (k : ManagedKind) (j : Json) : Prop :=
  match k with
  | .serviceAccount => True
  | .role => j.at? ["rules"] = some (Blueprint.rules p.sources)
  | .roleBinding =>
      j.at? ["roleRef"] = some p.blueprint.roleRef ∧
        j.at? ["subjects"] = some p.blueprint.subjects
  | .deployment =>
      j.at? ["spec", "template"] =
        some (p.blueprint.podTemplate (serverCommand p.packages p.sources))
  | .service => ∃ address, addressOfService j = .ok address

theorem Suits.congr {i j : Json} (hk : k ≠ .service)
    (h : Json.AgreeOff [versionPath, uidPath, addressPath] i j) (hi : p.Suits k i) :
    p.Suits k j := by
  cases k with
  | serviceAccount => trivial
  | role => exact (h _ (by decide)).trans hi
  | roleBinding => exact ⟨(h _ (by decide)).trans hi.1, (h _ (by decide)).trans hi.2⟩
  | deployment => exact (h _ (by decide)).trans hi
  | service => exact absurd rfl hk

theorem suits_desired (hk : k ≠ .service) : p.Suits k (p.desired k) := by
  cases k with
  | serviceAccount => trivial
  | role => exact (Json.at?_singleton _ _).trans (Blueprint.field?_role_rules _ _)
  | roleBinding =>
      constructor
      · exact (Json.at?_singleton _ _).trans (Blueprint.field?_roleBinding_roleRef _)
      · exact (Json.at?_singleton _ _).trans (Blueprint.field?_roleBinding_subjects _)
  | deployment =>
      have hspec := p.blueprint.field?_deployment_spec (serverCommand p.packages p.sources)
      have htemplate :=
        p.blueprint.field?_deploymentSpec_template (serverCommand p.packages p.sources)
      exact (Json.at?_cons _ _ _).trans (by simp [desired, Blueprint.desired, hspec, htemplate])
  | service => exact absurd rfl hk

theorem suits_amend (hk : k.drift = .amend) (live : Json) :
    p.Suits k (Managed.amend k live (p.desired k)) := by
  cases k with
  | serviceAccount | service => cases hk
  | role =>
      have hamend := Blueprint.amend_role p.blueprint p.sources live
      exact (congrArg (·.at? ["rules"]) hamend).trans (Json.at?_setAt ..)
  | roleBinding =>
      have hamend := Blueprint.amend_roleBinding p.blueprint live
      constructor
      · have hkeep := Json.at?_setAt_of_apart (p := ["subjects"]) (q := ["roleRef"]) (by decide)
        exact (congrArg (·.at? ["roleRef"]) hamend).trans ((hkeep _ _).trans (Json.at?_setAt ..))
      · exact (congrArg (·.at? ["subjects"]) hamend).trans (Json.at?_setAt ..)
  | deployment =>
      cases hspec : live.field? "spec" with
      | none =>
          have hamend := Blueprint.amend_deployment_of_no_spec p.blueprint
            (serverCommand p.packages p.sources) hspec
          refine (congrArg (·.at? ["spec", "template"]) hamend).trans ?_
          have htemplate :=
            p.blueprint.field?_deploymentSpec_template (serverCommand p.packages p.sources)
          simp [Json.at?_cons, Json.setAt, Json.field?_withField, htemplate]
      | some own =>
          have hamend := Blueprint.amend_deployment_of_spec p.blueprint
            (serverCommand p.packages p.sources) hspec
          exact (congrArg (·.at? ["spec", "template"]) hamend).trans (Json.at?_setAt ..)

def write (p : Plan) (s : Store ManagedKind) (k : ManagedKind) (j : Json) :
    Json × Store ManagedKind :=
  s.write (p.place k) (k = .service) j

theorem agreeOff_write (s : Store ManagedKind) (k : ManagedKind) (j : Json) :
    Json.AgreeOff [versionPath, uidPath, addressPath] j (p.write s k j).1 :=
  Store.agreeOff_write s (p.place k) (k = .service) j

theorem suits_service (hs : s.addressing = .drawn) :
    p.Suits .service (p.write s .service (p.desired .service)).1 := by
  have haddress := p.blueprint.address_service
  have hstored := Store.write_service hs haddress (p.place .service)
  have hports : (p.write s .service (p.desired .service)).1.at? ["spec", "ports"] =
      some (.arr [Blueprint.servicePort]) :=
    (agreeOff_write s .service _ _ (by decide)).trans p.blueprint.ports_service
  have hip : (p.write s .service (p.desired .service)).1.textAt? addressPath =
      some (drawnAddress (s.addresses + 1)) := by
    refine (congrArg (·.textAt? addressPath) hstored).trans ?_
    rw [Json.textAt?, Json.at?_setAt]
    rfl
  have husable := drawnAddress_usable (s.addresses + 1)
  exact ⟨_, addressOfService_of_reachedAt ⟨_, _, _, hip, husable.1, husable.2, hports, rfl⟩⟩

theorem suits_write_desired (hs : s.addressing = .drawn) (k : ManagedKind) :
    p.Suits k (p.write s k (p.desired k)).1 := by
  by_cases hk : k = .service
  · subst hk
    exact suits_service hs
  · exact (suits_desired hk).congr hk (agreeOff_write s k _)

theorem suits_write_amend (hk : k.drift = .amend) (live : Json) :
    p.Suits k (p.write s k (Managed.amend k live (p.desired k))).1 := by
  have hservice : k ≠ .service := by
    rintro rfl
    cases hk
  exact (suits_amend hk live).congr hservice (agreeOff_write s k _)

def Fits (p : Plan) (s : Store ManagedKind) (k : ManagedKind) : Prop :=
  ∃ j, s.get? (p.place k) = some j ∧ p.Suits k j

theorem fits_write {j : Json} (h : p.Suits k (p.write s k j).1) : p.Fits (p.write s k j).2 k :=
  ⟨_, Store.get?_write_self .., h⟩

theorem place_injective {k k' : ManagedKind} (h : p.place k = p.place k') : k = k' :=
  congrArg Place.kind h

theorem ne_of_found_of_missing {k' : ManagedKind} {j : Json} (h : s.get? (p.place k) = some j)
    (h' : s.get? (p.place k') = none) : k ≠ k' := by
  rintro rfl
  rw [h'] at h
  cases h

theorem get?_write_of_ne {k' : ManagedKind} (h : k ≠ k') (j : Json) :
    (p.write s k j).2.get? (p.place k') = s.get? (p.place k') :=
  (Store.get?_write ..).trans (if_neg (mt place_injective h))

theorem get?_erase_of_ne {k' : ManagedKind} (h : k ≠ k') :
    (s.erase (p.place k)).get? (p.place k') = s.get? (p.place k') :=
  (Store.get?_erase ..).trans (if_neg (mt place_injective h))

def named (p : Plan) (k : ManagedKind) : Named := ⟨k.name, p.blueprint.namespace, p.blueprint.name⟩

inductive Turned (p : Plan) (s : Store ManagedKind) :
    Stage → Stage → Store ManagedKind → Prop where
  | absent {k : ManagedKind} (h : s.get? (p.place k) = none) : Turned p s (.fetch k) (.make k) s
  | present {k : ManagedKind} {live : Json} (h : s.get? (p.place k) = some live) :
      Turned p s (.fetch k) (found k live) s
  | created {k : ManagedKind} (h : s.get? (p.place k) = none) :
      Turned p s (.make k) (next k (p.write s k (p.desired k)).1) (p.write s k (p.desired k)).2
  | beaten {k : ManagedKind} {live : Json} (h : s.get? (p.place k) = some live) :
      Turned p s (.make k) (p.outrun k) s
  | replaced {k : ManagedKind} {live current : Json} (h : s.get? (p.place k) = some current)
      (hversion : Managed.versionOf live = Managed.versionOf current) :
      Turned p s (.amend k live)
        (next k (p.write s k (Managed.amend k live (p.desired k))).1)
        (p.write s k (Managed.amend k live (p.desired k))).2
  | stale {k : ManagedKind} {live current : Json} (h : s.get? (p.place k) = some current)
      (hversion : Managed.versionOf live ≠ Managed.versionOf current) :
      Turned p s (.amend k live) (.failed k (.conflict (p.named k))) s
  | gone {k : ManagedKind} {live : Json} (h : s.get? (p.place k) = none) :
      Turned p s (.amend k live) (.failed k (.notFound (p.named k))) s
  | cleared {k : ManagedKind} {live : Json} (h : s.get? (p.place k) = some live) :
      Turned p s (.clear k) (.make k) (s.erase (p.place k))
  | missing {k : ManagedKind} (h : s.get? (p.place k) = none) : Turned p s (.clear k) (.make k) s
  | reread {k : ManagedKind} {live : Json} (h : s.get? (p.place k) = some live) :
      Turned p s (.reread k) (next k live) s
  | lost {k : ManagedKind} (h : s.get? (p.place k) = none) :
      Turned p s (.reread k) (next k (p.desired k)) s
  | idle {st : Stage} (h : st.left = 0) : Turned p s st st s

theorem object_record (p : Plan) (c : LocalCluster) (call : Call) (k : ManagedKind) :
    (c.record call).object k p.blueprint.namespace p.blueprint.name = c.store.get? (p.place k) :=
  rfl

theorem turned {st : Stage} {c : LocalCluster} (hc : c.faults = .empty)
    (hst : st.Proper p.blueprint.name) :
    p.Turned c.store st (p.turn st c).1 (p.turn st c).2.store := by
  cases st with
  | fetch k =>
      simp only [turn, act, LocalCluster.answer_of_no_faults hc, LocalCluster.serve, object_record]
      cases hlive : c.store.get? (p.place k) with
      | none => exact .absent hlive
      | some live => exact .present hlive
  | make k =>
      simp only [turn, act, LocalCluster.answer_of_no_faults hc, LocalCluster.serve,
        p.name_desired, object_record]
      cases hlive : c.store.get? (p.place k) with
      | none => exact .created hlive
      | some live => exact .beaten hlive
  | amend k live =>
      have hname := (Managed.nameOf_amend k live (p.desired k)).symm ▸ hst.2
      simp only [turn, act, LocalCluster.answer_of_no_faults hc, LocalCluster.serve, hname,
        Managed.versionOf_amend, object_record]
      cases hcurrent : c.store.get? (p.place k) with
      | none => exact .gone hcurrent
      | some current =>
          by_cases hversion : Managed.versionOf live = Managed.versionOf current
          · simp only [if_pos hversion]
            exact .replaced hcurrent hversion
          · simp only [if_neg hversion]
            exact .stale hcurrent hversion
  | clear k =>
      simp only [turn, act, LocalCluster.answer_of_no_faults hc, LocalCluster.serve, object_record]
      cases hlive : c.store.get? (p.place k) with
      | none => exact .missing hlive
      | some live => exact .cleared hlive
  | reread k =>
      simp only [turn, act, LocalCluster.answer_of_no_faults hc, LocalCluster.serve, object_record]
      cases hlive : c.store.get? (p.place k) with
      | none => exact .lost hlive
      | some live => exact .reread hlive
  | failed k f => exact .idle rfl
  | closed outcome => exact .idle rfl

theorem faults_turn (p : Plan) (st : Stage) (c : LocalCluster) :
    (p.turn st c).2.faults = c.faults := by
  unfold turn
  cases p.act st with
  | finish outcome => rfl
  | call call next => exact LocalCluster.faults_answer call c

theorem sound_turn {c : LocalCluster} (h : c.store.Sound) (p : Plan) (st : Stage) :
    (p.turn st c).2.store.Sound := by
  unfold turn
  cases p.act st with
  | finish outcome => exact h
  | call call next => exact LocalCluster.sound_answer h call

theorem next_eq_fetch (hk : k ≠ .service) (settled : Json) : ∃ k', next k settled = .fetch k' := by
  rcases next_cases k settled with ⟨rfl, -⟩ | ⟨-, k', -, hnext⟩
  · exact absurd rfl hk
  · exact ⟨k', hnext⟩

theorem proper_next (name : String) (k : ManagedKind) (settled : Json) :
    (next k settled).Proper name := by
  rcases next_cases k settled with ⟨-, hnext⟩ | ⟨-, k', -, hnext⟩
  · rw [hnext]
    trivial
  · rw [hnext]
    trivial

theorem proper_outrun (name : String) (p : Plan) (k : ManagedKind) :
    (p.outrun k).Proper name := by
  cases k <;> trivial

theorem proper_found {name : String} {live : Json} (k : ManagedKind)
    (h : (Managed.nameOf live).getD "" = name) : (found k live).Proper name := by
  cases k with
  | serviceAccount => trivial
  | role | roleBinding | deployment => exact ⟨rfl, h⟩
  | service => exact ManagedKind.drift_eq_renew_iff.2 rfl

namespace Turned
variable {st st' : Stage} {s' : Store ManagedKind}

theorem proper (h : p.Turned s st st' s') (hs : s.Sound) (hst : st.Proper p.blueprint.name) :
    st'.Proper p.blueprint.name := by
  cases h with
  | absent h => trivial
  | present h => exact proper_found _ (hs.filed _ _ h)
  | created h => exact proper_next _ _ _
  | beaten h => exact proper_outrun _ p _
  | replaced h hversion => exact proper_next _ _ _
  | stale h hversion => trivial
  | gone h => trivial
  | cleared h => trivial
  | missing h => trivial
  | reread h => exact proper_next _ _ _
  | lost h => exact proper_next _ _ _
  | idle h => exact hst

theorem follows (h : p.Turned s st st' s') : p.Follows st st' := by
  cases h with
  | absent h => exact .absent _
  | present h => exact .found _ _
  | created h => exact .created _ _
  | beaten h => exact .outrun _
  | replaced h hversion => exact .replaced _ _ _
  | stale h hversion => exact .failed rfl _
  | gone h => exact .failed rfl _
  | cleared h => exact .cleared _
  | missing h => exact .cleared _
  | reread h => exact .reread _ _
  | lost h => exact .reread _ _
  | idle h => exact .idle h

theorem get?_of_rank_ne (h : p.Turned s st st' s') (hk : k.rank ≠ st.rank) :
    s'.get? (p.place k) = s.get? (p.place k) := by
  have hne {k' : ManagedKind} (hk' : k.rank ≠ k'.rank) : k' ≠ k := by
    rintro rfl
    exact hk' rfl
  cases h with
  | created h => exact get?_write_of_ne (hne hk) _
  | replaced h hversion => exact get?_write_of_ne (hne hk) _
  | cleared h => exact get?_erase_of_ne (hne hk)
  | absent h | present h | beaten h | stale h hversion | gone h => rfl
  | missing h | reread h | lost h | idle h => rfl

theorem fits (h : p.Turned s st st' s') (hst : st.Proper p.blueprint.name) (hk : k ≠ .service)
    (hfits : p.Fits s k) : p.Fits s' k := by
  obtain ⟨j, hj, hsuits⟩ := hfits
  by_cases hrank : k.rank = st.rank
  · cases h with
    | created h =>
        obtain rfl := ManagedKind.rank_injective hrank
        rw [h] at hj
        cases hj
    | replaced h hversion =>
        obtain rfl := ManagedKind.rank_injective hrank
        exact fits_write (suits_write_amend hst.1 _)
    | cleared h =>
        obtain rfl := ManagedKind.rank_injective hrank
        exact absurd (ManagedKind.drift_eq_renew_iff.1 hst) hk
    | absent h | present h | beaten h | stale h hversion | gone h => exact ⟨j, hj, hsuits⟩
    | missing h | reread h | lost h | idle h => exact ⟨j, hj, hsuits⟩
  · exact ⟨j, (h.get?_of_rank_ne hrank).trans hj, hsuits⟩

end Turned

end Plan

end RegistryKeeper
