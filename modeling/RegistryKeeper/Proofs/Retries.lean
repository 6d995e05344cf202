import RegistryKeeper.Proofs.Overwrites
import RegistryKeeper.Proofs.Realization
import RegistryKeeper.Proofs.Restamps
import RegistryKeeper.Proofs.TurnEffects

namespace RegistryKeeper

theorem ManagedKind.drift_eq_leave_iff {k : ManagedKind} :
    k.drift = .leave ↔ k = .serviceAccount := by
  cases k <;> decide

namespace Plan

inductive Touched (p : Plan) (base : Store ManagedKind) (k : ManagedKind) :
    Option Json → Option Json → Prop where
  | kept (o : Option Json) : Touched p base k o o
  | made (hk : k.drift ≠ .renew) {v : Nat} (hv : base.versions < v) :
      Touched p base k none (some (Store.issue v (p.desired k)))
  | amended (hk : k.drift = .amend) {v : Nat} (hv : base.versions < v) (live : Json) :
      Touched p base k (some live)
        (some ((Managed.amend k live (p.desired k)).setAt versionPath (.str (resourceVersion v))))
  | renewed (hk : k.drift = .renew) (before after : Option Json) : Touched p base k before after

section
variable {p : Plan} {base s t : Store ManagedKind} {k : ManagedKind} {o : Option Json}
  {st : Stage}

theorem Touched.eq_none (h : p.Touched base k o none) (hk : k.drift ≠ .renew) : o = none := by
  cases h with
  | kept => rfl
  | renewed hd => exact absurd hd hk

theorem uid_desired (p : Plan) (k : ManagedKind) : (p.desired k).blankAt uidPath = true :=
  p.blueprint.uid_desired (serverCommand p.packages p.sources) p.sources k

theorem write_desired (hk : k.drift ≠ .renew) (s : Store ManagedKind) :
    (p.write s k (p.desired k)).1 = Store.issue (s.versions + 1) (p.desired k) := by
  have hservice : k ≠ .service := fun h => hk (ManagedKind.drift_eq_renew_iff.2 h)
  rw [write, decide_eq_false hservice, Store.write_of_not_service]
  exact withIdentity_of_no_uid (p.uid_desired k) _

theorem Touched.turn (h : p.Touched base k o (s.get? (p.place k))) (hs : s.Sound)
    (hcurrent : p.Current s st) (hahead : st.Ahead k → s.get? (p.place k) = o)
    (hv : base.versions ≤ s.versions) (hrank : st.rank = k.rank) (ht : p.Effected s st t) :
    p.Touched base k o (t.get? (p.place k)) := by
  have written (j : Json) : (p.write s k j).2.get? (p.place k) = some (p.write s k j).1 :=
    Store.get?_write_self ..
  by_cases hrenew : k.drift = .renew
  · exact .renewed hrenew _ _
  cases ht with
  | kept => exact h
  | made k' =>
      obtain rfl := ManagedKind.rank_injective hrank
      rw [hcurrent hrenew] at h
      rw [written, write_desired hrenew, h.eq_none hrenew]
      exact .made hrenew (Nat.lt_succ_of_le hv)
  | amended k' live =>
      obtain rfl := ManagedKind.rank_injective hrank
      obtain ⟨hamend, hlive⟩ := hcurrent
      have hwrite : (p.write s k' (Managed.amend k' live (p.desired k'))).1 = _ :=
        Store.write_amend hamend hs hlive
      rw [written, ← hahead (Nat.le_refl _), hlive, hwrite]
      exact .amended hamend (Nat.lt_succ_of_le hv) live
  | erased k' =>
      obtain rfl := ManagedKind.rank_injective hrank
      exact absurd hcurrent hrenew

end

structure Alone (p : Plan) (c : LocalCluster) (st : Stage) (c' : LocalCluster) : Prop where
  sound : c'.store.Sound
  current : p.Current c'.store st
  versions : c.store.versions ≤ c'.store.versions
  addresses : c.store.addresses ≤ c'.store.addresses
  touched : ∀ k, p.Touched c.store k (c.store.get? (p.place k)) (c'.store.get? (p.place k))
  ahead : ∀ k, st.Ahead k → c'.store.get? (p.place k) = c.store.get? (p.place k)
  others : ∀ q, (∀ k, p.place k ≠ q) → c'.store.get? q = c.store.get? q

section
variable {p : Plan} {c c' : LocalCluster} {st : Stage}

theorem Alone.start (p : Plan) (hc : c.store.Sound) :
    p.Alone c (.fetch .serviceAccount) c where
  sound := hc
  current := trivial
  versions := Nat.le_refl _
  addresses := Nat.le_refl _
  touched := fun _ => .kept _
  ahead := fun _ _ => rfl
  others := fun _ _ => rfl

theorem Alone.turn (h : p.Alone c st c') : p.Alone c (p.turn st c').1 (p.turn st c').2 := by
  have heffect := effected_turn h.current h.sound
  constructor
  case sound => exact sound_turn h.sound p st
  case current => exact current_turn h.current h.sound
  case versions => exact Nat.le_trans h.versions heffect.versions
  case addresses => exact Nat.le_trans h.addresses heffect.addresses
  case touched =>
    intro k
    by_cases hrank : st.rank = k.rank
    · exact (h.touched k).turn h.sound h.current (h.ahead k) h.versions hrank heffect
    · rw [heffect.get?_place hrank]
      exact h.touched k
  case ahead =>
    intro k hk
    obtain ⟨hbefore, hsame⟩ := ahead_turn h.current h.sound hk
    exact hsame.trans (h.ahead k hbefore)
  case others =>
    intro q hq
    exact (heffect.get? fun k _ => hq k).trans (h.others q hq)

theorem alone_run (p : Plan) (hc : c.store.Sound) :
    ∃ st, p.Alone c st
      (Program.run LocalCluster.answer (p.program (.fetch .serviceAccount)) c).2 :=
  run_keeps (fun _ _ => Alone.turn) (Alone.start p hc)

end

section
variable {p p' : Plan} {base s t : Store ManagedKind} {k : ManagedKind} {o : Option Json}

theorem amend_stamped (p : Plan) (k : ManagedKind) (live v : Json) (path : List String) :
    Managed.amend k (live.setAt ("metadata" :: path) v) (p.desired k) =
      (Managed.amend k live (p.desired k)).setAt ("metadata" :: path) v :=
  p.blueprint.amend_setAt_metadata (serverCommand p.packages p.sources) p.sources k live v path

theorem amend_issued (h : p.blueprint.Alike p'.blueprint) (hk : k.drift = .amend) (v w : Nat) :
    (Managed.amend k (Store.issue v (p.desired k)) (p'.desired k)).setAt versionPath
        (.str (resourceVersion w)) =
      ((p'.desired k).setAt versionPath (.str (resourceVersion w))).setAt uidPath
        (.str (freshUid v)) := by
  have hdesired : Managed.amend k (p.desired k) (p'.desired k) = p'.desired k :=
    Blueprint.amend_desired h hk
  rw [Store.issue, amend_stamped, amend_stamped, hdesired,
    Json.setAt_comm (p := uidPath) (q := versionPath) (by decide), Json.setAt_setAt_self]

theorem amend_amended (h : p.blueprint.Alike p'.blueprint) (live : Json) (v w : Nat) :
    (Managed.amend k ((Managed.amend k live (p.desired k)).setAt versionPath
        (.str (resourceVersion v))) (p'.desired k)).setAt versionPath (.str (resourceVersion w)) =
      (Managed.amend k live (p'.desired k)).setAt versionPath (.str (resourceVersion w)) := by
  have hamend : Managed.amend k (Managed.amend k live (p.desired k)) (p'.desired k) =
      Managed.amend k live (p'.desired k) := Blueprint.amend_amend h k live
  rw [amend_stamped, hamend, Json.setAt_setAt_self]

theorem settle_service_alike (p : Plan) (n m : String) (hs : s.Sound) (ht : t.Sound)
    (hvs : base.versions < s.versions + 1) (hvt : base.versions < t.versions + 1)
    (has : base.addresses ≤ s.addresses) (hat : base.addresses ≤ t.addresses) :
    Restamped base .service (s.settle .service n m (p.desired .service)).1
      (t.settle .service n m (p.desired .service)).1 := by
  have haddress : (p.desired .service).blankAt addressPath = true := p.blueprint.address_service
  rw [Store.settle_service hs (p.uid_desired _) haddress,
    Store.settle_service ht (p.uid_desired _) haddress]
  exact (((Restamped.same _).version hvs hvt).uid hvs hvt).address rfl
    (Nat.lt_succ_of_le has) (Nat.lt_succ_of_le hat)

theorem settle_found_alike (hk : k ≠ .service) (hs : s.Sound) (ht : t.Sound)
    (hvs : base.versions < s.versions + 1) (hvt : base.versions < t.versions + 1)
    (hfound : s.get? (p.place k) = o) (hfound' : t.get? (p.place k) = o) :
    Restamped base k (s.settle k p.blueprint.namespace p.blueprint.name (p.desired k)).1
      (t.settle k p.blueprint.namespace p.blueprint.name (p.desired k)).1 := by
  cases o with
  | none =>
      rw [Store.settle_of_absent hk hfound (p.uid_desired k),
        Store.settle_of_absent hk hfound' (p.uid_desired k)]
      exact ((Restamped.same _).version hvs hvt).uid hvs hvt
  | some live =>
      cases hd : k.drift with
      | leave =>
          rw [Store.settle_of_leave hd hfound, Store.settle_of_leave hd hfound']
          exact .same live
      | amend =>
          rw [Store.settle_of_amend hd hs hfound, Store.settle_of_amend hd ht hfound']
          exact (Restamped.same _).version hvs hvt
      | renew => exact absurd (ManagedKind.drift_eq_renew_iff.1 hd) hk

theorem Touched.settle (h : p.Touched base k o (s.get? (p'.place k)))
    (ht : t.get? (p'.place k) = o) (hp : p.blueprint.Alike p'.blueprint)
    (hs : s.Sound) (hvs : base.versions ≤ s.versions)
    (has : k = .service → base.addresses ≤ s.addresses)
    (ht' : t.Sound) (hvt : base.versions ≤ t.versions)
    (hat : k = .service → base.addresses ≤ t.addresses) :
    Restamped base k
      (s.settle k p'.blueprint.namespace p'.blueprint.name (p'.desired k)).1
      (t.settle k p'.blueprint.namespace p'.blueprint.name (p'.desired k)).1 := by
  have hvs : base.versions < s.versions + 1 := Nat.lt_succ_of_le hvs
  have hvt : base.versions < t.versions + 1 := Nat.lt_succ_of_le hvt
  by_cases hk : k = .service
  · subst hk
    exact p'.settle_service_alike _ _ hs ht' hvs hvt (has rfl) (hat rfl)
  generalize hfound : s.get? (p'.place k) = found at h
  cases h with
  | renewed hd => exact absurd (ManagedKind.drift_eq_renew_iff.1 hd) hk
  | kept => exact settle_found_alike hk hs ht' hvs hvt hfound ht
  | made hd hv =>
      rw [Store.settle_of_absent hk ht (p'.uid_desired k)]
      cases hdrift : k.drift with
      | leave =>
          obtain rfl := ManagedKind.drift_eq_leave_iff.1 hdrift
          have hsame : p.desired .serviceAccount = p'.desired .serviceAccount := hp.document _ _
          rw [Store.settle_of_leave hdrift hfound, hsame]
          exact ((Restamped.same _).version hv hvt).uid hv hvt
      | amend =>
          rw [Store.settle_of_amend hdrift hs hfound, amend_issued hp hdrift]
          exact ((Restamped.same _).version hvs hvt).uid hv hvt
      | renew => exact absurd hdrift hd
  | amended hd hv live =>
      rw [Store.settle_of_amend hd hs hfound, Store.settle_of_amend hd ht' ht, amend_amended hp]
      exact (Restamped.same _).version hvs hvt

theorem settled (p : Plan) {c : LocalCluster} (hc : c.store.Sound) (hf : c.faults = .empty)
    (k : ManagedKind) :
    ∃ t : Store ManagedKind, t.Sound ∧ c.store.versions ≤ t.versions ∧
      t.get? (p.place k) = c.store.get? (p.place k) ∧
      (k = .service → t.addresses = c.store.addresses) ∧
      (Program.run LocalCluster.answer (p.program (.fetch .serviceAccount)) c).2.store.get?
          (p.place k) =
        some (t.settle k p.blueprint.namespace p.blueprint.name (p.desired k)).1 := by
  have hk : k ∈ ManagedKind.all := by cases k <;> decide
  obtain ⟨service, after, hstore, -, hrun⟩ :=
    p.blueprint.run_establish p.packages p.sources hc hf
  obtain ⟨t, ht, hv, hg, ha, hr⟩ := Store.exists_get?_settleAll (n := p.blueprint.namespace)
    p.name_desired (by decide) hk hc
  refine ⟨t, ht, hv, hg, ha, ?_⟩
  rw [← p.run_establish, hrun, hstore]
  exact hr

theorem retried {c c' : LocalCluster} {st : Stage} (hc : c.store.Sound)
    (hp : p.blueprint.Alike p'.blueprint) (h : p.Alone c st c') (k : ManagedKind) :
    Option.Rel (Restamped c.store k)
      ((Program.run LocalCluster.answer (p'.program (.fetch .serviceAccount))
        c'.clearFaults).2.store.get? (p'.place k))
      ((Program.run LocalCluster.answer (p'.program (.fetch .serviceAccount))
        c.clearFaults).2.store.get? (p'.place k)) := by
  obtain ⟨s, hs, hvs, hgs, has, hrs⟩ := p'.settled (c := c'.clearFaults) h.sound rfl k
  obtain ⟨t, ht, hvt, hgt, hat, hrt⟩ := p'.settled (c := c.clearFaults) hc rfl k
  have hplace : p.place k = p'.place k := by rw [place, place, hp.namespace, hp.name]
  have htouched := h.touched k
  rw [hplace] at htouched
  rw [hrs, hrt]
  refine .some (Touched.settle (p := p) (hgs.symm ▸ htouched) hgt hp hs ?_ ?_ ht hvt ?_)
  · exact Nat.le_trans h.versions hvs
  · intro hk
    exact (has hk).symm ▸ h.addresses
  · intro hk
    exact Nat.le_of_eq (hat hk).symm

end

end Plan

theorem object_establish_of_not_keptAt {c : LocalCluster} (hc : c.store.Sound)
    {r : PackageRegistry} {n m : String} (h : ¬ r.KeptAt n m) (lookup : Lookup) (image : String)
    (k : ManagedKind) :
    (Program.run LocalCluster.answer (establish lookup r image).run c).2.object k n m =
      c.object k n m := by
  cases hb : Blueprint.ofRegistry r image with
  | error f =>
      rw [run_establish_of_no_blueprint hb]
      rfl
  | ok b =>
      obtain ⟨st, hpass⟩ := (Plan.of lookup r b).alone_run hc
      rw [run_establish_of_blueprint hb]
      refine hpass.others _ ?_
      rintro k' ⟨⟩
      exact h (Blueprint.keptAt hb)

theorem retry_equals_clean_run {c : LocalCluster} (hc : c.Reachable) {r r' : PackageRegistry}
    (hname : r.metadata.name = r'.metadata.name)
    (hnamespace : r.metadata.namespace = r'.metadata.namespace)
    (huid : r.metadata.uid = r'.metadata.uid) (lookup lookup' : Lookup) (image image' : String) :
    let pass (lookup : Lookup) (r : PackageRegistry) (image : String) (c : LocalCluster) :=
      (Program.run LocalCluster.answer (establish lookup r image).run c).2
    let retried := pass lookup' r' image' (pass lookup r image c).clearFaults
    let clean := pass lookup' r' image' c.clearFaults
    (∀ k n m, Option.Rel (Restamped c.store k) (retried.object k n m) (clean.object k n m)) ∧
      ∀ k n m, ¬ r'.KeptAt n m →
        retried.object k n m = c.object k n m ∧ clean.object k n m = c.object k n m := by
  intro pass retried clean
  have hothers (k : ManagedKind) (n m : String) (h : ¬ r'.KeptAt n m) :
      retried.object k n m = c.object k n m ∧ clean.object k n m = c.object k n m := by
    have hr : ¬ r.KeptAt n m := fun h' => h ⟨hnamespace ▸ h'.1, hname ▸ h'.2⟩
    have hfirst := object_establish_of_not_keptAt hc.sound hr lookup image k
    have hsound : (pass lookup r image c).clearFaults.store.Sound := (hc.run _).sound
    exact ⟨(object_establish_of_not_keptAt hsound h lookup' image' k).trans hfirst,
      object_establish_of_not_keptAt hc.clearFaults.sound h lookup' image' k⟩
  refine ⟨?_, hothers⟩
  intro k n m
  by_cases h : r'.KeptAt n m
  · have hb := Blueprint.of_keptAt (r := r) ⟨hnamespace.trans h.1, hname.trans h.2⟩ image
    have hb' := Blueprint.of_keptAt h image'
    let p := Plan.of lookup r ⟨m, n, r.metadata.uid.getD "", image⟩
    let p' := Plan.of lookup' r' ⟨m, n, r'.metadata.uid.getD "", image'⟩
    have hp : p.blueprint.Alike p'.blueprint := ⟨rfl, rfl, congrArg (·.getD "") huid⟩
    obtain ⟨st, hfirst⟩ := p.alone_run hc.sound
    simp only [retried, clean, pass, run_establish_of_blueprint hb,
      run_establish_of_blueprint hb']
    exact Plan.retried hc.sound hp hfirst k
  · obtain ⟨hretried, hclean⟩ := hothers k n m h
    rw [hretried, hclean]
    exact Restamped.refl _

theorem retry_equals_clean_run_after_race :
    let metadata : Metadata := { Metadata.empty with
      name := some "community", «namespace» := some "marketplace", uid := some "r-1" }
    let r : PackageRegistry := ⟨metadata, ⟨["etcd"]⟩, none⟩
    let r' : PackageRegistry := ⟨metadata, ⟨["etcd", "vault"]⟩, none⟩
    let b : Blueprint := ⟨"community", "marketplace", "r-1", "quay.io/registry:1"⟩
    let lookup : Lookup := fun p => .error (.packageNotFound p)
    let c := ((LocalCluster.empty.insert .role (b.role [⟨"marketplace", "upstream"⟩])).fail
      .create .deployment .race).fail .create .service .transport
    let pass (r : PackageRegistry) (image : String) (c : LocalCluster) :=
      (Program.run LocalCluster.answer (establish lookup r image).run c).2
    let first := pass r b.image c
    let retried := pass r' "quay.io/registry:2" first.clearFaults
    let clean := pass r' "quay.io/registry:2" c.clearFaults
    c.Reachable ∧ ManagedKind.all.map (fun k => (b.live first k).isSome) =
        [true, true, true, true, false] ∧
      ManagedKind.all.map (fun k => (b.live clean k).isSome) = [true, true, true, true, true] ∧
      (∀ k, Option.Rel (Restamped c.store k) (b.live retried k) (b.live clean k)) := by
  intro metadata r r' b lookup c pass first retried clean
  have hc : c.Reachable := .fail _ _ _ (.fail _ _ _ (.insert _ _ .empty))
  have hequal := @retry_equals_clean_run c hc r r' rfl rfl rfl lookup lookup b.image
    "quay.io/registry:2"
  exact ⟨hc, by decide +kernel, by decide +kernel, fun k => hequal.1 k _ _⟩

end RegistryKeeper
