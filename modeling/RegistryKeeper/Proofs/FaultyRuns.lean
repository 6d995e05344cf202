import RegistryKeeper.Proofs.Blueprints
import RegistryKeeper.Proofs.LocalRuns

namespace RegistryKeeper

def reread (k : ManagedKind) (desired live : Json) : Json :=
  match k.drift with
  | .renew => live
  | .leave | .amend => desired

section
variable (s : Store ManagedKind) (fault : Verb → Option Fault) (k : ManagedKind) (n m : String)
  (desired : Json)

inductive Made : Json → Store ManagedKind → Prop where
  | created (h : s.get? ⟨k, n, m⟩ = none) (hf : fault .create = none) :
      Made (s.write ⟨k, n, m⟩ (k = .service) desired).1 (s.write ⟨k, n, m⟩ (k = .service) desired).2
  | outrun (hf : fault .create = some .race) :
      Made (reread k desired (s.write ⟨k, n, m⟩ (k = .service) desired).1)
        (s.write ⟨k, n, m⟩ (k = .service) desired).2
  | found {live : Json} (h : s.get? ⟨k, n, m⟩ = some live) (hf : fault .create = none) :
      Made (reread k desired live) s

inductive Brought : Json → Store ManagedKind → Prop where
  | made {j : Json} {t : Store ManagedKind} (h : s.get? ⟨k, n, m⟩ = none)
      (hm : Made s fault k n m desired j t) : Brought j t
  | left {live : Json} (h : s.get? ⟨k, n, m⟩ = some live) (hd : k.drift = .leave) : Brought live s
  | amended {live : Json} (h : s.get? ⟨k, n, m⟩ = some live) (hd : k.drift = .amend)
      (hf : fault .replace = none) :
      Brought (s.write ⟨k, n, m⟩ (k = .service) (Managed.amend k live desired)).1
        (s.write ⟨k, n, m⟩ (k = .service) (Managed.amend k live desired)).2
  | renewed {live j : Json} {t : Store ManagedKind} (h : s.get? ⟨k, n, m⟩ = some live)
      (hd : k.drift = .renew) (hf : fault .delete = none)
      (hm : Made (s.erase ⟨k, n, m⟩) fault k n m desired j t) : Brought j t
  | kept {live j : Json} {t : Store ManagedKind} (h : s.get? ⟨k, n, m⟩ = some live)
      (hd : k.drift = .renew) (hf : fault .delete ≠ none)
      (hm : Made s fault k n m desired j t) : Brought j t

end

section
variable {s t : Store ManagedKind} {fault : Verb → Option Fault} {k : ManagedKind} {n m : String}
  {desired j : Json}

theorem Made.get?_of_ne (h : Made s fault k n m desired j t) {q : Place ManagedKind}
    (hq : (⟨k, n, m⟩ : Place ManagedKind) ≠ q) : t.get? q = s.get? q := by
  cases h with
  | created h hf => rw [Store.get?_write, if_neg hq]
  | outrun hf => rw [Store.get?_write, if_neg hq]
  | found h hf => rfl

theorem Made.sound (h : Made s fault k n m desired j t) (hs : s.Sound)
    (hn : (Managed.nameOf desired).getD "" = m) : t.Sound := by
  cases h with
  | created h hf => exact hs.write hn
  | outrun hf => exact hs.write hn
  | found h hf => exact hs

theorem Brought.get?_of_ne (h : Brought s fault k n m desired j t) {q : Place ManagedKind}
    (hq : (⟨k, n, m⟩ : Place ManagedKind) ≠ q) : t.get? q = s.get? q := by
  cases h with
  | made h hm => exact hm.get?_of_ne hq
  | left h hd => rfl
  | amended h hd hf => rw [Store.get?_write, if_neg hq]
  | renewed h hd hf hm => rw [hm.get?_of_ne hq, Store.get?_erase, if_neg hq]
  | kept h hd hf hm => exact hm.get?_of_ne hq

theorem Brought.sound (h : Brought s fault k n m desired j t) (hs : s.Sound)
    (hn : (Managed.nameOf desired).getD "" = m) : t.Sound := by
  cases h with
  | made h hm => exact hm.sound hs hn
  | left h hd => exact hs
  | amended h hd hf =>
      refine hs.write ?_
      rw [Managed.nameOf_amend]
      exact hs.filed _ _ h
  | renewed h hd hf hm => exact hm.sound (hs.erase _) hn
  | kept h hd hf hm => exact hm.sound hs hn

end

namespace LocalCluster
variable {c c' : LocalCluster} {k : ManagedKind} {n m : String} {desired j : Json}

theorem faults_run {α : Type} (p : Program α) (c : LocalCluster) :
    (p.run answer c).2.faults = c.faults := by
  induction p generalizing c with
  | done a => rfl
  | call call next ih => exact (ih _ _).trans (faults_answer call c)

theorem insert_of_place (h : Managed.place desired = .ok (n, m)) (c : LocalCluster)
    (k : ManagedKind) : c.insert k desired = (c.write k n m desired).2 := by
  simp only [insert, h]

theorem run_beaten (hn : (Managed.nameOf desired).getD "" = m) {live : Json}
    (hl : c.object k n m = some live)
    (h : Program.run answer (beaten k n desired).run c = (.ok j, c')) :
    j = reread k desired live ∧ c'.store = c.store := by
  subst hn
  cases k with
  | serviceAccount | role | roleBinding | deployment =>
      obtain ⟨hj, hc⟩ := Prod.mk.inj h
      cases hj
      subst hc
      exact ⟨rfl, rfl⟩
  | service =>
      simp only [beaten, ManagedKind.drift, ExceptT.run, ExceptT.mk, Program.run_call] at h
      cases hf : c.fault .service .get with
      | some f =>
          rw [answer_of_fault hf] at h
          cases (Prod.mk.inj h).1
      | none =>
          rw [answer_of_no_fault hf, serve, show (c.record _).object _ _ _ = some live from hl] at h
          obtain ⟨hj, hc⟩ := Prod.mk.inj h
          cases hj
          subst hc
          exact ⟨rfl, rfl⟩

theorem made_of_run (hp : Managed.place desired = .ok (n, m))
    (h : Program.run answer (make k n desired).run c = (.ok j, c')) :
    Made c.store (c.fault k) k n m desired j c'.store := by
  have hn : (Managed.nameOf desired).getD "" = m := Managed.nameOf_getD_of_place hp
  have hrecord : (c.record (.create k n desired)).object k n m = c.object k n m := rfl
  rw [run_make_eq, Program.run_call] at h
  cases hf : c.fault k .create with
  | none =>
      rw [answer_of_no_fault hf] at h
      simp only [serve, hn, hrecord] at h
      cases hl : c.object k n m with
      | none =>
          simp only [hl] at h
          obtain ⟨hj, hc⟩ := Prod.mk.inj h
          cases hj
          subst hc
          exact .created hl hf
      | some live =>
          simp only [hl, Failure.isAlreadyExists, if_true] at h
          obtain ⟨rfl, hs⟩ := run_beaten hn (hrecord.trans hl) h
          rw [hs]
          exact .found hl hf
  | some f =>
      rw [answer_of_fault hf] at h
      cases f with
      | transport | conflict => cases (Prod.mk.inj h).1
      | race =>
          simp only [Call.refuse, Fault.failure, disturb, insert_of_place hp,
            Failure.isAlreadyExists, if_true] at h
          have hlive := object_write (c.record (.create k n desired)) k k n n m m desired
          rw [if_pos rfl] at hlive
          obtain ⟨rfl, hs⟩ := run_beaten hn hlive h
          rw [hs]
          exact .outrun hf

theorem amended_of_run (hs : c.store.Sound) {live : Json} (hl : c.object k n m = some live)
    (hd : k.drift = .amend)
    (h : Program.run answer (Pass.replace k n (Managed.amend k live desired)).run c = (.ok j, c')) :
    Brought c.store (c.fault k) k n m desired j c'.store := by
  have hname : (Managed.nameOf (Managed.amend k live desired)).getD "" = m := by
    rw [Managed.nameOf_amend]
    exact hs.filed _ _ hl
  have hrecord : (c.record (.replace k n (Managed.amend k live desired))).object k n m =
      some live := hl
  simp only [Pass.replace, ExceptT.run, ExceptT.mk, Program.run_call, Program.run_done] at h
  cases hf : c.fault k .replace with
  | some f =>
      rw [answer_of_fault hf] at h
      cases (Prod.mk.inj h).1
  | none =>
      rw [answer_of_no_fault hf] at h
      simp only [serve, hname, hrecord, Managed.versionOf_amend, if_true] at h
      obtain ⟨hj, hc⟩ := Prod.mk.inj h
      cases hj
      subst hc
      exact .amended hl hd hf

theorem renewed_of_run (hp : Managed.place desired = .ok (n, m)) {live : Json}
    (hl : c.object k n m = some live) (hd : k.drift = .renew)
    (h : Program.run answer (renew k n m desired).run c = (.ok j, c')) :
    Brought c.store (c.fault k) k n m desired j c'.store := by
  have hrecord : (c.record (.delete k n m)).object k n m = some live := hl
  simp only [renew, ExceptT.run, ExceptT.mk, Program.run_call] at h
  cases hf : c.fault k .delete with
  | some f =>
      have hkeep : (c.record (.delete k n m)).disturb f (.delete k n m) =
          c.record (.delete k n m) := by
        cases f <;> rfl
      rw [answer_of_fault hf, hkeep] at h
      exact .kept hl hd (by simp [hf]) (made_of_run (c := c.record _) hp h)
  | none =>
      rw [answer_of_no_fault hf] at h
      simp only [serve, hrecord] at h
      exact .renewed hl hd hf (made_of_run hp h)

theorem brought_of_run (hs : c.store.Sound) (hp : Managed.place desired = .ok (n, m))
    (h : Program.run answer (converge k desired).run c = (.ok j, c')) :
    Brought c.store (c.fault k) k n m desired j c'.store := by
  rw [run_converge_of_place k hp, Program.run_call] at h
  cases hf : c.fault k .get with
  | some f =>
      rw [answer_of_fault hf] at h
      cases (Prod.mk.inj h).1
  | none =>
      have hrecord : (c.record (.get k n m)).object k n m = c.object k n m := rfl
      rw [answer_of_no_fault hf] at h
      simp only [serve, hrecord] at h
      cases hl : c.object k n m with
      | none =>
          simp only [hl] at h
          exact .made hl (made_of_run (c := c.record _) hp h)
      | some live =>
          simp only [hl] at h
          cases hd : k.drift with
          | leave =>
              simp only [hd] at h
              obtain ⟨hj, hc⟩ := Prod.mk.inj h
              cases hj
              subst hc
              exact .left hl hd
          | amend =>
              simp only [hd] at h
              exact amended_of_run (c := c.record _) hs hl hd h
          | renew =>
              simp only [hd] at h
              exact renewed_of_run (c := c.record _) hp hl hd h

def BroughtBetween (c c' : LocalCluster) (k : ManagedKind) (n m : String) (desired j : Json) :
    Prop :=
  ∃ s t, s.Sound ∧ s.get? ⟨k, n, m⟩ = c.object k n m ∧ Brought s (c.fault k) k n m desired j t ∧
    c'.object k n m = t.get? ⟨k, n, m⟩

theorem brought_of_convergeEach {desired : ManagedKind → Json}
    (hp : ∀ k, Managed.place (desired k) = .ok (n, m)) {ks : List ManagedKind} (hd : ks.Nodup)
    (hs : c.store.Sound)
    (h : Program.run answer (convergeEach desired ks).run c = (.ok (), c')) :
    c'.store.Sound ∧ (∀ k ∉ ks, c'.object k n m = c.object k n m) ∧
      ∀ k ∈ ks, ∃ j, BroughtBetween c c' k n m (desired k) j := by
  induction ks generalizing c with
  | nil =>
      obtain ⟨-, rfl⟩ := Prod.mk.inj h
      exact ⟨hs, fun _ _ => rfl, by simp⟩
  | cons k ks ih =>
      obtain ⟨hnot, hd⟩ := List.nodup_cons.1 hd
      obtain ⟨j, c₁, hrun, hrest⟩ := Pass.run_bind_eq_ok h
      have hbrought := brought_of_run hs (hp k) hrun
      have hfaults : c₁.faults = c.faults := by
        have hkeep := faults_run (converge k (desired k)).run c
        rwa [hrun] at hkeep
      have hothers (k' : ManagedKind) (hne : k' ≠ k) : c₁.object k' n m = c.object k' n m := by
        apply hbrought.get?_of_ne
        rintro ⟨⟩
        exact hne rfl
      obtain ⟨hs', hother, heach⟩ :=
        ih hd (hbrought.sound hs (Managed.nameOf_getD_of_place (hp k))) hrest
      refine ⟨hs', ?_, ?_⟩
      · intro k' hk'
        obtain ⟨hne, hnot'⟩ := not_or.1 (mt List.mem_cons.2 hk')
        rw [hother k' hnot', hothers k' hne]
      · intro k' hk'
        rcases List.mem_cons.1 hk' with rfl | hin
        · exact ⟨j, c.store, c₁.store, hs, rfl, hbrought, hother k' hnot⟩
        · have hne : k' ≠ k := by
            rintro rfl
            exact hnot hin
          obtain ⟨j', s, t, hsound, hbefore, hb, hafter⟩ := heach k' hin
          refine ⟨j', s, t, hsound, hbefore.trans (hothers k' hne), ?_, hafter⟩
          have hfault : c₁.fault k' = c.fault k' := by
            funext v
            rw [fault, fault, hfaults]
          rwa [hfault] at hb

theorem brought_of_establish {b : Blueprint} {packages : List String} {sources : List SourceRef}
    {address : String} (hs : c.store.Sound)
    (h : Program.run answer (b.establish packages sources).run c = (.ok address, c')) :
    ∀ k, ∃ j, BroughtBetween c c' k b.namespace b.name
        (b.desired (serverCommand packages sources) sources k) j ∧
      (k = .service → addressOfService j = .ok address) := by
  have hp := b.place_desired (serverCommand packages sources) sources
  rw [Blueprint.establish_eq] at h
  obtain ⟨⟨⟩, c₁, hfirst, hlast⟩ := Pass.run_bind_eq_ok h
  obtain ⟨service, c₂, hservice, hdone⟩ := Pass.run_bind_eq_ok hlast
  obtain ⟨haddress, rfl⟩ := Prod.mk.inj hdone
  obtain ⟨hs₁, hother, heach⟩ := brought_of_convergeEach hp (by decide) hs hfirst
  have hbrought := brought_of_run hs₁ (hp .service) hservice
  have hfault : c₁.fault = c.fault := by
    have hkeep := faults_run
      (convergeEach (b.desired (serverCommand packages sources) sources)
        [.serviceAccount, .role, .roleBinding, .deployment]).run c
    rw [hfirst] at hkeep
    funext k v
    rw [fault, fault, hkeep]
  have hothers (k : ManagedKind) (hk : k ≠ .service) :
      c₂.object k b.namespace b.name = c₁.object k b.namespace b.name := by
    apply hbrought.get?_of_ne
    rintro ⟨⟩
    exact hk rfl
  intro k
  by_cases hk : k = .service
  · subst hk
    rw [hfault] at hbrought
    exact ⟨service, ⟨c₁.store, c₂.store, hs₁, hother .service (by decide), hbrought, rfl⟩,
      fun _ => haddress⟩
  · have hin : k ∈ [ManagedKind.serviceAccount, .role, .roleBinding, .deployment] := by
      cases k <;> first | decide | exact absurd rfl hk
    obtain ⟨j, s, t, hsound, hbefore, hb, hafter⟩ := heach k hin
    exact ⟨j, ⟨s, t, hsound, hbefore, hb, (hothers k hk).trans hafter⟩, fun h => absurd h hk⟩

end LocalCluster

end RegistryKeeper
