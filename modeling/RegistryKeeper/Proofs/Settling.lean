import RegistryKeeper.Proofs.Blueprints
import RegistryKeeper.Proofs.LocalRuns

namespace RegistryKeeper

namespace Store
variable {s : Store ManagedKind} {k : ManagedKind} {n m : String} {desired : Json}

theorem get?_settle (s : Store ManagedKind) (k : ManagedKind) (n m : String) (desired : Json)
    (q : Place ManagedKind) :
    (s.settle k n m desired).2.get? q =
      if (⟨k, n, m⟩ : Place ManagedKind) = q then some (s.settle k n m desired).1
      else s.get? q := by
  unfold settle
  cases h : s.get? ⟨k, n, m⟩ with
  | none => exact get?_write s ⟨k, n, m⟩ q _ desired
  | some live =>
      cases k.drift with
      | leave =>
          by_cases hq : (⟨k, n, m⟩ : Place ManagedKind) = q
          · subst hq
            rw [if_pos rfl]
            exact h
          · rw [if_neg hq]
      | amend => exact get?_write s ⟨k, n, m⟩ q _ _
      | renew =>
          refine (get?_write (s.erase ⟨k, n, m⟩) ⟨k, n, m⟩ q _ desired).trans ?_
          by_cases hq : (⟨k, n, m⟩ : Place ManagedKind) = q
          · rw [if_pos hq, if_pos hq]
          · rw [if_neg hq, if_neg hq, get?_erase, if_neg hq]

theorem Sound.settle (h : s.Sound) (hp : (Managed.nameOf desired).getD "" = m) :
    (s.settle k n m desired).2.Sound := by
  unfold Store.settle
  cases hl : s.get? ⟨k, n, m⟩ with
  | none => exact h.write hp
  | some live =>
      cases k.drift with
      | leave => exact h
      | amend => exact h.write ((congrArg (·.getD "") (Managed.nameOf_amend k live desired)).trans
          (h.filed _ _ hl))
      | renew => exact (h.erase _).write hp

theorem versions_settle (s : Store ManagedKind) (k : ManagedKind) (n m : String) (desired : Json) :
    s.versions ≤ (s.settle k n m desired).2.versions := by
  unfold settle
  cases s.get? ⟨k, n, m⟩ with
  | none => exact Nat.le_succ _
  | some live =>
      cases k.drift with
      | leave => exact Nat.le_refl _
      | amend | renew => exact Nat.le_succ _

theorem addresses_settle (s : Store ManagedKind) (hk : k ≠ .service) (n m : String)
    (desired : Json) : (s.settle k n m desired).2.addresses = s.addresses := by
  have hw (s : Store ManagedKind) (p : Place ManagedKind) (j : Json) :
      (s.write p (k = .service) j).2.addresses = s.addresses := by
    rw [decide_eq_false hk]
    simp [write, addressed_of_not_service]
  unfold settle
  cases s.get? ⟨k, n, m⟩ with
  | none => exact hw s _ desired
  | some live =>
      cases k.drift with
      | leave => rfl
      | amend => exact hw s _ _
      | renew => exact hw (s.erase _) _ desired

def issue (version : Nat) (desired : Json) : Json :=
  (desired.setAt versionPath (.str (resourceVersion version))).setAt uidPath
    (.str (freshUid version))

theorem settle_of_absent (hk : k ≠ .service) (h : s.get? ⟨k, n, m⟩ = none)
    (hu : desired.blankAt uidPath = true) :
    (s.settle k n m desired).1 = issue (s.versions + 1) desired := by
  simp only [settle, h, decide_eq_false hk, write_of_not_service]
  exact withIdentity_of_no_uid hu _

theorem settle_of_leave (hd : k.drift = .leave) {live : Json} (h : s.get? ⟨k, n, m⟩ = some live) :
    (s.settle k n m desired).1 = live := by
  simp only [settle, h, hd]

theorem write_amend (hd : k.drift = .amend) (hs : s.Sound) {live : Json}
    (h : s.get? ⟨k, n, m⟩ = some live) :
    (s.write ⟨k, n, m⟩ (k = .service) (Managed.amend k live desired)).1 =
      (Managed.amend k live desired).setAt versionPath
        (.str (resourceVersion (s.versions + 1))) := by
  have hk : k ≠ .service := by
    rintro rfl
    cases hd
  have hu : (Managed.amend k live desired).blankAt uidPath = false :=
    (Managed.uid_amend k live desired).trans (hs.uids _ _ h)
  simp only [decide_eq_false hk, write_of_not_service]
  exact withIdentity_of_uid hu _

theorem settle_of_amend (hd : k.drift = .amend) (hs : s.Sound) {live : Json}
    (h : s.get? ⟨k, n, m⟩ = some live) :
    (s.settle k n m desired).1 =
      (Managed.amend k live desired).setAt versionPath
        (.str (resourceVersion (s.versions + 1))) := by
  simp only [settle, h, hd]
  exact write_amend hd hs h

theorem settle_service (hs : s.Sound) (hu : desired.blankAt uidPath = true)
    (ha : desired.blankAt addressPath = true) :
    (s.settle .service n m desired).1 =
      (issue (s.versions + 1) desired).setAt addressPath
        (.str (drawnAddress (s.addresses + 1))) := by
  have hw (t : Store ManagedKind) (ht : t.addressing = .drawn) (p : Place ManagedKind) :
      (t.write p true desired).1 = (issue (t.versions + 1) desired).setAt addressPath
        (.str (drawnAddress (t.addresses + 1))) := by
    rw [write_service ht ha, withIdentity_of_no_uid hu]
    rfl
  unfold settle
  cases s.get? ⟨.service, n, m⟩ with
  | none => exact hw s hs.drawn _
  | some live => exact hw (s.erase _) hs.drawn _

def settleAll (n m : String) (desired : ManagedKind → Json) :
    List ManagedKind → Store ManagedKind → Store ManagedKind
  | [], s => s
  | k :: ks, s => settleAll n m desired ks (s.settle k n m (desired k)).2

theorem Sound.settleAll {desired : ManagedKind → Json}
    (hp : ∀ k, (Managed.nameOf (desired k)).getD "" = m) (hs : s.Sound) (ks : List ManagedKind) :
    (settleAll n m desired ks s).Sound := by
  induction ks generalizing s with
  | nil => exact hs
  | cons k ks ih => exact ih (hs.settle (hp k))

theorem get?_settleAll_of_notMem {desired : ManagedKind → Json} {ks : List ManagedKind}
    (hk : k ∉ ks) (s : Store ManagedKind) :
    (settleAll n m desired ks s).get? ⟨k, n, m⟩ = s.get? ⟨k, n, m⟩ := by
  induction ks generalizing s with
  | nil => rfl
  | cons k' ks ih =>
      obtain ⟨hne, hks⟩ := not_or.1 (mt List.mem_cons.2 hk)
      rw [settleAll, ih hks, get?_settle, if_neg]
      rintro ⟨⟩
      exact hne rfl

theorem exists_get?_settleAll {desired : ManagedKind → Json}
    (hp : ∀ k, (Managed.nameOf (desired k)).getD "" = m) {ks : List ManagedKind} (hd : ks.Nodup)
    (hk : k ∈ ks) (hs : s.Sound) :
    ∃ t : Store ManagedKind, t.Sound ∧ s.versions ≤ t.versions ∧
      t.get? ⟨k, n, m⟩ = s.get? ⟨k, n, m⟩ ∧ (k = .service → t.addresses = s.addresses) ∧
      (settleAll n m desired ks s).get? ⟨k, n, m⟩ = some (t.settle k n m (desired k)).1 := by
  induction ks generalizing s with
  | nil => cases hk
  | cons k' ks ih =>
      obtain ⟨hnot, hd'⟩ := List.nodup_cons.1 hd
      rcases List.mem_cons.1 hk with rfl | hk'
      · refine ⟨s, hs, Nat.le_refl _, rfl, fun _ => rfl, ?_⟩
        rw [settleAll, get?_settleAll_of_notMem hnot, get?_settle, if_pos rfl]
      · have hne : k' ≠ k := by
          rintro rfl
          exact hnot hk'
        obtain ⟨t, ht, hv, hg, ha, hr⟩ := ih hd' hk' (hs.settle (k := k') (n := n) (hp k'))
        refine ⟨t, ht, Nat.le_trans (versions_settle s k' n m _) hv, ?_, ?_, hr⟩
        · rw [hg, get?_settle, if_neg]
          rintro ⟨⟩
          exact hne rfl
        · rintro rfl
          exact (ha rfl).trans (addresses_settle s hne n m _)

end Store

theorem LocalCluster.run_convergeEach {n m : String} {desired : ManagedKind → Json}
    (hp : ∀ k, Managed.place (desired k) = .ok (n, m)) (ks : List ManagedKind) {c : LocalCluster}
    (hs : c.store.Sound) (hf : c.faults = .empty) :
    ∃ calls, Program.run answer (convergeEach desired ks).run c =
      (.ok (), ⟨Store.settleAll n m desired ks c.store, .empty, calls⟩) := by
  induction ks generalizing c with
  | nil => exact ⟨c.calls, by rw [← hf]; rfl⟩
  | cons k ks ih =>
      obtain ⟨calls, h⟩ := run_converge (k := k) hs hf (hp k)
      obtain ⟨calls', h'⟩ := ih (c := ⟨(c.store.settle k n m (desired k)).2, .empty, calls⟩)
        (hs.settle (Managed.nameOf_getD_of_place (hp k))) rfl
      refine ⟨calls', ?_⟩
      rw [convergeEach, Pass.run_bind, h]
      exact h'

end RegistryKeeper
