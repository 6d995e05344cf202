import RegistryKeeper.Proofs.FaultyRuns
import RegistryKeeper.Proofs.Readings

namespace RegistryKeeper

section
variable {s t : Store ManagedKind} {fault : Verb → Option Fault} {k : ManagedKind} {n m : String}
  {desired j : Json}

theorem reread_of_renew (hd : k.drift = .renew) (desired live : Json) :
    reread k desired live = live := by
  simp only [reread, hd]

theorem reread_of_not_renew (hd : k.drift ≠ .renew) (desired live : Json) :
    reread k desired live = desired := by
  unfold reread
  split
  · next h => exact absurd h hd
  · rfl
  · rfl

theorem Made.answers_stored (h : Made s fault k n m desired j t) (hd : k.drift = .renew) :
    t.get? ⟨k, n, m⟩ = some j := by
  cases h with
  | created h hf => exact Store.get?_write_self ..
  | outrun hf =>
      rw [reread_of_renew hd]
      exact Store.get?_write_self ..
  | found h hf =>
      rw [reread_of_renew hd]
      exact h

/-- Another writer makes the object that was not there, and its kind is not read again. -/
def Outrun (s : Store ManagedKind) (fault : Verb → Option Fault) (k : ManagedKind)
    (n m : String) : Prop :=
  k.drift ≠ .renew ∧ s.get? ⟨k, n, m⟩ = none ∧ fault .create = some .race

theorem Brought.answers_stored (h : Brought s fault k n m desired j t)
    (ho : ¬ Outrun s fault k n m) : t.get? ⟨k, n, m⟩ = some j := by
  cases h with
  | made hnone hm =>
      by_cases hd : k.drift = .renew
      · exact hm.answers_stored hd
      · cases hm with
        | created h hf => exact Store.get?_write_self ..
        | outrun hf => exact absurd ⟨hd, hnone, hf⟩ ho
        | found h hf => cases hnone.symm.trans h
  | left h hd => exact h
  | amended h hd hf => exact Store.get?_write_self ..
  | renewed h hd hf hm => exact hm.answers_stored hd
  | kept h hd hf hm => exact hm.answers_stored hd

theorem Brought.answers_desired (h : Brought s fault k n m desired j t)
    (ho : Outrun s fault k n m) :
    j = desired ∧ t.get? ⟨k, n, m⟩ = some (withIdentity (s.versions + 1) desired) := by
  obtain ⟨hd, hnone, hrace⟩ := ho
  have hk : k ≠ .service := by
    rintro rfl
    exact hd rfl
  cases h with
  | made _ hm =>
      cases hm with
      | created h hf => cases hrace.symm.trans hf
      | outrun hf =>
          refine ⟨reread_of_not_renew hd .., ?_⟩
          rw [Store.get?_write_self, decide_eq_false hk, Store.write_of_not_service]
      | found h hf => cases hnone.symm.trans h
  | left h | amended h | renewed h | kept h => cases hnone.symm.trans h

end

theorem answered_object_stored_iff {c c' : LocalCluster} (hc : c.Reachable) {k : ManagedKind}
    {n m : String} {desired j : Json} (hp : Managed.place desired = .ok (n, m))
    (h : Program.run LocalCluster.answer (converge k desired).run c = (.ok j, c')) :
    ∃ stored, c'.object k n m = some stored ∧
      (¬ Outrun c.store (c.fault k) k n m → j = stored) ∧
      (Outrun c.store (c.fault k) k n m →
        j = desired ∧ stored = withIdentity (c.store.versions + 1) desired) ∧
      (Managed.versionOf desired = none →
        (j = stored ↔ ¬ Outrun c.store (c.fault k) k n m)) := by
  have hb := LocalCluster.brought_of_run hc.sound hp h
  by_cases ho : Outrun c.store (c.fault k) k n m
  · obtain ⟨rfl, hstored⟩ := hb.answers_desired ho
    refine ⟨_, hstored, fun hnot => absurd ho hnot, fun _ => ⟨rfl, rfl⟩, fun hversion => ?_⟩
    refine iff_of_false (fun heq => ?_) (not_not_intro ho)
    rw [heq, versionOf_withIdentity] at hversion
    cases hversion
  · exact ⟨j, hb.answers_stored ho, fun _ => rfl, fun h => absurd h ho,
      fun _ => iff_of_true rfl ho⟩

namespace AnsweredObjects

def desired : Json := (Blueprint.mk "community" "marketplace" "r-1" "registry:1").role []

def before : LocalCluster := LocalCluster.empty.fail .create .role .race

def ran : Except Failure Json × LocalCluster :=
  Program.run LocalCluster.answer (converge .role desired).run before

end AnsweredObjects

theorem answered_object_not_stored :
    AnsweredObjects.before.Reachable ∧
      Managed.place AnsweredObjects.desired = .ok ("marketplace", "community") ∧
      AnsweredObjects.ran.1 = .ok AnsweredObjects.desired ∧
      ∃ stored, AnsweredObjects.ran.2.object .role "marketplace" "community" = some stored ∧
        stored = withIdentity 1 AnsweredObjects.desired ∧ AnsweredObjects.desired ≠ stored := by
  have hc : AnsweredObjects.before.Reachable := .fail _ _ _ .empty
  have hp : Managed.place AnsweredObjects.desired = .ok ("marketplace", "community") :=
    Blueprint.place_desired _ [] [] .role
  have hran : AnsweredObjects.ran.1 = .ok AnsweredObjects.desired := by decide +kernel
  have houtrun : Outrun AnsweredObjects.before.store (AnsweredObjects.before.fault .role) .role
      "marketplace" "community" :=
    ⟨by decide, rfl, rfl⟩
  have hrun : Program.run LocalCluster.answer (converge .role AnsweredObjects.desired).run
      AnsweredObjects.before = (.ok AnsweredObjects.desired, AnsweredObjects.ran.2) :=
    Prod.ext hran rfl
  obtain ⟨stored, hstored, -, hdraft, hiff⟩ := answered_object_stored_iff hc hp hrun
  refine ⟨hc, hp, hran, stored, hstored, (hdraft houtrun).2, fun heq => ?_⟩
  exact (hiff (by decide +kernel)).1 heq houtrun

end RegistryKeeper
