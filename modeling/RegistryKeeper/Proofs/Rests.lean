import RegistryKeeper.Proofs.Outcomes
import RegistryKeeper.Proofs.Timestamps

namespace RegistryKeeper

namespace Instant

theorem isLeap_eq_false_iff {t : Instant} : t.isLeap = false ↔ t.nanos < nanosPerSecond := by
  simp [isLeap]

theorem since_self (t : Instant) : t.since t = 0 := by
  simp [since]

theorem later_zero {t : Instant} (h : t.isLeap = false) : t.later 0 = t := by
  have hn := isLeap_eq_false_iff.1 h
  simp [later, Nat.div_eq_of_lt hn, Nat.mod_eq_of_lt hn]

theorem since_later {t u : Instant} (ht : t.isLeap = false) (hu : u.nanos < 2 * nanosPerSecond)
    (h : t.since u = 0) {n : Nat} (hn : n < passIntervalNanos) : (t.later n).since u = n := by
  have hnanos := isLeap_eq_false_iff.1 ht
  simp only [passIntervalNanos, passInterval, nanosPerSecond] at hn hu hnanos
  let a := (t.nanos + n) / 1000000000
  have ha : t.later n = ⟨t.seconds + a, t.nanos + n - 1000000000 * a⟩ := by
    simp only [later, nanosPerSecond, a]
    congr 1
    omega
  have hleap : isLeap ⟨t.seconds + a, t.nanos + n - 1000000000 * a⟩ = false := by
    rw [isLeap_eq_false_iff, nanosPerSecond]
    change t.nanos + n - 1000000000 * ((t.nanos + n) / 1000000000) < 1000000000
    omega
  have hsince : (t.later n).since u =
      (t.seconds + a - u.seconds + if u.seconds % 86400 < (t.seconds + a) % 86400 then
        (if u.isLeap then 1 else 0) else 0) * 1000000000 +
        ((t.nanos + n - 1000000000 * a : Nat) - (u.nanos : Int)) := by
    rw [ha]
    simp [since, hleap, secondOfDay, nanosPerSecond]
  have hzero : (t.seconds - u.seconds + if u.seconds % 86400 < t.seconds % 86400 then
        (if u.isLeap then 1 else 0) else 0) * 1000000000 + ((t.nanos : Int) - u.nanos) = 0 := by
    simpa [since, ht, secondOfDay, nanosPerSecond] using h
  rw [hsince]
  cases hul : u.isLeap with
  | false =>
      simp only [hul, Bool.false_eq_true, if_false, ite_self] at hzero ⊢
      omega
  | true =>
      have hlate : nanosPerSecond ≤ u.nanos := by
        simpa [isLeap] using hul
      rw [nanosPerSecond] at hlate
      simp only [hul, if_true] at hzero ⊢
      split at hzero <;> split <;> omega

end Instant

theorem Attempt.length_log_lt {r : PackageRegistry} {recorded : Instant} {s s' : Server}
    {delay : Nat} (ha : Attempt r recorded s (.ok delay) s') : s.log.length < s'.log.length := by
  obtain ⟨listing, s₁, lookup, image, address, s₂, hl, hp, hok⟩ := ha.finished_of_ok
  have hlist : s₁.log = s.log ++ [.list .source none] := by
    have h := s.log_answer (.list .source none)
    unfold Server.listSources at hl
    rcases ha : s.answer (.list .source none) with ⟨a, s'⟩
    rw [ha] at hl h
    cases a <;>
      · obtain ⟨-, rfl⟩ := Prod.mk.inj hl
        exact h
  have hpass := Server.exchange_run (establish lookup r image).run s₁
  rw [hp] at hpass
  have hrecord := Server.exchange_recordStatus r
    (r.statusAfter .succeeded (some address) none recorded) s₂
  rw [hok] at hrecord
  calc s.log.length < s₁.log.length := by simp [hlist]
    _ ≤ s₂.log.length := hpass.length_log_le
    _ ≤ s'.log.length := hrecord.length_log_le

namespace PackageRegistry

/-- For a whole interval from an instant on, nothing is done for the registry and the rest of the
interval is asked for. -/
def RestsFrom (r : PackageRegistry) (t : Instant) (w : World) : Prop :=
  ∀ n < passIntervalNanos, ∀ recorded,
    (reconcile r (t.later n) recorded w).1 = .ok (passIntervalNanos - n) ∧
      (reconcile r (t.later n) recorded w).2.server = w.server

theorem nanos_of_succeededAt {r : PackageRegistry} {u : Instant} (h : r.succeededAt = some u) :
    u.nanos < 2 * nanosPerSecond := by
  unfold succeededAt at h
  split at h
  · cases h
  · split at h
    · obtain ⟨text, -, hu⟩ := Option.bind_eq_some_iff.1 h
      exact Instant.nanos_of_ofText? hu
    · cases h

theorem restLeft_of_succeededAt {r : PackageRegistry} {u : Instant} (h : r.succeededAt = some u)
    (t : Instant) : r.restLeft t =
      if 0 ≤ t.since u ∧ t.since u < passIntervalNanos then
        some (passIntervalNanos - (t.since u).toNat)
      else none := by
  simp only [restLeft, h]

theorem restsFrom_iff {r : PackageRegistry} {n : String} (hn : r.metadata.namespace = some n)
    {t : Instant} (ht : t.isLeap = false) (w : World) :
    r.RestsFrom t w ↔ ∃ u, r.succeededAt = some u ∧ t.since u = 0 := by
  constructor
  · intro h
    obtain ⟨hdelay, hserver⟩ := h 0 (by decide) t
    rw [Instant.later_zero ht] at hdelay hserver
    cases hrest : r.restLeft t with
    | none =>
        have ha := attempt_reconcile hn hrest t w
        rw [hdelay, hserver] at ha
        exact absurd ha.length_log_lt (Nat.lt_irrefl _)
    | some left =>
        have hleft : left = passIntervalNanos :=
          Except.ok.inj ((reconcile_of_rest hn hrest t w).1.symm.trans hdelay)
        cases hu : r.succeededAt with
        | none => simp [restLeft, hu] at hrest
        | some u =>
            refine ⟨u, rfl, ?_⟩
            rw [restLeft_of_succeededAt hu] at hrest
            split at hrest
            · cases hrest
              simp only [passIntervalNanos, passInterval, nanosPerSecond] at *
              omega
            · cases hrest
  · rintro ⟨u, hu, hsince⟩ k hk recorded
    have hnow := Instant.since_later ht (nanos_of_succeededAt hu) hsince hk
    have hrest : r.restLeft (t.later k) = some (passIntervalNanos - k) := by
      rw [restLeft_of_succeededAt hu, hnow, if_pos (by omega), Int.toNat_natCast]
    exact reconcile_of_rest hn hrest recorded w

end PackageRegistry

theorem rests_after_success_iff {w w' : World} (hw : w.server.Reachable) {n m : String} {j : Json}
    {r : PackageRegistry} (hr : w.server.Holds n m j r) {started recorded : Instant}
    (hclock : recorded.isLeap = false) (hrest : r.restLeft started = none) {delay : Nat}
    (h : reconcile r started recorded w = (.ok delay, w')) :
    ∃ j' r' address updated, w'.server.Holds n m j' r' ∧ r'.generation = r.generation ∧
      r'.status = some ⟨.succeeded, some address, none, r.generation, updated⟩ ∧
      (r'.RestsFrom recorded w' ↔
        if r.isNews (r.statusAfter .succeeded (some address) none recorded) then
          0 ≤ recorded.year ∧ recorded.year ≤ 9999
        else ∃ u, r.succeededAt = some u ∧ recorded.since u = 0) := by
  obtain ⟨hn, -, -⟩ := PackageRegistry.metadata_of_place hr.reads hr.place
  obtain ⟨s₂, address, service, hr₂, -, -, hrecording⟩ := recording_of_success hw hr hrest h
  generalize hs' : w'.server = s' at hrecording ⊢
  cases hrecording with
  | skipped hnews =>
      obtain ⟨updated, hstatus⟩ := PackageRegistry.status_of_not_isNews hnews
      refine ⟨j, r, address, updated, hr₂, rfl, hstatus, ?_⟩
      rw [hnews, PackageRegistry.restsFrom_iff hn hclock]
      simp
  | written j' v s' hnews hf hanswer hagree hr' =>
      refine ⟨j', _, address, some recorded.text, hr', rfl, rfl, ?_⟩
      let next := r.withStatus v (r.statusAfter .succeeded (some address) none recorded)
      have hsucceeded : next.succeededAt = Instant.ofText? recorded.text := by
        simp [next, PackageRegistry.succeededAt, PackageRegistry.withStatus,
          PackageRegistry.statusAfter, PackageRegistry.generation]
      have hspace : next.metadata.namespace = some n := hn
      rw [PackageRegistry.restsFrom_iff hspace hclock, hsucceeded, hnews, if_pos rfl]
      by_cases hy : 0 ≤ recorded.year ∧ recorded.year ≤ 9999
      · have hread := Instant.ofText?_text hclock hy
        simp only [hy, and_self, iff_true]
        exact ⟨recorded, hread, Instant.since_self recorded⟩
      · rw [Instant.ofText?_text_of_signed hy]
        simp [hy]

theorem not_rests_after_same_address :
    let r := firstStored
      (some ⟨.succeeded, some "10.0.0.7:50051", none, 2, some "1996-05-22T15:00:00+00:00"⟩)
    let w : World :=
      ⟨(Server.empty (.fixed "10.0.0.7")).insert .registry r.toJson, .new "registry:1" none⟩
    let t : Instant := ⟨63000000000, 0⟩
    let w' := (reconcile r t t w).2
    w.server.Reachable ∧ w.server.Holds "marketplace" "community" (withIdentity 1 r.toJson) r ∧
      t.isLeap = false ∧ r.restLeft t = none ∧
      reconcile r t t w = (.ok passIntervalNanos, w') ∧
      ∃ j' r', w'.server.Holds "marketplace" "community" j' r' ∧ r'.generation = r.generation ∧
        ¬ r'.RestsFrom t w' := by
  intro r w t w'
  have hw : w.server.Reachable := .insert _ (Json.ordered_object _) (.empty _)
  have hr : w.server.Holds "marketplace" "community" (withIdentity 1 r.toJson) r :=
    ⟨by decide +kernel, by decide +kernel, by decide +kernel⟩
  have hclock : t.isLeap = false := by decide
  have hrest : r.restLeft t = none := by decide +kernel
  have h : reconcile r t t w = (.ok passIntervalNanos, w') :=
    reconcile_eq_of_fst (by decide +kernel)
  have hsame : w'.server.Holds "marketplace" "community" (withIdentity 1 r.toJson) r :=
    ⟨by decide +kernel, hr.place, hr.reads⟩
  obtain ⟨j', r', address, updated, hr', hg, hstatus, hrests⟩ :=
    rests_after_success_iff hw hr hclock hrest h
  refine ⟨hw, hr, hclock, hrest, h, j', r', hr', hg, ?_⟩
  obtain ⟨-, rfl⟩ := hsame.unique hr'
  cases hstatus
  rw [hrests, if_neg (by decide +kernel)]
  rintro ⟨u, hu, hsince⟩
  have hold : r.succeededAt.all fun u => decide (t.since u ≠ 0) := by decide +kernel
  rw [hu] at hold
  simp [hsince] at hold

end RegistryKeeper
