import RegistryKeeper.Proofs.CalendarDays
import RegistryKeeper.Proofs.Rests
import RegistryKeeper.Proofs.TimestampGrammar

namespace RegistryKeeper

namespace Instant

def total (t : Instant) : Int := t.seconds * nanosPerSecond + t.nanos

/-- A leap second is the last of a day. -/
def Regular (t : Instant) : Prop := t.isLeap = true → t.secondOfDay = 86399

theorem secondOfDay_le (t : Instant) : t.secondOfDay ≤ 86399 := by
  simp only [secondOfDay]
  omega

theorem since_eq_total {t u : Instant} (ht : t.Regular) (hu : u.isLeap = false) :
    t.since u = t.total - u.total := by
  have hlate := u.secondOfDay_le
  have hleap : t.secondOfDay < u.secondOfDay → t.isLeap = false := by
    intro hlt
    cases h : t.isLeap with
    | false => rfl
    | true =>
        have hlast := ht h
        omega
  simp only [since, hu, Bool.false_eq_true, if_false]
  split
  · simp only [total, nanosPerSecond]
    omega
  · split
    · next hlt =>
        simp only [hleap hlt, Bool.false_eq_true, if_false, total, nanosPerSecond]
        omega
    · simp only [total, nanosPerSecond]
      omega

end Instant

theorem fractionValue_le {ds : List Char} (h : ∀ c ∈ ds, c.isDigit = true) (weight : Nat) :
    fractionValue weight ds ≤ 10 * weight - 1 := by
  induction ds generalizing weight with
  | nil => exact Nat.zero_le _
  | cons c ds ih =>
      have hdigit := (Instant.ofNat_toNat_sub (h c (List.mem_cons_self ..))).1
      have hrest := ih (fun d hd => h d (List.mem_cons_of_mem _ hd)) (weight / 10)
      have hfirst : weight * (c.toNat - 48) ≤ weight * 9 := Nat.mul_le_mul_left _ (by omega)
      rw [fractionValue]
      omega

namespace Stamp

/-- Nanoseconds since the start of year 0. The offset is what the clock is ahead. -/
def Denotes (s : Stamp) (u : Int) : Prop :=
  ∃ days : Nat, Calendar.dateAfter days = (s.year, s.month, s.day) ∧
    u = (((days * 24 + s.hour) * 60 + s.minute) * 60 + s.second - s.zone.seconds) * 1000000000 +
      s.nanos

theorem nanos_lt (s : Stamp) : s.nanos < nanosPerSecond := by
  have hle := fractionValue_le s.isDigit 100000000
  simp only [nanos, nanosPerSecond]
  omega

theorem isLeap_instant (s : Stamp) : s.instant.isLeap = false ↔ s.second ≤ 59 := by
  have hn := s.nanos_lt
  have hs := s.second_le
  rw [Instant.isLeap_eq_false_iff, instant, Instant.ofClock]
  dsimp only
  split <;> omega

theorem denotes_iff {s : Stamp} (hs : s.second ≤ 59) {u : Int} :
    s.Denotes u ↔ u = s.instant.total := by
  have hmin : min s.second 59 = s.second := Nat.min_eq_left hs
  have hleap : s.second ≠ 60 := by omega
  have htotal : s.instant.total =
      (Calendar.dayNumber s.year s.month s.day * 86400 +
        (s.hour * 3600 + s.minute * 60 + s.second : Nat) - s.zone.seconds) * nanosPerSecond +
        s.nanos := by
    simp only [instant, Instant.ofClock, Instant.total, hmin, if_neg hleap]
  rw [htotal, nanosPerSecond]
  constructor
  · rintro ⟨days, hdays, rfl⟩
    rw [(Calendar.dateAfter_eq_iff s.isDate).1 hdays]
    push_cast
    ring
  · rintro rfl
    have hdays := Int.toNat_of_nonneg (Calendar.dayNumber_nonneg s.isDate)
    refine ⟨_, (Calendar.dateAfter_eq_iff s.isDate).2 hdays.symm, ?_⟩
    rw [hdays]
    push_cast
    ring

end Stamp

def TextDenotes (text : String) (u : Int) : Prop :=
  ∃ s : Stamp, s.text = text ∧ s.second ≤ 59 ∧ s.Denotes u

theorem textDenotes_iff {text : String} {u : Int} :
    TextDenotes text u ↔
      ∃ v, Instant.ofText? text = some v ∧ v.isLeap = false ∧ v.total = u := by
  constructor
  · rintro ⟨s, rfl, hs, hu⟩
    exact ⟨s.instant, s.ofText?_text, s.isLeap_instant.2 hs, ((Stamp.denotes_iff hs).1 hu).symm⟩
  · rintro ⟨v, hv, hleap, rfl⟩
    obtain ⟨s, rfl, rfl⟩ := Stamp.ofText?_eq_some_iff.1 hv
    have hs := s.isLeap_instant.1 hleap
    exact ⟨s, rfl, hs, (Stamp.denotes_iff hs).2 rfl⟩

namespace PackageRegistry

theorem succeededAt_of_status {r : PackageRegistry} {status : RegistryStatus}
    (h : r.status = some status) :
    r.succeededAt =
      if status.phase = .succeeded ∧ status.observedGeneration = r.generation then
        status.lastUpdated.bind Instant.ofText?
      else none := by
  rw [succeededAt, h]

theorem restLeft_eq_none {r : PackageRegistry} (h : r.succeededAt = none) (now : Instant) :
    r.restLeft now = none := by
  rw [restLeft, h]

theorem restLeft_of_textDenotes {r : PackageRegistry} {now : Instant} (hnow : now.Regular)
    {status : RegistryStatus} {text : String} {u : Int} (hstatus : r.status = some status)
    (htext : status.lastUpdated = some text) (hu : TextDenotes text u) {left : Nat} :
    r.restLeft now = some left ↔ status.phase = .succeeded ∧
      status.observedGeneration = r.generation ∧ u ≤ now.total ∧
      now.total < u + passIntervalNanos ∧ (left : Int) = u + passIntervalNanos - now.total := by
  obtain ⟨v, hv, hleap, rfl⟩ := textDenotes_iff.1 hu
  have hsucceeded := succeededAt_of_status hstatus
  rw [htext, Option.bind_some, hv] at hsucceeded
  by_cases h : status.phase = .succeeded ∧ status.observedGeneration = r.generation
  · rw [if_pos h] at hsucceeded
    have hsince := Instant.since_eq_total hnow hleap
    rw [restLeft_of_succeededAt hsucceeded, Option.ite_none_right_eq_some, Option.some.injEq]
    constructor
    · rintro ⟨⟨hle, hlt⟩, rfl⟩
      exact ⟨h.1, h.2, by omega, by omega, by omega⟩
    · rintro ⟨-, -, hle, hlt, hleft⟩
      exact ⟨⟨by omega, by omega⟩, by omega⟩
  · rw [if_neg h] at hsucceeded
    rw [restLeft_eq_none hsucceeded]
    constructor
    · intro hnone
      cases hnone
    · rintro ⟨hphase, hgeneration, -⟩
      exact absurd ⟨hphase, hgeneration⟩ h

end PackageRegistry

def PackageRegistry.updatedAt (r : PackageRegistry) (status : RegistryStatus) (text : String) :
    PackageRegistry :=
  { r with status := some { status with lastUpdated := some text } }

inductive Restless (r : PackageRegistry) (now : Instant) : Prop
  | fresh (hstatus : r.status = none)
  | phase (status : RegistryStatus) (hstatus : r.status = some status)
      (h : status.phase ≠ .succeeded)
  | generation (status : RegistryStatus) (hstatus : r.status = some status)
      (h : status.observedGeneration ≠ r.metadata.generation.getD 0)
  | missing (status : RegistryStatus) (hstatus : r.status = some status)
      (h : status.lastUpdated = none)
  | unreadable (status : RegistryStatus) (text : String) (hstatus : r.status = some status)
      (htext : status.lastUpdated = some text) (h : ∀ s : Stamp, s.text ≠ text)
  | future (status : RegistryStatus) (text : String) (u : Int) (hstatus : r.status = some status)
      (htext : status.lastUpdated = some text) (hu : TextDenotes text u) (h : now.total < u)

theorem Restless.restLeft_eq_none {r : PackageRegistry} {now : Instant} (hnow : now.Regular)
    (h : Restless r now) : r.restLeft now = none := by
  cases h with
  | fresh hstatus =>
      refine PackageRegistry.restLeft_eq_none ?_ now
      rw [PackageRegistry.succeededAt, hstatus]
  | phase status hstatus hne =>
      refine PackageRegistry.restLeft_eq_none ?_ now
      rw [PackageRegistry.succeededAt_of_status hstatus, if_neg fun h => hne h.1]
  | generation status hstatus hne =>
      refine PackageRegistry.restLeft_eq_none ?_ now
      rw [PackageRegistry.succeededAt_of_status hstatus, if_neg fun h => hne h.2]
  | missing status hstatus hnone =>
      refine PackageRegistry.restLeft_eq_none ?_ now
      rw [PackageRegistry.succeededAt_of_status hstatus, hnone, Option.bind_none, ite_self]
  | unreadable status text hstatus htext hne =>
      have hunread : Instant.ofText? text = none := by
        refine Option.eq_none_iff_forall_ne_some.2 fun v hv => ?_
        obtain ⟨s, hs, -⟩ := Stamp.ofText?_eq_some_iff.1 hv
        exact hne s hs
      refine PackageRegistry.restLeft_eq_none ?_ now
      rw [PackageRegistry.succeededAt_of_status hstatus, htext, Option.bind_some, hunread, ite_self]
  | future status text u hstatus htext hu hlt =>
      refine Option.eq_none_iff_forall_ne_some.2 fun left hleft => ?_
      obtain ⟨-, -, hle, -⟩ :=
        (PackageRegistry.restLeft_of_textDenotes hnow hstatus htext hu).1 hleft
      omega

theorem rest_ends_five_minutes_after_success (r : PackageRegistry) {now : Instant}
    (hnow : now.Regular) :
    (∀ text, (Instant.ofText? text).isSome ↔ ∃ s : Stamp, s.text = text) ∧
    (∀ s : Stamp, s.second ≤ 59 → ∃ u, TextDenotes s.text u) ∧
    (∀ status text u, r.status = some status → status.lastUpdated = some text →
      TextDenotes text u → ∀ left, r.restLeft now = some left ↔
        status.phase = .succeeded ∧
        status.observedGeneration = r.metadata.generation.getD 0 ∧
        u ≤ now.total ∧ now.total < u + 300 * 1000000000 ∧
        (left : Int) = u + 300 * 1000000000 - now.total) ∧
    (∀ left, r.restLeft now = some left → 0 < left ∧ left ≤ 300 * 1000000000) ∧
    (∀ status text text' u, TextDenotes text u → TextDenotes text' u →
      (r.updatedAt status text).restLeft now = (r.updatedAt status text').restLeft now) ∧
    (Restless r now → r.restLeft now = none) := by
  refine ⟨?_, ?_, ?_, ?_, ?_, ?_⟩
  · intro text
    rw [Option.isSome_iff_exists]
    simp only [Stamp.ofText?_eq_some_iff]
    exact ⟨fun ⟨_, s, hs, _⟩ => ⟨s, hs⟩, fun ⟨s, hs⟩ => ⟨_, s, hs, rfl⟩⟩
  · intro s hs
    exact ⟨_, s, rfl, hs, (Stamp.denotes_iff hs).2 rfl⟩
  · intro status text u hstatus htext hu left
    exact PackageRegistry.restLeft_of_textDenotes hnow hstatus htext hu
  · intro left h
    exact PackageRegistry.restLeft_bounds h
  · intro status text text' u hu hu'
    refine Option.ext fun left => ?_
    rw [PackageRegistry.restLeft_of_textDenotes hnow rfl rfl hu,
      PackageRegistry.restLeft_of_textDenotes hnow rfl rfl hu']
    rfl
  · exact Restless.restLeft_eq_none hnow

theorem rest_ends_after_leap_day :
    let text := "2024-02-29t22:58:30.25-01:00"
    let text' := "2024-03-01 05:28:30.2500000009+05:30"
    let u : Int := (Calendar.dayNumber 2024 3 1 * 86400 - 90) * 1000000000 + 250000000
    let now : Instant := ⟨Calendar.dayNumber 2024 3 1 * 86400 + 60, 0⟩
    let status : RegistryStatus := ⟨.succeeded, none, none, 2, some text⟩
    let r := firstStored (some status)
    now.Regular ∧ TextDenotes text u ∧ TextDenotes text' u ∧
      r.restLeft now = some 150250000000 ∧
      (r.updatedAt status text').restLeft now = some 150250000000 := by
  intro text text' u now status r
  have hnow : now.Regular := fun h => absurd h (by decide)
  have hu : TextDenotes text u :=
    textDenotes_iff.2 ⟨.ofClock 2024 2 29 22 58 30 250000000 (-3600), by decide +kernel,
      by decide +kernel, by decide +kernel⟩
  have hu' : TextDenotes text' u :=
    textDenotes_iff.2 ⟨.ofClock 2024 3 1 5 28 30 250000000 19800, by decide +kernel,
      by decide +kernel, by decide +kernel⟩
  obtain ⟨-, -, hwindow, -, hsame, -⟩ := rest_ends_five_minutes_after_success r hnow
  have hrest : r.restLeft now = some 150250000000 :=
    (hwindow status text u rfl rfl hu 150250000000).2
      ⟨rfl, rfl, by decide +kernel, by decide +kernel, by decide +kernel⟩
  exact ⟨hnow, hu, hu', hrest, (hsame status text text' u hu hu').symm.trans hrest⟩

end RegistryKeeper
