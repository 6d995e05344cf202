import RegistryKeeper.Document.PackageRegistry

namespace RegistryKeeper

def passInterval : Nat := 300

def passIntervalNanos : Nat := passInterval * nanosPerSecond

namespace RegistryStatus

def sameOutcome (s t : RegistryStatus) : Bool :=
  s.phase = t.phase && s.address = t.address && s.message = t.message
    && s.observedGeneration = t.observedGeneration

theorem sameOutcome_iff (s t : RegistryStatus) :
    s.sameOutcome t = true ↔
      s.phase = t.phase ∧ s.address = t.address ∧ s.message = t.message ∧
        s.observedGeneration = t.observedGeneration := by
  simp [sameOutcome, and_assoc]

end RegistryStatus

namespace PackageRegistry

def statusAfter (r : PackageRegistry) (phase : Phase) (address message : Option String)
    (now : Instant) : RegistryStatus :=
  ⟨phase, address, message, r.generation, some now.text⟩

def isNews (r : PackageRegistry) (next : RegistryStatus) : Bool :=
  match r.status with
  | none => true
  | some s => !s.sameOutcome next

def succeededAt (r : PackageRegistry) : Option Instant :=
  match r.status with
  | none => none
  | some s =>
      if s.phase = .succeeded ∧ s.observedGeneration = r.generation then
        s.lastUpdated.bind Instant.ofText?
      else none

/-- Nanoseconds until the next periodic pass, if the present generation has succeeded within the
interval before `now`. A success in the future does not count. -/
def restLeft (r : PackageRegistry) (now : Instant) : Option Nat :=
  match r.succeededAt with
  | none => none
  | some t =>
      let elapsed := now.since t
      if 0 ≤ elapsed ∧ elapsed < passIntervalNanos then some (passIntervalNanos - elapsed.toNat)
      else none

theorem restLeft_bounds {r : PackageRegistry} {now : Instant} {n : Nat}
    (h : r.restLeft now = some n) : 0 < n ∧ n ≤ passIntervalNanos := by
  unfold restLeft at h
  split at h
  · simp at h
  · simp only [Option.ite_none_right_eq_some, Option.some.injEq] at h
    omega

end PackageRegistry

end RegistryKeeper
