import RegistryKeeper.Cluster.Store
import RegistryKeeper.Managed.Kind
import RegistryKeeper.Proofs.Paths

namespace RegistryKeeper

abbrev versionPath : List String := ["metadata", "resourceVersion"]

abbrev uidPath : List String := ["metadata", "uid"]

abbrev addressPath : List String := ["spec", "clusterIP"]

namespace Managed

theorem place_eq_ok_iff {j : Json} {n m : String} :
    place j = .ok (n, m) ↔ nameOf j = some m ∧ namespaceOf j = some n := by
  unfold place
  split <;> simp_all [and_comm]

theorem nameOf_getD_of_place {j : Json} {n m : String} (h : place j = .ok (n, m)) :
    (nameOf j).getD "" = m := by
  rw [(place_eq_ok_iff.1 h).1, Option.getD_some]

end Managed

theorem resourceVersion_injective {v w : Nat} (h : resourceVersion v = resourceVersion w) :
    v = w := by
  have hrepr : v.repr = w.repr := h
  have hdigits : Nat.toDigits 10 v = Nat.toDigits 10 w := by
    rw [← Nat.toList_repr, ← Nat.toList_repr, hrepr]
  rw [← Nat.ofDigitChars_ten_toDigits (n := v), hdigits, Nat.ofDigitChars_ten_toDigits]

theorem withIdentity_of_uid {j : Json} (h : j.blankAt uidPath = false) (v : Nat) :
    withIdentity v j = j.setAt versionPath (.str (resourceVersion v)) := by
  have hb : (j.setAt versionPath (.str (resourceVersion v))).blankAt uidPath = false := by
    rw [(Json.agreeOff_setAt j versionPath _).blankAt (by decide), h]
  simp [withIdentity, hb]

theorem withIdentity_of_no_uid {j : Json} (h : j.blankAt uidPath = true) (v : Nat) :
    withIdentity v j =
      (j.setAt versionPath (.str (resourceVersion v))).setAt uidPath (.str (freshUid v)) := by
  have hb : (j.setAt versionPath (.str (resourceVersion v))).blankAt uidPath = true := by
    rw [(Json.agreeOff_setAt j versionPath _).blankAt (by decide), h]
  simp [withIdentity, hb]

theorem agreeOff_withIdentity (v : Nat) (j : Json) :
    Json.AgreeOff [versionPath, uidPath] j (withIdentity v j) := by
  cases h : j.blankAt uidPath with
  | true =>
      rw [withIdentity_of_no_uid h]
      exact ((Json.AgreeOff.refl _ j).setAt (by simp) _).setAt (by simp) _
  | false =>
      rw [withIdentity_of_uid h]
      exact (Json.AgreeOff.refl _ j).setAt (by simp) _

theorem blankAt_setAt_str (j : Json) (p : List String) (s : String) :
    (j.setAt p (.str s)).blankAt p = false := by
  simp [Json.blankAt]

theorem uid_withIdentity (v : Nat) (j : Json) : (withIdentity v j).blankAt uidPath = false := by
  cases h : j.blankAt uidPath with
  | true =>
      rw [withIdentity_of_no_uid h]
      exact blankAt_setAt_str ..
  | false =>
      rw [withIdentity_of_uid h, (Json.agreeOff_setAt j versionPath _).blankAt (by decide), h]

theorem at?_version_withIdentity (v : Nat) (j : Json) :
    (withIdentity v j).at? versionPath = some (.str (resourceVersion v)) := by
  cases h : j.blankAt uidPath with
  | true =>
      rw [withIdentity_of_no_uid h, Json.at?_setAt_of_apart (by decide)]
      exact Json.at?_setAt ..
  | false =>
      rw [withIdentity_of_uid h]
      exact Json.at?_setAt ..

theorem versionOf_withIdentity (v : Nat) (j : Json) :
    Managed.versionOf (withIdentity v j) = some (resourceVersion v) := by
  rw [Managed.versionOf, Json.textAt?, at?_version_withIdentity]
  rfl

namespace Store
variable {κ : Type}

theorem addressed_of_not_service (s : Store κ) (j : Json) :
    s.addressed false j = (j, s.addresses) := by
  simp [addressed, awaitsAddress]

theorem agreeOff_addressed (s : Store κ) (isService : Bool) (j : Json) :
    Json.AgreeOff [addressPath] j (s.addressed isService j).1 := by
  unfold addressed
  split
  · cases s.addressing with
    | drawn => exact Json.agreeOff_setAt j addressPath _
    | fixed address => exact Json.agreeOff_setAt j addressPath _
    | absent => exact Json.AgreeOff.refl _ j
  · exact Json.AgreeOff.refl _ j

variable [DecidableEq κ]

theorem get?_write_self (s : Store κ) (p : Place κ) (isService : Bool) (j : Json) :
    (s.write p isService j).2.get? p = some (s.write p isService j).1 := by
  rw [get?_write, if_pos rfl]

theorem write_fst (s : Store κ) (p : Place κ) (isService : Bool) (j : Json) :
    (s.write p isService j).1 = (s.addressed isService (withIdentity (s.versions + 1) j)).1 := rfl

theorem write_of_not_service (s : Store κ) (p : Place κ) (j : Json) :
    (s.write p false j).1 = withIdentity (s.versions + 1) j := by
  simp [write, addressed_of_not_service]

theorem write_service {s : Store κ} (hs : s.addressing = .drawn) {j : Json}
    (hj : j.blankAt addressPath = true) (p : Place κ) :
    (s.write p true j).1 =
      (withIdentity (s.versions + 1) j).setAt addressPath
        (.str (drawnAddress (s.addresses + 1))) := by
  have hb : (withIdentity (s.versions + 1) j).blankAt addressPath = true := by
    rw [(agreeOff_withIdentity _ j).blankAt (by decide), hj]
  simp [write, addressed, awaitsAddress, hb, hs]

theorem agreeOff_write (s : Store κ) (p : Place κ) (isService : Bool) (j : Json) :
    Json.AgreeOff [versionPath, uidPath, addressPath] j (s.write p isService j).1 :=
  ((agreeOff_withIdentity _ j).mono (by simp)).trans
    ((agreeOff_addressed s isService _).mono (by simp))

theorem versionOf_write (s : Store κ) (p : Place κ) (isService : Bool) (j : Json) :
    Managed.versionOf (s.write p isService j).1 = some (resourceVersion (s.versions + 1)) := by
  have h := agreeOff_addressed s isService (withIdentity (s.versions + 1) j)
  exact (h.textAt? (by decide)).trans (versionOf_withIdentity ..)

@[simp] theorem nameOf_write (s : Store κ) (p : Place κ) (isService : Bool) (j : Json) :
    Managed.nameOf (s.write p isService j).1 = Managed.nameOf j :=
  (agreeOff_write s p isService j).textAt? (by decide)

@[simp] theorem uid_write (s : Store κ) (p : Place κ) (isService : Bool) (j : Json) :
    (s.write p isService j).1.blankAt uidPath = false := by
  have h := agreeOff_addressed s isService (withIdentity (s.versions + 1) j)
  exact (h.blankAt (by decide)).trans (uid_withIdentity _ j)

def All (s : Store κ) (P : Place κ → Json → Prop) : Prop := ∀ p j, s.get? p = some j → P p j

namespace All
variable {P : Place κ → Json → Prop} {s : Store κ}

theorem empty (a : Addressing) : (Store.empty a : Store κ).All P := by
  intro p j h
  cases h

theorem write (h : s.All P) {p : Place κ} {isService : Bool} {j : Json}
    (hj : P p (s.write p isService j).1) : (s.write p isService j).2.All P := by
  intro q i hi
  rw [get?_write] at hi
  by_cases hq : p = q
  · subst hq
    rw [if_pos rfl, Option.some.injEq] at hi
    exact hi ▸ hj
  · rw [if_neg hq] at hi
    exact h q i hi

theorem erase (h : s.All P) (p : Place κ) : (s.erase p).All P := by
  intro q i hi
  rw [get?_erase] at hi
  by_cases hq : p = q
  · simp [hq] at hi
  · rw [if_neg hq] at hi
    exact h q i hi

end All

end Store

end RegistryKeeper
