import RegistryKeeper.Proofs.Addresses
import RegistryKeeper.Proofs.LocalRuns

namespace RegistryKeeper

inductive Restamped (base : Store ManagedKind) (k : ManagedKind) : Json → Json → Prop where
  | same (j : Json) : Restamped base k j j
  | version {i j : Json} (h : Restamped base k i j) {v w : Nat} (hv : base.versions < v)
      (hw : base.versions < w) :
      Restamped base k (i.setAt versionPath (.str (resourceVersion v)))
        (j.setAt versionPath (.str (resourceVersion w)))
  | uid {i j : Json} (h : Restamped base k i j) {v w : Nat} (hv : base.versions < v)
      (hw : base.versions < w) :
      Restamped base k (i.setAt uidPath (.str (freshUid v))) (j.setAt uidPath (.str (freshUid w)))
  | address {i j : Json} (h : Restamped base k i j) (hk : k = .service) {n m : Nat}
      (hn : base.addresses < n) (hm : base.addresses < m) :
      Restamped base k (i.setAt addressPath (.str (drawnAddress n)))
        (j.setAt addressPath (.str (drawnAddress m)))

structure Store.Later (base s : Store ManagedKind) : Prop where
  versions : base.versions ≤ s.versions
  addresses : base.addresses ≤ s.addresses
  drawn : s.addressing = .drawn

namespace Restamped
variable {base s s' : Store ManagedKind} {k : ManagedKind} {i j : Json}

theorem refl (o : Option Json) : Option.Rel (Restamped base k) o o := by
  cases o with
  | none => exact .none
  | some j => exact .some (.same j)

theorem at? (h : Restamped base k i j) {q : List String}
    (hq : ∀ p ∈ [versionPath, uidPath, addressPath], Json.Apart p q) : j.at? q = i.at? q := by
  have apart {p : List String} (hp : p ∈ [versionPath, uidPath, addressPath]) (l v w : Json)
      (i : Json) (hi : l.at? q = i.at? q) : (l.setAt p v).at? q = (i.setAt p w).at? q := by
    rw [Json.at?_setAt_of_apart (hq p hp), Json.at?_setAt_of_apart (hq p hp), hi]
  induction h with
  | same j => rfl
  | version h hv hw ih => exact apart (by simp) _ _ _ _ ih
  | uid h hv hw ih => exact apart (by simp) _ _ _ _ ih
  | address h hk hn hm ih => exact apart (by simp) _ _ _ _ ih

theorem withIdentity {v w : Nat} (hv : base.versions < v) (hw : base.versions < w) (j : Json) :
    Restamped base k (RegistryKeeper.withIdentity v j) (RegistryKeeper.withIdentity w j) := by
  cases h : j.blankAt uidPath with
  | true =>
      rw [withIdentity_of_no_uid h, withIdentity_of_no_uid h]
      exact ((same j).version hv hw).uid hv hw
  | false =>
      rw [withIdentity_of_uid h, withIdentity_of_uid h]
      exact (same j).version hv hw

theorem write (hs : base.Later s) (hs' : base.Later s') (p : Place ManagedKind) (j : Json) :
    Restamped base k (s.write p (k = .service) j).1 (s'.write p (k = .service) j).1 := by
  have hid : Restamped base k (RegistryKeeper.withIdentity (s.versions + 1) j)
      (RegistryKeeper.withIdentity (s'.versions + 1) j) :=
    withIdentity (Nat.lt_succ_of_le hs.versions) (Nat.lt_succ_of_le hs'.versions) j
  by_cases hk : k = .service
  · have awaits (v : Nat) : (RegistryKeeper.withIdentity v j).blankAt addressPath =
        j.blankAt addressPath := (agreeOff_withIdentity v j).blankAt (by decide)
    simp only [Store.write_fst, Store.addressed, Store.awaitsAddress, awaits, hk, hs.drawn,
      hs'.drawn]
    cases j.blankAt addressPath with
    | true =>
        exact (hk ▸ hid).address rfl (Nat.lt_succ_of_le hs.addresses)
          (Nat.lt_succ_of_le hs'.addresses)
    | false => exact hk ▸ hid
  · simp only [decide_eq_false hk, Store.write_of_not_service]
    exact hid

end Restamped

inductive Readdressed (base : Store ManagedKind) :
    Except Failure String → Except Failure String → Prop where
  | same (outcome : Except Failure String) : Readdressed base outcome outcome
  | drawn {n m : Nat} (hn : base.addresses < n) (hm : base.addresses < m) (port : Int) :
      Readdressed base (.ok (drawnAddress n ++ ":" ++ toString port))
        (.ok (drawnAddress m ++ ":" ++ toString port))

theorem addressOfService_setAt (service : Json) (n : Nat) :
    addressOfService (service.setAt addressPath (.str (drawnAddress n))) =
      match ((service.at? ["spec", "ports"]).getD .null).items with
      | [] => .error (.reconcileFailed "Service exposes no port")
      | port :: _ => .ok (drawnAddress n ++ ":" ++ toString (portNumber port)) := by
  have husable := drawnAddress_usable n
  have hports := Json.field?_getD_null service "spec" (List.cons_ne_nil "ports" [])
  rw [Json.at?_singleton] at hports
  simp only [addressOfService, Json.setAt, Json.field?_withField, if_true, Json.textAt?,
    Json.at?_singleton, Option.bind_some, Json.text?, hports,
    if_neg (by decide : "clusterIP" ≠ "ports")]
  simp [Option.filter, husable]
  rfl

theorem Restamped.addressOfService {base : Store ManagedKind} {i j : Json}
    (h : Restamped base .service i j) :
    Readdressed base (addressOfService i) (addressOfService j) := by
  have elsewhere (i : Json) (p : List String) (v : Json) :
      RegistryKeeper.addressOfService (i.setAt ("metadata" :: p) v) =
        RegistryKeeper.addressOfService i := by
    simp only [RegistryKeeper.addressOfService, Json.setAt, Json.field?_withField,
      if_neg (by decide : "metadata" ≠ "spec")]
  induction h with
  | same j => exact .same _
  | version h hv hw ih => rwa [elsewhere, elsewhere]
  | uid h hv hw ih => rwa [elsewhere, elsewhere]
  | address h hk hn hm ih =>
      rw [addressOfService_setAt, addressOfService_setAt, h.at? (by decide)]
      split
      · exact .same _
      · exact .drawn hn hm _

end RegistryKeeper
