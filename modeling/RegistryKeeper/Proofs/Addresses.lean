import RegistryKeeper.Managed.Blueprint
import RegistryKeeper.Proofs.Stamps

namespace RegistryKeeper

def portNumber (port : Json) : Int := ((port.field? "port").bind Json.int?).getD 0

def ReachedAt (service : Json) (address : String) : Prop :=
  ∃ ip port ports, service.textAt? addressPath = some ip ∧ ip ≠ "" ∧ ip ≠ "None" ∧
    service.at? ["spec", "ports"] = some (.arr (port :: ports)) ∧
    address = ip ++ ":" ++ toString (portNumber port)

theorem field?_of_items {j i : Json} {k : String} {l : List Json}
    (h : ((j.field? k).getD .null).items = i :: l) : j.field? k = some (.arr (i :: l)) := by
  cases hk : j.field? k with
  | none => simp [hk, Json.items] at h
  | some v =>
      rw [hk, Option.getD_some] at h
      cases v with
      | arr l' => exact congrArg (fun l => some (Json.arr l)) h
      | _ => cases h

theorem reachedAt_of_addressOfService {service : Json} {address : String}
    (h : addressOfService service = .ok address) : ReachedAt service address := by
  unfold addressOfService at h
  split at h
  · cases h
  · next spec hs =>
      have below (k : String) : service.at? ["spec", k] = spec.field? k := by
        rw [Json.at?_cons, hs, Option.bind_some, Json.at?_singleton]
      split at h
      · cases h
      · next ip hip =>
          obtain ⟨hip, hu⟩ := Option.filter_eq_some_iff.1 hip
          simp only [ne_eq, decide_eq_true_eq] at hu
          split at h
          · cases h
          · next port ports hp =>
              cases h
              refine ⟨ip, port, ports, ?_, hu.1, hu.2, ?_, rfl⟩
              · rw [Json.textAt?, below, ← hip, Json.textAt?, Json.at?_singleton]
              · rw [below, field?_of_items hp]

theorem addressOfService_of_reachedAt {service : Json} {address : String}
    (h : ReachedAt service address) : addressOfService service = .ok address := by
  obtain ⟨ip, port, ports, hip, hne, hnone, hp, rfl⟩ := h
  cases hs : service.field? "spec" with
  | none => simp [Json.textAt?, Json.at?_cons, hs] at hip
  | some spec =>
      have hip' : spec.textAt? ["clusterIP"] = some ip := by
        rwa [Json.textAt?, Json.at?_cons, hs] at hip
      have hp' : spec.field? "ports" = some (.arr (port :: ports)) := by
        rwa [Json.at?_cons, hs, Option.bind_some, Json.at?_singleton] at hp
      simp [addressOfService, hs, hip', hp', hne, hnone, Option.filter, Json.items, portNumber]

theorem drawnAddress_injective {m n : Nat} (h : drawnAddress m = drawnAddress n) : m = n :=
  resourceVersion_injective ((String.append_right_inj _).1 h)

theorem drawnAddress_usable (n : Nat) : drawnAddress n ≠ "" ∧ drawnAddress n ≠ "None" := by
  constructor <;>
    · intro h
      have := congrArg String.toList h
      simp [drawnAddress] at this

end RegistryKeeper
