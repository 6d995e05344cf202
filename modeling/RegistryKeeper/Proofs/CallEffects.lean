import RegistryKeeper.Cluster.Local
import RegistryKeeper.Proofs.Stamps

namespace RegistryKeeper

def Managed.ownPlace? (k : ManagedKind) (j : Json) : Option (Place ManagedKind × Json) :=
  match Managed.place j with
  | .ok (n, m) => some (⟨k, n, m⟩, j)
  | .error _ => none

namespace LocalCluster
variable {c : LocalCluster}

def fault (c : LocalCluster) (k : ManagedKind) (v : Verb) : Option Fault := c.faults.get? (v, k)

theorem answer_of_fault {call : Call} {f : Fault} (h : c.fault call.kind call.verb = some f) :
    answer call c = (call.refuse (f.failure call.named), (c.record call).disturb f call) := by
  have hf : (c.record call).faults.get? (call.verb, call.kind) = some f := h
  simp only [answer, hf]

theorem answer_of_no_fault {call : Call} (h : c.fault call.kind call.verb = none) :
    answer call c = serve call (c.record call) := by
  have hf : (c.record call).faults.get? (call.verb, call.kind) = none := h
  simp only [answer, hf]

def Forestalls (c : LocalCluster) (k : ManagedKind) : Prop := c.fault k .create = some .race

instance (c : LocalCluster) (k : ManagedKind) : Decidable (c.Forestalls k) :=
  inferInstanceAs (Decidable (_ = _))

def Forestalled (c : LocalCluster) : Call → Prop
  | .create k _ _ => c.Forestalls k
  | _ => False

theorem answer_of_forestalls {k : ManagedKind} (h : c.Forestalls k) (n : String) (j : Json) :
    answer (.create k n j) c =
      (.error (.alreadyExists ⟨k.name, n, (Managed.nameOf j).getD ""⟩),
        (c.record (.create k n j)).insert k j) := by
  have hf : c.fault (Call.create k n j).kind (Call.create k n j).verb = some .race := h
  exact answer_of_fault hf

theorem store_insert (c : LocalCluster) (k : ManagedKind) (j : Json) :
    (c.insert k j).store =
      match Managed.place j with
      | .ok (n, m) => (c.store.write ⟨k, n, m⟩ (k = .service) j).2
      | .error _ => c.store := by
  unfold insert
  cases Managed.place j <;> rfl

theorem store_record_insert (c : LocalCluster) (call : Call) (k : ManagedKind) (j : Json) :
    ((c.record call).insert k j).store = (c.insert k j).store := by
  rw [store_insert, store_insert]
  rfl

inductive Answered (c : LocalCluster) : (call : Call) → call.Answer → Store ManagedKind → Prop where
  | read (k : ManagedKind) (n m : String) :
      Answered c (.get k n m) (.ok (c.object k n m)) c.store
  | created (k : ManagedKind) (n : String) (j stored : Json) (h : ¬ c.Forestalls k) :
      Answered c (.create k n j) (.ok stored)
        (c.store.write ⟨k, n, (Managed.nameOf j).getD ""⟩ (k = .service) j).2
  | replaced (k : ManagedKind) (n : String) (j stored : Json) :
      Answered c (.replace k n j) (.ok stored)
        (c.store.write ⟨k, n, (Managed.nameOf j).getD ""⟩ (k = .service) j).2
  | deleted (k : ManagedKind) (n m : String) :
      Answered c (.delete k n m) (.ok ()) (c.store.erase ⟨k, n, m⟩)
  | forestalled (k : ManagedKind) (n : String) (j : Json) (h : c.Forestalls k) :
      Answered c (.create k n j) (.error (.alreadyExists ⟨k.name, n, (Managed.nameOf j).getD ""⟩))
        (c.insert k j).store
  | refused (call : Call) (f : Failure) (h : ¬ c.Forestalled call) :
      Answered c call (call.refuse f) c.store

theorem answered (c : LocalCluster) (call : Call) :
    c.Answered call (answer call c).1 (answer call c).2.store := by
  cases hf : c.fault call.kind call.verb with
  | some f =>
      cases call with
      | create k n j =>
          cases f with
          | race =>
              have h : c.Forestalls k := hf
              rw [answer_of_forestalls h, store_record_insert]
              exact .forestalled k n j h
          | transport | conflict =>
              rw [answer_of_fault hf]
              refine .refused _ _ ?_
              intro h
              cases hf.symm.trans h
      | get k n m | replace k n j | delete k n m =>
          rw [answer_of_fault hf]
          cases f <;> exact .refused _ _ not_false
  | none =>
      rw [answer_of_no_fault hf]
      cases call with
      | get k n m => exact .read k n m
      | create k n j =>
          have hno : ¬ c.Forestalls k := by
            intro h
            cases hf.symm.trans h
          simp only [serve]
          split
          · exact .refused (.create k n j) _ hno
          · exact .created k n j _ hno
      | replace k n j =>
          simp only [serve]
          split
          · exact .refused (.replace k n j) _ not_false
          · split
            · exact .replaced k n j _
            · exact .refused (.replace k n j) _ not_false
      | delete k n m =>
          simp only [serve]
          split
          · exact .deleted k n m
          · exact .refused (.delete k n m) _ not_false

theorem Answered.store_eq_of_failure {call : Call} {a : call.Answer} {s : Store ManagedKind}
    (h : c.Answered call a s) {f : Failure} (hfailure : call.failure? a = some f)
    (hno : ¬ c.Forestalled call) : s = c.store := by
  cases h with
  | read | refused => rfl
  | created | replaced | deleted => cases hfailure
  | forestalled k n j h => exact absurd h hno

def stores? (c : LocalCluster) : (call : Call) → call.Answer → Option (Place ManagedKind × Json)
  | .create k n j, .ok _ | .replace k n j, .ok _ =>
      some (⟨k, n, (Managed.nameOf j).getD ""⟩, j)
  | .create k _ j, .error _ => if c.Forestalls k then Managed.ownPlace? k j else none
  | .replace .., .error _ | .get .., _ | .delete .., _ => none

end LocalCluster

inductive Store.Step (s : Store ManagedKind) :
    Option (Place ManagedKind × Json) → Store ManagedKind → Prop where
  | wrote (p : Place ManagedKind) (j : Json) (hname : (Managed.nameOf j).getD "" = p.name) :
      Step s (some (p, j)) (s.write p (p.kind = .service) j).2
  | erased (p : Place ManagedKind) : Step s none (s.erase p)
  | kept : Step s none s

namespace LocalCluster
variable {c : LocalCluster}

theorem step_insert (c : LocalCluster) (k : ManagedKind) (j : Json) :
    c.store.Step (Managed.ownPlace? k j) (c.insert k j).store := by
  rw [store_insert, Managed.ownPlace?]
  cases hp : Managed.place j with
  | ok place => exact .wrote ⟨k, place.1, place.2⟩ j (Managed.nameOf_getD_of_place hp)
  | error f => exact .kept

theorem Answered.step {call : Call} {a : call.Answer} {s : Store ManagedKind}
    (h : c.Answered call a s) : c.store.Step (c.stores? call a) s := by
  cases h with
  | read k n m => exact .kept
  | created k n j stored h => exact .wrote ⟨k, n, _⟩ j rfl
  | replaced k n j stored => exact .wrote ⟨k, n, _⟩ j rfl
  | deleted k n m => exact .erased ⟨k, n, m⟩
  | forestalled k n j h =>
      simp only [stores?, if_pos h]
      exact c.step_insert k j
  | refused call f h =>
      cases call with
      | create k n j =>
          have hno : ¬ c.Forestalls k := h
          simp only [stores?, Call.refuse, if_neg hno]
          exact .kept
      | get k n m | replace k n j | delete k n m => exact .kept

end LocalCluster

end RegistryKeeper
