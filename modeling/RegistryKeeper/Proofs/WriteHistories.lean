import Mathlib.Data.List.Induction
import Mathlib.Data.List.Nodup
import RegistryKeeper.Proofs.Addresses
import RegistryKeeper.Proofs.SharedClusters

namespace RegistryKeeper

structure Writing where
  place : Place ManagedKind
  given : Json
  stored : Json

def Writing.awaitsAddress (w : Writing) : Bool :=
  Store.awaitsAddress (w.place.kind = .service) w.given

def Deed.writing? (d : Deed) (c : LocalCluster) : Option Writing :=
  (d.stores? c).map fun e => ⟨e.1, e.2, ((d.act c).store.get? e.1).getD .null⟩

namespace LocalCluster

def afterDeeds (c : LocalCluster) (deeds : List Deed) : LocalCluster :=
  deeds.foldl (fun c d => d.act c) c

def writings (c : LocalCluster) : List Deed → List Writing
  | [] => []
  | d :: deeds => (d.writing? c).toList ++ (d.act c).writings deeds

theorem afterDeeds_concat (c : LocalCluster) (deeds : List Deed) (d : Deed) :
    c.afterDeeds (deeds ++ [d]) = d.act (c.afterDeeds deeds) :=
  List.foldl_append ..

theorem writings_concat (c : LocalCluster) (deeds : List Deed) (d : Deed) :
    c.writings (deeds ++ [d]) = c.writings deeds ++ (d.writing? (c.afterDeeds deeds)).toList := by
  induction deeds generalizing c with
  | nil => simp [writings, afterDeeds]
  | cons e deeds ih =>
      rw [List.cons_append, writings, ih, writings, List.append_assoc]
      rfl

end LocalCluster

def firstDraws (text : Nat → String) (n : Nat) : List (Option String) :=
  (List.range n).map fun i => some (text (i + 1))

section
variable {text : Nat → String} {n : Nat}

theorem firstDraws_succ (text : Nat → String) (n : Nat) :
    firstDraws text (n + 1) = firstDraws text n ++ [some (text (n + 1))] := by
  rw [firstDraws, List.range_succ, List.map_append]
  rfl

@[simp] theorem length_firstDraws (text : Nat → String) (n : Nat) :
    (firstDraws text n).length = n := by
  rw [firstDraws, List.length_map, List.length_range]

theorem mem_firstDraws {t : Option String} :
    t ∈ firstDraws text n ↔ ∃ v, 1 ≤ v ∧ v ≤ n ∧ t = some (text v) := by
  simp only [firstDraws, List.mem_map, List.mem_range]
  constructor
  · rintro ⟨i, hi, rfl⟩
    exact ⟨i + 1, by omega, hi, rfl⟩
  · rintro ⟨v, hpos, hv, rfl⟩
    exact ⟨v - 1, by omega, by rw [Nat.sub_add_cancel hpos]⟩

theorem nodup_firstDraws (h : Function.Injective text) : (firstDraws text n).Nodup := by
  refine List.Nodup.map ?_ List.nodup_range
  intro i i' heq
  have hsame := h (Option.some.inj heq)
  omega

end

namespace Store
variable {κ : Type} [DecidableEq κ] {s : Store κ}

theorem awaitsAddress_withIdentity (isService : Bool) (v : Nat) (j : Json) :
    awaitsAddress isService (withIdentity v j) = awaitsAddress isService j := by
  rw [awaitsAddress, awaitsAddress, (agreeOff_withIdentity v j).blankAt (by decide)]

theorem write_of_awaits (hs : s.addressing = .drawn) {isService : Bool} {j : Json}
    (h : awaitsAddress isService j = true) (p : Place κ) :
    (s.write p isService j).1.textAt? addressPath = some (drawnAddress (s.addresses + 1)) ∧
      (s.write p isService j).2.addresses = s.addresses + 1 := by
  have hwaits := (awaitsAddress_withIdentity isService (s.versions + 1) j).trans h
  simp [write, addressed, hwaits, hs, Json.textAt?, Json.text?]

theorem addresses_write_of_not_awaits {isService : Bool} {j : Json}
    (h : awaitsAddress isService j = false) (p : Place κ) :
    (s.write p isService j).2.addresses = s.addresses := by
  have hwaits := (awaitsAddress_withIdentity isService (s.versions + 1) j).trans h
  simp [write, addressed, hwaits]

theorem address_write_service (hs : s.addressing = .drawn) (p : Place κ) (j : Json) :
    (s.write p true j).1.blankAt addressPath = false := by
  cases h : j.blankAt addressPath with
  | true =>
      rw [write_service hs h]
      exact blankAt_setAt_str ..
  | false =>
      have hidentity : (withIdentity (s.versions + 1) j).blankAt addressPath = false :=
        ((agreeOff_withIdentity _ j).blankAt (by decide)).trans h
      simp [write, addressed, awaitsAddress, hidentity]

end Store

structure Store.Records (s : Store ManagedKind) (writings : List Writing) : Prop where
  drawn : s.addressing = .drawn
  versions : writings.map (fun w => Managed.versionOf w.stored) =
    firstDraws resourceVersion s.versions
  addresses : (writings.filter Writing.awaitsAddress).map (fun w => w.stored.textAt? addressPath) =
    firstDraws drawnAddress s.addresses
  uids : ∀ w ∈ writings, w.stored.blankAt uidPath = false
  served : ∀ w ∈ writings, w.place.kind = .service → w.stored.blankAt addressPath = false
  held : s.All fun p j => ∃ w ∈ writings, w.place = p ∧ w.stored = j

namespace Store.Records
variable {s : Store ManagedKind} {writings : List Writing}

theorem empty : (Store.empty .drawn : Store ManagedKind).Records [] :=
  ⟨rfl, rfl, rfl, by simp, by simp, .empty _⟩

theorem erase (h : s.Records writings) (p : Place ManagedKind) : (s.erase p).Records writings :=
  ⟨h.drawn, h.versions, h.addresses, h.uids, h.served, h.held.erase p⟩

theorem write (h : s.Records writings) (p : Place ManagedKind) (j : Json) :
    (s.write p (p.kind = .service) j).2.Records
      (writings ++ [⟨p, j, (s.write p (p.kind = .service) j).1⟩]) where
  drawn := h.drawn
  versions := by
    rw [List.map_append, h.versions, Store.versions_write, firstDraws_succ, List.map_singleton,
      Store.versionOf_write]
  addresses := by
    rw [List.filter_append, List.map_append, h.addresses]
    -- Only a Service without an address takes one from the counter.
    cases haw : Store.awaitsAddress (p.kind = .service) j with
    | true =>
        obtain ⟨hstored, hcount⟩ := Store.write_of_awaits h.drawn haw p
        simp [Writing.awaitsAddress, haw, hstored, hcount, firstDraws_succ]
    | false =>
        rw [Store.addresses_write_of_not_awaits haw]
        simp [Writing.awaitsAddress, haw]
  uids := by
    intro w hw
    rcases List.mem_append.1 hw with hw | hw
    · exact h.uids w hw
    · cases List.mem_singleton.1 hw
      exact Store.uid_write s p _ j
  served := by
    intro w hw hk
    rcases List.mem_append.1 hw with hw | hw
    · exact h.served w hw hk
    · cases List.mem_singleton.1 hw
      have hservice : decide (p.kind = ManagedKind.service) = true := decide_eq_true hk
      rw [hservice]
      exact Store.address_write_service h.drawn p j
  held := by
    refine Store.All.write ?_ ⟨_, List.mem_append_right _ (List.mem_singleton_self _), rfl, rfl⟩
    intro q i hi
    obtain ⟨w, hw, hplace, hstored⟩ := h.held q i hi
    exact ⟨w, List.mem_append_left _ hw, hplace, hstored⟩

theorem act {c : LocalCluster} (h : c.store.Records writings) (d : Deed) :
    (d.act c).store.Records (writings ++ (d.writing? c).toList) := by
  have hstep := d.step c
  unfold Deed.writing?
  generalize d.stores? c = e, (d.act c).store = s at hstep ⊢
  cases hstep with
  | wrote p j hname =>
      simp only [Option.map_some, Store.get?_write_self, Option.getD_some, Option.toList_some]
      exact h.write p j
  | erased p =>
      simp only [Option.map_none, Option.toList_none, List.append_nil]
      exact h.erase p
  | kept =>
      simp only [Option.map_none, Option.toList_none, List.append_nil]
      exact h

theorem length (h : s.Records writings) : s.versions = writings.length := by
  have hlength := congrArg List.length h.versions
  rwa [List.length_map, length_firstDraws, eq_comm] at hlength

theorem versionOf_get? (h : s.Records writings) {p : Place ManagedKind} {j : Json}
    (hj : s.get? p = some j) :
    ∃ v, 1 ≤ v ∧ v ≤ writings.length ∧ Managed.versionOf j = some (resourceVersion v) := by
  obtain ⟨w, hw, -, rfl⟩ := h.held p j hj
  have hdrawn := List.mem_map_of_mem (f := fun w => Managed.versionOf w.stored) hw
  rw [h.versions, mem_firstDraws, h.length] at hdrawn
  exact hdrawn

theorem place_eq_of_versionOf_eq (h : s.Records writings) {p q : Place ManagedKind} {i j : Json}
    (hi : s.get? p = some i) (hj : s.get? q = some j)
    (hv : Managed.versionOf i = Managed.versionOf j) : p = q := by
  obtain ⟨w, hw, rfl, rfl⟩ := h.held p i hi
  obtain ⟨w', hw', rfl, rfl⟩ := h.held q j hj
  -- A version belongs to one writing, and a writing has one place.
  have hnodup : (writings.map fun w => Managed.versionOf w.stored).Nodup := by
    rw [h.versions]
    exact nodup_firstDraws fun _ _ => resourceVersion_injective
  rw [List.inj_on_of_nodup_map hnodup hw hw' hv]

end Store.Records

/-- The writings of a run are numbered in turn, and its objects are told apart by these numbers. -/
structure Store.Numbered (s : Store ManagedKind) (writings : List Writing) : Prop where
  count : s.versions = writings.length
  versions : writings.map (fun w => Managed.versionOf w.stored) =
    firstDraws resourceVersion writings.length
  numerals : s.All fun _ j =>
    ∃ v, 1 ≤ v ∧ v ≤ writings.length ∧ Managed.versionOf j = some (resourceVersion v)
  apart : ∀ p q i j, s.get? p = some i → s.get? q = some j →
    Managed.versionOf i = Managed.versionOf j → p = q
  uids : s.All fun _ j => j.blankAt uidPath = false
  served : s.All fun p j => p.kind = .service → j.blankAt addressPath = false
  addresses : (writings.filter Writing.awaitsAddress).map (fun w => w.stored.textAt? addressPath) =
    firstDraws drawnAddress s.addresses
  addresses_nodup :
    ((writings.filter Writing.awaitsAddress).map fun w => w.stored.textAt? addressPath).Nodup

theorem Store.Records.numbered {s : Store ManagedKind} {writings : List Writing}
    (h : s.Records writings) : s.Numbered writings where
  count := h.length
  versions := by rw [h.versions, h.length]
  numerals _ _ hj := h.versionOf_get? hj
  apart _ _ _ _ hi hj hv := h.place_eq_of_versionOf_eq hi hj hv
  uids p j hj := by
    obtain ⟨w, hw, -, rfl⟩ := h.held p j hj
    exact h.uids w hw
  served p j hj hk := by
    obtain ⟨w, hw, rfl, rfl⟩ := h.held p j hj
    exact h.served w hw hk
  addresses := h.addresses
  addresses_nodup := by
    rw [h.addresses]
    exact nodup_firstDraws fun _ _ => drawnAddress_injective

namespace LocalCluster

theorem records_afterDeeds (deeds : List Deed) :
    (empty.afterDeeds deeds).store.Records (empty.writings deeds) := by
  induction deeds using List.reverseRecOn with
  | nil => exact .empty
  | append_singleton deeds d ih =>
      rw [afterDeeds_concat, writings_concat]
      exact ih.act d

/-- The call is logged, and if it fails it changes nothing, unless another writer makes the object:
then it is stored where it says itself, in whatever namespace the call was made. -/
structure Atomic (c : LocalCluster) (call : Call) : Prop where
  logged : (answer call c).2.calls = c.calls ++ [⟨call.verb, call.kind, call.name⟩]
  failed : ∀ f, call.failure? (answer call c).1 = some f → ¬ c.Forestalled call →
    (answer call c).2.store = c.store
  forestalled : ∀ k n j, call = .create k n j → c.Forestalls k →
    (answer (.create k n j) c).1 =
        .error (.alreadyExists ⟨k.name, n, (Managed.nameOf j).getD ""⟩) ∧
      (answer (.create k n j) c).2.store =
        match Managed.place j with
        | .ok (n', m') => (c.store.write ⟨k, n', m'⟩ (k = .service) j).2
        | .error _ => c.store

theorem atomic (c : LocalCluster) (call : Call) : c.Atomic call where
  logged := calls_answer call c
  failed f hf hno := (c.answered call).store_eq_of_failure hf hno
  forestalled k n j _ h := by
    rw [answer_of_forestalls h]
    exact ⟨rfl, (c.store_record_insert _ k j).trans (c.store_insert k j)⟩

theorem writes_numbered_and_failures_atomic (deeds : List Deed) :
    (empty.afterDeeds deeds).store.Numbered (empty.writings deeds) ∧
      ∀ call, (empty.afterDeeds deeds).Atomic call :=
  ⟨(records_afterDeeds deeds).numbered, (empty.afterDeeds deeds).atomic⟩

-- A lost race is a writing, and so is the replacement after it; a second creation is none.
example :
    let service (metadata : List (String × Json)) : Json :=
      .obj [("metadata", .obj ([("name", .str "up"), ("namespace", .str "market")] ++ metadata))]
    let deeds : List Deed := [.fail .create .service .race,
      .call (.create .service "market" (service [])), .clearFaults,
      .call (.replace .service "market" (service [("resourceVersion", .str "1")])),
      .call (.create .service "market" (service []))]
    (empty.writings deeds).map (fun w => (Managed.versionOf w.stored, w.stored.textAt? addressPath)) =
      [(some "1", some "10.96.0.1"), (some "2", some "10.96.0.2")] := by
  decide +kernel

end LocalCluster

end RegistryKeeper
