import RegistryKeeper.Proofs.FaultyRuns
import RegistryKeeper.Proofs.Readings

namespace RegistryKeeper

abbrev ownersPath : List String := ["metadata", "ownerReferences"]

def ownersOf (j : Json) : List Json := ((j.at? ownersPath).getD .null).items

def Names (ref : Json) (r : PackageRegistry) : Prop :=
  ref.textAt? ["apiVersion"] = some apiVersion ∧
    ref.textAt? ["kind"] = some PackageRegistry.kind ∧
    ref.textAt? ["name"] = r.metadata.name ∧ ref.textAt? ["uid"] = r.metadata.uid

instance (ref : Json) (r : PackageRegistry) : Decidable (Names ref r) :=
  inferInstanceAs (Decidable (_ ∧ _))

/-- Deleting the registry collects the object. -/
def OwnedBy (j : Json) (r : PackageRegistry) : Prop := ∃ ref ∈ ownersOf j, Names ref r

instance (j : Json) (r : PackageRegistry) : Decidable (OwnedBy j r) :=
  inferInstanceAs (Decidable (∃ ref ∈ ownersOf j, Names ref r))

theorem ownersOf_write (s : Store ManagedKind) (p : Place ManagedKind) (isService : Bool)
    (j : Json) : ownersOf (s.write p isService j).1 = ownersOf j := by
  have h := Store.agreeOff_write s p isService j ownersPath (by decide)
  rw [ownersOf, ownersOf, h]

theorem ownersOf_amend (k : ManagedKind) (live desired : Json) :
    ownersOf (Managed.amend k live desired) = ownersOf live := by
  rw [ownersOf, ownersOf, Managed.at?_amend_metadata]

namespace Blueprint

theorem ownersOf_desired (b : Blueprint) (command : List String) (sources : List SourceRef)
    (k : ManagedKind) : ownersOf (b.desired command sources k) = [b.owner.toJson] := by
  have h : (b.desired command sources k).at? ownersPath = some (.arr [b.owner.toJson]) := by
    rw [Json.at?_cons, field?_desired_metadata, Option.bind_some, Json.at?_singleton]
    simp [metadata, Json.field?_object, Table.lookup]
  rw [ownersOf, h]
  rfl

theorem ownedBy_desired {b : Blueprint} {r : PackageRegistry} {image : String}
    (hb : ofRegistry r image = .ok b) (hu : r.metadata.uid.isSome) (command : List String)
    (sources : List SourceRef) (k : ManagedKind) : OwnedBy (b.desired command sources k) r := by
  obtain ⟨name, namespace', hname, hnamespace, rfl⟩ := ofRegistry_eq_ok_iff.1 hb
  obtain ⟨uid, huid⟩ := Option.isSome_iff_exists.1 hu
  refine ⟨_, by rw [ownersOf_desired]; exact List.mem_singleton_self _, ?_⟩
  simp [Names, owner, OwnerReference.toJson, Json.textAt?, Json.field?_present, Table.lookup,
    Json.text?, hname, huid]

end Blueprint

/-- The object stays through a pass that succeeds. Only a Service is made anew, and even a Service
stays where it cannot be deleted and no other writer makes it. -/
def Outlives (c : LocalCluster) (k : ManagedKind) (n m : String) (live : Json) : Prop :=
  c.object k n m = some live ∧
    (k.drift = .renew → c.fault k .delete ≠ none ∧ c.fault k .create ≠ some .race)

section
variable {s t : Store ManagedKind} {fault : Verb → Option Fault} {k : ManagedKind} {n m : String}
  {desired j : Json}

theorem Made.owners (h : Made s fault k n m desired j t) :
    ∃ stored, t.get? ⟨k, n, m⟩ = some stored ∧
      (fault .create = none ∧ s.get? ⟨k, n, m⟩ = some stored ∨
        (fault .create = some .race ∨ s.get? ⟨k, n, m⟩ = none) ∧
          ownersOf stored = ownersOf desired) := by
  cases h with
  | created h hf =>
      refine ⟨_, ?_, .inr ⟨.inr h, ownersOf_write s ⟨k, n, m⟩ (k = .service) desired⟩⟩
      exact Store.get?_write_self ..
  | outrun hf =>
      refine ⟨_, ?_, .inr ⟨.inl hf, ownersOf_write s ⟨k, n, m⟩ (k = .service) desired⟩⟩
      exact Store.get?_write_self ..
  | found h hf => exact ⟨_, h, .inl ⟨hf, h⟩⟩

theorem BroughtBetween.owners {c c' : LocalCluster}
    (h : LocalCluster.BroughtBetween c c' k n m desired j) :
    ∃ stored, c'.object k n m = some stored ∧
      ((∃ live, Outlives c k n m live ∧ ownersOf stored = ownersOf live) ∨
        (∀ live, ¬ Outlives c k n m live) ∧ ownersOf stored = ownersOf desired) := by
  obtain ⟨s, t, hs, hbefore, hb, hafter⟩ := h
  rw [hafter]
  have hkept {live : Json} (hl : s.get? ⟨k, n, m⟩ = some live) (hd : k.drift ≠ .renew) :
      Outlives c k n m live :=
    ⟨hbefore ▸ hl, fun h => absurd h hd⟩
  cases hb with
  | made hl hm =>
      have hgone (live : Json) : ¬ Outlives c k n m live := by
        rintro ⟨hlive, -⟩
        rw [← hbefore, hl] at hlive
        cases hlive
      obtain ⟨stored, hstored, ⟨-, hold⟩ | ⟨-, howners⟩⟩ := hm.owners
      · rw [hl] at hold
        cases hold
      · exact ⟨stored, hstored, .inr ⟨hgone, howners⟩⟩
  | left hl hd => exact ⟨_, hl, .inl ⟨_, hkept hl (by simp [hd]), rfl⟩⟩
  | @amended live hl hd hf =>
      refine ⟨(s.write ⟨k, n, m⟩ (k = .service) (Managed.amend k live desired)).1, ?_,
        .inl ⟨live, hkept hl (by simp [hd]), ?_⟩⟩
      · exact Store.get?_write_self ..
      · rw [ownersOf_write, ownersOf_amend]
  | renewed hl hd hf hm =>
      have hgone (live : Json) : ¬ Outlives c k n m live := fun h => (h.2 hd).1 hf
      obtain ⟨stored, hstored, ⟨-, hold⟩ | ⟨-, howners⟩⟩ := hm.owners
      · rw [Store.get?_erase, if_pos rfl] at hold
        cases hold
      · exact ⟨stored, hstored, .inr ⟨hgone, howners⟩⟩
  | kept hl hd hf hm =>
      obtain ⟨stored, hstored, ⟨hcreate, hold⟩ | ⟨hrace, howners⟩⟩ := hm.owners
      · have hstays : Outlives c k n m stored := ⟨hbefore ▸ hold, fun _ => ⟨hf, by simp [hcreate]⟩⟩
        exact ⟨stored, hstored, .inl ⟨stored, hstays, rfl⟩⟩
      · have hcreate : c.fault k .create = some .race := by
          rcases hrace with h | h
          · exact h
          · rw [hl] at h
            cases h
        have hgone (live : Json) : ¬ Outlives c k n m live := fun h => (h.2 hd).2 hcreate
        exact ⟨stored, hstored, .inr ⟨hgone, howners⟩⟩

end

theorem owned_after_establish_iff {c c' : LocalCluster} (hc : c.Reachable) {r : PackageRegistry}
    {n m : String} (hname : r.metadata.name = some m) (hnamespace : r.metadata.namespace = some n)
    (huid : r.metadata.uid.isSome) {lookup : Lookup} {image address : String}
    (h : Program.run LocalCluster.answer (establish lookup r image).run c = (.ok address, c')) :
    (∀ k, ∃ stored, c'.object k n m = some stored ∧
      (∀ live, Outlives c k n m live → ownersOf stored = ownersOf live) ∧
      (OwnedBy stored r ↔ ∀ live, Outlives c k n m live → OwnedBy live r)) ∧
    ((∀ k, ∃ stored, c'.object k n m = some stored ∧ OwnedBy stored r) ↔
      ∀ k live, Outlives c k n m live → OwnedBy live r) := by
  have hb : Blueprint.ofRegistry r image = .ok ⟨m, n, r.metadata.uid.getD "", image⟩ :=
    Blueprint.ofRegistry_eq_ok_iff.2 ⟨m, n, hname, hnamespace, rfl⟩
  rw [establish, hb] at h
  have heach (k : ManagedKind) : ∃ stored, c'.object k n m = some stored ∧
      (∀ live, Outlives c k n m live → ownersOf stored = ownersOf live) ∧
      (OwnedBy stored r ↔ ∀ live, Outlives c k n m live → OwnedBy live r) := by
    obtain ⟨j, hbetween, -⟩ := LocalCluster.brought_of_establish hc.sound h k
    obtain ⟨stored, hstored, ⟨live, hstays, howners⟩ | ⟨hgone, howners⟩⟩ :=
      BroughtBetween.owners hbetween
    · have honly {live' : Json} (h' : Outlives c k n m live') : live' = live := by
        have := h'.1.symm.trans hstays.1
        exact Option.some.inj this
      refine ⟨stored, hstored, ?_, ?_⟩
      · intro live' h'
        rw [honly h', howners]
      · rw [OwnedBy, howners]
        constructor
        · intro how live' h'
          rw [honly h']
          exact how
        · intro hall
          exact hall live hstays
    · refine ⟨stored, hstored, fun live h' => absurd h' (hgone live), ?_⟩
      rw [OwnedBy, howners]
      exact iff_of_true (Blueprint.ownedBy_desired hb huid _ _ k)
        fun live h' => absurd h' (hgone live)
  refine ⟨heach, ?_⟩
  constructor
  · intro howned k
    obtain ⟨stored, hstored, how⟩ := howned k
    obtain ⟨stored', hstored', -, hiff⟩ := heach k
    cases hstored.symm.trans hstored'
    exact hiff.1 how
  · intro hall k
    obtain ⟨stored, hstored, -, hiff⟩ := heach k
    exact ⟨stored, hstored, hiff.2 (hall k)⟩

namespace Ownership

def community (uid : String) : PackageRegistry :=
  ⟨{ Metadata.empty with
      name := some "community", «namespace» := some "marketplace", uid := some uid },
    ⟨["etcd"]⟩, none⟩

def lookup : Lookup := fun package => .error (.packageNotFound package)

def run (r : PackageRegistry) (c : LocalCluster) : Except Failure String × LocalCluster :=
  Program.run LocalCluster.answer (establish lookup r "registry:1").run c

def before : LocalCluster := (run (community "r-0") .empty).2

end Ownership

theorem unowned_after_establish_again :
    Ownership.before.Reachable ∧ (Ownership.community "r-1").metadata.uid.isSome ∧
      ∃ address after,
        Ownership.run (Ownership.community "r-1") Ownership.before = (.ok address, after) ∧
        ¬ ∀ k, ∃ stored, after.object k "marketplace" "community" = some stored ∧
          OwnedBy stored (Ownership.community "r-1") := by
  have hreachable : Ownership.before.Reachable := LocalCluster.Reachable.run _ .empty
  have hrun : (Ownership.run (Ownership.community "r-1") Ownership.before).1 =
      .ok "10.96.0.2:50051" := by
    decide +kernel
  refine ⟨hreachable, rfl, "10.96.0.2:50051",
    (Ownership.run (Ownership.community "r-1") Ownership.before).2, Prod.ext hrun rfl, ?_⟩
  have hended : Program.run LocalCluster.answer
      (establish Ownership.lookup (Ownership.community "r-1") "registry:1").run Ownership.before =
        (.ok "10.96.0.2:50051",
          (Ownership.run (Ownership.community "r-1") Ownership.before).2) :=
    Prod.ext hrun rfl
  have hiff := (owned_after_establish_iff hreachable rfl rfl rfl hended).2
  intro howned
  have hlive : ∃ live, Ownership.before.object .serviceAccount "marketplace" "community" =
      some live ∧ ¬ OwnedBy live (Ownership.community "r-1") := by
    decide +kernel
  obtain ⟨live, hl, hnot⟩ := hlive
  exact hnot (hiff.1 howned .serviceAccount live ⟨hl, by simp [ManagedKind.drift]⟩)

end RegistryKeeper
