import RegistryKeeper.Proofs.CatalogHistories

namespace RegistryKeeper

theorem lasts_iff_of_pairwise {α : Type} {begins ends : α → Prop} {l : List α}
    (h : l.Pairwise fun e e' => begins e → ¬ ends e') :
    Lasts begins ends l ↔ ∃ e ∈ l, begins e := by
  constructor
  · rintro ⟨before, e, after, rfl, hbegins, -⟩
    exact ⟨e, by simp, hbegins⟩
  · rintro ⟨e, he, hbegins⟩
    obtain ⟨before, after, rfl⟩ := List.append_of_mem he
    have hlater := (List.pairwise_cons.1 (List.pairwise_append.1 h).2.1).1
    exact ⟨before, e, after, rfl, hbegins, fun e' he' => hlater e' he' hbegins⟩

theorem Table.filter_eq_self {κ ν : Type} [DecidableEq κ] {t : Table κ ν} {p : κ → ν → Bool}
    (h : ∀ e ∈ t.entries, p e.1 e.2 = true) : t.filter p = t := by
  obtain ⟨entries, hnodup⟩ := t
  have hall : entries.filter (fun e => p e.1 e.2) = entries := List.filter_eq_self.2 h
  simp only [filter, hall]

namespace Catalog

theorem remove_of_unowned {c : Catalog} {s : SourceRef} (h : ∀ p, c.read p ≠ .ok s) :
    c.remove s = c := by
  refine congrArg Catalog.mk (Table.filter_eq_self ?_)
  rintro ⟨p, owner⟩ hmem
  rw [decide_eq_true_eq]
  rintro rfl
  exact h p ((read_eq_ok_iff c p _).2 (Table.get?_of_mem hmem))

def registerListed (c : Catalog) (d : PackageSource) : Catalog :=
  match d.status with
  | none => c
  | some status => if d.spec.Valid then c.register d.ref status.packages else c

theorem registerListed_of_unowned {c : Catalog} {d : PackageSource}
    (h : ∀ p, c.read p ≠ .ok d.ref) :
    c.registerListed d = (offer d).elim c fun o => c.give o.1 o.2 := by
  rw [registerListed, offer_eq]
  cases d.status with
  | none => rfl
  | some status =>
      by_cases hvalid : d.spec.Valid
      · simp only [hvalid, if_true, Option.bind_some, register, remove_of_unowned h]
        rfl
      · simp only [hvalid, if_false, Option.bind_some]
        rfl

theorem foldl_registerListed {listing : List PackageSource}
    (h : (listing.map PackageSource.ref).Nodup) :
    listing.foldl registerListed empty = ofListing listing := by
  induction listing using List.reverseRecOn with
  | nil => rfl
  | append_singleton listing d ih =>
      rw [List.map_append, List.nodup_append] at h
      obtain ⟨hlisting, -, hne⟩ := h
      have hunowned : ∀ p, (ofListing listing).read p ≠ .ok d.ref := by
        intro p hp
        obtain ⟨before, d', after, rfl, ⟨-, hd'⟩, -⟩ := read_ofListing_eq_ok_iff.1 hp
        exact hne d'.ref (List.mem_map_of_mem (by simp)) d.ref (by simp) hd'
      rw [List.foldl_append, ih hlisting, List.foldl_cons, List.foldl_nil,
        registerListed_of_unowned hunowned, ofListing_concat]

def OffersOnce (listing : List PackageSource) : Prop :=
  listing.Pairwise fun d d' => ∀ p, d.Offers p → ¬ d'.Offers p

theorem OffersOnce.perm {listing listing' : List PackageSource} (h : OffersOnce listing)
    (hperm : listing.Perm listing') : OffersOnce listing' := by
  refine hperm.pairwise h ?_
  intro d d' hd p hd' hd''
  exact hd p hd'' hd'

theorem OffersOnce.read_eq_ok_iff {listing : List PackageSource} (h : OffersOnce listing)
    {p : String} {s : SourceRef} :
    (ofListing listing).read p = .ok s ↔ ∃ d ∈ listing, d.Offers p ∧ d.ref = s := by
  rw [read_ofListing_eq_ok_iff]
  exact lasts_iff_of_pairwise (h.imp fun hd ho => hd p ho.1)

structure Same (c c' : Catalog) : Prop where
  read : ∀ p, c.read p = c'.read p
  size : c.size = c'.size

theorem Same.of_read_iff {c c' : Catalog} (h : ∀ p s, c.read p = .ok s ↔ c'.read p = .ok s) :
    Same c c' := by
  have hread (p : String) : c.read p = c'.read p := by
    cases hs : c'.read p with
    | ok s => exact (h p s).2 hs
    | error f =>
        have hnone : ∀ s, c'.read p ≠ .ok s := fun s hok => by
          rw [hs] at hok
          cases hok
        rw [← hs, (read_eq_error_iff c' p).2 hnone]
        exact (read_eq_error_iff c p).2 fun s hok => hnone s ((h p s).1 hok)
  refine ⟨hread, ?_⟩
  have hsize : (c.size : ℕ∞) = c'.size := by
    rw [← encard_read, ← encard_read]
    simp only [hread]
  exact_mod_cast hsize

end Catalog

theorem sync_equals_registrations {listing : List PackageSource}
    (h : (listing.map PackageSource.ref).Nodup) (c : Catalog) :
    c.sync listing = listing.foldl Catalog.registerListed .empty ∧
      (Catalog.OffersOnce listing → ∀ listing', listing.Perm listing' → ∀ c' : Catalog,
        Catalog.Same (c.sync listing) (c'.sync listing')) := by
  refine ⟨(Catalog.foldl_registerListed h).symm, ?_⟩
  intro honce listing' hperm c'
  refine Catalog.Same.of_read_iff fun p s => ?_
  rw [Catalog.sync, Catalog.sync, honce.read_eq_ok_iff, (honce.perm hperm).read_eq_ok_iff]
  simp only [hperm.mem_iff]

theorem sync_equals_registrations_of_four :
    let source (name endpoint : String) (status : Option SourceStatus) : PackageSource :=
      ⟨{ Metadata.empty with name := some name }, ⟨endpoint, "community-operators"⟩, status⟩
    let listing :=
      [source "community" "https://quay.io/cnr" (some ⟨["etcd", "vault", "etcd"], none⟩),
        source "broken" "quay.io/cnr" (some ⟨["etcd"], none⟩),
        source "certified" "https://quay.io/cnr" none,
        source "upstream" "http://quay.io/cnr" (some ⟨["kafka"], none⟩)]
    let c := Catalog.empty.register ⟨"default", "upstream"⟩ ["etcd", "stale"]
    (listing.map PackageSource.ref).Nodup ∧ Catalog.OffersOnce listing ∧
      c.sync listing = listing.foldl Catalog.registerListed .empty ∧
      Catalog.Same (c.sync listing) (c.sync listing.reverse) ∧
      (c.sync listing).owners.entries =
        [("etcd", ⟨"default", "community"⟩), ("vault", ⟨"default", "community"⟩),
          ("kafka", ⟨"default", "upstream"⟩)] := by
  intro source listing c
  have hnodup : (listing.map PackageSource.ref).Nodup := by decide
  have hbroken : ¬ SourceSpec.Valid ⟨"quay.io/cnr", "community-operators"⟩ := by decide
  have honce : Catalog.OffersOnce listing := by
    have hkafka : ∀ p : String, p = "etcd" ∨ p = "vault" ∨ p = "etcd" → ¬ p = "kafka" := by
      rintro p (rfl | rfl | rfl) <;> decide
    suffices h : ∀ p, _ → p = "etcd" ∨ p = "vault" ∨ p = "etcd" → _ → ¬ p = "kafka" by
      simpa [Catalog.OffersOnce, PackageSource.Offers, listing, source, hbroken] using h
    exact fun p _ hp _ => hkafka p hp
  obtain ⟨hregistered, hperm⟩ := sync_equals_registrations hnodup c
  exact ⟨hnodup, honce, hregistered, hperm honce _ (List.reverse_perm listing).symm c, by decide⟩

end RegistryKeeper
