import Mathlib.Data.List.Induction
import Mathlib.Data.Set.Card
import RegistryKeeper.Proofs.IndexReads

namespace RegistryKeeper

section
variable {α : Type} {begins ends : α → Prop}

/-- Something began in the list, and nothing that came later put an end to it. -/
def Lasts (begins ends : α → Prop) (l : List α) : Prop :=
  ∃ before e after, l = before ++ e :: after ∧ begins e ∧ ∀ e' ∈ after, ¬ ends e'

theorem not_lasts_nil : ¬ Lasts begins ends [] := by
  rintro ⟨before, e, after, h, -⟩
  cases before <;> cases h

theorem lasts_concat {l : List α} {e : α} :
    Lasts begins ends (l ++ [e]) ↔ begins e ∨ ¬ ends e ∧ Lasts begins ends l := by
  constructor
  · rintro ⟨before, e', after, h, hbegins, hends⟩
    rcases List.eq_nil_or_concat after with rfl | ⟨after, last, rfl⟩
    · obtain ⟨-, hlast⟩ := List.append_inj' h rfl
      cases hlast
      exact .inl hbegins
    · rw [List.concat_eq_append, ← List.cons_append, ← List.append_assoc] at h
      obtain ⟨rfl, hlast⟩ := List.append_inj' h rfl
      cases hlast
      simp only [List.concat_eq_append, List.forall_mem_append, List.forall_mem_singleton] at hends
      exact .inr ⟨hends.2, before, e', after, rfl, hbegins, hends.1⟩
  · rintro (hbegins | ⟨hnot, before, e', after, rfl, hbegins, hends⟩)
    · exact ⟨l, e, [], rfl, hbegins, List.forall_mem_nil _⟩
    · refine ⟨before, e', after ++ [e], by simp, hbegins, ?_⟩
      simp only [List.forall_mem_append, List.forall_mem_singleton]
      exact ⟨hends, hnot⟩

end

namespace SourceSpec

structure Valid (s : SourceSpec) : Prop where
  endpoint : "https://".toList <+: s.endpoint.toList ∨ "http://".toList <+: s.endpoint.toList
  registryNamespace : 1 ≤ s.registryNamespace.length ∧ s.registryNamespace.length ≤ 253

theorem defects_eq_nil_iff {s : SourceSpec} : s.defects = [] ↔ s.Valid := by
  have hendpoint : isWebAddress s.endpoint = true ↔
      "https://".toList <+: s.endpoint.toList ∨ "http://".toList <+: s.endpoint.toList := by
    rw [isWebAddress, Bool.or_eq_true, List.isPrefixOf_iff_prefix, List.isPrefixOf_iff_prefix]
  simp only [defects, List.append_eq_nil_iff, ite_eq_left_iff, imp_false, not_not,
    List.cons_ne_nil, hendpoint]
  constructor
  · rintro ⟨he, hn⟩
    exact ⟨he, hn⟩
  · rintro ⟨he, hn⟩
    exact ⟨he, hn⟩

instance (s : SourceSpec) : Decidable s.Valid := decidable_of_iff _ defects_eq_nil_iff

end SourceSpec

namespace PackageSource

def ref (d : PackageSource) : SourceRef :=
  ⟨d.metadata.namespace.getD "default", d.metadata.anyName⟩

def Offers (d : PackageSource) (p : String) : Prop :=
  d.spec.Valid ∧ ∃ status, d.status = some status ∧ p ∈ status.packages

end PackageSource

namespace Catalog

theorem offer_eq (d : PackageSource) :
    offer d = d.status.bind fun status =>
      if d.spec.Valid then some (d.ref, status.packages) else none := by
  unfold offer
  cases d.status with
  | none => rfl
  | some status =>
      by_cases h : d.spec.Valid
      · rw [Option.bind_some, if_pos h, SourceSpec.defects_eq_nil_iff.2 h]
        rfl
      · cases hdefects : d.spec.defects with
        | nil => exact absurd (SourceSpec.defects_eq_nil_iff.1 hdefects) h
        | cons first rest => rw [Option.bind_some, if_neg h]

theorem ofListing_concat (listing : List PackageSource) (d : PackageSource) :
    ofListing (listing ++ [d]) =
      (offer d).elim (ofListing listing) fun o => (ofListing listing).give o.1 o.2 := by
  rw [ofListing, List.filterMap_append, List.foldl_append]
  cases h : offer d with
  | none => simp [h, ofListing]
  | some o => simp [h, ofListing]

theorem read_ofListing_eq_ok_iff {listing : List PackageSource} {p : String} {s : SourceRef} :
    (ofListing listing).read p = .ok s ↔
      Lasts (fun d => d.Offers p ∧ d.ref = s) (·.Offers p) listing := by
  induction listing using List.reverseRecOn with
  | nil =>
      rw [read_eq_ok_iff]
      simp [not_lasts_nil, ofListing, empty]
  | append_singleton listing d ih =>
      rw [lasts_concat, ← ih, ofListing_concat, offer_eq]
      cases hstatus : d.status with
      | none => simp [PackageSource.Offers, hstatus]
      | some status =>
          by_cases hvalid : d.spec.Valid
          · simp only [PackageSource.Offers, hstatus, hvalid, Option.bind_some, if_true,
              Option.elim, read_eq_ok_iff, get?_give, Option.some.injEq, exists_eq_left', true_and]
            by_cases hp : p ∈ status.packages <;> simp [hp]
          · simp [PackageSource.Offers, hstatus, hvalid]

namespace Change

def Gives (p : String) (s : SourceRef) : Change → Prop
  | register s' packages => s' = s ∧ p ∈ packages
  | remove _ => False
  | sync listing => Lasts (fun d => d.Offers p ∧ d.ref = s) (·.Offers p) listing

def Takes (p : String) (s : SourceRef) : Change → Prop
  | register s' packages => s' ≠ s ∧ p ∈ packages ∨ s' = s ∧ p ∉ packages
  | remove s' => s' = s
  | sync _ => True

end Change

theorem read_apply_eq_ok_iff (d : Change) (c : Catalog) {p : String} {s : SourceRef} :
    (d.apply c).read p = .ok s ↔ d.Gives p s ∨ ¬ d.Takes p s ∧ c.read p = .ok s := by
  have hkept (s' : SourceRef) :
      (c.owners.get? p).filter (· ≠ s') = some s ↔ s' ≠ s ∧ c.owners.get? p = some s := by
    rw [Option.filter_eq_some_iff, decide_eq_true_eq, ne_comm, and_comm]
  cases d with
  | register s' packages =>
      rw [Change.apply, read_eq_ok_iff, read_eq_ok_iff, get?_register, Change.Gives, Change.Takes]
      by_cases hp : p ∈ packages
      · by_cases hs : s' = s <;> simp [hp, hs]
      · rw [if_neg hp, hkept]
        by_cases hs : s' = s <;> simp [hp, hs]
  | remove s' =>
      rw [Change.apply, read_eq_ok_iff, read_eq_ok_iff, get?_remove, hkept, Change.Gives,
        Change.Takes, false_or]
  | sync listing =>
      rw [Change.apply, Catalog.sync, read_ofListing_eq_ok_iff, Change.Gives, Change.Takes]
      simp only [not_true_eq_false, false_and, or_false]

def afterAll (c : Catalog) (history : List Change) : Catalog :=
  history.foldl (fun c d => d.apply c) c

theorem read_afterAll_eq_ok_iff {history : List Change} {p : String} {s : SourceRef} :
    (empty.afterAll history).read p = .ok s ↔
      Lasts (Change.Gives p s) (Change.Takes p s) history := by
  induction history using List.reverseRecOn with
  | nil =>
      rw [read_eq_ok_iff]
      simp [not_lasts_nil, afterAll, empty]
  | append_singleton history d ih =>
      rw [lasts_concat, ← ih, ← read_apply_eq_ok_iff, afterAll, List.foldl_append]
      rfl

theorem read_eq_error_iff (c : Catalog) (p : String) :
    c.read p = .error (.packageNotFound p) ↔ ∀ s, c.read p ≠ .ok s := by
  unfold read
  cases c.owners.get? p <;> simp

theorem encard_read (c : Catalog) : {p | ∃ s, c.read p = .ok s}.encard = c.size := by
  have hkeys : {p | ∃ s, c.read p = .ok s} =
      ((c.owners.entries.map (·.1)).toFinset : Set String) := by
    ext p
    simp only [Set.mem_ofPred_eq, read_eq_ok_iff, List.coe_toFinset, List.mem_map]
    constructor
    · rintro ⟨s, hs⟩
      exact ⟨_, Table.mem_of_get? hs, rfl⟩
    · rintro ⟨⟨p', s⟩, hmem, rfl⟩
      exact ⟨s, Table.get?_of_mem hmem⟩
  rw [hkeys, Set.encard_coe_eq_coe_finsetCard, List.toFinset_card_of_nodup c.owners.keys_nodup,
    List.length_map]
  rfl

end Catalog

theorem catalog_tells_last_owner (history : List Catalog.Change) :
    let c := Catalog.empty.afterAll history
    (∀ p s, c.read p = .ok s ↔
        Lasts (Catalog.Change.Gives p s) (Catalog.Change.Takes p s) history) ∧
      (∀ p, c.read p = .error (.packageNotFound p) ↔
        ∀ s, ¬ Lasts (Catalog.Change.Gives p s) (Catalog.Change.Takes p s) history) ∧
      {p | ∃ s, c.read p = .ok s}.encard = c.size := by
  intro c
  refine ⟨fun p s => Catalog.read_afterAll_eq_ok_iff, fun p => ?_, c.encard_read⟩
  rw [Catalog.read_eq_error_iff]
  exact forall_congr' fun s => not_congr Catalog.read_afterAll_eq_ok_iff

end RegistryKeeper
