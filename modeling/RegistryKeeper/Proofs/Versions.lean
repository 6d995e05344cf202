import RegistryKeeper.Proofs.SharedClusters

namespace RegistryKeeper

namespace Store
variable {κ : Type} [DecidableEq κ]

inductive Edit (s : Store κ) : Store κ → Prop where
  | keep : Edit s s
  | write (p : Place κ) (isService : Bool) (j : Json) : Edit s (s.write p isService j).2
  | erase (p : Place κ) : Edit s (s.erase p)

theorem Edit.versions_le {s s' : Store κ} (h : s.Edit s') : s.versions ≤ s'.versions := by
  cases h with
  | keep | erase p => exact Nat.le_refl _
  | write p isService j => exact Nat.le_succ _

theorem Step.edit {s s' : Store ManagedKind} {e : Option (Place ManagedKind × Json)}
    (h : s.Step e s') : s.Edit s' := by
  cases h with
  | wrote p j hname => exact .write p _ j
  | erased p => exact .erase p
  | kept => exact .keep

def DrawnAfter (v : Nat) (j : Json) : Prop :=
  ∃ w, v < w ∧ Managed.versionOf j = some (resourceVersion w)

def RenewedSince (s : Store κ) (v : Nat) (p : Place κ) : Prop :=
  ∀ j, s.get? p = some j → DrawnAfter v j

theorem RenewedSince.mono {s : Store κ} {v w : Nat} {p : Place κ} (h : s.RenewedSince w p)
    (hvw : v ≤ w) : s.RenewedSince v p := by
  intro j hj
  obtain ⟨x, hx, hversion⟩ := h j hj
  exact ⟨x, Nat.lt_of_le_of_lt hvw hx, hversion⟩

theorem renewedSince_write (s : Store κ) (p : Place κ) (isService : Bool) (j : Json) :
    (s.write p isService j).2.RenewedSince s.versions p := by
  intro i hi
  rw [get?_write_self, Option.some.injEq] at hi
  exact ⟨s.versions + 1, Nat.lt_succ_self _, hi ▸ versionOf_write s p isService j⟩

theorem renewedSince_erase (s : Store κ) (p : Place κ) (v : Nat) :
    (s.erase p).RenewedSince v p := by
  intro i hi
  rw [get?_erase, if_pos rfl] at hi
  cases hi

theorem Edit.get?_eq_or_renewed {s s' : Store κ} (h : s.Edit s') (p : Place κ) :
    s'.get? p = s.get? p ∨ s'.RenewedSince s.versions p := by
  cases h with
  | keep => exact .inl rfl
  | write q isService j =>
      by_cases hq : q = p
      · subst hq
        exact .inr (renewedSince_write s q isService j)
      · exact .inl ((get?_write s q p isService j).trans (if_neg hq))
  | erase q =>
      by_cases hq : q = p
      · subst hq
        exact .inr (renewedSince_erase s q _)
      · exact .inl ((get?_erase s q p).trans (if_neg hq))

theorem RenewedSince.edit {s s' : Store κ} {v : Nat} {p : Place κ} (h : s.RenewedSince v p)
    (hv : v ≤ s.versions) (he : s.Edit s') : s'.RenewedSince v p := by
  rcases he.get?_eq_or_renewed p with hsame | hrenewed
  · intro j hj
    exact h j (hsame ▸ hj)
  · exact hrenewed.mono hv

def Versioned (s : Store κ) : Prop :=
  s.All fun _ j => ∃ v, v ≤ s.versions ∧ Managed.versionOf j = some (resourceVersion v)

theorem Versioned.edit {s s' : Store κ} (h : s.Versioned) (he : s.Edit s') : s'.Versioned := by
  intro p j hj
  cases he with
  | keep => exact h p j hj
  | erase q =>
      rw [get?_erase] at hj
      split at hj
      · cases hj
      · exact h p j hj
  | write q isService i =>
      rw [get?_write] at hj
      split at hj
      · cases hj
        exact ⟨s.versions + 1, Nat.le_refl _, versionOf_write s q isService i⟩
      · obtain ⟨v, hv, hversion⟩ := h p j hj
        exact ⟨v, Nat.le_succ_of_le hv, hversion⟩

theorem RenewedSince.versionOf_ne {s₀ s : Store κ} {p q : Place κ} {live j : Json}
    (h : s.RenewedSince s₀.versions p) (h₀ : s₀.Versioned) (hlive : s₀.get? q = some live)
    (hj : s.get? p = some j) : Managed.versionOf live ≠ Managed.versionOf j := by
  obtain ⟨v, hv, hv'⟩ := h₀ q live hlive
  obtain ⟨w, hw, hw'⟩ := h j hj
  intro heq
  rw [hv', hw', Option.some.injEq] at heq
  have hvw := resourceVersion_injective heq
  omega

end Store

theorem Deed.edit (d : Deed) (c : LocalCluster) : c.store.Edit (d.act c).store :=
  (d.step c).edit

theorem LocalCluster.Reachable.versioned {c : LocalCluster} (h : c.Reachable) :
    c.store.Versioned := by
  induction h with
  | empty => exact .empty _
  | insert k j _ ih => exact ih.edit (step_insert _ k j).edit
  | fail v k f _ ih => exact ih
  | clearFaults _ ih => exact ih
  | clearCalls _ ih => exact ih
  | call call _ ih => exact ih.edit (answered _ call).step.edit

namespace Shared
variable {ι α : Type} [DecidableEq ι]

theorem edit_step (s : Shared ι α) (m : Move ι) :
    s.cluster.store.Edit (s.step m).cluster.store := by
  rw [cluster_step]
  cases s.deed? m with
  | none => exact .keep
  | some d => exact d.edit s.cluster

theorem versions_le_after (s : Shared ι α) (l : List (Move ι)) :
    s.cluster.store.versions ≤ (s.after l).cluster.store.versions := by
  induction l generalizing s with
  | nil => exact Nat.le_refl _
  | cons m l ih => exact Nat.le_trans (s.edit_step m).versions_le (ih (s.step m))

theorem renewedSince_after {s : Shared ι α} {v : Nat} {p : Place ManagedKind}
    (h : s.cluster.store.RenewedSince v p) (hv : v ≤ s.cluster.store.versions)
    (l : List (Move ι)) : (s.after l).cluster.store.RenewedSince v p := by
  induction l generalizing s with
  | nil => exact h
  | cons m l ih =>
      have hstep := s.edit_step m
      exact ih (h.edit hv hstep) (Nat.le_trans hv hstep.versions_le)

theorem get?_after_or_renewed (s : Shared ι α) (l : List (Move ι)) (p : Place ManagedKind) :
    (s.after l).cluster.store.get? p = s.cluster.store.get? p ∨
      (s.after l).cluster.store.RenewedSince s.cluster.store.versions p := by
  induction l generalizing s with
  | nil => exact .inl rfl
  | cons m l ih =>
      have hstep := s.edit_step m
      rcases hstep.get?_eq_or_renewed p with hsame | hrenewed
      · rcases ih (s.step m) with h | h
        · exact .inl (h.trans hsame)
        · exact .inr (h.mono hstep.versions_le)
      · exact .inr (renewedSince_after hrenewed hstep.versions_le l)

end Shared

end RegistryKeeper
