import RegistryKeeper.Document.PackageRegistry
import RegistryKeeper.Proofs.Paths

namespace RegistryKeeper

section
variable {ε ε' α β : Type}

instance decidableEqExcept [DecidableEq ε] [DecidableEq α] : DecidableEq (Except ε α)
  | .error e, .error e' => decidable_of_iff (e = e') (by simp)
  | .ok a, .ok a' => decidable_of_iff (a = a') (by simp)
  | .error _, .ok _ => .isFalse (by simp)
  | .ok _, .error _ => .isFalse (by simp)

theorem bind_eq_ok_iff {x : Except ε α} {f : α → Except ε β} {b : β} :
    x >>= f = .ok b ↔ ∃ a, x = .ok a ∧ f a = .ok b := by
  cases x with
  | error e =>
      constructor
      · intro h
        cases h
      · rintro ⟨a, h, -⟩
        cases h
  | ok a =>
      constructor
      · intro h
        exact ⟨a, rfl, h⟩
      · rintro ⟨a', h, h'⟩
        cases h
        exact h'

theorem map_eq_ok_iff {x : Except ε α} {f : α → β} {b : β} :
    f <$> x = .ok b ↔ ∃ a, x = .ok a ∧ f a = b := by
  cases x <;> simp [Functor.map, Except.map]

theorem mapError_eq_ok_iff {x : Except ε α} {f : ε → ε'} {a : α} :
    x.mapError f = .ok a ↔ x = .ok a := by
  cases x with
  | error e =>
      constructor <;> intro h <;> cases h
  | ok b =>
      constructor <;> intro h <;> cases h <;> rfl

end

namespace Json
variable {α : Type}

theorem fits_eq_ok_iff {f : Reader α} {j : Json} : fits f j = .ok () ↔ ∃ a, f j = .ok a := by
  rw [fits, bind_eq_ok_iff]
  simp [pure, Except.pure]

theorem checkFields_eq_ok_iff {known : List (String × Reader Unit)} {l : List (String × Json)} :
    checkFields known l = .ok () ↔
      ∀ e ∈ l, ∀ f, Table.lookup e.1 known = some f → f e.2 = .ok () := by
  induction l with
  | nil => simp [checkFields]
  | cons e l ih =>
      obtain ⟨k, j⟩ := e
      have hk : checkFields known ((k, j) :: l) = .ok () ↔
          (∀ f, Table.lookup k known = some f → f j = .ok ()) ∧ checkFields known l = .ok () := by
        simp only [checkFields]
        cases Table.lookup k known with
        | none => simp [bind_eq_ok_iff, mapError_eq_ok_iff]
        | some f =>
            simp only [bind_eq_ok_iff, mapError_eq_ok_iff]
            constructor
            · rintro ⟨_, hf, hl⟩
              refine ⟨?_, hl⟩
              rintro _ ⟨⟩
              exact hf
            · rintro ⟨hf, hl⟩
              exact ⟨(), hf f rfl, hl⟩
      rw [hk, ih]
      simp

theorem readField_eq_ok_iff {f : Reader α} {k : String} {l : List (String × Json)} {o : Option α} :
    readField f k l = .ok o ↔
      match Table.lookup k l with
      | none => o = none
      | some j => ∃ a, f j = .ok a ∧ o = some a := by
  induction l with
  | nil => simp [readField, Table.lookup, eq_comm]
  | cons e l ih =>
      obtain ⟨k', j⟩ := e
      by_cases h : k' = k
      · simp only [readField, Table.lookup, h, if_true, map_eq_ok_iff, mapError_eq_ok_iff,
          eq_comm (a := o)]
      · simp only [readField, Table.lookup, h, if_false, mapError_eq_ok_iff, ih]

theorem required_eq_ok_iff {f : Reader α} {k : String} {l : List (String × Json)} {a : α} :
    required f l k = .ok a ↔ ∃ j, Table.lookup k l = some j ∧ f j = .ok a := by
  simp only [required, bind_eq_ok_iff, readField_eq_ok_iff]
  cases Table.lookup k l with
  | none => simp [throw, throwThe, MonadExceptOf.throw]
  | some j =>
      constructor
      · rintro ⟨_, ⟨b, hb, rfl⟩, h⟩
        cases h
        exact ⟨j, rfl, hb⟩
      · rintro ⟨_, hj, h⟩
        cases hj
        exact ⟨some a, ⟨a, h, rfl⟩, rfl⟩

theorem optional_eq_ok_iff {f : Reader α} {k : String} {l : List (String × Json)} {o : Option α} :
    optional f l k = .ok o ↔ readOption f ((Table.lookup k l).getD .null) = .ok o := by
  simp only [optional, map_eq_ok_iff, readField_eq_ok_iff]
  cases Table.lookup k l with
  | none => simp [readOption, eq_comm]
  | some j =>
      constructor
      · rintro ⟨_, ⟨b, hb, rfl⟩, rfl⟩
        exact hb
      · intro h
        exact ⟨some o, ⟨o, h, rfl⟩, rfl⟩

theorem mem_put {k : String} {v : Json} {l : List (String × Json)} {e : String × Json}
    (h : e ∈ put k v l) : e = (k, v) ∨ e ∈ l := by
  induction l with
  | nil => exact .inl (List.mem_singleton.1 h)
  | cons e' l ih =>
      obtain ⟨k', v'⟩ := e'
      unfold put at h
      split at h
      · rcases List.mem_cons.1 h with h | h
        · exact .inl h
        · exact .inr (List.mem_cons_of_mem _ h)
      · split at h
        · exact List.mem_cons.1 h
        · rcases List.mem_cons.1 h with h | h
          · exact .inr (h ▸ List.mem_cons_self)
          · rcases ih h with h | h
            · exact .inl h
            · exact .inr (List.mem_cons_of_mem _ h)

theorem checkFields_put {known : List (String × Reader Unit)} {l : List (String × Json)}
    (h : checkFields known l = .ok ()) {k : String} {v : Json}
    (hv : ∀ f, Table.lookup k known = some f → f v = .ok ()) :
    checkFields known (put k v l) = .ok () := by
  rw [checkFields_eq_ok_iff] at h ⊢
  intro e he
  rcases mem_put he with rfl | he
  · exact hv
  · exact h e he

theorem checkFields_filter {known : List (String × Reader Unit)} {l : List (String × Json)}
    (h : checkFields known l = .ok ()) (p : String × Json → Bool) :
    checkFields known (l.filter p) = .ok () := by
  rw [checkFields_eq_ok_iff] at h ⊢
  intro e he
  exact h e (List.mem_filter.1 he).1

theorem optional_put_of_ne {f : Reader α} {k k' : String} (h : k ≠ k') (v : Json)
    (l : List (String × Json)) (o : Option α) :
    optional f (put k v l) k' = .ok o ↔ optional f l k' = .ok o := by
  rw [optional_eq_ok_iff, optional_eq_ok_iff, lookup_put, if_neg h]

end Json

end RegistryKeeper
