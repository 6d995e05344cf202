import RegistryKeeper.Proofs.Calendar

namespace RegistryKeeper.Calendar

abbrev Date : Type := Nat × Nat × Nat

def next : Date → Date
  | (y, m, d) =>
      if d < monthLength y m then (y, m, d + 1)
      else if m < 12 then (y, m + 1, 1)
      else (y + 1, 1, 1)

def dateAfter : Nat → Date
  | 0 => (0, 1, 1)
  | days + 1 => next (dateAfter days)

theorem monthLength_pos (y : Int) (m : Nat) : 1 ≤ monthLength y m := by
  unfold monthLength
  split
  · split <;> decide
  · split <;> decide

theorem daysBeforeMonth_of_pos (y : Int) {m : Nat} (h : 1 ≤ m) :
    daysBeforeMonth y m = daysBeforeMonth y (m - 1) + monthLength y m := by
  obtain ⟨k, rfl⟩ : ∃ k, m = k + 1 := ⟨m - 1, by omega⟩
  rfl

theorem isDate_iff {y : Int} {m d : Nat} :
    isDate y m d = true ↔ (1 ≤ m ∧ m ≤ 12) ∧ 1 ≤ d ∧ d ≤ monthLength y m := by
  simp [isDate, and_assoc]

theorem isDate_next {y m d : Nat} (h : isDate y m d = true) :
    isDate (next (y, m, d)).1 (next (y, m, d)).2.1 (next (y, m, d)).2.2 = true := by
  rw [isDate_iff] at h ⊢
  by_cases hd : d < monthLength y m
  · simp only [next, if_pos hd]
    omega
  · by_cases hm : m < 12
    · have hlength := monthLength_pos y (m + 1)
      simp only [next, if_neg hd, if_pos hm]
      omega
    · have hlength := monthLength_pos ((y + 1 : Nat) : Int) 1
      simp only [next, if_neg hd, if_neg hm]
      omega

theorem dayNumber_next {y m d : Nat} (h : isDate y m d = true) :
    dayNumber (next (y, m, d)).1 (next (y, m, d)).2.1 (next (y, m, d)).2.2 =
      dayNumber y m d + 1 := by
  obtain ⟨hmonth, hday⟩ := isDate_iff.1 h
  have hbefore := daysBeforeMonth_of_pos y hmonth.1
  by_cases hd : d < monthLength y m
  · simp only [next, if_pos hd, dayNumber]
    omega
  · by_cases hm : m < 12
    · simp only [next, if_neg hd, if_pos hm, dayNumber, Nat.add_sub_cancel]
      omega
    · obtain rfl : m = 12 := by omega
      have hyear := daysBeforeMonth_twelve y
      have hlast : daysBeforeMonth y 12 = daysBeforeMonth y 11 + monthLength y 12 := rfl
      have hfirst : daysBeforeMonth ((y + 1 : Nat) : Int) 0 = 0 := rfl
      simp only [next, if_neg hd, if_neg hm, dayNumber, Nat.sub_self, hfirst]
      push_cast
      omega

theorem dateAfter_spec (days : Nat) :
    isDate (dateAfter days).1 (dateAfter days).2.1 (dateAfter days).2.2 = true ∧
      dayNumber (dateAfter days).1 (dateAfter days).2.1 (dateAfter days).2.2 = days := by
  induction days with
  | zero => decide
  | succ days ih =>
      obtain ⟨hdate, hnumber⟩ := ih
      refine ⟨isDate_next hdate, ?_⟩
      rw [dateAfter, dayNumber_next hdate, hnumber]
      rfl

theorem daysBeforeMonth_mono (y : Int) {m n : Nat} (h : m ≤ n) :
    daysBeforeMonth y m ≤ daysBeforeMonth y n := by
  induction h with
  | refl => exact Nat.le_refl _
  | step _ ih => exact Nat.le_trans ih (Nat.le_add_right _ _)

theorem dayNumber_bounds {y : Int} {m d : Nat} (h : isDate y m d = true) :
    (daysBeforeMonth y (m - 1) ≤ (dayNumber y m d - daysBeforeYear y).toNat ∧
      (dayNumber y m d - daysBeforeYear y).toNat < daysBeforeMonth y m) ∧
    daysBeforeYear y ≤ dayNumber y m d ∧ dayNumber y m d < daysBeforeYear (y + 1) := by
  obtain ⟨hm, hd⟩ := isDate_iff.1 h
  have hbefore := daysBeforeMonth_of_pos y hm.1
  have hyear := daysBeforeMonth_twelve y
  have hle := daysBeforeMonth_mono y hm.2
  simp only [dayNumber]
  omega

theorem daysBeforeYear_mono {y y' : Int} (h : y ≤ y') : daysBeforeYear y ≤ daysBeforeYear y' := by
  obtain ⟨k, rfl⟩ : ∃ k : Nat, y' = y + k := ⟨(y' - y).toNat, by omega⟩
  have hfour : (y + 3) / 4 ≤ (y + k + 3) / 4 := by omega
  have hcentury : (y + k + 99) / 100 ≤ (y + 99) / 100 + k := by omega
  have hcycle : (y + 399) / 400 ≤ (y + k + 399) / 400 := by omega
  simp only [daysBeforeYear]
  omega

theorem dayNumber_injective {y y' : Int} {m m' d d' : Nat} (h : isDate y m d = true)
    (h' : isDate y' m' d' = true) (hn : dayNumber y m d = dayNumber y' m' d') :
    y = y' ∧ m = m' ∧ d = d' := by
  obtain ⟨hmonth, hyear⟩ := dayNumber_bounds h
  obtain ⟨hmonth', hyear'⟩ := dayNumber_bounds h'
  obtain ⟨hm, hd⟩ := isDate_iff.1 h
  obtain ⟨hm', hd'⟩ := isDate_iff.1 h'
  obtain rfl : y = y' := by
    rcases Int.lt_trichotomy (y + 1) (y' + 1) with hlt | heq | hlt
    · have hlater : daysBeforeYear (y + 1) ≤ daysBeforeYear y' := daysBeforeYear_mono (by omega)
      omega
    · omega
    · have hlater : daysBeforeYear (y' + 1) ≤ daysBeforeYear y := daysBeforeYear_mono (by omega)
      omega
  rw [← hn] at hmonth'
  obtain rfl : m = m' := by
    rcases Nat.lt_trichotomy m m' with hlt | heq | hlt
    · have hle := daysBeforeMonth_mono y (m := m) (n := m' - 1) (by omega)
      omega
    · exact heq
    · have hle := daysBeforeMonth_mono y (m := m') (n := m - 1) (by omega)
      omega
  simp only [dayNumber] at hn
  exact ⟨rfl, rfl, by omega⟩

theorem dateAfter_eq_iff {y m d days : Nat} (h : isDate y m d = true) :
    dateAfter days = (y, m, d) ↔ dayNumber y m d = days := by
  obtain ⟨hdate, hnumber⟩ := dateAfter_spec days
  constructor
  · intro heq
    rwa [heq] at hnumber
  · intro hdays
    obtain ⟨hy, hm, hd⟩ := dayNumber_injective hdate h (hnumber.trans hdays.symm)
    exact Prod.ext (by exact_mod_cast hy) (Prod.ext hm hd)

theorem dayNumber_nonneg {y m d : Nat} (h : isDate y m d = true) : 0 ≤ dayNumber y m d := by
  obtain ⟨-, hyear, -⟩ := dayNumber_bounds h
  refine Int.le_trans ?_ hyear
  simp only [daysBeforeYear]
  omega

example : next (1996, 2, 28) = (1996, 2, 29) ∧ next (1900, 2, 28) = (1900, 3, 1) ∧
    next (1999, 12, 31) = (2000, 1, 1) := by
  decide

end RegistryKeeper.Calendar
