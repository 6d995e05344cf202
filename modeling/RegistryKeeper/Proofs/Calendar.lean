import RegistryKeeper.Time.Instant

namespace RegistryKeeper.Calendar

theorem yearFrom_le {day y : Int} (h : daysBeforeYear y ≤ day) (fuel : Nat) :
    daysBeforeYear (yearFrom day fuel y) ≤ day := by
  induction fuel generalizing y with
  | zero => exact h
  | succ fuel ih =>
      unfold yearFrom
      split
      · next hn => exact ih hn
      · exact h

theorem lt_yearFrom (day y : Int) (fuel : Nat) :
    yearFrom day fuel y = y + fuel ∨ day < daysBeforeYear (yearFrom day fuel y + 1) := by
  induction fuel generalizing y with
  | zero => simp [yearFrom]
  | succ fuel ih =>
      unfold yearFrom
      split
      · rcases ih (y + 1) with h | h
        · left
          rw [h]
          omega
        · exact .inr h
      · next hn =>
          right
          omega

theorem daysBeforeYear_add_cycles (y : Int) (n : Int) :
    daysBeforeYear (cycleYears * n + y) = cycleDays * n + daysBeforeYear y := by
  simp only [daysBeforeYear, cycleYears, cycleDays]
  omega

theorem yearOf_spec (day : Int) :
    daysBeforeYear (yearOf day) ≤ day ∧ day < daysBeforeYear (yearOf day + 1) := by
  let rest := day % cycleDays
  let first := rest / 366
  have hr : 0 ≤ rest ∧ rest < cycleDays := by
    simp only [rest, cycleDays]
    omega
  have hday : day = cycleDays * (day / cycleDays) + rest := by
    simp only [rest, cycleDays]
    omega
  have hf : daysBeforeYear first ≤ rest := by
    simp only [daysBeforeYear, first]
    omega
  have hy : yearOf day = cycleYears * (day / cycleDays) + yearFrom rest cycleYears first := rfl
  have hle := yearFrom_le hf cycleYears
  have hlt : rest < daysBeforeYear (yearFrom rest cycleYears first + 1) := by
    rcases lt_yearFrom rest first cycleYears with h | h
    · -- after so many years the days of a cycle are over
      rw [h]
      simp only [daysBeforeYear, cycleYears, cycleDays, first] at hr ⊢
      omega
    · exact h
  rw [hy, Int.add_assoc, daysBeforeYear_add_cycles, daysBeforeYear_add_cycles]
  omega

theorem daysBeforeMonth_twelve (y : Int) :
    (daysBeforeMonth y 12 : Int) = daysBeforeYear (y + 1) - daysBeforeYear y := by
  have hd : daysBeforeMonth y 12 = if isLeap y then 366 else 365 := by
    simp only [daysBeforeMonth, monthLength]
    cases isLeap y <;> rfl
  rw [hd]
  simp only [isLeap, daysBeforeYear, Bool.and_eq_true, Bool.or_eq_true, decide_eq_true_eq, ne_eq]
  split <;> omega

theorem monthsBefore_spec (y : Int) (day m : Nat) :
    monthsBefore y day m ≤ m ∧ daysBeforeMonth y (monthsBefore y day m) ≤ day ∧
      (monthsBefore y day m = m ∨ day < daysBeforeMonth y (monthsBefore y day m + 1)) := by
  induction m with
  | zero => simp [monthsBefore, daysBeforeMonth]
  | succ m ih =>
      unfold monthsBefore
      split
      · next h => exact ⟨Nat.le_refl _, h, .inl rfl⟩
      · next h =>
          obtain ⟨hm, hle, hlt⟩ := ih
          refine ⟨Nat.le_succ_of_le hm, hle, ?_⟩
          rcases hlt with heq | hlt
          · right
            rw [heq]
            exact Nat.lt_of_not_le h
          · exact .inr hlt

theorem bounds_of_isDate {y : Int} {m d : Nat} (h : isDate y m d = true) :
    1 ≤ m ∧ m ≤ 12 ∧ 1 ≤ d ∧ d ≤ 31 := by
  have hlength : monthLength y m ≤ 31 := by
    unfold monthLength
    split
    · split <;> omega
    · split <;> omega
  simp only [isDate, Bool.and_eq_true, decide_eq_true_eq] at h
  omega

theorem dateOf_spec (day : Int) :
    isDate (dateOf day).1 (dateOf day).2.1 (dateOf day).2.2 = true ∧
      dayNumber (dateOf day).1 (dateOf day).2.1 (dateOf day).2.2 = day := by
  let y := yearOf day
  let rest := (day - daysBeforeYear y).toNat
  let m := monthsBefore y rest 11
  have hdate : dateOf day = (y, m + 1, rest - daysBeforeMonth y m + 1) := rfl
  obtain ⟨hle, hlt⟩ : daysBeforeYear y ≤ day ∧ day < daysBeforeYear (y + 1) := yearOf_spec day
  have hrest : (rest : Int) = day - daysBeforeYear y := Int.toNat_of_nonneg (by omega)
  obtain ⟨hm, hbefore, hafter⟩ : m ≤ 11 ∧ daysBeforeMonth y m ≤ rest ∧
      (m = 11 ∨ rest < daysBeforeMonth y (m + 1)) := monthsBefore_spec y rest 11
  have hnext : rest < daysBeforeMonth y m + monthLength y (m + 1) := by
    rcases hafter with h | h
    · have hyear := daysBeforeMonth_twelve y
      rw [h]
      change rest < daysBeforeMonth y 12
      omega
    · exact h
  rw [hdate]
  refine ⟨?_, ?_⟩
  · simp only [isDate, Bool.and_eq_true, decide_eq_true_eq]
    omega
  · simp only [dayNumber, Nat.add_sub_cancel]
    omega

end RegistryKeeper.Calendar
