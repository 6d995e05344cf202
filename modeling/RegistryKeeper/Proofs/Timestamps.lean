import Mathlib.Algebra.Group.Nat.Defs
import RegistryKeeper.Time.Timestamp
import RegistryKeeper.Proofs.Calendar

namespace RegistryKeeper.Instant

theorem bind_eq_of_eq_some {α β : Type} {o : Option α} {a : α} {f : α → Option β} {b : Option β}
    (ho : o = some a) (hf : f a = b) : (o >>= f) = b := by
  rw [ho, ← hf]
  rfl

theorem digitsValue_append_singleton (ds : List Char) (d : Char) :
    digitsValue (ds ++ [d]) = 10 * digitsValue ds + (d.toNat - 48) := by
  simp [digitsValue]

theorem isDigit_ofNat : ∀ d, d < 10 → (Char.ofNat (48 + d)).isDigit = true := by decide

theorem toNat_ofNat_sub : ∀ d, d < 10 → (Char.ofNat (48 + d)).toNat - 48 = d := by decide

@[simp] theorem length_padded (w n : Nat) : (padded w n).length = w := by
  induction w generalizing n with
  | zero => rfl
  | succ w ih => rw [padded, List.length_append, ih, List.length_singleton]

theorem isDigit_of_mem_padded (w n : Nat) : ∀ c ∈ padded w n, c.isDigit = true := by
  induction w generalizing n with
  | zero =>
      intro c hc
      cases hc
  | succ w ih =>
      intro c hc
      rw [padded, List.mem_append, List.mem_singleton] at hc
      rcases hc with hc | rfl
      · exact ih (n / 10) c hc
      · exact isDigit_ofNat (n % 10) (Nat.mod_lt n (by decide))

theorem digitsValue_padded (w n : Nat) : digitsValue (padded w n) = n % 10 ^ w := by
  induction w generalizing n with
  | zero => simp [padded, digitsValue, Nat.mod_one]
  | succ w ih =>
      have hd := toNat_ofNat_sub (n % 10) (Nat.mod_lt n (by decide))
      rw [padded, digitsValue_append_singleton, ih, hd, Nat.pow_succ, Nat.mul_comm (10 ^ w) 10,
        Nat.mod_mul, Nat.add_comm]

theorem takeNumber_padded {w n : Nat} (h : n < 10 ^ w) (r : List Char) :
    takeNumber w (padded w n ++ r) = some (n, r) := by
  have htake : (padded w n ++ r).take w = padded w n := by
    rw [List.take_append_of_le_length (by simp), List.take_of_length_le (by simp)]
  have hdrop : (padded w n ++ r).drop w = r := by
    rw [List.drop_append_of_le_length (by simp), List.drop_of_length_le (by simp), List.nil_append]
  have hall : (padded w n).all Char.isDigit = true :=
    List.all_eq_true.2 (isDigit_of_mem_padded w n)
  simp only [takeNumber, htake, hdrop, length_padded, hall, Bool.and_true, decide_true, if_true,
    digitsValue_padded, Nat.mod_eq_of_lt h]

theorem takeFraction_padded {w n : Nat} (h : n < 10 ^ w) (hw : 0 < w) (h9 : w ≤ 9)
    (r : List Char) :
    takeFraction ('.' :: (padded w n ++ '+' :: r)) = some (n * 10 ^ (9 - w), '+' :: r) := by
  have hdigits := isDigit_of_mem_padded w n
  have htake : (padded w n ++ '+' :: r).takeWhile Char.isDigit = padded w n := by
    rw [List.takeWhile_append_of_pos hdigits]
    simp
  have hdrop : (padded w n ++ '+' :: r).dropWhile Char.isDigit = '+' :: r := by
    rw [List.dropWhile_append_of_pos hdigits]
    simp
  have hne : (padded w n).isEmpty = false := by
    rw [List.isEmpty_eq_false_iff, ← List.length_pos_iff, length_padded]
    exact hw
  have hnine : (padded w n).take 9 = padded w n := List.take_of_length_le (by simpa using h9)
  simp only [takeFraction, htake, hdrop, hne, hnine, length_padded, digitsValue_padded,
    Nat.mod_eq_of_lt h]
  rfl

theorem takeFraction_fractionText {n : Nat} (h : n < nanosPerSecond) (r : List Char) :
    takeFraction (fractionText n ++ '+' :: r) = some (n, '+' :: r) := by
  unfold nanosPerSecond at h
  unfold fractionText
  split
  · next h0 => simp [takeFraction, h0]
  · split
    · next h3 =>
        rw [List.cons_append, takeFraction_padded (by omega) (by decide) (by decide)]
        congr 2
        omega
    · split
      · next h6 =>
          rw [List.cons_append, takeFraction_padded (by omega) (by decide) (by decide)]
          congr 2
          omega
      · rw [List.cons_append, takeFraction_padded (by omega) (by decide) (by decide)]
        simp

def year (t : Instant) : Int := (Calendar.dateOf (t.seconds / 86400)).1

theorem yearText_of_year {y : Int} (h : 0 ≤ y ∧ y ≤ 9999) : yearText y = padded 4 y.toNat := by
  simp [yearText, h]

theorem ofText?_text {t : Instant} (hl : t.isLeap = false) (hy : 0 ≤ t.year ∧ t.year ≤ 9999) :
    ofText? t.text = some t := by
  obtain ⟨hdate, hnumber⟩ := Calendar.dateOf_spec (t.seconds / 86400)
  rcases hdays : Calendar.dateOf (t.seconds / 86400) with ⟨y, m, d⟩
  rw [hdays] at hdate hnumber
  let s := t.secondOfDay.toNat
  have hs : (s : Int) = t.seconds % 86400 := by
    simp only [s, secondOfDay]
    omega
  have hd : 1 ≤ m ∧ m ≤ 12 ∧ 1 ≤ d ∧ d ≤ 31 := Calendar.bounds_of_isDate hdate
  have hy' : 0 ≤ y ∧ y ≤ 9999 := by
    rwa [year, hdays] at hy
  have hn : t.nanos < nanosPerSecond := by
    simpa [isLeap] using hl
  have hclock : ofClock y m d (s / 3600) (s / 60 % 60) (s % 60) t.nanos 0 = t := by
    have h60 : s % 60 ≠ 60 := by omega
    have h59 : min (s % 60) 59 = s % 60 := by omega
    simp only [ofClock, hnumber, h60, h59, if_false]
    congr 1
    omega
  have htext : t.text.toList =
      padded 4 y.toNat ++ '-' :: (padded 2 m ++ '-' :: (padded 2 d ++ 'T' ::
        (padded 2 (s / 3600) ++ ':' :: (padded 2 (s / 60 % 60) ++ ':' :: (padded 2 (s % 60) ++
          (fractionText t.nanos ++ ['+', '0', '0', ':', '0', '0'])))))) := by
    simp [text, dateTimeText, hdays, hl, yearText_of_year hy', Nat.mod_eq_of_lt hn, s]
  have hoffset : takeOffset ['+', '0', '0', ':', '0', '0'] = some (0, []) := by decide
  have hint : ((y.toNat : Nat) : Int) = y := Int.toNat_of_nonneg hy'.1
  have htime : s / 3600 ≤ 23 ∧ s / 60 % 60 ≤ 59 ∧ s % 60 ≤ 60 := by omega
  -- the parts are taken off one after another
  rw [ofText?, htext]
  refine bind_eq_of_eq_some (takeNumber_padded (by omega) _) (bind_eq_of_eq_some rfl ?_)
  refine bind_eq_of_eq_some (takeNumber_padded (by omega) _) (bind_eq_of_eq_some rfl ?_)
  refine bind_eq_of_eq_some (takeNumber_padded (by omega) _) (bind_eq_of_eq_some rfl ?_)
  refine bind_eq_of_eq_some (takeNumber_padded (by omega) _) (bind_eq_of_eq_some rfl ?_)
  refine bind_eq_of_eq_some (takeNumber_padded (by omega) _) (bind_eq_of_eq_some rfl ?_)
  refine bind_eq_of_eq_some (takeNumber_padded (by omega) _) ?_
  refine bind_eq_of_eq_some (takeFraction_fractionText hn _) (bind_eq_of_eq_some hoffset ?_)
  simp only [hint, hdate, htime, hclock, decide_true, List.isEmpty_nil, Bool.and_true, if_true]

theorem ofText?_text_of_signed {t : Instant} (h : ¬ (0 ≤ t.year ∧ t.year ≤ 9999)) :
    ofText? t.text = none := by
  obtain ⟨sign, hsign, r, htext⟩ : ∃ sign : Char, sign.isDigit = false ∧
      ∃ r, t.text.toList = sign :: r := by
    rcases hdays : Calendar.dateOf (t.seconds / 86400) with ⟨y, m, d⟩
    have hy : ¬ (0 ≤ y ∧ y ≤ 9999) := by
      rwa [year, hdays] at h
    refine ⟨if y < 0 then '-' else '+', by split <;> rfl, ?_⟩
    simp [text, dateTimeText, hdays, yearText, hy]
  have hnone : takeNumber 4 (sign :: r) = none := by
    simp [takeNumber, hsign]
  rw [ofText?, htext, hnone]
  rfl

theorem digitsValue_lt {ds : List Char} (h : ∀ c ∈ ds, c.isDigit = true) :
    digitsValue ds < 10 ^ ds.length := by
  suffices hr : ∀ l : List Char, (∀ c ∈ l, c.isDigit = true) →
      digitsValue l.reverse < 10 ^ l.length by
    simpa using hr ds.reverse (by simpa using h)
  intro l hl
  induction l with
  | nil => decide
  | cons d l ih =>
      have hd : d.isDigit = true := hl d List.mem_cons_self
      have hlt := ih fun c hc => hl c (List.mem_cons_of_mem _ hc)
      have hval : d.toNat ≤ 57 := by
        simp only [Char.isDigit, Bool.and_eq_true, decide_eq_true_eq] at hd
        exact hd.2
      rw [List.reverse_cons, digitsValue_append_singleton, List.length_cons, Nat.pow_succ]
      omega

theorem takeFraction_lt {cs r : List Char} {n : Nat} (h : takeFraction cs = some (n, r)) :
    n < nanosPerSecond := by
  unfold takeFraction at h
  split at h
  · next r' =>
      simp only at h
      split at h
      · cases h
      · obtain ⟨rfl, -⟩ := Prod.mk.inj (Option.some.inj h)
        have hd : ∀ c ∈ (r'.takeWhile Char.isDigit).take 9, c.isDigit = true := by
          intro c hc
          exact List.all_eq_true.1 List.all_takeWhile c (List.mem_of_mem_take hc)
        have hlt := digitsValue_lt hd
        have hlen : ((r'.takeWhile Char.isDigit).take 9).length ≤ 9 := List.length_take_le _ _
        generalize ((r'.takeWhile Char.isDigit).take 9) = ds at hlt hlen
        calc digitsValue ds * 10 ^ (9 - ds.length)
            < 10 ^ ds.length * 10 ^ (9 - ds.length) :=
              Nat.mul_lt_mul_of_pos_right hlt (Nat.pow_pos (by decide))
          _ = 10 ^ 9 := by rw [← Nat.pow_add, Nat.add_sub_cancel' hlen]
  · obtain ⟨rfl, -⟩ := Prod.mk.inj (Option.some.inj h)
    decide

theorem nanos_of_ofText? {s : String} {u : Instant} (h : ofText? s = some u) :
    u.nanos < 2 * nanosPerSecond := by
  have hbind : ∀ {α : Type} {o : Option α} {f : α → Option Instant}, (o >>= f) = some u →
      ∃ a, o = some a ∧ f a = some u := Option.bind_eq_some_iff.1
  -- the year down to the minute, and what stands between them
  iterate 10 obtain ⟨_, -, h⟩ := hbind h
  obtain ⟨⟨second, _⟩, -, h⟩ := hbind h
  obtain ⟨⟨nanos, _⟩, hf, h⟩ := hbind h
  obtain ⟨_, -, h⟩ := hbind h
  have hn := takeFraction_lt hf
  dsimp only at h
  split at h
  · cases h
    simp only [ofClock]
    split <;> omega
  · cases h

end RegistryKeeper.Instant
