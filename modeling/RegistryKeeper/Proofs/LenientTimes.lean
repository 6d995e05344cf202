import RegistryKeeper.Time.Lenient
import RegistryKeeper.Proofs.Timestamps

namespace RegistryKeeper.Lenient

section
variable {α β : Type} {p : Reading α} {f : α → Reading β} {a : α} {b : β} {cs r r' : List Char}

theorem run_bind_of_ok (hp : p.run cs = .ok (a, r)) (hf : (f a).run r = .ok (b, r')) :
    (p >>= f).run cs = .ok (b, r') := by
  rw [StateT.run_bind, hp]
  exact hf

theorem run_bind_eq_ok (h : (p >>= f).run cs = .ok (b, r')) :
    ∃ a r, p.run cs = .ok (a, r) ∧ (f a).run r = .ok (b, r') := by
  rw [StateT.run_bind] at h
  cases hp : p.run cs with
  | error e =>
      rw [hp] at h
      cases h
  | ok q =>
      rw [hp] at h
      exact ⟨q.1, q.2, rfl, h⟩

end

theorem not_isSpace_of_isDigit {c : Char} (h : c.isDigit = true) : Text.isSpace c = false := by
  have hc : 48 ≤ c.toNat ∧ c.toNat ≤ 57 := by
    simp only [Char.isDigit, Bool.and_eq_true, decide_eq_true_eq] at h
    exact h
  simp only [Text.isSpace, Bool.or_eq_false_iff, Bool.and_eq_false_iff, decide_eq_false_iff_not]
  omega

theorem run_skip {p : Char → Bool} {c : Char} (h : p c = false) (r : List Char) :
    (skip p).run (c :: r) = .ok ((), c :: r) := by
  have hrun : (skip p).run (c :: r) = .ok ((), (c :: r).dropWhile p) := rfl
  rw [hrun, List.dropWhile_cons_of_neg (by simp [h])]

theorem run_oneOf {p : Char → Bool} {c : Char} (h : p c = true) (r : List Char) :
    (oneOf p).run (c :: r) = .ok (c, r) := by
  refine run_bind_of_ok (a := c :: r) (r := c :: r) rfl ?_
  simp only [h, if_true]
  rfl

theorem run_mark {c : Char} (h : Text.isSpace c = false) (r : List Char) :
    (mark c).run (c :: r) = .ok ((), r) :=
  run_bind_of_ok (run_skip h r) (run_bind_of_ok (run_oneOf (by simp) r) rfl)

theorem run_number {most : Option Nat} {ds r : List Char} (hd : ∀ c ∈ ds, c.isDigit = true)
    (hne : ds ≠ []) (hmost : most = some ds.length ∨
      most = none ∧ ∀ c r', r = c :: r' → c.isDigit = false) :
    (number most).run (ds ++ r) = .ok (Instant.digitsValue ds, r) := by
  have hall : ds.takeWhile Char.isDigit = ds :=
    calc ds.takeWhile Char.isDigit
        = (ds ++ []).takeWhile Char.isDigit := by rw [List.append_nil]
      _ = ds ++ [].takeWhile Char.isDigit := List.takeWhile_append_of_pos hd
      _ = ds := List.append_nil ds
  have htake : ((most.map (ds ++ r).take).getD (ds ++ r)).takeWhile Char.isDigit = ds := by
    rcases hmost with rfl | ⟨rfl, hr⟩
    · simpa using hall
    · rw [Option.map_none, Option.getD_none, List.takeWhile_append_of_pos hd]
      cases r with
      | nil => simp
      | cons c r' => simp [hr c r' rfl]
  refine run_bind_of_ok (a := ds ++ r) (r := ds ++ r) rfl ?_
  have hfull : ds.isEmpty = false := List.isEmpty_eq_false_iff.2 hne
  simp only [htake, hfull, Bool.false_eq_true, if_false]
  refine run_bind_of_ok (a := ()) (r := (ds ++ r).drop ds.length) rfl ?_
  rw [List.drop_left]
  rfl

theorem exists_cons_padded (w n : Nat) :
    ∃ c ds, Instant.padded (w + 1) n = c :: ds ∧ c.isDigit = true := by
  cases h : Instant.padded (w + 1) n with
  | nil =>
      have hlen := Instant.length_padded (w + 1) n
      rw [h] at hlen
      cases hlen
  | cons c ds => exact ⟨c, ds, rfl, Instant.isDigit_of_mem_padded (w + 1) n c (by simp [h])⟩

theorem run_skip_padded (w n : Nat) (r : List Char) :
    (skip Text.isSpace).run (Instant.padded (w + 1) n ++ r) =
      .ok ((), Instant.padded (w + 1) n ++ r) := by
  obtain ⟨c, ds, hc, hdigit⟩ := exists_cons_padded w n
  rw [hc, List.cons_append]
  exact run_skip (not_isSpace_of_isDigit hdigit) _

theorem run_number_padded {w n : Nat} (h : n < 10 ^ (w + 1)) (r : List Char) :
    (number (some (w + 1))).run (Instant.padded (w + 1) n ++ r) = .ok (n, r) := by
  have hread : (number (some (w + 1))).run (Instant.padded (w + 1) n ++ r) =
      .ok (Instant.digitsValue (Instant.padded (w + 1) n), r) :=
    run_number (Instant.isDigit_of_mem_padded _ _) (List.ne_nil_of_length_pos (by simp))
      (.inl (by simp))
  rwa [Instant.digitsValue_padded, Nat.mod_eq_of_lt h] at hread

theorem run_part {least most n : Nat} (h : least ≤ n ∧ n ≤ most) (hn : n < 100) (r : List Char) :
    (part least most).run (Instant.padded 2 n ++ r) = .ok (n, r) := by
  refine run_bind_of_ok (run_skip_padded 1 n r) (run_bind_of_ok (run_number_padded (w := 1) hn r) ?_)
  rw [if_pos h]
  rfl

theorem run_number_signed (n : Nat) (r : List Char) :
    (number none).run
        (Instant.padded (max 4 (Nat.toDigits 10 n).length) n ++ '-' :: r) =
      .ok (n, '-' :: r) := by
  have hwidth : 0 < max 4 (Nat.toDigits 10 n).length := by omega
  have hn : n < 10 ^ max 4 (Nat.toDigits 10 n).length :=
    (Nat.length_toDigits_le_iff (by decide) hwidth).1 (Nat.le_max_right _ _)
  have hread : (number none).run
      (Instant.padded (max 4 (Nat.toDigits 10 n).length) n ++ '-' :: r) =
        .ok (Instant.digitsValue (Instant.padded (max 4 (Nat.toDigits 10 n).length) n),
          '-' :: r) := by
    refine run_number (Instant.isDigit_of_mem_padded _ _)
      (List.ne_nil_of_length_pos (by rw [Instant.length_padded]; exact hwidth)) (.inr ⟨rfl, ?_⟩)
    rintro c r' ⟨⟩
    decide
  rwa [Instant.digitsValue_padded, Nat.mod_eq_of_lt hn] at hread

theorem run_year {y : Int} (hy : isYear y = true) (r : List Char) :
    year.run (Instant.yearText y ++ '-' :: r) = .ok (y, '-' :: r) := by
  have hbounds : -262143 ≤ y ∧ y ≤ 262142 := by
    simpa [isYear] using hy
  unfold Instant.yearText
  split
  · next hfour =>
      have hfour : 0 ≤ y ∧ y ≤ 9999 := by simpa using hfour
      obtain ⟨c, ds, hc, hdigit⟩ := exists_cons_padded 3 y.toNat
      refine run_bind_of_ok (run_skip_padded 3 _ _) (run_bind_of_ok (a := _) (r := _) rfl ?_)
      have hread := run_number_padded (w := 3) (n := y.toNat) (by omega) ('-' :: r)
      rw [hc, List.cons_append] at hread ⊢
      split
      · next h =>
          rw [(List.cons.inj h).1] at hdigit
          cases hdigit
      · next h =>
          rw [(List.cons.inj h).1] at hdigit
          cases hdigit
      · refine run_bind_of_ok hread ?_
        rw [Int.toNat_of_nonneg hfour.1]
        rfl
  · next hsigned =>
      have hnumber := run_number_signed y.natAbs r
      by_cases hneg : y < 0
      · rw [if_pos hneg, List.cons_append]
        refine run_bind_of_ok (run_skip (by decide) _) (run_bind_of_ok (a := _) (r := _) rfl ?_)
        refine run_bind_of_ok (a := ()) (r := _) rfl (run_bind_of_ok hnumber ?_)
        rw [if_pos (by change y.natAbs ≤ 2 ^ 31; omega)]
        rw [show -((y.natAbs : Nat) : Int) = y by omega]
        rfl
      · rw [if_neg hneg, List.cons_append]
        refine run_bind_of_ok (run_skip (by decide) _) (run_bind_of_ok (a := _) (r := _) rfl ?_)
        refine run_bind_of_ok (a := ()) (r := _) rfl (run_bind_of_ok hnumber ?_)
        rw [if_pos (by change y.natAbs < 2 ^ 31; omega)]
        rw [show ((y.natAbs : Nat) : Int) = y by omega]
        rfl

def writtenSecond (t : Instant) : Nat :=
  if t.isLeap then t.secondOfDay.toNat % 60 + 1 else t.secondOfDay.toNat % 60

theorem instant_secondsText {t : Instant}
    (h : isYear (Calendar.yearOf (t.seconds / 86400)) = true) :
    ∃ u, instant t.secondsText = .ok u := by
  obtain ⟨hdate, hnumber⟩ := Calendar.dateOf_spec (t.seconds / 86400)
  have hyear : (Calendar.dateOf (t.seconds / 86400)).1 = Calendar.yearOf (t.seconds / 86400) := rfl
  rcases hdays : Calendar.dateOf (t.seconds / 86400) with ⟨y, m, d⟩
  rw [hdays] at hdate hnumber hyear
  simp only at hdate hnumber hyear
  let s := t.secondOfDay.toNat
  let second := writtenSecond t
  have hs : (s : Int) = t.seconds % 86400 := by
    simp only [s, Instant.secondOfDay]
    omega
  have hsecond : second ≤ 60 := by
    simp only [second, writtenSecond]
    split <;> omega
  have hd : 1 ≤ m ∧ m ≤ 12 ∧ 1 ≤ d ∧ d ≤ 31 := Calendar.bounds_of_isDate hdate
  have htime : s / 3600 ≤ 23 ∧ s / 60 % 60 ≤ 59 := by omega
  have hy : isYear y = true := hyear ▸ h
  have hday : (Instant.ofClock y m d (s / 3600) (s / 60 % 60) second 0 0).seconds / 86400 =
      t.seconds / 86400 := by
    simp only [Instant.ofClock, hnumber]
    omega
  have htext : t.secondsText.toList =
      Instant.yearText y ++ '-' :: (Instant.padded 2 m ++ '-' :: (Instant.padded 2 d ++ 'T' ::
        (Instant.padded 2 (s / 3600) ++ ':' :: (Instant.padded 2 (s / 60 % 60) ++ ':' ::
          (Instant.padded 2 second ++ ['Z']))))) := by
    simp [Instant.secondsText, Instant.dateTimeText, hdays, s, second, writtenSecond]
  have hfraction : fraction.run ['Z'] = .ok (0, ['Z']) := rfl
  have hzone : zone.run ['Z'] = .ok (0, []) := rfl
  have hend : (skip Text.isSpace).run [] = .ok ((), []) := rfl
  have hrun : timestamp.run t.secondsText.toList =
      .ok (Instant.ofClock y m d (s / 3600) (s / 60 % 60) second 0 0, []) := by
    rw [htext]
    -- the parts are read one after another
    refine run_bind_of_ok (run_year hy _) (run_bind_of_ok (run_mark (by decide) _) ?_)
    refine run_bind_of_ok (run_part ⟨hd.1, hd.2.1⟩ (by omega) _)
      (run_bind_of_ok (run_mark (by decide) _) ?_)
    refine run_bind_of_ok (run_part ⟨hd.2.2.1, hd.2.2.2⟩ (by omega) _)
      (run_bind_of_ok (run_oneOf (by decide) _) ?_)
    refine run_bind_of_ok (run_part ⟨Nat.zero_le _, htime.1⟩ (by omega) _)
      (run_bind_of_ok (run_mark (by decide) _) ?_)
    refine run_bind_of_ok (run_part ⟨Nat.zero_le _, htime.2⟩ (by omega) _)
      (run_bind_of_ok (run_mark (by decide) _) ?_)
    refine run_bind_of_ok (run_part ⟨Nat.zero_le _, hsecond⟩ (by omega) _) ?_
    refine run_bind_of_ok hfraction (run_bind_of_ok hzone (run_bind_of_ok hend ?_))
    refine run_bind_of_ok (a := []) (r := []) rfl ?_
    simp only [List.isEmpty_nil, Bool.not_true, Bool.false_eq_true, if_false, hy, hdate,
      Bool.and_true, hday, h, if_true]
    rfl
  refine ⟨Instant.ofClock y m d (s / 3600) (s / 60 % 60) second 0 0, ?_⟩
  change (fun q => q.1) <$> timestamp.run t.secondsText.toList = _
  rw [hrun]
  rfl

theorem isYear_of_instant {s : String} {t : Instant} (h : instant s = .ok t) :
    isYear (Calendar.yearOf (t.seconds / 86400)) = true := by
  have hrun : ∃ r, timestamp.run s.toList = .ok (t, r) := by
    change (fun q => q.1) <$> timestamp.run s.toList = _ at h
    cases hp : timestamp.run s.toList with
    | error e =>
        rw [hp] at h
        cases h
    | ok q =>
        rw [hp] at h
        cases h
        exact ⟨q.2, rfl⟩
  obtain ⟨r, h⟩ := hrun
  -- the parts and the marks between them, and what was left
  iterate 15 obtain ⟨_, _, -, h⟩ := run_bind_eq_ok h
  dsimp only at h
  split at h
  · cases h
  · split at h
    · cases h
    · split at h
      · next hyear =>
          cases h
          exact hyear
      · cases h

end RegistryKeeper.Lenient
