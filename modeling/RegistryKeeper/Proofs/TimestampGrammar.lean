import Mathlib.Data.List.Induction
import Mathlib.Tactic.Ring
import RegistryKeeper.Proofs.Timestamps

namespace RegistryKeeper

inductive Zone
  | letter (c : Char) (hc : c = 'Z' ∨ c = 'z')
  | signed (sign : Char) (hours minutes : Nat) (hsign : sign = '+' ∨ sign = '-' ∨ sign = '\u2212')
      (hhours : hours ≤ 23) (hminutes : minutes ≤ 59)

namespace Zone

def chars : Zone → List Char
  | letter c _ => [c]
  | signed sign hours minutes _ _ _ =>
      sign :: (Instant.padded 2 hours ++ ':' :: Instant.padded 2 minutes)

def seconds : Zone → Int
  | letter _ _ => 0
  | signed sign hours minutes _ _ _ =>
      if sign = '+' then 60 * (60 * hours + minutes) else -(60 * (60 * hours + minutes))

end Zone

structure Stamp where
  year : Nat
  month : Nat
  day : Nat
  separator : Char
  hour : Nat
  minute : Nat
  second : Nat
  fraction : List Char
  zone : Zone
  year_lt : year < 10000
  isDate : Calendar.isDate year month day = true
  isSeparator : separator = 'T' ∨ separator = 't' ∨ separator = ' '
  hour_le : hour ≤ 23
  minute_le : minute ≤ 59
  second_le : second ≤ 60
  isDigit : ∀ c ∈ fraction, c.isDigit = true

def fractionValue : Nat → List Char → Nat
  | _, [] => 0
  | weight, c :: r => weight * (c.toNat - 48) + fractionValue (weight / 10) r

namespace Stamp

def fractionChars (ds : List Char) : List Char := if ds = [] then [] else '.' :: ds

def chars (s : Stamp) : List Char :=
  Instant.padded 4 s.year ++ '-' :: (Instant.padded 2 s.month ++ '-' :: (Instant.padded 2 s.day ++
    s.separator :: (Instant.padded 2 s.hour ++ ':' :: (Instant.padded 2 s.minute ++
      ':' :: (Instant.padded 2 s.second ++ (fractionChars s.fraction ++ s.zone.chars))))))

def text (s : Stamp) : String := String.ofList s.chars

def nanos (s : Stamp) : Nat := fractionValue 100000000 s.fraction

def instant (s : Stamp) : Instant :=
  .ofClock s.year s.month s.day s.hour s.minute s.second s.nanos s.zone.seconds

end Stamp

namespace Instant

theorem ofNat_toNat_sub {c : Char} (h : c.isDigit = true) :
    c.toNat - 48 < 10 ∧ Char.ofNat (48 + (c.toNat - 48)) = c := by
  simp only [Char.isDigit, Bool.and_eq_true, decide_eq_true_eq] at h
  have hbounds : 48 ≤ c.toNat ∧ c.toNat ≤ 57 := h
  refine ⟨by omega, ?_⟩
  rw [Nat.add_sub_cancel' hbounds.1, Char.ofNat_toNat]

theorem padded_digitsValue {ds : List Char} (h : ∀ c ∈ ds, c.isDigit = true) :
    padded ds.length (digitsValue ds) = ds := by
  induction ds using List.reverseRecOn with
  | nil => rfl
  | append_singleton ds d ih =>
      obtain ⟨hlt, hd⟩ := ofNat_toNat_sub (h d (by simp))
      have hdiv : (10 * digitsValue ds + (d.toNat - 48)) / 10 = digitsValue ds := by omega
      have hmod : (10 * digitsValue ds + (d.toNat - 48)) % 10 = d.toNat - 48 := by omega
      rw [List.length_append, List.length_singleton, padded, digitsValue_append_singleton, hdiv,
        hmod, hd, ih fun c hc => h c (List.mem_append_left _ hc)]

section
variable {α : Type} {cs : List Char} {b : α}

theorem exists_of_takeNumber_bind {n : Nat} {f : Nat × List Char → Option α}
    (h : (takeNumber n cs >>= f) = some b) :
    ∃ v r, v < 10 ^ n ∧ cs = padded n v ++ r ∧ f (v, r) = some b := by
  obtain ⟨⟨v, r⟩, hread, hf⟩ := Option.bind_eq_some_iff.1 h
  simp only [takeNumber, Bool.and_eq_true, decide_eq_true_eq] at hread
  split at hread
  · next hds =>
      obtain ⟨hlength, hall⟩ := hds
      obtain ⟨rfl, rfl⟩ := Prod.mk.inj (Option.some.inj hread)
      have hdigits := List.all_eq_true.1 hall
      have hlt := digitsValue_lt hdigits
      have hpadded := padded_digitsValue hdigits
      rw [hlength] at hlt hpadded
      exact ⟨_, _, hlt, by rw [hpadded, List.take_append_drop], hf⟩
  · cases hread

theorem exists_of_takeChar_bind {ok : Char → Bool} {f : List Char → Option α}
    (h : (takeChar ok cs >>= f) = some b) : ∃ c r, ok c = true ∧ cs = c :: r ∧ f r = some b := by
  obtain ⟨r, hread, hf⟩ := Option.bind_eq_some_iff.1 h
  cases cs with
  | nil => cases hread
  | cons c cs =>
      simp only [takeChar, Option.ite_none_right_eq_some, Option.some.injEq] at hread
      obtain ⟨hc, rfl⟩ := hread
      exact ⟨c, cs, hc, rfl, hf⟩

theorem takeChar_cons {ok : Char → Bool} {c : Char} (h : ok c = true) (r : List Char) :
    takeChar ok (c :: r) = some r := by
  rw [takeChar, if_pos h]

end

theorem digitsValue_cons (c : Char) (ds : List Char) :
    digitsValue (c :: ds) = (c.toNat - 48) * 10 ^ ds.length + digitsValue ds := by
  induction ds using List.reverseRecOn with
  | nil => simp [digitsValue]
  | append_singleton ds d ih =>
      rw [← List.cons_append, digitsValue_append_singleton, ih, digitsValue_append_singleton,
        List.length_append, List.length_singleton, Nat.pow_succ]
      ring

theorem fractionValue_eq (k : Nat) (ds : List Char) :
    fractionValue (10 ^ k / 10) ds =
      digitsValue (ds.take k) * 10 ^ (k - (ds.take k).length) := by
  induction ds generalizing k with
  | nil => simp [fractionValue, digitsValue]
  | cons c ds ih =>
      cases k with
      | zero =>
          have hrest := ih 0
          simp only [List.take_zero] at hrest
          simpa [fractionValue, digitsValue] using hrest
      | succ k =>
          have hweight : 10 ^ (k + 1) / 10 = 10 ^ k := by
            rw [Nat.pow_succ, Nat.mul_div_cancel _ (by decide)]
          have hplaces : (ds.take k).length + (k - (ds.take k).length) = k := by
            rw [List.length_take]
            omega
          rw [fractionValue, hweight, ih, List.take_succ_cons, digitsValue_cons, List.length_cons,
            Nat.add_sub_add_right, Nat.add_mul, Nat.mul_assoc, ← Nat.pow_add, hplaces,
            Nat.mul_comm (10 ^ k)]

theorem takeFraction_eq_some {cs r : List Char} {n : Nat} (h : takeFraction cs = some (n, r)) :
    ∃ ds, (∀ c ∈ ds, c.isDigit = true) ∧ cs = Stamp.fractionChars ds ++ r ∧
      n = fractionValue 100000000 ds := by
  unfold takeFraction at h
  split at h
  · next r' =>
      simp only at h
      split at h
      · cases h
      · next hne =>
          obtain ⟨rfl, rfl⟩ := Prod.mk.inj (Option.some.inj h)
          refine ⟨r'.takeWhile Char.isDigit, List.all_eq_true.1 List.all_takeWhile, ?_,
            (fractionValue_eq 9 _).symm⟩
          rw [Stamp.fractionChars, if_neg (by simpa using hne), List.cons_append,
            List.takeWhile_append_dropWhile]
  · obtain ⟨rfl, rfl⟩ := Prod.mk.inj (Option.some.inj h)
    exact ⟨[], nofun, rfl, rfl⟩

theorem takeFraction_fractionChars {ds r : List Char} (hds : ∀ c ∈ ds, c.isDigit = true)
    {c : Char} (hc : c.isDigit = false) (hpoint : c ≠ '.') :
    takeFraction (Stamp.fractionChars ds ++ c :: r) =
      some (fractionValue 100000000 ds, c :: r) := by
  by_cases hempty : ds = []
  · subst hempty
    unfold takeFraction
    split
    · next heq => exact absurd (List.cons.inj heq).1 hpoint
    · rfl
  · have htake : (ds ++ c :: r).takeWhile Char.isDigit = ds := by
      rw [List.takeWhile_append_of_pos hds]
      simp [hc]
    have hdrop : (ds ++ c :: r).dropWhile Char.isDigit = c :: r := by
      rw [List.dropWhile_append_of_pos hds]
      simp [hc]
    have hvalue := fractionValue_eq 9 ds
    have hne : ds.isEmpty = false := List.isEmpty_eq_false_iff.2 hempty
    rw [Stamp.fractionChars, if_neg hempty, List.cons_append]
    simp only [takeFraction, htake, hdrop, hne, Bool.false_eq_true, if_false]
    rw [← show 10 ^ 9 / 10 = 100000000 from rfl, hvalue]
    rfl

theorem takeOffset_chars (z : Zone) (r : List Char) :
    takeOffset (z.chars ++ r) = some (z.seconds, r) := by
  cases z with
  | letter c hc =>
      rcases hc with rfl | rfl <;> rfl
  | signed sign hours minutes hsign hhours hminutes =>
      have hletter : ¬ (sign = 'Z' ∨ sign = 'z') := by
        rcases hsign with rfl | rfl | rfl <;> decide
      have hseconds : (if sign = '+' then ((hours * 3600 + minutes * 60 : Nat) : Int)
          else -((hours * 3600 + minutes * 60 : Nat) : Int)) =
            (Zone.signed sign hours minutes hsign hhours hminutes).seconds := by
        simp only [Zone.seconds]
        split <;> omega
      rw [Zone.chars, List.cons_append, takeOffset]
      simp only [Bool.or_eq_true, decide_eq_true_eq, or_assoc, if_neg hletter, if_pos hsign]
      rw [List.append_assoc, List.cons_append]
      refine bind_eq_of_eq_some (takeNumber_padded (by omega) _) (bind_eq_of_eq_some rfl ?_)
      refine bind_eq_of_eq_some (takeNumber_padded (by omega) _) ?_
      simp only [hhours, hminutes, decide_true, Bool.and_true, if_true, hseconds]
      rfl

theorem takeOffset_eq_some {cs r : List Char} {o : Int} (h : takeOffset cs = some (o, r)) :
    ∃ z : Zone, cs = z.chars ++ r ∧ o = z.seconds := by
  cases cs with
  | nil => cases h
  | cons c cs =>
      by_cases hletter : c = 'Z' ∨ c = 'z'
      · refine ⟨.letter c hletter, ?_⟩
        have hread := takeOffset_chars (.letter c hletter) cs
        rw [Zone.chars, List.singleton_append, h] at hread
        obtain ⟨rfl, rfl⟩ := Prod.mk.inj (Option.some.inj hread)
        exact ⟨rfl, rfl⟩
      · rw [takeOffset] at h
        simp only [Bool.or_eq_true, decide_eq_true_eq, or_assoc, if_neg hletter] at h
        split at h
        · next hsign =>
            obtain ⟨hours, r₁, -, rfl, h₁⟩ := exists_of_takeNumber_bind h
            obtain ⟨colon, r₂, hcolon, rfl, h₂⟩ := exists_of_takeChar_bind h₁
            obtain ⟨minutes, r₃, -, rfl, h₃⟩ := exists_of_takeNumber_bind h₂
            obtain rfl := of_decide_eq_true hcolon
            simp only [Bool.and_eq_true, decide_eq_true_eq] at h₃
            split at h₃
            · next hbounds =>
                obtain ⟨rfl, rfl⟩ := Prod.mk.inj (Option.some.inj h₃)
                let z : Zone := .signed c hours minutes hsign hbounds.1 hbounds.2
                refine ⟨z, by simp [z, Zone.chars], ?_⟩
                simp only [z, Zone.seconds]
                split <;> omega
            · cases h₃
        · cases h

end Instant

theorem Zone.exists_chars (z : Zone) :
    ∃ c r, z.chars = c :: r ∧ c.isDigit = false ∧ c ≠ '.' := by
  cases z with
  | letter c hc => exact ⟨c, [], rfl, by rcases hc with rfl | rfl <;> decide⟩
  | signed sign hours minutes hsign _ _ =>
      exact ⟨sign, _, rfl, by rcases hsign with rfl | rfl | rfl <;> decide⟩

namespace Stamp
open Instant

theorem ofText?_text (s : Stamp) : Instant.ofText? s.text = some s.instant := by
  obtain ⟨c, r, hzone, hc, hpoint⟩ := s.zone.exists_chars
  have hdate := Calendar.bounds_of_isDate s.isDate
  have hclock : s.hour ≤ 23 ∧ s.minute ≤ 59 ∧ s.second ≤ 60 :=
    ⟨s.hour_le, s.minute_le, s.second_le⟩
  have hseparator : (s.separator = 'T' || s.separator = 't' || s.separator = ' ') = true := by
    simpa [or_assoc] using s.isSeparator
  have hfraction := takeFraction_fractionChars (r := r) s.isDigit hc hpoint
  have hoffset : takeOffset s.zone.chars = some (s.zone.seconds, []) := by
    simpa using takeOffset_chars s.zone []
  rw [← hzone] at hfraction
  -- the parts are taken off one after another
  rw [text, Instant.ofText?, String.toList_ofList, chars]
  refine bind_eq_of_eq_some (takeNumber_padded s.year_lt _) (bind_eq_of_eq_some rfl ?_)
  refine bind_eq_of_eq_some (takeNumber_padded (by omega) _) (bind_eq_of_eq_some rfl ?_)
  refine bind_eq_of_eq_some (takeNumber_padded (by omega) _) ?_
  refine bind_eq_of_eq_some (takeChar_cons hseparator _) ?_
  refine bind_eq_of_eq_some (takeNumber_padded (by omega) _) (bind_eq_of_eq_some rfl ?_)
  refine bind_eq_of_eq_some (takeNumber_padded (by omega) _) (bind_eq_of_eq_some rfl ?_)
  refine bind_eq_of_eq_some (takeNumber_padded (by omega) _) ?_
  refine bind_eq_of_eq_some hfraction (bind_eq_of_eq_some hoffset ?_)
  simp only [s.isDate, hclock, decide_true, List.isEmpty_nil, Bool.and_true, if_true]
  rfl

theorem ofText?_eq_some_iff {t : String} {u : Instant} :
    Instant.ofText? t = some u ↔ ∃ s : Stamp, s.text = t ∧ s.instant = u := by
  constructor
  · intro h
    obtain ⟨year, r₁, hyear, htext, h₁⟩ := exists_of_takeNumber_bind h
    obtain ⟨_, r₂, hdash, rfl, h₂⟩ := exists_of_takeChar_bind h₁
    obtain ⟨month, r₃, -, rfl, h₃⟩ := exists_of_takeNumber_bind h₂
    obtain ⟨_, r₄, hdash', rfl, h₄⟩ := exists_of_takeChar_bind h₃
    obtain ⟨day, r₅, -, rfl, h₅⟩ := exists_of_takeNumber_bind h₄
    obtain ⟨separator, r₆, hseparator, rfl, h₆⟩ := exists_of_takeChar_bind h₅
    obtain ⟨hour, r₇, -, rfl, h₇⟩ := exists_of_takeNumber_bind h₆
    obtain ⟨_, r₈, hcolon, rfl, h₈⟩ := exists_of_takeChar_bind h₇
    obtain ⟨minute, r₉, -, rfl, h₉⟩ := exists_of_takeNumber_bind h₈
    obtain ⟨_, r₁₀, hcolon', rfl, h₁₀⟩ := exists_of_takeChar_bind h₉
    obtain ⟨second, r₁₁, -, rfl, h₁₁⟩ := exists_of_takeNumber_bind h₁₀
    obtain ⟨⟨_, r₁₂⟩, hfraction, h₁₂⟩ := Option.bind_eq_some_iff.1 h₁₁
    obtain ⟨⟨_, r₁₃⟩, hoffset, h₁₃⟩ := Option.bind_eq_some_iff.1 h₁₂
    obtain ⟨fraction, hdigits, rfl, rfl⟩ := takeFraction_eq_some hfraction
    obtain ⟨zone, rfl, rfl⟩ := takeOffset_eq_some hoffset
    simp only [Bool.and_eq_true, decide_eq_true_eq, List.isEmpty_iff] at h₁₃
    split at h₁₃
    · next hchecks =>
        obtain ⟨⟨⟨⟨rfl, hdate⟩, hhour⟩, hminute⟩, hsecond⟩ := hchecks
        have hsep : separator = 'T' ∨ separator = 't' ∨ separator = ' ' := by
          simpa [or_assoc] using hseparator
        refine ⟨⟨year, month, day, separator, hour, minute, second, fraction, zone, hyear, hdate,
          hsep, hhour, hminute, hsecond, hdigits⟩, ?_, Option.some.inj h₁₃⟩
        obtain rfl := of_decide_eq_true hdash
        obtain rfl := of_decide_eq_true hdash'
        obtain rfl := of_decide_eq_true hcolon
        obtain rfl := of_decide_eq_true hcolon'
        rw [text, chars, ← String.toList_inj, String.toList_ofList, htext, List.append_nil]
    · cases h₁₃
  · rintro ⟨s, rfl, rfl⟩
    exact ofText?_text s

end Stamp

end RegistryKeeper
