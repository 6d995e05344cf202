import RegistryKeeper.Text.Expression

namespace RegistryKeeper.Text

namespace Expression

/-- The expression matches `taken` where `before` and `rest` stand around it. -/
inductive Matches : Expression → (before taken rest : List Char) → Prop
  | blank {b a : List Char} : Matches .blank b [] a
  | start {a : List Char} : Matches .start [] [] a
  | finish {b : List Char} : Matches .finish b [] []
  | oneOf {ranges : List (Char × Char)} {c : Char} {b a : List Char}
      (h : inRanges ranges c = true) : Matches (.oneOf ranges) b [c] a
  | first {e f : Expression} {b s a : List Char} (h : Matches e b s a) : Matches (.either e f) b s a
  | second {e f : Expression} {b s a : List Char} (h : Matches f b s a) :
      Matches (.either e f) b s a
  | sequence {e f : Expression} {b s t a : List Char} (h : Matches e b s (t ++ a))
      (h' : Matches f (b ++ s) t a) : Matches (.sequence e f) b (s ++ t) a
  | none {e : Expression} {b a : List Char} : Matches (.many e) b [] a
  | more {e : Expression} {b s t a : List Char} (h : Matches e b s (t ++ a))
      (h' : Matches (.many e) (b ++ s) t a) : Matches (.many e) b (s ++ t) a

section
variable {e f : Expression} {b s t a : List Char} {c : Char}

theorem matches_either_iff :
    Matches (.either e f) b s a ↔ Matches e b s a ∨ Matches f b s a := by
  constructor
  · intro h
    cases h with
    | first h => exact .inl h
    | second h => exact .inr h
  · rintro (h | h)
    · exact .first h
    · exact .second h

theorem matches_sequence_iff :
    Matches (.sequence e f) b s a ↔
      ∃ s₁ s₂, s = s₁ ++ s₂ ∧ Matches e b s₁ (s₂ ++ a) ∧ Matches f (b ++ s₁) s₂ a := by
  constructor
  · intro h
    cases h with
    | sequence h h' => exact ⟨_, _, rfl, h, h'⟩
  · rintro ⟨s₁, s₂, rfl, h, h'⟩
    exact .sequence h h'

theorem matches_oneOf_iff {ranges : List (Char × Char)} :
    Matches (.oneOf ranges) b s a ↔ ∃ c, s = [c] ∧ inRanges ranges c = true := by
  constructor
  · intro h
    cases h with
    | oneOf h => exact ⟨_, rfl, h⟩
  · rintro ⟨c, rfl, h⟩
    exact .oneOf h

theorem matches_many_cons_iff :
    Matches (.many e) b (c :: s) a ↔
      ∃ s₁ s₂, s = s₁ ++ s₂ ∧ Matches e b (c :: s₁) (s₂ ++ a) ∧
        Matches (.many e) (b ++ c :: s₁) s₂ a := by
  constructor
  · intro h
    generalize hm : Expression.many e = m at h
    generalize ht : c :: s = t at h
    induction h with
    | none => cases ht
    | @more e' b s' t a h h' _ ih =>
        cases hm
        cases s' with
        | nil => simpa using ih rfl ht
        | cons c' s₁ =>
            obtain ⟨rfl, rfl⟩ := List.cons.inj ht
            exact ⟨s₁, t, rfl, h, h'⟩
    | _ => cases hm
  · rintro ⟨s₁, s₂, rfl, h, h'⟩
    exact .more h h'

theorem matchesEmpty_iff :
    e.matchesEmpty b.isEmpty a.isEmpty = true ↔ Matches e b [] a := by
  induction e with
  | never =>
      constructor <;> intro h <;> cases h
  | blank => exact iff_of_true rfl .blank
  | start =>
      cases b with
      | nil => exact iff_of_true rfl .start
      | cons c b => constructor <;> intro h <;> cases h
  | finish =>
      cases a with
      | nil => exact iff_of_true rfl .finish
      | cons c a => constructor <;> intro h <;> cases h
  | oneOf ranges =>
      constructor <;> intro h <;> cases h
  | either e f ihe ihf =>
      rw [matchesEmpty, Bool.or_eq_true, ihe, ihf, matches_either_iff]
  | sequence e f ihe ihf =>
      rw [matchesEmpty, Bool.and_eq_true, ihe, ihf, matches_sequence_iff]
      constructor
      · rintro ⟨he, hf⟩
        exact ⟨[], [], rfl, he, by simpa using hf⟩
      · rintro ⟨s₁, s₂, hs, he, hf⟩
        obtain ⟨rfl, rfl⟩ := List.append_eq_nil_iff.1 hs.symm
        exact ⟨he, by simpa using hf⟩
  | many e _ => exact iff_of_true rfl .none

theorem matches_after_iff :
    Matches (e.after b.isEmpty c) (b ++ [c]) s a ↔ Matches e b (c :: s) a := by
  induction e generalizing s a with
  | never | blank | start | finish =>
      constructor <;> intro h <;> cases h
  | oneOf ranges =>
      rw [matches_oneOf_iff, after]
      split
      · next hc =>
          constructor
          · intro h
            cases h
            exact ⟨c, rfl, hc⟩
          · rintro ⟨_, ⟨⟩, -⟩
            exact .blank
      · next hc =>
          constructor
          · intro h
            cases h
          · rintro ⟨_, ⟨⟩, h⟩
            exact absurd h hc
  | either e f ihe ihf => rw [after, matches_either_iff, matches_either_iff, ihe, ihf]
  | sequence e f ihe ihf =>
      have hfirst : Matches (.sequence (e.after b.isEmpty c) f) (b ++ [c]) s a ↔
          ∃ s₁ s₂, s = s₁ ++ s₂ ∧ Matches e b (c :: s₁) (s₂ ++ a) ∧
            Matches f (b ++ c :: s₁) s₂ a := by
        simp only [matches_sequence_iff, ihe, List.append_assoc, List.singleton_append]
      have hempty : e.matchesEmpty b.isEmpty false = true ↔ Matches e b [] (c :: s ++ a) :=
        matchesEmpty_iff (a := c :: s ++ a)
      have hsplit : Matches (.sequence e f) b (c :: s) a ↔
          (Matches e b [] (c :: s ++ a) ∧ Matches f b (c :: s) a) ∨
            ∃ s₁ s₂, s = s₁ ++ s₂ ∧ Matches e b (c :: s₁) (s₂ ++ a) ∧
              Matches f (b ++ c :: s₁) s₂ a := by
        rw [matches_sequence_iff]
        constructor
        · rintro ⟨s₁, s₂, hs, he, hf⟩
          cases s₁ with
          | nil =>
              cases hs
              exact .inl ⟨he, by simpa using hf⟩
          | cons c' s₁ =>
              obtain ⟨rfl, rfl⟩ := List.cons.inj hs
              exact .inr ⟨s₁, s₂, rfl, he, hf⟩
        · rintro (⟨he, hf⟩ | ⟨s₁, s₂, rfl, he, hf⟩)
          · exact ⟨[], c :: s, rfl, he, by simpa using hf⟩
          · exact ⟨c :: s₁, s₂, rfl, he, hf⟩
      rw [hsplit, after, ← hempty]
      split
      · next he => rw [matches_either_iff, hfirst, ihf, or_comm]; simp [he]
      · next he => rw [hfirst]; simp [he]
  | many e ih =>
      rw [after, matches_sequence_iff, matches_many_cons_iff]
      simp only [ih, List.append_assoc, List.singleton_append]

theorem matchesHere_iff {cs : List Char} :
    matchesHere b.isEmpty e cs = true ↔ ∃ s a, cs = s ++ a ∧ Matches e b s a := by
  induction cs generalizing b e with
  | nil =>
      have hempty : e.matchesEmpty b.isEmpty true = true ↔ Matches e b [] [] :=
        matchesEmpty_iff (a := [])
      rw [matchesHere, hempty]
      constructor
      · intro h
        exact ⟨[], [], rfl, h⟩
      · rintro ⟨s, a, hs, h⟩
        obtain ⟨rfl, rfl⟩ := List.append_eq_nil_iff.1 hs.symm
        exact h
  | cons c cs ih =>
      have hempty : e.matchesEmpty b.isEmpty false = true ↔ Matches e b [] (c :: cs) :=
        matchesEmpty_iff (a := c :: cs)
      have hlater : matchesHere false (e.after b.isEmpty c) cs = true ↔
          ∃ s a, cs = s ++ a ∧ Matches e b (c :: s) a := by
        have hb : (b ++ [c]).isEmpty = false := by simp
        rw [← hb, ih]
        simp only [matches_after_iff]
      rw [matchesHere, Bool.or_eq_true, hempty, hlater]
      constructor
      · rintro (h | ⟨s, a, rfl, h⟩)
        · exact ⟨[], c :: cs, rfl, h⟩
        · exact ⟨c :: s, a, rfl, h⟩
      · rintro ⟨s, a, hs, h⟩
        cases s with
        | nil =>
            cases hs
            exact .inl h
        | cons c' s =>
            obtain ⟨rfl, rfl⟩ := List.cons.inj hs
            exact .inr ⟨s, a, rfl, h⟩

theorem isFoundFrom_iff {cs : List Char} :
    e.isFoundFrom b.isEmpty cs = true ↔
      ∃ p s a, cs = p ++ s ++ a ∧ Matches e (b ++ p) s a := by
  induction cs generalizing b with
  | nil =>
      rw [isFoundFrom, matchesHere_iff]
      constructor
      · rintro ⟨s, a, hs, h⟩
        exact ⟨[], s, a, hs, by simpa using h⟩
      · rintro ⟨p, s, a, hs, h⟩
        obtain ⟨hps, rfl⟩ := List.append_eq_nil_iff.1 hs.symm
        obtain ⟨rfl, rfl⟩ := List.append_eq_nil_iff.1 hps
        exact ⟨[], [], rfl, by simpa using h⟩
  | cons c cs ih =>
      have hb : (b ++ [c]).isEmpty = false := by simp
      rw [isFoundFrom, Bool.or_eq_true, matchesHere_iff, ← hb, ih]
      constructor
      · rintro (⟨s, a, hs, h⟩ | ⟨p, s, a, rfl, h⟩)
        · exact ⟨[], s, a, hs, by simpa using h⟩
        · exact ⟨c :: p, s, a, rfl, by simpa using h⟩
      · rintro ⟨p, s, a, hs, h⟩
        cases p with
        | nil => exact .inl ⟨s, a, hs, by simpa using h⟩
        | cons c' p =>
            obtain ⟨rfl, rfl⟩ := List.cons.inj hs
            exact .inr ⟨p, s, a, rfl, by simpa using h⟩

theorem isFoundIn_iff {cs : List Char} :
    e.isFoundIn cs = true ↔ ∃ p s a, cs = p ++ s ++ a ∧ Matches e p s a :=
  isFoundFrom_iff (b := [])

theorem isFoundIn_whole_iff {cs : List Char} :
    (Expression.sequence .start (.sequence e (.sequence f .finish))).isFoundIn cs = true ↔
      ∃ s t, cs = s ++ t ∧ Matches e [] s t ∧ Matches f s t [] := by
  rw [isFoundIn_iff]
  constructor
  · rintro ⟨p, _, a, rfl, h⟩
    obtain ⟨s₀, _, rfl, hstart, h⟩ := matches_sequence_iff.1 h
    obtain ⟨s, _, rfl, he, h⟩ := matches_sequence_iff.1 h
    obtain ⟨t, s₁, rfl, hf, hfinish⟩ := matches_sequence_iff.1 h
    cases hstart
    cases hfinish
    exact ⟨s, t, by simp, by simpa using he, by simpa using hf⟩
  · rintro ⟨s, t, rfl, he, hf⟩
    refine ⟨[], s ++ t, [], by simp, ?_⟩
    refine matches_sequence_iff.2 ⟨[], s ++ t, rfl, .start, ?_⟩
    refine matches_sequence_iff.2 ⟨s, t, rfl, by simpa using he, ?_⟩
    exact matches_sequence_iff.2 ⟨t, [], by simp, by simpa using hf, .finish⟩

theorem matches_many_oneOf_iff {ranges : List (Char × Char)} :
    Matches (.many (.oneOf ranges)) b s a ↔ ∀ c ∈ s, inRanges ranges c = true := by
  induction s generalizing b with
  | nil => exact iff_of_true .none nofun
  | cons c s ih =>
      rw [matches_many_cons_iff, List.forall_mem_cons]
      constructor
      · rintro ⟨s₁, s₂, rfl, h, h'⟩
        obtain ⟨c', hc, hin⟩ := matches_oneOf_iff.1 h
        obtain ⟨rfl, rfl⟩ := List.cons.inj hc
        exact ⟨hin, ih.1 h'⟩
      · rintro ⟨hc, hs⟩
        exact ⟨[], s, rfl, .oneOf hc, ih.2 hs⟩

end

end Expression

end RegistryKeeper.Text
