import RegistryKeeper.Document.Validation
import RegistryKeeper.Proofs.Expressions
import RegistryKeeper.Text.Space

namespace RegistryKeeper

def IsLetterOrDigit (c : Char) : Prop :=
  ('A' ≤ c ∧ c ≤ 'Z') ∨ ('a' ≤ c ∧ c ≤ 'z') ∨ ('0' ≤ c ∧ c ≤ '9')

def IsIdCharacter (c : Char) : Prop := IsLetterOrDigit c ∨ c = '.' ∨ c = '_' ∨ c = '-'

section
open Text Text.Expression
variable {b s a : List Char} {c : Char}

theorem matches_letterOrDigit_iff :
    Matches letterOrDigit b s a ↔ ∃ c, s = [c] ∧ IsLetterOrDigit c := by
  rw [letterOrDigit, matches_oneOf_iff]
  simp [inRanges, IsLetterOrDigit]

theorem inRange_singleton_iff (d : Char) : d ≤ c ∧ c ≤ d ↔ c = d := by
  constructor
  · rintro ⟨h, h'⟩
    exact Char.le_antisymm h' h
  · rintro rfl
    exact ⟨Char.le_refl c, Char.le_refl c⟩

theorem matches_many_idCharacter_iff :
    Matches (.many idCharacter) b s a ↔ ∀ c ∈ s, IsIdCharacter c := by
  rw [idCharacter, matches_many_oneOf_iff]
  simp [inRanges, IsIdCharacter, IsLetterOrDigit, inRange_singleton_iff, or_assoc]

theorem isPackageId_iff_exists {cs : List Char} :
    isPackageId cs = true ↔ ∃ c r, cs = c :: r ∧ IsLetterOrDigit c ∧
      (r = [] ∨ ∃ m d, r = m ++ [d] ∧ (∀ x ∈ m, IsIdCharacter x) ∧ IsLetterOrDigit d) := by
  have htail (s t : List Char) :
      Matches (.optional (.sequence (.many idCharacter) letterOrDigit)) s t [] ↔
        t = [] ∨ ∃ m d, t = m ++ [d] ∧ (∀ x ∈ m, IsIdCharacter x) ∧ IsLetterOrDigit d := by
    rw [Expression.optional, matches_either_iff, matches_sequence_iff, or_comm]
    simp only [matches_many_idCharacter_iff, matches_letterOrDigit_iff]
    refine or_congr ⟨?_, ?_⟩ ⟨?_, ?_⟩
    · intro h
      cases h
      rfl
    · rintro rfl
      exact .blank
    · rintro ⟨m, _, rfl, hm, d, rfl, hd⟩
      exact ⟨m, d, rfl, hm, hd⟩
    · rintro ⟨m, d, rfl, hm, hd⟩
      exact ⟨m, [d], rfl, hm, d, rfl, hd⟩
  rw [isPackageId, packageIdExpression, isFoundIn_whole_iff]
  simp only [htail, matches_letterOrDigit_iff]
  constructor
  · rintro ⟨_, r, rfl, ⟨c, rfl, hc⟩, hr⟩
    exact ⟨c, r, rfl, hc, hr⟩
  · rintro ⟨c, r, rfl, hc, hr⟩
    exact ⟨[c], r, rfl, ⟨c, rfl, hc⟩, hr⟩

end

theorem IsLetterOrDigit.isIdCharacter {c : Char} (h : IsLetterOrDigit c) : IsIdCharacter c := .inl h

/-- The grammar of package ids. The length is counted in bytes. -/
structure IsPackageId (id : String) : Prop where
  length : 1 ≤ id.utf8ByteSize ∧ id.utf8ByteSize ≤ 253
  characters : ∀ c ∈ id.toList, IsIdCharacter c
  first : ∀ c ∈ id.toList.head?, IsLetterOrDigit c
  last : ∀ c ∈ id.toList.getLast?, IsLetterOrDigit c

theorem isPackageId_iff {cs : List Char} :
    isPackageId cs = true ↔ cs ≠ [] ∧ (∀ c ∈ cs, IsIdCharacter c) ∧
      (∀ c ∈ cs.head?, IsLetterOrDigit c) ∧ ∀ c ∈ cs.getLast?, IsLetterOrDigit c := by
  rw [isPackageId_iff_exists]
  constructor
  · rintro ⟨c, r, rfl, hc, rfl | ⟨m, d, rfl, hm, hd⟩⟩
    · simpa using ⟨hc.isIdCharacter, hc⟩
    · refine ⟨List.cons_ne_nil _ _, ?_, by simpa using hc, ?_⟩
      · rw [List.forall_mem_cons, List.forall_mem_append]
        exact ⟨hc.isIdCharacter, hm, by simpa using hd.isIdCharacter⟩
      · rw [← List.cons_append, List.getLast?_concat]
        simpa using hd
  · rintro ⟨hne, hall, hfirst, hlast⟩
    cases cs with
    | nil => exact absurd rfl hne
    | cons c r =>
        refine ⟨c, r, rfl, hfirst c rfl, ?_⟩
        rcases List.eq_nil_or_concat r with rfl | ⟨m, d, hr⟩
        · exact .inl rfl
        · rw [List.concat_eq_append] at hr
          subst hr
          refine .inr ⟨m, d, rfl, fun x hx => hall x (by simp [hx]), hlast d ?_⟩
          rw [← List.cons_append, List.getLast?_concat]
          rfl

theorem packageIdDefect_eq_none_iff {id : String} :
    packageIdDefect id = none ↔ IsPackageId id := by
  have hbytes : id.utf8ByteSize = 0 ↔ id.toList = [] := by
    rw [String.utf8ByteSize_eq_zero_iff, String.toList_eq_nil_iff]
  unfold packageIdDefect
  split
  · next hlength =>
      refine iff_of_false nofun ?_
      rintro ⟨hbounds, -⟩
      omega
  · next hlength =>
      split
      · next hid =>
          obtain ⟨-, hall, hfirst, hlast⟩ := isPackageId_iff.1 hid
          exact iff_of_true rfl ⟨by omega, hall, hfirst, hlast⟩
      · next hid =>
          refine iff_of_false nofun ?_
          rintro ⟨hbounds, hall, hfirst, hlast⟩
          refine hid (isPackageId_iff.2 ⟨fun hempty => ?_, hall, hfirst, hlast⟩)
          have hnone := hbytes.2 hempty
          omega

namespace IsIdCharacter
variable {c : Char}

theorem isSpace_eq_false (h : IsIdCharacter c) : Text.isSpace c = false := by
  have hcode : (65 ≤ c.toNat ∧ c.toNat ≤ 90) ∨ (97 ≤ c.toNat ∧ c.toNat ≤ 122) ∨
      (48 ≤ c.toNat ∧ c.toNat ≤ 57) ∨ c.toNat = 46 ∨ c.toNat = 95 ∨ c.toNat = 45 := by
    rcases h with (h | h | h) | rfl | rfl | rfl
    · exact .inl h
    · exact .inr (.inl h)
    · exact .inr (.inr (.inl h))
    all_goals decide
  simp only [Text.isSpace, Bool.or_eq_false_iff, Bool.and_eq_false_iff, decide_eq_false_iff_not]
  omega

theorem ne_comma (h : IsIdCharacter c) : c ≠ ',' := by
  rintro rfl
  revert h
  simp [IsIdCharacter, IsLetterOrDigit]

end IsIdCharacter

theorem not_isLetterOrDigit_hyphen : ¬ IsLetterOrDigit '-' := by
  simp [IsLetterOrDigit]

namespace IsPackageId
variable {id : String} (h : IsPackageId id)
include h

theorem ne_empty : id ≠ "" := by
  rintro rfl
  exact absurd h.length.1 (by decide)

theorem notMem_comma : ',' ∉ id.toList := fun hc => (h.characters _ hc).ne_comma rfl

theorem head?_ne_hyphen : id.toList.head? ≠ some '-' :=
  fun hc => not_isLetterOrDigit_hyphen (h.first _ hc)

end IsPackageId

theorem RegistrySpec.defects_eq_nil_iff {s : RegistrySpec} :
    s.defects = [] ↔ (1 ≤ s.packages.length ∧ s.packages.length ≤ 256) ∧
      ∀ id ∈ s.packages, IsPackageId id := by
  have hcount : (if 1 ≤ s.packages.length ∧ s.packages.length ≤ 256 then []
      else [Defect.packageCount]) = [] ↔ 1 ≤ s.packages.length ∧ s.packages.length ≤ 256 := by
    split <;> simp_all
  have hids : (s.packages.findSome? packageIdDefect).toList = [] ↔
      ∀ id ∈ s.packages, IsPackageId id := by
    rw [Option.toList_eq_nil_iff, List.findSome?_eq_none_iff]
    simp only [packageIdDefect_eq_none_iff]
  rw [defects, List.append_eq_nil_iff, hcount, hids]

def Defect.report (d : Defect) : String × String × String := (d.field, d.code, d.message)

def idReport (id : String) : String × String × String :=
  ("packages", "invalid_package_id",
    if id.utf8ByteSize = 0 ∨ 253 < id.utf8ByteSize then "package id must be 1-253 characters"
    else "'" ++ id ++ "' is not a valid package id")

inductive FirstOffence (packages : List String) : List (String × String × String) → Prop
  | none (h : ∀ id ∈ packages, IsPackageId id) : FirstOffence packages []
  | one (before : List String) (id : String) (after : List String)
      (hpackages : packages = before ++ id :: after) (hbefore : ∀ p ∈ before, IsPackageId p)
      (hid : ¬ IsPackageId id) : FirstOffence packages [idReport id]

theorem report_of_packageIdDefect {id : String} {d : Defect} (h : packageIdDefect id = some d) :
    d.report = idReport id := by
  unfold packageIdDefect at h
  split at h
  · next hlength =>
      cases h
      rw [idReport, if_pos hlength]
      rfl
  · next hlength =>
      split at h
      · cases h
      · cases h
        rw [idReport, if_neg hlength]
        rfl

theorem firstOffence_findSome? (packages : List String) :
    FirstOffence packages ((packages.findSome? packageIdDefect).toList.map Defect.report) := by
  cases h : packages.findSome? packageIdDefect with
  | none =>
      refine .none fun id hid => ?_
      exact packageIdDefect_eq_none_iff.1 (List.findSome?_eq_none_iff.1 h id hid)
  | some d =>
      obtain ⟨before, id, after, hpackages, hd, hbefore⟩ := List.findSome?_eq_some_iff.1 h
      have hreport : (some d).toList.map Defect.report = [idReport id] := by
        rw [← report_of_packageIdDefect hd]
        rfl
      rw [hreport]
      refine .one before id after hpackages ?_ ?_
      · exact fun p hp => packageIdDefect_eq_none_iff.1 (hbefore p hp)
      · intro hid
        rw [packageIdDefect_eq_none_iff.2 hid] at hd
        cases hd

theorem spec_accepted_iff_package_ids (s : RegistrySpec) :
    (s.defects = [] ↔ (1 ≤ s.packages.length ∧ s.packages.length ≤ 256) ∧
      ∀ id ∈ s.packages, IsPackageId id) ∧
    (s.defects = [] → ∀ id ∈ s.packages, ',' ∉ id.toList ∧
      (∀ c ∈ id.toList, Text.isSpace c = false) ∧ id.toList.head? ≠ some '-') ∧
    ∃ offence, FirstOffence s.packages offence ∧
      s.defects.map Defect.report =
        (if 1 ≤ s.packages.length ∧ s.packages.length ≤ 256 then []
          else [("packages", "length", "packages must have 1-256 entries")]) ++ offence := by
  refine ⟨RegistrySpec.defects_eq_nil_iff, ?_, _, firstOffence_findSome? s.packages, ?_⟩
  · intro hd id hid
    have h := (RegistrySpec.defects_eq_nil_iff.1 hd).2 id hid
    exact ⟨h.notMem_comma, fun c hc => (h.characters c hc).isSpace_eq_false, h.head?_ne_hyphen⟩
  · rw [RegistrySpec.defects, List.map_append]
    congr 1
    split <;> rfl

example :
    (RegistrySpec.mk ("etcd\n" :: "" :: List.replicate 255 "etcd")).defects =
      [.packageCount, .packageIdForm "etcd\n"] := by
  decide +kernel

end RegistryKeeper
