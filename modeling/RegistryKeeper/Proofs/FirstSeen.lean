import RegistryKeeper.Proofs.CommandLines
import RegistryKeeper.Proofs.Grants
import RegistryKeeper.Proofs.IndexReads

namespace RegistryKeeper

theorem distinct_append {α : Type} [DecidableEq α] (seen l l' : List α) :
    distinct seen (l ++ l') = distinct seen l ++ distinct (seen ++ l) l' := by
  induction l generalizing seen with
  | nil => simp [distinct]
  | cons x l ih =>
      by_cases hx : x ∈ seen
      · have hmem : ∀ y, y ∈ seen ++ x :: l ↔ y ∈ seen ++ l := by grind
        simp only [List.cons_append, distinct, hx, if_true, ih, distinct_congr hmem]
      · have hmem : ∀ y, y ∈ seen ++ x :: l ↔ y ∈ x :: seen ++ l := by grind
        simp only [List.cons_append, distinct, hx, if_false, ih, distinct_congr hmem]

namespace Resolution

def found (lookup : Lookup) (packages : List String) : List SourceRef :=
  packages.filterMap fun p => (lookup p).toOption

def firstPlace (lookup : Lookup) (packages : List String) (s : SourceRef) : Nat :=
  packages.findIdx fun p => (lookup p).toOption = some s

structure FirstSeen (lookup : Lookup) (packages : List String) (refs : List SourceRef) : Prop where
  nodup : refs.Nodup
  mem_iff : ∀ s, s ∈ refs ↔ ∃ p ∈ packages, lookup p = .ok s
  order : refs.Pairwise fun a b =>
    firstPlace lookup packages a < firstPlace lookup packages b

section
variable {lookup : Lookup} {packages : List String}

theorem resolve_eq_distinct (lookup : Lookup) (packages : List String) :
    resolve lookup packages = distinct [] (found lookup packages) := by
  rw [resolve, ofAnswers, List.filterMap_map]
  rfl

theorem found_append (before after : List String) :
    found lookup (before ++ after) = found lookup before ++ found lookup after :=
  List.filterMap_append

theorem found_cons_error {p : String} {f : Failure} (h : lookup p = .error f) :
    found lookup (p :: packages) = found lookup packages := by
  simp [found, h, Except.toOption]

theorem found_cons_ok {p : String} {s : SourceRef} (h : lookup p = .ok s) :
    found lookup (p :: packages) = s :: found lookup packages := by
  simp [found, h, Except.toOption]

theorem mem_found_of_ok {p : String} {s : SourceRef} (hp : p ∈ packages) (h : lookup p = .ok s) :
    s ∈ found lookup packages :=
  List.mem_filterMap.2 ⟨p, hp, by rw [h]; rfl⟩

theorem firstPlace_cons_error {p : String} {f : Failure} (h : lookup p = .error f)
    (s : SourceRef) : firstPlace lookup (p :: packages) s = firstPlace lookup packages s + 1 := by
  simp [firstPlace, List.findIdx_cons, h, Except.toOption]

theorem firstPlace_cons_ok {p : String} {a : SourceRef} (h : lookup p = .ok a) (s : SourceRef) :
    firstPlace lookup (p :: packages) s =
      if a = s then 0 else firstPlace lookup packages s + 1 := by
  by_cases hs : a = s <;> simp [firstPlace, List.findIdx_cons, h, Except.toOption, hs]

theorem pairwise_distinct (seen : List SourceRef) :
    (distinct seen (found lookup packages)).Pairwise fun a b =>
      firstPlace lookup packages a < firstPlace lookup packages b := by
  induction packages generalizing seen with
  | nil => exact .nil
  | cons p packages ih =>
      cases h : lookup p with
      | error f =>
          rw [found_cons_error h]
          simpa only [firstPlace_cons_error h, Nat.add_lt_add_iff_right] using ih seen
      | ok s =>
          have hlater (b : SourceRef) (hb : s ≠ b) :
              firstPlace lookup (p :: packages) b = firstPlace lookup packages b + 1 := by
            rw [firstPlace_cons_ok h, if_neg hb]
          have hshift {seen' : List SourceRef} (hseen : s ∈ seen') :
              (distinct seen' (found lookup packages)).Pairwise fun a b =>
                firstPlace lookup (p :: packages) a < firstPlace lookup (p :: packages) b := by
            refine (ih seen').imp_of_mem fun {a b} ha hb hab => ?_
            have hne : ∀ x ∈ distinct seen' (found lookup packages), s ≠ x := by
              rintro x hx rfl
              exact ((mem_distinct _ _ _).1 hx).2 hseen
            rw [hlater a (hne a ha), hlater b (hne b hb)]
            exact Nat.add_lt_add_right hab 1
          rw [found_cons_ok h, distinct]
          split
          · next hseen => exact hshift hseen
          · next hseen =>
              refine .cons (fun b hb => ?_) (hshift (List.mem_cons_self ..))
              have hne : s ≠ b := by
                rintro rfl
                exact ((mem_distinct _ _ _).1 hb).2 (List.mem_cons_self ..)
              rw [hlater b hne, firstPlace_cons_ok h, if_pos rfl]
              exact Nat.succ_pos _

theorem firstSeen_resolve (lookup : Lookup) (packages : List String) :
    FirstSeen lookup packages (resolve lookup packages) where
  nodup := nodup_distinct _ _
  mem_iff _ := mem_resolve
  order := by
    rw [resolve_eq_distinct]
    exact pairwise_distinct []

theorem FirstSeen.unique {refs refs' : List SourceRef} (h : FirstSeen lookup packages refs)
    (h' : FirstSeen lookup packages refs') : refs = refs' := by
  have hperm : refs.Perm refs' := (List.perm_ext_iff_of_nodup h.nodup h'.nodup).2 fun s => by
    rw [h.mem_iff, h'.mem_iff]
  refine hperm.eq_of_pairwise (fun a b _ _ hab hba => ?_) h.order h'.order
  omega

theorem resolve_append (lookup : Lookup) (before after : List String) :
    resolve lookup (before ++ after) =
      resolve lookup before ++ distinct (found lookup before) (found lookup after) := by
  simp only [resolve_eq_distinct, found_append, distinct_append, List.nil_append]

theorem resolve_without_failing {p : String} {f : Failure} (h : lookup p = .error f)
    (before after : List String) :
    resolve lookup (before ++ p :: after) = resolve lookup (before ++ after) := by
  rw [resolve_append, resolve_append, found_cons_error h]

theorem resolve_without_repeat {before : List String} {p : String} (hp : p ∈ before)
    (after : List String) :
    resolve lookup (before ++ p :: after) = resolve lookup (before ++ after) := by
  cases h : lookup p with
  | error f => exact resolve_without_failing h before after
  | ok s =>
      rw [resolve_append, resolve_append, found_cons_ok h, distinct,
        if_pos (mem_found_of_ok hp h)]

theorem resolve_filter_isOk (lookup : Lookup) (packages : List String) :
    resolve lookup (packages.filter fun p => (lookup p).isOk) = resolve lookup packages := by
  rw [resolve_eq_distinct, resolve_eq_distinct, found, List.filterMap_filter, found]
  congr 2
  funext p
  cases lookup p <;> rfl

theorem resolve_congr {lookup' : Lookup}
    (h : ∀ p ∈ packages, (lookup' p).toOption = (lookup p).toOption) :
    resolve lookup' packages = resolve lookup packages := by
  rw [resolve_eq_distinct, resolve_eq_distinct, found, List.filterMap_congr h, found]

theorem sublist_or_sublist {l : List SourceRef} {a b : SourceRef} (ha : a ∈ l) (hb : b ∈ l)
    (hne : a ≠ b) : [a, b].Sublist l ∨ [b, a].Sublist l := by
  obtain ⟨before, after, rfl⟩ := List.append_of_mem ha
  rcases List.mem_append.1 hb with hb | hb
  · refine .inr ?_
    exact (List.singleton_sublist.2 hb).append (List.singleton_sublist.2 (List.mem_cons_self ..))
  · have hafter : b ∈ after := List.mem_of_ne_of_mem hne.symm hb
    refine .inl (.trans ?_ (List.sublist_append_right before _))
    exact (List.singleton_sublist.2 hafter).cons_cons a

end

end Resolution

open Resolution

theorem resolution_is_first_seen (lookup : Lookup) (packages : List String) :
    (∀ refs, refs = resolve lookup packages ↔ FirstSeen lookup packages refs) ∧
    resolve lookup (packages.filter fun p => (lookup p).isOk) = resolve lookup packages ∧
    (∀ before p after, packages = before ++ p :: after →
      (p ∈ before ∨ ∃ f, lookup p = .error f) →
      resolve lookup (before ++ after) = resolve lookup packages) ∧
    (∀ lookup' : Lookup,
      (∀ p ∈ packages, ∀ s, lookup' p = .ok s ↔ lookup p = .ok s) →
      resolve lookup' packages = resolve lookup packages) ∧
    (∀ more, resolve lookup packages <+: resolve lookup (packages ++ more)) ∧
    (∀ a b, (∃ p ∈ packages, lookup p = .ok a) → (∃ p ∈ packages, lookup p = .ok b) → a ≠ b →
      [a, b].Sublist (resolve lookup packages) ∨ [b, a].Sublist (resolve lookup packages)) ∧
    names (resolve lookup packages) = (resolve lookup packages).map SourceRef.name ∧
    text (resolve lookup packages) =
      ",".intercalate ((resolve lookup packages).map fun s => s.namespace ++ "/" ++ s.name) ∧
    ((∀ s ∈ resolve lookup packages, s.Plain) →
      sourcesIn (text (resolve lookup packages)) =
        (resolve lookup packages).map fun s => [s.namespace, s.name]) := by
  refine ⟨fun refs => ⟨?_, fun h => h.unique (firstSeen_resolve lookup packages)⟩,
    resolve_filter_isOk lookup packages, ?_, ?_, ?_, ?_, rfl, rfl, sourcesIn_text⟩
  · rintro rfl
    exact firstSeen_resolve lookup packages
  · rintro before p after rfl (hrepeat | ⟨f, hf⟩)
    · exact (resolve_without_repeat hrepeat after).symm
    · exact (resolve_without_failing hf before after).symm
  · intro lookup' h
    refine resolve_congr fun p hp => Option.ext fun s => ?_
    have hs := h p hp s
    cases hp' : lookup' p <;> cases hp : lookup p <;> simp_all [Except.toOption]
  · intro more
    rw [resolve_append]
    exact List.prefix_append _ _
  · intro a b ha hb hne
    exact sublist_or_sublist (mem_resolve.2 ha) (mem_resolve.2 hb) hne

example :
    resolve ((Catalog.empty.give ⟨"default", "up"⟩ ["a", "d"]).give ⟨"default", "upstream"⟩
      ["b"]).read ["b", "a", "c", "d", "b"] = [⟨"default", "upstream"⟩, ⟨"default", "up"⟩] := by
  decide +kernel

end RegistryKeeper
