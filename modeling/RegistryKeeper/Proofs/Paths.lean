import RegistryKeeper.Json.Basic

namespace RegistryKeeper.Json

def Apart (p q : List String) : Prop := ¬ p <+: q ∧ ¬ q <+: p

instance (p q : List String) : Decidable (Apart p q) :=
  inferInstanceAs (Decidable (¬ p <+: q ∧ ¬ q <+: p))

@[simp] theorem apart_cons_self {k : String} {p q : List String} :
    Apart (k :: p) (k :: q) ↔ Apart p q := by
  simp [Apart, List.cons_prefix_cons]

theorem apart_cons_of_ne {k k' : String} (h : k ≠ k') (p q : List String) :
    Apart (k :: p) (k' :: q) := by
  constructor
  · intro hp
    exact h (List.cons_prefix_cons.1 hp).1
  · intro hp
    exact h (List.cons_prefix_cons.1 hp).1.symm

theorem Apart.ne_nil {p q : List String} (h : Apart p q) : q ≠ [] := by
  rintro rfl
  exact h.2 List.nil_prefix

@[simp] theorem at?_nil (j : Json) : j.at? [] = some j := rfl

theorem at?_cons (j : Json) (k : String) (p : List String) :
    j.at? (k :: p) = (j.field? k).bind fun i => i.at? p := rfl

theorem at?_append (j : Json) (p q : List String) :
    j.at? (p ++ q) = (j.at? p).bind fun i => i.at? q := by
  induction p generalizing j with
  | nil => rfl
  | cons k p ih =>
      rw [List.cons_append, at?_cons, at?_cons]
      cases j.field? k with
      | none => rfl
      | some i => exact ih i

@[simp] theorem at?_singleton (j : Json) (k : String) : j.at? [k] = j.field? k := by
  rw [at?_cons]
  cases j.field? k <;> rfl

theorem field?_getD_null (j : Json) (k : String) {p : List String} (h : p ≠ []) :
    ((j.field? k).getD .null).at? p = j.at? (k :: p) := by
  rw [at?_cons]
  cases j.field? k with
  | some i => rfl
  | none =>
      cases p with
      | nil => exact absurd rfl h
      | cons k' p => rfl

theorem at?_setAt_of_apart {p q : List String} (h : Apart p q) (j v : Json) :
    (j.setAt p v).at? q = j.at? q := by
  induction p generalizing j q with
  | nil => exact absurd List.nil_prefix h.1
  | cons k p ih =>
      cases q with
      | nil => exact absurd rfl h.ne_nil
      | cons k' q =>
          by_cases hk : k = k'
          · subst hk
            have hpq : Apart p q := apart_cons_self.1 h
            rw [setAt, at?_cons, field?_withField, if_pos rfl, Option.bind_some, ih hpq]
            exact field?_getD_null j k hpq.ne_nil
          · exact at?_setAt_of_ne hk j p q v

theorem withField_eq_setAt (j : Json) (k : String) (v : Json) :
    j.withField k v = j.setAt [k] v := rfl

theorem lookup_filter_ne (k k' : String) (l : List (String × Json)) :
    Table.lookup k' (l.filter (·.1 ≠ k)) = if k = k' then none else Table.lookup k' l := by
  induction l with
  | nil => simp [Table.lookup]
  | cons e l ih =>
      obtain ⟨a, w⟩ := e
      by_cases ha : a = k
      · subst ha
        rw [List.filter_cons_of_neg (by simp), ih]
        by_cases h : a = k' <;> simp [Table.lookup, h]
      · rw [List.filter_cons_of_pos (by simpa using ha), Table.lookup, Table.lookup, ih]
        by_cases h : a = k'
        · subst h
          simp [Ne.symm ha]
        · simp [h]

theorem field?_withoutField (j : Json) (k k' : String) :
    (j.withoutField k).field? k' = if k = k' then none else j.field? k' := by
  cases j with
  | obj l => exact lookup_filter_ne k k' l
  | _ => simp [withoutField, field?, fields, Table.lookup]

theorem lookup_append (k : String) (l l' : List (String × Json)) :
    Table.lookup k (l ++ l') = (Table.lookup k l).or (Table.lookup k l') := by
  induction l with
  | nil => simp [Table.lookup]
  | cons e l ih =>
      obtain ⟨a, w⟩ := e
      by_cases h : a = k <;> simp [Table.lookup, h, ih]

theorem lookup_foldl_put (new l : List (String × Json)) (k : String) :
    Table.lookup k (new.foldl (fun l e => put e.1 e.2 l) l) =
      (Table.lookup k new.reverse).or (Table.lookup k l) := by
  induction new generalizing l with
  | nil => simp [Table.lookup]
  | cons e new ih =>
      obtain ⟨a, w⟩ := e
      rw [List.foldl_cons, ih, lookup_put, List.reverse_cons, lookup_append]
      by_cases h : a = k <;> simp [Table.lookup, h]

theorem field?_object (l : List (String × Json)) (k : String) :
    (object l).field? k = Table.lookup k l.reverse := by
  rw [object, field?, fields, lookup_foldl_put]
  simp [Table.lookup]

theorem lookup_eq_none_of_notMem {α : Type} {k : String} {l : List (String × α)}
    (h : k ∉ l.map (·.1)) : Table.lookup k l = none := by
  induction l with
  | nil => rfl
  | cons e l ih =>
      obtain ⟨hne, hl⟩ := not_or.1 (mt List.mem_cons.2 h)
      rw [Table.lookup, if_neg (Ne.symm hne), ih hl]

theorem lookup_filterMap (k : String) {l : List (String × Option Json)}
    (h : (l.map (·.1)).Nodup) :
    Table.lookup k (l.filterMap fun e => e.2.map (e.1, ·)) = (Table.lookup k l).join := by
  induction l with
  | nil => rfl
  | cons e l ih =>
      obtain ⟨a, o⟩ := e
      obtain ⟨hnot, hl⟩ := List.nodup_cons.1 h
      by_cases ha : a = k
      · subst ha
        cases o with
        | none => simpa [Table.lookup, lookup_eq_none_of_notMem hnot] using ih hl
        | some v => simp [Table.lookup]
      · cases o with
        | none => simpa [Table.lookup, ha] using ih hl
        | some v => simpa [Table.lookup, ha] using ih hl

theorem lookup_reverse (k : String) {l : List (String × Json)} (h : (l.map (·.1)).Nodup) :
    Table.lookup k l.reverse = Table.lookup k l := by
  induction l with
  | nil => rfl
  | cons e l ih =>
      obtain ⟨a, v⟩ := e
      obtain ⟨hnot, hl⟩ := List.nodup_cons.1 h
      rw [List.reverse_cons, lookup_append, ih hl]
      by_cases ha : a = k
      · subst ha
        simp [Table.lookup, lookup_eq_none_of_notMem hnot]
      · simp [Table.lookup, ha]

theorem keys_filterMap_sublist (l : List (String × Option Json)) :
    ((l.filterMap fun e => e.2.map (e.1, ·)).map (·.1)).Sublist (l.map (·.1)) := by
  induction l with
  | nil => exact .slnil
  | cons e l ih =>
      obtain ⟨a, o⟩ := e
      cases o with
      | none => exact ih.cons _
      | some v => exact ih.cons_cons _

theorem field?_present {l : List (String × Option Json)} (h : (l.map (·.1)).Nodup) (k : String) :
    (present l).field? k = (Table.lookup k l).join := by
  rw [present, field?_object, lookup_reverse k (h.sublist (keys_filterMap_sublist l)),
    lookup_filterMap k h]

theorem mem_keys_put (k k' : String) (v : Json) (l : List (String × Json)) :
    k' ∈ (put k v l).map (·.1) ↔ k' = k ∨ k' ∈ l.map (·.1) := by
  induction l with
  | nil => simp [put]
  | cons e l ih =>
      obtain ⟨a, w⟩ := e
      by_cases ha : a = k
      · subst ha
        simp [put]
      · by_cases hl : k < a
        · simp [put, ha, hl]
        · simp only [put, ha, hl, if_false, List.map_cons, List.mem_cons, ih]
          constructor <;> (rintro (h | h | h) <;> simp [h])

def AgreeOff (paths : List (List String)) (a b : Json) : Prop :=
  ∀ q, (∀ p ∈ paths, Apart p q) → b.at? q = a.at? q

namespace AgreeOff
variable {paths paths' : List (List String)} {a b c : Json}

theorem refl (paths : List (List String)) (a : Json) : AgreeOff paths a a := fun _ _ => rfl

theorem mono (h : AgreeOff paths a b) (hs : ∀ p ∈ paths, p ∈ paths') : AgreeOff paths' a b :=
  fun q hq => h q fun p hp => hq p (hs p hp)

theorem trans (h : AgreeOff paths a b) (h' : AgreeOff paths b c) : AgreeOff paths a c :=
  fun q hq => (h' q hq).trans (h q hq)

theorem setAt {p : List String} (h : AgreeOff paths a b) (hp : p ∈ paths) (v : Json) :
    AgreeOff paths a (b.setAt p v) := by
  intro q hq
  rw [at?_setAt_of_apart (hq p hp)]
  exact h q hq

theorem textAt? (h : AgreeOff paths a b) {q : List String} (hq : ∀ p ∈ paths, Apart p q) :
    b.textAt? q = a.textAt? q := by
  rw [Json.textAt?, Json.textAt?, h q hq]

theorem blankAt (h : AgreeOff paths a b) {q : List String} (hq : ∀ p ∈ paths, Apart p q) :
    b.blankAt q = a.blankAt q := by
  rw [Json.blankAt, Json.blankAt, h q hq]

end AgreeOff

theorem agreeOff_setAt (j : Json) (p : List String) (v : Json) : AgreeOff [p] j (j.setAt p v) :=
  (AgreeOff.refl [p] j).setAt (List.mem_singleton.2 rfl) v

theorem agreeOff_withoutField (j : Json) (k : String) : AgreeOff [[k]] j (j.withoutField k) := by
  intro q hq
  have hk := hq [k] (List.mem_singleton.2 rfl)
  cases q with
  | nil => exact absurd rfl hk.ne_nil
  | cons k' q =>
      have hne : k ≠ k' := by
        rintro rfl
        exact hk.1 (by simp)
      rw [at?_cons, at?_cons, field?_withoutField, if_neg hne]

theorem withField_withField_eq_setAt {j own : Json} {k : String} (h : j.field? k = some own)
    (k' : String) (v : Json) : j.withField k (own.withField k' v) = j.setAt [k, k'] v := by
  rw [setAt, h]
  rfl

end RegistryKeeper.Json
