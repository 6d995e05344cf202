namespace RegistryKeeper

namespace Table

def lookup {κ ν : Type} [DecidableEq κ] (k : κ) : List (κ × ν) → Option ν
  | [] => none
  | (k', v) :: r => if k' = k then some v else lookup k r

def put {κ ν : Type} [DecidableEq κ] (k : κ) (v : ν) : List (κ × ν) → List (κ × ν)
  | [] => [(k, v)]
  | (k', v') :: r => if k' = k then (k, v) :: r else (k', v') :: put k v r

section
variable {κ ν : Type} [DecidableEq κ]

theorem lookup_put (k k' : κ) (v : ν) (l : List (κ × ν)) :
    lookup k' (put k v l) = if k = k' then some v else lookup k' l := by
  induction l with
  | nil => simp [put, lookup]
  | cons e r ih =>
      obtain ⟨a, w⟩ := e
      by_cases h : a = k
      · subst h
        by_cases h' : a = k' <;> simp [put, lookup, h']
      · by_cases h' : a = k'
        · subst h'
          simp [put, lookup, h, Ne.symm h]
        · simp [put, lookup, h, h', ih]

theorem lookup_filter (p : κ → ν → Bool) (k : κ) {l : List (κ × ν)}
    (h : (l.map (·.1)).Nodup) :
    lookup k (l.filter fun e => p e.1 e.2) = (lookup k l).filter (p k) := by
  induction l with
  | nil => rfl
  | cons e r ih =>
      obtain ⟨a, w⟩ := e
      simp only [List.map_cons, List.nodup_cons] at h
      have hr := ih h.2
      by_cases ha : a = k
      · subst ha
        have hn : lookup a (r.filter fun e => p e.1 e.2) = none := by
          have hm : a ∉ (r.filter fun e => p e.1 e.2).map (·.1) := fun hm => by
            obtain ⟨e, he, rfl⟩ := List.mem_map.1 hm
            exact h.1 (List.mem_map.2 ⟨e, (List.mem_filter.1 he).1, rfl⟩)
          generalize r.filter (fun e => p e.1 e.2) = l' at hm
          induction l' with
          | nil => rfl
          | cons e l' ihl =>
              simp only [List.map_cons, List.mem_cons, not_or] at hm
              simp [lookup, Ne.symm hm.1, ihl hm.2]
        cases hp : p a w <;> simp [lookup, hp, hn, Option.filter]
      · cases hp : p a w <;> simp [lookup, hp, ha, hr]

theorem mem_of_lookup {k : κ} {v : ν} {l : List (κ × ν)} (h : lookup k l = some v) :
    (k, v) ∈ l := by
  induction l with
  | nil => cases h
  | cons e l ih =>
      rw [lookup] at h
      split at h
      · next hk =>
          cases h
          exact hk ▸ List.mem_cons_self
      · exact List.mem_cons_of_mem _ (ih h)

theorem mem_keys_put (k k' : κ) (v : ν) (l : List (κ × ν)) :
    k' ∈ (put k v l).map (·.1) ↔ k' = k ∨ k' ∈ l.map (·.1) := by
  induction l with
  | nil => simp [put]
  | cons e r ih =>
      obtain ⟨a, w⟩ := e
      by_cases h : a = k
      · subst h; simp [put]
      · simp only [put, h, if_false, List.map_cons, List.mem_cons, ih]
        constructor <;> (rintro (h | h | h) <;> simp [h])

theorem nodup_keys_put (k : κ) (v : ν) {l : List (κ × ν)} (h : (l.map (·.1)).Nodup) :
    ((put k v l).map (·.1)).Nodup := by
  induction l with
  | nil => simp [put]
  | cons e r ih =>
      obtain ⟨a, w⟩ := e
      simp only [List.map_cons, List.nodup_cons] at h
      by_cases ha : a = k
      · subst ha; simpa [put] using h
      · simp only [put, ha, if_false, List.map_cons, List.nodup_cons, mem_keys_put]
        exact ⟨by simp [h.1], ih h.2⟩

end

end Table

/-- A finite map in which every key stands once. -/
structure Table (κ ν : Type) where
  entries : List (κ × ν)
  keys_nodup : (entries.map (·.1)).Nodup
  deriving DecidableEq, Repr

namespace Table
variable {κ ν : Type} [DecidableEq κ]

def empty : Table κ ν := ⟨[], by simp⟩

instance : Inhabited (Table κ ν) := ⟨empty⟩

def get? (t : Table κ ν) (k : κ) : Option ν := lookup k t.entries

def insert (t : Table κ ν) (k : κ) (v : ν) : Table κ ν :=
  ⟨put k v t.entries, nodup_keys_put k v t.keys_nodup⟩

def filter (t : Table κ ν) (p : κ → ν → Bool) : Table κ ν :=
  ⟨t.entries.filter fun e => p e.1 e.2,
    t.keys_nodup.sublist (List.filter_sublist.map _)⟩

def erase (t : Table κ ν) (k : κ) : Table κ ν :=
  t.filter fun k' _ => k' ≠ k

def contains (t : Table κ ν) (k : κ) : Bool := (t.get? k).isSome

def size (t : Table κ ν) : Nat := t.entries.length

@[simp] theorem get?_empty (k : κ) : (empty : Table κ ν).get? k = none := rfl

theorem mem_of_get? {t : Table κ ν} {k : κ} {v : ν} (h : t.get? k = some v) :
    (k, v) ∈ t.entries :=
  mem_of_lookup h

theorem get?_of_mem {t : Table κ ν} {k : κ} {v : ν} (h : (k, v) ∈ t.entries) :
    t.get? k = some v := by
  obtain ⟨l, hl⟩ := t
  simp only [get?] at h ⊢
  induction l with
  | nil => cases h
  | cons e l ih =>
      obtain ⟨hnot, hl'⟩ := List.nodup_cons.1 hl
      rcases List.mem_cons.1 h with rfl | h
      · exact if_pos rfl
      · have hne : e.1 ≠ k := by
          rintro rfl
          exact hnot (List.mem_map.2 ⟨_, h, rfl⟩)
        exact (if_neg hne).trans (ih hl' h)

theorem get?_insert (t : Table κ ν) (k k' : κ) (v : ν) :
    (t.insert k v).get? k' = if k = k' then some v else t.get? k' :=
  lookup_put k k' v t.entries

@[simp] theorem get?_insert_self (t : Table κ ν) (k : κ) (v : ν) :
    (t.insert k v).get? k = some v := by
  simp [get?_insert]

theorem get?_filter (t : Table κ ν) (p : κ → ν → Bool) (k : κ) :
    (t.filter p).get? k = (t.get? k).filter (p k) :=
  lookup_filter p k t.keys_nodup

theorem get?_erase (t : Table κ ν) (k k' : κ) :
    (t.erase k).get? k' = if k = k' then none else t.get? k' := by
  rw [erase, get?_filter]
  by_cases h : k = k'
  · subst h
    cases t.get? k <;> simp [Option.filter]
  · cases t.get? k' <;> simp [Option.filter, h, Ne.symm h]

end Table

end RegistryKeeper
