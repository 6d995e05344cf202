import Mathlib.Data.List.Forall2
import Mathlib.Data.List.Nodup
import RegistryKeeper.Proofs.Readings
import RegistryKeeper.Proofs.ServerStates

namespace RegistryKeeper.Json

structure Field where
  name : String
  optional : Bool
  deriving DecidableEq

inductive Padded (names : List String) : Json → Json → Prop
  | put {k : String} (hk : k ∉ names) (v : Json) (l : List (String × Json)) :
      Padded names (.obj l) (.obj (put k v l))
  | erase {k : String} (hk : k ∉ names) (l : List (String × Json)) :
      Padded names (.obj l) (.obj (l.filter (·.1 ≠ k)))

def StandsFor (l : List (String × Json)) (f : Field) (v : Json) : Prop :=
  Table.lookup f.name l = some v ∨
    f.optional = true ∧ Table.lookup f.name l = none ∧ v = .null

/-- The same record with an unknown field more or less, without an optional field that is null, or
as the list of its fields in declared order. -/
inductive Reworded (fields : List Field) : Json → Json → Prop
  | padded {j j' : Json} (h : Padded (fields.map Field.name) j j') : Reworded fields j j'
  | leftOut {f : Field} {l : List (String × Json)} (hf : f ∈ fields) (hopt : f.optional = true)
      (hnull : Table.lookup f.name l = some .null) :
      Reworded fields (.obj l) (.obj (l.filter (·.1 ≠ f.name)))
  | listed {l : List (String × Json)} {items : List Json}
      (h : List.Forall₂ (StandsFor l) fields items) : Reworded fields (.obj l) (.arr items)

theorem Padded.agrees {names : List String} {j j' : Json} (h : Padded names j j') :
    ∃ l l', j = .obj l ∧ j' = .obj l' ∧ (∀ k ∈ names, Table.lookup k l' = Table.lookup k l) ∧
      ∀ known : List (String × Reader Unit), (∀ e ∈ known, e.1 ∈ names) →
        checkFields known l = .ok () → checkFields known l' = .ok () := by
  cases h with
  | put hk v l =>
      refine ⟨l, _, rfl, rfl, ?_, ?_⟩
      · intro k' hk'
        rw [lookup_put, if_neg (ne_of_mem_of_not_mem hk' hk).symm]
      · intro known hknown hc
        refine checkFields_put hc fun f hf => ?_
        exact absurd (hknown _ (Table.mem_of_lookup hf)) hk
  | erase hk l =>
      refine ⟨l, _, rfl, rfl, ?_, ?_⟩
      · intro k' hk'
        rw [lookup_filter_ne, if_neg (ne_of_mem_of_not_mem hk' hk).symm]
      · exact fun known _ hc => checkFields_filter hc _

theorem Reworded.ne_null {fields : List Field} {j j' : Json} (h : Reworded fields j j') :
    j ≠ .null ∧ j' ≠ .null := by
  cases h with
  | padded h =>
      obtain ⟨l, l', rfl, rfl, -⟩ := h.agrees
      exact ⟨Json.noConfusion, Json.noConfusion⟩
  | leftOut | listed => exact ⟨Json.noConfusion, Json.noConfusion⟩

theorem item_eq_ok_iff {α : Type} {f : Reader α} {record : String} {l : List Json} {i : Nat}
    {a : α} : item f record l i = .ok a ↔ ∃ v, l[i]? = some v ∧ f v = .ok a := by
  unfold item
  cases l[i]? with
  | none => simp
  | some v => simp [mapError_eq_ok_iff]

theorem atMost_eq_ok_iff {n : Nat} {l : List Json} {u : Unit} :
    atMost n l = .ok u ↔ l.length ≤ n := by
  unfold atMost
  split <;> simp_all

structure FieldReading (α : Type) extends Field where
  fits : Reader Unit
  Tells : α → Option Json → Prop
  fits_of_tells {a : α} {v : Json} : Tells a (some v) → fits v = .ok ()
  tells_null {a : α} : optional = true → (Tells a none ↔ Tells a (some .null))

namespace FieldReading
variable {α β : Type}

def ofRequired (name : String) (f : Reader β) (get : α → β) : FieldReading α where
  name := name
  optional := false
  fits := Json.fits f
  Tells a o := ∃ v, o = some v ∧ f v = .ok (get a)
  fits_of_tells := by
    rintro a v ⟨_, ⟨⟩, hv⟩
    exact fits_eq_ok_iff.2 ⟨_, hv⟩
  tells_null := nofun

def ofOptional (name : String) (f : Reader β) (get : α → Option β) : FieldReading α where
  name := name
  optional := true
  fits := Json.fits (readOption f)
  Tells a o := readOption f (o.getD .null) = .ok (get a)
  fits_of_tells h := fits_eq_ok_iff.2 ⟨_, h⟩
  tells_null _ := Iff.rfl

def ofDefaulted (name : String) (f : Reader β) (default : β) (get : α → β) : FieldReading α where
  name := name
  optional := false
  fits := Json.fits f
  Tells a o := o.elim (get a = default) fun v => f v = .ok (get a)
  fits_of_tells h := fits_eq_ok_iff.2 ⟨_, h⟩
  tells_null := nofun

section
variable {name : String} {f : Reader β} {a : α} {v : Json} {l : List (String × Json)}

theorem ofRequired_tells_some {get : α → β} :
    (ofRequired name f get).Tells a (some v) ↔ f v = .ok (get a) := by
  simp [ofRequired]

theorem ofRequired_tells_lookup {get : α → β} :
    (ofRequired name f get).Tells a (Table.lookup (ofRequired name f get).name l) ↔
      required f l name = .ok (get a) :=
  required_eq_ok_iff.symm

theorem ofOptional_tells_some {get : α → Option β} :
    (ofOptional name f get).Tells a (some v) ↔ readOption f v = .ok (get a) := Iff.rfl

theorem ofOptional_tells_lookup {get : α → Option β} :
    (ofOptional name f get).Tells a (Table.lookup (ofOptional name f get).name l) ↔
      Json.optional f l name = .ok (get a) :=
  optional_eq_ok_iff.symm

theorem ofDefaulted_tells_some {default : β} {get : α → β} :
    (ofDefaulted name f default get).Tells a (some v) ↔ f v = .ok (get a) := Iff.rfl

theorem ofDefaulted_tells_lookup {default : β} {get : α → β} :
    (ofDefaulted name f default get).Tells a
        (Table.lookup (ofDefaulted name f default get).name l) ↔
      ∃ o, readField f name l = .ok o ∧ o.getD default = get a := by
  simp only [readField_eq_ok_iff, ofDefaulted]
  cases Table.lookup name l with
  | none => simp [eq_comm]
  | some v =>
      constructor
      · intro h
        exact ⟨_, ⟨_, h, rfl⟩, rfl⟩
      · rintro ⟨_, ⟨b, hb, rfl⟩, rfl⟩
        exact hb

end

end FieldReading

theorem forall₂_cons_iff {α β : Type} {R : α → β → Prop} {a : α} {as : List α} {bs : List β}
    {i : Nat} : List.Forall₂ R (a :: as) (bs.drop i) ↔
      ∃ b, bs[i]? = some b ∧ R a b ∧ List.Forall₂ R as (bs.drop (i + 1)) := by
  rw [List.forall₂_cons_left_iff]
  constructor
  · rintro ⟨b, rest, hb, hrest, heq⟩
    have hi : bs[i]? = some b := by
      rw [← Nat.add_zero i, ← List.getElem?_drop, heq, List.getElem?_cons_zero]
    refine ⟨b, hi, hb, ?_⟩
    rwa [← List.drop_drop, heq]
  · rintro ⟨b, hi, hb, hrest⟩
    obtain ⟨hlt, rfl⟩ := List.getElem?_eq_some_iff.1 hi
    exact ⟨_, _, hb, hrest, List.drop_eq_getElem_cons hlt⟩

theorem forall₂_nil_iff {α β : Type} {R : α → β → Prop} {bs : List β} {i : Nat} :
    List.Forall₂ R [] (bs.drop i) ↔ bs.length ≤ i := by
  rw [List.forall₂_nil_left_iff, List.drop_eq_nil_iff]

structure RecordReading {α : Type} (f : Reader α) (fields : List Field) where
  readings : List (FieldReading α)
  known : List (String × Reader Unit)
  declared : readings.map (·.toField) = fields
  nodup : (fields.map Field.name).Nodup
  fits : ∀ r ∈ readings, Table.lookup r.name known = some r.fits
  known_declared : ∀ e ∈ known, e.1 ∈ fields.map Field.name
  obj_iff {l : List (String × Json)} {a : α} : f (.obj l) = .ok a ↔
    checkFields known l = .ok () ∧ ∀ r ∈ readings, r.Tells a (Table.lookup r.name l)
  arr_iff {items : List Json} {a : α} : f (.arr items) = .ok a ↔
    List.Forall₂ (fun r v => r.Tells a (some v)) readings items
  record {j : Json} {a : α} (h : f j = .ok a) : (∃ l, j = .obj l) ∨ ∃ items, j = .arr items

namespace RecordReading
variable {α : Type} {f : Reader α} {fields : List Field} (R : RecordReading f fields)
include R

theorem name_mem {r : FieldReading α} (hr : r ∈ R.readings) : r.name ∈ fields.map Field.name := by
  rw [← R.declared, List.map_map]
  exact List.mem_map_of_mem hr

theorem exists_reading {k : String} (hk : k ∈ fields.map Field.name) :
    ∃ r ∈ R.readings, r.name = k := by
  rw [← R.declared, List.map_map] at hk
  exact List.mem_map.1 hk

theorem eq_of_name {r r' : FieldReading α} (hr : r ∈ R.readings) (hr' : r' ∈ R.readings)
    (h : r.name = r'.name) : r = r' := by
  have hnodup := R.nodup
  rw [← R.declared, List.map_map] at hnodup
  exact List.inj_on_of_nodup_map hnodup hr hr' h

theorem read_of_tells {l : List (String × Json)} (hl : (l.map (·.1)).Nodup) {a : α}
    (h : ∀ r ∈ R.readings, r.Tells a (Table.lookup r.name l)) : f (.obj l) = .ok a := by
  refine R.obj_iff.2 ⟨checkFields_eq_ok_iff.2 ?_, h⟩
  rintro ⟨k, v⟩ he g hg
  obtain ⟨r, hr, rfl⟩ := R.exists_reading (R.known_declared _ (Table.mem_of_lookup hg))
  have hv : Table.lookup r.name l = some v := Table.get?_of_mem (t := ⟨l, hl⟩) he
  cases (R.fits r hr).symm.trans hg
  exact r.fits_of_tells (hv ▸ h r hr)

theorem read_object (new : List (String × Json)) {a : α}
    (h : ∀ r ∈ R.readings, r.Tells a ((object new).field? r.name)) : f (object new) = .ok a :=
  R.read_of_tells (ordered_object new).nodup_keys h

theorem read_present {new : List (String × Option Json)} (hnew : (new.map (·.1)).Nodup) {a : α}
    (h : ∀ r ∈ R.readings, r.Tells a (Table.lookup r.name new).join) : f (present new) = .ok a := by
  refine R.read_object _ fun r hr => ?_
  exact (field?_present hnew r.name).symm ▸ h r hr

theorem tells_of_read {j : Json} {a : α} (h : f j = .ok a) {r : FieldReading α}
    (hr : r ∈ R.readings) : ∃ o, r.Tells a o := by
  obtain ⟨l, rfl⟩ | ⟨items, rfl⟩ := R.record h
  · exact ⟨_, (R.obj_iff.1 h).2 r hr⟩
  · obtain ⟨i, hi, rfl⟩ := List.getElem_of_mem hr
    have hitems := R.arr_iff.1 h
    exact ⟨_, hitems.get hi (hitems.length_eq ▸ hi)⟩

theorem read_put {l : List (String × Json)} {a : α} (h : f (.obj l) = .ok a) {r : FieldReading α}
    (hr : r ∈ R.readings) {v : Json} (hv : r.Tells a (some v)) :
    f (.obj (put r.name v l)) = .ok a := by
  obtain ⟨hc, htells⟩ := R.obj_iff.1 h
  refine R.obj_iff.2 ⟨checkFields_put hc fun g hg => ?_, fun r' hr' => ?_⟩
  · cases (R.fits r hr).symm.trans hg
    exact r.fits_of_tells hv
  · rw [lookup_put]
    split
    · next hname => exact R.eq_of_name hr hr' hname ▸ hv
    · exact htells r' hr'

theorem read_reworded {j j' : Json} {a : α} (h : f j = .ok a) (hj : Reworded fields j j') :
    f j' = .ok a := by
  cases hj with
  | padded hj =>
      obtain ⟨l, l', rfl, rfl, hlookup, hcheck⟩ := hj.agrees
      obtain ⟨hc, htells⟩ := R.obj_iff.1 h
      refine R.obj_iff.2 ⟨hcheck _ R.known_declared hc, fun r hr => ?_⟩
      rw [hlookup _ (R.name_mem hr)]
      exact htells r hr
  | @leftOut g l hg hopt hnull =>
      obtain ⟨hc, htells⟩ := R.obj_iff.1 h
      refine R.obj_iff.2 ⟨checkFields_filter hc _, fun r hr => ?_⟩
      rw [lookup_filter_ne]
      split
      · next hname =>
          obtain ⟨r', hr', rfl⟩ := List.mem_map.1 (R.declared ▸ hg)
          obtain rfl := R.eq_of_name hr' hr hname
          exact (r'.tells_null hopt).2 (hnull ▸ htells r' hr)
      · exact htells r hr
  | @listed l items hitems =>
      obtain ⟨-, htells⟩ := R.obj_iff.1 h
      rw [← R.declared, List.forall₂_map_left_iff] at hitems
      refine R.arr_iff.2 (((List.forall₂_and_left _ _).2 ⟨htells, hitems⟩).imp ?_)
      rintro r v ⟨hr, hv | ⟨hopt, hnone, rfl⟩⟩
      · exact hv ▸ hr
      · exact (r.tells_null hopt).1 (hnone ▸ hr)

end RecordReading

end RegistryKeeper.Json
