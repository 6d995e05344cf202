import RegistryKeeper.Table

namespace RegistryKeeper

/-- `digits · 10 ^ exponent`, with a sign of its own since a zero may be negative. -/
structure Decimal where
  negative : Bool
  digits : Nat
  exponent : Int
  deriving DecidableEq, Repr, Inhabited

inductive Json where
  | null
  | bool (b : Bool)
  | int (n : Int)
  | real (d : Decimal)
  | str (s : String)
  | arr (items : List Json)
  | obj (fields : List (String × Json))
  deriving Repr, Inhabited

namespace Json

mutual

def decEq : (a b : Json) → Decidable (a = b)
  | null, null => isTrue rfl
  | bool a, bool b => decidable_of_iff (a = b) (by simp)
  | int a, int b => decidable_of_iff (a = b) (by simp)
  | real a, real b => decidable_of_iff (a = b) (by simp)
  | str a, str b => decidable_of_iff (a = b) (by simp)
  | arr a, arr b => @decidable_of_iff _ (a = b) (by simp) (decEqItems a b)
  | obj a, obj b => @decidable_of_iff _ (a = b) (by simp) (decEqFields a b)
  | null, bool _ | null, int _ | null, real _ | null, str _ | null, arr _ | null, obj _
  | bool _, null | bool _, int _ | bool _, real _ | bool _, str _ | bool _, arr _ | bool _, obj _
  | int _, null | int _, bool _ | int _, real _ | int _, str _ | int _, arr _ | int _, obj _
  | real _, null | real _, bool _ | real _, int _ | real _, str _ | real _, arr _ | real _, obj _
  | str _, null | str _, bool _ | str _, int _ | str _, real _ | str _, arr _ | str _, obj _
  | arr _, null | arr _, bool _ | arr _, int _ | arr _, real _ | arr _, str _ | arr _, obj _
  | obj _, null | obj _, bool _ | obj _, int _ | obj _, real _ | obj _, str _ | obj _, arr _ =>
      isFalse (by simp)

def decEqItems : (a b : List Json) → Decidable (a = b)
  | [], [] => isTrue rfl
  | [], _ :: _ => isFalse (by simp)
  | _ :: _, [] => isFalse (by simp)
  | x :: xs, y :: ys =>
      match decEq x y, decEqItems xs ys with
      | isTrue h, isTrue h' => isTrue (by simp [h, h'])
      | isFalse h, _ => isFalse (by simp [h])
      | _, isFalse h => isFalse (by simp [h])

def decEqFields : (a b : List (String × Json)) → Decidable (a = b)
  | [], [] => isTrue rfl
  | [], _ :: _ => isFalse (by simp)
  | _ :: _, [] => isFalse (by simp)
  | (k, x) :: xs, (k', y) :: ys =>
      if hk : k = k' then
        match decEq x y, decEqFields xs ys with
        | isTrue h, isTrue h' => isTrue (by simp [hk, h, h'])
        | isFalse h, _ => isFalse (by simp [h])
        | _, isFalse h => isFalse (by simp [h])
      else isFalse (by simp [hk])

end

instance : DecidableEq Json := decEq

def put (k : String) (v : Json) : List (String × Json) → List (String × Json)
  | [] => [(k, v)]
  | (k', v') :: r =>
      if k' = k then (k, v) :: r
      else if k < k' then (k, v) :: (k', v') :: r
      else (k', v') :: put k v r

theorem lookup_put (k k' : String) (v : Json) (l : List (String × Json)) :
    Table.lookup k' (put k v l) = if k = k' then some v else Table.lookup k' l := by
  induction l with
  | nil => simp [put, Table.lookup]
  | cons e r ih =>
      obtain ⟨a, w⟩ := e
      by_cases h : a = k
      · subst h
        by_cases h' : a = k' <;> simp [put, Table.lookup, h']
      · by_cases hl : k < a
        · simp [put, Table.lookup, h, hl]
        · by_cases h' : a = k'
          · subst h'
            simp [put, Table.lookup, h, hl, Ne.symm h]
          · simp [put, Table.lookup, h, hl, h', ih]

/-- The last value given for a key counts. -/
def object (fields : List (String × Json)) : Json :=
  .obj (fields.foldl (fun l e => put e.1 e.2 l) [])

def present (fields : List (String × Option Json)) : Json :=
  object (fields.filterMap fun e => e.2.map (e.1, ·))

def strings (l : List String) : Json := .arr (l.map .str)

def stringMap (l : List (String × String)) : Json := object (l.map fun e => (e.1, .str e.2))

def fields : Json → List (String × Json)
  | .obj l => l
  | _ => []

def field? (j : Json) (k : String) : Option Json := Table.lookup k j.fields

def at? : Json → List String → Option Json
  | j, [] => some j
  | j, k :: p => (j.field? k).bind fun i => at? i p

def withField (j : Json) (k : String) (v : Json) : Json := .obj (put k v j.fields)

def withoutField : Json → String → Json
  | .obj l, k => .obj (l.filter (·.1 ≠ k))
  | j, _ => j

def setAt : Json → List String → Json → Json
  | _, [], v => v
  | j, k :: p, v => j.withField k (setAt ((j.field? k).getD .null) p v)

theorem field?_withField (j : Json) (k k' : String) (v : Json) :
    (j.withField k v).field? k' = if k = k' then some v else j.field? k' :=
  lookup_put k k' v j.fields

@[simp] theorem at?_setAt (j : Json) (p : List String) (v : Json) :
    (j.setAt p v).at? p = some v := by
  induction p generalizing j with
  | nil => rfl
  | cons k p ih => simp [setAt, at?, field?_withField, ih]

theorem at?_setAt_of_ne {k k' : String} (h : k ≠ k') (j : Json) (p q : List String) (v : Json) :
    (j.setAt (k :: p) v).at? (k' :: q) = j.at? (k' :: q) := by
  simp [setAt, at?, field?_withField, h]

def text? : Json → Option String
  | .str s => some s
  | _ => none

def int? : Json → Option Int
  | .int n => some n
  | _ => none

def bool? : Json → Option Bool
  | .bool b => some b
  | _ => none

def items : Json → List Json
  | .arr l => l
  | _ => []

def textAt? (j : Json) (p : List String) : Option String := (j.at? p).bind text?

def blankAt (j : Json) (p : List String) : Bool :=
  match j.at? p with
  | none | some .null => true
  | _ => false

mutual

/-- Merges a patch into a value: objects merge field by field, a null erases its field, and
anything else replaces what was there. -/
def merge : Json → Json → Json
  | j, .obj l => .obj (mergeFields j.fields l)
  | _, p => p

def mergeFields (j : List (String × Json)) : List (String × Json) → List (String × Json)
  | [] => j
  | (k, .null) :: r => mergeFields (j.filter (·.1 ≠ k)) r
  | (k, p) :: r => mergeFields (put k (merge ((Table.lookup k j).getD .null) p) j) r

end

end Json

end RegistryKeeper
