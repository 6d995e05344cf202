import RegistryKeeper.Json.Printer

/-!
Reading typed values from JSON, and the ways in which a value can fail to fit its type.

The fields of a record are looked at in the order in which they stand, so the first misfit there
is the one reported; a missing field is reported only when all fields that are present fit, in the
order of the declaration. Unknown fields are passed over. A record may also be a list of its
fields in declared order.

A value mostly comes out of a text, so what stops its reading says how much of that text was read.
-/

namespace RegistryKeeper

inductive Found where
  | null
  | bool (b : Bool)
  | int (n : Int)
  | real (d : Decimal)
  | text (s : String)
  | list
  | map
  deriving DecidableEq, Repr

def Found.describe : Found → String
  | .null => "null"
  | .bool true => "boolean `true`"
  | .bool false => "boolean `false`"
  | .int n => "integer `" ++ toString n ++ "`"
  | .real d => "floating point `" ++ d.text ++ "`"
  | .text s => "string " ++ Text.quoted s
  | .list => "sequence"
  | .map => "map"

inductive Misfit where
  | missingField (name : String)
  | invalidType (found : Found) (expected : String)
  | invalidValue (found : Found) (expected : String)
  | unknownVariant (name : String) (known : List String)
  | invalidLength (length : Nat) (expected : String)
  | unreadableText (reason : String)
  | noValue
  | trailing
  deriving DecidableEq, Repr

def Misfit.message : Misfit → String
  | .missingField name => "missing field `" ++ name ++ "`"
  | .invalidType found expected =>
      "invalid type: " ++ found.describe ++ ", expected " ++ expected
  | .invalidValue found expected =>
      "invalid value: " ++ found.describe ++ ", expected " ++ expected
  | .unknownVariant name known =>
      "unknown variant `" ++ name ++ "`, expected one of "
        ++ ", ".intercalate (known.map fun k => "`" ++ k ++ "`")
  | .invalidLength length expected =>
      "invalid length " ++ toString length ++ ", expected " ++ expected
  | .unreadableText reason => reason
  | .noValue => "expected value"
  | .trailing => "trailing characters"

/-- What stopped the reading of a value: its misfit, the misfit that its text shows, which may be
another one, and the bytes of the text that were read by then. -/
structure Snag where
  misfit : Misfit
  written : Misfit
  read : Nat
  deriving DecidableEq, Repr

namespace Snag

def of (m : Misfit) (read : Nat) : Snag := ⟨m, m, read⟩

def after (s : Snag) (n : Nat) : Snag := { s with read := n + s.read }

@[simp] theorem after_after (s : Snag) (m n : Nat) : (s.after m).after n = s.after (n + m) := by
  simp [after, Nat.add_assoc]

@[simp] theorem misfit_after (s : Snag) (n : Nat) : (s.after n).misfit = s.misfit := rfl

def message (s : Snag) : String :=
  s.written.message ++ " at line 1 column " ++ toString s.read

end Snag

namespace Json

def found : Json → Found
  | .null => .null
  | .bool b => .bool b
  | .int n => .int n
  | .real d => .real d
  | .str s => .text s
  | .arr _ => .list
  | .obj _ => .map

abbrev Reader (α : Type) := Json → Except Snag α

/-- Bytes read of a value of the wrong type: of a list or an object none. -/
def readOfMisfit : Json → Nat
  | .arr _ | .obj _ => 0
  | j => j.size

def misfit {α : Type} (j : Json) (expected : String) : Except Snag α :=
  .error (.of (.invalidType j.found expected) j.readOfMisfit)

def misfitRecord {α : Type} (j : Json) (expected : String) : Except Snag α :=
  let read := match j with
    | .arr [] => 2
    | .arr _ => 1
    | j => j.readOfMisfit
  .error (.of (.invalidType j.found expected) read)

def readText : Reader String
  | .str s => .ok s
  | j => j.misfit "a string"

def interpret {α : Type} (f : String → Except Misfit α) (s : String) : Except Snag α :=
  (f s).mapError fun m => .of m (size (.str s))

def readTextAs {α : Type} (f : String → Except Misfit α) (expected : String) : Reader α
  | .str s => interpret f s
  | j => j.misfit expected

def readBool : Reader Bool
  | .bool b => .ok b
  | j => j.misfit "a boolean"

def readInt (bits : Nat) : Reader Int
  | .int n =>
      if -(Nat.pow 2 (bits - 1) : Int) ≤ n ∧ n < (Nat.pow 2 (bits - 1) : Int) then .ok n
      else .error (.of (.invalidValue (.int n) ("i" ++ toString bits)) (size (.int n)))
  | j => j.misfit ("i" ++ toString bits)

def readEach {α : Type} (f : Reader α) : List Json → Except Snag (List α)
  | [] => .ok []
  | j :: r => do
      let x ← (f j).mapError (·.after 1)
      return x :: (← (readEach f r).mapError (·.after (1 + j.size)))

def readList {α : Type} (f : Reader α) : Reader (List α)
  | .arr l => readEach f l
  | j => j.misfit "a sequence"

def readValues {α : Type} (f : Reader α) :
    List (String × Json) → Except Snag (List (String × α))
  | [] => .ok []
  | (k, j) :: r => do
      let x ← (f j).mapError (·.after (1 + keySize k))
      return (k, x) :: (← (readValues f r).mapError (·.after (1 + keySize k + j.size)))

def readMap {α : Type} (f : Reader α) : Reader (List (String × α))
  | .obj l => readValues f l
  | j => j.misfit "a map"

def readOption {α : Type} (f : Reader α) : Reader (Option α)
  | .null => .ok none
  | j => some <$> f j

def fits {α : Type} (f : Reader α) : Reader Unit := fun j => do
  let _ ← f j

def checkFields (known : List (String × Reader Unit)) : List (String × Json) → Except Snag Unit
  | [] => .ok ()
  | (k, j) :: r => do
      match Table.lookup k known with
      | some f => (f j).mapError (·.after (1 + keySize k))
      | none => .ok ()
      (checkFields known r).mapError (·.after (1 + keySize k + j.size))

def readField {α : Type} (f : Reader α) (k : String) :
    List (String × Json) → Except Snag (Option α)
  | [] => .ok none
  | (k', j) :: r =>
      if k' = k then some <$> (f j).mapError (·.after (1 + keySize k))
      else (readField f k r).mapError (·.after (1 + keySize k' + j.size))

def required {α : Type} (f : Reader α) (fields : List (String × Json)) (k : String) :
    Except Snag α := do
  match ← readField f k fields with
  | some a => return a
  | none => throw (.of (.missingField k) (size (.obj fields)))

def optional {α : Type} (f : Reader α) (fields : List (String × Json)) (k : String) :
    Except Snag (Option α) :=
  (·.join) <$> readField (readOption f) k fields

def sizeThrough : List Json → Nat
  | [] => 0
  | j :: r => 1 + j.size + sizeThrough r

def item {α : Type} (f : Reader α) (record : String) (l : List Json) (i : Nat) : Except Snag α :=
  match l[i]? with
  | some j => (f j).mapError (·.after (sizeThrough (l.take i) + 1))
  | none => .error (.of (.invalidLength i record) (size (.arr l)))

def atMost (n : Nat) (l : List Json) : Except Snag Unit :=
  if l.length ≤ n then .ok ()
  else
    .error
      ⟨.invalidLength l.length "fewer elements in array", .trailing, sizeThrough (l.take n) + 2⟩

end Json

end RegistryKeeper
