import RegistryKeeper.Document.Definition
import RegistryKeeper.Proofs.Paths

namespace RegistryKeeper

namespace Json

/-- What a schema may call the type of a value. An integer, as OpenAPI has it, is a number without a
fraction or an exponent part. -/
def typeNames : Json → List String
  | .null => []
  | .bool _ => ["boolean"]
  | .int _ => ["integer", "number"]
  | .real _ => ["number"]
  | .str _ => ["string"]
  | .arr _ => ["array"]
  | .obj _ => ["object"]

def isNull : Json → Bool
  | .null => true
  | _ => false

def fitsType (schema v : Json) : Bool :=
  (schema.field? "type").all (fun t => t.text?.any (· ∈ v.typeNames)) ||
    v.isNull && schema.field? "nullable" = some (.bool true)

def fitsEnum (schema v : Json) : Bool := (schema.field? "enum").all fun l => v ∈ l.items

def isBetween (schema : Json) (least most : String) (n : Nat) : Bool :=
  ((schema.field? least).bind int?).all (· ≤ (n : Int)) &&
    ((schema.field? most).bind int?).all ((n : Int) ≤ ·)

def fitsBounds (schema : Json) : Json → Bool
  | .str s => schema.isBetween "minLength" "maxLength" s.length
  | .arr l => schema.isBetween "minItems" "maxItems" l.length
  | .int n =>
      schema.field? "format" ≠ some (.str "int64") ||
        -(Nat.pow 2 63 : Int) ≤ n && n < (Nat.pow 2 63 : Int)
  | _ => true

def fitsRequired (schema : Json) : Json → Bool
  | .obj l => (schema.field? "required").all fun names =>
      names.items.all fun k => k.text?.all (· ∈ l.map (·.1))
  | _ => true

def fitsAlone (schema v : Json) : Bool :=
  schema.fitsType v && schema.fitsEnum v && schema.fitsBounds v && schema.fitsRequired v

mutual

def satisfies : Json → Json → Bool
  | schema, .arr l => schema.fitsAlone (.arr l) && itemsSatisfy (schema.field? "items") l
  | schema, .obj l =>
      schema.fitsAlone (.obj l) && fieldsSatisfy ((schema.field? "properties").getD .null) l
  | schema, v => schema.fitsAlone v

def itemsSatisfy : Option Json → List Json → Bool
  | _, [] => true
  | items, v :: r => items.all (fun schema => satisfies schema v) && itemsSatisfy items r

def fieldsSatisfy : Json → List (String × Json) → Bool
  | _, [] => true
  | properties, (k, v) :: r =>
      (properties.field? k).all (fun schema => satisfies schema v) && fieldsSatisfy properties r

end

end Json

namespace Schema
open Json

def note : Schema → Note
  | .text note _ _ | .wholeNumber note | .list note _ _ _ | .record note _ _ _ => note

def entries : Schema → List (String × Option Json)
  | .text note length oneOf =>
      keywords note "string" ++ bounds "minLength" "maxLength" length ++ [unlessEmpty "enum" oneOf]
  | .wholeNumber note => keywords note "integer" ++ [("format", some (.str "int64"))]
  | .list note items count otherwise =>
      keywords note "array" ++ bounds "minItems" "maxItems" count ++
        [("items", some (toJson items)), ("default", otherwise)]
  | .record note fields required title =>
      keywords note "object" ++
        [("properties", some (Json.object (fieldsJson fields))), unlessEmpty "required" required,
          ("title", title.map .str)]

section
variable (s : Schema) (v : Json)

end

section
variable {note : Note} {v : Json}

end

end Schema

end RegistryKeeper
