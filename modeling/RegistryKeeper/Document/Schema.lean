import RegistryKeeper.Json.Basic

namespace RegistryKeeper

structure Note where
  description : Option String
  nullable : Bool
  deriving DecidableEq, Repr

inductive Schema where
  | text (note : Note) (length : Option (Nat × Nat)) (oneOf : List String)
  | wholeNumber (note : Note)
  | list (note : Note) (items : Schema) (count : Option (Nat × Nat)) (otherwise : Option Json)
  | record (note : Note) (fields : List (String × Schema)) (required : List String)
      (title : Option String)
  deriving Repr

def Note.none : Note := ⟨.none, false⟩

def Note.of (description : String) : Note := ⟨some description, false⟩

def Note.optional (description : String) : Note := ⟨some description, true⟩

namespace Schema

def keywords (note : Note) (type : String) : List (String × Option Json) :=
  [("description", note.description.map .str),
    ("nullable", if note.nullable then some (.bool true) else none), ("type", some (.str type))]

def bounds (least most : String) (range : Option (Nat × Nat)) : List (String × Option Json) :=
  [(least, range.map fun r => .int r.1), (most, range.map fun r => .int r.2)]

def unlessEmpty (k : String) (l : List String) : String × Option Json :=
  (k, if l.isEmpty then none else some (Json.strings l))

mutual

def toJson : Schema → Json
  | .text note length oneOf =>
      Json.present
        (keywords note "string" ++ bounds "minLength" "maxLength" length
          ++ [unlessEmpty "enum" oneOf])
  | .wholeNumber note =>
      Json.present (keywords note "integer" ++ [("format", some (.str "int64"))])
  | .list note items count otherwise =>
      Json.present
        (keywords note "array" ++ bounds "minItems" "maxItems" count
          ++ [("items", some (toJson items)), ("default", otherwise)])
  | .record note fields required title =>
      Json.present
        (keywords note "object"
          ++ [("properties", some (Json.object (fieldsJson fields))),
            unlessEmpty "required" required, ("title", title.map .str)])

def fieldsJson : List (String × Schema) → List (String × Json)
  | [] => []
  | (k, s) :: r => (k, toJson s) :: fieldsJson r

end

end Schema

end RegistryKeeper
