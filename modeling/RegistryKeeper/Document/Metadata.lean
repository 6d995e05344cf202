import RegistryKeeper.Json.Shape
import RegistryKeeper.Time.Lenient

namespace RegistryKeeper

structure OwnerReference where
  apiVersion : String
  kind : String
  name : String
  uid : String
  controller : Option Bool
  blockOwnerDeletion : Option Bool
  deriving DecidableEq, Repr, Inhabited

structure FieldsEntry where
  apiVersion : Option String
  fieldsType : Option String
  fields : Option Json
  manager : Option String
  operation : Option String
  subresource : Option String
  time : Option String
  deriving DecidableEq, Repr, Inhabited

structure Metadata where
  annotations : Option (List (String × String))
  creationTimestamp : Option String
  deletionGracePeriodSeconds : Option Int
  deletionTimestamp : Option String
  finalizers : Option (List String)
  generateName : Option String
  generation : Option Int
  labels : Option (List (String × String))
  managedFields : Option (List FieldsEntry)
  name : Option String
  «namespace» : Option String
  ownerReferences : Option (List OwnerReference)
  resourceVersion : Option String
  selfLink : Option String
  uid : Option String
  deriving DecidableEq, Repr

namespace OwnerReference

def ofJson : Json.Reader OwnerReference
  | .obj l => do
      Json.checkFields
        [("apiVersion", field Json.readText), ("blockOwnerDeletion", field Json.readBool),
          ("controller", field Json.readBool), ("kind", field Json.readText),
          ("name", field Json.readText), ("uid", field Json.readText)] l
      return ⟨(← Json.optional Json.readText l "apiVersion").getD "",
        (← Json.optional Json.readText l "kind").getD "",
        (← Json.optional Json.readText l "name").getD "",
        (← Json.optional Json.readText l "uid").getD "",
        ← Json.optional Json.readBool l "controller",
        ← Json.optional Json.readBool l "blockOwnerDeletion"⟩
  | j => j.misfitRecord "OwnerReference"
where
  field {α : Type} (f : Json.Reader α) : Json.Reader Unit := Json.fits (Json.readOption f)

def toJson (r : OwnerReference) : Json :=
  Json.present
    [("apiVersion", some (.str r.apiVersion)),
      ("blockOwnerDeletion", r.blockOwnerDeletion.map .bool),
      ("controller", r.controller.map .bool), ("kind", some (.str r.kind)),
      ("name", some (.str r.name)), ("uid", some (.str r.uid))]

end OwnerReference

def readTime : Json.Reader String :=
  Json.readTextAs
    (fun s => match Lenient.instant s with
      | .ok t => .ok t.secondsText
      | .error e => .error (.unreadableText e.message))
    "an RFC 3339 formatted date and time string"

namespace FieldsEntry

def readFields : Json.Reader Json := .ok

def ofJson : Json.Reader FieldsEntry
  | .obj l => do
      Json.checkFields
        [("apiVersion", field Json.readText), ("fieldsType", field Json.readText),
          ("manager", field Json.readText), ("operation", field Json.readText),
          ("subresource", field Json.readText), ("time", field readTime)] l
      return ⟨← Json.optional Json.readText l "apiVersion",
        ← Json.optional Json.readText l "fieldsType",
        ← Json.optional readFields l "fieldsV1",
        ← Json.optional Json.readText l "manager",
        ← Json.optional Json.readText l "operation",
        ← Json.optional Json.readText l "subresource",
        ← Json.optional readTime l "time"⟩
  | j => j.misfitRecord "ManagedFieldsEntry"
where
  field (f : Json.Reader String) : Json.Reader Unit := Json.fits (Json.readOption f)

def toJson (e : FieldsEntry) : Json :=
  Json.present
    [("apiVersion", e.apiVersion.map .str), ("fieldsType", e.fieldsType.map .str),
      ("fieldsV1", e.fields), ("manager", e.manager.map .str),
      ("operation", e.operation.map .str), ("subresource", e.subresource.map .str),
      ("time", e.time.map .str)]

end FieldsEntry

namespace Metadata

def empty : Metadata :=
  ⟨none, none, none, none, none, none, none, none, none, none, none, none, none, none, none⟩

instance : Inhabited Metadata := ⟨empty⟩

def known : List (String × Json.Reader Unit) :=
  [("annotations", field (Json.readMap Json.readText)),
    ("creationTimestamp", field readTime),
    ("deletionGracePeriodSeconds", field (Json.readInt 64)),
    ("deletionTimestamp", field readTime),
    ("finalizers", field (Json.readList Json.readText)),
    ("generateName", field Json.readText),
    ("generation", field (Json.readInt 64)),
    ("labels", field (Json.readMap Json.readText)),
    ("managedFields", field (Json.readList FieldsEntry.ofJson)),
    ("name", field Json.readText),
    ("namespace", field Json.readText),
    ("ownerReferences", field (Json.readList OwnerReference.ofJson)),
    ("resourceVersion", field Json.readText),
    ("selfLink", field Json.readText),
    ("uid", field Json.readText)]
where
  field {α : Type} (f : Json.Reader α) : Json.Reader Unit := Json.fits (Json.readOption f)

def ofJson : Json.Reader Metadata
  | .obj l => do
      Json.checkFields known l
      return ⟨← Json.optional (Json.readMap Json.readText) l "annotations",
        ← Json.optional readTime l "creationTimestamp",
        ← Json.optional (Json.readInt 64) l "deletionGracePeriodSeconds",
        ← Json.optional readTime l "deletionTimestamp",
        ← Json.optional (Json.readList Json.readText) l "finalizers",
        ← Json.optional Json.readText l "generateName",
        ← Json.optional (Json.readInt 64) l "generation",
        ← Json.optional (Json.readMap Json.readText) l "labels",
        ← Json.optional (Json.readList FieldsEntry.ofJson) l "managedFields",
        ← Json.optional Json.readText l "name",
        ← Json.optional Json.readText l "namespace",
        ← Json.optional (Json.readList OwnerReference.ofJson) l "ownerReferences",
        ← Json.optional Json.readText l "resourceVersion",
        ← Json.optional Json.readText l "selfLink",
        ← Json.optional Json.readText l "uid"⟩
  | j => j.misfitRecord "ObjectMeta"

def toJson (m : Metadata) : Json :=
  Json.present
    [("annotations", m.annotations.map Json.stringMap),
      ("creationTimestamp", m.creationTimestamp.map .str),
      ("deletionGracePeriodSeconds", m.deletionGracePeriodSeconds.map .int),
      ("deletionTimestamp", m.deletionTimestamp.map .str),
      ("finalizers", m.finalizers.map Json.strings),
      ("generateName", m.generateName.map .str),
      ("generation", m.generation.map .int),
      ("labels", m.labels.map Json.stringMap),
      ("managedFields", m.managedFields.map fun l => .arr (l.map FieldsEntry.toJson)),
      ("name", m.name.map .str),
      ("namespace", m.namespace.map .str),
      ("ownerReferences", m.ownerReferences.map fun l => .arr (l.map OwnerReference.toJson)),
      ("resourceVersion", m.resourceVersion.map .str),
      ("selfLink", m.selfLink.map .str),
      ("uid", m.uid.map .str)]

def anyName (m : Metadata) : String := (m.name.or m.generateName).getD ""

end Metadata

end RegistryKeeper
