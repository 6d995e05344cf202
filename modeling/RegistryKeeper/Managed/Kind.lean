import RegistryKeeper.Document.Metadata
import RegistryKeeper.Failure

namespace RegistryKeeper

inductive ManagedKind where
  | serviceAccount
  | role
  | roleBinding
  | deployment
  | service
  deriving DecidableEq, Repr, Inhabited

inductive Drift where
  | leave
  | amend
  | renew
  deriving DecidableEq, Repr

namespace ManagedKind

def all : List ManagedKind := [serviceAccount, role, roleBinding, deployment, service]

def name : ManagedKind → String
  | serviceAccount => "ServiceAccount"
  | role => "Role"
  | roleBinding => "RoleBinding"
  | deployment => "Deployment"
  | service => "Service"

def ofName? (s : String) : Option ManagedKind := all.find? fun k => k.name = s

def apiVersion : ManagedKind → String
  | serviceAccount | service => "v1"
  | role | roleBinding => "rbac.authorization.k8s.io/v1"
  | deployment => "apps/v1"

def drift : ManagedKind → Drift
  | serviceAccount => .leave
  | role | roleBinding | deployment => .amend
  | service => .renew

def contents : ManagedKind → List String
  | serviceAccount => ["automountServiceAccountToken", "imagePullSecrets", "secrets"]
  | role => ["rules"]
  | roleBinding => ["roleRef", "subjects"]
  | deployment | service => ["spec", "status"]

end ManagedKind

namespace Managed

def nameOf (j : Json) : Option String := j.textAt? ["metadata", "name"]

def namespaceOf (j : Json) : Option String := j.textAt? ["metadata", "namespace"]

def versionOf (j : Json) : Option String := j.textAt? ["metadata", "resourceVersion"]

def place (j : Json) : Except Failure (String × String) :=
  match nameOf j, namespaceOf j with
  | none, _ => .error (.missingField ".metadata.name")
  | some _, none => .error (.missingField ".metadata.namespace")
  | some name, some namespace' => .ok (namespace', name)

def readConstant (s : String) : Json.Reader Unit :=
  Json.readTextAs (fun t => if t = s then .ok () else .error (.invalidValue (.text t) s))
    "a string"

def readPort : Json.Reader Unit
  | .obj l => Json.checkFields [("port", Json.fits (Json.readOption (Json.readInt 32)))] l
  | j => j.misfitRecord "ServicePort"

def readServiceSpec : Json.Reader Unit
  | .obj l =>
      Json.checkFields
        [("clusterIP", Json.fits (Json.readOption Json.readText)),
          ("ports", Json.fits (Json.readOption (Json.readList readPort)))] l
  | j => j.misfitRecord "ServiceSpec"

def readAny : Json.Reader Unit := fun _ => .ok ()

def known (k : ManagedKind) : List (String × Json.Reader Unit) :=
  [("apiVersion", readConstant k.apiVersion), ("kind", readConstant k.name),
    ("metadata", Json.fits (Json.readOption Metadata.ofJson)),
    ("spec", if k = .service then Json.fits (Json.readOption readServiceSpec) else readAny)]

def emptyRoleRef : Json :=
  Json.object [("apiGroup", .str ""), ("kind", .str ""), ("name", .str "")]

/-- A document of the kind. Only its metadata, API version and kind are read by type, and of a Service
the address and the ports; the other contents are taken as they are, as well typed. The metadata is
written back as read, API version and kind are always written, and beside these the document has the
fields of the kind that are not null. -/
def ofJson (k : ManagedKind) : Json.Reader Json
  | .obj l => do
      Json.checkFields (known k) l
      let metadata := (← Json.optional Metadata.ofJson l "metadata").getD .empty
      let rest := l.filter fun e => e.1 ∈ k.contents ∧ e.2 ≠ .null
      let rest :=
        if k = .roleBinding ∧ (Table.lookup "roleRef" rest).isNone then
          Json.put "roleRef" emptyRoleRef rest
        else rest
      return Json.object
        (("apiVersion", .str k.apiVersion) :: ("kind", .str k.name)
          :: ("metadata", metadata.toJson) :: rest)
  | j => j.misfitRecord k.name

def copyField (k : String) (source j : Json) : Json :=
  match source.field? k with
  | some v => j.withField k v
  | none => j.withoutField k

/-- The object with the owned fields of the desired one. A Deployment keeps its own spec but for
the pod template, and takes the whole spec if it has none. -/
def amend (k : ManagedKind) (live desired : Json) : Json :=
  match k with
  | .role => copyField "rules" desired live
  | .roleBinding => copyField "subjects" desired (copyField "roleRef" desired live)
  | .deployment =>
      match desired.field? "spec" with
      | none => live
      | some spec =>
          match live.field? "spec" with
          | none => live.withField "spec" spec
          | some own =>
              live.withField "spec"
                (own.withField "template" ((spec.field? "template").getD (.obj [])))
  | .serviceAccount | .service => live

end Managed

end RegistryKeeper
