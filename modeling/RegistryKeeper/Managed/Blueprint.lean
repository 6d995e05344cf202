import RegistryKeeper.Catalog.Resolution
import RegistryKeeper.Managed.Kind

namespace RegistryKeeper

def serverBinary : String := "appregistry-server"

def serverPort : Int := 50051

def portName : String := "grpc"

def podLabels (name : String) : List (String × String) :=
  [("app.kubernetes.io/instance", name), ("app.kubernetes.io/name", serverBinary)]

def objectLabels (name : String) : List (String × String) :=
  ("app.kubernetes.io/managed-by", "appregistry-operator") :: podLabels name

def serverCommand (packages : List String) (sources : List SourceRef) : List String :=
  [serverBinary, "-s", Resolution.text sources, "-o", ",".intercalate packages]

structure PolicyRule where
  verbs : List String
  apiGroups : List String
  resources : List String
  resourceNames : Option (List String)
  deriving DecidableEq, Repr

def PolicyRule.toJson (r : PolicyRule) : Json :=
  Json.present
    [("apiGroups", some (Json.strings r.apiGroups)),
      ("resourceNames", r.resourceNames.map Json.strings),
      ("resources", some (Json.strings r.resources)), ("verbs", some (Json.strings r.verbs))]

/-- Reading the sources, which are named, and the secrets. Without sources there is no rule for
them, since one without names would be a rule for all. -/
def PolicyRule.forSources (sources : List SourceRef) : List PolicyRule :=
  (if sources.isEmpty then []
    else [⟨["get"], [apiGroup], [PackageSource.plural], some (Resolution.names sources)⟩])
  ++ [⟨["get"], [""], ["secrets"], none⟩]

structure Blueprint where
  name : String
  «namespace» : String
  uid : String
  image : String
  deriving DecidableEq, Repr

namespace Blueprint

def ofRegistry (r : PackageRegistry) (image : String) : Except Failure Blueprint :=
  match r.metadata.name, r.metadata.namespace with
  | none, _ => .error (.missingField ".metadata.name")
  | some _, none => .error (.missingField ".metadata.namespace")
  | some name, some namespace' => .ok ⟨name, namespace', r.metadata.uid.getD "", image⟩

def owner (b : Blueprint) : OwnerReference :=
  ⟨RegistryKeeper.apiVersion, PackageRegistry.kind, b.name, b.uid, some true, some true⟩

def metadata (b : Blueprint) : Json :=
  Json.object
    [("labels", Json.stringMap (objectLabels b.name)), ("name", .str b.name),
      ("namespace", .str b.namespace), ("ownerReferences", .arr [b.owner.toJson])]

def document (b : Blueprint) (k : ManagedKind) (contents : List (String × Json)) : Json :=
  Json.object
    (("apiVersion", .str k.apiVersion) :: ("kind", .str k.name) :: ("metadata", b.metadata)
      :: contents)

def serviceAccount (b : Blueprint) : Json := b.document .serviceAccount []

def role (b : Blueprint) (sources : List SourceRef) : Json :=
  b.document .role [("rules", .arr ((PolicyRule.forSources sources).map PolicyRule.toJson))]

def roleRef (b : Blueprint) : Json :=
  Json.object
    [("apiGroup", .str "rbac.authorization.k8s.io"), ("kind", .str "Role"),
      ("name", .str b.name)]

def subjects (b : Blueprint) : Json :=
  .arr [Json.object
    [("kind", .str "ServiceAccount"), ("name", .str b.name), ("namespace", .str b.namespace)]]

def roleBinding (b : Blueprint) : Json :=
  b.document .roleBinding [("roleRef", b.roleRef), ("subjects", b.subjects)]

def probe : Json :=
  Json.object
    [("exec", Json.object
        [("command", Json.strings
          ["grpc_health_probe", "-addr=localhost:" ++ toString serverPort])]),
      ("failureThreshold", .int 30), ("initialDelaySeconds", .int 5)]

def container (b : Blueprint) (command : List String) : Json :=
  Json.object
    [("command", Json.strings command), ("image", .str b.image), ("livenessProbe", probe),
      ("name", .str b.name),
      ("ports", .arr [Json.object [("containerPort", .int serverPort), ("name", .str portName)]]),
      ("readinessProbe", probe)]

def podTemplate (b : Blueprint) (command : List String) : Json :=
  Json.object
    [("metadata", Json.object
        [("labels", Json.stringMap (podLabels b.name)), ("name", .str b.name),
          ("namespace", .str b.namespace)]),
      ("spec", Json.object
        [("containers", .arr [b.container command]), ("serviceAccountName", .str b.name)])]

def deployment (b : Blueprint) (command : List String) : Json :=
  b.document .deployment
    [("spec", Json.object
      [("replicas", .int 1),
        ("selector", Json.object [("matchLabels", Json.stringMap (podLabels b.name))]),
        ("template", b.podTemplate command)])]

def service (b : Blueprint) : Json :=
  b.document .service
    [("spec", Json.object
      [("ports", .arr [Json.object
          [("name", .str portName), ("port", .int serverPort), ("targetPort", .int serverPort)]]),
        ("selector", Json.stringMap (podLabels b.name))])]

end Blueprint

def addressOfService (service : Json) : Except Failure String :=
  match service.field? "spec" with
  | none => .error (.reconcileFailed "Service has no spec")
  | some spec =>
      match (spec.textAt? ["clusterIP"]).filter fun a => a ≠ "" ∧ a ≠ "None" with
      | none => .error (.reconcileFailed "Service has no cluster IP assigned")
      | some address =>
          match ((spec.field? "ports").getD .null).items with
          | [] => .error (.reconcileFailed "Service exposes no port")
          | port :: _ =>
              .ok (address ++ ":" ++ toString (((port.field? "port").bind Json.int?).getD 0))

end RegistryKeeper
