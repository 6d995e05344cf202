import RegistryKeeper.CommandLine.Help
import RegistryKeeper.CommandLine.LogFilter
import RegistryKeeper.Document.Definition
import RegistryKeeper.Json.Printer
import RegistryKeeper.Json.Yaml

namespace RegistryKeeper

def definitionsText : String :=
  PackageRegistry.definition.toJson.yaml ++ "---\n" ++ PackageSource.definition.toJson.yaml ++ "\n"

structure Announcement where
  «namespace» : String
  image : String
  deriving DecidableEq, Repr

namespace Announcement

def ofOptions (o : Options) : Announcement :=
  ⟨if o.namespace = "" then "all" else o.namespace, o.registryImage⟩

def target : String := "appregistry_operator"

def message : String := "Starting AppRegistry Kubernetes Operator"

def point : LogPoint := ⟨.info, target, ["message", "version", "namespace", "image"]⟩

def text (a : Announcement) : String :=
  point.level.name ++ " " ++ target ++ ": " ++ message ++ " version=" ++ Text.quoted programVersion
    ++ " namespace=" ++ Text.quoted a.namespace ++ " image=" ++ a.image

def json (a : Announcement) : Json :=
  Json.object
    [("level", .str point.level.name), ("target", .str target),
      ("fields", Json.object
        [("message", .str message), ("version", .str programVersion),
          ("namespace", .str a.namespace), ("image", .str a.image)])]

end Announcement

inductive Launch where
  | stopped (reason : Stop)
  | definitions
  | brokenDown
  | announced (o : Options) (line : Option Announcement)
  deriving DecidableEq, Repr

namespace Launch

def of (arguments : List String) (environment : String → Option String) : Launch :=
  match Options.read arguments environment with
  | .error reason => .stopped reason
  | .ok o =>
      if o.printDefinitions then .definitions
      else
        match LogFilter.choose (environment "RUST_LOG") o.logLevel with
        | none => .brokenDown
        | some filter =>
            .announced o
              (if filter.allows Announcement.point then some (.ofOptions o) else none)

def noCluster : String := "Error: Failed to create Kubernetes client"

def exitCode : Launch → Nat
  | stopped reason => reason.exitCode
  | definitions => 0
  | announced .. => 1
  | brokenDown => 101

def output (environment : String → Option String) : Launch → String
  | stopped .help => Terminal.plain (helpText environment)
  | stopped .version => versionText
  | definitions => definitionsText
  | stopped _ | announced .. | brokenDown => ""

def report : Launch → Option String
  | stopped reason => reason.message.map fun text => Terminal.firstLine (Terminal.plain text)
  | definitions => none
  | announced .. => some noCluster
  | brokenDown => some ""

end Launch

end RegistryKeeper
