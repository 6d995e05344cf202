import RegistryKeeper.CommandLine.Address
import RegistryKeeper.CommandLine.LogLevel
import RegistryKeeper.CommandLine.Terminal

namespace RegistryKeeper

structure Options where
  registryImage : String
  metricsAddress : SocketAddress
  healthAddress : SocketAddress
  «namespace» : String
  logLevel : LogLevel
  logJson : Bool
  printDefinitions : Bool
  deriving DecidableEq, Repr, Inhabited

def Options.standard : Options where
  registryImage := "quay.io/appregistry/registry-server:latest"
  metricsAddress := ⟨.v4 0 0 0 0, 8080, 0⟩
  healthAddress := ⟨.v4 0 0 0 0, 8081, 0⟩
  «namespace» := ""
  logLevel := .info
  logJson := false
  printDefinitions := false

inductive Argument where
  | registryImage
  | metricsAddress
  | healthAddress
  | namespace
  | logLevel
  | logJson
  | printDefinitions
  | help
  | version
  deriving DecidableEq, Repr

namespace Argument

def all : List Argument :=
  [registryImage, metricsAddress, healthAddress, .namespace, logLevel, logJson, printDefinitions,
    help, version]

def name : Argument → String
  | registryImage => "registry-image"
  | metricsAddress => "metrics-addr"
  | healthAddress => "health-addr"
  | .namespace => "namespace"
  | logLevel => "log-level"
  | logJson => "log-json"
  | printDefinitions => "print-crd"
  | help => "help"
  | version => "version"

def ofName? (s : String) : Option Argument := all.find? fun a => a.name = s

def letter? : Argument → Option Char
  | help => some 'h'
  | version => some 'V'
  | _ => none

def ofLetter? (c : Char) : Option Argument := all.find? fun a => a.letter? = some c

def takesValue : Argument → Bool
  | registryImage | metricsAddress | healthAddress | .namespace | logLevel => true
  | logJson | printDefinitions | help | version => false

def environmentName? : Argument → Option String
  | registryImage => some "REGISTRY_SERVER_IMAGE"
  | metricsAddress => some "METRICS_ADDR"
  | healthAddress => some "HEALTH_ADDR"
  | .namespace => some "WATCH_NAMESPACE"
  | logLevel => some "LOG_LEVEL"
  | logJson => some "LOG_JSON"
  | printDefinitions | help | version => none

def valueName (a : Argument) : String :=
  String.ofList (a.name.toList.map fun c => if c = '-' then '_' else c.toUpper)

def valueText (a : Argument) : String := if a.takesValue then " <" ++ a.valueName ++ ">" else ""

def usage (a : Argument) : String := "--" ++ a.name ++ a.valueText

end Argument

inductive Stop where
  | help
  | version
  | unknownArgument (text : String)
  | missingValue (a : Argument)
  | impossibleValue (a : Argument) (value : String)
  | invalidValue (a : Argument) (value : String)
  | unexpectedValue (a : Argument) (value : String)
  | repeated (a : Argument)
  deriving DecidableEq, Repr

namespace Stop

def exitCode : Stop → Nat
  | help | version => 0
  | _ => 2

def reason : Argument → String
  | .metricsAddress | .healthAddress => "invalid socket address syntax"
  | .logLevel =>
      "error parsing level: expected one of \"error\", \"warn\", \"info\", \"debug\", "
        ++ "\"trace\", or a number 1-5"
  | _ => ""

def message : Stop → Option String
  | help | version => none
  | unknownArgument text => some ("error: unexpected argument " ++ given text ++ " found")
  | missingValue a | impossibleValue a "" =>
      some ("error: a value is required for '" ++ a.usage ++ "' but none was supplied")
  | impossibleValue a value =>
      some ("error: invalid value " ++ given value ++ " for '" ++ a.usage ++ "'")
  | invalidValue a value =>
      some ("error: invalid value " ++ given value ++ " for '" ++ a.usage ++ "': " ++ reason a)
  | unexpectedValue a value =>
      some ("error: unexpected value " ++ given value ++ " for '" ++ a.usage
        ++ "' found; no more were expected")
  | repeated a =>
      some ("error: the argument '" ++ a.usage ++ "' cannot be used multiple times")
where
  given (text : String) : String := "'" ++ Terminal.emphasised text ++ "'"

end Stop

structure Given where
  registryImage : Option String
  metricsAddress : Option SocketAddress
  healthAddress : Option SocketAddress
  «namespace» : Option String
  logLevel : Option LogLevel
  logJson : Option Bool
  printDefinitions : Option Bool
  deriving DecidableEq, Repr

namespace Given

def nothing : Given := ⟨none, none, none, none, none, none, none⟩

def has (g : Given) : Argument → Bool
  | .registryImage => g.registryImage.isSome
  | .metricsAddress => g.metricsAddress.isSome
  | .healthAddress => g.healthAddress.isSome
  | .namespace => g.namespace.isSome
  | .logLevel => g.logLevel.isSome
  | .logJson => g.logJson.isSome
  | .printDefinitions => g.printDefinitions.isSome
  | .help | .version => false

def readValue {α : Type} (a : Argument) (read : String → Option α) (value : String) :
    Except Stop (Option α) :=
  match read value with
  | some x => .ok (some x)
  | none => .error (.invalidValue a value)

def readSwitch (a : Argument) : String → Except Stop (Option Bool)
  | "true" => .ok (some true)
  | "false" => .ok (some false)
  | value => .error (.impossibleValue a value)

def assign (g : Given) (a : Argument) (value : String) : Except Stop Given :=
  match a with
  | .registryImage => .ok { g with registryImage := some value }
  | .metricsAddress => do
      return { g with metricsAddress := ← readValue a SocketAddress.ofText? value }
  | .healthAddress => do
      return { g with healthAddress := ← readValue a SocketAddress.ofText? value }
  | .namespace => .ok { g with «namespace» := some value }
  | .logLevel => do return { g with logLevel := ← readValue a LogLevel.ofText? value }
  | .logJson => do return { g with logJson := ← readSwitch a value }
  | .printDefinitions => do return { g with printDefinitions := ← readSwitch a value }
  | .help => .error .help
  | .version => .error .version

def accept (g : Given) (a : Argument) (value : String) : Except Stop Given :=
  if g.has a then .error (.repeated a) else g.assign a value

def complete (environment : String → Option String) (g : Given) :
    List Argument → Except Stop Given
  | [] => .ok g
  | a :: r => do
      match if g.has a then none else a.environmentName?.bind environment with
      | some value => complete environment (← g.assign a value) r
      | none => complete environment g r

def toOptions (g : Given) : Options where
  registryImage := g.registryImage.getD Options.standard.registryImage
  metricsAddress := g.metricsAddress.getD Options.standard.metricsAddress
  healthAddress := g.healthAddress.getD Options.standard.healthAddress
  «namespace» := g.namespace.getD Options.standard.namespace
  logLevel := g.logLevel.getD Options.standard.logLevel
  logJson := g.logJson.getD Options.standard.logJson
  printDefinitions := g.printDefinitions.getD Options.standard.printDefinitions

end Given

inductive Pending where
  | none
  | awaits (a : Argument)
  | holds (a : Argument) (value : String)
  deriving DecidableEq, Repr

def Pending.settle (g : Given) : Pending → Except Stop Given
  | .none => .ok g
  | .awaits a => .error (.missingValue a)
  | .holds a value => g.accept a value

inductive Token where
  | rest
  | long (name : String) (value : Option String)
  | short (letters : List Char)
  | plain
  deriving DecidableEq, Repr

def Token.ofText (s : String) : Token :=
  match s.toList with
  | ['-', '-'] => .rest
  | '-' :: '-' :: r =>
      let name := String.ofList (r.takeWhile (· ≠ '='))
      match r.dropWhile (· ≠ '=') with
      | [] => .long name none
      | _ :: value => .long name (some (String.ofList value))
  | '-' :: c :: r => .short (c :: r)
  | _ => .plain

def switchOn (g : Given) (p : Pending) (a : Argument) : Except Stop Given := do
  (← p.settle g).accept a "true"

namespace Options

def readArguments (g : Given) (p : Pending) : List String → Except Stop Given
  | [] => p.settle g
  | word :: words =>
      match Token.ofText word with
      | .rest =>
          match words with
          | [] => p.settle g
          | next :: _ => .error (.unknownArgument next)
      | .long name value =>
          match Argument.ofName? name with
          | none => .error (.unknownArgument ("--" ++ name))
          | some a =>
              if a.takesValue then do
                let g ← p.settle g
                match value with
                | none => readArguments g (.awaits a) words
                | some v => readArguments (← g.accept a v) .none words
              else
                match value with
                | none => do readArguments (← switchOn g p a) .none words
                | some v => .error (.unexpectedValue a v)
      | .short [] => .error (.unknownArgument word)
      | .short (c :: _) =>
          match Argument.ofLetter? c with
          | none => .error (.unknownArgument ("-" ++ String.singleton c))
          | some a => do readArguments (← switchOn g p a) .none words
      | .plain =>
          match p with
          | .awaits a => readArguments g (.holds a word) words
          | .none | .holds .. => .error (.unknownArgument word)

def read (arguments : List String) (environment : String → Option String) :
    Except Stop Options := do
  let g ← readArguments .nothing .none arguments
  return (← g.complete environment Argument.all).toOptions

end Options

end RegistryKeeper
