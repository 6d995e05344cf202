import RegistryKeeper.CommandLine.Options

namespace RegistryKeeper

def programName : String := "appregistry-operator"

def programVersion : String := "0.1.0"

namespace Argument

def purpose : Argument → String
  | registryImage => "Image running the appregistry-server binary"
  | metricsAddress => "Metrics server address"
  | healthAddress => "Health probe address"
  | .namespace => "Namespace to watch (empty for cluster-wide)"
  | logLevel => "Log level (trace, debug, info, warn, error)"
  | logJson => "Enable JSON log format"
  | printDefinitions => "Print CRD YAML and exit"
  | help => "Print help"
  | version => "Print version"

def standardText : Argument → Option String
  | registryImage => some Options.standard.registryImage
  | metricsAddress => some Options.standard.metricsAddress.text
  | healthAddress => some Options.standard.healthAddress.text
  | .namespace => some Options.standard.namespace
  | logLevel => some Options.standard.logLevel.name.toLower
  | logJson | printDefinitions | help | version => none

def shownStandard (value : String) : String := if value = "" then Text.quoted value else value

def helpIndent : String := "          "

def indented (text : String) : String :=
  String.join (text.toList.map fun c =>
    if c = '\n' then String.singleton c ++ helpIndent else String.singleton c)

def helpTitle (a : Argument) : String :=
  let letter := match a.letter? with
    | some c => "  " ++ Terminal.emphasised ("-" ++ String.singleton c) ++ ", "
    | none => "      "
  letter ++ Terminal.emphasised ("--" ++ a.name) ++ a.valueText

def helpLines (environment : String → Option String) (a : Argument) : List String :=
  let source := (a.environmentName?.map fun name =>
    " [env: " ++ name ++ "=" ++ (environment name).getD "" ++ "]").getD ""
  let standard := (a.standardText.map fun value =>
    " [default: " ++ shownStandard value ++ "]").getD ""
  [a.helpTitle, helpIndent ++ indented (a.purpose ++ source ++ standard)]

end Argument

def helpText (environment : String → Option String) : String :=
  String.join
    ((["Kubernetes operator serving package registries over gRPC", "",
        "Usage: " ++ programName ++ " [OPTIONS]", "", "Options:"]
      ++ Argument.all.flatMap (Argument.helpLines environment)).map (· ++ "\n"))

def versionText : String := programName ++ " " ++ programVersion ++ "\n"

end RegistryKeeper
