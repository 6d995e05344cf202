import RegistryKeeper.Document.PackageSource
import RegistryKeeper.Text.Expression

namespace RegistryKeeper

inductive Defect where
  | packageCount
  | packageIdLength
  | packageIdForm (id : String)
  | endpointForm (url : String)
  | registryNamespaceLength
  deriving DecidableEq, Repr

namespace Defect

def field : Defect → String
  | .packageCount | .packageIdLength | .packageIdForm _ => "packages"
  | .endpointForm _ => "endpoint"
  | .registryNamespaceLength => "registry_namespace"

def code : Defect → String
  | .packageCount | .registryNamespaceLength => "length"
  | .packageIdLength | .packageIdForm _ => "invalid_package_id"
  | .endpointForm _ => "invalid_endpoint"

def message : Defect → String
  | .packageCount => "packages must have 1-256 entries"
  | .packageIdLength => "package id must be 1-253 characters"
  | .packageIdForm id => "'" ++ id ++ "' is not a valid package id"
  | .endpointForm url => "'" ++ url ++ "' must be an http(s) URL"
  | .registryNamespaceLength => "registryNamespace must be 1-253 characters"

def bounds : Defect → Option (Nat × Nat)
  | .packageCount => some (1, 256)
  | .registryNamespaceLength => some (1, 253)
  | _ => none

end Defect

def defectSummary (defects : List Defect) : String :=
  "; ".intercalate
    (defects.map fun d => d.field ++ ": Some(" ++ Text.quoted d.message ++ ")")

def letterOrDigit : Text.Expression := .oneOf [('A', 'Z'), ('a', 'z'), ('0', '9')]

def idCharacter : Text.Expression :=
  .oneOf [('A', 'Z'), ('a', 'z'), ('0', '9'), ('.', '.'), ('_', '_'), ('-', '-')]

/-- `^[A-Za-z0-9]([A-Za-z0-9._-]*[A-Za-z0-9])?$` -/
def packageIdExpression : Text.Expression :=
  .sequence .start (.sequence letterOrDigit
    (.sequence (.optional (.sequence (.many idCharacter) letterOrDigit)) .finish))

def isPackageId (cs : List Char) : Bool := packageIdExpression.isFoundIn cs

/-- A length is counted in bytes. -/
def packageIdDefect (id : String) : Option Defect :=
  if id.utf8ByteSize = 0 ∨ 253 < id.utf8ByteSize then some .packageIdLength
  else if isPackageId id.toList then none
  else some (.packageIdForm id)

/-- The number of packages is looked at first, then the ids up to the first that is wrong. -/
def RegistrySpec.defects (s : RegistrySpec) : List Defect :=
  (if 1 ≤ s.packages.length ∧ s.packages.length ≤ 256 then [] else [.packageCount])
    ++ (s.packages.findSome? packageIdDefect).toList

def isWebAddress (url : String) : Bool :=
  "https://".toList.isPrefixOf url.toList || "http://".toList.isPrefixOf url.toList

def SourceSpec.defects (s : SourceSpec) : List Defect :=
  (if isWebAddress s.endpoint then [] else [.endpointForm s.endpoint])
    ++ (if 1 ≤ s.registryNamespace.length ∧ s.registryNamespace.length ≤ 253 then []
      else [.registryNamespaceLength])

end RegistryKeeper
