import RegistryKeeper.Cluster.Call
import RegistryKeeper.Server.Basic

/-!
Calls on the five kinds made over the API server, and what its refusals mean. A request is sent
only if it has an address: an object without a name is refused before that, except when it is to be
created, and so are names that are too long for an address or cannot stand in its path.
-/

namespace RegistryKeeper

namespace ErrorStatus

def failure (s : ErrorStatus) (o : Named) : Failure :=
  if s.code = 404 then .notFound o
  else if s.code = 409 then
    if s.reason = "AlreadyExists" then .alreadyExists o else .conflict o
  else .api (.refused s)

def readFailure? (s : ErrorStatus) : Option Failure :=
  if s.code = 404 then none else some (.api (.refused s))

end ErrorStatus

namespace Address

/-- Characters of a path. Some that should not stand there are let through. -/
def isPathChar (c : Char) : Bool :=
  c = '!' || c = '"' || ('$' ≤ c && c ≤ ';') || c = '=' || ('@' ≤ c && c ≤ '_') || 'a' ≤ c

def isQueryChar (c : Char) : Bool :=
  c = '!' || ('$' ≤ c && c ≤ ';') || c = '=' || '?' ≤ c

/-- What follows a number sign is not looked at. -/
def isQuery : List Char → Bool
  | [] => true
  | c :: r => c = '#' || (isQueryChar c && isQuery r)

def isPath : List Char → Bool
  | [] => true
  | c :: r =>
      if c = '?' then isQuery r
      else c = '#' || (isPathChar c && isPath r)

def limit : Nat := 65534

def size : List String → Nat
  | [] => 0
  | piece :: rest => piece.utf8ByteSize + size rest

def fault? (pieces : List String) : Option ApiFailure :=
  if limit < size pieces then some .tooLong
  else if isPath (pieces.flatMap String.toList) then none
  else some .invalidPath

end Address

namespace ResourceKind

def root (k : ResourceKind) : List String :=
  if k.apiVersion = "v1" then ["/api/v1"] else ["/apis/", k.apiVersion]

def address (k : ResourceKind) : Option String → List String
  | some n => k.root ++ ["/namespaces/", n, "/", k.plural]
  | none => k.root ++ ["/", k.plural]

end ResourceKind

namespace Request

/-- Where the request is sent. The queries of a list and of a watch are left out. -/
def address : Request → List String
  | get k n m => k.address n ++ ["/", m]
  | list k n | watch k n => k.address n ++ ["?"]
  | create k n _ => k.address n ++ ["?"]
  | replace k n m _ | delete k n m => k.address n ++ ["/", m, "?"]
  | patchStatus k n m _ => k.address n ++ ["/", m, "/status?&fieldManager=", fieldManager]

def target? : Request → Option String
  | get _ _ m | replace _ _ m _ | delete _ _ m | patchStatus _ _ m _ => some m
  | list .. | watch .. | create .. => none

def fault? (r : Request) : Option ApiFailure :=
  if r.target? = some "" then some .emptyName else Address.fault? r.address

end Request

def Address.statusFault? (namespace' name : String) : Option ApiFailure :=
  (Request.patchStatus .registry namespace' name .null).fault?

namespace Server

def readBack {α : Type} (f : Json.Reader α) (j : Json) : Except Failure α :=
  match f j with
  | .ok a => .ok a
  | .error s => .error (.api (.unreadable s))

def written (k : ManagedKind) (o : Named) : Except ErrorStatus Json → Except Failure Json
  | .ok j => readBack (Managed.ofJson k) j
  | .error e => .error (e.failure o)

def call : (c : Call) → Server → c.Answer × Server
  | .get k n m, s =>
      match (Request.get (.managed k) n m).fault? with
      | some f => (.error (.api f), s)
      | none =>
          match s.answer (.get (.managed k) n m) with
          | (.ok j, s) => (some <$> readBack (Managed.ofJson k) j, s)
          | (.error e, s) =>
              match e.readFailure? with
              | none => (.ok none, s)
              | some f => (.error f, s)
  | .create k n j, s =>
      match (Request.create (.managed k) n j).fault? with
      | some f => (.error (.api f), s)
      | none =>
          let (a, s) := s.answer (.create (.managed k) n j)
          (written k ⟨k.name, n, (Managed.nameOf j).getD ""⟩ a, s)
  | .replace k n j, s =>
      match Managed.place j with
      | .error f => (.error f, s)
      | .ok (_, m) =>
          match (Request.replace (.managed k) n m j).fault? with
          | some f => (.error (.api f), s)
          | none =>
              let (a, s) := s.answer (.replace (.managed k) n m j)
              (written k ⟨k.name, n, m⟩ a, s)
  | .delete k n m, s =>
      match (Request.delete (.managed k) n m).fault? with
      | some f => (.error (.api f), s)
      | none =>
          match s.answer (.delete (.managed k) n m) with
          | (.ok _, s) => (.ok (), s)
          | (.error e, s) => (.error (e.failure ⟨k.name, n, m⟩), s)

def readListing {α : Type} (f : Json.Reader α) : Json.Reader (List α)
  | .obj l => Json.required (Json.readList f) l "items"
  | j => j.misfit "a map"

def listSources (s : Server) : Except Failure (List PackageSource) × Server :=
  match s.answer (.list .source none) with
  | (.ok j, s) => (readBack (readListing PackageSource.ofJson) j, s)
  | (.error e, s) => (.error (.api (.refused e)), s)

def patchStatus (s : Server) (namespace' name : String) (status : RegistryStatus) :
    Except Failure Unit × Server :=
  match Address.statusFault? namespace' name with
  | some f => (.error (.api f), s)
  | none =>
      match s.answer (.patchStatus .registry namespace' name
        (Json.object [("status", status.toJson)])) with
      | (.ok j, s) => ((fun _ => ()) <$> readBack PackageRegistry.ofJson j, s)
      | (.error e, s) => (.error (.api (.refused e)), s)

end Server

end RegistryKeeper
