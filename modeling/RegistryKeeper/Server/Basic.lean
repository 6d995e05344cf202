import RegistryKeeper.Cluster.Store
import RegistryKeeper.Document.PackageSource
import RegistryKeeper.Managed.Kind

namespace RegistryKeeper

inductive ResourceKind where
  | managed (k : ManagedKind)
  | registry
  | source
  deriving DecidableEq, Repr

namespace ResourceKind

instance : Inhabited ResourceKind := ⟨registry⟩

def all : List ResourceKind := ManagedKind.all.map managed ++ [registry, source]

def name : ResourceKind → String
  | managed k => k.name
  | registry => PackageRegistry.kind
  | source => PackageSource.kind

def ofName? (s : String) : Option ResourceKind := all.find? fun k => k.name = s

def plural : ResourceKind → String
  | managed .serviceAccount => "serviceaccounts"
  | managed .role => "roles"
  | managed .roleBinding => "rolebindings"
  | managed .deployment => "deployments"
  | managed .service => "services"
  | registry => PackageRegistry.plural
  | source => PackageSource.plural

def apiVersion : ResourceKind → String
  | managed k => k.apiVersion
  | registry | source => RegistryKeeper.apiVersion

def listOf (k : ResourceKind) (items : List Json) : Json :=
  Json.object
    [("apiVersion", .str k.apiVersion), ("items", .arr items), ("kind", .str (k.name ++ "List")),
      ("metadata", .obj [])]

end ResourceKind

def fieldManager : String := "appregistry-operator"

/-- A request, as it is recorded. A list or a watch without a namespace is about all of them. -/
inductive Request where
  | get (kind : ResourceKind) («namespace» name : String)
  | list (kind : ResourceKind) («namespace» : Option String)
  | watch (kind : ResourceKind) («namespace» : Option String)
  | create (kind : ResourceKind) («namespace» : String) (body : Json)
  | replace (kind : ResourceKind) («namespace» name : String) (body : Json)
  | delete (kind : ResourceKind) («namespace» name : String)
  | patchStatus (kind : ResourceKind) («namespace» name : String) (body : Json)
  deriving DecidableEq, Repr

namespace Request

def verb : Request → String
  | get .. => "get"
  | list .. => "list"
  | watch .. => "watch"
  | create .. => "create"
  | replace .. => "replace"
  | delete .. => "delete"
  | patchStatus .. => "patch"

def kind : Request → ResourceKind
  | get k .. | list k _ | watch k _ | create k .. | replace k .. | delete k ..
  | patchStatus k .. => k

def namespace? : Request → Option String
  | get _ n _ | create _ n _ | replace _ n .. | delete _ n _ | patchStatus _ n .. => some n
  | list _ n | watch _ n => n

def name? : Request → Option String
  | get _ _ m | replace _ _ m _ | delete _ _ m | patchStatus _ _ m _ => some m
  | create _ _ j => some ((Managed.nameOf j).getD "")
  | list .. | watch .. => none

def body? : Request → Option Json
  | create _ _ j | replace _ _ _ j | patchStatus _ _ _ j => some j
  | get .. | list .. | watch .. | delete .. => none

end Request

structure Outage where
  verb : String
  kind : ResourceKind
  status : ErrorStatus
  left : Option Nat
  deriving DecidableEq, Repr

namespace Outage

def hits (o : Outage) (r : Request) : Bool := o.verb = r.verb && o.kind = r.kind

def used (o : Outage) : Option Outage :=
  match o.left with
  | none => some o
  | some n => if n ≤ 1 then none else some { o with left := some (n - 1) }

def strike (r : Request) : List Outage → Option ErrorStatus × List Outage
  | [] => (none, [])
  | o :: rest =>
      if o.hits r then (some o.status, o.used.toList ++ rest)
      else
        let (answer, rest) := strike r rest
        (answer, o :: rest)

end Outage

structure Server where
  store : Store ResourceKind
  outages : List Outage
  log : List Request
  deriving DecidableEq, Repr, Inhabited

namespace Server

def empty (addressing : Addressing) : Server := ⟨.empty addressing, [], []⟩

def object (s : Server) (k : ResourceKind) (namespace' name : String) : Option Json :=
  s.store.get? ⟨k, namespace', name⟩

def write (s : Server) (k : ResourceKind) (namespace' name : String) (j : Json) :
    Json × Server :=
  let (j, store) := s.store.write ⟨k, namespace', name⟩ (k = .managed .service) j
  (j, { s with store })

def insert (s : Server) (k : ResourceKind) (j : Json) : Server :=
  (s.write k ((Managed.namespaceOf j).getD "") ((Managed.nameOf j).getD "") j).2

def adjust (s : Server) (p : Place ResourceKind) (f : Json → Json) : Server :=
  { s with store := s.store.adjust p f }

def erase (s : Server) (p : Place ResourceKind) : Server := { s with store := s.store.erase p }

def plan (s : Server) (o : Outage) : Server := { s with outages := s.outages ++ [o] }

def clearOutages (s : Server) : Server := { s with outages := [] }

def listing (s : Server) (k : ResourceKind) (namespace' : Option String) : List Json :=
  (s.store.listing fun p => p.kind = k && namespace'.all (· = p.namespace)).map (·.2)

def subject (k : ResourceKind) (name : String) : String := k.plural ++ " \"" ++ name ++ "\" "

def notFound (k : ResourceKind) (name : String) : ErrorStatus :=
  ⟨"Failure", subject k name ++ "not found", "NotFound", 404⟩

def alreadyExists (k : ResourceKind) (name : String) : ErrorStatus :=
  ⟨"Failure", subject k name ++ "already exists", "AlreadyExists", 409⟩

def modified (k : ResourceKind) (name : String) : ErrorStatus :=
  ⟨"Failure", subject k name ++ "has been modified", "Conflict", 409⟩

def isStale (body live : Json) : Bool :=
  match Managed.versionOf body with
  | none => false
  | some v => Managed.versionOf live ≠ some v

/-- What the stored objects answer, and the server after it. A watch has nothing to report. -/
def serve : Request → Server → Except ErrorStatus Json × Server
  | .get k n m, s =>
      match s.object k n m with
      | some j => (.ok j, s)
      | none => (.error (notFound k m), s)
  | .list k n, s => (.ok (k.listOf (s.listing k n)), s)
  | .watch .., s => (.ok .null, s)
  | .create k n j, s =>
      let m := (Managed.nameOf j).getD ""
      match s.object k n m with
      | some _ => (.error (alreadyExists k m), s)
      | none =>
          let (j, s) := s.write k n m j
          (.ok j, s)
  | .replace k n m j, s =>
      match s.object k n m with
      | none => (.error (notFound k m), s)
      | some live =>
          if isStale j live then (.error (modified k m), s)
          else
            let (j, s) := s.write k n m j
            (.ok j, s)
  | .delete k n m, s =>
      match s.object k n m with
      | some _ => (.ok .null, s.erase ⟨k, n, m⟩)
      | none => (.error (notFound k m), s)
  | .patchStatus k n m patch, s =>
      match s.object k n m with
      | none => (.error (notFound k m), s)
      | some live =>
          let (j, s) := s.write k n m (live.merge patch)
          (.ok j, s)

def answer (r : Request) (s : Server) : Except ErrorStatus Json × Server :=
  match Outage.strike r s.outages with
  | (some e, outages) => (.error e, { s with outages, log := s.log ++ [r] })
  | (none, outages) => serve r { s with outages, log := s.log ++ [r] }

theorem object_write (s : Server) (k k' : ResourceKind) (n n' m m' : String) (j : Json) :
    (s.write k n m j).2.object k' n' m' =
      if (⟨k, n, m⟩ : Place ResourceKind) = ⟨k', n', m'⟩ then some (s.write k n m j).1
      else s.object k' n' m' :=
  Store.get?_write s.store ⟨k, n, m⟩ ⟨k', n', m'⟩ (k = .managed .service) j

theorem log_serve (r : Request) (s : Server) : (serve r s).2.log = s.log := by
  cases r <;> simp only [serve] <;> (repeat' split) <;> rfl

theorem log_answer (r : Request) (s : Server) : (answer r s).2.log = s.log ++ [r] := by
  unfold answer
  split
  · rfl
  · exact log_serve ..

end Server

end RegistryKeeper
