import RegistryKeeper.Json.Basic

namespace RegistryKeeper

structure Place (κ : Type) where
  kind : κ
  «namespace» : String
  name : String
  deriving DecidableEq, Repr

def Place.notAfter {κ : Type} (p q : Place κ) : Bool :=
  p.namespace < q.namespace || (p.namespace = q.namespace && p.name ≤ q.name)

/-- What is done for a Service without an address: the next one is drawn, or it gets a fixed one,
or none at all. -/
inductive Addressing where
  | drawn
  | fixed (address : String)
  | absent
  deriving DecidableEq, Repr, Inhabited

structure Store (κ : Type) where
  objects : Table (Place κ) Json
  versions : Nat
  addresses : Nat
  addressing : Addressing
  deriving DecidableEq, Repr

def resourceVersion (version : Nat) : String := toString version

def freshUid (version : Nat) : String := "uid-" ++ toString version

def drawnAddress (n : Nat) : String := "10.96.0." ++ toString n

/-- The version is written over an earlier one, the uid only where there is none. -/
def withIdentity (version : Nat) (j : Json) : Json :=
  let j := j.setAt ["metadata", "resourceVersion"] (.str (resourceVersion version))
  if j.blankAt ["metadata", "uid"] then
    j.setAt ["metadata", "uid"] (.str (freshUid version))
  else j

namespace Store
variable {κ : Type} [DecidableEq κ]

def empty (addressing : Addressing) : Store κ := ⟨.empty, 0, 0, addressing⟩

instance : Inhabited (Store κ) := ⟨empty .drawn⟩

def get? (s : Store κ) (p : Place κ) : Option Json := s.objects.get? p

def contains (s : Store κ) (p : Place κ) : Bool := s.objects.contains p

def awaitsAddress (isService : Bool) (j : Json) : Bool :=
  isService && j.blankAt ["spec", "clusterIP"]

def addressed (s : Store κ) (isService : Bool) (j : Json) : Json × Nat :=
  if awaitsAddress isService j then
    match s.addressing with
    | .drawn =>
        (j.setAt ["spec", "clusterIP"] (.str (drawnAddress (s.addresses + 1))), s.addresses + 1)
    | .fixed address => (j.setAt ["spec", "clusterIP"] (.str address), s.addresses)
    | .absent => (j, s.addresses)
  else (j, s.addresses)

def write (s : Store κ) (p : Place κ) (isService : Bool) (j : Json) : Json × Store κ :=
  let (j, addresses) := s.addressed isService (withIdentity (s.versions + 1) j)
  (j, ⟨s.objects.insert p j, s.versions + 1, addresses, s.addressing⟩)

def erase (s : Store κ) (p : Place κ) : Store κ := { s with objects := s.objects.erase p }

def adjust (s : Store κ) (p : Place κ) (f : Json → Json) : Store κ :=
  match s.get? p with
  | some j => { s with objects := s.objects.insert p (f j) }
  | none => s

def listing (s : Store κ) (select : Place κ → Bool) : List (Place κ × Json) :=
  (s.objects.entries.filter fun e => select e.1).mergeSort fun a b => a.1.notAfter b.1

theorem get?_write (s : Store κ) (p q : Place κ) (isService : Bool) (j : Json) :
    (s.write p isService j).2.get? q =
      if p = q then some (s.write p isService j).1 else s.get? q :=
  Table.get?_insert s.objects p q _

theorem get?_erase (s : Store κ) (p q : Place κ) :
    (s.erase p).get? q = if p = q then none else s.get? q :=
  Table.get?_erase s.objects p q

@[simp] theorem versions_write (s : Store κ) (p : Place κ) (isService : Bool) (j : Json) :
    (s.write p isService j).2.versions = s.versions + 1 := rfl

end Store

end RegistryKeeper
