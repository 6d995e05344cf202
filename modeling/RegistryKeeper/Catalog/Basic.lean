import RegistryKeeper.Document.Validation
import RegistryKeeper.Failure

namespace RegistryKeeper

structure SourceRef where
  «namespace» : String
  name : String
  deriving DecidableEq, Repr, Inhabited

def SourceRef.text (s : SourceRef) : String := s.namespace ++ "/" ++ s.name

abbrev Lookup := String → Except Failure SourceRef

structure Catalog where
  owners : Table String SourceRef
  deriving DecidableEq, Repr, Inhabited

namespace Catalog

def empty : Catalog := ⟨.empty⟩

def size (c : Catalog) : Nat := c.owners.size

def read (c : Catalog) : Lookup := fun package =>
  match c.owners.get? package with
  | some s => .ok s
  | none => .error (.packageNotFound package)

def give (c : Catalog) (s : SourceRef) : List String → Catalog
  | [] => c
  | p :: r => give ⟨c.owners.insert p s⟩ s r

def remove (c : Catalog) (s : SourceRef) : Catalog := ⟨c.owners.filter fun _ owner => owner ≠ s⟩

def register (c : Catalog) (s : SourceRef) (packages : List String) : Catalog :=
  (c.remove s).give s packages

/-- What a document says that its source owns: nothing without a status or with a defect. -/
def offer (s : PackageSource) : Option (SourceRef × List String) :=
  match s.status, s.spec.defects with
  | some status, [] =>
      some (⟨s.metadata.namespace.getD "default", s.metadata.anyName⟩, status.packages)
  | _, _ => none

/-- Of two sources that offer a package the later one in the listing owns it. -/
def ofListing (listing : List PackageSource) : Catalog :=
  (listing.filterMap offer).foldl (fun c o => c.give o.1 o.2) empty

def sync (_ : Catalog) (listing : List PackageSource) : Catalog := ofListing listing

theorem read_eq_ok_iff (c : Catalog) (p : String) (s : SourceRef) :
    c.read p = .ok s ↔ c.owners.get? p = some s := by
  unfold read
  split <;> simp_all

theorem get?_give (c : Catalog) (s : SourceRef) (ps : List String) (p : String) :
    (c.give s ps).owners.get? p = if p ∈ ps then some s else c.owners.get? p := by
  induction ps generalizing c with
  | nil => simp [give]
  | cons q r ih =>
      rw [give, ih, Table.get?_insert]
      by_cases h : q = p
      · subst h; simp
      · simp [h, Ne.symm h]

theorem get?_remove (c : Catalog) (s : SourceRef) (p : String) :
    (c.remove s).owners.get? p = (c.owners.get? p).filter (· ≠ s) :=
  Table.get?_filter _ _ _

theorem get?_register (c : Catalog) (s : SourceRef) (ps : List String) (p : String) :
    (c.register s ps).owners.get? p =
      if p ∈ ps then some s else (c.owners.get? p).filter (· ≠ s) := by
  rw [register, get?_give, get?_remove]

end Catalog

end RegistryKeeper
