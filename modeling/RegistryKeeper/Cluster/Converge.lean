import RegistryKeeper.Cluster.Call
import RegistryKeeper.Managed.Blueprint

namespace RegistryKeeper

def make (k : ManagedKind) (namespace' : String) (desired : Json) : Pass Json :=
  .mk (.call (.create k namespace' desired) fun
    | .ok created => .done (.ok created)
    | .error f =>
        if f.isAlreadyExists then
          match k.drift with
          | .renew =>
              .call (.get k namespace' ((Managed.nameOf desired).getD "")) fun
                | .ok live => .done (.ok (live.getD desired))
                | .error f => .done (.error f)
          | .leave | .amend => .done (.ok desired)
        else .done (.error f))

def renew (k : ManagedKind) (namespace' name : String) (desired : Json) : Pass Json :=
  .mk (.call (.delete k namespace' name) fun _ => make k namespace' desired)

def converge (k : ManagedKind) (desired : Json) : Pass Json := do
  let (namespace', name) ← liftExcept (Managed.place desired)
  match ← Pass.get k namespace' name with
  | none => make k namespace' desired
  | some live =>
      match k.drift with
      | .leave => return live
      | .amend => Pass.replace k namespace' (Managed.amend k live desired)
      | .renew => renew k namespace' name desired
where
  liftExcept {α : Type} (r : Except Failure α) : Pass α := .mk (.done r)

theorem run_converge_of_place {desired : Json} {namespace' name : String} (k : ManagedKind)
    (h : Managed.place desired = .ok (namespace', name)) :
    (converge k desired).run = .call (.get k namespace' name) fun
      | .error f => .done (.error f)
      | .ok none => (make k namespace' desired).run
      | .ok (some live) =>
          match k.drift with
          | .leave => .done (.ok live)
          | .amend => (Pass.replace k namespace' (Managed.amend k live desired)).run
          | .renew => (renew k namespace' name desired).run := by
  simp only [converge, h, converge.liftExcept]
  rw [show (ExceptT.mk (Program.done (Except.ok (namespace', name))) : Pass _)
    = pure (namespace', name) from rfl]
  simp only [pure_bind, Pass.get, ExceptT.run_bind]
  simp only [ExceptT.run, ExceptT.mk, Program.call_bind, Program.done_bind]
  congr 1
  funext a
  rcases a with f | _ | live
  · rfl
  · rfl
  · cases k <;> rfl

theorem run_converge_of_not_place {desired : Json} {f : Failure} (k : ManagedKind)
    (h : Managed.place desired = .error f) : (converge k desired).run = .done (.error f) := by
  simp only [converge, h, converge.liftExcept]
  rfl

def Blueprint.establish (b : Blueprint) (packages : List String) (sources : List SourceRef) :
    Pass String := do
  let _ ← converge .serviceAccount b.serviceAccount
  let _ ← converge .role (b.role sources)
  let _ ← converge .roleBinding b.roleBinding
  let _ ← converge .deployment (b.deployment (serverCommand packages sources))
  let service ← converge .service b.service
  .mk (.done (addressOfService service))

def establish (lookup : Lookup) (r : PackageRegistry) (image : String) : Pass String :=
  match Blueprint.ofRegistry r image with
  | .error f => .mk (.done (.error f))
  | .ok b => b.establish r.spec.packages (Resolution.resolve lookup r.spec.packages)

structure Keeper where
  registry : PackageRegistry
  image : String
  address : Option String
  deriving DecidableEq, Repr

namespace Keeper

def new (registry : PackageRegistry) (image : String) : Keeper := ⟨registry, image, none⟩

def after (k : Keeper) (outcome : Except Failure String) : Keeper :=
  ⟨k.registry, k.image, outcome.toOption⟩

def pass (k : Keeper) (lookup : Lookup) : Program (Except Failure String × Keeper) := do
  let outcome ← (establish lookup k.registry k.image).run
  return (outcome, k.after outcome)

end Keeper

end RegistryKeeper
