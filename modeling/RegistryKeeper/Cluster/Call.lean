import RegistryKeeper.Managed.Kind

namespace RegistryKeeper

inductive Verb where
  | get
  | create
  | replace
  | delete
  deriving DecidableEq, Repr, Inhabited

def Verb.all : List Verb := [.get, .create, .replace, .delete]

def Verb.name : Verb → String
  | .get => "Get"
  | .create => "Create"
  | .replace => "Replace"
  | .delete => "Delete"

inductive Call where
  | get (kind : ManagedKind) («namespace» name : String)
  | create (kind : ManagedKind) («namespace» : String) (object : Json)
  | replace (kind : ManagedKind) («namespace» : String) (object : Json)
  | delete (kind : ManagedKind) («namespace» name : String)
  deriving DecidableEq, Repr

namespace Call

abbrev Answer : Call → Type
  | get .. => Except Failure (Option Json)
  | create .. | replace .. => Except Failure Json
  | delete .. => Except Failure Unit

def verb : Call → Verb
  | get .. => .get
  | create .. => .create
  | replace .. => .replace
  | delete .. => .delete

def kind : Call → ManagedKind
  | get k .. | create k .. | replace k .. | delete k .. => k

def «namespace» : Call → String
  | get _ n _ | create _ n _ | replace _ n _ | delete _ n _ => n

def name : Call → String
  | get _ _ n | delete _ _ n => n
  | create _ _ j | replace _ _ j => (Managed.nameOf j).getD ""

def named (c : Call) : Named := ⟨c.kind.name, c.namespace, c.name⟩

def refuse : (c : Call) → Failure → c.Answer
  | get .., f | create .., f | replace .., f | delete .., f => .error f

def failure? : (c : Call) → c.Answer → Option Failure
  | get .., .error f | create .., .error f | replace .., .error f | delete .., .error f => some f
  | get .., .ok _ | create .., .ok _ | replace .., .ok _ | delete .., .ok _ => none

@[simp] theorem failure?_refuse (c : Call) (f : Failure) : c.failure? (c.refuse f) = some f := by
  cases c <;> rfl

end Call

inductive Program (α : Type) : Type where
  | done (a : α)
  | call (c : Call) (next : c.Answer → Program α)

namespace Program
variable {α β γ σ : Type}

def bind : Program α → (α → Program β) → Program β
  | .done a, f => f a
  | .call c next, f => .call c fun a => bind (next a) f

instance : Monad Program where
  pure := .done
  bind := bind

@[simp] theorem pure_eq (a : α) : (pure a : Program α) = .done a := rfl

@[simp] theorem done_bind (a : α) (f : α → Program β) : (Program.done a >>= f) = f a := rfl

@[simp] theorem call_bind (c : Call) (next : c.Answer → Program α) (f : α → Program β) :
    (Program.call c next >>= f) = .call c fun a => next a >>= f := rfl

theorem id_map (p : Program α) : id <$> p = p := by
  induction p with
  | done a => rfl
  | call c next ih => exact congrArg (Program.call c) (funext ih)

theorem bind_assoc (p : Program α) (f : α → Program β) (g : β → Program γ) :
    p >>= f >>= g = p >>= fun a => f a >>= g := by
  induction p with
  | done a => rfl
  | call c next ih => exact congrArg (Program.call c) (funext ih)

instance : LawfulMonad Program := LawfulMonad.mk' _ id_map (fun _ _ => rfl) bind_assoc

def run (answer : (c : Call) → σ → c.Answer × σ) : Program α → σ → α × σ
  | .done a, s => (a, s)
  | .call c next, s =>
      let (a, s') := answer c s
      run answer (next a) s'

@[simp] theorem run_done (answer : (c : Call) → σ → c.Answer × σ) (a : α) (s : σ) :
    run answer (.done a) s = (a, s) := rfl

theorem run_call (answer : (c : Call) → σ → c.Answer × σ) (c : Call)
    (next : c.Answer → Program α) (s : σ) :
    run answer (.call c next) s = run answer (next (answer c s).1) (answer c s).2 := rfl

theorem run_bind (answer : (c : Call) → σ → c.Answer × σ) (p : Program α) (f : α → Program β)
    (s : σ) :
    run answer (p >>= f) s = run answer (f (run answer p s).1) (run answer p s).2 := by
  induction p generalizing s with
  | done a => rfl
  | call c next ih => exact ih _ _

end Program

abbrev Pass (α : Type) : Type := ExceptT Failure Program α

namespace Pass

def get (k : ManagedKind) (namespace' name : String) : Pass (Option Json) :=
  .mk (.call (.get k namespace' name) .done)

def replace (k : ManagedKind) (namespace' : String) (j : Json) : Pass Json :=
  .mk (.call (.replace k namespace' j) .done)

end Pass

end RegistryKeeper
