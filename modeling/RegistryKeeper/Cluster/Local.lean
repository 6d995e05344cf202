import RegistryKeeper.Cluster.Call
import RegistryKeeper.Cluster.Store

namespace RegistryKeeper

/-- A failure that a cluster is told to answer: the transport fails, the version is stale, or
another writer makes the object first. -/
inductive Fault where
  | transport
  | conflict
  | race
  deriving DecidableEq, Repr, Inhabited

def Fault.failure (f : Fault) (o : Named) : Failure :=
  match f with
  | .transport => .api (.refused ⟨"Failure", "injected failure", "InternalError", 500⟩)
  | .conflict => .conflict o
  | .race => .alreadyExists o

structure Entry where
  verb : Verb
  kind : ManagedKind
  name : String
  deriving DecidableEq, Repr

structure LocalCluster where
  store : Store ManagedKind
  faults : Table (Verb × ManagedKind) Fault
  calls : List Entry
  deriving DecidableEq, Repr, Inhabited

namespace LocalCluster

def empty : LocalCluster := ⟨.empty .drawn, .empty, []⟩

def object (c : LocalCluster) (k : ManagedKind) (namespace' name : String) : Option Json :=
  c.store.get? ⟨k, namespace', name⟩

def write (c : LocalCluster) (k : ManagedKind) (namespace' name : String) (j : Json) :
    Json × LocalCluster :=
  let (j, store) := c.store.write ⟨k, namespace', name⟩ (k = .service) j
  (j, { c with store })

def insert (c : LocalCluster) (k : ManagedKind) (j : Json) : LocalCluster :=
  match Managed.place j with
  | .ok (namespace', name) => (c.write k namespace' name j).2
  | .error _ => c

def fail (c : LocalCluster) (v : Verb) (k : ManagedKind) (f : Fault) : LocalCluster :=
  { c with faults := c.faults.insert (v, k) f }

def clearFaults (c : LocalCluster) : LocalCluster := { c with faults := .empty }

def clearCalls (c : LocalCluster) : LocalCluster := { c with calls := [] }

def count (c : LocalCluster) (v : Verb) (k : ManagedKind) : Nat :=
  c.calls.countP fun e => e.verb = v && e.kind = k

def record (c : LocalCluster) (call : Call) : LocalCluster :=
  { c with calls := c.calls ++ [⟨call.verb, call.kind, call.name⟩] }

def serve : (call : Call) → LocalCluster → call.Answer × LocalCluster
  | .get k n m, c => (.ok (c.object k n m), c)
  | .create k n j, c =>
      let m := (Managed.nameOf j).getD ""
      match c.object k n m with
      | some _ => (.error (.alreadyExists ⟨k.name, n, m⟩), c)
      | none =>
          let (j, c) := c.write k n m j
          (.ok j, c)
  | .replace k n j, c =>
      let m := (Managed.nameOf j).getD ""
      match c.object k n m with
      | none => (.error (.notFound ⟨k.name, n, m⟩), c)
      | some live =>
          if Managed.versionOf j = Managed.versionOf live then
            let (j, c) := c.write k n m j
            (.ok j, c)
          else (.error (.conflict ⟨k.name, n, m⟩), c)
  | .delete k n m, c =>
      match c.object k n m with
      | some _ => (.ok (), { c with store := c.store.erase ⟨k, n, m⟩ })
      | none => (.error (.notFound ⟨k.name, n, m⟩), c)

def disturb (c : LocalCluster) : Fault → Call → LocalCluster
  | .race, .create k _ j => c.insert k j
  | _, _ => c

def answer (call : Call) (c : LocalCluster) : call.Answer × LocalCluster :=
  let c := c.record call
  match c.faults.get? (call.verb, call.kind) with
  | some f => (call.refuse (f.failure call.named), c.disturb f call)
  | none => serve call c

theorem object_write (c : LocalCluster) (k k' : ManagedKind) (n n' m m' : String) (j : Json) :
    (c.write k n m j).2.object k' n' m' =
      if (⟨k, n, m⟩ : Place ManagedKind) = ⟨k', n', m'⟩ then some (c.write k n m j).1
      else c.object k' n' m' :=
  Store.get?_write c.store ⟨k, n, m⟩ ⟨k', n', m'⟩ (k = .service) j

@[simp] theorem calls_write (c : LocalCluster) (k : ManagedKind) (n m : String) (j : Json) :
    (c.write k n m j).2.calls = c.calls := rfl

@[simp] theorem faults_write (c : LocalCluster) (k : ManagedKind) (n m : String) (j : Json) :
    (c.write k n m j).2.faults = c.faults := rfl

@[simp] theorem calls_insert (c : LocalCluster) (k : ManagedKind) (j : Json) :
    (c.insert k j).calls = c.calls := by
  unfold insert
  split <;> rfl

@[simp] theorem faults_insert (c : LocalCluster) (k : ManagedKind) (j : Json) :
    (c.insert k j).faults = c.faults := by
  unfold insert
  split <;> rfl

theorem calls_serve (call : Call) (c : LocalCluster) : (serve call c).2.calls = c.calls := by
  cases call <;> simp only [serve] <;> (repeat' split) <;> rfl

theorem faults_serve (call : Call) (c : LocalCluster) : (serve call c).2.faults = c.faults := by
  cases call <;> simp only [serve] <;> (repeat' split) <;> rfl

theorem calls_disturb (c : LocalCluster) (f : Fault) (call : Call) :
    (c.disturb f call).calls = c.calls := by
  cases f <;> cases call <;> simp [disturb]

theorem faults_disturb (c : LocalCluster) (f : Fault) (call : Call) :
    (c.disturb f call).faults = c.faults := by
  cases f <;> cases call <;> simp [disturb]

theorem calls_answer (call : Call) (c : LocalCluster) :
    (answer call c).2.calls = c.calls ++ [⟨call.verb, call.kind, call.name⟩] := by
  simp only [answer]
  cases (c.record call).faults.get? (call.verb, call.kind) with
  | some f => exact calls_disturb ..
  | none => exact calls_serve ..

theorem faults_answer (call : Call) (c : LocalCluster) :
    (answer call c).2.faults = c.faults := by
  simp only [answer]
  cases (c.record call).faults.get? (call.verb, call.kind) with
  | some f => exact faults_disturb ..
  | none => exact faults_serve ..

end LocalCluster

end RegistryKeeper
