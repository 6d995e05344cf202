import RegistryKeeper.Cluster.Converge
import RegistryKeeper.Upkeep.Status
import RegistryKeeper.Server.Client

namespace RegistryKeeper

structure Metrics where
  reconciliations : Nat
  errors : Nat
  durations : Nat
  deriving DecidableEq, Repr, Inhabited

namespace Metrics

def zero : Metrics := ⟨0, 0, 0⟩

def begun (m : Metrics) : Metrics := { m with reconciliations := m.reconciliations + 1 }

def ended (m : Metrics) : Metrics := { m with durations := m.durations + 1 }

def failed (m : Metrics) : Metrics := { m with errors := m.errors + 1 }

end Metrics

structure Context where
  image : String
  catalog : Catalog
  failureCounts : Table String Nat
  metrics : Option Metrics
  deriving DecidableEq, Repr, Inhabited

namespace Context

def new (image : String) (metrics : Option Metrics) : Context := ⟨image, .empty, .empty, metrics⟩

def measure (c : Context) (f : Metrics → Metrics) : Context := { c with metrics := c.metrics.map f }

def forgetFailures (c : Context) (key : String) : Context :=
  { c with failureCounts := c.failureCounts.erase key }

def noteFailure (c : Context) (key : String) (f : Failure) : Nat × Context :=
  let n := (c.failureCounts.get? key).getD 0 + 1
  (f.retryDelay n, { c with failureCounts := c.failureCounts.insert key n })

end Context

structure World where
  server : Server
  context : Context
  deriving DecidableEq, Repr, Inhabited

namespace PackageRegistry

def key (r : PackageRegistry) : String :=
  r.metadata.namespace.getD "" ++ "/" ++ r.metadata.anyName

end PackageRegistry

def recordStatus (r : PackageRegistry) (status : RegistryStatus) (s : Server) :
    Except Failure Unit × Server :=
  if r.isNews status then
    match r.metadata.namespace with
    | none => (.error (.missingField ".metadata.namespace"), s)
    | some namespace' => s.patchStatus namespace' r.metadata.anyName status
  else (.ok (), s)

def refuseSpec (r : PackageRegistry) (defects : List Defect) (recorded : Instant) (w : World) :
    Except Failure Nat × World :=
  let message := defectSummary defects
  match recordStatus r (r.statusAfter .failed none (some message) recorded) w.server with
  | (.ok (), server) => (.error (.invalidConfig message), { w with server })
  | (.error f, server) => (.error f, { w with server })

/-- One pass over the objects of a registry. A failure of the pass counts for more than a failure
to report it. -/
def performPass (r : PackageRegistry) (recorded : Instant) (w : World) :
    Except Failure Nat × World :=
  match w.server.listSources with
  | (.error f, server) => (.error f, { w with server })
  | (.ok listing, server) =>
      let catalog := w.context.catalog.sync listing
      let context := { w.context with catalog }
      match (establish catalog.read r context.image).run.run Server.call server with
      | (.ok address, server) =>
          let status := r.statusAfter .succeeded (some address) none recorded
          match recordStatus r status server with
          | (.ok (), server) => (.ok passIntervalNanos, ⟨server, context⟩)
          | (.error f, server) => (.error f, ⟨server, context⟩)
      | (.error f, server) =>
          let status := r.statusAfter .failed none (some f.message) recorded
          (.error f, ⟨(recordStatus r status server).2, context⟩)

/-- Brings a registry to its desired state, or leaves it to rest. `started` is when this begins and
`recorded` when its outcome is written down. Answers the nanoseconds until the next time. -/
def attend (r : PackageRegistry) (started recorded : Instant) (w : World) :
    Except Failure Nat × World :=
  match r.metadata.namespace with
  | none => (.error (.missingField ".metadata.namespace"), w)
  | some _ =>
      match r.restLeft started with
      | some left => (.ok left, w)
      | none =>
          match r.spec.defects with
          | [] => performPass r recorded w
          | defects => refuseSpec r defects recorded w

def reconcile (r : PackageRegistry) (started recorded : Instant) (w : World) :
    Except Failure Nat × World :=
  match attend r started recorded { w with context := w.context.measure .begun } with
  | (.ok delay, w) =>
      (.ok delay, { w with context := (w.context.measure .ended).forgetFailures r.key })
  | (.error f, w) =>
      (.error f, { w with context := (w.context.measure .ended).measure .failed })

structure Turn where
  failure : Option Failure
  delay : Nat
  deriving DecidableEq, Repr

def tick (r : PackageRegistry) (started recorded : Instant) (w : World) : Turn × World :=
  match reconcile r started recorded w with
  | (.ok delay, w) => (⟨none, delay⟩, w)
  | (.error f, w) =>
      let (seconds, context) := w.context.noteFailure r.key f
      (⟨some f, seconds * nanosPerSecond⟩, { w with context })

end RegistryKeeper
