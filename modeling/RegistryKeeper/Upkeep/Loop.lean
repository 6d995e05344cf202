import RegistryKeeper.Upkeep.Reconcile

/-!
The loop of the operator. The registries are listed once and then watched; each is reconciled at
once and again after the delay that its last turn asked for, always in the state in which it was
listed, since the watch has nothing to report. Times are nanoseconds from the start; the clock that
timestamps are taken from stands still.
-/

namespace RegistryKeeper

structure Due where
  time : Nat
  registry : PackageRegistry
  deriving DecidableEq, Repr

def earliest : List Due → Option (Due × List Due)
  | [] => none
  | d :: r =>
      match earliest r with
      | none => some (d, [])
      | some (e, r') => if d.time ≤ e.time then some (d, r) else some (e, d :: r')

abbrev Timeline := List (Nat × Request)

def sentSince (before : World) (time : Nat) (w : World) : Timeline :=
  (w.server.log.drop before.server.log.length).map (time, ·)

def turns (clock : Instant) (horizon : Nat) : Nat → List Due → World → Timeline × World
  | 0, _, w => ([], w)
  | fuel + 1, queue, w =>
      match earliest queue with
      | none => ([], w)
      | some (d, rest) =>
          if d.time < horizon then
            let (turn, w') := tick d.registry clock clock w
            let (later, w'') :=
              turns clock horizon fuel (rest ++ [⟨d.time + turn.delay, d.registry⟩]) w'
            (sentSince w d.time w' ++ later, w'')
          else ([], w)

def enlist (scope : Option String) (w : World) : List PackageRegistry × World :=
  match (Request.list .registry scope).fault? with
  | some _ => ([], w)
  | none =>
      match w.server.answer (.list .registry scope) with
      | (.error _, server) => ([], { w with server })
      | (.ok j, server) =>
          match Server.readListing PackageRegistry.ofJson j with
          | .error _ => ([], { w with server })
          | .ok registries =>
              (registries, { w with server := (server.answer (.watch .registry scope)).2 })

/-- The operator from its start until the horizon. Every delay is at least a nanosecond, so each
registry has at most as many turns as there are nanoseconds. -/
def operate (scope : Option String) (clock : Instant) (horizon : Nat) (w : World) :
    Timeline × World :=
  let (registries, w') := enlist scope w
  let (later, w'') :=
    turns clock horizon (registries.length * horizon) (registries.map (⟨0, ·⟩)) w'
  (sentSince w 0 w' ++ later, w'')

end RegistryKeeper
