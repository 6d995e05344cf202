import RegistryKeeper.Proofs.Blueprints
import RegistryKeeper.Proofs.SharedClusters

namespace RegistryKeeper

namespace ManagedKind

def later : ManagedKind → List ManagedKind
  | serviceAccount => [role, roleBinding, deployment, service]
  | role => [roleBinding, deployment, service]
  | roleBinding => [deployment, service]
  | deployment => [service]
  | service => []

def rank (k : ManagedKind) : Nat := 4 - k.later.length

end ManagedKind

inductive Stage where
  | fetch (k : ManagedKind)
  | make (k : ManagedKind)
  | amend (k : ManagedKind) (live : Json)
  | clear (k : ManagedKind)
  | reread (k : ManagedKind)
  | failed (k : ManagedKind) (f : Failure)
  | closed (outcome : Except Failure String)

inductive Stage.Action where
  | finish (outcome : Except Failure String)
  | call (c : Call) (next : c.Answer → Stage)

structure Plan where
  blueprint : Blueprint
  packages : List String
  sources : List SourceRef

namespace Plan

def desired (p : Plan) (k : ManagedKind) : Json :=
  p.blueprint.desired (serverCommand p.packages p.sources) p.sources k

def place (p : Plan) (k : ManagedKind) : Place ManagedKind :=
  ⟨k, p.blueprint.namespace, p.blueprint.name⟩

def chain (p : Plan) : List ManagedKind → Json → Pass String
  | [], service => .mk (.done (addressOfService service))
  | k :: ks, _ => converge k (p.desired k) >>= p.chain ks

def reread (p : Plan) (k : ManagedKind) : Pass Json :=
  .mk (.call (.get k p.blueprint.namespace p.blueprint.name) fun
    | .ok live => .done (.ok (live.getD (p.desired k)))
    | .error f => .done (.error f))

def program (p : Plan) : Stage → Program (Except Failure String)
  | .fetch k => (converge k (p.desired k) >>= p.chain k.later).run
  | .make k => (make k p.blueprint.namespace (p.desired k) >>= p.chain k.later).run
  | .amend k live =>
      (Pass.replace k p.blueprint.namespace (Managed.amend k live (p.desired k)) >>=
        p.chain k.later).run
  | .clear k =>
      (renew k p.blueprint.namespace p.blueprint.name (p.desired k) >>= p.chain k.later).run
  | .reread k => (p.reread k >>= p.chain k.later).run
  | .failed _ f => .done (.error f)
  | .closed outcome => .done outcome

def next (k : ManagedKind) (settled : Json) : Stage :=
  match k.later with
  | [] => .closed (addressOfService settled)
  | k' :: _ => .fetch k'

def found (k : ManagedKind) (live : Json) : Stage :=
  match k.drift with
  | .leave => next k live
  | .amend => .amend k live
  | .renew => .clear k

def outrun (p : Plan) (k : ManagedKind) : Stage :=
  match k.drift with
  | .renew => .reread k
  | .leave | .amend => next k (p.desired k)

def act (p : Plan) : Stage → Stage.Action
  | .fetch k =>
      .call (.get k p.blueprint.namespace p.blueprint.name) fun
        | .ok none => .make k
        | .ok (some live) => found k live
        | .error f => .failed k f
  | .make k =>
      .call (.create k p.blueprint.namespace (p.desired k)) fun
        | .ok created => next k created
        | .error f => if f.isAlreadyExists then p.outrun k else .failed k f
  | .amend k live =>
      .call (.replace k p.blueprint.namespace (Managed.amend k live (p.desired k))) fun
        | .ok replaced => next k replaced
        | .error f => .failed k f
  | .clear k => .call (.delete k p.blueprint.namespace p.blueprint.name) fun _ => .make k
  | .reread k =>
      .call (.get k p.blueprint.namespace p.blueprint.name) fun
        | .ok live => next k (live.getD (p.desired k))
        | .error f => .failed k f
  | .failed _ f => .finish (.error f)
  | .closed outcome => .finish outcome

theorem name_desired (p : Plan) (k : ManagedKind) :
    (Managed.nameOf (p.desired k)).getD "" = p.blueprint.name :=
  Managed.nameOf_getD_of_place (p.blueprint.place_desired _ _ k)

def conclude (p : Plan) (k : ManagedKind) :
    Except Failure Json → Program (Except Failure String)
  | .ok settled => p.program (next k settled)
  | .error f => p.program (.failed k f)

theorem run_chain_later (p : Plan) (k : ManagedKind) (settled : Json) :
    (p.chain k.later settled).run = p.program (next k settled) := by
  cases k <;> rfl

theorem run_bind_chain (p : Plan) (k : ManagedKind) (x : Pass Json) :
    (x >>= p.chain k.later).run = x.run >>= p.conclude k := by
  rw [ExceptT.run_bind]
  refine congrArg (x.run >>= ·) (funext fun settled => ?_)
  cases settled with
  | ok j => exact p.run_chain_later k j
  | error f => rfl

theorem program_found (p : Plan) (k : ManagedKind) (live : Json) :
    p.program (found k live) =
      (match k.drift with
        | .leave => .done (.ok live)
        | .amend =>
            (Pass.replace k p.blueprint.namespace (Managed.amend k live (p.desired k))).run
        | .renew =>
            (renew k p.blueprint.namespace p.blueprint.name (p.desired k)).run) >>=
        p.conclude k := by
  unfold found
  cases k.drift with
  | leave => rfl
  | amend | renew => exact p.run_bind_chain k _

theorem program_outrun (p : Plan) (k : ManagedKind) :
    p.program (p.outrun k) =
      (match k.drift with
        | .renew => (p.reread k).run
        | .leave | .amend => .done (.ok (p.desired k))) >>= p.conclude k := by
  unfold outrun
  cases k.drift with
  | leave | amend => rfl
  | renew => exact p.run_bind_chain k _

theorem program_eq (p : Plan) (st : Stage) :
    p.program st = match p.act st with
      | .finish outcome => .done outcome
      | .call c next => .call c fun a => p.program (next a) := by
  cases st with
  | failed k f => rfl
  | closed outcome => rfl
  | fetch k =>
      have hplace := p.blueprint.place_desired (serverCommand p.packages p.sources) p.sources k
      refine (p.run_bind_chain k _).trans ?_
      rw [desired, run_converge_of_place k hplace, Program.call_bind]
      refine congrArg (Program.call _) (funext fun a => ?_)
      rcases a with f | _ | live
      · rfl
      · exact (p.run_bind_chain k _).symm
      · exact (p.program_found k live).symm
  | make k =>
      refine (p.run_bind_chain k _).trans ?_
      refine congrArg (Program.call _) (funext fun a => ?_)
      cases a with
      | ok created => rfl
      | error f =>
          -- only a Service is read again when another writer has made it
          by_cases hf : f.isAlreadyExists
          · simp only [hf, if_true]
            refine Eq.trans ?_ (p.program_outrun k).symm
            rw [p.name_desired k]
            cases k.drift with
            | leave | amend => rfl
            | renew =>
                refine congrArg (Program.call _) (funext fun a => ?_)
                cases a <;> rfl
          · simp only [hf]
            rfl
  | amend k live =>
      refine (p.run_bind_chain k _).trans ?_
      refine congrArg (Program.call _) (funext fun a => ?_)
      cases a <;> rfl
  | clear k =>
      refine (p.run_bind_chain k _).trans ?_
      refine congrArg (Program.call _) (funext fun a => ?_)
      exact (p.run_bind_chain k _).symm
  | reread k =>
      refine (p.run_bind_chain k _).trans ?_
      refine congrArg (Program.call _) (funext fun a => ?_)
      cases a <;> rfl

theorem run_establish (p : Plan) :
    (p.blueprint.establish p.packages p.sources).run = p.program (.fetch .serviceAccount) :=
  rfl

def turn (p : Plan) (st : Stage) (c : LocalCluster) : Stage × LocalCluster :=
  match p.act st with
  | .finish _ => (st, c)
  | .call call next => (next (LocalCluster.answer call c).1, (LocalCluster.answer call c).2)

theorem step_turn {ι : Type} [DecidableEq ι] {s : Shared ι (Except Failure String)} {i : ι}
    {p : Plan} {st : Stage} (h : s.programs i = p.program st) :
    (s.step (.turn i)).programs i = p.program (p.turn st s.cluster).1 ∧
      (s.step (.turn i)).cluster = (p.turn st s.cluster).2 := by
  have hp := p.program_eq st
  unfold turn
  cases ha : p.act st with
  | finish outcome =>
      rw [ha] at hp
      rw [Shared.step_turn_of_done (h.trans hp)]
      exact ⟨h, rfl⟩
  | call c next =>
      rw [ha] at hp
      rw [Shared.step_turn_of_call (h.trans hp)]
      exact ⟨if_pos rfl, rfl⟩

theorem next_cases (k : ManagedKind) (settled : Json) :
    (k = .service ∧ next k settled = .closed (addressOfService settled)) ∨
      (k ≠ .service ∧ ∃ k', k'.rank = k.rank + 1 ∧ next k settled = .fetch k') := by
  cases k with
  | service => exact .inl ⟨rfl, rfl⟩
  | serviceAccount => exact .inr ⟨by decide, .role, rfl, rfl⟩
  | role => exact .inr ⟨by decide, .roleBinding, rfl, rfl⟩
  | roleBinding => exact .inr ⟨by decide, .deployment, rfl, rfl⟩
  | deployment => exact .inr ⟨by decide, .service, rfl, rfl⟩

end Plan

namespace ManagedKind

def calls (k : ManagedKind) : Nat :=
  match k.drift with
  | .leave | .amend => 2
  | .renew => 4

def laterCalls (k : ManagedKind) : Nat := k.later.foldr (fun k' n => k'.calls + n) 0

end ManagedKind

namespace Stage

def left : Stage → Nat
  | fetch k => k.calls + k.laterCalls
  | make k => k.calls / 2 + k.laterCalls
  | amend k _ | reread k => 1 + k.laterCalls
  | clear k => 3 + k.laterCalls
  | failed _ _ | closed _ => 0

def rank : Stage → Nat
  | fetch k | make k | amend k _ | clear k | reread k | failed k _ => k.rank
  | closed _ => ManagedKind.service.rank + 1

end Stage

namespace Plan

inductive Follows (p : Plan) : Stage → Stage → Prop where
  | absent (k : ManagedKind) : Follows p (.fetch k) (.make k)
  | found (k : ManagedKind) (live : Json) : Follows p (.fetch k) (found k live)
  | created (k : ManagedKind) (j : Json) : Follows p (.make k) (next k j)
  | outrun (k : ManagedKind) : Follows p (.make k) (p.outrun k)
  | replaced (k : ManagedKind) (live j : Json) : Follows p (.amend k live) (next k j)
  | cleared (k : ManagedKind) : Follows p (.clear k) (.make k)
  | reread (k : ManagedKind) (j : Json) : Follows p (.reread k) (next k j)
  | failed {st : Stage} {k : ManagedKind} (hk : st.rank = k.rank) (f : Failure) :
      Follows p st (.failed k f)
  | idle {st : Stage} (h : st.left = 0) : Follows p st st

theorem follows_turn (p : Plan) (st : Stage) (c : LocalCluster) :
    p.Follows st (p.turn st c).1 := by
  cases st with
  | fetch k =>
      simp only [turn, act]
      split
      · exact .absent k
      · exact .found k _
      · exact .failed rfl _
  | make k =>
      simp only [turn, act]
      split
      · exact .created k _
      · split
        · exact .outrun k
        · exact .failed rfl _
  | amend k live =>
      simp only [turn, act]
      split
      · exact .replaced k live _
      · exact .failed rfl _
  | clear k => exact .cleared k
  | reread k =>
      simp only [turn, act]
      split
      · exact .reread k _
      · exact .failed rfl _
  | failed k f => exact .idle rfl
  | closed outcome => exact .idle rfl

theorem left_next (k : ManagedKind) (settled : Json) : (next k settled).left = k.laterCalls := by
  cases k <;> rfl

theorem rank_next (k : ManagedKind) (settled : Json) : (next k settled).rank = k.rank + 1 := by
  cases k <;> rfl

theorem Follows.left_le {p : Plan} {st st' : Stage} (h : p.Follows st st') :
    st'.left ≤ st.left - 1 := by
  cases h with
  | absent k | cleared k => cases k <;> decide
  | found k live | outrun k => cases k <;> exact Nat.le_of_ble_eq_true rfl
  | created k j | replaced k live j | reread k j =>
      rw [left_next]
      cases k <;> exact Nat.le_of_ble_eq_true rfl
  | failed hk f => exact Nat.zero_le _
  | idle h => exact Nat.le_of_eq (by rw [h])

theorem program_of_left_eq_zero {p : Plan} {st : Stage} (h : st.left = 0) :
    ∃ outcome, p.program st = .done outcome := by
  cases st with
  | failed k f => exact ⟨.error f, rfl⟩
  | closed outcome => exact ⟨outcome, rfl⟩
  | fetch k | make k => cases k <;> cases h
  | amend k live | clear k | reread k => cases k <;> cases h

theorem Follows.rank_le {p : Plan} {st st' : Stage} (h : p.Follows st st') :
    st.rank ≤ st'.rank := by
  cases h with
  | absent k | cleared k => exact Nat.le_refl _
  | found k live | outrun k => cases k <;> exact Nat.le_of_ble_eq_true rfl
  | created k j | replaced k live j | reread k j =>
      rw [rank_next]
      exact Nat.le_succ _
  | failed hk f => exact Nat.le_of_eq hk
  | idle h => exact Nat.le_refl _

end Plan

def Plan.of (lookup : Lookup) (r : PackageRegistry) (b : Blueprint) : Plan :=
  ⟨b, r.spec.packages, Resolution.resolve lookup r.spec.packages⟩

theorem run_establish_of_blueprint {r : PackageRegistry} {image : String} {b : Blueprint}
    (h : Blueprint.ofRegistry r image = .ok b) (lookup : Lookup) :
    (establish lookup r image).run = (Plan.of lookup r b).program (.fetch .serviceAccount) := by
  rw [establish, h]
  exact (Plan.of lookup r b).run_establish

theorem run_establish_of_no_blueprint {r : PackageRegistry} {image : String} {f : Failure}
    (h : Blueprint.ofRegistry r image = .error f) (lookup : Lookup) :
    (establish lookup r image).run = .done (.error f) := by
  rw [establish, h]
  rfl

def Shared.passes {ι : Type} (c : LocalCluster) (lookup : ι → Lookup) (r : ι → PackageRegistry)
    (image : ι → String) : Shared ι (Except Failure String) :=
  .start c fun i => (establish (lookup i) (r i) (image i)).run

end RegistryKeeper
