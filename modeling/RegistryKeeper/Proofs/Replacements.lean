import Mathlib.Data.List.Induction
import RegistryKeeper.Proofs.PassStages
import RegistryKeeper.Proofs.Settling
import RegistryKeeper.Proofs.Versions

namespace RegistryKeeper

namespace LocalCluster
variable {c : LocalCluster} {k : ManagedKind} {n m : String} {live j : Json}

theorem object_of_read (h : (answer (.get k n m) c).1 = .ok (some live)) :
    c.object k n m = some live := by
  simp only [answer] at h
  split at h
  · cases h
  · exact Except.ok.inj h

theorem object_of_replaced {stored : Json} (hj : (Managed.nameOf j).getD "" = m)
    (h : (answer (.replace k n j) c).1 = .ok stored) :
    ∃ current, c.object k n m = some current ∧
      Managed.versionOf j = Managed.versionOf current ∧
      stored = (c.store.write ⟨k, n, m⟩ (k = .service) j).1 ∧
      (answer (.replace k n j) c).2.object k n m = some stored := by
  simp only [answer] at h ⊢
  split at h
  · cases h
  · next hnone =>
      simp only [serve, hj] at h ⊢
      split at h
      · cases h
      · next current hcurrent =>
          split at h
          · next hversion =>
              cases h
              refine ⟨current, hcurrent, hversion, rfl, ?_⟩
              simp only [if_pos hversion]
              exact (object_write _ k k n n m m j).trans (if_pos rfl)
          · cases h

def replaceFailure (c : LocalCluster) (k : ManagedKind) (n m : String) : Failure :=
  match c.object k n m with
  | none => .notFound ⟨k.name, n, m⟩
  | some _ => .conflict ⟨k.name, n, m⟩

theorem answer_replace_of_outdated (hj : (Managed.nameOf j).getD "" = m)
    (h : ∀ current, c.object k n m = some current →
      Managed.versionOf j ≠ Managed.versionOf current) :
    (answer (.replace k n j) c).2.store = c.store ∧
      ∃ f, (answer (.replace k n j) c).1 = .error f ∧
        (c.faults.get? (.replace, k) = none → f = c.replaceFailure k n m) := by
  unfold replaceFailure
  simp only [answer]
  split
  · next fault hfault =>
      refine ⟨?_, fault.failure _, rfl, ?_⟩
      · cases fault <;> rfl
      · intro hnone
        exact absurd (hfault.symm.trans hnone) (by simp)
  · simp only [serve, hj]
    cases hcurrent : c.object k n m with
    | none =>
        have hrecorded : (c.record (.replace k n j)).object k n m = none := hcurrent
        simp only [hrecorded]
        exact ⟨rfl, _, rfl, fun _ => rfl⟩
    | some current =>
        have hrecorded : (c.record (.replace k n j)).object k n m = some current := hcurrent
        simp only [hrecorded, if_neg (h current hcurrent)]
        exact ⟨rfl, _, rfl, fun _ => rfl⟩

end LocalCluster

namespace Plan
variable {p : Plan}

theorem next_ne_amend (k k' : ManagedKind) (settled live : Json) :
    next k settled ≠ .amend k' live := by
  cases k <;> exact Stage.noConfusion

theorem outrun_ne_amend (p : Plan) (k k' : ManagedKind) (live : Json) :
    p.outrun k ≠ .amend k' live := by
  cases k <;> exact Stage.noConfusion

theorem found_eq_amend {k k' : ManagedKind} {live live' : Json}
    (h : found k live = .amend k' live') : k.drift = .amend ∧ k' = k ∧ live' = live := by
  unfold found at h
  split at h
  · exact absurd h (next_ne_amend _ _ _ _)
  · next hdrift =>
      cases h
      exact ⟨hdrift, rfl, rfl⟩
  · cases h

theorem amend_of_turn {st : Stage} {c : LocalCluster} {k : ManagedKind} {live : Json}
    (h : (p.turn st c).1 = .amend k live) :
    st = .fetch k ∧ k.drift = .amend ∧
      (LocalCluster.answer (.get k p.blueprint.namespace p.blueprint.name) c).1 =
        .ok (some live) := by
  cases st with
  | fetch k' =>
      simp only [turn, act] at h
      split at h
      · cases h
      · next live' hanswer =>
          obtain ⟨hdrift, rfl, rfl⟩ := found_eq_amend h
          exact ⟨rfl, hdrift, hanswer⟩
      · cases h
  | make k' =>
      simp only [turn, act] at h
      split at h
      · exact absurd h (next_ne_amend _ _ _ _)
      · split at h
        · exact absurd h (outrun_ne_amend _ _ _ _)
        · cases h
  | amend k' live' =>
      simp only [turn, act] at h
      split at h
      · exact absurd h (next_ne_amend _ _ _ _)
      · cases h
  | clear k' => cases h
  | reread k' =>
      simp only [turn, act] at h
      split at h
      · exact absurd h (next_ne_amend _ _ _ _)
      · cases h
  | failed k' f => cases h
  | closed outcome => cases h

theorem stage_of_replace {st : Stage} {k : ManagedKind} {n : String} {j : Json}
    {next : Call.Answer (.replace k n j) → Program (Except Failure String)}
    (h : p.program st = .call (.replace k n j) next) :
    ∃ live, st = .amend k live ∧ n = p.blueprint.namespace ∧
      j = Managed.amend k live (p.desired k) := by
  rw [p.program_eq] at h
  cases st with
  | amend k' live =>
      cases h
      exact ⟨live, rfl, rfl, rfl⟩
  | failed k' f | closed outcome => cases h
  | fetch k' | make k' | clear k' | reread k' => cases h

end Plan

namespace Shared
variable {ι : Type} [DecidableEq ι] {s : Shared ι (Except Failure String)} {i : ι} {p : Plan}

/-- The moves between the turn in which a pass has read an object and the one in which it will
replace it; none of them is its own. -/
structure ReadBefore (s : Shared ι (Except Failure String)) (i : ι) (p : Plan) (k : ManagedKind)
    (live : Json) (before between : List (Move ι)) : Prop where
  kind : k.drift = .amend
  others : .turn i ∉ between
  begins : (s.after before).programs i = (converge k (p.desired k) >>= p.chain k.later).run
  reads : (LocalCluster.answer (.get k p.blueprint.namespace p.blueprint.name)
    (s.after before).cluster).1 = .ok (some live)

theorem exists_readBefore (h : s.programs i = p.program (.fetch .serviceAccount))
    (moves : List (Move ι)) :
    ∃ st, (s.after moves).programs i = p.program st ∧ ∀ k live, st = .amend k live →
      ∃ before between, moves = before ++ .turn i :: between ∧
        s.ReadBefore i p k live before between := by
  -- from the last move backwards: only a turn of the pass itself has brought it to its stage
  induction moves using List.reverseRecOn with
  | nil => exact ⟨_, h, by simp⟩
  | append_singleton moves m ih =>
      obtain ⟨st, hst, hread⟩ := ih
      rw [after_concat]
      by_cases hm : m = .turn i
      · subst hm
        have hturn := Plan.step_turn hst
        refine ⟨_, hturn.1, fun k live hamend => ?_⟩
        obtain ⟨rfl, hdrift, hanswer⟩ := Plan.amend_of_turn hamend
        exact ⟨moves, [], rfl, hdrift, by simp, hst, hanswer⟩
      · refine ⟨st, (programs_step_of_ne hm).trans hst, fun k live hamend => ?_⟩
        obtain ⟨before, between, rfl, hbefore⟩ := hread k live hamend
        refine ⟨before, between ++ [m], by simp, hbefore.kind, ?_, hbefore.begins, hbefore.reads⟩
        simpa using ⟨hbefore.others, Ne.symm hm⟩

namespace ReadBefore
variable {k : ManagedKind} {live : Json} {before between : List (Move ι)}

theorem object (h : s.ReadBefore i p k live before between) :
    (s.after before).cluster.object k p.blueprint.namespace p.blueprint.name = some live :=
  LocalCluster.object_of_read h.reads

theorem versionOf_ne (h : s.ReadBefore i p k live before between) (hs : s.cluster.Reachable)
    {mid : List (Move ι)} (hmid : mid <+: between)
    (hother : (s.after (before ++ .turn i :: mid)).cluster.object k p.blueprint.namespace
      p.blueprint.name ≠ some live) {current : Json}
    (hcurrent : (s.after (before ++ .turn i :: between)).cluster.object k p.blueprint.namespace
      p.blueprint.name = some current) : Managed.versionOf live ≠ Managed.versionOf current := by
  obtain ⟨rest, rfl⟩ := hmid
  have hversioned := (reachable_after hs before).versioned
  rw [after_append] at hother
  have hrenewed : ((s.after before).after (.turn i :: mid)).cluster.store.RenewedSince
      (s.after before).cluster.store.versions ⟨k, p.blueprint.namespace, p.blueprint.name⟩ := by
    rcases get?_after_or_renewed (s.after before) (.turn i :: mid)
      ⟨k, p.blueprint.namespace, p.blueprint.name⟩ with hsame | hrenewed
    · exact absurd (hsame.trans h.object) hother
    · exact hrenewed
  -- the place was written after the reading, and whatever is stored there later is newer still
  have hlater := renewedSince_after hrenewed (versions_le_after ..) rest
  rw [← after_append, ← after_append] at hlater
  exact hlater.versionOf_ne hversioned h.object hcurrent

end ReadBefore

/-- What a replacement does that a pass is about to make. If it succeeds, then on the object that
the pass has read; it fails if that object has been away in the meantime. -/
structure AsRead (s : Shared ι (Except Failure String)) (i : ι) (p : Plan) (k : ManagedKind)
    (j live : Json) (before between : List (Move ι)) : Prop
    extends s.ReadBefore i p k live before between where
  written : j = Managed.amend k live (p.desired k)
  success : ∀ stored,
    let now := (s.after (before ++ .turn i :: between)).cluster
    let replaced := LocalCluster.answer (.replace k p.blueprint.namespace j) now
    replaced.1 = .ok stored →
      now.object k p.blueprint.namespace p.blueprint.name = some live ∧
      replaced.2.object k p.blueprint.namespace p.blueprint.name = some stored ∧
      Json.AgreeOff (versionPath :: Managed.owned k live) live stored
  overtaken : ∀ mid, mid <+: between →
    (s.after (before ++ .turn i :: mid)).cluster.object k p.blueprint.namespace p.blueprint.name ≠
      some live →
    let now := (s.after (before ++ .turn i :: between)).cluster
    let refused := LocalCluster.answer (.replace k p.blueprint.namespace j) now
    refused.2.store = now.store ∧ ∃ f, refused.1 = .error f ∧
      (now.faults.get? (.replace, k) = none →
        f = now.replaceFailure k p.blueprint.namespace p.blueprint.name)

theorem ReadBefore.asRead {k : ManagedKind} {live : Json} {before between : List (Move ι)}
    (h : s.ReadBefore i p k live before between) (hs : s.cluster.Reachable) :
    s.AsRead i p k (Managed.amend k live (p.desired k)) live before between := by
  have hversion := Managed.versionOf_amend k live (p.desired k)
  have hname : (Managed.nameOf (Managed.amend k live (p.desired k))).getD "" =
      p.blueprint.name := by
    rw [Managed.nameOf_amend]
    exact (reachable_after hs before).sound.filed _ _ h.object
  refine ⟨h, rfl, ?_, ?_⟩
  · intro stored now replaced hok
    obtain ⟨current, hcurrent, hcurrentVersion, hstored, hafter⟩ :=
      LocalCluster.object_of_replaced hname hok
    have hlive : now.object k p.blueprint.namespace p.blueprint.name = some live := by
      by_contra hother
      have hne := h.versionOf_ne hs (List.prefix_refl between) hother hcurrent
      exact hne (hversion.symm.trans hcurrentVersion)
    have hsound : now.store.Sound := (reachable_after hs _).sound
    refine ⟨hlive, hafter, ?_⟩
    rw [hstored, Store.write_amend h.kind hsound hlive]
    have hamend := Managed.agreeOff_amend k live (p.desired k)
    exact (hamend.mono fun q => List.mem_cons_of_mem _).setAt List.mem_cons_self _
  · intro mid hmid hother now refused
    apply LocalCluster.answer_replace_of_outdated hname
    intro current hcurrent
    rw [hversion]
    exact h.versionOf_ne hs hmid hother hcurrent

end Shared

theorem replaces_what_was_read {ι : Type} [DecidableEq ι] {c : LocalCluster} (hc : c.Reachable)
    (lookup : ι → Lookup) (r : ι → PackageRegistry) (image : ι → String)
    {moves : List (Move ι)} {i : ι} {k : ManagedKind} {n : String} {j : Json}
    (h : ((Shared.passes c lookup r image).after moves).call? i = some (.replace k n j)) :
    ∃ b before between live, Blueprint.ofRegistry (r i) (image i) = .ok b ∧
      n = b.namespace ∧ moves = before ++ .turn i :: between ∧
      (Shared.passes c lookup r image).AsRead i (.of (lookup i) (r i) b) k j live
        before between := by
  obtain ⟨next, hcall⟩ := Shared.call?_eq_some_iff.1 h
  cases hb : Blueprint.ofRegistry (r i) (image i) with
  | error f =>
      have hdone : (Shared.passes c lookup r image).programs i = .done (.error f) :=
        run_establish_of_no_blueprint hb (lookup i)
      rw [Shared.programs_after_of_done hdone] at hcall
      cases hcall
  | ok b =>
      have hbegin : (Shared.passes c lookup r image).programs i =
          (Plan.of (lookup i) (r i) b).program (.fetch .serviceAccount) :=
        run_establish_of_blueprint hb (lookup i)
      obtain ⟨st, hst, hread⟩ := Shared.exists_readBefore hbegin moves
      obtain ⟨live, rfl, hn, rfl⟩ := Plan.stage_of_replace (hst.symm.trans hcall)
      obtain ⟨before, between, rfl, hbefore⟩ := hread k live rfl
      exact ⟨b, before, between, live, rfl, hn, rfl, hbefore.asRead hc⟩

theorem replacement_refused_after_rewrite :
    let r : PackageRegistry :=
      ⟨{ Metadata.empty with
          name := some "community", «namespace» := some "marketplace", uid := some "r-1" },
        ⟨["etcd"]⟩, none⟩
    let b : Blueprint := ⟨"community", "marketplace", "r-1", "quay.io/registry:1"⟩
    let lookup : Lookup := fun p => .error (.packageNotFound p)
    let c := LocalCluster.empty.insert .role (b.role [⟨"marketplace", "upstream"⟩])
    let role := (c.object .role "marketplace" "community").getD .null
    let s := Shared.passes c (fun _ : Unit => lookup) (fun _ => r) fun _ => b.image
    let moves := [.turn (), .turn (), .turn (), .deed (.insert .role role)]
    let j := Managed.amend .role role (b.role [])
    c.Reachable ∧ (s.after moves).call? () = some (.replace .role "marketplace" j) ∧
      (∃ before between live, moves = before ++ .turn () :: between ∧
        s.AsRead () (.of lookup r b) .role j live before between) ∧
      (LocalCluster.answer (.replace .role "marketplace" j) (s.after moves).cluster).1 =
        .error (.conflict ⟨"Role", "marketplace", "community"⟩) := by
  intro r b lookup c role s moves j
  have hc : c.Reachable := .insert _ _ .empty
  have hcall : (s.after moves).call? () = some (.replace .role "marketplace" j) := by
    decide +kernel
  refine ⟨hc, hcall, ?_, by decide +kernel⟩
  obtain ⟨b', before, between, live, hb, -, hmoves, hread⟩ :=
    replaces_what_was_read hc (fun _ : Unit => lookup) (fun _ => r) (fun _ => b.image) hcall
  obtain rfl : b = b' := Except.ok.inj hb
  exact ⟨before, between, live, hmoves, hread⟩

end RegistryKeeper
