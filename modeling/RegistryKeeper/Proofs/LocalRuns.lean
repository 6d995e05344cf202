import RegistryKeeper.Cluster.Converge
import RegistryKeeper.Proofs.CallEffects

namespace RegistryKeeper

namespace Managed

def owned (k : ManagedKind) (live : Json) : List (List String) :=
  match k with
  | .role => [["rules"]]
  | .roleBinding => [["roleRef"], ["subjects"]]
  | .deployment =>
      match live.field? "spec" with
      | none => [["spec"]]
      | some _ => [["spec", "template"]]
  | .serviceAccount | .service => []

theorem agreeOff_copyField (k : String) (source j : Json) :
    Json.AgreeOff [[k]] j (copyField k source j) := by
  unfold copyField
  split
  · exact Json.agreeOff_setAt j [k] _
  · exact Json.agreeOff_withoutField j k

theorem agreeOff_amend (k : ManagedKind) (live desired : Json) :
    Json.AgreeOff (owned k live) live (amend k live desired) := by
  cases k with
  | serviceAccount | service => exact .refl _ live
  | role => exact agreeOff_copyField "rules" desired live
  | roleBinding =>
      have hroleRef := agreeOff_copyField "roleRef" desired live
      have hsubjects := agreeOff_copyField "subjects" desired (copyField "roleRef" desired live)
      exact (hroleRef.mono (by simp [owned])).trans (hsubjects.mono (by simp [owned]))
  | deployment =>
      simp only [amend, owned]
      cases desired.field? "spec" with
      | none => exact .refl _ live
      | some spec =>
          cases hlive : live.field? "spec" with
          | none => exact Json.agreeOff_setAt live ["spec"] spec
          | some own =>
              simp only [Json.withField_withField_eq_setAt hlive]
              exact Json.agreeOff_setAt live ["spec", "template"] _

theorem apart_metadata_of_owned {k : ManagedKind} {live : Json} {p : List String}
    (h : p ∈ owned k live) (q : List String) : Json.Apart p ("metadata" :: q) := by
  cases k with
  | serviceAccount | service => cases h
  | role =>
      rw [List.mem_singleton.1 h]
      exact Json.apart_cons_of_ne (by decide) [] q
  | roleBinding =>
      rcases List.mem_cons.1 h with rfl | h
      · exact Json.apart_cons_of_ne (by decide) [] q
      · rw [List.mem_singleton.1 h]
        exact Json.apart_cons_of_ne (by decide) [] q
  | deployment =>
      unfold owned at h
      cases hspec : live.field? "spec" with
      | none =>
          rw [hspec] at h
          rw [List.mem_singleton.1 h]
          exact Json.apart_cons_of_ne (by decide) [] q
      | some own =>
          rw [hspec] at h
          rw [List.mem_singleton.1 h]
          exact Json.apart_cons_of_ne (by decide) ["template"] q

theorem at?_amend_metadata (k : ManagedKind) (live desired : Json) (q : List String) :
    (amend k live desired).at? ("metadata" :: q) = live.at? ("metadata" :: q) :=
  agreeOff_amend k live desired _ fun _ hp => apart_metadata_of_owned hp q

theorem nameOf_amend (k : ManagedKind) (live desired : Json) :
    nameOf (amend k live desired) = nameOf live := by
  rw [nameOf, nameOf, Json.textAt?, Json.textAt?, at?_amend_metadata]

theorem versionOf_amend (k : ManagedKind) (live desired : Json) :
    versionOf (amend k live desired) = versionOf live := by
  rw [versionOf, versionOf, Json.textAt?, Json.textAt?, at?_amend_metadata]

theorem uid_amend (k : ManagedKind) (live desired : Json) :
    (amend k live desired).blankAt uidPath = live.blankAt uidPath := by
  rw [Json.blankAt, Json.blankAt, at?_amend_metadata]

end Managed

structure Store.Sound (s : Store ManagedKind) : Prop where
  filed : s.All fun p j => (Managed.nameOf j).getD "" = p.name
  uids : s.All fun _ j => j.blankAt uidPath = false
  drawn : s.addressing = .drawn

namespace Store.Sound
variable {s : Store ManagedKind}

theorem write (h : s.Sound) {p : Place ManagedKind} {isService : Bool} {j : Json}
    (hj : (Managed.nameOf j).getD "" = p.name) : (s.write p isService j).2.Sound :=
  ⟨h.filed.write (by simpa using hj), h.uids.write (uid_write ..), h.drawn⟩

theorem erase (h : s.Sound) (p : Place ManagedKind) : (s.erase p).Sound :=
  ⟨h.filed.erase p, h.uids.erase p, h.drawn⟩

theorem step (h : s.Sound) {e : Option (Place ManagedKind × Json)} {s' : Store ManagedKind}
    (hstep : s.Step e s') : s'.Sound := by
  cases hstep with
  | wrote p j hname => exact h.write hname
  | erased p => exact h.erase p
  | kept => exact h

end Store.Sound

namespace LocalCluster

/-- Clusters after any sequence of inserts and calls, passes being made of calls, and of changes
to what is to fail. -/
inductive Reachable : LocalCluster → Prop where
  | empty : Reachable .empty
  | insert {c : LocalCluster} (k : ManagedKind) (j : Json) : Reachable c → Reachable (c.insert k j)
  | fail {c : LocalCluster} (v : Verb) (k : ManagedKind) (f : Fault) :
      Reachable c → Reachable (c.fail v k f)
  | clearFaults {c : LocalCluster} : Reachable c → Reachable c.clearFaults
  | clearCalls {c : LocalCluster} : Reachable c → Reachable c.clearCalls
  | call {c : LocalCluster} (call : Call) : Reachable c → Reachable (answer call c).2

theorem Reachable.run {α : Type} (p : Program α) {c : LocalCluster} (h : Reachable c) :
    Reachable (p.run answer c).2 := by
  induction p generalizing c with
  | done a => exact h
  | call call next ih => exact ih _ (h.call call)

theorem sound_answer {c : LocalCluster} (h : c.store.Sound) (call : Call) :
    (answer call c).2.store.Sound :=
  h.step (c.answered call).step

theorem Reachable.sound {c : LocalCluster} (h : Reachable c) : c.store.Sound := by
  induction h with
  | empty => exact ⟨.empty _, .empty _, rfl⟩
  | insert k j _ ih => exact ih.step (step_insert _ k j)
  | fail v k f _ ih => exact ih
  | clearFaults _ ih => exact ih
  | clearCalls _ ih => exact ih
  | call call _ ih => exact sound_answer ih call

theorem answer_of_no_faults {c : LocalCluster} (h : c.faults = .empty) (call : Call) :
    answer call c = serve call (c.record call) := by
  have hn : (c.record call).faults.get? (call.verb, call.kind) = none := by
    rw [show (c.record call).faults = .empty from h]
    rfl
  simp only [answer, hn]

end LocalCluster

def Store.settle (s : Store ManagedKind) (k : ManagedKind) (n m : String) (desired : Json) :
    Json × Store ManagedKind :=
  match s.get? ⟨k, n, m⟩ with
  | none => s.write ⟨k, n, m⟩ (k = .service) desired
  | some live =>
      match k.drift with
      | .leave => (live, s)
      | .amend => s.write ⟨k, n, m⟩ (k = .service) (Managed.amend k live desired)
      | .renew => (s.erase ⟨k, n, m⟩).write ⟨k, n, m⟩ (k = .service) desired

namespace LocalCluster
variable {c : LocalCluster} {k : ManagedKind} {n m : String} {desired : Json}

theorem run_make (hf : c.faults = .empty) (hn : (Managed.nameOf desired).getD "" = m)
    (ha : c.object k n m = none) :
    ∃ calls, Program.run answer (make k n desired).run c =
      (.ok (c.write k n m desired).1, { (c.write k n m desired).2 with calls }) := by
  refine ⟨c.calls ++ [⟨.create, k, m⟩], ?_⟩
  have ho : (c.record (.create k n desired)).object k n m = none := ha
  simp only [make, ExceptT.run, ExceptT.mk, Program.run_call, answer_of_no_faults hf, serve, hn, ho,
    Program.run_done]
  simp only [record, write, Call.verb, Call.kind, Call.name, hn]

theorem run_replace (hf : c.faults = .empty) {live j : Json} (hl : c.object k n m = some live)
    (hn : (Managed.nameOf j).getD "" = m) (hv : Managed.versionOf j = Managed.versionOf live) :
    ∃ calls, Program.run answer (Pass.replace k n j).run c =
      (.ok (c.write k n m j).1, { (c.write k n m j).2 with calls }) := by
  refine ⟨c.calls ++ [⟨.replace, k, m⟩], ?_⟩
  have ho : (c.record (.replace k n j)).object k n m = some live := hl
  simp only [Pass.replace, ExceptT.run, ExceptT.mk, Program.run_call, answer_of_no_faults hf, serve,
    hn, ho, hv, if_true, Program.run_done]
  simp only [record, write, Call.verb, Call.kind, Call.name, hn]

theorem run_renew (hf : c.faults = .empty) {live : Json} (hl : c.object k n m = some live)
    (hn : (Managed.nameOf desired).getD "" = m) :
    ∃ calls, Program.run answer (renew k n m desired).run c =
      (.ok ((c.store.erase ⟨k, n, m⟩).write ⟨k, n, m⟩ (k = .service) desired).1,
        ⟨((c.store.erase ⟨k, n, m⟩).write ⟨k, n, m⟩ (k = .service) desired).2, .empty, calls⟩) := by
  have ho : (c.record (.delete k n m)).object k n m = some live := hl
  let c' : LocalCluster :=
    { c.record (.delete k n m) with store := c.store.erase ⟨k, n, m⟩ }
  have hc' : c'.object k n m = none := by
    simp [c', object, Store.get?_erase]
  obtain ⟨calls, hr⟩ := run_make (c := c') hf hn hc'
  refine ⟨calls, ?_⟩
  simp only [renew, ExceptT.run, ExceptT.mk, Program.run_call, answer_of_no_faults hf, serve, ho]
  refine hr.trans ?_
  simp [c', write, record, hf]

theorem run_converge (hs : c.store.Sound) (hf : c.faults = .empty)
    (hp : Managed.place desired = .ok (n, m)) :
    ∃ calls, Program.run answer (converge k desired).run c =
      (.ok (c.store.settle k n m desired).1,
        ⟨(c.store.settle k n m desired).2, .empty, calls⟩) := by
  have hn := Managed.nameOf_getD_of_place hp
  let c' := c.record (.get k n m)
  have hf' : c'.faults = .empty := hf
  have hget : Program.run answer (converge k desired).run c =
      match c.object k n m with
      | none => Program.run answer (make k n desired).run c'
      | some live =>
          match k.drift with
          | .leave => (.ok live, c')
          | .amend =>
              Program.run answer (Pass.replace k n (Managed.amend k live desired)).run c'
          | .renew => Program.run answer (renew k n m desired).run c' := by
    rw [run_converge_of_place k hp, Program.run_call, answer_of_no_faults hf]
    simp only [serve, c', show (c.record (.get k n m)).object k n m = c.object k n m from rfl]
    cases c.object k n m with
    | none => rfl
    | some live => cases k.drift <;> rfl
  rw [hget]
  cases hl : c.object k n m with
  | none =>
      have hl' : c.store.get? ⟨k, n, m⟩ = none := hl
      obtain ⟨calls, hr⟩ := run_make (c := c') hf' hn hl
      refine ⟨calls, hr.trans ?_⟩
      simp [Store.settle, hl', c', write, record, hf]
  | some live =>
      have hl' : c.store.get? ⟨k, n, m⟩ = some live := hl
      have hlive : (Managed.nameOf live).getD "" = m := hs.filed _ _ hl'
      cases hk : k.drift with
      | leave =>
          refine ⟨c'.calls, ?_⟩
          simp [Store.settle, hl', hk, c', record, hf]
      | amend =>
          have hname : (Managed.nameOf (Managed.amend k live desired)).getD "" = m := by
            rw [Managed.nameOf_amend, hlive]
          obtain ⟨calls, hr⟩ :=
            run_replace (c := c') hf' hl hname (Managed.versionOf_amend k live desired)
          refine ⟨calls, hr.trans ?_⟩
          simp [Store.settle, hl', hk, c', write, record, hf]
      | renew =>
          obtain ⟨calls, hr⟩ := run_renew (c := c') hf' hl hn
          refine ⟨calls, hr.trans ?_⟩
          simp [Store.settle, hl', hk, c', record]

end LocalCluster

end RegistryKeeper
