import RegistryKeeper.Proofs.FaultyRuns
import RegistryKeeper.Proofs.Turns

namespace RegistryKeeper

theorem Store.addresses_le_write {κ : Type} [DecidableEq κ] (s : Store κ) (p : Place κ)
    (isService : Bool) (j : Json) : s.addresses ≤ (s.write p isService j).2.addresses := by
  change s.addresses ≤ (s.addressed isService (withIdentity (s.versions + 1) j)).2
  unfold addressed
  split
  · cases s.addressing with
    | drawn => exact Nat.le_succ _
    | fixed address => exact Nat.le_refl _
    | absent => exact Nat.le_refl _
  · exact Nat.le_refl _

namespace Plan
variable {p : Plan} {k : ManagedKind} {s : Store ManagedKind} {st : Stage}

def effect (p : Plan) (fault : ManagedKind → Verb → Option Fault) (s : Store ManagedKind) :
    Stage → Stage × Store ManagedKind
  | .fetch k =>
      match fault k .get with
      | some f => (.failed k (f.failure (p.named k)), s)
      | none =>
          match s.get? (p.place k) with
          | none => (.make k, s)
          | some live => (found k live, s)
  | .make k =>
      match fault k .create with
      | some .race => (p.outrun k, (p.write s k (p.desired k)).2)
      | some f => (.failed k (f.failure (p.named k)), s)
      | none =>
          match s.get? (p.place k) with
          | none => (next k (p.write s k (p.desired k)).1, (p.write s k (p.desired k)).2)
          | some _ => (p.outrun k, s)
  | .amend k live =>
      match fault k .replace with
      | some f => (.failed k (f.failure (p.named k)), s)
      | none =>
          match s.get? (p.place k) with
          | none => (.failed k (.notFound (p.named k)), s)
          | some current =>
              if Managed.versionOf live = Managed.versionOf current then
                (next k (p.write s k (Managed.amend k live (p.desired k))).1,
                  (p.write s k (Managed.amend k live (p.desired k))).2)
              else (.failed k (.conflict (p.named k)), s)
  | .clear k =>
      match fault k .delete, s.get? (p.place k) with
      | none, some _ => (.make k, s.erase (p.place k))
      | _, _ => (.make k, s)
  | .reread k =>
      match fault k .get with
      | some f => (.failed k (f.failure (p.named k)), s)
      | none => (next k ((s.get? (p.place k)).getD (p.desired k)), s)
  | .failed k f => (.failed k f, s)
  | .closed outcome => (.closed outcome, s)

theorem turn_eq_effect {c : LocalCluster} (hst : st.Proper p.blueprint.name) :
    p.effect c.fault c.store st = ((p.turn st c).1, (p.turn st c).2.store) := by
  cases st with
  | failed k f => rfl
  | closed outcome => rfl
  | fetch k =>
      simp only [turn, act, effect]
      cases hf : c.fault k .get with
      | some f =>
          rw [LocalCluster.answer_of_fault hf]
          cases f <;> rfl
      | none =>
          rw [LocalCluster.answer_of_no_fault hf]
          simp only [LocalCluster.serve, object_record]
          cases c.store.get? (p.place k) <;> rfl
  | make k =>
      simp only [turn, act, effect]
      cases hf : c.fault k .create with
      | some f =>
          rw [LocalCluster.answer_of_fault hf]
          cases f with
          | transport => rfl
          | conflict =>
              simp only [Call.refuse, Call.named, Call.name, p.name_desired]
              rfl
          | race =>
              have hplace := p.blueprint.place_desired (serverCommand p.packages p.sources)
                p.sources k
              simp only [LocalCluster.disturb]
              rw [desired, LocalCluster.insert_of_place hplace]
              rfl
      | none =>
          rw [LocalCluster.answer_of_no_fault hf]
          simp only [LocalCluster.serve, p.name_desired, object_record]
          cases c.store.get? (p.place k) <;> rfl
  | amend k live =>
      have hname := (Managed.nameOf_amend k live (p.desired k)).symm ▸ hst.2
      simp only [turn, act, effect]
      cases hf : c.fault k .replace with
      | some f =>
          rw [LocalCluster.answer_of_fault hf]
          cases f <;> simp only [Call.refuse, Call.named, Call.name, hname] <;> rfl
      | none =>
          rw [LocalCluster.answer_of_no_fault hf]
          simp only [LocalCluster.serve, hname, Managed.versionOf_amend, object_record]
          cases c.store.get? (p.place k) with
          | none => rfl
          | some current =>
              by_cases hversion : Managed.versionOf live = Managed.versionOf current
              · simp only [if_pos hversion]
                rfl
              · simp only [if_neg hversion]
                rfl
  | clear k =>
      simp only [turn, act, effect]
      cases hf : c.fault k .delete with
      | some f =>
          rw [LocalCluster.answer_of_fault hf]
          cases f <;> rfl
      | none =>
          rw [LocalCluster.answer_of_no_fault hf]
          simp only [LocalCluster.serve, object_record]
          cases c.store.get? (p.place k) <;> rfl
  | reread k =>
      simp only [turn, act, effect]
      cases hf : c.fault k .get with
      | some f =>
          rw [LocalCluster.answer_of_fault hf]
          cases f <;> rfl
      | none =>
          rw [LocalCluster.answer_of_no_fault hf]
          rfl

inductive Effected (p : Plan) (s : Store ManagedKind) : Stage → Store ManagedKind → Prop where
  | kept (st : Stage) : Effected p s st s
  | made (k : ManagedKind) : Effected p s (.make k) (p.write s k (p.desired k)).2
  | amended (k : ManagedKind) (live : Json) :
      Effected p s (.amend k live) (p.write s k (Managed.amend k live (p.desired k))).2
  | erased (k : ManagedKind) : Effected p s (.clear k) (s.erase (p.place k))

theorem effected (p : Plan) (fault : ManagedKind → Verb → Option Fault) (s : Store ManagedKind)
    (st : Stage) : p.Effected s st (p.effect fault s st).2 := by
  cases st with
  | failed k f | closed outcome => exact .kept _
  | fetch k =>
      simp only [effect]
      split
      · exact .kept _
      · split <;> exact .kept _
  | make k =>
      simp only [effect]
      split
      · exact .made k
      · exact .kept _
      · split
        · exact .made k
        · exact .kept _
  | amend k live =>
      simp only [effect]
      split
      · exact .kept _
      · split
        · exact .kept _
        · split
          · exact .amended k live
          · exact .kept _
  | clear k =>
      simp only [effect]
      split
      · exact .erased k
      · exact .kept _
  | reread k =>
      simp only [effect]
      split <;> exact .kept _

namespace Effected
variable {s' : Store ManagedKind}

theorem get? (h : p.Effected s st s') {q : Place ManagedKind}
    (hq : ∀ k, st.rank = k.rank → p.place k ≠ q) : s'.get? q = s.get? q := by
  cases h with
  | kept => rfl
  | made k | amended k live => exact (Store.get?_write ..).trans (if_neg (hq k rfl))
  | erased k => exact (Store.get?_erase ..).trans (if_neg (hq k rfl))

theorem get?_place (h : p.Effected s st s') (hne : st.rank ≠ k.rank) :
    s'.get? (p.place k) = s.get? (p.place k) := by
  apply h.get?
  rintro k' hk' heq
  exact hne (place_injective heq ▸ hk')

theorem eq_of_fetch (h : p.Effected s (.fetch k) s') : s' = s := by
  cases h
  rfl

theorem versions (h : p.Effected s st s') : s.versions ≤ s'.versions := by
  cases h with
  | kept | erased k => exact Nat.le_refl _
  | made k | amended k live => exact Nat.le_succ _

theorem addresses (h : p.Effected s st s') : s.addresses ≤ s'.addresses := by
  cases h with
  | kept | erased k => exact Nat.le_refl _
  | made k | amended k live => exact Store.addresses_le_write ..

end Effected

section
variable {fault : ManagedKind → Verb → Option Fault}

def Current (p : Plan) (s : Store ManagedKind) : Stage → Prop
  | .amend k live => k.drift = .amend ∧ s.get? (p.place k) = some live
  | .make k => k.drift ≠ .renew → s.get? (p.place k) = none
  | .clear k | .reread k => k.drift = .renew
  | .fetch _ | .failed _ _ | .closed _ => True

theorem Current.proper (h : p.Current s st) (hs : s.Sound) : st.Proper p.blueprint.name := by
  cases st with
  | amend k live => exact ⟨h.1, hs.filed _ _ h.2⟩
  | clear k | reread k => exact h
  | fetch k | make k | failed k f | closed outcome => trivial

theorem Current.congr {s' : Store ManagedKind} (h : p.Current s st)
    (hs : ∀ k, s'.get? (p.place k) = s.get? (p.place k)) : p.Current s' st := by
  cases st with
  | amend k live => exact ⟨h.1, (hs k).trans h.2⟩
  | make k => exact fun hk => (hs k).trans (h hk)
  | clear k | reread k => exact h
  | fetch k | failed k f | closed outcome => trivial

theorem current_next (p : Plan) (s : Store ManagedKind) (k : ManagedKind) (settled : Json) :
    p.Current s (next k settled) := by
  cases k <;> trivial

theorem current_outrun (p : Plan) (s : Store ManagedKind) (k : ManagedKind) :
    p.Current s (p.outrun k) := by
  cases k <;> trivial

theorem current_effect (h : p.Current s st) :
    p.Current (p.effect fault s st).2 (p.effect fault s st).1 := by
  cases st with
  | failed k f | closed outcome => trivial
  | fetch k =>
      simp only [effect]
      split
      · trivial
      · cases hlive : s.get? (p.place k) with
        | none => exact fun _ => hlive
        | some live =>
            unfold found
            cases hk : k.drift with
            | leave => exact current_next ..
            | amend => exact ⟨hk, hlive⟩
            | renew => exact hk
  | make k =>
      simp only [effect]
      split
      · exact current_outrun ..
      · trivial
      · split
        · exact current_next ..
        · exact current_outrun ..
  | amend k live =>
      simp only [effect]
      split
      · trivial
      · split
        · trivial
        · split
          · exact current_next ..
          · trivial
  | clear k =>
      simp only [effect]
      split <;> exact fun hk => absurd h hk
  | reread k =>
      simp only [effect]
      split
      · trivial
      · exact current_next ..

end

section
variable {c : LocalCluster}

theorem fst_turn (h : p.Current c.store st) (hc : c.store.Sound) :
    (p.turn st c).1 = (p.effect c.fault c.store st).1 :=
  congrArg Prod.fst (turn_eq_effect (h.proper hc)).symm

theorem store_turn (h : p.Current c.store st) (hc : c.store.Sound) :
    (p.turn st c).2.store = (p.effect c.fault c.store st).2 :=
  congrArg Prod.snd (turn_eq_effect (h.proper hc)).symm

theorem current_turn (h : p.Current c.store st) (hc : c.store.Sound) :
    p.Current (p.turn st c).2.store (p.turn st c).1 := by
  rw [fst_turn h hc, store_turn h hc]
  exact current_effect h

theorem effected_turn (h : p.Current c.store st) (hc : c.store.Sound) :
    p.Effected c.store st (p.turn st c).2.store := by
  rw [store_turn h hc]
  exact p.effected c.fault c.store st

theorem fault_turn (p : Plan) (st : Stage) (c : LocalCluster) :
    (p.turn st c).2.fault = c.fault := by
  funext k v
  rw [LocalCluster.fault, LocalCluster.fault, faults_turn]

end

end Plan

def Stage.Ahead (k : ManagedKind) : Stage → Prop
  | .fetch k' | .amend k' _ => k'.rank ≤ k.rank
  | .make k' | .clear k' | .reread k' | .failed k' _ => k'.rank < k.rank
  | .closed _ => False

theorem Stage.ahead_of_rank_lt {st : Stage} {k : ManagedKind} (h : st.rank < k.rank) :
    st.Ahead k := by
  cases st with
  | fetch k' | amend k' live => exact Nat.le_of_lt h
  | make k' | clear k' | reread k' | failed k' f => exact h
  | closed outcome => exact absurd (Nat.lt_of_succ_lt h) (Nat.not_lt_of_le k.rank_le_service)

theorem Stage.rank_ne_of_ahead {st : Stage} {k : ManagedKind} (h : st.Ahead k)
    (hleft : st.left = 0) : st.rank ≠ k.rank := by
  cases st with
  | failed k' f => exact Nat.ne_of_lt h
  | closed outcome => exact h.elim
  | fetch k' | make k' => cases k' <;> cases hleft
  | amend k' live | clear k' | reread k' => cases k' <;> cases hleft

namespace Plan
variable {p : Plan} {k k' : ManagedKind} {st st' : Stage} {c : LocalCluster}

theorem ahead_next {settled : Json} (h : (next k' settled).Ahead k) : k'.rank < k.rank := by
  rcases next_cases k' settled with ⟨-, hnext⟩ | ⟨-, k'', hrank, hnext⟩
  · rw [hnext] at h
    exact h.elim
  · rw [hnext] at h
    have hle : k''.rank ≤ k.rank := h
    omega

theorem ahead_outrun (h : (p.outrun k').Ahead k) : k'.rank < k.rank := by
  unfold outrun at h
  cases hd : k'.drift with
  | leave | amend =>
      simp only [hd] at h
      exact ahead_next h
  | renew =>
      simp only [hd] at h
      exact h

theorem ahead_found {live : Json} (h : (found k' live).Ahead k) : k'.rank ≤ k.rank := by
  unfold found at h
  cases hd : k'.drift with
  | leave =>
      simp only [hd] at h
      exact Nat.le_of_lt (ahead_next h)
  | amend =>
      simp only [hd] at h
      exact h
  | renew =>
      simp only [hd] at h
      exact Nat.le_of_lt h

theorem Follows.ahead (h : p.Follows st st') (hk : st'.Ahead k) :
    st.Ahead k ∧ ((∃ k', st = .fetch k') ∨ st.rank ≠ k.rank) := by
  cases h with
  | absent k' => exact ⟨Nat.le_of_lt hk, .inl ⟨k', rfl⟩⟩
  | found k' live => exact ⟨ahead_found hk, .inl ⟨k', rfl⟩⟩
  | created k' j => exact ⟨ahead_next hk, .inr (Nat.ne_of_lt (ahead_next hk))⟩
  | outrun k' => exact ⟨ahead_outrun hk, .inr (Nat.ne_of_lt (ahead_outrun hk))⟩
  | replaced k' live j =>
      exact ⟨Nat.le_of_lt (ahead_next hk), .inr (Nat.ne_of_lt (ahead_next hk))⟩
  | cleared k' => exact ⟨hk, .inr (Nat.ne_of_lt hk)⟩
  | reread k' j => exact ⟨ahead_next hk, .inr (Nat.ne_of_lt (ahead_next hk))⟩
  | failed hrank f =>
      have hlt : st.rank < k.rank := hrank.symm ▸ hk
      exact ⟨Stage.ahead_of_rank_lt hlt, .inr (Nat.ne_of_lt hlt)⟩
  | idle hleft => exact ⟨hk, .inr (Stage.rank_ne_of_ahead hk hleft)⟩

theorem ahead_turn (h : p.Current c.store st) (hc : c.store.Sound)
    (hk : (p.turn st c).1.Ahead k) :
    st.Ahead k ∧ (p.turn st c).2.store.get? (p.place k) = c.store.get? (p.place k) := by
  obtain ⟨hahead, hrest⟩ := (p.follows_turn st c).ahead hk
  refine ⟨hahead, ?_⟩
  have heffect := effected_turn h hc
  by_cases hrank : st.rank = k.rank
  · obtain ⟨k', rfl⟩ := hrest.resolve_right (fun hne => hne hrank)
    rw [heffect.eq_of_fetch]
  · exact heffect.get?_place hrank

theorem run_turn (p : Plan) (st : Stage) (c : LocalCluster) :
    Program.run LocalCluster.answer (p.program (p.turn st c).1) (p.turn st c).2 =
      Program.run LocalCluster.answer (p.program st) c := by
  have hp := p.program_eq st
  unfold turn
  cases ha : p.act st with
  | finish outcome => rfl
  | call call next =>
      rw [ha] at hp
      rw [hp]
      rfl

theorem run_keeps {I : Stage → LocalCluster → Prop}
    (hstep : ∀ st c, I st c → I (p.turn st c).1 (p.turn st c).2) (h : I st c) :
    ∃ st', I st' (Program.run LocalCluster.answer (p.program st) c).2 := by
  induction hleft : st.left using Nat.strongRecOn generalizing st c with
  | ind n ih =>
      cases n with
      | zero =>
          obtain ⟨outcome, hdone⟩ := program_of_left_eq_zero (p := p) hleft
          rw [hdone]
          exact ⟨st, h⟩
      | succ n =>
          have hle := (p.follows_turn st c).left_le
          rw [← run_turn]
          exact ih _ (by omega) (hstep st c h) rfl

end Plan

def PackageRegistry.KeptAt (r : PackageRegistry) (namespace' name : String) : Prop :=
  r.metadata.namespace = some namespace' ∧ r.metadata.name = some name

theorem Blueprint.keptAt {r : PackageRegistry} {image : String} {b : Blueprint}
    (h : ofRegistry r image = .ok b) : r.KeptAt b.namespace b.name := by
  unfold ofRegistry at h
  split at h
  · cases h
  · cases h
  · next hname hnamespace =>
      cases h
      exact ⟨hnamespace, hname⟩

theorem Blueprint.of_keptAt {r : PackageRegistry} {n m : String} (h : r.KeptAt n m)
    (image : String) : ofRegistry r image = .ok ⟨m, n, r.metadata.uid.getD "", image⟩ := by
  simp only [ofRegistry, h.1, h.2]

end RegistryKeeper
