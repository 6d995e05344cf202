import RegistryKeeper.Proofs.Restamps
import RegistryKeeper.Proofs.Transcripts
import RegistryKeeper.Proofs.TurnEffects

namespace RegistryKeeper

def Program.calls {α σ : Type} (answer : (c : Call) → σ → c.Answer × σ) (p : Program α) (s : σ) :
    List Call :=
  (p.transcript answer s).map (·.call)

inductive Stage.Alike (base : Store ManagedKind) : Stage → Stage → Prop where
  | same (st : Stage) : Alike base st st
  | closed {outcome outcome' : Except Failure String} (h : Readdressed base outcome outcome') :
      Alike base (.closed outcome) (.closed outcome')

theorem Stage.Alike.ahead {base : Store ManagedKind} {st st' : Stage} {k : ManagedKind}
    (h : st.Alike base st') (hk : st.Ahead k) : st'.Ahead k := by
  cases h with
  | same => exact hk
  | closed houtcome => exact hk.elim

theorem Store.Later.of_effected {p : Plan} {st : Stage} {base s s' : Store ManagedKind}
    (h : base.Later s) (he : p.Effected s st s') (hs : s'.Sound) : base.Later s' :=
  ⟨Nat.le_trans h.versions he.versions, Nat.le_trans h.addresses he.addresses, hs.drawn⟩

namespace Plan

def call? (p : Plan) (st : Stage) : Option Call :=
  match p.act st with
  | .finish _ => none
  | .call c _ => some c

section
variable {p : Plan} {st st' : Stage} {base : Store ManagedKind}

theorem call?_program {ι : Type} {s : Shared ι (Except Failure String)} {i : ι}
    (h : s.programs i = p.program st) : s.call? i = p.call? st := by
  rw [Shared.call?, h, p.program_eq, call?]
  cases p.act st <;> rfl

theorem call?_of_alike (h : st.Alike base st') : p.call? st = p.call? st' := by
  cases h <;> rfl

theorem of_call?_eq_none (h : p.call? st = none) (c : LocalCluster) :
    (∃ outcome, p.program st = .done outcome) ∧ p.turn st c = (st, c) := by
  cases ha : p.act st with
  | finish outcome =>
      rw [p.program_eq, turn, ha]
      exact ⟨⟨outcome, rfl⟩, rfl⟩
  | call call next =>
      rw [call?, ha] at h
      cases h

theorem call?_eq_none_of_done {outcome : Except Failure String}
    (h : p.program st = .done outcome) : p.call? st = none := by
  rw [p.program_eq] at h
  rw [call?]
  cases hact : p.act st with
  | finish outcome' => rfl
  | call c next =>
      rw [hact] at h
      cases h

theorem calls_of_call? {call : Call} (h : p.call? st = some call) (c : LocalCluster) :
    (p.program st).calls LocalCluster.answer c =
      call :: (p.program (p.turn st c).1).calls LocalCluster.answer (p.turn st c).2 := by
  cases ha : p.act st with
  | finish outcome =>
      rw [call?, ha] at h
      cases h
  | call call' next =>
      rw [call?, ha] at h
      cases h
      rw [p.program_eq, turn, ha]
      rfl

theorem calls_eq_nil_iff (c : LocalCluster) :
    (p.program st).calls LocalCluster.answer c = [] ↔ p.call? st = none := by
  constructor
  · intro h
    cases hcall : p.call? st with
    | none => rfl
    | some call =>
        rw [calls_of_call? hcall] at h
        cases h
  · intro h
    obtain ⟨⟨outcome, hdone⟩, -⟩ := of_call?_eq_none h c
    rw [hdone]
    rfl

end

section
variable {p : Plan} {base s s' : Store ManagedKind} {k : ManagedKind} {st st' : Stage}

theorem alike_next {i j : Json} (h : Restamped base k i j) :
    (next k i).Alike base (next k j) := by
  cases k with
  | service => exact .closed h.addressOfService
  | serviceAccount | role | roleBinding | deployment => exact .same _

abbrev Matches (p : Plan) (base s s' : Store ManagedKind) (k : ManagedKind) : Prop :=
  Option.Rel (Restamped base k) (s.get? (p.place k)) (s'.get? (p.place k))

theorem Matches.of_rank_eq (h : p.Matches base s s' k) (k' : ManagedKind)
    (hk : k.rank = k'.rank) : p.Matches base s s' k' :=
  ManagedKind.rank_injective hk ▸ h

theorem matches_write (hs : base.Later s) (hs' : base.Later s') (j : Json) :
    p.Matches base (p.write s k j).2 (p.write s' k j).2 k := by
  rw [Matches, write, write, Store.get?_write_self, Store.get?_write_self]
  exact .some (.write hs hs' _ j)

theorem matches_erase :
    p.Matches base (s.erase (p.place k)) (s'.erase (p.place k)) k := by
  rw [Matches, Store.get?_erase, Store.get?_erase, if_pos rfl, if_pos rfl]
  exact .none

theorem alike_effect (fault : ManagedKind → Verb → Option Fault) (hs : base.Later s)
    (hs' : base.Later s') (h : p.Current s st) (h' : p.Current s' st)
    (hm : ∀ k, st.rank = k.rank → p.Matches base s s' k)
    (hahead : ∀ k, st.Ahead k → s.get? (p.place k) = s'.get? (p.place k)) :
    (p.effect fault s st).1.Alike base (p.effect fault s' st).1 ∧
      ∀ k, st.rank = k.rank →
        p.Matches base (p.effect fault s st).2 (p.effect fault s' st).2 k := by
  cases st with
  | failed k f | closed outcome => exact ⟨.same _, hm⟩
  | fetch k =>
      have hsame := hahead k (Nat.le_refl _)
      simp only [effect, hsame]
      cases fault k .get with
      | some f => exact ⟨.same _, hm⟩
      | none => cases s'.get? (p.place k) <;> exact ⟨.same _, hm⟩
  | make k =>
      have own := (matches_write (p := p) (k := k) hs hs' (p.desired k)).of_rank_eq
      have hfound := hm k rfl
      simp only [effect]
      cases fault k .create with
      | some f => cases f <;> first | exact ⟨.same _, hm⟩ | exact ⟨.same _, own⟩
      | none =>
          rw [Matches] at hfound
          generalize s.get? (p.place k) = o, s'.get? (p.place k) = o' at hfound
          cases hfound with
          | none => exact ⟨alike_next (.write hs hs' _ _), own⟩
          | some hj => exact ⟨.same _, hm⟩
  | amend k live =>
      simp only [effect, h.2, h'.2, if_true]
      cases fault k .replace with
      | some f => exact ⟨.same _, hm⟩
      | none => exact ⟨alike_next (.write hs hs' _ _), (matches_write hs hs' _).of_rank_eq⟩
  | clear k =>
      have hfound := hm k rfl
      rw [Matches] at hfound
      simp only [effect]
      cases fault k .delete with
      | some f => exact ⟨.same _, hm⟩
      | none =>
          generalize s.get? (p.place k) = o, s'.get? (p.place k) = o' at hfound
          cases hfound with
          | none => exact ⟨.same _, hm⟩
          | some hj => exact ⟨.same _, matches_erase.of_rank_eq⟩
  | reread k =>
      have hfound := hm k rfl
      rw [Matches] at hfound
      simp only [effect]
      cases fault k .get with
      | some f => exact ⟨.same _, hm⟩
      | none =>
          refine ⟨alike_next ?_, hm⟩
          generalize s.get? (p.place k) = o, s'.get? (p.place k) = o' at hfound
          cases hfound with
          | none => exact .same _
          | some hj => exact hj

end

structure Mirrors (p : Plan) (base : Store ManagedKind) (st : Stage) (c : LocalCluster)
    (st' : Stage) (c' : LocalCluster) : Prop where
  sound : c.store.Sound
  sound' : c'.store.Sound
  later : base.Later c.store
  later' : base.Later c'.store
  fault : c.fault = c'.fault
  current : p.Current c.store st
  current' : p.Current c'.store st'
  stages : st.Alike base st'
  objects : ∀ k, p.Matches base c.store c'.store k
  ahead : ∀ k, st.Ahead k → c.store.get? (p.place k) = c'.store.get? (p.place k)

namespace Mirrors
variable {p : Plan} {base : Store ManagedKind} {st st' : Stage} {c c' d : LocalCluster}

theorem start (p : Plan) (hc : c.store.Sound) :
    p.Mirrors c.store (.fetch .serviceAccount) c (.fetch .serviceAccount) c where
  sound := hc
  sound' := hc
  later := ⟨Nat.le_refl _, Nat.le_refl _, hc.drawn⟩
  later' := ⟨Nat.le_refl _, Nat.le_refl _, hc.drawn⟩
  fault := rfl
  current := trivial
  current' := trivial
  stages := .same _
  objects := fun _ => Restamped.refl _
  ahead := fun _ _ => rfl

theorem turn (h : p.Mirrors base st c st' c') :
    p.Mirrors base (p.turn st c).1 (p.turn st c).2 (p.turn st' c').1 (p.turn st' c').2 := by
  cases h.stages with
  | closed houtcome => exact h
  | same =>
      have heffect := effected_turn h.current h.sound
      have heffect' := effected_turn h.current' h.sound'
      obtain ⟨hstages, hown⟩ := alike_effect c.fault h.later h.later' h.current h.current'
        (fun k _ => h.objects k) h.ahead
      have hnext : (p.turn st c).1.Alike base (p.turn st c').1 := by
        rw [fst_turn h.current h.sound, fst_turn h.current' h.sound', ← h.fault]
        exact hstages
      constructor
      case sound => exact sound_turn h.sound p st
      case sound' => exact sound_turn h.sound' p st
      case later => exact h.later.of_effected heffect (sound_turn h.sound p st)
      case later' => exact h.later'.of_effected heffect' (sound_turn h.sound' p st)
      case fault => rw [fault_turn, fault_turn, h.fault]
      case current => exact current_turn h.current h.sound
      case current' => exact current_turn h.current' h.sound'
      case stages => exact hnext
      case objects =>
        intro k
        by_cases hrank : st.rank = k.rank
        · rw [store_turn h.current h.sound, store_turn h.current' h.sound', ← h.fault]
          exact hown k hrank
        · rw [Matches, heffect.get?_place hrank, heffect'.get?_place hrank]
          exact h.objects k
      case ahead =>
        intro k hk
        obtain ⟨hbefore, hsame⟩ := ahead_turn h.current h.sound hk
        rw [hsame, (ahead_turn h.current' h.sound' (hnext.ahead hk)).2]
        exact h.ahead k hbefore

theorem elsewhere (h : p.Mirrors base st c st' c') (hd : d.store.Sound)
    (hversions : c.store.versions ≤ d.store.versions)
    (haddresses : c.store.addresses ≤ d.store.addresses) (hfault : d.fault = c.fault)
    (hsame : ∀ k, d.store.get? (p.place k) = c.store.get? (p.place k)) :
    p.Mirrors base st d st' c' where
  sound := hd
  sound' := h.sound'
  later := ⟨Nat.le_trans h.later.versions hversions, Nat.le_trans h.later.addresses haddresses,
    hd.drawn⟩
  later' := h.later'
  fault := hfault.trans h.fault
  current := h.current.congr hsame
  current' := h.current'
  stages := h.stages
  objects := fun k => by
    rw [Matches, hsame k]
    exact h.objects k
  ahead := fun k hk => (hsame k).trans (h.ahead k hk)

end Mirrors

end Plan

end RegistryKeeper
