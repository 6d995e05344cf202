import RegistryKeeper.Proofs.Turns

namespace RegistryKeeper

def Stage.Succeeded (st : Stage) : Prop := ∃ address, st = .closed (.ok address)

namespace Plan
variable {p : Plan} {s s' : Store ManagedKind} {k : ManagedKind} {mine mine' other other' : Stage}

def Standing (p : Plan) (s : Store ManagedKind) (other : Stage) : Stage → Prop
  | .fetch _ | .clear _ => True
  | .make k => s.get? (p.place k) = none ∨ p.Fits s k ∧ (k = .service → other.Succeeded)
  | .amend k live => s.get? (p.place k) = some live ∨ k.rank < other.rank
  | .reread k => p.Fits s k ∧ other.Succeeded
  | .failed k f => f = .conflict (p.named k) ∧ k.rank < other.rank
  | .closed outcome =>
      (∃ address, outcome = .ok address) ∧ (p.Fits s .service ∨ other = .make .service)

structure View (p : Plan) (s : Store ManagedKind) (mine other : Stage) : Prop where
  proper : mine.Proper p.blueprint.name
  passed : ∀ k, k ≠ .service → k.rank < mine.rank → p.Fits s k
  standing : p.Standing s other mine

theorem standing_next (other : Stage) {settled : Json} (h : s.get? (p.place k) = some settled)
    (hsuits : p.Suits k settled) : p.Standing s other (next k settled) := by
  by_cases hk : k = .service
  · subst hk
    exact ⟨hsuits, .inl ⟨settled, h, hsuits⟩⟩
  · obtain ⟨k', hnext⟩ := next_eq_fetch hk settled
    rw [hnext]
    trivial

theorem standing_found (other : Stage) {live : Json} (h : s.get? (p.place k) = some live) :
    p.Standing s other (found k live) := by
  cases k with
  | serviceAccount | service => trivial
  | role | roleBinding | deployment => exact .inl h

theorem standing_outrun (hfits : p.Fits s k) (h : k = .service → other.Succeeded) :
    p.Standing s other (p.outrun k) := by
  cases k with
  | service => exact ⟨hfits, h rfl⟩
  | serviceAccount | role | roleBinding | deployment => trivial

theorem fits_of_present (h : p.Standing s other (.make k)) {live : Json}
    (hlive : s.get? (p.place k) = some live) :
    p.Fits s k ∧ (k = .service → other.Succeeded) := by
  rcases h with hnone | hfits
  · rw [hnone] at hlive
    cases hlive
  · exact hfits

theorem Fits.get?_ne_none (h : p.Fits s k) : s.get? (p.place k) ≠ none := by
  obtain ⟨j, hj, -⟩ := h
  rw [hj]
  exact Option.some_ne_none j

theorem eq_of_rank_next {k' : ManagedKind} (settled : Json) (hle : k'.rank ≤ k.rank)
    (hlt : k.rank < (next k' settled).rank) : k' = k := by
  rw [rank_next] at hlt
  exact ManagedKind.rank_injective (Nat.le_antisymm hle (Nat.le_of_lt_succ hlt))

theorem eq_of_rank_found {k' : ManagedKind} {live : Json} (hle : k'.rank ≤ k.rank)
    (hlt : k.rank < (found k' live).rank) : k' = k := by
  cases k' with
  | serviceAccount => exact eq_of_rank_next live hle hlt
  | role | roleBinding | deployment | service => exact absurd hlt (Nat.not_lt_of_le hle)

theorem eq_of_rank_outrun {k' : ManagedKind} (hle : k'.rank ≤ k.rank)
    (hlt : k.rank < (p.outrun k').rank) : k' = k := by
  cases k' with
  | serviceAccount | role | roleBinding | deployment => exact eq_of_rank_next .null hle hlt
  | service => exact absurd hlt (Nat.not_lt_of_le hle)

theorem suits_of_left_found {live : Json} (hk : k ≠ .service)
    (hlt : k.rank < (found k live).rank) : p.Suits k live := by
  cases k with
  | serviceAccount => trivial
  | service => exact absurd rfl hk
  | role | roleBinding | deployment => exact absurd hlt (Nat.lt_irrefl _)

theorem ne_service_of_amend (hk : k.drift = .amend) : k ≠ .service := by
  rintro rfl
  cases hk

section
variable (h : p.Turned s other other' s')
include h

theorem standing_make_of_turned (hs : s.Sound) (hnone : s.get? (p.place k) = none) :
    p.Standing s' other' (.make k) := by
  cases h with
  | @created k' h =>
      by_cases hk : k' = k
      · subst hk
        have hsuits := suits_write_desired (p := p) hs.drawn k'
        refine .inr ⟨fits_write hsuits, ?_⟩
        rintro rfl
        obtain ⟨address, haddress⟩ := hsuits
        exact ⟨address, congrArg Stage.closed haddress⟩
      · exact .inl ((get?_write_of_ne hk _).trans hnone)
  | replaced h hversion =>
      have hk := ne_of_found_of_missing h hnone
      exact .inl ((get?_write_of_ne hk _).trans hnone)
  | cleared h =>
      have hk := ne_of_found_of_missing h hnone
      exact .inl ((get?_erase_of_ne hk).trans hnone)
  | absent h | present h | beaten h | stale h hversion | gone h => exact .inl hnone
  | missing h | reread h | lost h | idle h => exact .inl hnone

theorem standing_amend_of_turned (hother : other.Proper p.blueprint.name) (hk : k.drift = .amend)
    {live : Json} (hlive : s.get? (p.place k) = some live) :
    p.Standing s' other' (.amend k live) := by
  cases h with
  | created h =>
      have hne := ne_of_found_of_missing hlive h
      exact .inl ((get?_write_of_ne hne.symm _).trans hlive)
  | @replaced k' read current h hversion =>
      by_cases hne : k' = k
      · subst hne
        exact .inr (Nat.lt_of_lt_of_eq (Nat.lt_succ_self _) (rank_next _ _).symm)
      · exact .inl ((get?_write_of_ne hne _).trans hlive)
  | @cleared k' live' h =>
      have hne : k' ≠ k := by
        rintro rfl
        exact ne_service_of_amend hk (ManagedKind.drift_eq_renew_iff.1 hother)
      exact .inl ((get?_erase_of_ne hne).trans hlive)
  | absent h | present h | beaten h | stale h hversion | gone h => exact .inl hlive
  | missing h | reread h | lost h | idle h => exact .inl hlive

theorem fits_service_of_turned (hother : other.Proper p.blueprint.name)
    (hfits : p.Fits s .service) : p.Fits s' .service ∨ other' = .make .service := by
  obtain ⟨service, hservice, hsuits⟩ := hfits
  cases h with
  | created h =>
      have hne := ne_of_found_of_missing hservice h
      exact .inl ⟨service, (get?_write_of_ne hne.symm _).trans hservice, hsuits⟩
  | replaced h hversion =>
      have hne := ne_service_of_amend hother.1
      exact .inl ⟨service, (get?_write_of_ne hne _).trans hservice, hsuits⟩
  | cleared h => exact .inr (congrArg Stage.make (ManagedKind.drift_eq_renew_iff.1 hother))
  | absent h | present h | beaten h | stale h hversion | gone h =>
      exact .inl ⟨service, hservice, hsuits⟩
  | missing h | reread h | lost h | idle h => exact .inl ⟨service, hservice, hsuits⟩

end

theorem eq_of_turned_succeeded (h : p.Turned s other other' s') (hother : other.Succeeded) :
    other' = other ∧ s' = s := by
  obtain ⟨address, rfl⟩ := hother
  cases h
  exact ⟨rfl, rfl⟩

namespace View

theorem standing_of_own_turn (h : p.Turned s mine mine' s') (hs : s.Sound)
    (hmine : p.View s mine other) (hother : p.View s other mine) : p.Standing s' other mine' := by
  have hstanding := hmine.standing
  cases h with
  | absent h => exact .inl h
  | present h => exact standing_found other h
  | created h =>
      exact standing_next other (Store.get?_write_self ..)
        (suits_write_desired hs.drawn _)
  | beaten h =>
      obtain ⟨hfits, hsucceeded⟩ := fits_of_present hstanding h
      exact standing_outrun hfits hsucceeded
  | replaced h hversion =>
      exact standing_next other (Store.get?_write_self ..)
        (suits_write_amend hmine.proper.1 _)
  | stale h hversion =>
      refine ⟨rfl, ?_⟩
      rcases hstanding with hlive | hrank
      · rw [hlive, Option.some.injEq] at h
        exact absurd (congrArg Managed.versionOf h) hversion
      · exact hrank
  | gone h =>
      -- the other one is past the kind, so an object is there
      exfalso
      rcases hstanding with hlive | hrank
      · rw [hlive] at h
        cases h
      · exact (hother.passed _ (ne_service_of_amend hmine.proper.1) hrank).get?_ne_none h
  | cleared h => exact .inl ((Store.get?_erase ..).trans (if_pos rfl))
  | missing h => exact .inl h
  | reread h =>
      obtain ⟨⟨j, hj, hsuits⟩, -⟩ := hstanding
      obtain rfl := Option.some.inj (hj.symm.trans h)
      exact standing_next other h hsuits
  | lost h => exact absurd h hstanding.1.get?_ne_none
  | idle h => exact hstanding

theorem fits_of_left (h : p.Turned s mine mine' s') (hs : s.Sound) (hmine : p.View s mine other)
    (hk : k ≠ .service) (hle : mine.rank ≤ k.rank) (hlt : k.rank < mine'.rank) : p.Fits s' k := by
  have hstanding := hmine.standing
  cases h with
  | present h =>
      obtain rfl := eq_of_rank_found hle hlt
      exact ⟨_, h, suits_of_left_found hk hlt⟩
  | created h =>
      obtain rfl := eq_of_rank_next _ hle hlt
      exact fits_write (suits_write_desired hs.drawn _)
  | beaten h =>
      obtain rfl := eq_of_rank_outrun hle hlt
      exact (fits_of_present hstanding h).1
  | replaced h hversion =>
      obtain rfl := eq_of_rank_next _ hle hlt
      exact fits_write (suits_write_amend hmine.proper.1 _)
  | reread h =>
      obtain rfl := eq_of_rank_next _ hle hlt
      exact hstanding.1
  | lost h =>
      obtain rfl := eq_of_rank_next _ hle hlt
      exact hstanding.1
  | absent h | stale h hversion | gone h => exact absurd hlt (Nat.not_lt_of_le hle)
  | cleared h | missing h | idle h => exact absurd hlt (Nat.not_lt_of_le hle)

theorem of_own_turn (h : p.Turned s mine mine' s') (hs : s.Sound) (hmine : p.View s mine other)
    (hother : p.View s other mine) : p.View s' mine' other where
  proper := h.proper hs hmine.proper
  passed := by
    intro k hk hrank
    by_cases hbefore : k.rank < mine.rank
    · exact h.fits hmine.proper hk (hmine.passed k hk hbefore)
    · exact fits_of_left h hs hmine hk (Nat.le_of_not_lt hbefore) hrank
  standing := standing_of_own_turn h hs hmine hother

theorem of_other_turn (h : p.Turned s other other' s') (hs : s.Sound)
    (hmine : p.View s mine other) (hother : p.View s other mine) : p.View s' mine other' where
  proper := hmine.proper
  passed := by
    intro k hk hrank
    exact h.fits hother.proper hk (hmine.passed k hk hrank)
  standing := by
    have hstanding := hmine.standing
    have hrank := h.follows.rank_le
    cases mine with
    | fetch k | clear k => trivial
    | make k =>
        rcases hstanding with hnone | ⟨hfits, hsucceeded⟩
        · exact standing_make_of_turned h hs hnone
        · by_cases hk : k = .service
          · obtain ⟨rfl, rfl⟩ := eq_of_turned_succeeded h (hsucceeded hk)
            exact .inr ⟨hfits, hsucceeded⟩
          · exact .inr ⟨h.fits hother.proper hk hfits, fun hservice => absurd hservice hk⟩
    | amend k live =>
        rcases hstanding with hlive | hpast
        · exact standing_amend_of_turned h hother.proper hmine.proper.1 hlive
        · exact .inr (Nat.lt_of_lt_of_le hpast hrank)
    | reread k =>
        obtain ⟨rfl, rfl⟩ := eq_of_turned_succeeded h hstanding.2
        exact hstanding
    | failed k f => exact ⟨hstanding.1, Nat.lt_of_lt_of_le hstanding.2 hrank⟩
    | closed outcome =>
        refine ⟨hstanding.1, ?_⟩
        rcases hstanding.2 with hfits | rfl
        · exact fits_service_of_turned h hother.proper hfits
        · left
          -- the other one makes the Service, or finds one that fits
          cases h with
          | created h => exact fits_write (suits_write_desired hs.drawn _)
          | beaten h => exact (fits_of_present hother.standing h).1
          | idle h => cases h

end View

theorem eq_service_of_next_closed {settled : Json} {outcome : Except Failure String}
    (h : next k settled = .closed outcome) :
    k = .service ∧ addressOfService settled = outcome := by
  rcases next_cases k settled with ⟨hk, hnext⟩ | ⟨-, k', -, hnext⟩
  · exact ⟨hk, Stage.closed.inj (hnext.symm.trans h)⟩
  · rw [hnext] at h
    cases h

theorem service_of_turned_closed {outcome : Except Failure String}
    (h : p.Turned s mine (.closed outcome) s') (hmine : p.View s mine other)
    (hleft : mine.left ≠ 0) :
    ∃ service, s'.get? (p.place .service) = some service ∧ addressOfService service = outcome := by
  generalize hnext : Stage.closed outcome = mine' at h
  cases h with
  | absent h | stale h hversion | gone h | cleared h | missing h => cases hnext
  | idle h => exact absurd h hleft
  | @present k live h => cases k <;> cases hnext
  | @beaten k live h => cases k <;> cases hnext
  | created h =>
      obtain ⟨rfl, haddress⟩ := eq_service_of_next_closed hnext.symm
      exact ⟨_, Store.get?_write_self .., haddress⟩
  | replaced h hversion =>
      exact absurd (eq_service_of_next_closed hnext.symm).1 (ne_service_of_amend hmine.proper.1)
  | reread h =>
      obtain ⟨rfl, haddress⟩ := eq_service_of_next_closed hnext.symm
      exact ⟨_, h, haddress⟩
  | lost h => exact absurd h hmine.standing.1.get?_ne_none

end Plan

open Plan

structure Overlap (p : Plan) (s : Shared Bool (Except Failure String)) (stages : Bool → Stage) :
    Prop where
  programs : ∀ i, s.programs i = p.program (stages i)
  faults : s.cluster.faults = .empty
  sound : s.cluster.store.Sound
  views : ∀ i, p.View s.cluster.store (stages i) (stages !i)
  last : ∀ i outcome, s.callers.getLast? = some i → stages i = .closed outcome →
    ∃ service, s.cluster.store.get? (p.place .service) = some service ∧
      addressOfService service = outcome

namespace Overlap
variable {p : Plan} {s : Shared Bool (Except Failure String)} {stages : Bool → Stage}

theorem start {c : LocalCluster} (hc : c.store.Sound) (hf : c.faults = .empty)
    {programs : Bool → Program (Except Failure String)}
    (h : ∀ i, programs i = p.program (.fetch .serviceAccount)) :
    Overlap p (.start c programs) fun _ => .fetch .serviceAccount where
  programs := h
  faults := hf
  sound := hc
  views := fun _ => ⟨trivial, fun _ _ hrank => absurd hrank (Nat.not_lt_zero _), trivial⟩
  last := fun _ _ hlast => by cases hlast

theorem step_of_finish (h : Overlap p s stages) {i : Bool} {outcome : Except Failure String}
    (hact : p.act (stages i) = .finish outcome) :
    s.step (.turn i) = s ∧ p.Follows (stages i) (stages i) := by
  have hprogram := (h.programs i).trans (p.program_eq (stages i))
  rw [hact] at hprogram
  have hfollows := p.follows_turn (stages i) s.cluster
  simp only [turn, hact] at hfollows
  exact ⟨Shared.step_turn_of_done hprogram, hfollows⟩

theorem step_of_call (h : Overlap p s stages) {i : Bool} {call : Call}
    {next : call.Answer → Stage} (hact : p.act (stages i) = .call call next) :
    (stages i).left ≠ 0 ∧ (s.step (.turn i)).callers = s.callers ++ [i] := by
  have hprogram := (h.programs i).trans (p.program_eq (stages i))
  rw [hact] at hprogram
  constructor
  · intro hleft
    obtain ⟨outcome, hdone⟩ := program_of_left_eq_zero (p := p) hleft
    rw [← h.programs i, hprogram] at hdone
    cases hdone
  · rw [Shared.step_turn_of_call hprogram]

theorem step (h : Overlap p s stages) (i : Bool) :
    ∃ stages', Overlap p (s.step (.turn i)) stages' ∧ stages' (!i) = stages !i ∧
      p.Follows (stages i) (stages' i) := by
  cases hact : p.act (stages i) with
  | finish outcome =>
      obtain ⟨hstep, hfollows⟩ := h.step_of_finish hact
      exact ⟨stages, hstep.symm ▸ h, rfl, hfollows⟩
  | call call next =>
      obtain ⟨hleft, hcallers⟩ := h.step_of_call hact
      obtain ⟨hprogram, hcluster⟩ := step_turn (h.programs i)
      have hturned := p.turned h.faults (h.views i).proper
      let stages' := fun j => if j = i then (p.turn (stages i) s.cluster).1 else stages j
      have hown : stages' i = (p.turn (stages i) s.cluster).1 := if_pos rfl
      have hother : stages' (!i) = stages !i := if_neg (by simp)
      have hviews := h.views (!i)
      rw [Bool.not_not] at hviews
      refine ⟨stages', ?_, hother, hown ▸ p.follows_turn (stages i) s.cluster⟩
      constructor
      case programs =>
        intro j
        by_cases hj : j = i
        · rw [hj, hown]
          exact hprogram
        · obtain rfl := Bool.eq_not.2 hj
          rw [hother, ← h.programs]
          exact Shared.programs_step_of_ne (by simp)
      case faults => rw [hcluster, faults_turn, h.faults]
      case sound =>
        rw [hcluster]
        exact sound_turn h.sound p (stages i)
      case views =>
        -- the pass whose turn it is sees its own step, and the other one sees that of another
        intro j
        rw [hcluster]
        by_cases hj : j = i
        · rw [hj, hown, hother]
          exact (h.views i).of_own_turn hturned h.sound hviews
        · obtain rfl := Bool.eq_not.2 hj
          rw [Bool.not_not, hown, hother]
          exact hviews.of_other_turn hturned h.sound (h.views i)
      case last =>
        intro j outcome hlast hclosed
        rw [hcallers, List.getLast?_concat, Option.some.injEq] at hlast
        subst hlast
        rw [hcluster]
        rw [hown] at hclosed
        rw [hclosed] at hturned
        exact service_of_turned_closed hturned (h.views i) hleft

theorem after (h : Overlap p s stages) (turns : List Bool) :
    ∃ stages', Overlap p (s.after (turns.map .turn)) stages' ∧
      ∀ i, (stages' i).left ≤ (stages i).left - turns.count i := by
  induction turns generalizing s stages with
  | nil => exact ⟨stages, h, fun i => Nat.le_refl _⟩
  | cons i turns ih =>
      obtain ⟨stages', hstep, hother, hown⟩ := h.step i
      obtain ⟨stages'', hafter, hleft⟩ := ih hstep
      refine ⟨stages'', hafter, fun j => ?_⟩
      have hj := hleft j
      by_cases hij : i = j
      · subst hij
        have hless := hown.left_le
        rw [List.count_cons_self]
        omega
      · obtain rfl := Bool.eq_not.2 (Ne.symm hij)
        rw [hother] at hj
        rw [List.count_cons_of_ne hij]
        exact hj

theorem outcome_of_done (h : Overlap p s stages) {i : Bool} {outcome : Except Failure String}
    (hdone : s.programs i = .done outcome) :
    (stages i = .closed outcome ∧ ∃ address, outcome = .ok address) ∨
      ∃ k, outcome = .error (.conflict (p.named k)) ∧
        stages i = .failed k (.conflict (p.named k)) ∧ k.rank < (stages !i).rank := by
  have hprogram := (h.programs i).symm.trans hdone
  rw [p.program_eq] at hprogram
  have hstanding := (h.views i).standing
  cases hst : stages i with
  | closed outcome' =>
      rw [hst] at hprogram hstanding
      cases hprogram
      exact .inl ⟨rfl, hstanding.1⟩
  | failed k f =>
      rw [hst] at hprogram hstanding
      cases hprogram
      obtain ⟨rfl, hrank⟩ := hstanding
      exact .inr ⟨k, rfl, rfl, hrank⟩
  | fetch k | make k | clear k | reread k => rw [hst] at hprogram; cases hprogram
  | amend k live => rw [hst] at hprogram; cases hprogram

theorem exists_closed (h : Overlap p s stages)
    (hdone : ∀ i, ∃ outcome, s.programs i = .done outcome) :
    ∃ i address, s.programs i = .done (.ok address) ∧ stages i = .closed (.ok address) := by
  obtain ⟨outcome, hmine⟩ := hdone true
  obtain ⟨outcome', hother⟩ := hdone false
  rcases h.outcome_of_done hmine with ⟨hclosed, address, rfl⟩ | ⟨k, -, hfailed, hrank⟩
  · exact ⟨true, address, hmine, hclosed⟩
  rcases h.outcome_of_done hother with ⟨hclosed, address, rfl⟩ | ⟨k', -, hfailed', hrank'⟩
  · exact ⟨false, address, hother, hclosed⟩
  rw [Bool.not_true, hfailed'] at hrank
  rw [Bool.not_false, hfailed] at hrank'
  exact absurd hrank (Nat.lt_asymm hrank')

theorem fits_of_done (h : Overlap p s stages)
    (hdone : ∀ i, ∃ outcome, s.programs i = .done outcome) (k : ManagedKind) :
    p.Fits s.cluster.store k := by
  obtain ⟨i, address, -, hclosed⟩ := h.exists_closed hdone
  have hview := h.views i
  rw [hclosed] at hview
  by_cases hk : k = .service
  · subst hk
    rcases hview.standing.2 with hfits | hmake
    · exact hfits
    · obtain ⟨outcome, hother⟩ := hdone !i
      have hprogram := h.programs !i
      rw [hother, hmake, p.program_eq] at hprogram
      cases hprogram
  · exact hview.passed k hk (Nat.lt_succ_of_le k.rank_le_service)

end Overlap

structure SafelyShared (p : Plan) (s : Shared Bool (Except Failure String)) (turns : List Bool) :
    Prop where
  ends : ∀ i, 12 ≤ turns.count i → ∃ outcome, s.programs i = .done outcome
  outcomes : ∀ i outcome, s.programs i = .done outcome →
    (∃ address, outcome = .ok address) ∨ ∃ k, outcome = .error (.conflict (p.named k))
  succeeds : (∀ i, ∃ outcome, s.programs i = .done outcome) →
    ∃ i address, s.programs i = .done (.ok address)
  settles : (∀ i, ∃ outcome, s.programs i = .done outcome) → ∀ k, p.Fits s.cluster.store k
  reached : ∀ i address, s.callers.getLast? = some i → s.programs i = .done (.ok address) →
    ∃ service, s.cluster.object .service p.blueprint.namespace p.blueprint.name = some service ∧
      addressOfService service = .ok address

theorem Overlap.safelyShared {p : Plan} {s : Shared Bool (Except Failure String)}
    {stages : Bool → Stage} {turns : List Bool} (h : Overlap p s stages)
    (hleft : ∀ i, (stages i).left ≤ 12 - turns.count i) : SafelyShared p s turns where
  ends := by
    intro i hcount
    have hi := hleft i
    rw [h.programs]
    exact program_of_left_eq_zero (by omega)
  outcomes := by
    intro i outcome hdone
    rcases h.outcome_of_done hdone with ⟨-, hok⟩ | ⟨k, hconflict, -⟩
    · exact .inl hok
    · exact .inr ⟨k, hconflict⟩
  succeeds := by
    intro hdone
    obtain ⟨i, address, hi, -⟩ := h.exists_closed hdone
    exact ⟨i, address, hi⟩
  settles := h.fits_of_done
  reached := by
    intro i address hlast hdone
    rcases h.outcome_of_done hdone with ⟨hclosed, -⟩ | ⟨k, hconflict, -⟩
    · exact h.last i _ hlast hclosed
    · cases hconflict

theorem overlapping_passes_safe {c : LocalCluster} (hc : c.Reachable) (hf : c.faults = .empty)
    (lookup : Lookup) (r : PackageRegistry) (image : String) (turns : List Bool) :
    let s := (Shared.passes c (fun _ : Bool => lookup) (fun _ => r) fun _ => image).after
      (turns.map .turn)
    match Blueprint.ofRegistry r image with
    | .ok b => SafelyShared (.of lookup r b) s turns
    | .error f => s.cluster = c ∧ s.callers = [] ∧ ∀ i, s.programs i = .done (.error f) := by
  intro s
  cases hb : Blueprint.ofRegistry r image with
  | ok b =>
      have hstart : ∀ i : Bool, (establish lookup r image).run =
          (Plan.of lookup r b).program (.fetch .serviceAccount) :=
        fun _ => run_establish_of_blueprint hb lookup
      obtain ⟨stages, hafter, hleft⟩ := (Overlap.start hc.sound hf hstart).after turns
      exact hafter.safelyShared hleft
  | error f =>
      have hdone := run_establish_of_no_blueprint hb lookup
      have hsame : s = Shared.passes c (fun _ => lookup) (fun _ => r) fun _ => image :=
        Shared.after_turns_of_done (fun _ => ⟨_, hdone⟩) turns
      rw [hsame]
      exact ⟨rfl, rfl, fun _ => hdone⟩

theorem overlapping_passes_safe_with_stale_role :
    let r : PackageRegistry :=
      ⟨{ Metadata.empty with
          name := some "community", «namespace» := some "marketplace", uid := some "r-1" },
        ⟨["etcd"]⟩, none⟩
    let b : Blueprint := ⟨"community", "marketplace", "r-1", "quay.io/registry:1"⟩
    let lookup : Lookup := fun p => .error (.packageNotFound p)
    let c := LocalCluster.empty.insert .role (b.role [⟨"marketplace", "upstream"⟩])
    let turns := [true, true, true, false, false, false, true] ++ List.replicate 6 false
    let s := (Shared.passes c (fun _ : Bool => lookup) (fun _ => r) fun _ => b.image).after
      (turns.map .turn)
    c.Reachable ∧ c.faults = .empty ∧ Blueprint.ofRegistry r b.image = .ok b ∧
      SafelyShared (.of lookup r b) s turns ∧ s.call? true = none ∧ s.call? false = none ∧
      s.cluster.count .replace .role = 2 ∧ s.cluster.count .create .deployment = 1 := by
  intro r b lookup c turns s
  have hc : c.Reachable := .insert _ _ .empty
  have hf : c.faults = .empty := LocalCluster.faults_insert ..
  have hsafe := overlapping_passes_safe hc hf lookup r b.image turns
  have hends : s.call? true = none ∧ s.call? false = none := by decide +kernel
  have hcounts : s.cluster.count .replace .role = 2 ∧
      s.cluster.count .create .deployment = 1 := by decide +kernel
  exact ⟨hc, hf, rfl, hsafe, hends.1, hends.2, hcounts⟩

theorem overlapping_passes_without_name :
    ¬ ∀ (c : LocalCluster), c.Reachable → c.faults = .empty → ∀ (lookup : Lookup)
      (r : PackageRegistry) (image : String) (turns : List Bool) (i : Bool)
      (outcome : Except Failure String),
      ((Shared.passes c (fun _ : Bool => lookup) (fun _ => r) fun _ => image).after
        (turns.map .turn)).programs i = .done outcome →
      (∃ address, outcome = .ok address) ∨ ∃ o, outcome = .error (.conflict o) := by
  intro h
  have houtcome := h .empty .empty rfl (fun p => .error (.packageNotFound p))
    ⟨{ Metadata.empty with «namespace» := some "marketplace" }, ⟨["etcd"]⟩, none⟩
    "quay.io/registry:1" [] true (.error (.missingField ".metadata.name")) rfl
  rcases houtcome with ⟨address, hok⟩ | ⟨o, hconflict⟩
  · cases hok
  · cases hconflict

end RegistryKeeper
