import Mathlib.Data.List.Basic
import Mathlib.Data.List.DropRight
import RegistryKeeper.Proofs.Occasions
import RegistryKeeper.Proofs.TurnEffects

namespace RegistryKeeper

def countKey (n m : String) : String := n ++ "/" ++ m

def Separable (n m : String) : Prop := '/' ∉ n.toList ∧ '/' ∉ m.toList

theorem toList_countKey (n m : String) : (countKey n m).toList = n.toList ++ '/' :: m.toList := by
  simp [countKey]

theorem countKey_injective {n n' m m' : String} (h : Separable n m)
    (heq : countKey n m = countKey n' m') : n = n' ∧ m = m' := by
  have hlists := congrArg String.toList heq
  rw [toList_countKey, toList_countKey, List.append_cons_inj_of_notMem h.1 h.2] at hlists
  exact ⟨String.toList_inj.1 hlists.1, String.toList_inj.1 hlists.2.2⟩

instance (r : PackageRegistry) (n m : String) : Decidable (r.KeptAt n m) :=
  inferInstanceAs (Decidable (r.metadata.namespace = some n ∧ r.metadata.name = some m))

theorem PackageRegistry.KeptAt.key_eq {r : PackageRegistry} {n m : String} (h : r.KeptAt n m) :
    r.key = countKey n m := by
  simp [PackageRegistry.key, Metadata.anyName, countKey, h.1, h.2]

namespace Failure

def isConflict : Failure → Bool
  | .conflict _ => true
  | _ => false

theorem retryDelay_succ (f : Failure) (n : Nat) :
    f.retryDelay (n + 1) = if f.isConflict then 5 else min 600 (30 * 2 ^ n) := by
  have hcapped : min 600 (30 * Nat.pow 2 (min n 5)) = min 600 (30 * 2 ^ n) := by
    rcases Nat.le_total n 5 with hn | hn
    · rw [Nat.min_eq_left hn]
      rfl
    · have hpow : 2 ^ 5 ≤ 2 ^ n := Nat.pow_le_pow_right (by decide) hn
      rw [Nat.min_eq_right hn, Nat.min_eq_left (by decide), Nat.min_eq_left (by omega)]
  cases f with
  | conflict o => rfl
  | _ => simpa [retryDelay, fixedDelay, isConflict] using hcapped

def word? (bits n : Nat) : Option Nat := if n < 2 ^ bits then some n else none

/-- The delay as it is computed with a power of 32 bits and seconds of 64, if none of them
overflows. -/
def delayInWords? (f : Failure) (n : Nat) : Option Nat :=
  match f.fixedDelay with
  | some seconds => word? 64 seconds
  | none => do
      let power ← word? 32 (2 ^ min (n - 1) 5)
      let seconds ← word? 64 (30 * power)
      return min seconds 600

theorem delayInWords?_eq (f : Failure) (n : Nat) : f.delayInWords? n = some (f.retryDelay n) := by
  have hpow : 2 ^ min (n - 1) 5 ≤ 2 ^ 5 := Nat.pow_le_pow_right (by decide) (Nat.min_le_right _ _)
  have hpower : word? 32 (2 ^ min (n - 1) 5) = some (2 ^ min (n - 1) 5) := if_pos (by omega)
  have hseconds : word? 64 (30 * 2 ^ min (n - 1) 5) = some (30 * 2 ^ min (n - 1) 5) :=
    if_pos (by omega)
  cases f with
  | conflict o => rfl
  | _ =>
      simp only [delayInWords?, retryDelay, fixedDelay, hpower, hseconds, Option.bind_eq_bind,
        Option.bind_some, Option.pure_def, Option.getD_none, Nat.min_comm]
      rfl

end Failure

theorem failureCounts_attend (r : PackageRegistry) (started recorded : Instant) (w : World) :
    (attend r started recorded w).2.context.failureCounts = w.context.failureCounts := by
  have hpass : (performPass r recorded w).2.context.failureCounts = w.context.failureCounts := by
    unfold performPass
    split
    · rfl
    · simp only
      split
      · split <;> rfl
      · rfl
  have hrefuse (defects : List Defect) :
      (refuseSpec r defects recorded w).2.context.failureCounts = w.context.failureCounts := by
    unfold refuseSpec
    simp only
    split <;> rfl
  unfold attend
  split
  · rfl
  · split
    · rfl
    · split
      · exact hpass
      · exact hrefuse _

theorem delay_of_attend {r : PackageRegistry} {started recorded : Instant} {w : World} {n : Nat}
    (h : (attend r started recorded w).1 = .ok n) : 0 < n ∧ n ≤ passIntervalNanos := by
  have hpass (h : (performPass r recorded w).1 = .ok n) : n = passIntervalNanos := by
    unfold performPass at h
    split at h
    · cases h
    · simp only at h
      split at h
      · split at h
        · cases h
          rfl
        · cases h
      · cases h
  have hrefuse (defects : List Defect) (h : (refuseSpec r defects recorded w).1 = .ok n) :
      False := by
    unfold refuseSpec at h
    simp only at h
    split at h <;> cases h
  unfold attend at h
  split at h
  · cases h
  · split at h
    · next left hrest =>
        cases h
        exact PackageRegistry.restLeft_bounds hrest
    · split at h
      · rw [hpass h]
        decide
      · exact (hrefuse _ h).elim

inductive Tallied (counts : Table String Nat) (key : String) : Turn → Table String Nat → Prop where
  | success {delay : Nat} (hdelay : 0 < delay ∧ delay ≤ passIntervalNanos) :
      Tallied counts key ⟨none, delay⟩ (counts.erase key)
  | failure {n : Nat} (hn : (counts.get? key).getD 0 = n) (f : Failure) :
      Tallied counts key ⟨some f, f.retryDelay (n + 1) * nanosPerSecond⟩
        (counts.insert key (n + 1))

theorem Tallied.get?_of_ne {counts counts' : Table String Nat} {key key' : String} {turn : Turn}
    (h : Tallied counts key turn counts') (hne : key ≠ key') :
    counts'.get? key' = counts.get? key' := by
  cases h with
  | success hdelay => rw [Table.get?_erase, if_neg hne]
  | failure hn f => rw [Table.get?_insert, if_neg hne]

theorem tallied_tick (r : PackageRegistry) (started recorded : Instant) (w : World) :
    Tallied w.context.failureCounts r.key (tick r started recorded w).1
      (tick r started recorded w).2.context.failureCounts := by
  have hcounts := failureCounts_attend r started recorded
    { w with context := w.context.measure .begun }
  unfold tick reconcile
  cases hattend : attend r started recorded { w with context := w.context.measure .begun } with
  | mk result w' =>
      rw [hattend] at hcounts
      have hsame : w'.context.failureCounts = w.context.failureCounts := hcounts
      cases result with
      | ok delay =>
          have hdelay := delay_of_attend (congrArg Prod.fst hattend)
          simp only [Context.forgetFailures, Context.measure, hsame]
          exact .success hdelay
      | error f =>
          simp only [Context.noteFailure, Context.measure, hsame]
          exact .failure rfl f

def Turn.failed (t : Turn) : Bool := t.failure.isSome

structure Tick where
  registry : PackageRegistry
  occasion : Occasion
  server : Server

def Tick.Named (t : Tick) : Prop := ∃ n m, t.registry.KeptAt n m ∧ Separable n m

structure History where
  context : Context
  turns : List (PackageRegistry × Turn)

namespace History

def start (image : String) (metrics : Option Metrics) : History := ⟨.new image metrics, []⟩

def take (h : History) (t : Tick) : History :=
  let (turn, w) := tick t.registry t.occasion.started t.occasion.recorded ⟨t.server, h.context⟩
  ⟨w.context, h.turns ++ [(t.registry, turn)]⟩

def after (h : History) (ticks : List Tick) : History := ticks.foldl take h

def count? (h : History) (n m : String) : Option Nat :=
  h.context.failureCounts.get? (countKey n m)

def turnsAt (h : History) (n m : String) : List Turn :=
  (h.turns.filter fun e => e.1.KeptAt n m).map (·.2)

def streak (h : History) (n m : String) : List Turn :=
  (h.turnsAt n m).rtakeWhile Turn.failed

def failures (h : History) : Nat := h.turns.countP fun e => e.2.failed

theorem after_concat (h : History) (ticks : List Tick) (t : Tick) :
    h.after (ticks ++ [t]) = (h.after ticks).take t :=
  List.foldl_append ..

section
variable {h : History} {t : Tick} {n m : String}

def turnOf (h : History) (t : Tick) : Turn :=
  (tick t.registry t.occasion.started t.occasion.recorded ⟨t.server, h.context⟩).1

theorem turns_take (h : History) (t : Tick) :
    (h.take t).turns = h.turns ++ [(t.registry, h.turnOf t)] := rfl

theorem tallied_take (h : History) (t : Tick) :
    Tallied h.context.failureCounts t.registry.key (h.turnOf t)
      (h.take t).context.failureCounts :=
  tallied_tick t.registry t.occasion.started t.occasion.recorded ⟨t.server, h.context⟩

theorem turnsAt_take_of_keptAt (ht : t.registry.KeptAt n m) :
    (h.take t).turnsAt n m = h.turnsAt n m ++ [h.turnOf t] := by
  simp [turnsAt, turns_take, ht]

theorem streak_take_of_keptAt (ht : t.registry.KeptAt n m) :
    (h.take t).streak n m =
      if (h.turnOf t).failed then h.streak n m ++ [h.turnOf t] else [] := by
  rw [streak, turnsAt_take_of_keptAt ht]
  exact List.rtakeWhile_concat ..

theorem turnsAt_take_of_not_keptAt (ht : ¬ t.registry.KeptAt n m) :
    (h.take t).turnsAt n m = h.turnsAt n m := by
  simp [turnsAt, turns_take, ht]

theorem count?_take_of_not_keptAt (hnamed : t.Named) (ht : ¬ t.registry.KeptAt n m) :
    (h.take t).count? n m = h.count? n m := by
  obtain ⟨n', m', hkept, hseparable⟩ := hnamed
  have hne : countKey n' m' ≠ countKey n m := by
    intro heq
    obtain ⟨rfl, rfl⟩ := countKey_injective hseparable heq
    exact ht hkept
  have htallied := h.tallied_take t
  rw [hkept.key_eq] at htallied
  exact htallied.get?_of_ne hne

end

def tally (k : Nat) : Option Nat := if k = 0 then none else some k

theorem getD_tally (k : Nat) : (tally k).getD 0 = k := by
  unfold tally
  split
  · next hk => exact hk.symm
  · rfl

def Spaced (l : List Turn) : Prop :=
  ∀ i t, l[i]? = some t → ∃ f, t.failure = some f ∧
    t.delay = (if f.isConflict then 5 else min 600 (30 * 2 ^ i)) * nanosPerSecond

theorem Spaced.concat {l : List Turn} (h : Spaced l) (f : Failure) :
    Spaced (l ++ [⟨some f, f.retryDelay (l.length + 1) * nanosPerSecond⟩]) := by
  intro i t hi
  rcases Nat.lt_trichotomy i l.length with hlt | heq | hgt
  · rw [List.getElem?_append_left hlt] at hi
    exact h i t hi
  · subst heq
    rw [List.getElem?_concat_length, Option.some.injEq] at hi
    subst hi
    exact ⟨f, rfl, congrArg (· * nanosPerSecond) (f.retryDelay_succ l.length)⟩
  · rw [List.getElem?_eq_none (by simpa using Nat.succ_le_of_lt hgt)] at hi
    cases hi

def Unconflicted (l : List Turn) : Prop :=
  ∀ t ∈ l, ∀ f, t.failure = some f → f.isConflict = false

theorem Spaced.delay_eq {l : List Turn} (h : Spaced l) (hl : Unconflicted l) {i : Nat} {t : Turn}
    (hi : l[i]? = some t) : t.delay = min 600 (30 * 2 ^ i) * nanosPerSecond := by
  obtain ⟨f, hf, hdelay⟩ := h i t hi
  have hconflict : f.isConflict = false := hl t (List.mem_of_getElem? hi) f hf
  rw [hdelay, hconflict]
  rfl

theorem Spaced.rising {l : List Turn} (h : Spaced l) (hl : Unconflicted l) :
    l.Pairwise fun t u => t.delay ≤ u.delay := by
  rw [List.pairwise_iff_getElem]
  intro i j hi hj hij
  have hpow : 2 ^ i ≤ 2 ^ j := Nat.pow_le_pow_right (by decide) (Nat.le_of_lt hij)
  rw [h.delay_eq hl (List.getElem?_eq_getElem hi), h.delay_eq hl (List.getElem?_eq_getElem hj)]
  exact Nat.mul_le_mul_right _ (by omega)

theorem Spaced.bounded {l : List Turn} (h : Spaced l) (hl : Unconflicted l) {t : Turn}
    (ht : t ∈ l) : 30 * nanosPerSecond ≤ t.delay ∧ t.delay ≤ 600 * nanosPerSecond := by
  obtain ⟨i, hi⟩ := List.getElem?_of_mem ht
  have hpow : 1 ≤ 2 ^ i := Nat.one_le_two_pow
  rw [h.delay_eq hl hi]
  exact ⟨Nat.mul_le_mul_right _ (by omega), Nat.mul_le_mul_right _ (by omega)⟩

structure Sound (h : History) : Prop where
  counted : ∀ n m, Separable n m → h.count? n m = tally (h.streak n m).length
  spaced : ∀ n m, Separable n m → Spaced (h.streak n m)
  rested : ∀ e ∈ h.turns, e.2.failure = none → 0 < e.2.delay ∧ e.2.delay ≤ passIntervalNanos

theorem Sound.start (image : String) (metrics : Option Metrics) :
    (History.start image metrics).Sound where
  counted := fun _ _ _ => rfl
  spaced := fun _ _ _ _ _ hi => by cases hi
  rested := fun _ he => absurd he List.not_mem_nil

inductive Goes (h h' : History) (n m : String) : Prop where
  | ended (hstreak : h'.streak n m = []) (hcount : h'.count? n m = none)
  | gone (f : Failure)
      (hstreak : h'.streak n m = h.streak n m ++
        [⟨some f, f.retryDelay ((h.streak n m).length + 1) * nanosPerSecond⟩])
      (hcount : h'.count? n m = some ((h.streak n m).length + 1))

theorem goes_take {h : History} {t : Tick} {n m : String} (hkept : t.registry.KeptAt n m)
    (hcount : h.count? n m = tally (h.streak n m).length) : h.Goes (h.take t) n m := by
  have htallied := h.tallied_take t
  have hstreak := streak_take_of_keptAt (h := h) hkept
  rw [hkept.key_eq] at htallied
  unfold count? at hcount
  generalize h.turnOf t = turn at htallied hstreak
  generalize hcounts : (h.take t).context.failureCounts = counts' at htallied
  cases htallied with
  | success hdelay =>
      refine .ended hstreak ?_
      rw [count?, hcounts, Table.get?_erase, if_pos rfl]
  | failure hn f =>
      rw [hcount, getD_tally] at hn
      subst hn
      refine .gone f hstreak ?_
      rw [count?, hcounts, Table.get?_insert_self]

theorem Sound.take {h : History} (hs : h.Sound) {t : Tick} (ht : t.Named) : (h.take t).Sound := by
  have htallied := h.tallied_take t
  constructor
  case counted =>
    intro n m hseparable
    by_cases hkept : t.registry.KeptAt n m
    · cases goes_take hkept (hs.counted n m hseparable) with
      | ended hstreak hcount =>
          rw [hstreak, hcount]
          rfl
      | gone f hstreak hcount =>
          rw [hstreak, hcount, List.length_append]
          rfl
    · rw [count?_take_of_not_keptAt ht hkept, streak, turnsAt_take_of_not_keptAt hkept]
      exact hs.counted n m hseparable
  case spaced =>
    intro n m hseparable
    by_cases hkept : t.registry.KeptAt n m
    · cases goes_take hkept (hs.counted n m hseparable) with
      | ended hstreak hcount =>
          rw [hstreak]
          intro i u hi
          cases hi
      | gone f hstreak hcount =>
          rw [hstreak]
          exact (hs.spaced n m hseparable).concat f
    · rw [streak, turnsAt_take_of_not_keptAt hkept]
      exact hs.spaced n m hseparable
  case rested =>
    intro e he hnone
    rw [turns_take] at he
    rcases List.mem_append.1 he with he | he
    · exact hs.rested e he hnone
    · obtain rfl := List.mem_singleton.1 he
      generalize h.turnOf t = turn at htallied hnone ⊢
      generalize (h.take t).context.failureCounts = counts' at htallied
      cases htallied with
      | success hdelay => exact hdelay
      | failure hn f => cases hnone

theorem Sound.after {h : History} (hs : h.Sound) {ticks : List Tick} (ht : ∀ t ∈ ticks, t.Named) :
    (h.after ticks).Sound := by
  induction ticks generalizing h with
  | nil => exact hs
  | cons t ticks ih =>
      obtain ⟨hnamed, hrest⟩ := List.forall_mem_cons.1 ht
      exact ih (hs.take hnamed) hrest

theorem length_streak_le (h : History) (n m : String) : (h.streak n m).length ≤ h.failures := by
  have hall : (h.streak n m).countP Turn.failed = (h.streak n m).length :=
    List.countP_eq_length.2 fun _ ht => List.mem_rtakeWhile_imp ht
  calc (h.streak n m).length
      = (h.streak n m).countP Turn.failed := hall.symm
    _ ≤ (h.turnsAt n m).countP Turn.failed :=
        (List.rtakeWhile_suffix _ _).sublist.countP_le
    _ ≤ h.failures := by
        rw [turnsAt, List.countP_map]
        exact List.filter_sublist.countP_le

theorem mem_turns_of_mem_turnsAt {h : History} {n m : String} {t : Turn}
    (ht : t ∈ h.turnsAt n m) : ∃ r, (r, t) ∈ h.turns := by
  obtain ⟨e, he, rfl⟩ := List.mem_map.1 ht
  exact ⟨e.1, (List.mem_filter.1 he).1⟩

structure BacksOff (h : History) (n m : String) : Prop where
  counted : h.count? n m = tally (h.streak n m).length
  fits : (h.streak n m).length < 2 ^ 32
  spaced : Spaced (h.streak n m)
  rising : Unconflicted (h.streak n m) → (h.streak n m).Pairwise fun t u => t.delay ≤ u.delay
  bounded : Unconflicted (h.streak n m) →
    ∀ t ∈ h.streak n m, 30 * nanosPerSecond ≤ t.delay ∧ t.delay ≤ 600 * nanosPerSecond
  rested : ∀ t ∈ h.turnsAt n m, t.failure = none →
    0 < t.delay ∧ t.delay ≤ 300 * nanosPerSecond

theorem Sound.backsOff {h : History} (hs : h.Sound) (hfew : h.failures < 2 ^ 32) {n m : String}
    (hseparable : Separable n m) : h.BacksOff n m where
  counted := hs.counted n m hseparable
  fits := Nat.lt_of_le_of_lt (h.length_streak_le n m) hfew
  spaced := hs.spaced n m hseparable
  rising := (hs.spaced n m hseparable).rising
  bounded := fun hl _ ht => (hs.spaced n m hseparable).bounded hl ht
  rested := by
    intro t ht hnone
    obtain ⟨r, hr⟩ := mem_turns_of_mem_turnsAt ht
    exact hs.rested _ hr hnone

end History

theorem failures_back_off (image : String) (metrics : Option Metrics) (ticks : List Tick)
    (hnamed : ∀ t ∈ ticks, t.Named)
    (hfew : ((History.start image metrics).after ticks).failures < 2 ^ 32) :
    let h := (History.start image metrics).after ticks
    (∀ n m, Separable n m → h.BacksOff n m) ∧
      (∀ before t, ticks = before ++ [t] → ∀ n m, ¬ t.registry.KeptAt n m →
        h.count? n m = ((History.start image metrics).after before).count? n m) ∧
      ∀ f n, Failure.delayInWords? f n = some (f.retryDelay n) := by
  intro h
  have hsound : h.Sound := (History.Sound.start image metrics).after hnamed
  refine ⟨fun n m hseparable => hsound.backsOff hfew hseparable, ?_, Failure.delayInWords?_eq⟩
  rintro before t rfl n m hother
  have ht : t.Named := hnamed t (by simp)
  simp only [h, History.after_concat]
  exact History.count?_take_of_not_keptAt ht hother

theorem failures_back_off_while_unlisted :
    let r (name : String) : PackageRegistry :=
      ⟨{ Metadata.empty with
          name := some name, «namespace» := some "marketplace", uid := some "r-1" },
        ⟨["etcd"]⟩, none⟩
    let outage : Outage := ⟨"list", .source, ⟨"Failure", "not now", "InternalError", 500⟩, none⟩
    let s := (Server.empty .drawn).plan outage
    let tick (name : String) : Tick := ⟨r name, ⟨⟨0, 0⟩, ⟨1, 0⟩⟩, s⟩
    let ticks := [tick "community", tick "certified", tick "community"]
    let h := (History.start "quay.io/registry:1" none).after ticks
    (∀ t ∈ ticks, t.Named) ∧ h.failures < 2 ^ 32 ∧
      ((∀ n m, Separable n m → h.BacksOff n m) ∧
        (∀ before t, ticks = before ++ [t] → ∀ n m, ¬ t.registry.KeptAt n m →
          h.count? n m = ((History.start "quay.io/registry:1" none).after before).count? n m) ∧
        ∀ f n, Failure.delayInWords? f n = some (f.retryDelay n)) ∧
      h.count? "marketplace" "community" = some 2 ∧
      h.count? "marketplace" "certified" = some 1 ∧
      (h.streak "marketplace" "community").map Turn.delay =
        [30 * nanosPerSecond, 60 * nanosPerSecond] := by
  intro r outage s tick ticks h
  have hnamed : ∀ t ∈ ticks, t.Named := by
    have htick (name : String) (hname : Separable "marketplace" name) : (tick name).Named :=
      ⟨"marketplace", name, ⟨rfl, rfl⟩, hname⟩
    have hcommunity := htick "community" ⟨by decide +kernel, by decide +kernel⟩
    have hcertified := htick "certified" ⟨by decide +kernel, by decide +kernel⟩
    simp [ticks, hcommunity, hcertified]
  have hfew : h.failures < 2 ^ 32 := by decide +kernel
  have hcounts : h.count? "marketplace" "community" = some 2 ∧
      h.count? "marketplace" "certified" = some 1 := by
    decide +kernel
  exact ⟨hnamed, hfew, failures_back_off _ none ticks hnamed hfew, hcounts.1, hcounts.2,
    by decide +kernel⟩

end RegistryKeeper
