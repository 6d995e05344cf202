import RegistryKeeper.Proofs.LocalRuns

namespace RegistryKeeper

inductive Deed where
  | insert (k : ManagedKind) (j : Json)
  | call (c : Call)
  | fail (v : Verb) (k : ManagedKind) (f : Fault)
  | clearFaults
  | clearCalls

def Deed.act : Deed → LocalCluster → LocalCluster
  | .insert k j, cluster => cluster.insert k j
  | .call c, cluster => (LocalCluster.answer c cluster).2
  | .fail v k f, cluster => cluster.fail v k f
  | .clearFaults, cluster => cluster.clearFaults
  | .clearCalls, cluster => cluster.clearCalls

namespace Deed

def stores? (d : Deed) (c : LocalCluster) : Option (Place ManagedKind × Json) :=
  match d with
  | .insert k j => Managed.ownPlace? k j
  | .call c' => c.stores? c' (LocalCluster.answer c' c).1
  | .fail .. | .clearFaults | .clearCalls => none

theorem step (d : Deed) (c : LocalCluster) : c.store.Step (d.stores? c) (d.act c).store := by
  cases d with
  | insert k j => exact c.step_insert k j
  | call c' => exact (c.answered c').step
  | fail v k f => exact .kept
  | clearFaults => exact .kept
  | clearCalls => exact .kept

end Deed

theorem LocalCluster.Reachable.act {c : LocalCluster} (h : c.Reachable) (d : Deed) :
    (d.act c).Reachable := by
  cases d with
  | insert k j => exact h.insert k j
  | call call => exact h.call call
  | fail v k f => exact h.fail v k f
  | clearFaults => exact h.clearFaults
  | clearCalls => exact h.clearCalls

inductive Move (ι : Type) where
  | turn (i : ι)
  | deed (d : Deed)

structure Shared (ι α : Type) where
  cluster : LocalCluster
  programs : ι → Program α
  callers : List ι

namespace Shared
variable {ι α : Type}

def start (c : LocalCluster) (programs : ι → Program α) : Shared ι α := ⟨c, programs, []⟩

def call? (s : Shared ι α) (i : ι) : Option Call :=
  match s.programs i with
  | .done _ => none
  | .call c _ => some c

theorem call?_eq_some_iff {s : Shared ι α} {i : ι} {c : Call} :
    s.call? i = some c ↔ ∃ next, s.programs i = .call c next := by
  unfold call?
  cases hp : s.programs i with
  | done a => simp
  | call c' next =>
      constructor
      · intro h
        cases h
        exact ⟨next, rfl⟩
      · rintro ⟨next', h⟩
        cases h
        rfl

variable [DecidableEq ι]

def step (s : Shared ι α) : Move ι → Shared ι α
  | .turn i =>
      match s.programs i with
      | .done _ => s
      | .call c next =>
          let (a, cluster) := LocalCluster.answer c s.cluster
          ⟨cluster, fun i' => if i' = i then next a else s.programs i', s.callers ++ [i]⟩
  | .deed d => { s with cluster := d.act s.cluster }

def after (s : Shared ι α) (moves : List (Move ι)) : Shared ι α := moves.foldl step s

section
variable {s : Shared ι α} {i : ι}

theorem after_append (s : Shared ι α) (l l' : List (Move ι)) :
    s.after (l ++ l') = (s.after l).after l' :=
  List.foldl_append ..

theorem after_concat (s : Shared ι α) (l : List (Move ι)) (m : Move ι) :
    s.after (l ++ [m]) = (s.after l).step m :=
  after_append s l [m]

theorem step_turn_of_done {a : α} (h : s.programs i = .done a) : s.step (.turn i) = s := by
  simp only [step, h]

theorem step_turn_of_call {c : Call} {next : c.Answer → Program α}
    (h : s.programs i = .call c next) :
    s.step (.turn i) =
      ⟨(LocalCluster.answer c s.cluster).2,
        fun i' => if i' = i then next (LocalCluster.answer c s.cluster).1 else s.programs i',
        s.callers ++ [i]⟩ := by
  simp only [step, h]

theorem programs_step_of_ne {m : Move ι} (h : m ≠ .turn i) :
    (s.step m).programs i = s.programs i := by
  cases m with
  | deed d => rfl
  | turn i' =>
      have hne : i ≠ i' := by
        rintro rfl
        exact h rfl
      cases hp : s.programs i' with
      | done a => rw [step_turn_of_done hp]
      | call c next =>
          rw [step_turn_of_call hp]
          exact if_neg hne

theorem programs_after_of_done {a : α} (h : s.programs i = .done a) (l : List (Move ι)) :
    (s.after l).programs i = .done a := by
  induction l generalizing s with
  | nil => exact h
  | cons m l ih =>
      apply ih
      by_cases hm : m = .turn i
      · rw [hm, step_turn_of_done h]
        exact h
      · exact (programs_step_of_ne hm).trans h

theorem after_turns_of_done (h : ∀ i, ∃ a, s.programs i = .done a) (turns : List ι) :
    s.after (turns.map .turn) = s := by
  induction turns with
  | nil => rfl
  | cons i turns ih =>
      obtain ⟨a, ha⟩ := h i
      have hstep : s.step (.turn i) = s := step_turn_of_done ha
      exact (congrArg (Shared.after · (turns.map .turn)) hstep).trans ih

end

def deed? (s : Shared ι α) : Move ι → Option Deed
  | .turn i => (s.call? i).map .call
  | .deed d => some d

theorem cluster_step (s : Shared ι α) (m : Move ι) :
    (s.step m).cluster = match s.deed? m with
      | none => s.cluster
      | some d => d.act s.cluster := by
  cases m with
  | deed d => rfl
  | turn i =>
      simp only [deed?, call?]
      cases hp : s.programs i with
      | done a => rw [step_turn_of_done hp]; rfl
      | call c next => rw [step_turn_of_call hp]; rfl

theorem reachable_step {s : Shared ι α} (h : s.cluster.Reachable) (m : Move ι) :
    (s.step m).cluster.Reachable := by
  rw [cluster_step]
  cases s.deed? m with
  | none => exact h
  | some d => exact h.act d

theorem reachable_after {s : Shared ι α} (h : s.cluster.Reachable) (l : List (Move ι)) :
    (s.after l).cluster.Reachable := by
  induction l generalizing s with
  | nil => exact h
  | cons m l ih => exact ih (reachable_step h m)

end Shared

end RegistryKeeper
