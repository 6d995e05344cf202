import RegistryKeeper.Proofs.MirroredPasses

namespace RegistryKeeper

namespace Shared
variable {ι α : Type} [DecidableEq ι]

def asked (s : Shared ι α) (i : ι) : List ι → List Call
  | [] => []
  | j :: turns => (if j = i then (s.call? i).toList else []) ++ (s.step (.turn j)).asked i turns

theorem asked_of_done {s : Shared ι α} {i : ι} {a : α} (h : s.programs i = .done a)
    (turns : List ι) : s.asked i turns = [] := by
  induction turns generalizing s with
  | nil => rfl
  | cons j turns ih =>
      have hnext : (s.step (.turn j)).programs i = .done a := programs_after_of_done h [.turn j]
      rw [asked, ih hnext, call?, h]
      simp

end Shared

inductive Underway (r : PackageRegistry) (s : Store ManagedKind) :
    Program (Except Failure String) → Prop where
  | done (outcome : Except Failure String) : Underway r s (.done outcome)
  | stage (p : Plan) (st : Stage) (hcurrent : p.Current s st)
      (hplace : r.KeptAt p.blueprint.namespace p.blueprint.name) : Underway r s (p.program st)

theorem Underway.congr {r : PackageRegistry} {s s' : Store ManagedKind}
    {program : Program (Except Failure String)} (h : Underway r s program)
    (hs : ∀ q : Place ManagedKind, r.KeptAt q.namespace q.name → s'.get? q = s.get? q) :
    Underway r s' program := by
  cases h with
  | done outcome => exact .done outcome
  | stage p st hcurrent hplace =>
      exact .stage p st (hcurrent.congr fun k => hs (p.place k) hplace) hplace

def Distinct {ι : Type} (r : ι → PackageRegistry) : Prop :=
  ∀ i j, i ≠ j → (r i).metadata.namespace ≠ (r j).metadata.namespace ∨
    (r i).metadata.name ≠ (r j).metadata.name

theorem Distinct.not_keptAt {ι : Type} {r : ι → PackageRegistry} (hr : Distinct r) {i j : ι}
    (h : i ≠ j) {n m : String} (hi : (r i).KeptAt n m) : ¬ (r j).KeptAt n m := by
  intro hj
  rcases hr i j h with hne | hne
  · exact hne (hi.1.trans hj.1.symm)
  · exact hne (hi.2.trans hj.2.symm)

theorem keptAt_unique {r : PackageRegistry} {n n' m m' : String} (h : r.KeptAt n m)
    (h' : r.KeptAt n' m') : n = n' ∧ m = m' :=
  ⟨Option.some.inj (h.1.symm.trans h'.1), Option.some.inj (h.2.symm.trans h'.2)⟩

theorem underway_establish {r : PackageRegistry} (lookup : Lookup) (image : String)
    (s : Store ManagedKind) : Underway r s (establish lookup r image).run := by
  cases hb : Blueprint.ofRegistry r image with
  | error f =>
      rw [run_establish_of_no_blueprint hb]
      exact .done _
  | ok b =>
      rw [run_establish_of_blueprint hb]
      exact .stage _ _ trivial (Blueprint.keptAt hb)

structure Separate {ι : Type} (r : ι → PackageRegistry) (s : Shared ι (Except Failure String)) :
    Prop where
  sound : s.cluster.store.Sound
  underway : ∀ i, Underway (r i) s.cluster.store (s.programs i)

structure KeptBut (r : PackageRegistry) (c c' : LocalCluster) : Prop where
  versions : c.store.versions ≤ c'.store.versions
  addresses : c.store.addresses ≤ c'.store.addresses
  fault : c'.fault = c.fault
  elsewhere : ∀ q : Place ManagedKind, ¬ r.KeptAt q.namespace q.name →
    c'.store.get? q = c.store.get? q

theorem KeptBut.refl (r : PackageRegistry) (c : LocalCluster) : KeptBut r c c :=
  ⟨Nat.le_refl _, Nat.le_refl _, rfl, fun _ _ => rfl⟩

namespace Separate
variable {ι : Type} [DecidableEq ι] {r : ι → PackageRegistry}
  {s : Shared ι (Except Failure String)}

theorem keptBut_step (h : Separate r s) (i : ι) :
    KeptBut (r i) s.cluster (s.step (.turn i)).cluster ∧
      (s.step (.turn i)).cluster.store.Sound ∧
      Underway (r i) (s.step (.turn i)).cluster.store ((s.step (.turn i)).programs i) := by
  have hi := h.underway i
  generalize hprogram : s.programs i = program at hi
  cases hi with
  | done outcome =>
      rw [Shared.step_turn_of_done hprogram, hprogram]
      exact ⟨.refl _ _, h.sound, .done _⟩
  | stage p st hcurrent hplace =>
      obtain ⟨hnext, hcluster⟩ := Plan.step_turn hprogram
      have heffect := Plan.effected_turn hcurrent h.sound
      rw [hnext, hcluster]
      refine ⟨⟨heffect.versions, heffect.addresses, p.fault_turn st _, ?_⟩,
        Plan.sound_turn h.sound p st, .stage p _ (Plan.current_turn hcurrent h.sound) hplace⟩
      intro q hq
      apply heffect.get?
      rintro k - rfl
      exact hq hplace

theorem elsewhere_step (h : Separate r s) (hr : Distinct r) {i j : ι} (hij : i ≠ j)
    {q : Place ManagedKind} (hq : (r j).KeptAt q.namespace q.name) :
    (s.step (.turn i)).cluster.store.get? q = s.cluster.store.get? q :=
  (h.keptBut_step i).1.elsewhere q (hr.not_keptAt hij.symm hq)

theorem programs_step_of_ne {i j : ι} (hij : i ≠ j) :
    (s.step (.turn i)).programs j = s.programs j := by
  apply Shared.programs_step_of_ne
  rintro ⟨⟩
  exact hij rfl

theorem step (h : Separate r s) (hr : Distinct r) (i : ι) : Separate r (s.step (.turn i)) := by
  obtain ⟨-, hsound, hi⟩ := h.keptBut_step i
  refine ⟨hsound, fun j => ?_⟩
  by_cases hij : i = j
  · exact hij ▸ hi
  · rw [programs_step_of_ne hij]
    exact (h.underway j).congr fun q hq => h.elsewhere_step hr hij hq

theorem get?_after (h : Separate r s) (hr : Distinct r) {q : Place ManagedKind}
    (hq : ∀ i, ¬ (r i).KeptAt q.namespace q.name) (turns : List ι) :
    (s.after (turns.map .turn)).cluster.store.get? q = s.cluster.store.get? q := by
  induction turns generalizing s with
  | nil => rfl
  | cons i turns ih => exact (ih (h.step hr i)).trans ((h.keptBut_step i).1.elsewhere q (hq i))

section
variable {p : Plan} {base : Store ManagedKind} {st st' : Stage} {c : LocalCluster} {i j : ι}

theorem mirrors_step_of_ne (h : Separate r s) (hr : Distinct r) (hij : i ≠ j)
    (hplace : (r j).KeptAt p.blueprint.namespace p.blueprint.name)
    (hm : p.Mirrors base st s.cluster st' c) :
    p.Mirrors base st (s.step (.turn i)).cluster st' c := by
  obtain ⟨hkept, hsound, -⟩ := h.keptBut_step i
  exact hm.elsewhere hsound hkept.versions hkept.addresses hkept.fault
    fun k => h.elsewhere_step hr hij (q := p.place k) hplace

theorem mirrors_after (h : Separate r s) (hr : Distinct r)
    (hplace : (r i).KeptAt p.blueprint.namespace p.blueprint.name)
    (hprogram : s.programs i = p.program st) (hm : p.Mirrors base st s.cluster st' c)
    (turns : List ι) :
    let calls := (p.program st').calls LocalCluster.answer c
    s.asked i turns = calls.take (turns.count i) ∧
      ∃ st₁ st₁' c₁, (s.after (turns.map .turn)).programs i = p.program st₁ ∧
        p.Mirrors base st₁ (s.after (turns.map .turn)).cluster st₁' c₁ ∧
        (p.program st₁').calls LocalCluster.answer c₁ = calls.drop (turns.count i) ∧
        (p.program st₁').run LocalCluster.answer c₁ = (p.program st').run LocalCluster.answer c := by
  induction turns generalizing s st st' c with
  | nil => exact ⟨rfl, st, st', c, hprogram, hm, rfl, rfl⟩
  | cons j turns ih =>
      intro calls
      have hnext := h.step hr j
      by_cases hj : j = i
      · subst hj
        obtain ⟨hprogram', hcluster'⟩ := Plan.step_turn hprogram
        obtain ⟨hasked, st₁, st₁', c₁, hst₁, hm₁, hrest, hrun⟩ :=
          ih hnext hprogram' (hcluster'.symm ▸ hm.turn)
        rw [Shared.asked, if_pos rfl, Plan.call?_program hprogram, Plan.call?_of_alike hm.stages,
          hasked, List.count_cons_self]
        cases hcall : p.call? st' with
        | none =>
            have hempty : calls = [] := (Plan.calls_eq_nil_iff c).2 hcall
            rw [(Plan.of_call?_eq_none hcall c).2] at hrest hrun ⊢
            change _ = calls.drop _ at hrest
            change _ ++ calls.take _ = _ ∧ _
            rw [hempty, List.drop_nil] at hrest
            rw [hempty]
            exact ⟨List.take_nil, st₁, st₁', c₁, hst₁, hm₁, hrest, hrun⟩
        | some call =>
            have hcalls := Plan.calls_of_call? hcall c
            simp only [calls, hcalls]
            exact ⟨rfl, st₁, st₁', c₁, hst₁, hm₁, hrest, hrun.trans (p.run_turn st' c)⟩
      · obtain ⟨hasked, hafter⟩ := ih hnext ((programs_step_of_ne hj).trans hprogram)
          (h.mirrors_step_of_ne hr hj hplace hm)
        rw [Shared.asked, if_neg hj, List.count_cons_of_ne hj]
        exact ⟨hasked, hafter⟩

end

end Separate

theorem Stage.Alike.outcome {p : Plan} {base : Store ManagedKind} {st st' : Stage}
    {outcome outcome' : Except Failure String} (h : st.Alike base st')
    (hst : p.program st = .done outcome) (hst' : p.program st' = .done outcome') :
    Readdressed base outcome outcome' := by
  cases h with
  | same =>
      cases hst.symm.trans hst'
      exact .same outcome
  | closed houtcome =>
      cases hst
      cases hst'
      exact houtcome

structure AsAlone {ι : Type} [DecidableEq ι] (c : LocalCluster) (r : PackageRegistry)
    (alone : Program (Except Failure String)) (s : Shared ι (Except Failure String)) (i : ι)
    (turns : List ι) : Prop where
  calls : s.asked i turns = (alone.calls LocalCluster.answer c).take (turns.count i)
  ended : (alone.calls LocalCluster.answer c).length ≤ turns.count i →
    ∃ outcome, (s.after (turns.map .turn)).programs i = .done outcome ∧
      Readdressed c.store outcome (alone.run LocalCluster.answer c).1 ∧
      ∀ k n m, r.KeptAt n m → Option.Rel (Restamped c.store k)
        ((s.after (turns.map .turn)).cluster.object k n m)
        ((alone.run LocalCluster.answer c).2.object k n m)

namespace Separate
variable {ι : Type} [DecidableEq ι] {r : ι → PackageRegistry}
  {s : Shared ι (Except Failure String)}

theorem alike_of_done (h : Separate r s) (hr : Distinct r) {i : ι} {p : Plan}
    (hplace : (r i).KeptAt p.blueprint.namespace p.blueprint.name)
    (hprogram : s.programs i = p.program (.fetch .serviceAccount)) {turns : List ι}
    {outcome : Except Failure String}
    (hdone : (s.after (turns.map .turn)).programs i = .done outcome) :
    let alone := (p.program (.fetch .serviceAccount)).run LocalCluster.answer s.cluster
    Readdressed s.cluster.store outcome alone.1 ∧
      ∀ k, p.Matches s.cluster.store (s.after (turns.map .turn)).cluster.store alone.2.store k := by
  intro alone
  obtain ⟨-, st, st', c', hst, hm, -, hrun⟩ :=
    h.mirrors_after hr hplace hprogram (.start p h.sound) turns
  have hended := hst.symm.trans hdone
  have hcall : p.call? st' = none :=
    (Plan.call?_of_alike hm.stages).symm.trans (Plan.call?_eq_none_of_done hended)
  obtain ⟨⟨outcome', houtcome'⟩, -⟩ := Plan.of_call?_eq_none hcall c'
  have halone : (outcome', c') = alone := by
    rw [houtcome'] at hrun
    exact hrun
  rw [← halone]
  exact ⟨hm.stages.outcome hended houtcome', hm.objects⟩

theorem asAlone_of_plan (h : Separate r s) (hr : Distinct r) {i : ι} {p : Plan}
    (hplace : (r i).KeptAt p.blueprint.namespace p.blueprint.name)
    (hprogram : s.programs i = p.program (.fetch .serviceAccount)) (turns : List ι) :
    AsAlone s.cluster (r i) (p.program (.fetch .serviceAccount)) s i turns := by
  obtain ⟨hasked, st, st', c', hst, hm, hrest, -⟩ :=
    h.mirrors_after hr hplace hprogram (.start p h.sound) turns
  refine ⟨hasked, fun hlength => ?_⟩
  rw [List.drop_of_length_le hlength] at hrest
  have hcall := (Plan.calls_eq_nil_iff c').1 hrest
  obtain ⟨⟨outcome, houtcome⟩, -⟩ :=
    Plan.of_call?_eq_none ((Plan.call?_of_alike hm.stages).trans hcall) c'
  have hdone := hst.trans houtcome
  obtain ⟨hreaddressed, hobjects⟩ := h.alike_of_done hr hplace hprogram hdone
  refine ⟨outcome, hdone, hreaddressed, ?_⟩
  intro k n m hn
  obtain ⟨rfl, rfl⟩ := keptAt_unique hplace hn
  exact hobjects k

end Separate

theorem passes_do_not_interfere {ι : Type} [DecidableEq ι] {c : LocalCluster} (hc : c.Reachable)
    {r : ι → PackageRegistry} (hr : Distinct r) (lookup : ι → Lookup) (image : ι → String)
    (turns : List ι) :
    let s := Shared.passes c lookup r image
    (∀ i, AsAlone c (r i) (establish (lookup i) (r i) (image i)).run s i turns) ∧
      ∀ k n m, (∀ i, ¬ (r i).KeptAt n m) →
        (s.after (turns.map .turn)).cluster.object k n m = c.object k n m := by
  intro s
  have hs : Separate r s := ⟨hc.sound, fun i => underway_establish (lookup i) (image i) c.store⟩
  refine ⟨fun i => ?_, fun k n m hnone => hs.get?_after hr (q := ⟨k, n, m⟩) hnone turns⟩
  cases hb : Blueprint.ofRegistry (r i) (image i) with
  | ok b =>
      have hprogram := run_establish_of_blueprint hb (lookup i)
      rw [hprogram]
      exact hs.asAlone_of_plan hr (Blueprint.keptAt hb) hprogram turns
  | error f =>
      have hprogram := run_establish_of_no_blueprint hb (lookup i)
      rw [hprogram]
      refine ⟨(Shared.asked_of_done hprogram turns).trans List.take_nil.symm, fun _ => ?_⟩
      refine ⟨_, Shared.programs_after_of_done hprogram _, .same _, ?_⟩
      intro k n m hn
      rw [Blueprint.of_keptAt hn] at hb
      cases hb

theorem passes_do_not_interfere_where_one_stops :
    let registry (name : String) : PackageRegistry :=
      ⟨{ Metadata.empty with
          name := some name, «namespace» := some "marketplace", uid := some "r-1" },
        ⟨["etcd"]⟩, none⟩
    let r (i : Bool) := registry (if i then "community" else "extra")
    let b : Blueprint := ⟨"community", "marketplace", "r-1", "quay.io/registry:1"⟩
    let lookup : Bool → Lookup := fun _ p => .error (.packageNotFound p)
    let image (_ : Bool) := "quay.io/registry:1"
    let c := (((LocalCluster.empty.insert .role (b.role [⟨"marketplace", "upstream"⟩])).insert
      .service { b with name := "bystander" }.service).fail .replace .role .transport).fail
        .create .service .race
    let s := Shared.passes c lookup r image
    let turns := [true, false, true, false, true, false, true, false, false, false, false, false,
      false, false, false, false, true]
    c.Reachable ∧ Distinct r ∧ (∀ i, AsAlone c (r i)
        (establish (lookup i) (r i) (image i)).run s i turns) ∧
      ((s.asked true turns).length = 4 ∧ (s.asked false turns).length = 11) ∧
      (∀ i, (s.after (turns.map .turn)).call? i = none) ∧
      (s.after (turns.map .turn)).cluster.object .service "marketplace" "bystander" =
        c.object .service "marketplace" "bystander" := by
  intro registry r b lookup image c s turns
  have hc : c.Reachable := .fail _ _ _ (.fail _ _ _ (.insert _ _ (.insert _ _ .empty)))
  have hr : Distinct r := by
    intro i j hij
    cases i <;> cases j <;> first | exact absurd rfl hij | exact .inr (by decide)
  have hseparate := passes_do_not_interfere hc hr lookup image turns
  have hnone : ∀ i, ¬ (r i).KeptAt "marketplace" "bystander" := by
    intro i hi
    cases i <;> exact absurd hi.2 (by decide)
  exact ⟨hc, hr, hseparate.1, by decide +kernel, by decide +kernel, hseparate.2 _ _ _ hnone⟩

end RegistryKeeper
