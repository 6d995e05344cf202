import Mathlib.Data.List.Infix
import RegistryKeeper.Proofs.FaultyRuns
import RegistryKeeper.Proofs.Replacements

namespace RegistryKeeper

namespace Managed

def template? (j : Json) : Option Json :=
  (j.field? "spec").map fun spec => (spec.field? "template").getD (.obj [])

def SameOwned (k : ManagedKind) (i j : Json) : Prop :=
  match k with
  | .role => i.field? "rules" = j.field? "rules"
  | .roleBinding =>
      i.field? "roleRef" = j.field? "roleRef" ∧ i.field? "subjects" = j.field? "subjects"
  | .deployment => template? i = template? j
  | .serviceAccount | .service => True

instance (k : ManagedKind) (i j : Json) : Decidable (SameOwned k i j) :=
  match k with
  | .role => inferInstanceAs (Decidable (i.field? "rules" = j.field? "rules"))
  | .roleBinding =>
      inferInstanceAs (Decidable
        (i.field? "roleRef" = j.field? "roleRef" ∧ i.field? "subjects" = j.field? "subjects"))
  | .deployment => inferInstanceAs (Decidable (template? i = template? j))
  | .serviceAccount | .service => isTrue trivial

variable {k : ManagedKind} {i j l : Json}

theorem SameOwned.trans (h : SameOwned k i j) (h' : SameOwned k j l) : SameOwned k i l := by
  cases k with
  | serviceAccount | service => trivial
  | role | deployment => exact Eq.trans h h'
  | roleBinding => exact ⟨h.1.trans h'.1, h.2.trans h'.2⟩

theorem sameOwned_of_agreeOff (h : Json.AgreeOff [versionPath, uidPath] i j) :
    SameOwned k j i := by
  have field (key : String) (hkey : ∀ p ∈ [versionPath, uidPath], Json.Apart p [key]) :
      j.field? key = i.field? key := by
    rw [← Json.at?_singleton, ← Json.at?_singleton]
    exact h [key] hkey
  cases k with
  | serviceAccount | service => trivial
  | role => exact field "rules" (by decide)
  | roleBinding => exact ⟨field "roleRef" (by decide), field "subjects" (by decide)⟩
  | deployment =>
      exact congrArg (Option.map fun spec => (spec.field? "template").getD (.obj []))
        (field "spec" (by decide))

theorem field?_copyField (key key' : String) (source j : Json) :
    (copyField key source j).field? key' =
      if key = key' then source.field? key else j.field? key' := by
  unfold copyField
  split
  · next v hv => rw [Json.field?_withField, hv]
  · next hnone => rw [Json.field?_withoutField, hnone]

theorem sameOwned_amend {desired : Json}
    (hspec : k = .deployment → (desired.field? "spec").isSome) (live : Json) :
    SameOwned k (amend k live desired) desired := by
  cases k with
  | serviceAccount | service => trivial
  | role => simp [SameOwned, amend, field?_copyField]
  | roleBinding => simp [SameOwned, amend, field?_copyField]
  | deployment =>
      obtain ⟨spec, hwanted⟩ := Option.isSome_iff_exists.1 (hspec rfl)
      cases hlive : live.field? "spec" with
      | none => simp [SameOwned, template?, amend, hwanted, hlive, Json.field?_withField]
      | some own => simp [SameOwned, template?, amend, hwanted, hlive, Json.field?_withField]

theorem sameOwned_write (hk : k ≠ .service) (s : Store ManagedKind) (p : Place ManagedKind)
    (j : Json) : SameOwned k (s.write p (k = .service) j).1 j := by
  rw [decide_eq_false hk, Store.write_of_not_service]
  exact sameOwned_of_agreeOff (agreeOff_withIdentity _ j)

end Managed

namespace LocalCluster
variable {c : LocalCluster} {k : ManagedKind} {n m : String} {desired : Json}

theorem object_of_not_found (h : (answer (.get k n m) c).1 = .ok none) :
    c.object k n m = none := by
  simp only [answer] at h
  split at h
  · cases h
  · exact Except.ok.inj h

def Converged (c : LocalCluster) (k : ManagedKind) (n m : String) (desired : Json) : Prop :=
  ∃ stored, c.object k n m = some stored ∧ Managed.SameOwned k stored desired

instance (c : LocalCluster) (k : ManagedKind) (n m : String) (desired : Json) :
    Decidable (c.Converged k n m desired) :=
  decidable_of_iff (∃ stored ∈ c.object k n m, Managed.SameOwned k stored desired) Iff.rfl

theorem converged_write (hk : k ≠ .service) {j : Json} (h : Managed.SameOwned k j desired)
    (c : LocalCluster) : (c.write k n m j).2.Converged k n m desired :=
  ⟨(c.write k n m j).1, (object_write ..).trans (if_pos rfl),
    (Managed.sameOwned_write hk c.store ⟨k, n, m⟩ j).trans h⟩

theorem converged_of_replaced (hk : k ≠ .service) {live stored : Json}
    (hlive : (Managed.nameOf live).getD "" = m)
    (hspec : k = .deployment → (desired.field? "spec").isSome)
    (h : (answer (.replace k n (Managed.amend k live desired)) c).1 = .ok stored) :
    (answer (.replace k n (Managed.amend k live desired)) c).2.Converged k n m desired := by
  have hname : (Managed.nameOf (Managed.amend k live desired)).getD "" = m := by
    rw [Managed.nameOf_amend, hlive]
  obtain ⟨current, -, -, hstored, hafter⟩ := object_of_replaced hname h
  refine ⟨stored, hafter, ?_⟩
  rw [hstored]
  exact (Managed.sameOwned_write hk c.store _ _).trans
    (Managed.sameOwned_amend hspec live)

/-- A creation that is refused because the object exists: another writer has stored it since it was
read, it stays as it is, and the desired object is answered in its place. -/
structure LostRace (read now : LocalCluster) (k : ManagedKind) (n m : String)
    (desired result : Json) : Prop where
  absent : read.object k n m = none
  present : now.object k n m ≠ none
  refused : (answer (.create k n desired) now).1 = .error (.alreadyExists ⟨k.name, n, m⟩)
  kept : (answer (.create k n desired) now).2.store = now.store
  answered : result = desired

theorem answer_create_of_no_fault (hname : (Managed.nameOf desired).getD "" = m)
    (hf : c.fault k .create = none) :
    answer (.create k n desired) c =
      match c.object k n m with
      | some _ => (.error (.alreadyExists ⟨k.name, n, m⟩), c.record (.create k n desired))
      | none =>
          let (created, after) := (c.record (.create k n desired)).write k n m desired
          (.ok created, after) := by
  have hobject : (c.record (.create k n desired)).object k n m = c.object k n m := rfl
  rw [answer_of_no_fault hf]
  cases hlive : c.object k n m <;> simp only [serve, hname, hobject, hlive]

theorem converged_of_created (hk : k ≠ .service) (hp : Managed.place desired = .ok (n, m))
    {created : Json} (h : (answer (.create k n desired) c).1 = .ok created) :
    (answer (.create k n desired) c).2.Converged k n m desired := by
  have hname := Managed.nameOf_getD_of_place hp
  cases hf : c.fault k .create with
  | some f =>
      rw [answer_of_fault hf] at h
      cases h
  | none =>
      rw [answer_create_of_no_fault hname hf] at h ⊢
      split at h
      · cases h
      · exact converged_write hk (Managed.sameOwned_of_agreeOff (.refl _ desired)) _

theorem converged_or_lostRace (hk : k ≠ .service) (hp : Managed.place desired = .ok (n, m))
    {read : LocalCluster} (hread : read.object k n m = none) {f : Failure}
    (h : (answer (.create k n desired) c).1 = .error f) (hf : f.isAlreadyExists) :
    (answer (.create k n desired) c).2.Converged k n m desired ∨
      LostRace read c k n m desired desired := by
  cases hfault : c.fault k .create with
  | some fault =>
      rw [answer_of_fault hfault] at h ⊢
      cases h
      cases fault with
      | transport | conflict => cases hf
      | race =>
          refine .inl ?_
          rw [disturb, insert_of_place hp]
          exact converged_write hk (Managed.sameOwned_of_agreeOff (.refl _ desired)) _
  | none =>
      have hanswer := answer_create_of_no_fault (n := n) (Managed.nameOf_getD_of_place hp) hfault
      cases hlive : c.object k n m with
      | none =>
          rw [hlive] at hanswer
          rw [hanswer] at h
          cases h
      | some other =>
          rw [hlive] at hanswer
          refine .inr ⟨hread, ?_, ?_, ?_, rfl⟩
          · rw [hlive]
            exact Option.some_ne_none other
          · rw [hanswer]
          · rw [hanswer]
            rfl

end LocalCluster

namespace Shared
variable {ι α : Type} {s : Shared ι α} {i : ι}

def outcome? (s : Shared ι α) (i : ι) : Option α :=
  match s.programs i with
  | .done a => some a
  | .call _ _ => none

theorem outcome?_eq_some_iff {a : α} : s.outcome? i = some a ↔ s.programs i = .done a := by
  unfold outcome?
  cases s.programs i with
  | done b => simp
  | call c next => simp

theorem call?_ne_none {c : Call} {next : c.Answer → Program α} (h : s.programs i = .call c next) :
    s.call? i ≠ none := by
  rw [call?_eq_some_iff.2 ⟨next, h⟩]
  exact Option.some_ne_none c

variable [DecidableEq ι]

theorem exists_turn {c : Call} {next : c.Answer → Program α} (h : s.programs i = .call c next)
    {moves : List (Move ι)} {a : α} (hdone : (s.after moves).programs i = .done a) :
    ∃ before rest, moves = before ++ .turn i :: rest ∧ .turn i ∉ before ∧
      (s.after before).programs i = .call c next := by
  induction moves generalizing s with
  | nil =>
      have hcall : s.programs i = .done a := hdone
      rw [h] at hcall
      cases hcall
  | cons move moves ih =>
      by_cases hmove : move = .turn i
      · exact ⟨[], moves, by rw [hmove, List.nil_append], List.not_mem_nil, h⟩
      · obtain ⟨before, rest, rfl, hbefore, hcall⟩ :=
          ih ((programs_step_of_ne hmove).trans h) hdone
        refine ⟨move :: before, rest, rfl, ?_, hcall⟩
        intro hmem
        rcases List.mem_cons.1 hmem with heq | hmem
        · exact hmove heq.symm
        · exact hbefore hmem

theorem after_cons (s : Shared ι α) (m : Move ι) (l : List (Move ι)) :
    s.after (m :: l) = (s.step m).after l := rfl

theorem programs_turn_of_call {c : Call} {next : c.Answer → Program α}
    (h : s.programs i = .call c next) :
    (s.step (.turn i)).programs i = next (LocalCluster.answer c s.cluster).1 := by
  rw [step_turn_of_call h]
  exact if_pos rfl

theorem cluster_turn_of_call {c : Call} {next : c.Answer → Program α}
    (h : s.programs i = .call c next) :
    (s.step (.turn i)).cluster = (LocalCluster.answer c s.cluster).2 := by
  rw [step_turn_of_call h]

theorem eq_of_done_after {a b : α} (h : s.programs i = .done a) {moves : List (Move ι)}
    (hdone : (s.after moves).programs i = .done b) : a = b := by
  rw [programs_after_of_done h] at hdone
  exact Program.done.inj hdone

structure TwoTurns (i : ι) (moves before between rest : List (Move ι)) : Prop where
  split : moves = before ++ .turn i :: (between ++ .turn i :: rest)
  first : .turn i ∉ before
  second : .turn i ∉ between

end Shared

section
variable {ι : Type} [DecidableEq ι] {s : Shared ι (Except Failure Json)} {i : ι} {k : ManagedKind}
  {n m : String} {desired result : Json} {rest : List (Move ι)}

theorem converged_of_replacing (hk : k ≠ .service) {live : Json}
    (hlive : (Managed.nameOf live).getD "" = m)
    (hspec : k = .deployment → (desired.field? "spec").isSome)
    (h : s.programs i = (Pass.replace k n (Managed.amend k live desired)).run)
    (hdone : ((s.step (.turn i)).after rest).programs i = .done (.ok result)) :
    (s.step (.turn i)).programs i = .done (.ok result) ∧
      (s.step (.turn i)).cluster.Converged k n m desired := by
  have hcall : s.programs i = .call (.replace k n (Managed.amend k live desired)) .done := h
  have hturn := Shared.programs_turn_of_call hcall
  have hanswer := Shared.eq_of_done_after hturn hdone
  rw [hturn, Shared.cluster_turn_of_call hcall]
  exact ⟨congrArg Program.done hanswer,
    LocalCluster.converged_of_replaced hk hlive hspec hanswer⟩

theorem converged_or_lostRace_of_making (hk : k.drift = .amend)
    (hp : Managed.place desired = .ok (n, m)) {read : LocalCluster}
    (hread : read.object k n m = none) (h : s.programs i = (make k n desired).run)
    (hdone : ((s.step (.turn i)).after rest).programs i = .done (.ok result)) :
    (s.step (.turn i)).programs i = .done (.ok result) ∧
      ((s.step (.turn i)).cluster.Converged k n m desired ∨
        LocalCluster.LostRace read s.cluster k n m desired result) := by
  have hservice : k ≠ .service := by
    rintro rfl
    cases hk
  rw [run_make_eq] at h
  have hturn := Shared.programs_turn_of_call h
  rw [Shared.cluster_turn_of_call h]
  cases hanswer : (LocalCluster.answer (.create k n desired) s.cluster).1 with
  | ok created =>
      simp only [hanswer] at hturn
      cases Shared.eq_of_done_after hturn hdone
      exact ⟨hturn, .inl (LocalCluster.converged_of_created hservice hp hanswer)⟩
  | error f =>
      simp only [hanswer] at hturn
      by_cases hf : f.isAlreadyExists
      · have hbeaten : (beaten k n desired).run = .done (.ok desired) := by
          cases k with
          | serviceAccount | service => cases hk
          | role | roleBinding | deployment => rfl
        rw [if_pos hf, hbeaten] at hturn
        cases Shared.eq_of_done_after hturn hdone
        exact ⟨hturn, LocalCluster.converged_or_lostRace hservice hp hread hanswer hf⟩
      · rw [if_neg hf] at hturn
        cases Shared.eq_of_done_after hturn hdone

end

theorem converged_unless_race_lost {ι : Type} [DecidableEq ι] {s : Shared ι (Except Failure Json)}
    (hs : s.cluster.Reachable) {k : ManagedKind} (hk : k.drift = .amend) {desired : Json}
    {n m : String} (hp : Managed.place desired = .ok (n, m))
    (hspec : k = .deployment → (desired.field? "spec").isSome) {i : ι}
    (hbegin : s.programs i = (converge k desired).run) {moves : List (Move ι)} {result : Json}
    (hdone : (s.after moves).programs i = .done (.ok result)) :
    ∃ before between rest, Shared.TwoTurns i moves before between rest ∧
      let read := s.after before
      let now := read.after (.turn i :: between)
      now.call? i ≠ none ∧ (now.step (.turn i)).programs i = .done (.ok result) ∧
        ((now.step (.turn i)).cluster.Converged k n m desired ∨
          LocalCluster.LostRace read.cluster now.cluster k n m desired result) := by
  have hservice : k ≠ .service := by
    rintro rfl
    cases hk
  rw [run_converge_of_place k hp] at hbegin
  obtain ⟨before, tail, rfl, hbefore, hget⟩ := Shared.exists_turn hbegin hdone
  have hturn := Shared.programs_turn_of_call hget
  rw [Shared.after_append, Shared.after_cons] at hdone
  -- what is left after the first call is one more call, or the program would have failed
  cases hread : (LocalCluster.answer (.get k n m) (s.after before).cluster).1 with
  | error f =>
      simp only [hread] at hturn
      cases Shared.eq_of_done_after hturn hdone
  | ok found =>
      cases found with
      | none =>
          simp only [hread] at hturn
          have habsent := LocalCluster.object_of_not_found hread
          obtain ⟨between, rest, rfl, hbetween, hcall⟩ := Shared.exists_turn hturn hdone
          rw [Shared.after_append, Shared.after_cons] at hdone
          exact ⟨before, between, rest, ⟨rfl, hbefore, hbetween⟩, Shared.call?_ne_none hcall,
            converged_or_lostRace_of_making hk hp habsent hcall hdone⟩
      | some live =>
          simp only [hread, hk] at hturn
          have hobject := LocalCluster.object_of_read hread
          have hname := (Shared.reachable_after hs before).sound.filed _ _ hobject
          obtain ⟨between, rest, rfl, hbetween, hcall⟩ := Shared.exists_turn hturn hdone
          rw [Shared.after_append, Shared.after_cons] at hdone
          obtain ⟨hended, hconverged⟩ := converged_of_replacing hservice hname hspec hcall hdone
          exact ⟨before, between, rest, ⟨rfl, hbefore, hbetween⟩, Shared.call?_ne_none hcall,
            hended, .inl hconverged⟩

theorem converged_beside_other_writes :
    let b : Blueprint := ⟨"community", "marketplace", "r-1", "quay.io/registry:1"⟩
    let desired := b.role [⟨"marketplace", "upstream"⟩]
    let c := (LocalCluster.empty.insert .role (b.role [])).insert .roleBinding b.roleBinding
    let s : Shared Unit (Except Failure Json) := .start c fun _ => (converge .role desired).run
    let others : Move Unit := .deed (.call (.delete .roleBinding "marketplace" "community"))
    let moves := [others, .turn (), others, .turn (), others]
    let result := ((s.after moves).cluster.object .role "marketplace" "community").getD .null
    s.cluster.Reachable ∧ ManagedKind.role.drift = .amend ∧
      Managed.place desired = .ok ("marketplace", "community") ∧
      (s.after moves).programs () = .done (.ok result) ∧
      ∃ before between rest, Shared.TwoTurns () moves before between rest ∧
        let read := s.after before
        let now := read.after (.turn () :: between)
        now.call? () ≠ none ∧ (now.step (.turn ())).programs () = .done (.ok result) ∧
          ((now.step (.turn ())).cluster.Converged .role "marketplace" "community" desired ∨
            LocalCluster.LostRace read.cluster now.cluster .role "marketplace" "community" desired
              result) := by
  intro b desired c s others moves result
  have hc : s.cluster.Reachable := .insert _ _ (.insert _ _ .empty)
  have hp : Managed.place desired = .ok ("marketplace", "community") := by decide +kernel
  have hdone : (s.after moves).programs () = .done (.ok result) :=
    Shared.outcome?_eq_some_iff.1 (by decide +kernel)
  exact ⟨hc, rfl, hp, hdone, converged_unless_race_lost hc rfl hp (by decide) rfl hdone⟩

theorem converged_at_no_moment :
    ¬ ∀ (s : Shared Unit (Except Failure Json)), s.cluster.Reachable →
      ∀ (k : ManagedKind), k.drift = .amend → ∀ (desired : Json) (n m : String),
      Managed.place desired = .ok (n, m) → (k = .deployment → (desired.field? "spec").isSome) →
      s.programs () = (converge k desired).run → ∀ (moves : List (Move Unit)) (result : Json),
      (s.after moves).programs () = .done (.ok result) →
      ∃ l, l <+: moves ∧ (s.after l).cluster.Converged k n m desired := by
  intro h
  let b : Blueprint := ⟨"community", "marketplace", "r-1", "quay.io/registry:1"⟩
  let desired := b.role [⟨"marketplace", "upstream"⟩]
  let s : Shared Unit (Except Failure Json) := .start .empty fun _ => (converge .role desired).run
  let moves : List (Move Unit) :=
    [.turn (), .deed (.call (.create .role "marketplace" (b.role []))), .turn ()]
  have hp : Managed.place desired = .ok ("marketplace", "community") := by decide +kernel
  have hdone : (s.after moves).programs () = .done (.ok desired) :=
    Shared.outcome?_eq_some_iff.1 (by decide +kernel)
  obtain ⟨l, hl, hconverged⟩ := h s .empty .role rfl desired _ _ hp (by decide) rfl moves _ hdone
  have hnever : ∀ l ∈ moves.inits,
      ¬ (s.after l).cluster.Converged .role "marketplace" "community" desired := by
    decide +kernel
  exact hnever l ((List.mem_inits _ _).2 hl) hconverged

end RegistryKeeper
