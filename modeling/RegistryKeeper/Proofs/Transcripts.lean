import RegistryKeeper.Proofs.Blueprints

namespace RegistryKeeper

structure Exchanged where
  call : Call
  answer : call.Answer

namespace Exchanged

def fatal? (e : Exchanged) : Option Failure :=
  match e.call.verb with
  | .get | .replace => e.call.failure? e.answer
  | .create => (e.call.failure? e.answer).filter fun f => ¬ f.isAlreadyExists
  | .delete => none

def object? : Exchanged → Option Json
  | ⟨.get .., .ok live⟩ => live
  | ⟨.create .., .ok j⟩ | ⟨.replace .., .ok j⟩ => some j
  | _ => none

def conclusion (e : Exchanged) (desired : Json) : Except Failure Json :=
  match e.fatal? with
  | some f => .error f
  | none => .ok (e.object?.getD desired)

end Exchanged

namespace Program
variable {α β σ : Type} (answer : (c : Call) → σ → c.Answer × σ)

def transcript : Program α → σ → List Exchanged
  | .done _, _ => []
  | .call c next, s =>
      ⟨c, (answer c s).1⟩ :: transcript (next (answer c s).1) (answer c s).2

theorem transcript_bind (p : Program α) (f : α → Program β) (s : σ) :
    (p >>= f).transcript answer s =
      p.transcript answer s ++ (f (p.run answer s).1).transcript answer (p.run answer s).2 := by
  induction p generalizing s with
  | done a => rfl
  | call c next ih =>
      rw [call_bind, transcript, transcript, run_call, List.cons_append, ih]

theorem run_eq_foldl_transcript (p : Program α) (s : σ) :
    (p.run answer s).2 =
      (p.transcript answer s).foldl (fun s e => (answer e.call s).2) s := by
  induction p generalizing s with
  | done a => rfl
  | call c next ih => rw [run_call, transcript, List.foldl_cons, ih]

end Program

theorem Pass.transcript_bind {α β σ : Type} (answer : (c : Call) → σ → c.Answer × σ) (p : Pass α)
    (f : α → Pass β) (s : σ) :
    Program.transcript answer (p >>= f).run s =
      Program.transcript answer p.run s ++
        match Program.run answer p.run s with
        | (.ok a, s') => Program.transcript answer (f a).run s'
        | (.error _, _) => [] := by
  rw [ExceptT.run_bind, Program.transcript_bind]
  obtain ⟨r, s'⟩ := Program.run answer p.run s
  cases r <;> rfl

def Drift.rounds : Drift → List (List Verb)
  | .leave => [[.get], [.get, .create]]
  | .amend => [[.get], [.get, .create], [.get, .replace]]
  | .renew =>
      [[.get], [.get, .create], [.get, .create, .get], [.get, .delete, .create],
        [.get, .delete, .create, .get]]

def Drift.creations : Drift → List (List Verb)
  | .leave | .amend => [[.create]]
  | .renew => [[.create], [.create, .get]]

structure Round (k : ManagedKind) (n : String) (desired : Json) (verbs : List (List Verb))
    (t : List Exchanged) (r : Except Failure Json) : Prop where
  about : ∀ e ∈ t, e.call.kind = k ∧ e.call.namespace = n
  verbs : t.map (·.call.verb) ∈ verbs
  concluded : ∃ init last, t = init ++ [last] ∧ (∀ e ∈ init, e.fatal? = none) ∧
    r = last.conclusion desired

namespace Round
variable {k : ManagedKind} {n : String} {desired : Json} {verbs verbs' : List (List Verb)}
  {t : List Exchanged} {r : Except Failure Json} {e : Exchanged}

theorem single (ha : e.call.kind = k ∧ e.call.namespace = n) (hv : [e.call.verb] ∈ verbs) :
    Round k n desired verbs [e] (e.conclusion desired) where
  about := by
    intro e' he'
    rw [List.mem_singleton.1 he']
    exact ha
  verbs := hv
  concluded := ⟨[], e, rfl, by simp, rfl⟩

theorem cons (ha : e.call.kind = k ∧ e.call.namespace = n) (hf : e.fatal? = none)
    (h : Round k n desired verbs t r) (hv : ∀ v ∈ verbs, e.call.verb :: v ∈ verbs') :
    Round k n desired verbs' (e :: t) r where
  about := by
    intro e' he'
    rcases List.mem_cons.1 he' with rfl | he'
    · exact ha
    · exact h.about e' he'
  verbs := hv _ h.verbs
  concluded := by
    obtain ⟨init, last, rfl, hinit, hr⟩ := h.concluded
    refine ⟨e :: init, last, rfl, ?_, hr⟩
    intro e' he'
    rcases List.mem_cons.1 he' with rfl | he'
    · exact hf
    · exact hinit e' he'

theorem of_ok {j : Json} (h : Round k n desired verbs t (.ok j)) :
    (∀ e ∈ t, e.fatal? = none) ∧ ∃ last, t.getLast? = some last ∧ j = last.object?.getD desired := by
  obtain ⟨init, last, rfl, hinit, hr⟩ := h.concluded
  cases hl : last.fatal? with
  | some f =>
      rw [Exchanged.conclusion, hl] at hr
      cases hr
  | none =>
      rw [Exchanged.conclusion, hl] at hr
      refine ⟨?_, last, by simp, Except.ok.inj hr⟩
      intro e he
      rcases List.mem_append.1 he with he | he
      · exact hinit e he
      · rw [List.mem_singleton.1 he]
        exact hl

theorem of_error {f : Failure} (h : Round k n desired verbs t (.error f)) :
    ∃ init last, t = init ++ [last] ∧ (∀ e ∈ init, e.fatal? = none) ∧ last.fatal? = some f := by
  obtain ⟨init, last, ht, hinit, hr⟩ := h.concluded
  refine ⟨init, last, ht, hinit, ?_⟩
  cases hl : last.fatal? with
  | some f' =>
      rw [Exchanged.conclusion, hl] at hr
      cases hr
      rfl
  | none =>
      rw [Exchanged.conclusion, hl] at hr
      cases hr

end Round

section
variable {σ : Type} (answer : (c : Call) → σ → c.Answer × σ) {k : ManagedKind} {n m : String}
  {desired : Json}

theorem round_beaten (s : σ) {f : Failure} (hf : f.isAlreadyExists) :
    Round k n desired k.drift.creations
      (⟨.create k n desired, .error f⟩ :: Program.transcript answer (beaten k n desired).run s)
      (Program.run answer (beaten k n desired).run s).1 := by
  have hnone : Exchanged.fatal? ⟨.create k n desired, .error f⟩ = none := by
    simp [Exchanged.fatal?, Call.verb, Call.failure?, Option.filter, hf]
  have hkeep : Round k n desired [[.create]] [⟨.create k n desired, .error f⟩] (.ok desired) := by
    have h : Round k n desired [[.create]] [⟨.create k n desired, .error f⟩]
        (Exchanged.conclusion ⟨.create k n desired, .error f⟩ desired) :=
      .single ⟨rfl, rfl⟩ (List.mem_singleton.2 rfl)
    rwa [Exchanged.conclusion, hnone] at h
  have hread (live : Except Failure (Option Json)) (m : String) :
      Round k n desired [[.create], [.create, .get]]
        [⟨.create k n desired, .error f⟩, ⟨.get k n m, live⟩]
        (Exchanged.conclusion ⟨.get k n m, live⟩ desired) := by
    have hlast : Round k n desired [[.get]] [⟨.get k n m, live⟩]
        (Exchanged.conclusion ⟨.get k n m, live⟩ desired) :=
      .single ⟨rfl, rfl⟩ (List.mem_singleton.2 rfl)
    refine .cons ⟨rfl, rfl⟩ hnone hlast ?_
    intro v hv
    rw [List.mem_singleton.1 hv]
    exact List.mem_of_mem_tail (List.mem_singleton.2 rfl)
  cases k with
  | serviceAccount | role | roleBinding | deployment => exact hkeep
  | service =>
      rw [beaten, ExceptT.run_mk]
      simp only [ManagedKind.drift, Program.transcript, Program.run_call]
      obtain ⟨live, s₁⟩ := answer (.get .service n ((Managed.nameOf desired).getD "")) s
      cases live with
      | ok live => exact hread (.ok live) _
      | error f => exact hread (.error f) _

theorem round_make (s : σ) :
    Round k n desired k.drift.creations (Program.transcript answer (make k n desired).run s)
      (Program.run answer (make k n desired).run s).1 := by
  rw [run_make_eq, Program.transcript, Program.run_call]
  obtain ⟨created, s₁⟩ := answer (.create k n desired) s
  have hcreate : [Verb.create] ∈ k.drift.creations := by cases k <;> decide
  cases created with
  | ok created => exact .single (e := ⟨.create k n desired, .ok created⟩) ⟨rfl, rfl⟩ hcreate
  | error f =>
      cases hf : f.isAlreadyExists with
      | true =>
          simp only [hf, if_true]
          exact round_beaten answer s₁ hf
      | false =>
          have hfatal : Exchanged.fatal? ⟨.create k n desired, .error f⟩ = some f := by
            simp [Exchanged.fatal?, Call.verb, Call.failure?, Option.filter, hf]
          have hround : Round k n desired k.drift.creations [⟨.create k n desired, .error f⟩]
              (Exchanged.conclusion ⟨.create k n desired, .error f⟩ desired) :=
            .single ⟨rfl, rfl⟩ hcreate
          rw [Exchanged.conclusion, hfatal] at hround
          simp only [hf, Bool.false_eq_true, if_false]
          exact hround

theorem round_replace (j : Json) (s : σ) :
    Round k n desired [[.replace]] (Program.transcript answer (Pass.replace k n j).run s)
      (Program.run answer (Pass.replace k n j).run s).1 := by
  rw [Pass.replace, ExceptT.run_mk, Program.transcript, Program.run_call]
  obtain ⟨replaced, s₁⟩ := answer (.replace k n j) s
  have hround (replaced : Except Failure Json) :
      Round k n desired [[.replace]] [⟨.replace k n j, replaced⟩]
        (Exchanged.conclusion ⟨.replace k n j, replaced⟩ desired) :=
    .single ⟨rfl, rfl⟩ (List.mem_singleton.2 rfl)
  cases replaced with
  | ok j => exact hround (.ok j)
  | error f => exact hround (.error f)

theorem round_renew (s : σ) :
    Round k n desired (k.drift.creations.map (.delete :: ·))
      (Program.transcript answer (renew k n m desired).run s)
      (Program.run answer (renew k n m desired).run s).1 := by
  rw [renew, ExceptT.run_mk, Program.transcript, Program.run_call]
  exact .cons ⟨rfl, rfl⟩ rfl (round_make answer _) fun v hv => List.mem_map_of_mem hv

theorem round_converge (hp : Managed.place desired = .ok (n, m)) (s : σ) :
    Round k n desired k.drift.rounds (Program.transcript answer (converge k desired).run s)
        (Program.run answer (converge k desired).run s).1 ∧
      ∃ live rest, Program.transcript answer (converge k desired).run s =
        ⟨.get k n m, live⟩ :: rest := by
  rw [run_converge_of_place k hp, Program.transcript, Program.run_call]
  obtain ⟨read, s₁⟩ := answer (.get k n m) s
  refine ⟨?_, read, _, rfl⟩
  have hget : [Verb.get] ∈ k.drift.rounds := by cases k <;> decide
  match read with
  | .error f => exact .single (e := ⟨.get k n m, .error f⟩) ⟨rfl, rfl⟩ hget
  | .ok none =>
      have hmore : ∀ v ∈ k.drift.creations, Verb.get :: v ∈ k.drift.rounds := by
        cases k <;> decide
      exact .cons (e := ⟨.get k n m, .ok none⟩) ⟨rfl, rfl⟩ rfl (round_make answer s₁) hmore
  | .ok (some live) =>
      cases hd : k.drift with
      | leave =>
          rw [hd] at hget
          exact .single (e := ⟨.get k n m, .ok (some live)⟩) ⟨rfl, rfl⟩ hget
      | amend =>
          have hmore : ∀ v ∈ [[Verb.replace]], Verb.get :: v ∈ Drift.amend.rounds := by decide
          exact .cons (e := ⟨.get k n m, .ok (some live)⟩) ⟨rfl, rfl⟩ rfl
            (round_replace answer _ s₁) hmore
      | renew =>
          have hmore : ∀ v ∈ Drift.renew.creations.map (.delete :: ·),
              Verb.get :: v ∈ Drift.renew.rounds := by
            decide
          have hrenew : Round k n desired (k.drift.creations.map (.delete :: ·)) _ _ :=
            round_renew answer (m := m) s₁
          rw [hd] at hrenew
          exact .cons (e := ⟨.get k n m, .ok (some live)⟩) ⟨rfl, rfl⟩ rfl hrenew hmore

end

end RegistryKeeper
