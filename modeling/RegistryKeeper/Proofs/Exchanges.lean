import RegistryKeeper.Upkeep.Reconcile
import RegistryKeeper.Proofs.ServerStates

namespace RegistryKeeper

namespace Server

def afterAll (s : Server) (rs : List Request) : Server := rs.foldl (fun s r => (s.answer r).2) s

def answers (s : Server) : List Request → List (Request × Except ErrorStatus Json)
  | [] => []
  | r :: rs => (r, (s.answer r).1) :: answers (s.answer r).2 rs

def sent (before after : Server) : List Request := after.log.drop before.log.length

theorem log_afterAll (s : Server) (rs : List Request) : (s.afterAll rs).log = s.log ++ rs := by
  induction rs generalizing s with
  | nil => simp [afterAll]
  | cons r rs ih =>
      have h := ih (s.answer r).2
      rw [log_answer, List.append_assoc] at h
      exact h

theorem answers_append (s : Server) (rs rs' : List Request) :
    s.answers (rs ++ rs') = s.answers rs ++ (s.afterAll rs).answers rs' := by
  induction rs generalizing s with
  | nil => rfl
  | cons r rs ih =>
      rw [List.cons_append, answers, answers, ih, List.cons_append]
      rfl

theorem mem_of_mem_answers {s : Server} {rs : List Request} {e : Request × Except ErrorStatus Json}
    (h : e ∈ s.answers rs) : e.1 ∈ rs := by
  induction rs generalizing s with
  | nil => cases h
  | cons r rs ih =>
      rcases List.mem_cons.1 h with rfl | h
      · exact List.mem_cons_self
      · exact List.mem_cons_of_mem _ (ih h)

def Exchange (P : Request → Prop) (s s' : Server) : Prop :=
  ∃ rs, (∀ r ∈ rs, P r) ∧ s' = s.afterAll rs

namespace Exchange
variable {P Q : Request → Prop} {s s' s'' : Server}

theorem refl (P : Request → Prop) (s : Server) : Exchange P s s := ⟨[], by simp, rfl⟩

theorem single {r : Request} (h : P r) (s : Server) : Exchange P s (s.answer r).2 :=
  ⟨[r], by simpa using h, rfl⟩

theorem trans (h : Exchange P s s') (h' : Exchange P s' s'') : Exchange P s s'' := by
  obtain ⟨rs, hrs, rfl⟩ := h
  obtain ⟨rs', hrs', rfl⟩ := h'
  refine ⟨rs ++ rs', ?_, (List.foldl_append ..).symm⟩
  intro r hr
  rcases List.mem_append.1 hr with hr | hr
  · exact hrs r hr
  · exact hrs' r hr

theorem mono (h : Exchange P s s') (hpq : ∀ r, P r → Q r) : Exchange Q s s' := by
  obtain ⟨rs, hrs, rfl⟩ := h
  exact ⟨rs, fun r hr => hpq r (hrs r hr), rfl⟩

theorem log_eq (h : Exchange P s s') : s'.log = s.log ++ sent s s' := by
  obtain ⟨rs, -, rfl⟩ := h
  rw [sent, log_afterAll, List.drop_left]

theorem eq_afterAll (h : Exchange P s s') : s' = s.afterAll (sent s s') := by
  obtain ⟨rs, -, rfl⟩ := h
  rw [sent, log_afterAll, List.drop_left]

theorem length_log_le (h : Exchange P s s') : s.log.length ≤ s'.log.length := by
  rw [h.log_eq, List.length_append]
  exact Nat.le_add_right _ _

theorem answers_answer (h : Exchange P s s') (r : Request) :
    s.answers (sent s (s'.answer r).2) = s.answers (sent s s') ++ [(r, (s'.answer r).1)] := by
  have hlog : sent s (s'.answer r).2 = sent s s' ++ [r] := by
    rw [sent, log_answer, h.log_eq, List.append_assoc, List.drop_left]
  rw [hlog, answers_append, ← h.eq_afterAll]
  rfl

theorem mem_answers_answer (h : Exchange P s s') (r : Request) :
    (r, (s'.answer r).1) ∈ s.answers (sent s (s'.answer r).2) := by
  simp [h.answers_answer]

theorem of_mem_sent (h : Exchange P s s') {r : Request} (hr : r ∈ sent s s') : P r := by
  obtain ⟨rs, hrs, rfl⟩ := h
  rw [sent, log_afterAll, List.drop_left] at hr
  exact hrs r hr

end Exchange

theorem readBack_eq_ok_iff {α : Type} {f : Json.Reader α} {j : Json} {a : α} :
    readBack f j = .ok a ↔ f j = .ok a := by
  unfold readBack
  cases f j <;> simp

theorem serve_of_answer_ok {r : Request} {s s' : Server} {j : Json}
    (h : s.answer r = (.ok j, s')) :
    ∃ outages, serve r { s with outages, log := s.log ++ [r] } = (.ok j, s') := by
  unfold answer at h
  split at h
  · cases h
  · next outages _ => exact ⟨outages, h⟩

theorem store_of_answer_error {r : Request} {s s' : Server} {e : ErrorStatus}
    (h : s.answer r = (.error e, s')) : s'.store = s.store := by
  unfold answer at h
  split at h
  · cases h
    rfl
  · cases r with
    | get k n m =>
        simp only [serve] at h
        split at h <;> cases h
        rfl
    | list k n => cases h
    | watch k n => cases h
    | create k n j =>
        simp only [serve] at h
        split at h <;> cases h
        rfl
    | replace k n m j =>
        simp only [serve] at h
        split at h
        · cases h
          rfl
        · split at h <;> cases h
          rfl
    | delete k n m =>
        simp only [serve] at h
        split at h <;> cases h
        rfl
    | patchStatus k n m patch =>
        simp only [serve] at h
        split at h <;> cases h
        rfl

theorem object_serve_of_kind_ne {r : Request} {k : ResourceKind} (h : r.kind ≠ k) (s : Server)
    (n m : String) : (serve r s).2.object k n m = s.object k n m := by
  have hplace (k' : ResourceKind) (n' m' : String) (hk : k' ≠ k) :
      (⟨k', n', m'⟩ : Place ResourceKind) ≠ ⟨k, n, m⟩ := by
    intro heq
    cases heq
    exact hk rfl
  cases r with
  | get k' n' m' =>
      simp only [serve]
      split <;> rfl
  | list k' n' => rfl
  | watch k' n' => rfl
  | create k' n' j =>
      simp only [serve]
      split
      · rfl
      · exact (object_write ..).trans (if_neg (hplace k' n' _ h))
  | replace k' n' m' j =>
      simp only [serve]
      split
      · rfl
      · split
        · rfl
        · exact (object_write ..).trans (if_neg (hplace k' n' m' h))
  | delete k' n' m' =>
      simp only [serve]
      split
      · exact (Store.get?_erase ..).trans (if_neg (hplace k' n' m' h))
      · rfl
  | patchStatus k' n' m' patch =>
      simp only [serve]
      split
      · rfl
      · exact (object_write ..).trans (if_neg (hplace k' n' m' h))

theorem object_answer_of_kind_ne {r : Request} {k : ResourceKind} (h : r.kind ≠ k) (s : Server)
    (n m : String) : (s.answer r).2.object k n m = s.object k n m := by
  unfold answer
  split
  · rfl
  · exact object_serve_of_kind_ne h _ n m

theorem Exchange.object_eq {P : Request → Prop} {s s' : Server} (h : Exchange P s s')
    {k : ResourceKind} (hk : ∀ r, P r → r.kind ≠ k) (n m : String) :
    s'.object k n m = s.object k n m := by
  obtain ⟨rs, hrs, rfl⟩ := h
  induction rs generalizing s with
  | nil => rfl
  | cons r rs ih =>
      have hr := hk r (hrs r List.mem_cons_self)
      exact (ih fun r' hr' => hrs r' (List.mem_cons_of_mem _ hr')).trans
        (object_answer_of_kind_ne hr s n m)

theorem Exchange.sound {P : Request → Prop} {K : ResourceKind → Prop} {s s' : Server}
    (h : Exchange P s s') (hP : ∀ r, P r → K r.kind → ∀ j, r.body? = some j → j.Ordered)
    (hs : s.Sound K) : s'.Sound K := by
  obtain ⟨rs, hrs, rfl⟩ := h
  induction rs generalizing s with
  | nil => exact hs
  | cons r rs ih =>
      exact ih (hs.answer (hP r (hrs r List.mem_cons_self)))
        fun r' hr' => hrs r' (List.mem_cons_of_mem _ hr')

end Server

def Call.body? : Call → Option Json
  | .create _ _ j | .replace _ _ j => some j
  | .get .. | .delete .. => none

theorem Server.exchange_answer {k : ManagedKind} {b : Option Json} (r : Request)
    (hk : r.kind = .managed k) (hb : r.body? = b) (s : Server) :
    Server.Exchange (fun r => r.kind = .managed k ∧ r.body? = b) s (s.answer r).2 :=
  .single ⟨hk, hb⟩ s

theorem Server.exchange_call (c : Call) (s : Server) :
    Server.Exchange (fun r => r.kind = .managed c.kind ∧ r.body? = c.body?) s
      (Server.call c s).2 := by
  cases c with
  | get k n m =>
      simp only [Server.call]
      cases (Request.get (.managed k) n m).fault? with
      | some f => exact .refl _ s
      | none =>
          have h := Server.exchange_answer (.get (.managed k) n m) rfl rfl s
          rcases ha : s.answer (.get (.managed k) n m) with ⟨a, s'⟩
          rw [ha] at h
          cases a with
          | ok j => exact h
          | error e =>
              simp only
              cases e.readFailure? <;> exact h
  | create k n j =>
      simp only [Server.call]
      cases (Request.create (.managed k) n j).fault? with
      | some f => exact .refl _ s
      | none => exact Server.exchange_answer (.create (.managed k) n j) rfl rfl s
  | replace k n j =>
      simp only [Server.call]
      cases Managed.place j with
      | error f => exact .refl _ s
      | ok p =>
          obtain ⟨_, m⟩ := p
          simp only
          cases (Request.replace (.managed k) n m j).fault? with
          | some f => exact .refl _ s
          | none => exact Server.exchange_answer (.replace (.managed k) n m j) rfl rfl s
  | delete k n m =>
      simp only [Server.call]
      cases (Request.delete (.managed k) n m).fault? with
      | some f => exact .refl _ s
      | none =>
          have h := Server.exchange_answer (.delete (.managed k) n m) rfl rfl s
          rcases ha : s.answer (.delete (.managed k) n m) with ⟨a, s'⟩
          rw [ha] at h
          cases a with
          | ok j => exact h
          | error e => exact h

namespace Program
variable {α β : Type} {P Q : Call → Prop}

inductive Within (P : Call → Prop) : Program α → Prop where
  | done (a : α) : Within P (.done a)
  | call {c : Call} {next : c.Answer → Program α} (hc : P c) (hnext : ∀ a, Within P (next a)) :
      Within P (.call c next)

theorem within_all (p : Program α) : p.Within fun _ => True := by
  induction p with
  | done a => exact .done a
  | call c next ih => exact .call trivial ih

theorem Within.mono {p : Program α} (h : p.Within P) (hpq : ∀ c, P c → Q c) : p.Within Q := by
  induction h with
  | done a => exact .done a
  | call hc _ ih => exact .call (hpq _ hc) ih

theorem Within.bind {p : Program α} {f : α → Program β} (h : p.Within P)
    (hf : ∀ a, (f a).Within P) : (p >>= f).Within P := by
  induction h with
  | done a => exact hf a
  | call hc _ ih => exact .call hc ih

theorem Within.exchange {R : Request → Prop} {p : Program α} (h : p.Within P)
    (hP : ∀ c, P c → ∀ s, Server.Exchange R s (Server.call c s).2) (s : Server) :
    Server.Exchange R s (p.run Server.call s).2 := by
  induction h generalizing s with
  | done a => exact .refl R s
  | call hc _ ih => exact (hP _ hc s).trans (ih _ _)

end Program

theorem Server.exchange_run {α : Type} (p : Program α) (s : Server) :
    Server.Exchange (fun r => ∃ k, r.kind = .managed k) s (p.run Server.call s).2 := by
  refine p.within_all.exchange ?_ s
  intro c _ s
  exact (Server.exchange_call c s).mono fun r hr => ⟨c.kind, hr.1⟩

theorem within_make {P : Call → Prop} {k : ManagedKind} {n : String} {desired : Json}
    (hcreate : P (.create k n desired)) (hget : ∀ m, P (.get k n m)) :
    Program.Within P (make k n desired).run := by
  refine .call hcreate ?_
  intro a
  cases a with
  | ok j => exact .done _
  | error f =>
      simp only
      split
      · cases k.drift with
        | leave => exact .done _
        | amend => exact .done _
        | renew =>
            refine .call (hget _) ?_
            intro a
            cases a <;> exact .done _
      · exact .done _

structure Call.Brings (k : ManagedKind) (desired : Json) (c : Call) : Prop where
  kind : c.kind = k
  body : ∀ j, c.body? = some j →
    j = desired ∨ (k.drift = .amend ∧ ∃ live, j = Managed.amend k live desired)

theorem Call.brings_of_no_body {k : ManagedKind} {desired : Json} {c : Call} (hk : c.kind = k)
    (hb : c.body? = none) : c.Brings k desired := by
  refine ⟨hk, ?_⟩
  intro j hj
  cases hb.symm.trans hj

theorem within_converge_brings (k : ManagedKind) (desired : Json) :
    Program.Within (Call.Brings k desired) (converge k desired).run := by
  cases hp : Managed.place desired with
  | error f =>
      rw [run_converge_of_not_place k hp]
      exact .done _
  | ok p =>
      obtain ⟨n, m⟩ := p
      rw [run_converge_of_place k hp]
      have hmake : Program.Within (Call.Brings k desired) (make k n desired).run := by
        refine within_make ⟨rfl, ?_⟩ fun _ => Call.brings_of_no_body rfl rfl
        rintro j ⟨⟩
        exact .inl rfl
      refine .call (Call.brings_of_no_body rfl rfl) ?_
      intro a
      rcases a with f | _ | live
      · exact .done _
      · exact hmake
      · simp only
        cases hk : k.drift with
        | leave => exact .done _
        | amend =>
            refine .call ⟨rfl, ?_⟩ fun _ => .done _
            rintro j ⟨⟩
            exact .inr ⟨hk, live, rfl⟩
        | renew => exact .call (Call.brings_of_no_body rfl rfl) fun _ => hmake

def Call.About (k : ManagedKind) (desired : Json) (c : Call) : Prop :=
  c.kind = k ∧ (k.drift ≠ .amend → ∀ j, c.body? = some j → j = desired)

theorem within_converge (k : ManagedKind) (desired : Json) :
    Program.Within (Call.About k desired) (converge k desired).run := by
  refine (within_converge_brings k desired).mono fun c hc => ⟨hc.kind, fun hk j hj => ?_⟩
  exact (hc.body j hj).resolve_right fun h => hk h.1

end RegistryKeeper
