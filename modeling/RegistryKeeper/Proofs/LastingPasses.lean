import RegistryKeeper.Proofs.Impasses

namespace RegistryKeeper.Setting
variable {c : Setting} {s s' : Server} {k : ManagedKind} {ks ks' : List ManagedKind}

theorem Settling.filed {v v' : Option Json} {o : Except Failure Json} (h : c.Settling k v o v')
    (hv : ∀ j, v = some j → (Managed.nameOf j).getD "" = c.blueprint.name) :
    ∀ j, v' = some j → (Managed.nameOf j).getD "" = c.blueprint.name := by
  have hstores {j j' : Json} (hs : c.Stores k j j')
      (hj : (Managed.nameOf j).getD "" = c.blueprint.name) :
      (Managed.nameOf j').getD "" = c.blueprint.name := by
    obtain ⟨store, -, rfl⟩ := hs
    rw [Store.nameOf_write, hj]
  have hmaking {w : Option Json} {o : Except Failure Json} {v' : Option Json}
      (hm : c.Making k w o v') (hw : ∀ j, w = some j → (Managed.nameOf j).getD "" = c.blueprint.name) :
      ∀ j, v' = some j → (Managed.nameOf j).getD "" = c.blueprint.name := by
    cases hm with
    | refused f hc hf | outrun f hc hf hd | reread f hc hf hd => exact hw
    | made j live hc hs hr =>
        rintro _ ⟨⟩
        exact hstores hs (c.name_desired k)
  cases h with
  | unread f hl | left live hl hd | kept live f hl hd hf => exact hv
  | missing hl hm => exact hmaking hm hv
  | amended live j live' hl hd hf hs hr =>
      rintro _ ⟨⟩
      obtain ⟨-, -, i, hi, hlive⟩ := read_eq_ok_some hl
      refine hstores hs ?_
      rw [Managed.nameOf_amend, Managed.nameOf, Managed.textAt?_metadata_of_ofJson hlive (by decide)]
      exact hv i hi
  | renewed live hl hd hm =>
      refine hmaking hm ?_
      intro j hj
      unfold remaining at hj
      split at hj
      · cases hj
      · exact hv j hj

theorem stored_of_exchange {P : Request → Prop} (h : s.Exchange P s')
    (hP : ∀ r, P r → r.kind ≠ .managed k) : c.stored s' k = c.stored s k := h.object_eq hP _ _

theorem exchange_converge (k : ManagedKind) (desired : Json) (s : Server) :
    s.Exchange (fun r => r.kind = .managed k)
      (Program.run Server.call (converge k desired).run s).2 := by
  refine (within_converge k desired).exchange (fun call hc t => ?_) s
  refine (Server.exchange_call call t).mono ?_
  rintro r ⟨hr, -⟩
  rw [hr, hc.1]

theorem exchange_convergeEach (desired : ManagedKind → Json) (ks : List ManagedKind) (s : Server) :
    s.Exchange (fun r => ∃ k ∈ ks, r.kind = .managed k)
      (Program.run Server.call (convergeEach desired ks).run s).2 := by
  refine (within_convergeEach desired ks).exchange (fun call hc t => ?_) s
  refine (Server.exchange_call call t).mono ?_
  rintro r ⟨hr, -⟩
  exact ⟨call.kind, hc, hr⟩

theorem settled_of_run (h : c.Governs s) (hfiled : c.Filed s) {o : Except Failure Json}
    (hrun : Program.run Server.call (converge k (c.desired k)).run s = (o, s')) :
    c.Settling k (c.stored s k) o (c.stored s' k) ∧ c.Governs s' ∧ c.Filed s' ∧
      ∀ k' ≠ k, c.stored s' k' = c.stored s k' := by
  have hx := exchange_converge k (c.desired k) s
  rw [hrun] at hx
  have hothers : ∀ k' ≠ k, c.stored s' k' = c.stored s k' := by
    intro k' hk'
    refine stored_of_exchange hx ?_
    rintro r hr hr'
    exact hk' (ResourceKind.managed.inj (hr'.symm.trans hr))
  have hsettling := settling_of_run h hfiled hrun
  refine ⟨hsettling, h.of_exchange hx, ?_, hothers⟩
  intro k' j hj
  by_cases hk : k' = k
  · subst hk
    exact hsettling.filed (hfiled k') j hj
  · rw [hothers k' hk] at hj
    exact hfiled k' j hj

section
variable {V V' W W' : ManagedKind → Option Json} {r : Option Failure} {f : Failure}

theorem Passes.congr (h : c.Passes ks V V' r) (hV : ∀ k ∈ ks, W k = V k)
    (hV' : ∀ k ∈ ks, W' k = V' k) : c.Passes ks W W' r := by
  induction h with
  | nil V V' => exact .nil _ _
  | @stop k ks V V' o f h hf hks =>
      obtain ⟨hk, hrest⟩ := List.forall_mem_cons.1 hV
      obtain ⟨hk', hrest'⟩ := List.forall_mem_cons.1 hV'
      rw [← hk] at h hf
      rw [← hk'] at h
      refine .stop h hf ?_
      intro i hi
      rw [hrest i hi, hrest' i hi, hks i hi]
  | @cons k ks V V' o r h hf _ ih =>
      obtain ⟨hk, hrest⟩ := List.forall_mem_cons.1 hV
      obtain ⟨hk', hrest'⟩ := List.forall_mem_cons.1 hV'
      rw [← hk] at h hf
      rw [← hk'] at h
      exact .cons h hf (ih hrest hrest')

theorem Passes.append (h : c.Passes ks V V' none) (h' : c.Passes ks' V V' r) :
    c.Passes (ks ++ ks') V V' r := by
  induction ks with
  | nil => exact h'
  | cons k ks ih =>
      cases h with
      | cons hs hf hks => exact .cons hs hf (ih hks)

theorem Passes.append_of_stopped (h : c.Passes ks V V' (some f)) (hks : ∀ k ∈ ks', V' k = V k) :
    c.Passes (ks ++ ks') V V' (some f) := by
  induction ks with
  | nil => cases h
  | cons k ks ih =>
      cases h with
      | stop hs hf hrest =>
          refine .stop hs hf ?_
          intro k' hk'
          rcases List.mem_append.1 hk' with hk' | hk'
          · exact hrest k' hk'
          · exact hks k' hk'
      | cons hs hf hrest => exact .cons hs hf (ih hrest)

end

def Ends {α : Type} (o : Except Failure α) (r : Option Failure) : Prop :=
  match o with
  | .ok _ => r = none
  | .error f => r = some f

theorem passes_of_run_convergeEach (hd : ks.Nodup) (hks : .service ∉ ks) (h : c.Governs s)
    (hfiled : c.Filed s) {o : Except Failure Unit}
    (hrun : Program.run Server.call (convergeEach c.desired ks).run s = (o, s')) :
    ∃ r, c.Passes ks (c.stored s) (c.stored s') r ∧ Ends o r ∧ c.Governs s' ∧ c.Filed s' := by
  induction ks generalizing s with
  | nil =>
      cases hrun
      exact ⟨none, .nil _ _, rfl, h, hfiled⟩
  | cons k ks ih =>
      obtain ⟨hnot, hd⟩ := List.nodup_cons.1 hd
      obtain ⟨hk, hks⟩ := not_or.1 (mt List.mem_cons.2 hks)
      rw [convergeEach, Pass.run_bind] at hrun
      rcases h₁ : Program.run Server.call (converge k (c.desired k)).run s with ⟨o₁, s₁⟩
      obtain ⟨hs, hg₁, hf₁, hothers⟩ := settled_of_run h hfiled h₁
      have hflaw := hs.flaw?_eq
      rw [h₁] at hrun
      cases o₁ with
      | error f =>
          cases hrun
          refine ⟨some f, .stop hs hflaw.symm ?_, rfl, hg₁, hf₁⟩
          intro k' hk'
          refine hothers k' ?_
          rintro rfl
          exact hnot hk'
      | ok j =>
          rw [flaw?_ok_of_ne (Ne.symm hk)] at hflaw
          simp only at hrun
          obtain ⟨r, hpasses, hends, hg, hf⟩ := ih hd hks hg₁ hf₁ hrun
          have hx := exchange_convergeEach c.desired ks s₁
          rw [hrun] at hx
          have hkept : c.stored s' k = c.stored s₁ k := by
            refine stored_of_exchange hx ?_
            rintro q ⟨k', hk', hq⟩ hq'
            exact hnot (ResourceKind.managed.inj (hq'.symm.trans hq) ▸ hk')
          refine ⟨r, .cons (hkept ▸ hs) hflaw.symm (hpasses.congr ?_ fun _ _ => rfl), hends, hg, hf⟩
          intro k' hk'
          refine (hothers k' ?_).symm
          rintro rfl
          exact hnot hk'

theorem passes_of_run_establish (h : c.Governs s) (hfiled : c.Filed s) {o : Except Failure String}
    (hrun : Program.run Server.call (c.blueprint.establish c.packages c.sources).run s = (o, s')) :
    ∃ r, c.Passes ManagedKind.all (c.stored s) (c.stored s') r ∧ Ends o r ∧ c.Governs s' ∧ c.Filed s' := by
  let first : List ManagedKind := [.serviceAccount, .role, .roleBinding, .deployment]
  rw [Blueprint.establish_eq, Pass.run_bind] at hrun
  rcases h₁ : Program.run Server.call (convergeEach c.desired first).run s with ⟨o₁, s₁⟩
  obtain ⟨r₁, hpasses, hends, hg₁, hf₁⟩ :=
    passes_of_run_convergeEach (by decide) (by decide) h hfiled h₁
  have hx := exchange_convergeEach c.desired first s
  rw [h₁] at hx
  have hservice : c.stored s₁ .service = c.stored s .service := by
    refine stored_of_exchange hx ?_
    rintro q ⟨k, hk, hq⟩ hq'
    obtain rfl : k = .service := ResourceKind.managed.inj (hq.symm.trans hq')
    exact absurd hk (by decide)
  have hfirst : Program.run Server.call
      (convergeEach (c.blueprint.desired (serverCommand c.packages c.sources) c.sources) first).run
        s = (o₁, s₁) := h₁
  rw [hfirst] at hrun
  cases o₁ with
  | error f =>
      cases hrun
      obtain rfl := hends
      have hlast : ∀ k ∈ [ManagedKind.service], c.stored s' k = c.stored s k := by
        intro k hk
        rw [List.mem_singleton.1 hk]
        exact hservice
      exact ⟨some f, hpasses.append_of_stopped hlast, rfl, hg₁, hf₁⟩
  | ok _ =>
      simp only at hrun
      rw [Pass.run_bind] at hrun
      rcases h₂ : Program.run Server.call (converge .service c.blueprint.service).run s₁ with ⟨o₂, s₂⟩
      obtain ⟨hs, hg₂, hf₂, hothers⟩ := settled_of_run (k := .service) hg₁ hf₁ h₂
      have hflaw := hs.flaw?_eq
      rw [hservice] at hs hflaw
      have hfirst : c.Passes first (c.stored s) (c.stored s₂) none := by
        obtain rfl := hends
        refine hpasses.congr (fun _ _ => rfl) ?_
        intro k hk
        refine hothers k ?_
        rintro rfl
        exact absurd hk (by decide)
      have hlast {f : Failure} (hf : c.flawAt? .service (c.stored s .service) = some f) :
          c.Passes ManagedKind.all (c.stored s) (c.stored s₂) (some f) :=
        hfirst.append (.stop hs hf (by simp))
      have hwhole (hf : c.flawAt? .service (c.stored s .service) = none) :
          c.Passes ManagedKind.all (c.stored s) (c.stored s₂) none :=
        hfirst.append (.cons hs hf (.nil _ _))
      rw [h₂] at hrun
      cases o₂ with
      | error f =>
          cases hrun
          exact ⟨some f, hlast hflaw.symm, rfl, hg₂, hf₂⟩
      | ok service =>
          obtain ⟨ho, rfl⟩ : addressOfService service = o ∧ s₂ = s' := Prod.mk.inj hrun
          rw [flaw?, if_pos rfl] at hflaw
          cases ho' : addressOfService service with
          | error f =>
              rw [ho'] at hflaw ho
              subst ho
              exact ⟨some f, hlast hflaw.symm, rfl, hg₂, hf₂⟩
          | ok address =>
              rw [ho'] at hflaw ho
              subst ho
              exact ⟨none, hwhole hflaw.symm, rfl, hg₂, hf₂⟩

end RegistryKeeper.Setting
