import RegistryKeeper.Proofs.Blueprints
import RegistryKeeper.Proofs.Recordings
import RegistryKeeper.Proofs.Reports

namespace RegistryKeeper

theorem within_convergeEach (desired : ManagedKind → Json) (ks : List ManagedKind) :
    Program.Within (fun c => c.kind ∈ ks) (convergeEach desired ks).run := by
  induction ks with
  | nil => exact .done _
  | cons k ks ih =>
      rw [convergeEach, ExceptT.run_bind]
      refine Program.Within.bind ?_ ?_
      · refine (within_converge k (desired k)).mono ?_
        intro c hc
        rw [hc.1]
        exact List.mem_cons_self
      · intro a
        cases a with
        | error f => exact .done _
        | ok j => exact ih.mono fun c hc => List.mem_cons_of_mem _ hc

namespace Server
variable {s s' : Server}

theorem exchange_listSources {listing : Except Failure (List PackageSource)}
    (h : s.listSources = (listing, s')) : Exchange (fun r => r.kind = .source) s s' := by
  have hx := Exchange.single (P := fun r => r.kind = .source) (r := .list .source none) rfl s
  unfold listSources at h
  rcases ha : s.answer (.list .source none) with ⟨a, s₁⟩
  rw [ha] at h hx
  cases a <;>
    · obtain ⟨-, rfl⟩ := Prod.mk.inj h
      exact hx

theorem reached_of_run_establish {lookup : Lookup} {r : PackageRegistry} {image n m : String}
    (hn : r.metadata.namespace = some n) (hm : r.metadata.name = some m)
    (hs : s.Sound (· = .managed .service)) {address : String}
    (h : Program.run call (establish lookup r image).run s = (.ok address, s')) :
    ∃ service, s'.object (.managed .service) n m = some service ∧ ReachedAt service address := by
  let b : Blueprint := ⟨m, n, r.metadata.uid.getD "", image⟩
  have hb : Blueprint.ofRegistry r image = .ok b := by
    simp only [Blueprint.ofRegistry, hn, hm, b]
  let sources := Resolution.resolve lookup r.spec.packages
  let desired := b.desired (serverCommand r.spec.packages sources) sources
  let first : List ManagedKind := [.serviceAccount, .role, .roleBinding, .deployment]
  simp only [establish, hb] at h
  rw [Blueprint.establish_eq, Pass.run_bind] at h
  rcases h₁ : Program.run call (convergeEach desired first).run s with ⟨o₁, s₁⟩
  have hs₁ : s₁.Sound (· = .managed .service) := by
    have hx := (within_convergeEach desired first).exchange
      (R := fun r => r.kind ≠ .managed .service) (fun c hc t => ?_) s
    · rw [h₁] at hx
      exact hx.sound (fun r hr hk => absurd hk hr) hs
    · refine (exchange_call c t).mono ?_
      intro r hr hk
      obtain hkind : c.kind = .service := ResourceKind.managed.inj (hr.1.symm.trans hk)
      rw [hkind] at hc
      exact absurd hc (by decide)
  rw [h₁] at h
  cases o₁ with
  | error f => cases h
  | ok _ =>
      simp only at h
      rw [Pass.run_bind] at h
      rcases h₂ : Program.run call (converge .service b.service).run s₁ with ⟨o₂, s₂⟩
      rw [h₂] at h
      cases o₂ with
      | error f => cases h
      | ok service =>
          obtain ⟨ha, rfl⟩ : addressOfService service = .ok address ∧ s₂ = s' := Prod.mk.inj h
          have hp := b.place_desired (serverCommand r.spec.packages sources) sources .service
          exact reached_of_run_converge hp (Json.ordered_object _) b.address_service hs₁ h₂ ha

end Server

inductive Attempt (r : PackageRegistry) (recorded : Instant) (s : Server) :
    Except Failure Nat → Server → Prop where
  | unlisted (f : Failure) (s₁ : Server) (hd : r.spec.defects = [])
      (hl : s.listSources = (.error f, s₁)) : Attempt r recorded s (.error f) s₁
  | defective (f : Failure) (message : String) (hd : r.spec.defects ≠ []) :
      Attempt r recorded s (.error f)
        (recordStatus r (r.statusAfter .failed none (some message) recorded) s).2
  | stopped (listing : List PackageSource) (s₁ s₂ : Server) (lookup : Lookup) (image : String)
      (f : Failure) (hd : r.spec.defects = []) (hl : s.listSources = (.ok listing, s₁))
      (hp : Program.run Server.call (establish lookup r image).run s₁ = (.error f, s₂)) :
      Attempt r recorded s (.error f)
        (recordStatus r (r.statusAfter .failed none (some f.message) recorded) s₂).2
  | finished (listing : List PackageSource) (s₁ s₂ : Server) (lookup : Lookup) (image : String)
      (address : String) (hd : r.spec.defects = []) (hl : s.listSources = (.ok listing, s₁))
      (hp : Program.run Server.call (establish lookup r image).run s₁ = (.ok address, s₂)) :
      Attempt r recorded s
        ((fun _ => passIntervalNanos) <$>
          (recordStatus r (r.statusAfter .succeeded (some address) none recorded) s₂).1)
        (recordStatus r (r.statusAfter .succeeded (some address) none recorded) s₂).2

theorem Attempt.finished_of_ok {r : PackageRegistry} {recorded : Instant} {s s' : Server}
    {delay : Nat} (ha : Attempt r recorded s (.ok delay) s') :
    ∃ listing s₁ lookup image address s₂, s.listSources = (.ok listing, s₁) ∧
      Program.run Server.call (establish lookup r image).run s₁ = (.ok address, s₂) ∧
      recordStatus r (r.statusAfter .succeeded (some address) none recorded) s₂ = (.ok (), s') := by
  generalize ho : (Except.ok delay : Except Failure Nat) = o at ha
  cases ha with
  | unlisted f _ hd hl => cases ho
  | defective f message hd => cases ho
  | stopped listing s₁ s₂ lookup image f hd hl hp => cases ho
  | finished listing s₁ s₂ lookup image address hd hl hp =>
      obtain ⟨_, hok, -⟩ := map_eq_ok_iff.1 ho.symm
      exact ⟨listing, s₁, lookup, image, address, s₂, hl, hp, Prod.ext hok rfl⟩

theorem Server.exchange_pass {α : Type} {p : Program α} {s s₁ s₂ : Server}
    {listing : Except Failure (List PackageSource)} {o : α} (hl : s.listSources = (listing, s₁))
    (hp : Program.run Server.call p s₁ = (o, s₂)) :
    Server.Exchange (fun r => r.kind ≠ .registry) s s₂ := by
  have h₁ := Server.exchange_listSources hl
  have h₂ := Server.exchange_run p s₁
  rw [hp] at h₂
  refine (h₁.mono ?_).trans (h₂.mono ?_)
  · intro r hr hk
    cases hr.symm.trans hk
  · rintro r ⟨k, hr⟩ hk
    cases hr.symm.trans hk

theorem Server.Exchange.holds {P : Request → Prop} {s s' : Server} (h : s.Exchange P s')
    (hP : ∀ r, P r → r.kind ≠ .registry) {n m : String} {j : Json} {r : PackageRegistry}
    (hr : s.Holds n m j r) : s'.Holds n m j r := hr.of_object_eq (h.object_eq hP n m)

section
variable {r : PackageRegistry} {n : String} {started recorded : Instant} {w : World}

theorem attempt_performPass (hd : r.spec.defects = []) (recorded : Instant) (w : World) :
    Attempt r recorded w.server (performPass r recorded w).1
      (performPass r recorded w).2.server := by
  unfold performPass
  split
  · next f s₁ hl => exact .unlisted f s₁ hd hl
  · next listing s₁ hl =>
      simp only
      split
      · next address s₂ hp =>
          have h : Attempt r recorded w.server _ _ :=
            .finished listing s₁ s₂ _ _ address hd hl hp
          split
          · next s₃ hr =>
              rw [hr] at h
              exact h
          · next f s₃ hr =>
              rw [hr] at h
              exact h
      · next f s₂ hp => exact .stopped listing s₁ s₂ _ _ f hd hl hp

theorem attempt_refuseSpec (hd : r.spec.defects ≠ []) (recorded : Instant) (w : World) :
    Attempt r recorded w.server (refuseSpec r r.spec.defects recorded w).1
      (refuseSpec r r.spec.defects recorded w).2.server := by
  have h (f : Failure) : Attempt r recorded w.server _ _ :=
    .defective f (defectSummary r.spec.defects) hd
  unfold refuseSpec
  simp only
  split
  · next s₁ hr =>
      rw [hr] at h
      exact h _
  · next f s₁ hr =>
      rw [hr] at h
      exact h f

theorem attempt_attend (hn : r.metadata.namespace = some n) (hrest : r.restLeft started = none)
    (recorded : Instant) (w : World) :
    Attempt r recorded w.server (attend r started recorded w).1
      (attend r started recorded w).2.server := by
  simp only [attend, hn, hrest]
  split
  · next hd => exact attempt_performPass hd recorded w
  · next hd => exact attempt_refuseSpec hd recorded w

theorem reconcile_fst (r : PackageRegistry) (started recorded : Instant) (w : World) :
    (reconcile r started recorded w).1 =
      (attend r started recorded { w with context := w.context.measure .begun }).1 := by
  unfold reconcile
  split <;> next h => rw [h]

theorem server_reconcile (r : PackageRegistry) (started recorded : Instant) (w : World) :
    (reconcile r started recorded w).2.server =
      (attend r started recorded { w with context := w.context.measure .begun }).2.server := by
  unfold reconcile
  split <;> next h => rw [h]

theorem attempt_reconcile (hn : r.metadata.namespace = some n)
    (hrest : r.restLeft started = none) (recorded : Instant) (w : World) :
    Attempt r recorded w.server (reconcile r started recorded w).1
      (reconcile r started recorded w).2.server := by
  rw [reconcile_fst, server_reconcile]
  exact attempt_attend hn hrest recorded ⟨w.server, w.context.measure .begun⟩

theorem reconcile_eq_of_fst {o : Except Failure Nat} (h : (reconcile r started recorded w).1 = o) :
    reconcile r started recorded w = (o, (reconcile r started recorded w).2) := Prod.ext h rfl

theorem reconcile_of_rest (hn : r.metadata.namespace = some n) {left : Nat}
    (hrest : r.restLeft started = some left) (recorded : Instant) (w : World) :
    (reconcile r started recorded w).1 = .ok left ∧
      (reconcile r started recorded w).2.server = w.server := by
  rw [reconcile_fst, server_reconcile]
  simp only [attend, hn, hrest, and_self]

end

end RegistryKeeper
