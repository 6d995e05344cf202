import RegistryKeeper.Proofs.Occasions
import RegistryKeeper.Proofs.Rests

namespace RegistryKeeper

namespace Server

def statusPatched (before after : Server) : Bool :=
  (before.answers (sent before after)).any fun e =>
    e.1.verb = "patch" && e.1.kind = .registry && e.2.isOk

variable {P : Request → Prop} {s s' s'' : Server}

theorem statusPatched_of_exchange (h : s.Exchange P s') (hP : ∀ q, P q → q.kind ≠ .registry) :
    s.statusPatched s' = false := by
  rw [statusPatched, List.any_eq_false]
  intro e he
  simp [hP _ (h.of_mem_sent (mem_of_mem_answers he))]

theorem statusPatched_of_refused (h : s.Exchange P s') (hP : ∀ q, P q → q.kind ≠ .registry)
    {q : Request} {e : ErrorStatus} (ha : s'.answer q = (.error e, s'')) :
    s.statusPatched s'' = false := by
  have hanswers := h.answers_answer q
  have hbefore := statusPatched_of_exchange h hP
  rw [ha] at hanswers
  rw [statusPatched] at hbefore ⊢
  rw [hanswers, List.any_append, hbefore]
  simp [Except.isOk, Except.toBool]

end Server

namespace PackageRegistry

def Says (r : PackageRegistry) (phase : Phase) (address message : Option String) : Prop :=
  ∀ t, r.isNews (r.statusAfter phase address message t) = false

theorem says_withStatus (r : PackageRegistry) (v : String) (phase : Phase)
    (address message : Option String) (t : Instant) :
    (r.withStatus v (r.statusAfter phase address message t)).Says phase address message := by
  intro u
  simp [isNews, withStatus, statusAfter, generation, RegistryStatus.sameOutcome]

theorem succeededAt_withStatus (r : PackageRegistry) (v : String) (address : String)
    (t : Instant) :
    (r.withStatus v (r.statusAfter .succeeded (some address) none t)).succeededAt =
      Instant.ofText? t.text := by
  simp [succeededAt, withStatus, statusAfter, generation]

end PackageRegistry

def instants (ts : List Occasion) : List Instant := ts.flatMap fun t => [t.started, t.recorded]

/-- The clock goes forward, by less than an interval from the first reading to the last, and what is
written down of it can be read again, being no leap second and in a year of four digits. -/
structure Clocked (ts : List Occasion) : Prop where
  written : ∀ t ∈ ts, t.recorded.isLeap = false ∧ 0 ≤ t.recorded.year ∧ t.recorded.year ≤ 9999
  forward : (instants ts).Pairwise fun (t u : Instant) => 0 ≤ u.since t ∧ u.since t < passIntervalNanos

namespace Clocked
variable {t : Occasion} {ts : List Occasion}

theorem tail (h : Clocked (t :: ts)) : Clocked ts where
  written := fun u hu => h.written u (List.mem_cons_of_mem _ hu)
  forward := (List.pairwise_append.1 h.forward).2.1

theorem rests (h : Clocked (t :: ts)) (r : PackageRegistry) (v address : String) :
    ∀ u ∈ ts, (r.withStatus v (r.statusAfter .succeeded (some address) none t.recorded)).restLeft
      u.started ≠ none := by
  intro u hu
  obtain ⟨hleap, hyear⟩ := h.written t List.mem_cons_self
  have hlater := (List.pairwise_append.1 h.forward).2.2 t.recorded (by simp) u.started
    (List.mem_flatMap.2 ⟨u, hu, by simp⟩)
  have hsucceeded := r.succeededAt_withStatus v address t.recorded
  rw [Instant.ofText?_text hleap hyear] at hsucceeded
  rw [PackageRegistry.restLeft_of_succeededAt hsucceeded, if_pos hlater]
  simp

end Clocked

def reconcileStored (n m : String) (t : Occasion) (w : World) : World :=
  match w.server.registry? n m with
  | some r => (reconcile r t.started t.recorded w).2
  | none => w

def reconcileEach (n m : String) (ts : List Occasion) (w : World) : World :=
  ts.foldl (fun w t => reconcileStored n m t w) w

def statusWrites (n m : String) : List Occasion → World → Nat
  | [], _ => 0
  | t :: ts, w =>
      let w' := reconcileStored n m t w
      (w.server.statusPatched w'.server).toNat + statusWrites n m ts w'

namespace Setting
variable {c : Setting} {s s₂ s' : Server} {j : Json} {r : PackageRegistry} {t : Occasion}
  {ts : List Occasion} {k : Nat}

theorem Keeps.of_recording (h : c.Keeps s₂ j r) (hx : s.Exchange (fun q => q.kind ≠ .registry) s₂)
    {status : RegistryStatus} {o : Except Failure Unit}
    (hr : Recording r c.blueprint.namespace c.blueprint.name j status s₂ o s') :
    c.stored s' = c.stored s₂ ∧
      (c.Keeps s' j r ∧ s.statusPatched s' = false ∨
        r.isNews status = true ∧ ∃ j' v, c.Keeps s' j' (r.withStatus v status)) := by
  have hquiet := Server.statusPatched_of_exchange hx fun _ hq => hq
  have hpatch := Server.Exchange.single (P := fun q => q.kind = .registry)
    (r := statusPatch c.blueprint.namespace c.blueprint.name status) rfl s₂
  cases hr with
  | skipped hn => exact ⟨rfl, .inl ⟨h, hquiet⟩⟩
  | unaddressed f hn hf => exact ⟨rfl, .inl ⟨h, hquiet⟩⟩
  | refused e s' hn hf ha =>
      have hstore := Server.store_of_answer_error ha
      rw [ha] at hpatch
      exact ⟨funext fun k => stored_congr hstore k,
        .inl ⟨h.of_store_eq hpatch hstore, Server.statusPatched_of_refused hx (fun _ hq => hq) ha⟩⟩
  | written j' v s' hn hf ha hj hr =>
      rw [ha] at hpatch
      refine ⟨funext fun k => stored_of_exchange hpatch ?_, .inr ⟨hn, j', v, h.of_written ha hj hr⟩⟩
      intro q hq hq'
      cases hq.symm.trans hq'

inductive Owes (c : Setting) (ts : List Occasion) (s : Server) (r : PackageRegistry) :
    Nat → Prop where
  | fresh : Owes c ts s r 2
  | failing {V : ManagedKind → Option Json} {f : Failure} (hd : r.spec.defects = [])
      (hp : c.Passes ManagedKind.all V (c.stored s) (some f)) : Owes c ts s r 1
  | stuck {V V' : ManagedKind → Option Json} {f f' : Failure} (hd : r.spec.defects = [])
      (hp : c.Passes ManagedKind.all V V' (some f))
      (hp' : c.Passes ManagedKind.all V' (c.stored s) (some f'))
      (hs : r.Says .failed none (some f'.message)) : Owes c ts s r 0
  | defective (hd : r.spec.defects ≠ [])
      (hs : r.Says .failed none (some (defectSummary r.spec.defects))) : Owes c ts s r 0
  | resting (h : ∀ t ∈ ts, r.restLeft t.started ≠ none) : Owes c ts s r 0

theorem Owes.later (h : c.Owes (t :: ts) s r k) (hs : c.stored s' = c.stored s) :
    c.Owes ts s' r k := by
  cases h with
  | fresh => exact .fresh
  | failing hd hp => exact .failing hd (hs ▸ hp)
  | stuck hd hp hp' hsaid => exact .stuck hd hp (hs ▸ hp') hsaid
  | defective hd hsaid => exact .defective hd hsaid
  | resting h => exact .resting fun u hu => h u (List.mem_cons_of_mem _ hu)

def Pays (c : Setting) (ts : List Occasion) (s s' : Server) (k : Nat) : Prop :=
  ∃ j r k', c.Keeps s' j r ∧ c.Owes ts s' r k' ∧ (s.statusPatched s').toNat + k' ≤ k

theorem Pays.mono (h : c.Pays ts s s' k) {k' : Nat} (hk : k ≤ k') : c.Pays ts s s' k' := by
  obtain ⟨j, r, owed, hkeeps, ho, hle⟩ := h
  exact ⟨j, r, owed, hkeeps, ho, Nat.le_trans hle hk⟩

theorem Pays.of_quiet (h : c.Keeps s' j r) (ho : c.Owes ts s' r k)
    (hs : s.statusPatched s' = false) : c.Pays ts s s' k :=
  ⟨j, r, k, h, ho, by simp [hs]⟩

theorem Pays.of_written (h : c.Keeps s' j r) (ho : c.Owes ts s' r k) : c.Pays ts s s' (k + 1) := by
  have hone := Bool.toNat_le (s.statusPatched s')
  exact ⟨j, r, k, h, ho, by omega⟩

section
variable {o : Except Failure Unit} (ho : c.Owes (t :: ts) s r k)
  (hrest : r.restLeft t.started = none)
include ho hrest

theorem pays_of_defective (hk : c.Keeps s j r) (hd : r.spec.defects ≠ [])
    (hr : Recording r c.blueprint.namespace c.blueprint.name j
      (r.statusAfter .failed none (some (defectSummary r.spec.defects)) t.recorded) s o s') :
    c.Pays ts s s' k := by
  obtain ⟨hstored, ⟨hk', hquiet⟩ | ⟨hnews, j', v, hk'⟩⟩ := hk.of_recording (.refl _ s) hr
  · exact .of_quiet hk' (ho.later hstored) hquiet
  · cases ho with
    | fresh =>
        have hpays : c.Pays ts s s' 1 :=
          .of_written hk' (.defective hd (r.says_withStatus v _ _ _ _))
        exact hpays.mono (by decide)
    | failing hd' | stuck hd' => exact absurd hd' hd
    | defective hd hsaid => simp [hsaid t.recorded] at hnews
    | resting h => exact absurd hrest (h t List.mem_cons_self)

theorem pays_of_failed (hk : c.Keeps s₂ j r) (hd : r.spec.defects = [])
    (hx : s.Exchange (fun q => q.kind ≠ .registry) s₂) {f : Failure}
    (hp : c.Passes ManagedKind.all (c.stored s) (c.stored s₂) (some f))
    (hr : Recording r c.blueprint.namespace c.blueprint.name j
      (r.statusAfter .failed none (some f.message) t.recorded) s₂ o s') :
    c.Pays ts s s' k := by
  obtain ⟨hstored, hoff⟩ := hk.of_recording hx hr
  rw [← hstored] at hp
  cases ho with
  | fresh =>
      rcases hoff with ⟨hk', hquiet⟩ | ⟨-, j', v, hk'⟩
      · have hpays : c.Pays ts s s' 1 := .of_quiet hk' (.failing hd hp) hquiet
        exact hpays.mono (by decide)
      · exact .of_written hk' (.failing hd hp)
  | failing _ hp₀ =>
      rcases hoff with ⟨hk', hquiet⟩ | ⟨-, j', v, hk'⟩
      · exact .of_quiet hk' (.failing hd hp) hquiet
      · exact .of_written hk' (.stuck hd hp₀ hp (r.says_withStatus v _ _ _ _))
  | stuck _ hp₀ hp₁ hsaid =>
      -- it failed in this way before, and the status says so
      obtain rfl := Option.some.inj (hp₀.fails_alike (by decide) hp₁ hp)
      rcases hoff with ⟨hk', hquiet⟩ | ⟨hnews, -⟩
      · exact .of_quiet hk' (.stuck hd hp₁ hp hsaid) hquiet
      · simp [hsaid t.recorded] at hnews
  | defective hd' _ => exact absurd hd hd'
  | resting h => exact absurd hrest (h t List.mem_cons_self)

theorem pays_of_succeeded (hk : c.Keeps s₂ j r)
    (hx : s.Exchange (fun q => q.kind ≠ .registry) s₂) (hd : r.spec.defects = [])
    (hp : c.Passes ManagedKind.all (c.stored s) (c.stored s₂) none) {address : String}
    (hclock : Clocked (t :: ts))
    (hr : Recording r c.blueprint.namespace c.blueprint.name j
      (r.statusAfter .succeeded (some address) none t.recorded) s₂ o s') :
    c.Pays ts s s' k := by
  obtain ⟨-, hoff⟩ := hk.of_recording hx hr
  cases ho with
  | fresh =>
      rcases hoff with ⟨hk', hquiet⟩ | ⟨-, j', v, hk'⟩
      · exact .of_quiet hk' .fresh hquiet
      · have hpays : c.Pays ts s s' 1 := .of_written hk' (.resting (hclock.rests r v address))
        exact hpays.mono (by decide)
  | failing _ hp₀ | stuck _ _ hp₀ _ => exact absurd rfl (hp₀.fails_again hp)
  | defective hd' _ => exact absurd hd hd'
  | resting h => exact absurd hrest (h t List.mem_cons_self)

end

theorem Owes.pays (ho : c.Owes (t :: ts) s r k) (hk : c.Keeps s j r)
    (hrest : r.restLeft t.started = none) (hclock : Clocked (t :: ts))
    (hc : c.Course j r t s s') : c.Pays ts s s' k := by
  cases hc with
  | unlisted s' hd hk' hx hs =>
      exact .of_quiet hk' (ho.later hs) (Server.statusPatched_of_exchange hx fun _ hq => hq)
  | defective o s' hd hr => exact pays_of_defective ho hrest hk hd hr
  | failed f o s₂ s' hd hk' hx hp hr => exact pays_of_failed ho hrest hk' hd hx hp hr
  | succeeded address o s₂ s' hd hk' hx hp hr =>
      exact pays_of_succeeded ho hrest hk' hx hd hp hclock hr

theorem Owes.statusWrites_le {w : World} (ho : c.Owes ts w.server r k)
    (hk : c.Keeps w.server j r) (hi : w.context.image = c.blueprint.image) (hclock : Clocked ts) :
    statusWrites c.blueprint.namespace c.blueprint.name ts w ≤ k ∧
      ∃ j' r', c.Keeps (reconcileEach c.blueprint.namespace c.blueprint.name ts w).server j' r' := by
  induction ts generalizing w j r k with
  | nil => exact ⟨Nat.zero_le _, j, r, hk⟩
  | cons t ts ih =>
      have hstored : reconcileStored c.blueprint.namespace c.blueprint.name t w =
          (reconcile r t.started t.recorded w).2 := by
        rw [reconcileStored, hk.holds.registry?]
      have hi' := (image_reconcile r t.started t.recorded w).trans hi
      -- what is owed is carried from one occasion to the next, and a rest costs nothing
      have hpays : c.Pays ts w.server (reconcile r t.started t.recorded w).2.server k := by
        cases hrest : r.restLeft t.started with
        | some left =>
            obtain ⟨hn, -, -⟩ := PackageRegistry.metadata_of_place hk.holds.reads hk.holds.place
            rw [(reconcile_of_rest hn hrest t.recorded w).2]
            exact .of_quiet hk (ho.later rfl)
              (Server.statusPatched_of_exchange (.refl (fun _ => False) _) fun _ h => h.elim)
        | none => exact ho.pays hk hrest hclock (course_reconcile hk hi hrest)
      obtain ⟨j', r', k', hk', ho', hle⟩ := hpays
      obtain ⟨hwrites, hkept⟩ := ih ho' hk' hi' hclock.tail
      rw [statusWrites, reconcileEach, List.foldl_cons, hstored]
      exact ⟨Nat.le_trans (Nat.add_le_add_left hwrites _) hle, hkept⟩

end Setting

theorem status_writes_die_out {w : World} (hw : w.server.Reachable)
    (hlasting : Outage.Lasting w.server.outages) {n m : String} {j : Json} {r : PackageRegistry}
    (hr : w.server.Holds n m j r)
    (hfiled : ∀ k i, w.server.object (.managed k) n m = some i → (Managed.nameOf i).getD "" = m)
    {ts : List Occasion} (hclock : Clocked ts) :
    statusWrites n m ts w ≤ 2 ∧
      ∃ j' r', (reconcileEach n m ts w).server.Holds n m j' r' := by
  obtain ⟨hspace, hname, -⟩ := PackageRegistry.metadata_of_place hr.reads hr.place
  let c : Setting :=
    ⟨⟨m, n, r.metadata.uid.getD "", w.context.image⟩, r.spec.packages, w.server.listSources.1,
      w.server.outages, w.server.store.addressing⟩
  have hblueprint : Blueprint.ofRegistry r w.context.image = .ok c.blueprint := by
    simp [Blueprint.ofRegistry, hname, hspace, c]
  have hk : c.Keeps w.server j r :=
    ⟨⟨hlasting, rfl, rfl⟩, hfiled, rfl, hr, hw.uid hr.stored, hblueprint, rfl⟩
  have hfresh : c.Owes ts w.server r 2 := .fresh
  obtain ⟨hwrites, j', r', hk'⟩ := hfresh.statusWrites_le hk rfl hclock
  exact ⟨hwrites, j', r', hk'.holds⟩

theorem two_failures_written :
    let r := firstStored none
    let refusal : ErrorStatus := ⟨"Failure", "not now", "Conflict", 409⟩
    let w : World :=
      ⟨(((Server.empty .drawn).plan ⟨"create", .managed .deployment, refusal, none⟩).plan
        ⟨"replace", .managed .role, refusal, none⟩).insert .registry r.toJson,
        .new "registry:1" none⟩
    let ts : List Occasion := [63000000000, 63000000030, 63000000090].map fun seconds =>
      ⟨⟨seconds, 0⟩, ⟨seconds, 500000000⟩⟩
    w.server.Reachable ∧ Outage.Lasting w.server.outages ∧
      w.server.Holds "marketplace" "community" (withIdentity 1 r.toJson) r ∧
      (∀ k i, w.server.object (.managed k) "marketplace" "community" = some i →
        (Managed.nameOf i).getD "" = "community") ∧
      Clocked ts ∧ statusWrites "marketplace" "community" ts w = 2 ∧
      ∃ j' r', (reconcileEach "marketplace" "community" ts w).server.Holds
        "marketplace" "community" j' r' := by
  intro r refusal w ts
  have hw : w.server.Reachable := .insert _ (Json.ordered_object _) (.plan _ (.plan _ (.empty _)))
  have hlasting : Outage.Lasting w.server.outages := by
    intro o ho
    rcases List.mem_cons.1 ho with rfl | ho
    · rfl
    · rw [List.mem_singleton.1 ho]
  have hr : w.server.Holds "marketplace" "community" (withIdentity 1 r.toJson) r :=
    ⟨by decide +kernel, by decide +kernel, by decide +kernel⟩
  have hfiled : ∀ k i, w.server.object (.managed k) "marketplace" "community" = some i →
      (Managed.nameOf i).getD "" = "community" := by
    have hnone (k : ManagedKind) :
        w.server.object (.managed k) "marketplace" "community" = none := by
      cases k <;> decide +kernel
    intro k i hi
    cases (hnone k).symm.trans hi
  have hclock : Clocked ts := ⟨by decide +kernel, by decide +kernel⟩
  obtain ⟨hwrites, hkept⟩ := status_writes_die_out hw hlasting hr hfiled hclock
  have htwo : 2 ≤ statusWrites "marketplace" "community" ts w := by decide +kernel
  exact ⟨hw, hlasting, hr, hfiled, hclock, Nat.le_antisymm hwrites htwo, hkept⟩

end RegistryKeeper
