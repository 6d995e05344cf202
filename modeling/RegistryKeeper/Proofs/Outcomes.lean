import RegistryKeeper.Proofs.Attempts

namespace RegistryKeeper

theorem PackageRegistry.status_of_not_isNews {r : PackageRegistry} {s : RegistryStatus}
    (h : r.isNews s = false) : ∃ updated, r.status = some { s with lastUpdated := updated } := by
  unfold isNews at h
  split at h
  · cases h
  · next t ht =>
      simp only [Bool.not_eq_eq_eq_not, Bool.not_false] at h
      obtain ⟨hp, ha, hm, hg⟩ := (RegistryStatus.sameOutcome_iff t s).1 h
      refine ⟨t.lastUpdated, ht.trans ?_⟩
      rw [← hp, ← ha, ← hm, ← hg]

section
variable {r : PackageRegistry} {n m : String} {j : Json} {s s' : Server} {recorded : Instant}

theorem Attempt.recording_of_ok {delay : Nat} (ha : Attempt r recorded s (.ok delay) s')
    (hs : s.Reachable) (hr : s.Holds n m j r) :
    ∃ s₂ address service, s₂.Holds n m j r ∧
      s₂.object (.managed .service) n m = some service ∧ ReachedAt service address ∧
      Recording r n m j (r.statusAfter .succeeded (some address) none recorded) s₂ (.ok ()) s' := by
  obtain ⟨hn, hm, -⟩ := PackageRegistry.metadata_of_place hr.reads hr.place
  obtain ⟨listing, s₁, lookup, image, address, s₂, hl, hp, hok⟩ := ha.finished_of_ok
  have hs₁ : s₁.Sound (· = .managed .service) := by
    refine (Server.exchange_listSources hl).sound ?_ (hs.sound _)
    intro q hq hk
    cases hq.symm.trans hk
  obtain ⟨service, hstored, hreached⟩ := Server.reached_of_run_establish hn hm hs₁ hp
  have hr₂ : s₂.Holds n m j r := (Server.exchange_pass hl hp).holds (fun _ h => h) hr
  have hrec := recording hr₂ (hs.uid hr.stored)
    (r.statusAfter .succeeded (some address) none recorded) rfl
  rw [hok] at hrec
  exact ⟨s₂, address, service, hr₂, hstored, hreached, hrec⟩

theorem recording_of_success {w w' : World} (hw : w.server.Reachable) (hr : w.server.Holds n m j r)
    {started : Instant} (hrest : r.restLeft started = none) {delay : Nat}
    (h : reconcile r started recorded w = (.ok delay, w')) :
    ∃ s₂ address service, s₂.Holds n m j r ∧
      s₂.object (.managed .service) n m = some service ∧ ReachedAt service address ∧
      Recording r n m j (r.statusAfter .succeeded (some address) none recorded) s₂ (.ok ())
        w'.server := by
  obtain ⟨hn, -, -⟩ := PackageRegistry.metadata_of_place hr.reads hr.place
  have ha := attempt_reconcile hn hrest recorded w
  rw [h] at ha
  exact ha.recording_of_ok hw hr

end

theorem success_shows_service {w w' : World} (hw : w.server.Reachable) {n m : String} {j : Json}
    {r : PackageRegistry} (hr : w.server.Holds n m j r) {started recorded : Instant}
    (hrest : r.restLeft started = none) {delay : Nat}
    (h : reconcile r started recorded w = (.ok delay, w')) :
    ∃ j' r' service address updated, w'.server.Holds n m j' r' ∧
      r'.status = some ⟨.succeeded, some address, none, r.generation, updated⟩ ∧
      Json.AgreeOff [["status"], versionPath] j j' ∧
      w'.server.object (.managed .service) n m = some service ∧ ReachedAt service address := by
  obtain ⟨s₂, address, service, hr₂, hstored, hreached, hrecording⟩ :=
    recording_of_success hw hr hrest h
  generalize w'.server = s' at hrecording ⊢
  cases hrecording with
  | skipped hnews =>
      obtain ⟨updated, hstatus⟩ := PackageRegistry.status_of_not_isNews hnews
      exact ⟨j, r, service, address, updated, hr₂, hstatus, .refl _ j, hstored, hreached⟩
  | written j' v s' hnews hf hanswer hagree hr' =>
      refine ⟨j', _, service, address, some recorded.text, hr', rfl, hagree, ?_, hreached⟩
      have hkept := Server.object_answer_of_kind_ne (r := statusPatch n m
        (r.statusAfter .succeeded (some address) none recorded))
        (k := .managed .service) (by simp [statusPatch, Request.kind]) s₂ n m
      rw [hanswer] at hkept
      exact hkept.trans hstored

def firstStored (status : Option RegistryStatus) : PackageRegistry :=
  ⟨{ Metadata.empty with
      generation := some 2, name := some "community", «namespace» := some "marketplace",
      resourceVersion := some "1", uid := some "r-1" }, ⟨["etcd"]⟩, status⟩

theorem success_shows_surviving_service :
    let r := firstStored none
    let service := Json.object
      [("metadata", Json.object
          [("name", .str "community"), ("namespace", .str "marketplace"), ("uid", .str "s-1")]),
        ("spec", Json.object
          [("clusterIP", .str "10.0.0.7"), ("ports", .arr [Json.object [("port", .int 80)]])])]
    let outage : Outage :=
      ⟨"delete", .managed .service, ⟨"Failure", "not now", "InternalError", 500⟩, none⟩
    let w : World :=
      ⟨(((Server.empty .drawn).plan outage).insert .registry r.toJson).insert (.managed .service)
        service, .new "registry:1" none⟩
    let t : Instant := ⟨63000000000, 0⟩
    let w' := (reconcile r t t w).2
    w.server.Reachable ∧ w.server.Holds "marketplace" "community" (withIdentity 1 r.toJson) r ∧
      r.restLeft t = none ∧ reconcile r t t w = (.ok passIntervalNanos, w') ∧
      ∃ j' r' service' address updated, w'.server.Holds "marketplace" "community" j' r' ∧
        r'.status = some ⟨.succeeded, some address, none, r.generation, updated⟩ ∧
        Json.AgreeOff [["status"], versionPath] (withIdentity 1 r.toJson) j' ∧
        w'.server.object (.managed .service) "marketplace" "community" = some service' ∧
        ReachedAt service' address := by
  intro r service outage w t w'
  have hw : w.server.Reachable :=
    .insert _ (Json.ordered_object _) (.insert _ (Json.ordered_object _) (.plan _ (.empty _)))
  have hr : w.server.Holds "marketplace" "community" (withIdentity 1 r.toJson) r :=
    ⟨by decide +kernel, by decide +kernel, by decide +kernel⟩
  have hrest : r.restLeft t = none := by decide +kernel
  have h : reconcile r t t w = (.ok passIntervalNanos, w') :=
    reconcile_eq_of_fst (by decide +kernel)
  exact ⟨hw, hr, hrest, h, success_shows_service hw hr hrest h⟩

def PackageRegistry.ShowsFailure (r : PackageRegistry) (generation : Int) : Prop :=
  ∃ message updated, r.status = some ⟨.failed, none, some message, generation, updated⟩

/-- No failure of the registry can be written down: the sources are not to be had, which is not
written down, or the registry has no address that could be written to. -/
def PackageRegistry.Unheard (r : PackageRegistry) (n m : String) (s : Server) : Prop :=
  (r.spec.defects = [] ∧ ∃ f, s.listSources.1 = .error f) ∨ ∃ f, Address.statusFault? n m = some f

theorem Server.Holds.shows_iff {s : Server} {n m : String} {j : Json} {r : PackageRegistry}
    (h : s.Holds n m j r) (g : Int) :
    (∃ j' r', s.Holds n m j' r' ∧ r'.ShowsFailure g) ↔ r.ShowsFailure g := by
  constructor
  · rintro ⟨j', r', h', hshows⟩
    obtain ⟨-, rfl⟩ := h.unique h'
    exact hshows
  · intro hshows
    exact ⟨j, r, h, hshows⟩

section
variable {r : PackageRegistry} {n m : String} {j : Json} {s s' : Server}

theorem Recording.shows_failure {o : Except Failure Unit} {message : String} {recorded : Instant}
    (h : Recording r n m j (r.statusAfter .failed none (some message) recorded) s o s')
    (hr : s.Holds n m j r)
    (hanswer : ∀ status e, s.answer (statusPatch n m status) ≠ (.error e, s')) :
    (∃ j' r', s'.Holds n m j' r' ∧ r'.ShowsFailure r.generation) ∨
      ∃ f, Address.statusFault? n m = some f := by
  cases h with
  | skipped hnews =>
      obtain ⟨updated, hstatus⟩ := PackageRegistry.status_of_not_isNews hnews
      exact .inl ⟨j, r, hr, message, updated, hstatus⟩
  | unaddressed f hnews hf => exact .inr ⟨f, hf⟩
  | refused e s' hnews hf ha => exact absurd ha (hanswer _ e)
  | written j' v s' hnews hf ha hj hr' =>
      exact .inl ⟨j', _, hr', message, some recorded.text, rfl⟩

theorem Recording.holds_of_fault {status : RegistryStatus} {o : Except Failure Unit}
    (h : Recording r n m j status s o s') (hr : s.Holds n m j r) {f : ApiFailure}
    (hf : Address.statusFault? n m = some f) : s'.Holds n m j r := by
  cases h with
  | skipped hnews => exact hr
  | unaddressed f hnews hf => exact hr
  | refused e s' hnews hf' ha => cases hf'.symm.trans hf
  | written j' v s' hnews hf' ha hj hr' => cases hf'.symm.trans hf

def Server.PatchesAnswered (before after : Server) : Prop :=
  ∀ e ∈ before.answers (Server.sent before after), e.1.verb = "patch" → ∃ a, e.2 = .ok a

theorem Server.PatchesAnswered.not_refused {s s₂ s' : Server} {P : Request → Prop}
    (h : s.PatchesAnswered s') (hx : s.Exchange P s₂) (status : RegistryStatus) (e : ErrorStatus) :
    s₂.answer (statusPatch n m status) ≠ (.error e, s') := by
  intro ha
  have hmem := hx.mem_answers_answer (statusPatch n m status)
  rw [ha] at hmem
  obtain ⟨a, ho⟩ := h _ hmem rfl
  cases ho

theorem heard_of_recorded {P : Request → Prop} {s₂ : Server} (hx : s.Exchange P s₂)
    (hP : ∀ q, P q → q.kind ≠ .registry) (hs : s.Reachable) (hr : s.Holds n m j r)
    (hlisted : ¬ (r.spec.defects = [] ∧ ∃ f, s.listSources.1 = .error f)) (message : String)
    {recorded : Instant}
    (hs' : (recordStatus r (r.statusAfter .failed none (some message) recorded) s₂).2 = s')
    (hp : s.PatchesAnswered s') :
    (r.Unheard n m s → s'.Holds n m j r) ∧
      (¬ r.Unheard n m s → ∃ j' r', s'.Holds n m j' r' ∧ r'.ShowsFailure r.generation) := by
  have hr₂ : s₂.Holds n m j r := hx.holds hP hr
  have hrec := recording hr₂ (hs.uid hr.stored)
    (r.statusAfter .failed none (some message) recorded) rfl
  rw [hs'] at hrec
  constructor
  · rintro (hunlisted | ⟨f, hf⟩)
    · exact absurd hunlisted hlisted
    · exact hrec.holds_of_fault hr₂ hf
  · intro hheard
    rcases hrec.shows_failure hr₂ (hp.not_refused hx) with hshows | hf
    · exact hshows
    · exact absurd (.inr hf) hheard

theorem Attempt.heard {recorded : Instant} {f : Failure} (ha : Attempt r recorded s (.error f) s')
    (hs : s.Reachable) (hr : s.Holds n m j r) (hp : s.PatchesAnswered s') :
    (r.Unheard n m s → s'.Holds n m j r) ∧
      (¬ r.Unheard n m s → ∃ j' r', s'.Holds n m j' r' ∧ r'.ShowsFailure r.generation) := by
  generalize ho : (Except.error f : Except Failure Nat) = o at ha
  cases ha with
  | unlisted f _ hd hl =>
      constructor
      · intro _
        refine (Server.exchange_listSources hl).holds ?_ hr
        intro q hq hk
        cases hq.symm.trans hk
      · intro hheard
        refine absurd (.inl ⟨hd, f, ?_⟩) hheard
        rw [hl]
  | defective f message hd =>
      have hlisted : ¬ (r.spec.defects = [] ∧ ∃ f, s.listSources.1 = .error f) :=
        fun h => hd h.1
      exact heard_of_recorded (.refl (fun _ => False) s) (fun _ h => h.elim) hs hr hlisted message
        rfl hp
  | stopped listing s₁ s₂ lookup image f hd hl hrun =>
      have hlisted : ¬ (r.spec.defects = [] ∧ ∃ f, s.listSources.1 = .error f) := by
        rintro ⟨-, g, hg⟩
        rw [hl] at hg
        cases hg
      exact heard_of_recorded (Server.exchange_pass hl hrun) (fun _ h => h) hs hr hlisted f.message
        rfl hp
  | finished listing s₁ s₂ lookup image address hd hl hrun =>
      have hx := Server.exchange_pass hl hrun
      have hr₂ : s₂.Holds n m j r := hx.holds (fun _ h => h) hr
      have hrec := recording hr₂ (hs.uid hr.stored)
        (r.statusAfter .succeeded (some address) none recorded) rfl
      generalize recordStatus r (r.statusAfter .succeeded (some address) none recorded) s₂ = q
        at hrec ho hp ⊢
      obtain ⟨o, s'⟩ := q
      cases hrec with
      | skipped hnews => cases ho
      | unaddressed f hnews hf =>
          exact ⟨fun _ => hr₂, fun hheard => absurd (.inr ⟨f, hf⟩) hheard⟩
      | refused e s' hnews hf ha => exact absurd ha (hp.not_refused hx _ e)
      | written j' v s' hnews hf ha hj hr' => cases ho

end

theorem failure_shown_iff {w w' : World} (hw : w.server.Reachable) {n m : String} {j : Json}
    {r : PackageRegistry} (hr : w.server.Holds n m j r) {started recorded : Instant} {f : Failure}
    (h : reconcile r started recorded w = (.error f, w'))
    (hp : w.server.PatchesAnswered w'.server) :
    ((∃ j' r', w'.server.Holds n m j' r' ∧ r'.ShowsFailure r.generation) ↔
        ¬ r.Unheard n m w.server ∨ r.ShowsFailure r.generation) ∧
      (r.Unheard n m w.server → w'.server.Holds n m j r) := by
  obtain ⟨hn, -, -⟩ := PackageRegistry.metadata_of_place hr.reads hr.place
  have hrest : r.restLeft started = none := by
    cases hrest : r.restLeft started with
    | none => rfl
    | some left =>
        have hok := (reconcile_of_rest hn hrest recorded w).1
        rw [h] at hok
        cases hok
  have ha := attempt_reconcile hn hrest recorded w
  rw [h] at ha
  obtain ⟨hunheard, hheard⟩ := ha.heard hw hr hp
  refine ⟨⟨?_, ?_⟩, hunheard⟩
  · intro hshows
    by_cases hu : r.Unheard n m w.server
    · exact .inr (((hunheard hu).shows_iff _).1 hshows)
    · exact .inl hu
  · rintro (hu | hshows)
    · exact hheard hu
    · by_cases hu : r.Unheard n m w.server
      · exact ((hunheard hu).shows_iff _).2 hshows
      · exact hheard hu

theorem success_shown_after_unlisted_sources :
    let r := firstStored (some ⟨.succeeded, some "10.0.0.7:50051", none, 1, none⟩)
    let outage : Outage := ⟨"list", .source, ⟨"Failure", "not now", "InternalError", 500⟩, none⟩
    let w : World :=
      ⟨((Server.empty .drawn).plan outage).insert .registry r.toJson, .new "registry:1" none⟩
    let t : Instant := ⟨63000000000, 0⟩
    let w' := (reconcile r t t w).2
    w.server.Reachable ∧ w.server.Holds "marketplace" "community" (withIdentity 1 r.toJson) r ∧
      reconcile r t t w = (.error (.api (.refused outage.status)), w') ∧
      w.server.PatchesAnswered w'.server ∧
      w'.server.Holds "marketplace" "community" (withIdentity 1 r.toJson) r ∧
      ¬ ∃ j' r', w'.server.Holds "marketplace" "community" j' r' ∧
        r'.ShowsFailure r.generation := by
  intro r outage w t w'
  have hw : w.server.Reachable := .insert _ (Json.ordered_object _) (.plan _ (.empty _))
  have hr : w.server.Holds "marketplace" "community" (withIdentity 1 r.toJson) r :=
    ⟨by decide +kernel, by decide +kernel, by decide +kernel⟩
  have h : reconcile r t t w = (.error (.api (.refused outage.status)), w') :=
    reconcile_eq_of_fst (by decide +kernel)
  have hp : w.server.PatchesAnswered w'.server := by
    have hlist : ∀ e ∈ w.server.answers (Server.sent w.server w'.server), e.1.verb ≠ "patch" := by
      decide +kernel
    intro e he hv
    exact absurd hv (hlist e he)
  have hunheard : r.Unheard "marketplace" "community" w.server :=
    .inl ⟨by decide +kernel, .api (.refused outage.status), by decide +kernel⟩
  obtain ⟨hshown, hkept⟩ := failure_shown_iff hw hr h hp
  refine ⟨hw, hr, h, hp, hkept hunheard, ?_⟩
  intro hshows
  rcases hshown.1 hshows with hheard | ⟨message, updated, hstatus⟩
  · exact hheard hunheard
  · cases hstatus

end RegistryKeeper
