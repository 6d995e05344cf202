import RegistryKeeper.Proofs.Outcomes

namespace RegistryKeeper

namespace PackageRegistry

/-- Alike in all that a pass reads of a registry but its uid and status. -/
structure CopyOf (copy r : PackageRegistry) : Prop where
  «namespace» : copy.metadata.namespace = r.metadata.namespace
  name : copy.metadata.name = r.metadata.name
  generation : copy.metadata.generation = r.metadata.generation
  spec : copy.spec = r.spec

def Tells (r : PackageRegistry) (s : RegistryStatus) : Prop :=
  ∃ updated, r.status = some { s with lastUpdated := updated }

def statusOfPass (r : PackageRegistry) (outcome : Except Failure String) (now : Instant) :
    RegistryStatus :=
  match outcome with
  | .ok address => r.statusAfter .succeeded (some address) none now
  | .error f => r.statusAfter .failed none (some f.message) now

variable {copy r : PackageRegistry}

theorem CopyOf.observedGeneration_statusOfPass (h : copy.CopyOf r)
    (outcome : Except Failure String) (now : Instant) :
    (copy.statusOfPass outcome now).observedGeneration = r.generation := by
  have hg : copy.generation = r.generation := congrArg (fun g => g.getD 0) h.generation
  cases outcome <;> exact hg

theorem isNews_eq_false_iff {s : RegistryStatus} : r.isNews s = false ↔ r.Tells s := by
  constructor
  · exact status_of_not_isNews
  · rintro ⟨updated, h⟩
    simp [isNews, h, RegistryStatus.sameOutcome]

end PackageRegistry

section
variable {copy r : PackageRegistry} {n m : String} {j : Json} {s : Server}
  {status : RegistryStatus}

theorem recordStatus_of_copy (hcopy : copy.CopyOf r) (hr : s.Holds n m j r)
    (hu : j.blankAt uidPath = false) (hg : status.observedGeneration = r.generation)
    (hanswered : ∀ e,
      s.answer (statusPatch n m status) ≠ (.error e, (recordStatus copy status s).2)) :
    (¬ copy.Tells status → Address.statusFault? n m = none →
        ∃ j' v, (recordStatus copy status s).2.Holds n m j' (r.withStatus v status)) ∧
      (copy.Tells status ∨ Address.statusFault? n m ≠ none →
        (recordStatus copy status s).2.Holds n m j r) := by
  by_cases htells : copy.Tells status
  · rw [recordStatus_of_not_news (PackageRegistry.isNews_eq_false_iff.2 htells)]
    exact ⟨fun h => absurd htells h, fun _ => hr⟩
  · have hnews : copy.isNews status = true :=
      eq_true_of_ne_false fun h => htells (PackageRegistry.isNews_eq_false_iff.1 h)
    obtain ⟨hspace, hname, -⟩ := PackageRegistry.metadata_of_place hr.reads hr.place
    rw [recordStatus_of_news hnews (hcopy.namespace.trans hspace) (hcopy.name.trans hname)]
      at hanswered ⊢
    rcases Server.patchStatus_cases hr hu hg with ⟨f, hf, h⟩ | ⟨e, s', hf, ha, h⟩ |
      ⟨j', v, s', hf, ha, hj, hr', h⟩
    · rw [h, hf]
      exact ⟨fun _ h => (Option.some_ne_none f h).elim, fun _ => hr⟩
    · rw [h] at hanswered
      exact absurd ha (hanswered e)
    · rw [h, hf]
      exact ⟨fun _ _ => ⟨j', v, hr'⟩, fun h => h.elim (absurd · htells) (absurd rfl)⟩

end

section
variable {r : PackageRegistry} {n : String} {started recorded : Instant} {w : World}

theorem server_reconcile_of_pass (hn : r.metadata.namespace = some n)
    (hrest : r.restLeft started = none) (hd : r.spec.defects = []) {listing : List PackageSource}
    {s₁ s₂ : Server} (hl : w.server.listSources = (.ok listing, s₁))
    {outcome : Except Failure String}
    (hp : Program.run Server.call
      (establish (w.context.catalog.sync listing).read r w.context.image).run s₁ = (outcome, s₂)) :
    (reconcile r started recorded w).2.server =
      (recordStatus r (r.statusOfPass outcome recorded) s₂).2 := by
  rw [server_reconcile]
  simp only [attend, hn, hrest, hd, performPass, hl, Context.measure]
  rw [hp]
  cases outcome with
  | error f => rfl
  | ok address =>
      simp only [PackageRegistry.statusOfPass]
      rcases recordStatus r (r.statusAfter .succeeded (some address) none recorded) s₂ with ⟨o, s'⟩
      cases o <;> rfl

end

theorem outcome_told_iff {w : World} (hw : w.server.Reachable) {n m : String} {j : Json}
    {copy r : PackageRegistry} (hr : w.server.Holds n m j r) (hcopy : copy.CopyOf r)
    {started recorded : Instant} (hrest : copy.restLeft started = none)
    (hd : copy.spec.defects = []) {listing : List PackageSource} {s₁ s₂ : Server}
    (hl : w.server.listSources = (.ok listing, s₁)) {outcome : Except Failure String}
    (hp : Program.run Server.call
      (establish (w.context.catalog.sync listing).read copy w.context.image).run s₁ =
        (outcome, s₂))
    (hanswered : w.server.PatchesAnswered (reconcile copy started recorded w).2.server) :
    let s' := (reconcile copy started recorded w).2.server
    let status := copy.statusOfPass outcome recorded
    ((∃ j' r', s'.Holds n m j' r' ∧ r'.Tells status) ↔
        ¬ copy.Tells status ∧ Address.statusFault? n m = none ∨ r.Tells status) ∧
      (copy.Tells status ∨ Address.statusFault? n m ≠ none → s'.Holds n m j r) := by
  intro s' status
  obtain ⟨hspace, -, -⟩ := PackageRegistry.metadata_of_place hr.reads hr.place
  have hx : w.server.Exchange (fun q => q.kind ≠ .registry) s₂ := Server.exchange_pass hl hp
  have hr₂ : s₂.Holds n m j r := hx.holds (fun _ h => h) hr
  have hs' : s' = (recordStatus copy status s₂).2 :=
    server_reconcile_of_pass (hcopy.namespace.trans hspace) hrest hd hl hp
  obtain ⟨hwritten, hkept⟩ := recordStatus_of_copy hcopy hr₂ (hw.uid hr.stored)
    (hcopy.observedGeneration_statusOfPass outcome recorded)
    (fun e => hs' ▸ hanswered.not_refused hx status e)
  rw [← hs'] at hwritten hkept
  have hdecided : (¬ copy.Tells status ∧ Address.statusFault? n m = none) ∨
      (copy.Tells status ∨ Address.statusFault? n m ≠ none) := by
    by_cases htells : copy.Tells status
    · exact .inr (.inl htells)
    · by_cases hf : Address.statusFault? n m = none
      · exact .inl ⟨htells, hf⟩
      · exact .inr (.inr hf)
  refine ⟨⟨?_, ?_⟩, hkept⟩
  · rintro ⟨j', r', hr', htells⟩
    rcases hdecided with hnew | hold
    · exact .inl hnew
    · obtain ⟨-, rfl⟩ := (hkept hold).unique hr'
      exact .inr htells
  · intro h
    rcases hdecided with ⟨hnew, hf⟩ | hold
    · obtain ⟨j', v, hr'⟩ := hwritten hnew hf
      exact ⟨j', _, hr', status.lastUpdated, rfl⟩
    · refine ⟨j, r, hkept hold, h.resolve_left ?_⟩
      rintro ⟨hnew, hf⟩
      exact hold.elim hnew fun h => h hf

theorem deleted_address_still_stored :
    let refusal : ErrorStatus := ⟨"Failure", "not now", "InternalError", 500⟩
    let f : Failure := .api (.refused refusal)
    let r := firstStored (some ⟨.succeeded, some "10.0.0.7:50051", none, 2, none⟩)
    let copy := firstStored (some ⟨.failed, none, some f.message, 2, none⟩)
    let service := Json.object
      [("metadata", Json.object
          [("name", .str "community"), ("namespace", .str "marketplace"), ("uid", .str "s-1")]),
        ("spec", Json.object
          [("clusterIP", .str "10.0.0.7"), ("ports", .arr [Json.object [("port", .int 50051)]])])]
    let w : World :=
      ⟨(((Server.empty .drawn).plan ⟨"create", .managed .service, refusal, none⟩).insert .registry
        r.toJson).insert (.managed .service) service, .new "registry:1" none⟩
    let t : Instant := ⟨63000000000, 0⟩
    let s₁ := w.server.listSources.2
    let pass := Program.run Server.call
      (establish (w.context.catalog.sync []).read copy w.context.image).run s₁
    let s' := (reconcile copy t t w).2.server
    w.server.Reachable ∧ w.server.Holds "marketplace" "community" (withIdentity 1 r.toJson) r ∧
      copy.CopyOf r ∧ copy.restLeft t = none ∧ copy.spec.defects = [] ∧
      w.server.listSources = (.ok [], s₁) ∧ pass = (.error f, pass.2) ∧
      w.server.PatchesAnswered s' ∧
      s'.object (.managed .service) "marketplace" "community" = none ∧
      s'.Holds "marketplace" "community" (withIdentity 1 r.toJson) r ∧
      ¬ ∃ j' r', s'.Holds "marketplace" "community" j' r' ∧
        r'.Tells (copy.statusOfPass (.error f) t) := by
  intro refusal f r copy service w t s₁ pass s'
  have hw : w.server.Reachable :=
    .insert _ (Json.ordered_object _) (.insert _ (Json.ordered_object _) (.plan _ (.empty _)))
  have hr : w.server.Holds "marketplace" "community" (withIdentity 1 r.toJson) r :=
    ⟨by decide +kernel, by decide +kernel, by decide +kernel⟩
  have hcopy : copy.CopyOf r := ⟨rfl, rfl, rfl, rfl⟩
  have hrest : copy.restLeft t = none := by decide +kernel
  have hd : copy.spec.defects = [] := by decide +kernel
  have hl : w.server.listSources = (.ok [], s₁) := Prod.ext (by decide +kernel) rfl
  obtain ⟨hfails, hquiet, hdeleted⟩ : pass.1 = .error f ∧
      (∀ e ∈ w.server.answers (Server.sent w.server s'), e.1.verb ≠ "patch") ∧
      s'.object (.managed .service) "marketplace" "community" = none := by
    decide +kernel
  have hp : pass = (.error f, pass.2) := Prod.ext hfails rfl
  have hanswered : w.server.PatchesAnswered s' := fun e he hv => absurd hv (hquiet e he)
  obtain ⟨htold, hkept⟩ := outcome_told_iff hw hr hcopy hrest hd hl hp hanswered
  have htells : copy.Tells (copy.statusOfPass (.error f) t) := ⟨none, rfl⟩
  refine ⟨hw, hr, hcopy, hrest, hd, hl, hp, hanswered, hdeleted, hkept (.inl htells), ?_⟩
  intro h
  rcases htold.1 h with ⟨hnew, -⟩ | ⟨updated, hstatus⟩
  · exact hnew htells
  · cases hstatus

end RegistryKeeper
