import RegistryKeeper.Proofs.LastingPasses
import RegistryKeeper.Proofs.Outcomes

namespace RegistryKeeper

structure Occasion where
  started : Instant
  recorded : Instant

namespace Server

def registry? (s : Server) (n m : String) : Option PackageRegistry :=
  (s.object .registry n m).bind fun j => (PackageRegistry.ofJson j).toOption

theorem Holds.registry? {s : Server} {n m : String} {j : Json} {r : PackageRegistry}
    (h : s.Holds n m j r) : s.registry? n m = some r := by
  simp [Server.registry?, h.stored, h.reads, Except.toOption]

theorem store_listSources (s : Server) : s.listSources.2.store = s.store := by
  have hserve (t : Server) : (serve (.list .source none) t).2 = t := rfl
  have hanswer : (s.answer (.list .source none)).2.store = s.store := by
    unfold answer
    split
    · rfl
    · rw [hserve]
  unfold listSources
  rcases ha : s.answer (.list .source none) with ⟨a, s'⟩
  rw [ha] at hanswer
  cases a <;> exact hanswer

theorem listSources_eq_of_exchange {P : Request → Prop} {s s' : Server} (h : s.Exchange P s')
    (hs : Outage.Lasting s.outages) (hP : ∀ r, P r → r.kind ≠ .source) :
    s'.listSources.1 = s.listSources.1 :=
  listSources_congr hs (h.alike hs) (h.listing_eq hP none)

end Server

theorem image_reconcile (r : PackageRegistry) (started recorded : Instant) (w : World) :
    (reconcile r started recorded w).2.context.image = w.context.image := by
  have hpass (w : World) : (performPass r recorded w).2.context.image = w.context.image := by
    unfold performPass
    split
    · rfl
    · simp only
      split
      · split <;> rfl
      · rfl
  have hrefuse (defects : List Defect) (w : World) :
      (refuseSpec r defects recorded w).2.context.image = w.context.image := by
    unfold refuseSpec
    simp only
    split <;> rfl
  have hattend (w : World) : (attend r started recorded w).2.context.image = w.context.image := by
    unfold attend
    split
    · rfl
    · split
      · rfl
      · split
        · exact hpass w
        · exact hrefuse _ w
  have hattended := hattend { w with context := w.context.measure .begun }
  unfold reconcile
  split
  · next h =>
      rw [h] at hattended
      exact hattended
  · next h =>
      rw [h] at hattended
      exact hattended

namespace Setting

structure Keeps (c : Setting) (s : Server) (j : Json) (r : PackageRegistry) : Prop where
  governs : c.Governs s
  filed : c.Filed s
  listed : s.listSources.1 = c.listed
  holds : s.Holds c.blueprint.namespace c.blueprint.name j r
  uid : j.blankAt uidPath = false
  blueprint : Blueprint.ofRegistry r c.blueprint.image = .ok c.blueprint
  packages : r.spec.packages = c.packages

inductive Course (c : Setting) (j : Json) (r : PackageRegistry) (t : Occasion) (s : Server) :
    Server → Prop where
  | unlisted (s' : Server) (hd : r.spec.defects = []) (hk : c.Keeps s' j r)
      (hx : s.Exchange (fun q => q.kind ≠ .registry) s') (hs : c.stored s' = c.stored s) :
      Course c j r t s s'
  | defective (o : Except Failure Unit) (s' : Server) (hd : r.spec.defects ≠ [])
      (hr : Recording r c.blueprint.namespace c.blueprint.name j
        (r.statusAfter .failed none (some (defectSummary r.spec.defects)) t.recorded) s o s') :
      Course c j r t s s'
  | failed (f : Failure) (o : Except Failure Unit) (s₂ s' : Server) (hd : r.spec.defects = [])
      (hk : c.Keeps s₂ j r) (hx : s.Exchange (fun q => q.kind ≠ .registry) s₂)
      (hp : c.Passes ManagedKind.all (c.stored s) (c.stored s₂) (some f))
      (hr : Recording r c.blueprint.namespace c.blueprint.name j
        (r.statusAfter .failed none (some f.message) t.recorded) s₂ o s') : Course c j r t s s'
  | succeeded (address : String) (o : Except Failure Unit) (s₂ s' : Server)
      (hd : r.spec.defects = []) (hk : c.Keeps s₂ j r)
      (hx : s.Exchange (fun q => q.kind ≠ .registry) s₂)
      (hp : c.Passes ManagedKind.all (c.stored s) (c.stored s₂) none)
      (hr : Recording r c.blueprint.namespace c.blueprint.name j
        (r.statusAfter .succeeded (some address) none t.recorded) s₂ o s') : Course c j r t s s'

variable {c : Setting} {s s' : Server} {j : Json} {r : PackageRegistry} {t : Occasion}

theorem Keeps.of_exchange {P : Request → Prop} (h : c.Keeps s j r) (hx : s.Exchange P s')
    (hsource : ∀ q, P q → q.kind ≠ .source) (hregistry : ∀ q, P q → q.kind ≠ .registry)
    (hfiled : c.Filed s') : c.Keeps s' j r where
  governs := h.governs.of_exchange hx
  filed := hfiled
  listed :=
    (Server.listSources_eq_of_exchange hx (h.governs.outages ▸ h.governs.lasting) hsource).trans
      h.listed
  holds := h.holds.of_object_eq (hx.object_eq hregistry _ _)
  uid := h.uid
  blueprint := h.blueprint
  packages := h.packages

theorem Keeps.of_store_eq {P : Request → Prop} (h : c.Keeps s j r) (hx : s.Exchange P s')
    (hs : s'.store = s.store) : c.Keeps s' j r where
  governs := h.governs.of_exchange hx
  filed := by
    intro k i hi
    rw [stored_congr hs] at hi
    exact h.filed k i hi
  listed := by
    have hlasting : Outage.Lasting s.outages := h.governs.outages ▸ h.governs.lasting
    have hlisting : s'.listing .source none = s.listing .source none := by
      rw [Server.listing, Server.listing, hs]
    exact (Server.listSources_congr hlasting (hx.alike hlasting) hlisting).trans h.listed
  holds := by
    refine h.holds.of_object_eq ?_
    rw [Server.object, Server.object, hs]
  uid := h.uid
  blueprint := h.blueprint
  packages := h.packages

theorem Keeps.after_listing (h : c.Keeps s j r) :
    c.Keeps s.listSources.2 j r ∧ c.stored s.listSources.2 = c.stored s ∧
      s.Exchange (fun q => q.kind ≠ .registry) s.listSources.2 := by
  have hstore := s.store_listSources
  have hx : s.Exchange (fun q => q.kind = .source) s.listSources.2 :=
    Server.exchange_listSources rfl
  refine ⟨h.of_store_eq hx hstore, funext fun k => stored_congr hstore k, hx.mono ?_⟩
  intro q hq hq'
  cases hq.symm.trans hq'

theorem Keeps.of_written {j' : Json} {v : String} {status : RegistryStatus}
    {a : Except ErrorStatus Json} (h : c.Keeps s j r)
    (ha : s.answer (statusPatch c.blueprint.namespace c.blueprint.name status) = (a, s'))
    (hj : Json.AgreeOff [["status"], versionPath] j j')
    (hr : s'.Holds c.blueprint.namespace c.blueprint.name j' (r.withStatus v status)) :
    c.Keeps s' j' (r.withStatus v status) := by
  have hx := Server.Exchange.single (P := fun q => q.kind = .registry)
    (r := statusPatch c.blueprint.namespace c.blueprint.name status) rfl s
  rw [ha] at hx
  have hviews (k : ManagedKind) : c.stored s' k = c.stored s k := by
    refine stored_of_exchange hx ?_
    intro q hq hq'
    cases hq.symm.trans hq'
  refine ⟨h.governs.of_exchange hx, ?_, ?_, hr, ?_, h.blueprint, h.packages⟩
  · intro k i hi
    rw [hviews] at hi
    exact h.filed k i hi
  · refine (Server.listSources_eq_of_exchange hx (h.governs.outages ▸ h.governs.lasting) ?_).trans
      h.listed
    intro q hq hq'
    cases hq.symm.trans hq'
  · rw [hj.blankAt (by decide), h.uid]

theorem passes_of_establish (h : c.Keeps s j r) {listing : List PackageSource}
    (hl : c.listed = .ok listing) {catalog : Catalog} {o : Except Failure String}
    (hrun : Program.run Server.call
      (establish (catalog.sync listing).read r c.blueprint.image).run s = (o, s')) :
    ∃ res, c.Passes ManagedKind.all (c.stored s) (c.stored s') res ∧ Ends o res ∧
      c.Keeps s' j r ∧ s.Exchange (fun q => q.kind ≠ .registry) s' := by
  have hx := Server.exchange_run
    (establish (catalog.sync listing).read r c.blueprint.image).run s
  rw [hrun] at hx
  have hsources : Resolution.resolve (catalog.sync listing).read c.packages = c.sources := by
    rw [sources, hl]
    rfl
  rw [establish, h.blueprint] at hrun
  simp only [h.packages, hsources] at hrun
  obtain ⟨res, hp, hends, -, hfiled⟩ := passes_of_run_establish h.governs h.filed hrun
  have hregistry : ∀ q : Request, (∃ k, q.kind = .managed k) → q.kind ≠ .registry := by
    rintro q ⟨k, hq⟩ hq'
    cases hq.symm.trans hq'
  refine ⟨res, hp, hends, h.of_exchange hx ?_ hregistry hfiled, hx.mono hregistry⟩
  rintro q ⟨k, hq⟩ hq'
  cases hq.symm.trans hq'

theorem Keeps.recording (h : c.Keeps s j r) (status : RegistryStatus)
    (hg : status.observedGeneration = r.generation) :
    Recording r c.blueprint.namespace c.blueprint.name j status s (recordStatus r status s).1
      (recordStatus r status s).2 :=
  RegistryKeeper.recording h.holds h.uid status hg

theorem course_performPass {w : World} (h : c.Keeps w.server j r)
    (hi : w.context.image = c.blueprint.image) (hd : r.spec.defects = []) (t : Occasion) :
    c.Course j r t w.server (performPass r t.recorded w).2.server := by
  obtain ⟨hlisting, hviews, hsent⟩ := h.after_listing
  have hlisted := h.listed
  unfold performPass
  generalize w.server.listSources = q at hlisting hviews hsent hlisted ⊢
  obtain ⟨l, s₁⟩ := q
  simp only at hlisting hviews hsent hlisted
  cases l with
  | error f => exact .unlisted s₁ hd hlisting hsent hviews
  | ok listing =>
      simp only [hi]
      rcases hp : Program.run Server.call
        (establish (w.context.catalog.sync listing).read r c.blueprint.image).run s₁ with ⟨o, s₂⟩
      obtain ⟨res, hpasses, hends, hkept, hpass⟩ := passes_of_establish hlisting hlisted.symm hp
      have hx := hsent.trans hpass
      rw [hviews] at hpasses
      cases o with
      | error f =>
          obtain rfl := hends
          exact .failed f _ s₂ _ hd hkept hx hpasses (hkept.recording _ rfl)
      | ok address =>
          obtain rfl := hends
          have hrec := hkept.recording (r.statusAfter .succeeded (some address) none t.recorded) rfl
          simp only
          split
          · next s₃ hr =>
              rw [hr] at hrec
              exact .succeeded address _ s₂ s₃ hd hkept hx hpasses hrec
          · next f s₃ hr =>
              rw [hr] at hrec
              exact .succeeded address _ s₂ s₃ hd hkept hx hpasses hrec

theorem course_refuseSpec {w : World} (h : c.Keeps w.server j r) (hd : r.spec.defects ≠ [])
    (t : Occasion) :
    c.Course j r t w.server (refuseSpec r r.spec.defects t.recorded w).2.server := by
  have hrec := h.recording
    (r.statusAfter .failed none (some (defectSummary r.spec.defects)) t.recorded) rfl
  unfold refuseSpec
  simp only
  split
  · next s₁ hr =>
      rw [hr] at hrec
      exact .defective _ s₁ hd hrec
  · next f s₁ hr =>
      rw [hr] at hrec
      exact .defective _ s₁ hd hrec

theorem course_reconcile {w : World} (h : c.Keeps w.server j r)
    (hi : w.context.image = c.blueprint.image) {t : Occasion} (hrest : r.restLeft t.started = none) :
    c.Course j r t w.server (reconcile r t.started t.recorded w).2.server := by
  obtain ⟨hn, -, -⟩ := PackageRegistry.metadata_of_place h.holds.reads h.holds.place
  rw [server_reconcile]
  simp only [attend, hn, hrest]
  split
  · next hd => exact course_performPass (w := ⟨w.server, w.context.measure .begun⟩) h hi hd t
  · next hd => exact course_refuseSpec (w := ⟨w.server, w.context.measure .begun⟩) h hd t

end Setting

end RegistryKeeper
