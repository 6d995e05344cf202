import RegistryKeeper.Proofs.Occasions

namespace RegistryKeeper

structure Outcome where
  result : Except Failure Nat
  sent : List Request
  server : Server

def Occasion.outcome (t : Occasion) (r : PackageRegistry) (w : World) : Outcome :=
  let (result, w') := reconcile r t.started t.recorded w
  ⟨result, w'.server.log.drop w.server.log.length, w'.server⟩

inductive Doing where
  | reconcile (r : PackageRegistry) (t : Occasion)
  | tick (r : PackageRegistry) (t : Occasion)
  | change (f : Server → Server)

def Doing.act : Doing → World → World
  | .reconcile r t, w => (RegistryKeeper.reconcile r t.started t.recorded w).2
  | .tick r t, w => (RegistryKeeper.tick r t.started t.recorded w).2
  | .change f, w => { w with server := f w.server }

def Doing.actAlone (image : String) (s : Server) (d : Doing) : Server :=
  (d.act ⟨s, .new image none⟩).server

def World.after (w : World) (doings : List Doing) : World := doings.foldl (fun w d => d.act w) w

def outside {α : Type} (p : α × World) : α × Server := (p.1, p.2.server)

section
variable {c c' : Context} (hi : c.image = c'.image) (r : PackageRegistry)
  (started recorded : Instant) (s : Server)
include hi

theorem outside_performPass :
    outside (performPass r recorded ⟨s, c⟩) = outside (performPass r recorded ⟨s, c'⟩) := by
  unfold performPass
  rcases s.listSources with ⟨listing, s₁⟩
  cases listing with
  | error f => rfl
  | ok listing =>
      have hsync : c.catalog.sync listing = c'.catalog.sync listing := rfl
      simp only [hi, hsync]
      rcases Program.run Server.call
        (establish (c'.catalog.sync listing).read r c'.image).run s₁ with ⟨outcome, s₂⟩
      cases outcome with
      | error f => rfl
      | ok address =>
          simp only
          rcases recordStatus r (r.statusAfter .succeeded (some address) none recorded) s₂ with
            ⟨written, s₃⟩
          cases written <;> rfl

omit hi in
theorem outside_refuseSpec (c c' : Context) (defects : List Defect) :
    outside (refuseSpec r defects recorded ⟨s, c⟩) =
      outside (refuseSpec r defects recorded ⟨s, c'⟩) := by
  unfold refuseSpec
  simp only
  rcases recordStatus r (r.statusAfter .failed none (some (defectSummary defects)) recorded) s with
    ⟨written, s₁⟩
  cases written <;> rfl

theorem outside_attend :
    outside (attend r started recorded ⟨s, c⟩) = outside (attend r started recorded ⟨s, c'⟩) := by
  unfold attend
  cases r.metadata.namespace with
  | none => rfl
  | some n =>
      cases r.restLeft started with
      | some left => rfl
      | none =>
          simp only
          split
          · exact outside_performPass hi r recorded s
          · exact outside_refuseSpec r recorded s c c' _

omit hi in
theorem outside_reconcile_eq (w : World) :
    outside (reconcile r started recorded w) =
      outside (attend r started recorded ⟨w.server, w.context.measure .begun⟩) :=
  Prod.ext (reconcile_fst ..) (server_reconcile ..)

theorem outside_reconcile :
    outside (reconcile r started recorded ⟨s, c⟩) =
      outside (reconcile r started recorded ⟨s, c'⟩) := by
  have himage : (c.measure .begun).image = (c'.measure .begun).image := hi
  rw [outside_reconcile_eq, outside_reconcile_eq]
  exact outside_attend himage r started recorded s

theorem Occasion.outcome_congr (t : Occasion) : t.outcome r ⟨s, c⟩ = t.outcome r ⟨s, c'⟩ := by
  have houtside := outside_reconcile hi r t.started t.recorded s
  have hresult := congrArg Prod.fst houtside
  have hserver := congrArg Prod.snd houtside
  simp only [outside] at hresult hserver
  simp only [outcome, hresult, hserver]

end

theorem server_tick (r : PackageRegistry) (started recorded : Instant) (w : World) :
    (tick r started recorded w).2.server = (reconcile r started recorded w).2.server := by
  unfold tick
  split <;> next h => rw [h]

theorem image_tick (r : PackageRegistry) (started recorded : Instant) (w : World) :
    (tick r started recorded w).2.context.image = w.context.image := by
  have himage := image_reconcile r started recorded w
  unfold tick
  split
  · next h =>
      rw [h] at himage
      exact himage
  · next h =>
      rw [h] at himage
      exact himage

namespace Doing

theorem image_act (d : Doing) (w : World) : (d.act w).context.image = w.context.image := by
  cases d with
  | reconcile r t => exact image_reconcile ..
  | tick r t => exact image_tick ..
  | change f => rfl

theorem server_act (d : Doing) (w : World) :
    (d.act w).server = d.actAlone w.context.image w.server := by
  have himage : w.context.image = (Context.new w.context.image none).image := rfl
  have hserver (r : PackageRegistry) (t : Occasion) :
      (RegistryKeeper.reconcile r t.started t.recorded w).2.server =
        (RegistryKeeper.reconcile r t.started t.recorded
          ⟨w.server, .new w.context.image none⟩).2.server :=
    congrArg Prod.snd (outside_reconcile himage r t.started t.recorded w.server)
  cases d with
  | reconcile r t => exact hserver r t
  | tick r t =>
      rw [actAlone, act, act, server_tick, server_tick]
      exact hserver r t
  | change f => rfl

end Doing

namespace World

theorem image_after (w : World) (doings : List Doing) :
    (w.after doings).context.image = w.context.image := by
  induction doings generalizing w with
  | nil => rfl
  | cons d doings ih => exact (ih (d.act w)).trans (d.image_act w)

theorem server_after (w : World) (doings : List Doing) :
    (w.after doings).server = doings.foldl (Doing.actAlone w.context.image) w.server := by
  induction doings generalizing w with
  | nil => rfl
  | cons d doings ih =>
      have hrest := ih (d.act w)
      rw [d.image_act, d.server_act] at hrest
      exact hrest

end World

theorem nothing_leaks_between_reconciles (w : World) (doings : List Doing) (r : PackageRegistry)
    (t : Occasion) (catalog : Catalog) (failureCounts : Table String Nat)
    (metrics : Option Metrics) :
    let now := w.after doings
    now.server = doings.foldl (Doing.actAlone w.context.image) w.server ∧
      t.outcome r now =
        t.outcome r ⟨now.server, ⟨w.context.image, catalog, failureCounts, metrics⟩⟩ := by
  intro now
  let other : Context := ⟨w.context.image, catalog, failureCounts, metrics⟩
  have himage : now.context.image = other.image := w.image_after doings
  exact ⟨w.server_after doings, Occasion.outcome_congr himage r now.server t⟩

end RegistryKeeper
