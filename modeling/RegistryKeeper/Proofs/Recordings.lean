import RegistryKeeper.Proofs.Exchanges

namespace RegistryKeeper

open PackageRegistry (patched)

def statusPatch (n m : String) (status : RegistryStatus) : Request :=
  .patchStatus .registry n m (Json.object [("status", status.toJson)])

namespace Server

theorem object_of_statusPatch {n m : String} {status : RegistryStatus} {live j : Json}
    {s s' : Server} (hl : s.object .registry n m = some live) (hu : live.blankAt uidPath = false)
    (h : s.answer (statusPatch n m status) = (.ok j, s')) :
    s'.object .registry n m = some j ∧
      ∃ v, j = (patched live status).setAt versionPath (.str v) := by
  obtain ⟨outages, h⟩ := serve_of_answer_ok h
  have hl' : object { s with outages, log := s.log ++ [statusPatch n m status] } .registry n m =
      some live := hl
  simp only [statusPatch, serve] at h hl'
  rw [hl'] at h
  cases h
  refine ⟨(object_write ..).trans (if_pos rfl), resourceVersion (s.store.versions + 1), ?_⟩
  have hu' : (patched live status).blankAt uidPath = false := by
    rw [(PackageRegistry.agreeOff_patched live status).blankAt (by decide), hu]
  rw [← withIdentity_of_uid hu']
  exact Store.write_of_not_service s.store ⟨.registry, n, m⟩ (patched live status)

theorem holds_of_statusPatch {n m : String} {status : RegistryStatus} {j j' : Json}
    {r : PackageRegistry} {s s' : Server} (hr : s.Holds n m j r)
    (hu : j.blankAt uidPath = false) (hg : status.observedGeneration = r.generation)
    (h : s.answer (statusPatch n m status) = (.ok j', s')) :
    Json.AgreeOff [["status"], versionPath] j j' ∧
      ∃ v, s'.Holds n m j' (r.withStatus v status) := by
  obtain ⟨hspace, hname, l, rfl⟩ := PackageRegistry.metadata_of_place hr.reads hr.place
  obtain ⟨hj', v, rfl⟩ := object_of_statusPatch hr.stored hu h
  have hagree : Json.AgreeOff [["status"], versionPath] (.obj l)
      ((patched (.obj l) status).setAt versionPath (.str v)) :=
    ((PackageRegistry.agreeOff_patched (.obj l) status).mono (by simp)).setAt (by simp) _
  refine ⟨hagree, v, hj', ?_, ?_⟩
  · obtain ⟨hn, hm⟩ := Managed.place_eq_ok_iff.1 hr.place
    refine Managed.place_eq_ok_iff.2 ⟨?_, ?_⟩
    · rw [Managed.nameOf, hagree.textAt? (by decide)]
      exact hn
    · rw [Managed.namespaceOf, hagree.textAt? (by decide)]
      exact hm
  · refine PackageRegistry.ofJson_patched hr.reads ?_ v
    rw [hg]
    exact PackageRegistry.readInt_generation hr.reads

end Server

theorem Server.exchange_recordStatus (r : PackageRegistry) (status : RegistryStatus) (s : Server) :
    s.Exchange (fun q => q.kind = .registry ∧ q.verb = "patch") (recordStatus r status s).2 := by
  unfold recordStatus
  split
  · split
    · exact .refl _ s
    · next n _ =>
        unfold patchStatus
        cases Address.statusFault? n r.metadata.anyName with
        | some f => exact .refl _ s
        | none =>
            have h := Exchange.single (P := fun q => q.kind = .registry ∧ q.verb = "patch")
              (r := statusPatch n r.metadata.anyName status) ⟨rfl, rfl⟩ s
            rw [statusPatch] at h
            simp only
            generalize s.answer (.patchStatus .registry n r.metadata.anyName
              (Json.object [("status", status.toJson)])) = q at h ⊢
            obtain ⟨a, s'⟩ := q
            cases a <;> exact h
  · exact .refl _ s

inductive Recording (r : PackageRegistry) (n m : String) (j : Json) (status : RegistryStatus)
    (s : Server) : Except Failure Unit → Server → Prop where
  | skipped (hn : r.isNews status = false) : Recording r n m j status s (.ok ()) s
  | unaddressed (f : ApiFailure) (hn : r.isNews status = true)
      (hf : Address.statusFault? n m = some f) : Recording r n m j status s (.error (.api f)) s
  | refused (e : ErrorStatus) (s' : Server) (hn : r.isNews status = true)
      (hf : Address.statusFault? n m = none)
      (ha : s.answer (statusPatch n m status) = (.error e, s')) :
      Recording r n m j status s (.error (.api (.refused e))) s'
  | written (j' : Json) (v : String) (s' : Server) (hn : r.isNews status = true)
      (hf : Address.statusFault? n m = none)
      (ha : s.answer (statusPatch n m status) = (.ok j', s'))
      (hj : Json.AgreeOff [["status"], versionPath] j j')
      (hr : s'.Holds n m j' (r.withStatus v status)) : Recording r n m j status s (.ok ()) s'

theorem Server.patchStatus_cases {r : PackageRegistry} {n m : String} {j : Json} {s : Server}
    (hr : s.Holds n m j r) (hu : j.blankAt uidPath = false) {status : RegistryStatus}
    (hg : status.observedGeneration = r.generation) :
    (∃ f, Address.statusFault? n m = some f ∧
        s.patchStatus n m status = (.error (.api f), s)) ∨
      (∃ e s', Address.statusFault? n m = none ∧
        s.answer (statusPatch n m status) = (.error e, s') ∧
        s.patchStatus n m status = (.error (.api (.refused e)), s')) ∨
      ∃ j' v s', Address.statusFault? n m = none ∧
        s.answer (statusPatch n m status) = (.ok j', s') ∧
        Json.AgreeOff [["status"], versionPath] j j' ∧ s'.Holds n m j' (r.withStatus v status) ∧
        s.patchStatus n m status = (.ok (), s') := by
  unfold patchStatus
  cases hf : Address.statusFault? n m with
  | some f => exact .inl ⟨f, rfl, rfl⟩
  | none =>
      rcases ha : s.answer (statusPatch n m status) with ⟨a, s'⟩
      have ha' := ha
      rw [statusPatch] at ha'
      simp only [ha']
      cases a with
      | error e => exact .inr (.inl ⟨e, s', trivial, rfl, rfl⟩)
      | ok j' =>
          obtain ⟨hj, v, hr'⟩ := holds_of_statusPatch hr hu hg ha
          have hread : (fun _ => ()) <$> readBack PackageRegistry.ofJson j' = .ok () :=
            map_eq_ok_iff.2 ⟨_, readBack_eq_ok_iff.2 hr'.reads, rfl⟩
          simp only [hread]
          exact .inr (.inr ⟨j', v, s', trivial, rfl, hj, hr', rfl⟩)

theorem recordStatus_of_not_news {r : PackageRegistry} {status : RegistryStatus}
    (h : r.isNews status = false) (s : Server) : recordStatus r status s = (.ok (), s) := by
  rw [recordStatus, h]
  rfl

theorem recordStatus_of_news {r : PackageRegistry} {status : RegistryStatus} {n m : String}
    (h : r.isNews status = true) (hn : r.metadata.namespace = some n)
    (hm : r.metadata.name = some m) (s : Server) :
    recordStatus r status s = s.patchStatus n m status := by
  simp only [recordStatus, h, hn, if_true, Metadata.anyName, hm, Option.some_or,
    Option.getD_some]

theorem recording {r : PackageRegistry} {n m : String} {j : Json} {s : Server}
    (hr : s.Holds n m j r) (hu : j.blankAt uidPath = false) (status : RegistryStatus)
    (hg : status.observedGeneration = r.generation) :
    Recording r n m j status s (recordStatus r status s).1 (recordStatus r status s).2 := by
  cases hn : r.isNews status with
  | false =>
      rw [recordStatus_of_not_news hn]
      exact .skipped hn
  | true =>
      obtain ⟨hspace, hname, -⟩ := PackageRegistry.metadata_of_place hr.reads hr.place
      rw [recordStatus_of_news hn hspace hname]
      rcases Server.patchStatus_cases hr hu hg with ⟨f, hf, h⟩ | ⟨e, s', hf, ha, h⟩ |
        ⟨j', v, s', hf, ha, hj, hr', h⟩
      · rw [h]
        exact .unaddressed f hn hf
      · rw [h]
        exact .refused e s' hn hf ha
      · rw [h]
        exact .written j' v s' hn hf ha hj hr'

end RegistryKeeper
