import RegistryKeeper.Cluster.Local
import RegistryKeeper.Proofs.Readings
import RegistryKeeper.Proofs.Transcripts

namespace RegistryKeeper

structure Visit (n m : String) (k : ManagedKind) (t : List Exchanged) : Prop where
  about : ∀ e ∈ t, e.call.kind = k ∧ e.call.namespace = n
  verbs : t.map (·.call.verb) ∈ k.drift.rounds
  reads : ∃ live rest, t = ⟨.get k n m, live⟩ :: rest

inductive Visits (n m : String) : List ManagedKind → List Exchanged → Prop where
  | nil : Visits n m [] []
  | cons {k : ManagedKind} {ks : List ManagedKind} {t t' : List Exchanged} :
      Visit n m k t → Visits n m ks t' → Visits n m (k :: ks) (t ++ t')

def StoppedBy (t : List Exchanged) (f : Failure) : Prop :=
  ∃ init last, t = init ++ [last] ∧ (∀ e ∈ init, e.fatal? = none) ∧ last.fatal? = some f

def Untroubled (t : List Exchanged) : Prop := ∀ e ∈ t, e.fatal? = none

def lastReported (desired : Json) (t : List Exchanged) : Json :=
  (t.getLast?.bind Exchanged.object?).getD desired

section
variable {n m : String} {k : ManagedKind} {ks ks' : List ManagedKind} {t t' : List Exchanged}
  {f : Failure}

theorem Untroubled.append (h : Untroubled t) (h' : Untroubled t') : Untroubled (t ++ t') := by
  intro e he
  rcases List.mem_append.1 he with he | he
  · exact h e he
  · exact h' e he

theorem StoppedBy.append (h : Untroubled t) (h' : StoppedBy t' f) : StoppedBy (t ++ t') f := by
  obtain ⟨init, last, rfl, hinit, hlast⟩ := h'
  exact ⟨t ++ init, last, (List.append_assoc ..).symm, h.append hinit, hlast⟩

theorem StoppedBy.eq_last (h : StoppedBy t f) {e : Exchanged} (he : e ∈ t) {f' : Failure}
    (hf : e.fatal? = some f') : f' = f ∧ ∃ before, t = before ++ [e] ∧ Untroubled before := by
  obtain ⟨init, last, rfl, hinit, hlast⟩ := h
  rcases List.mem_append.1 he with he | he
  · rw [hinit e he] at hf
    cases hf
  · rw [List.mem_singleton.1 he] at hf ⊢
    exact ⟨Option.some.inj (hf.symm.trans hlast), init, rfl, hinit⟩

theorem StoppedBy.not_untroubled (h : StoppedBy t f) : ¬ Untroubled t := by
  obtain ⟨init, last, rfl, -, hlast⟩ := h
  intro hnone
  have := hnone last (by simp)
  rw [hlast] at this
  cases this

theorem Visits.single (h : Visit n m k t) : Visits n m [k] t := by
  have := Visits.cons h .nil
  rwa [List.append_nil] at this

theorem Visits.append (h : Visits n m ks t) (h' : Visits n m ks' t') :
    Visits n m (ks ++ ks') (t ++ t') := by
  induction h with
  | nil => exact h'
  | cons hv _ ih =>
      rw [List.cons_append, List.append_assoc]
      exact .cons hv ih

theorem Visits.kind_mem (h : Visits n m ks t) {e : Exchanged} (he : e ∈ t) : e.call.kind ∈ ks := by
  induction h with
  | nil => cases he
  | cons hv _ ih =>
      rcases List.mem_append.1 he with he | he
      · rw [(hv.about e he).1]
        exact List.mem_cons_self
      · exact List.mem_cons_of_mem _ (ih he)

theorem Drift.reads_before_delete {d : Drift} {a b : List Verb} (h : a ++ .delete :: b ∈ d.rounds) :
    d = .renew ∧ ∀ v ∈ a, v = .get := by
  have hmem : Verb.delete ∈ a ++ .delete :: b := by simp
  have hnot {l : List Verb} (hl : Verb.delete ∉ l) : a ++ .delete :: b ≠ l := by
    rintro rfl
    exact hl hmem
  cases d with
  | leave => simp [rounds, hnot] at h
  | amend => simp [rounds, hnot] at h
  | renew =>
      refine ⟨rfl, ?_⟩
      simp only [rounds, List.mem_cons, List.not_mem_nil, or_false] at h
      have hcut {rest : List Verb} (hr : Verb.delete ∉ rest)
          (h : a ++ .delete :: b = .get :: .delete :: rest) : ∀ v ∈ a, v = .get := by
        match a, h with
        | [x], h =>
            intro v hv
            rw [List.mem_singleton.1 hv]
            exact (List.cons.inj h).1
        | _ :: _ :: a, h =>
            have hrest : a ++ .delete :: b = rest := (List.cons.inj (List.cons.inj h).2).2
            exact absurd (hrest ▸ by simp) hr
      rcases h with h | h | h | h | h
      · exact absurd h (hnot (by decide))
      · exact absurd h (hnot (by decide))
      · exact absurd h (hnot (by decide))
      · exact hcut (by decide) h
      · exact hcut (by decide) h

theorem Visit.reads_before_delete (h : Visit n m k t) {before after : List Exchanged}
    {e : Exchanged} (ht : t = before ++ e :: after) (hd : e.call.verb = .delete) :
    k = .service ∧ ∀ w ∈ before, w.call.verb = .get := by
  have hverbs := h.verbs
  rw [ht, List.map_append, List.map_cons, hd] at hverbs
  obtain ⟨hdrift, hget⟩ := Drift.reads_before_delete hverbs
  refine ⟨?_, fun w hw => hget _ (List.mem_map_of_mem hw)⟩
  cases k <;> first | rfl | cases hdrift

theorem Visits.reads_before_delete (h : Visits n m ks t) (hks : ks.Nodup)
    {before after : List Exchanged} {e : Exchanged} (ht : t = before ++ e :: after)
    (hd : e.call.verb = .delete) :
    e.call.kind = .service ∧ ∀ w ∈ before, w.call.kind = .service → w.call.verb = .get := by
  induction h generalizing before with
  | nil => simp at ht
  | @cons k ks t t' hv hrest ih =>
      obtain ⟨hnot, hks⟩ := List.nodup_cons.1 hks
      have hothers (he : e ∈ t') (hservice : e.call.kind = .service) :
          ∀ w ∈ t, w.call.kind ≠ .service := by
        intro w hw hw'
        have hlater : ManagedKind.service ∈ ks := hservice ▸ hrest.kind_mem he
        rw [(hv.about w hw).1] at hw'
        exact hnot (hw' ▸ hlater)
      rcases List.append_eq_append_iff.1 ht with ⟨l, rfl, hl⟩ | ⟨l, rfl, hl⟩
      · obtain ⟨hservice, hget⟩ := ih hks hl
        refine ⟨hservice, ?_⟩
        intro w hw hw'
        rcases List.mem_append.1 hw with hw | hw
        · exact absurd hw' (hothers (by simp [hl]) hservice w hw)
        · exact hget w hw hw'
      · cases l with
        | nil =>
            have ht' : t' = [] ++ e :: after := hl.symm
            obtain ⟨hservice, -⟩ := ih hks ht'
            refine ⟨hservice, fun w hw hw' => ?_⟩
            exact absurd hw' (hothers (by simp [ht']) hservice w (by simpa using hw))
        | cons e' l =>
            obtain ⟨rfl, -⟩ := List.cons.inj hl
            obtain ⟨rfl, hget⟩ := hv.reads_before_delete rfl hd
            exact ⟨(hv.about e (by simp)).1, fun w hw _ => hget w hw⟩

end

section
variable {σ : Type} (answer : (c : Call) → σ → c.Answer × σ) {n m : String}

theorem visit_converge {k : ManagedKind} {desired : Json} (hp : Managed.place desired = .ok (n, m))
    (s : σ) : Visit n m k (Program.transcript answer (converge k desired).run s) := by
  obtain ⟨hround, hreads⟩ := round_converge answer (k := k) hp s
  exact ⟨hround.about, hround.verbs, hreads⟩

theorem visits_convergeEach {desired : ManagedKind → Json}
    (hp : ∀ k, Managed.place (desired k) = .ok (n, m)) (ks : List ManagedKind) (s : σ) :
    match (Program.run answer (convergeEach desired ks).run s).1 with
    | .ok () =>
        Visits n m ks (Program.transcript answer (convergeEach desired ks).run s) ∧
          Untroubled (Program.transcript answer (convergeEach desired ks).run s)
    | .error f =>
        ∃ done, done <+: ks ∧
          Visits n m done (Program.transcript answer (convergeEach desired ks).run s) ∧
          StoppedBy (Program.transcript answer (convergeEach desired ks).run s) f := by
  induction ks generalizing s with
  | nil => exact ⟨.nil, by intro e he; cases he⟩
  | cons k ks ih =>
      have hvisit := visit_converge answer (k := k) (hp k) s
      obtain ⟨hround, -⟩ := round_converge answer (k := k) (hp k) s
      rw [convergeEach, Pass.run_bind, Pass.transcript_bind]
      generalize Program.run answer (converge k (desired k)).run s = done at hround ⊢
      obtain ⟨r, s₁⟩ := done
      cases r with
      | error f =>
          simp only [List.append_nil]
          exact ⟨[k], by simp, .single hvisit, hround.of_error⟩
      | ok j =>
          have hrest := ih s₁
          simp only
          generalize Program.run answer (convergeEach desired ks).run s₁ = done at hrest ⊢
          obtain ⟨r, s₂⟩ := done
          cases r with
          | ok a =>
              exact ⟨.cons hvisit hrest.1, Untroubled.append hround.of_ok.1 hrest.2⟩
          | error f =>
              obtain ⟨done, hprefix, hvisits, hstop⟩ := hrest
              exact ⟨k :: done, List.cons_prefix_cons.2 ⟨rfl, hprefix⟩, .cons hvisit hvisits,
                .append hround.of_ok.1 hstop⟩

theorem visits_establish (b : Blueprint) (packages : List String) (sources : List SourceRef)
    (s : σ) {t : List Exchanged} {r : Except Failure String}
    (ht : t = Program.transcript answer (b.establish packages sources).run s)
    (hr : r = (Program.run answer (b.establish packages sources).run s).1) :
    (∃ f done, r = .error f ∧ done <+: ManagedKind.all ∧ Visits b.namespace b.name done t ∧
      StoppedBy t f) ∨
    (Visits b.namespace b.name ManagedKind.all t ∧ Untroubled t ∧
      r = addressOfService (lastReported b.service t)) := by
  have hp := b.place_desired (serverCommand packages sources) sources
  have hfirst := visits_convergeEach answer hp
    [.serviceAccount, .role, .roleBinding, .deployment] s
  rw [Blueprint.establish_eq, Pass.transcript_bind] at ht
  rw [Blueprint.establish_eq, Pass.run_bind] at hr
  generalize Program.run answer (convergeEach (b.desired (serverCommand packages sources) sources)
    [.serviceAccount, .role, .roleBinding, .deployment]).run s = done at hfirst ht hr
  generalize Program.transcript answer
    (convergeEach (b.desired (serverCommand packages sources) sources)
      [.serviceAccount, .role, .roleBinding, .deployment]).run s = t₁ at hfirst ht
  obtain ⟨r₁, s₁⟩ := done
  cases r₁ with
  | error f =>
      obtain ⟨done, hprefix, hvisits, hstop⟩ := hfirst
      rw [ht, hr, List.append_nil]
      exact .inl ⟨f, done, rfl, hprefix.trans (by decide), hvisits, hstop⟩
  | ok a =>
      obtain ⟨hvisits, hfine⟩ := hfirst
      have hvisit := visit_converge answer (k := .service) (hp .service) s₁
      obtain ⟨hround, -⟩ := round_converge answer (k := .service) (hp .service) s₁
      simp only [Pass.transcript_bind, Pass.run_bind, Blueprint.desired] at ht hr hround hvisit
      generalize Program.run answer (converge .service b.service).run s₁ = done at hround ht hr
      generalize Program.transcript answer (converge .service b.service).run s₁ = t₂
        at hround hvisit ht
      have hall : Visits b.namespace b.name ManagedKind.all (t₁ ++ t₂) := hvisits.append (.single hvisit)
      obtain ⟨r₂, s₂⟩ := done
      cases r₂ with
      | error f =>
          rw [ht, hr, List.append_nil]
          exact .inl ⟨f, ManagedKind.all, rfl, List.prefix_rfl, hall, .append hfine hround.of_error⟩
      | ok service =>
          obtain ⟨hfine', last, hlast, rfl⟩ := hround.of_ok
          have ht' : t = t₁ ++ t₂ := ht.trans (congrArg (t₁ ++ ·) (List.append_nil t₂))
          refine .inr ⟨ht' ▸ hall, ht' ▸ hfine.append hfine', ?_⟩
          rw [hr, lastReported, ht', List.getLast?_append, hlast]
          rfl

end

theorem addressOfService_error {service : Json} {f : Failure}
    (h : addressOfService service = .error f) : ∃ text, f = .reconcileFailed text := by
  unfold addressOfService at h
  split at h
  · exact ⟨_, (Except.error.inj h).symm⟩
  · split at h
    · exact ⟨_, (Except.error.inj h).symm⟩
    · split at h
      · exact ⟨_, (Except.error.inj h).symm⟩
      · cases h

structure FailStop (n m : String) (service : Json) (t : List Exchanged)
    (outcome : Except Failure String) : Prop where
  ordered : ∃ kinds, kinds <+: ManagedKind.all ∧ Visits n m kinds t
  complete : Untroubled t → Visits n m ManagedKind.all t
  ok_iff : ∀ address, outcome = .ok address ↔
    Untroubled t ∧ ReachedAt (lastReported service t) address
  stops : ∀ e ∈ t, ∀ f, e.fatal? = some f →
    outcome = .error f ∧ ∃ before, t = before ++ [e] ∧ Untroubled before
  error_of : ∀ f, outcome = .error f →
    (∃ e ∈ t, e.fatal? = some f) ∨ Untroubled t ∧ ∃ text, f = .reconcileFailed text
  keeps : ∀ before e after, t = before ++ e :: after → e.call.verb = .delete →
    e.call.kind = .service ∧ ∀ w ∈ before, w.call.kind = .service → w.call.verb = .get

theorem FailStop.of_stopped {n m : String} {service : Json} {t : List Exchanged} {f : Failure}
    {kinds : List ManagedKind} (hkinds : kinds <+: ManagedKind.all) (hv : Visits n m kinds t)
    (hs : StoppedBy t f) : FailStop n m service t (.error f) where
  ordered := ⟨kinds, hkinds, hv⟩
  complete h := absurd h hs.not_untroubled
  ok_iff address := ⟨fun h => (nomatch h), fun h => absurd h.1 hs.not_untroubled⟩
  stops e he f' hf := by
    obtain ⟨rfl, hbefore⟩ := hs.eq_last he hf
    exact ⟨rfl, hbefore⟩
  error_of f' hf := by
    cases hf
    obtain ⟨init, last, rfl, -, hlast⟩ := hs
    exact .inl ⟨last, by simp, hlast⟩
  keeps before e after ht hd :=
    hv.reads_before_delete (List.Nodup.sublist hkinds.sublist (by decide)) ht hd

theorem FailStop.of_untroubled {n m : String} {service : Json} {t : List Exchanged}
    (hv : Visits n m ManagedKind.all t) (hu : Untroubled t) :
    FailStop n m service t (addressOfService (lastReported service t)) where
  ordered := ⟨ManagedKind.all, List.prefix_rfl, hv⟩
  complete _ := hv
  ok_iff address := by
    constructor
    · intro h
      exact ⟨hu, reachedAt_of_addressOfService h⟩
    · rintro ⟨-, h⟩
      exact addressOfService_of_reachedAt h
  stops e he f hf := by
    rw [hu e he] at hf
    cases hf
  error_of f hf := .inr ⟨hu, addressOfService_error hf⟩
  keeps before e after ht hd := hv.reads_before_delete (by decide) ht hd

theorem pass_stops_at_first_failure {σ : Type} (answer : (c : Call) → σ → c.Answer × σ) (s : σ)
    (keeper : Keeper) {n m : String} (hname : keeper.registry.metadata.name = some m)
    (hnamespace : keeper.registry.metadata.namespace = some n) (lookup : Lookup) :
    ∃ b, Blueprint.ofRegistry keeper.registry keeper.image = .ok b ∧
      ∃ outcome, FailStop n m b.service ((keeper.pass lookup).transcript answer s) outcome ∧
        (keeper.pass lookup).run answer s =
          ((outcome, ⟨keeper.registry, keeper.image, outcome.toOption⟩),
            ((keeper.pass lookup).transcript answer s).foldl
              (fun s e => (answer e.call s).2) s) := by
  have hb : Blueprint.ofRegistry keeper.registry keeper.image =
      .ok ⟨m, n, keeper.registry.metadata.uid.getD "", keeper.image⟩ := by
    simp only [Blueprint.ofRegistry, hname, hnamespace]
  refine ⟨_, hb, (Program.run answer (establish lookup keeper.registry keeper.image).run s).1, ?_,
    ?_⟩
  · have ht : (keeper.pass lookup).transcript answer s =
        Program.transcript answer (establish lookup keeper.registry keeper.image).run s := by
      rw [Keeper.pass, Program.transcript_bind]
      exact List.append_nil _
    rw [ht, establish, hb]
    rcases visits_establish answer
        ⟨m, n, keeper.registry.metadata.uid.getD "", keeper.image⟩ keeper.registry.spec.packages
        (Resolution.resolve lookup keeper.registry.spec.packages) s rfl rfl with
      ⟨f, kinds, hr, hkinds, hv, hs⟩ | ⟨hv, hu, hr⟩
    · rw [hr]
      exact .of_stopped hkinds hv hs
    · rw [hr]
      exact .of_untroubled hv hu
  · rw [← Program.run_eq_foldl_transcript, Keeper.pass, Program.run_bind]
    rfl

namespace FailStop

def keeper : Keeper :=
  ⟨⟨{ Metadata.empty with name := some "community", «namespace» := some "marketplace" },
    ⟨["etcd"]⟩, none⟩, "registry:1", some "10.96.0.9:50051"⟩

def cluster : LocalCluster := LocalCluster.empty.fail .create .deployment .transport

end FailStop

theorem pass_stops_at_deployment :
    FailStop.keeper.registry.metadata.name = some "community" ∧
      FailStop.keeper.registry.metadata.namespace = some "marketplace" ∧
      ∃ outcome, ((FailStop.keeper.pass Catalog.empty.read).run LocalCluster.answer
          FailStop.cluster).1 = (.error outcome, { FailStop.keeper with address := none }) ∧
        ∃ service, FailStop "marketplace" "community" service
          ((FailStop.keeper.pass Catalog.empty.read).transcript LocalCluster.answer
            FailStop.cluster) (.error outcome) ∧
        ∃ e ∈ (FailStop.keeper.pass Catalog.empty.read).transcript LocalCluster.answer
            FailStop.cluster, e.call.kind = .deployment ∧ e.fatal? = some outcome := by
  obtain ⟨b, -, outcome, hstop, hrun⟩ := pass_stops_at_first_failure LocalCluster.answer
    FailStop.cluster FailStop.keeper rfl rfl Catalog.empty.read
  have houtcome : ((FailStop.keeper.pass Catalog.empty.read).run LocalCluster.answer
      FailStop.cluster).1.1 = .error (Fault.transport.failure
        ⟨"Deployment", "marketplace", "community"⟩) := by
    decide +kernel
  rw [hrun] at houtcome
  simp only at houtcome
  subst houtcome
  refine ⟨rfl, rfl, _, congrArg Prod.fst hrun, b.service, hstop, ?_⟩
  have hlast : ((FailStop.keeper.pass Catalog.empty.read).transcript LocalCluster.answer
      FailStop.cluster).any (fun e => e.call.kind = .deployment ∧
        e.fatal? = some (Fault.transport.failure ⟨"Deployment", "marketplace", "community"⟩)) := by
    decide +kernel
  obtain ⟨e, he, hfatal⟩ := List.any_eq_true.1 hlast
  exact ⟨e, he, by simpa using hfatal⟩

end RegistryKeeper
