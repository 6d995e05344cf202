import RegistryKeeper.Proofs.Attempts
import RegistryKeeper.Proofs.CommandLines
import RegistryKeeper.Proofs.Rereadings
import RegistryKeeper.Proofs.Turns

namespace RegistryKeeper

namespace Server

theorem object_of_mem_listing {s : Server} {k : ResourceKind} {namespace' : Option String}
    {j : Json} (h : j ∈ s.listing k namespace') : ∃ n m, s.object k n m = some j := by
  obtain ⟨⟨⟨k', n, m⟩, i⟩, hmem, rfl⟩ := List.mem_map.1 h
  obtain ⟨hentry, hkind⟩ := List.mem_filter.1 (List.mem_mergeSort.1 hmem)
  obtain rfl : k' = k := by simpa using (Bool.and_eq_true_iff.1 hkind).1
  exact ⟨n, m, Table.get?_of_mem hentry⟩

theorem Exchange.answers_trans {P Q : Request → Prop} {s s₁ s' : Server} (h : s.Exchange P s₁)
    (h' : s₁.Exchange Q s') :
    s.answers (s.sent s') = s.answers (s.sent s₁) ++ s₁.answers (s₁.sent s') := by
  have hsent : s.sent s' = s.sent s₁ ++ s₁.sent s' := by
    rw [sent, h'.log_eq, h.log_eq, List.append_assoc, List.drop_left]
  rw [hsent, answers_append, ← h.eq_afterAll]

theorem mem_answers_listSources {s s₁ : Server} {listing : List PackageSource}
    (h : s.listSources = (.ok listing, s₁)) :
    ∃ j, (.list .source none, .ok j) ∈ s.answers (s.sent s₁) ∧
      readListing PackageSource.ofJson j = .ok listing := by
  have hmem := (Exchange.refl (fun _ => True) s).mem_answers_answer (.list .source none)
  unfold listSources at h
  rcases ha : s.answer (.list .source none) with ⟨a, s'⟩
  rw [ha] at h hmem
  cases a with
  | error e => cases h
  | ok j =>
      obtain ⟨hread, rfl⟩ := Prod.mk.inj h
      exact ⟨j, hmem, readBack_eq_ok_iff.1 hread⟩

theorem stored_of_mem_listing {s s₁ : Server} {listing : List PackageSource}
    (h : s.listSources = (.ok listing, s₁)) {d : PackageSource} (hd : d ∈ listing) :
    ∃ n m j, s.object .source n m = some j ∧ PackageSource.ofJson j = .ok d := by
  unfold listSources at h
  rcases ha : s.answer (.list .source none) with ⟨a, s'⟩
  rw [ha] at h
  cases a with
  | error e => cases h
  | ok j =>
      have hread := readBack_eq_ok_iff.1 (Prod.mk.inj h).1
      obtain ⟨outages, hserve⟩ := serve_of_answer_ok ha
      cases hserve
      have hitems : Json.readEach PackageSource.ofJson (s.listing .source none) = .ok listing := by
        obtain ⟨items, hfield, hlist⟩ := Json.required_eq_ok_iff.1 hread
        have hfield' : (ResourceKind.source.listOf (s.listing .source none)).field? "items" =
            some items := hfield
        rw [ResourceKind.listOf, Json.field?_object] at hfield'
        simp [Table.lookup] at hfield'
        rw [← hfield'] at hlist
        exact hlist
      obtain ⟨i, hi, hsource⟩ := Json.mem_of_readEach hitems hd
      obtain ⟨n, m, hobject⟩ := object_of_mem_listing hi
      exact ⟨n, m, i, hobject, hsource⟩

end Server

namespace Plan

theorem within_chain (p : Plan) (ks : List ManagedKind) (settled : Json) :
    (p.chain ks settled).run.Within fun c => ∃ k, c.Brings k (p.desired k) := by
  induction ks generalizing settled with
  | nil => exact .done _
  | cons k ks ih =>
      rw [chain, ExceptT.run_bind]
      refine Program.Within.bind ?_ fun settled => ?_
      · exact (within_converge_brings k (p.desired k)).mono fun c hc => ⟨k, hc⟩
      · cases settled with
        | ok j => exact ih j
        | error f => exact .done _

def Asks (p : Plan) (q : Request) : Prop :=
  ∃ k, q.kind = .managed k ∧ (k ≠ .service → ∀ j, q.body? = some j → p.Suits k j)

theorem exchange_establish (p : Plan) (s : Server) :
    s.Exchange p.Asks
      (Program.run Server.call (p.program (.fetch .serviceAccount)) s).2 := by
  have hwithin := p.within_chain (.serviceAccount :: ManagedKind.serviceAccount.later) .null
  refine hwithin.exchange (fun c hc t => ?_) s
  obtain ⟨k, hkind, hbody⟩ := hc
  refine (Server.exchange_call c t).mono fun q hq => ⟨k, hkind ▸ hq.1, fun hk j hj => ?_⟩
  rcases hbody j (hq.2 ▸ hj) with rfl | ⟨hdrift, live, rfl⟩
  · exact suits_desired hk
  · exact suits_amend hdrift live

end Plan

def Request.Reports (q : Request) : Prop := q.kind = .registry ∧ q.verb = "patch"

/-- What a reconcile of a registry sends: nothing but reports where the spec has defects, and
otherwise a list of the sources first and then, if there is a plan, what it asks. -/
inductive Sent (r : PackageRegistry) (s s' : Server) : Prop where
  | reports (h : s.Exchange Request.Reports s') : Sent r s s'
  | unplanned (hd : r.spec.defects = [])
      (h : s.Exchange (fun q => q.kind = .source ∨ q.Reports) s') : Sent r s s'
  | planned (hd : r.spec.defects = []) (listing : List PackageSource) (s₁ : Server) (p : Plan)
      (hl : s.listSources = (.ok listing, s₁)) (hp : p.packages = r.spec.packages)
      (hs : p.sources = ownersIn listing r.spec.packages)
      (h : s₁.Exchange (fun q => p.Asks q ∨ q.Reports) s') : Sent r s s'

theorem reports_recordStatus (r : PackageRegistry) (status : RegistryStatus) (s : Server) :
    s.Exchange Request.Reports (recordStatus r status s).2 :=
  Server.exchange_recordStatus r status s

section
variable {r : PackageRegistry} {recorded : Instant}

theorem sent_of_pass (hd : r.spec.defects = []) {s s₁ s₂ : Server} {listing : List PackageSource}
    (hl : s.listSources = (.ok listing, s₁)) {image : String} {o : Except Failure String}
    (hp : Program.run Server.call (establish (Catalog.ofListing listing).read r image).run s₁ =
      (o, s₂)) (status : RegistryStatus) : Sent r s (recordStatus r status s₂).2 := by
  have hreports := reports_recordStatus r status s₂
  cases hb : Blueprint.ofRegistry r image with
  | error f =>
      rw [run_establish_of_no_blueprint hb] at hp
      obtain ⟨-, rfl⟩ := Prod.mk.inj hp
      refine .unplanned hd (Server.Exchange.trans ?_ (hreports.mono fun q hq => .inr hq))
      exact (Server.exchange_listSources hl).mono fun q hq => .inl hq
  | ok b =>
      have hasks := (Plan.of (Catalog.ofListing listing).read r b).exchange_establish s₁
      rw [← run_establish_of_blueprint hb, hp] at hasks
      refine .planned hd listing s₁ (Plan.of (Catalog.ofListing listing).read r b) hl rfl
        (resolve_ofListing listing r.spec.packages) ?_
      exact (hasks.mono fun q hq => .inl hq).trans (hreports.mono fun q hq => .inr hq)

theorem sent_performPass (hd : r.spec.defects = []) (recorded : Instant) (w : World) :
    Sent r w.server (performPass r recorded w).2.server := by
  unfold performPass
  split
  · next f s₁ hl =>
      exact .unplanned hd ((Server.exchange_listSources hl).mono fun q hq => .inl hq)
  · next listing s₁ hl =>
      simp only
      split
      · next address s₂ hp =>
          have h := sent_of_pass hd hl hp
            (r.statusAfter .succeeded (some address) none recorded)
          split <;>
            · next hr =>
                rw [hr] at h
                exact h
      · next f s₂ hp => exact sent_of_pass hd hl hp _

theorem sent_refuseSpec (defects : List Defect) (recorded : Instant) (w : World) :
    Sent r w.server (refuseSpec r defects recorded w).2.server := by
  have h := reports_recordStatus r
    (r.statusAfter .failed none (some (defectSummary defects)) recorded) w.server
  unfold refuseSpec
  simp only
  split <;>
    · next hr =>
        rw [hr] at h
        exact .reports h

theorem sent_reconcile (r : PackageRegistry) (started recorded : Instant) (w : World) :
    Sent r w.server (reconcile r started recorded w).2.server := by
  rw [server_reconcile]
  unfold attend
  split
  · exact .reports (.refl _ _)
  · split
    · exact .reports (.refl _ _)
    · split
      · next hd => exact sent_performPass hd recorded ⟨w.server, w.context.measure .begun⟩
      · exact sent_refuseSpec _ recorded ⟨w.server, w.context.measure .begun⟩

end

/-- The request tells the server to serve these packages from these sources, each source by its
namespace and its name, if it makes the Deployment; and names the sources if it makes the Role. -/
structure Request.Serves (q : Request) (packages : List String) (owners : List SourceRef) :
    Prop where
  deployment : q.kind = .managed .deployment → ∀ body, q.body? = some body →
    ∃ container sources names,
      body.at? ["spec", "template", "spec", "containers"] = some (.arr [container]) ∧
      container.field? "command" =
        some (Json.strings ["appregistry-server", "-s", sources, "-o", names]) ∧
      sourcesIn sources = owners.map (fun s => [s.namespace, s.name]) ∧
      Text.pieces ',' names = packages
  role : q.kind = .managed .role → ∀ body, q.body? = some body →
    (rulesOf body).flatMap (Json.textsAt · "resourceNames") = owners.map (·.name)

theorem Blueprint.command_container (b : Blueprint) (command : List String) :
    (b.container command).field? "command" = some (Json.strings command) := by
  simp [container, Json.field?_object, Table.lookup]

theorem Plan.serves_of_asks {p : Plan} {q : Request} (hq : p.Asks q)
    (hpackages : Text.pieces ',' (",".intercalate p.packages) = p.packages)
    (hplain : ∀ s ∈ p.sources, s.Plain) : q.Serves p.packages p.sources := by
  obtain ⟨k, hkind, hsuits⟩ := hq
  constructor
  · intro hk body hbody
    obtain rfl : k = .deployment := ResourceKind.managed.inj (hkind.symm.trans hk)
    have htemplate := hsuits (by decide) body hbody
    refine ⟨_, _, _, ?_, p.blueprint.command_container _, sourcesIn_text hplain, hpackages⟩
    rw [show ["spec", "template", "spec", "containers"] =
      ["spec", "template"] ++ ["spec", "containers"] from rfl, Json.at?_append, htemplate]
    exact p.blueprint.containers_podTemplate _
  · intro hk body hbody
    obtain rfl : k = .role := ResourceKind.managed.inj (hkind.symm.trans hk)
    have hrules := hsuits (by decide) body hbody
    rw [rulesOf, ← Json.at?_singleton, hrules]
    exact PolicyRule.resourceNames_forSources p.sources

theorem Request.Reports.serves {q : Request} (h : q.Reports) (packages : List String)
    (owners : List SourceRef) : q.Serves packages owners :=
  ⟨fun hk => absurd (h.1.symm.trans hk) (by decide),
    fun hk => absurd (h.1.symm.trans hk) (by decide)⟩

theorem Request.serves_of_source {q : Request} (h : q.kind = .source) (packages : List String)
    (owners : List SourceRef) : q.Serves packages owners :=
  ⟨fun hk => absurd (h.symm.trans hk) (by decide), fun hk => absurd (h.symm.trans hk) (by decide)⟩

theorem commands_decode {w : World}
    (hplain : ∀ n m j d, w.server.object .source n m = some j → PackageSource.ofJson j = .ok d →
      SourceRef.Plain ⟨d.metadata.namespace.getD "default", d.metadata.anyName⟩)
    (r : PackageRegistry) (started recorded : Instant) :
    let packages := r.spec.packages
    let after := (reconcile r started recorded w).2.server
    (r.spec.defects ≠ [] → ∀ q ∈ w.server.sent after, q.Reports) ∧
      ((∀ q ∈ w.server.sent after, q.kind = .source ∨ q.Reports) ∨
        (1 ≤ packages.length ∧ packages.length ≤ 256 ∧ ∀ id ∈ packages, id ≠ "") ∧
          ∃ j listing, (.list .source none, .ok j) ∈ w.server.answers (w.server.sent after) ∧
            Server.readListing PackageSource.ofJson j = .ok listing ∧
            ∀ q ∈ w.server.sent after, q.Serves packages (ownersIn listing packages)) := by
  intro packages after
  have hsent : Sent r w.server after := sent_reconcile r started recorded w
  generalize after = s' at hsent ⊢
  cases hsent with
  | reports h => exact ⟨fun _ _ => h.of_mem_sent, .inl fun q hq => .inr (h.of_mem_sent hq)⟩
  | unplanned hd h => exact ⟨fun hne => absurd hd hne, .inl fun q hq => h.of_mem_sent hq⟩
  | planned hd listing s₁ p hl hp hs h =>
      obtain ⟨j, hmem, hread⟩ := Server.mem_answers_listSources hl
      obtain ⟨hone, hbound, hids⟩ := RegistrySpec.of_defects_eq_nil hd
      have hlisted := Server.exchange_listSources hl
      have howners : ∀ s ∈ p.sources, s.Plain := by
        intro s hmem
        obtain ⟨d, hd, rfl⟩ := exists_offer_of_mem_ownersIn (hs ▸ hmem)
        obtain ⟨n, m, i, hobject, hsource⟩ := Server.stored_of_mem_listing hl hd
        exact hplain n m i d hobject hsource
      refine ⟨fun hne => absurd hd hne, .inr ⟨⟨hone, hbound, fun id hid => (hids id hid).1⟩, j,
        listing, ?_, hread, ?_⟩⟩
      · rw [hlisted.answers_trans h]
        exact List.mem_append_left _ hmem
      · intro q hq
        have hall := (hlisted.mono (Q := fun q => q.kind = .source ∨ p.Asks q ∨ q.Reports)
          fun q hq => .inl hq).trans (h.mono fun q hq => .inr hq)
        rcases hall.of_mem_sent hq with hsource | hasks | hreports
        · exact Request.serves_of_source hsource _ _
        · have hserves := Plan.serves_of_asks hasks (hp.symm ▸ pieces_packages hd) howners
          rwa [hp, hs] at hserves
        · exact hreports.serves _ _

instance (s : SourceRef) : Decidable s.Plain :=
  decidable_of_iff (',' ∉ s.namespace.toList ∧ '/' ∉ s.namespace.toList ∧ ',' ∉ s.name.toList ∧
      '/' ∉ s.name.toList)
    ⟨fun ⟨h₁, h₂, h₃, h₄⟩ => ⟨h₁, h₂, h₃, h₄⟩, fun ⟨h₁, h₂, h₃, h₄⟩ => ⟨h₁, h₂, h₃, h₄⟩⟩

theorem commands_decode_of_repeated_package :
    let source : PackageSource :=
      ⟨{ Metadata.empty with name := some "upstream", «namespace» := some "default" },
        ⟨"https://quay.io/cnr", "operators"⟩, some ⟨["vault", "etcd"], none⟩⟩
    let r : PackageRegistry :=
      ⟨{ Metadata.empty with
          name := some "community", «namespace» := some "marketplace", uid := some "r-1" },
        ⟨["etcd", "consul", "vault", "etcd"]⟩, none⟩
    let w : World := ⟨(Server.empty .drawn).insert .source source.toJson, .new "registry:1" none⟩
    let t : Instant := ⟨63000000000, 0⟩
    let after := (reconcile r t t w).2.server
    (∀ n m j d, w.server.object .source n m = some j → PackageSource.ofJson j = .ok d →
      SourceRef.Plain ⟨d.metadata.namespace.getD "default", d.metadata.anyName⟩) ∧
    (∃ j listing, (.list .source none, .ok j) ∈ w.server.answers (w.server.sent after) ∧
      Server.readListing PackageSource.ofJson j = .ok listing ∧
      ∀ q ∈ w.server.sent after, q.Serves r.spec.packages (ownersIn listing r.spec.packages)) ∧
    (((w.server.sent after).filterMap Request.body?).flatMap fun body =>
        (((body.at? ["spec", "template", "spec", "containers"]).getD .null).items.map
          (Json.textsAt · "command"))) =
      [["appregistry-server", "-s", "default/upstream", "-o", "etcd,consul,vault,etcd"]] := by
  intro source r w t after
  have hplain : ∀ n m j d, w.server.object .source n m = some j → PackageSource.ofJson j = .ok d →
      SourceRef.Plain ⟨d.metadata.namespace.getD "default", d.metadata.anyName⟩ := by
    have hall : ∀ e ∈ w.server.store.objects.entries, ∀ d ∈ (PackageSource.ofJson e.2).toOption,
        SourceRef.Plain ⟨d.metadata.namespace.getD "default", d.metadata.anyName⟩ := by
      decide +kernel
    intro n m j d hj hd
    have hmem : (⟨.source, n, m⟩, j) ∈ w.server.store.objects.entries := Table.mem_of_get? hj
    exact hall _ hmem d (by rw [hd]; rfl)
  have hbodies : ¬ ∀ q ∈ w.server.sent after, q.kind = .source ∨ q.Reports := by
    have hdeployment : ∃ q ∈ w.server.sent after, q.kind = .managed .deployment := by
      decide +kernel
    intro hall
    obtain ⟨q, hq, hkind⟩ := hdeployment
    rcases hall q hq with hsource | hreports
    · cases hkind.symm.trans hsource
    · cases hkind.symm.trans hreports.1
  obtain ⟨-, hnone | ⟨-, hserves⟩⟩ := commands_decode hplain r t t
  · exact absurd hnone hbodies
  · exact ⟨hplain, hserves, by decide +kernel⟩

end RegistryKeeper
