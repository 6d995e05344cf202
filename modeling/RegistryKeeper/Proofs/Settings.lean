import RegistryKeeper.Proofs.Attempts
import RegistryKeeper.Proofs.LastingOutages
import RegistryKeeper.Proofs.LocalRuns
import RegistryKeeper.Proofs.ReadableObjects

namespace RegistryKeeper

structure Setting where
  blueprint : Blueprint
  packages : List String
  listed : Except Failure (List PackageSource)
  outages : List Outage
  addressing : Addressing

namespace Setting

def sources (c : Setting) : List SourceRef :=
  match c.listed with
  | .ok listing => Resolution.resolve (Catalog.ofListing listing).read c.packages
  | .error _ => []

def desired (c : Setting) : ManagedKind → Json :=
  c.blueprint.desired (serverCommand c.packages c.sources) c.sources

def getting (c : Setting) (k : ManagedKind) : Request :=
  .get (.managed k) c.blueprint.namespace c.blueprint.name

def creating (c : Setting) (k : ManagedKind) : Request :=
  .create (.managed k) c.blueprint.namespace (c.desired k)

def replacing (c : Setting) (k : ManagedKind) (j : Json) : Request :=
  .replace (.managed k) c.blueprint.namespace c.blueprint.name j

def deleting (c : Setting) (k : ManagedKind) : Request :=
  .delete (.managed k) c.blueprint.namespace c.blueprint.name

def refusal? (c : Setting) (verb : String) (k : ManagedKind) : Option ErrorStatus :=
  Outage.status? c.outages verb (.managed k)

def named (c : Setting) (k : ManagedKind) : Named :=
  ⟨k.name, c.blueprint.namespace, c.blueprint.name⟩

def stored (c : Setting) (s : Server) (k : ManagedKind) : Option Json :=
  s.object (.managed k) c.blueprint.namespace c.blueprint.name

def read (c : Setting) (k : ManagedKind) (v : Option Json) : Except Failure (Option Json) :=
  match (c.getting k).fault? with
  | some f => .error (.api f)
  | none =>
      match c.refusal? "get" k with
      | some e =>
          match e.readFailure? with
          | some f => .error f
          | none => .ok none
      | none =>
          match v with
          | some j => some <$> Server.readBack (Managed.ofJson k) j
          | none => .ok none

def creationFailure? (c : Setting) (k : ManagedKind) (v : Option Json) : Option Failure :=
  match (c.creating k).fault? with
  | some f => some (.api f)
  | none =>
      match c.refusal? "create" k with
      | some e => some (e.failure (c.named k))
      | none => v.map fun _ => .alreadyExists (c.named k)

def replacementFailure? (c : Setting) (k : ManagedKind) (j : Json) : Option Failure :=
  match Managed.place j with
  | .error f => some f
  | .ok _ =>
      match (c.replacing k j).fault? with
      | some f => some (.api f)
      | none => (c.refusal? "replace" k).map fun e => e.failure (c.named k)

def remaining (c : Setting) (k : ManagedKind) (v : Option Json) : Option Json :=
  if (c.deleting k).fault? = none ∧ c.refusal? "delete" k = none then none else v

def Stores (c : Setting) (k : ManagedKind) (j j' : Json) : Prop :=
  ∃ store : Store ResourceKind, store.addressing = c.addressing ∧
    j' = (store.write ⟨.managed k, c.blueprint.namespace, c.blueprint.name⟩
      ((.managed k : ResourceKind) = .managed .service) j).1

structure Governs (c : Setting) (s : Server) : Prop where
  lasting : Outage.Lasting c.outages
  outages : s.outages = c.outages
  addressing : s.store.addressing = c.addressing

def Filed (c : Setting) (s : Server) : Prop :=
  ∀ k j, c.stored s k = some j → (Managed.nameOf j).getD "" = c.blueprint.name

end Setting

namespace Setting
variable {c : Setting} {s s' : Server} {k : ManagedKind}

theorem place_desired (c : Setting) (k : ManagedKind) :
    Managed.place (c.desired k) = .ok (c.blueprint.namespace, c.blueprint.name) :=
  c.blueprint.place_desired _ _ k

theorem name_desired (c : Setting) (k : ManagedKind) :
    (Managed.nameOf (c.desired k)).getD "" = c.blueprint.name :=
  Managed.nameOf_getD_of_place (c.place_desired k)

theorem Governs.of_exchange {P : Request → Prop} (h : c.Governs s) (hx : s.Exchange P s') :
    c.Governs s' := by
  have hlike := hx.alike (h.outages ▸ h.lasting)
  exact ⟨h.lasting, hlike.outages.trans h.outages, hlike.addressing.trans h.addressing⟩

theorem Governs.of_call (h : c.Governs s) (call : Call) : c.Governs (Server.call call s).2 :=
  h.of_exchange (Server.exchange_call call s)

theorem Governs.answer_of_refused (h : c.Governs s) (r : Request) {e : ErrorStatus}
    (hr : Outage.status? c.outages r.verb r.kind = some e) :
    s.answer r = (.error e, { s with log := s.log ++ [r] }) := by
  rw [Server.answer_of_lasting (h.outages ▸ h.lasting), h.outages, hr]

theorem Governs.answer_of_served (h : c.Governs s) (r : Request)
    (hr : Outage.status? c.outages r.verb r.kind = none) :
    s.answer r = Server.serve r { s with log := s.log ++ [r] } := by
  rw [Server.answer_of_lasting (h.outages ▸ h.lasting), h.outages, hr]

theorem Stores.exists_ofJson {j j' : Json} (h : c.Stores k j j') (hj : Managed.Readable k j) :
    ∃ live, Managed.ofJson k j' = .ok live := by
  obtain ⟨store, -, rfl⟩ := h
  refine Store.readable_write store _ ?_ hj
  intro hk
  exact ResourceKind.managed.inj (of_decide_eq_true hk)

theorem call_get (h : c.Governs s) (k : ManagedKind) :
    (Server.call (.get k c.blueprint.namespace c.blueprint.name) s).1 =
        c.read k (c.stored s k) ∧
      (Server.call (.get k c.blueprint.namespace c.blueprint.name) s).2.store = s.store := by
  unfold read getting
  simp only [Server.call]
  cases (Request.get (.managed k) c.blueprint.namespace c.blueprint.name).fault? with
  | some f => exact ⟨rfl, rfl⟩
  | none =>
      simp only
      cases hr : c.refusal? "get" k with
      | some e =>
          rw [h.answer_of_refused (.get ..) hr]
          dsimp only
          cases e.readFailure? <;> exact ⟨rfl, rfl⟩
      | none =>
          rw [h.answer_of_served (.get ..) hr]
          simp only [Server.serve]
          have hobject : s.object (.managed k) c.blueprint.namespace c.blueprint.name =
              c.stored s k := rfl
          simp only [Server.object_logged, hobject]
          cases c.stored s k <;> exact ⟨rfl, rfl⟩

theorem call_create_of_failure (h : c.Governs s) {f : Failure}
    (hf : c.creationFailure? k (c.stored s k) = some f) :
    (Server.call (.create k c.blueprint.namespace (c.desired k)) s).1 = .error f ∧
      (Server.call (.create k c.blueprint.namespace (c.desired k)) s).2.store = s.store := by
  have hname := c.name_desired k
  unfold creationFailure? creating at hf
  simp only [Server.call]
  cases haddress : (Request.create (.managed k) c.blueprint.namespace (c.desired k)).fault? with
  | some g =>
      rw [haddress] at hf
      cases hf
      exact ⟨rfl, rfl⟩
  | none =>
      rw [haddress] at hf
      simp only at hf ⊢
      cases hr : c.refusal? "create" k with
      | some e =>
          rw [hr] at hf
          cases hf
          rw [h.answer_of_refused (.create ..) hr, hname]
          exact ⟨rfl, rfl⟩
      | none =>
          rw [hr] at hf
          obtain ⟨j, hj, rfl⟩ := Option.map_eq_some_iff.1 hf
          rw [h.answer_of_served (.create ..) hr]
          simp only [Server.serve, hname]
          have hobject : s.object (.managed k) c.blueprint.namespace c.blueprint.name = some j := hj
          simp only [Server.object_logged, hobject, and_true]
          rfl

theorem call_create_of_no_failure (h : c.Governs s)
    (hf : c.creationFailure? k (c.stored s k) = none) :
    ∃ j live, c.Stores k (c.desired k) j ∧ Managed.ofJson k j = .ok live ∧
      (Server.call (.create k c.blueprint.namespace (c.desired k)) s).1 = .ok live ∧
      c.stored (Server.call (.create k c.blueprint.namespace (c.desired k)) s).2 k = some j := by
  have hname := c.name_desired k
  unfold creationFailure? creating at hf
  simp only [Server.call]
  cases haddress : (Request.create (.managed k) c.blueprint.namespace (c.desired k)).fault? with
  | some g =>
      rw [haddress] at hf
      cases hf
  | none =>
      rw [haddress] at hf
      simp only at hf ⊢
      cases hr : c.refusal? "create" k with
      | some e =>
          rw [hr] at hf
          cases hf
      | none =>
          rw [hr] at hf
          rw [h.answer_of_served (.create ..) hr]
          have hobject : s.object (.managed k) c.blueprint.namespace c.blueprint.name = none :=
            Option.map_eq_none_iff.1 hf
          have hs : c.Stores k (c.desired k) _ := ⟨s.store, h.addressing, rfl⟩
          obtain ⟨live, hlive⟩ := hs.exists_ofJson (c.blueprint.readable_desired _ _ k)
          refine ⟨_, live, hs, hlive, ?_, ?_⟩
          · simp only [Server.serve, hname, Server.object_logged, hobject]
            exact Server.readBack_eq_ok_iff.2 hlive
          · simp only [Server.serve, hname, Server.object_logged, hobject]
            exact (Server.object_write ..).trans (if_pos rfl)

theorem read_eq_ok_some {v : Option Json} {live : Json} (h : c.read k v = .ok (some live)) :
    (c.getting k).fault? = none ∧ c.refusal? "get" k = none ∧
      ∃ j, v = some j ∧ Managed.ofJson k j = .ok live := by
  unfold read at h
  split at h
  · cases h
  · next hfault =>
      split at h
      · split at h <;> cases h
      · next hget =>
          split at h
          · next j =>
              obtain ⟨a, ha, hlive⟩ := map_eq_ok_iff.1 h
              cases hlive
              exact ⟨hfault, hget, j, rfl, Server.readBack_eq_ok_iff.1 ha⟩
          · cases h

theorem Filed.name_of_read (h : c.Filed s) {live : Json}
    (hl : c.read k (c.stored s k) = .ok (some live)) :
    (Managed.nameOf live).getD "" = c.blueprint.name := by
  obtain ⟨-, -, j, hj, hlive⟩ := read_eq_ok_some hl
  rw [← h k j hj, Managed.nameOf, Managed.nameOf,
    Managed.textAt?_metadata_of_ofJson hlive (by decide)]

section
variable {live : Json} (hl : c.read k (c.stored s k) = .ok (some live))
include hl

theorem place_of_read (h : c.Filed s) {n m : String}
    (hp : Managed.place (Managed.amend k live (c.desired k)) = .ok (n, m)) :
    m = c.blueprint.name := by
  rw [← h.name_of_read hl, ← Managed.nameOf_amend k live (c.desired k),
    Managed.nameOf_getD_of_place hp]

theorem call_replace_of_failure (h : c.Governs s) (hfiled : c.Filed s) {f : Failure}
    (hf : c.replacementFailure? k (Managed.amend k live (c.desired k)) = some f) :
    (Server.call (.replace k c.blueprint.namespace (Managed.amend k live (c.desired k))) s).1 =
        .error f ∧
      (Server.call
        (.replace k c.blueprint.namespace (Managed.amend k live (c.desired k))) s).2.store =
          s.store := by
  unfold replacementFailure? replacing at hf
  simp only [Server.call]
  cases hp : Managed.place (Managed.amend k live (c.desired k)) with
  | error g =>
      rw [hp] at hf
      cases hf
      exact ⟨rfl, rfl⟩
  | ok p =>
      obtain ⟨n, m⟩ := p
      obtain rfl := place_of_read hl hfiled hp
      rw [hp] at hf
      simp only at hf ⊢
      cases haddress : (Request.replace (.managed k) c.blueprint.namespace c.blueprint.name
          (Managed.amend k live (c.desired k))).fault? with
      | some g =>
          rw [haddress] at hf
          cases hf
          exact ⟨rfl, rfl⟩
      | none =>
          rw [haddress] at hf
          obtain ⟨e, hr, rfl⟩ := Option.map_eq_some_iff.1 hf
          simp only
          rw [h.answer_of_refused (.replace ..) hr]
          exact ⟨rfl, rfl⟩

theorem call_replace_of_no_failure (h : c.Governs s) (hfiled : c.Filed s)
    (hf : c.replacementFailure? k (Managed.amend k live (c.desired k)) = none) :
    ∃ j' live', c.Stores k (Managed.amend k live (c.desired k)) j' ∧
      Managed.ofJson k j' = .ok live' ∧
      (Server.call (.replace k c.blueprint.namespace (Managed.amend k live (c.desired k))) s).1 =
        .ok live' ∧
      c.stored (Server.call
        (.replace k c.blueprint.namespace (Managed.amend k live (c.desired k))) s).2 k =
          some j' := by
  obtain ⟨-, -, j, hj, hlive⟩ := read_eq_ok_some hl
  unfold replacementFailure? replacing at hf
  simp only [Server.call]
  cases hp : Managed.place (Managed.amend k live (c.desired k)) with
  | error g =>
      rw [hp] at hf
      cases hf
  | ok p =>
      obtain ⟨n, m⟩ := p
      obtain rfl := place_of_read hl hfiled hp
      rw [hp] at hf
      simp only at hf ⊢
      cases haddress : (Request.replace (.managed k) c.blueprint.namespace c.blueprint.name
          (Managed.amend k live (c.desired k))).fault? with
      | some g =>
          rw [haddress] at hf
          cases hf
      | none =>
          rw [haddress] at hf
          have hr : c.refusal? "replace" k = none := Option.map_eq_none_iff.1 hf
          simp only
          rw [h.answer_of_served (.replace ..) hr]
          have hobject : s.object (.managed k) c.blueprint.namespace c.blueprint.name = some j := hj
          have hversion : Managed.versionOf (Managed.amend k live (c.desired k)) =
              Managed.versionOf j := by
            rw [Managed.versionOf_amend, Managed.versionOf, Managed.versionOf,
              Managed.textAt?_metadata_of_ofJson hlive (by decide)]
          have hfresh : Server.isStale (Managed.amend k live (c.desired k)) j = false := by
            unfold Server.isStale
            rw [hversion]
            cases Managed.versionOf j <;> simp
          have hs : c.Stores k (Managed.amend k live (c.desired k)) _ := ⟨s.store, h.addressing, rfl⟩
          obtain ⟨live', hlive'⟩ := hs.exists_ofJson (Managed.readable_of_ofJson hlive).amend
          refine ⟨_, live', hs, hlive', ?_, ?_⟩
          · simp only [Server.serve, Server.object_logged, hobject, hfresh, Bool.false_eq_true, if_false]
            exact Server.readBack_eq_ok_iff.2 hlive'
          · simp only [Server.serve, Server.object_logged, hobject, hfresh, Bool.false_eq_true, if_false]
            exact (Server.object_write ..).trans (if_pos rfl)

theorem stored_call_delete (h : c.Governs s) :
    c.stored (Server.call (.delete k c.blueprint.namespace c.blueprint.name) s).2 k =
      c.remaining k (c.stored s k) := by
  obtain ⟨-, -, j, hj, -⟩ := read_eq_ok_some hl
  unfold remaining deleting
  simp only [Server.call]
  cases (Request.delete (.managed k) c.blueprint.namespace c.blueprint.name).fault? with
  | some f => simp
  | none =>
      simp only [true_and]
      cases hr : c.refusal? "delete" k with
      | some e =>
          rw [h.answer_of_refused (.delete ..) hr]
          simp only [reduceCtorEq, if_false]
          rfl
      | none =>
          rw [h.answer_of_served (.delete ..) hr]
          have hobject : s.object (.managed k) c.blueprint.namespace c.blueprint.name = some j := hj
          simp only [Server.serve, Server.object_logged, hobject, if_true]
          exact (Store.get?_erase ..).trans (if_pos rfl)

end

inductive Making (c : Setting) (k : ManagedKind) (v : Option Json) :
    Except Failure Json → Option Json → Prop where
  | refused (f : Failure) (hc : c.creationFailure? k v = some f) (hf : f.isAlreadyExists = false) :
      Making c k v (.error f) v
  | outrun (f : Failure) (hc : c.creationFailure? k v = some f) (hf : f.isAlreadyExists = true)
      (hd : k.drift ≠ .renew) : Making c k v (.ok (c.desired k)) v
  | reread (f : Failure) (hc : c.creationFailure? k v = some f) (hf : f.isAlreadyExists = true)
      (hd : k.drift = .renew) : Making c k v ((fun o => o.getD (c.desired k)) <$> c.read k v) v
  | made (j live : Json) (hc : c.creationFailure? k v = none) (hs : c.Stores k (c.desired k) j)
      (hr : Managed.ofJson k j = .ok live) : Making c k v (.ok live) (some j)

inductive Settling (c : Setting) (k : ManagedKind) (v : Option Json) :
    Except Failure Json → Option Json → Prop where
  | unread (f : Failure) (hl : c.read k v = .error f) : Settling c k v (.error f) v
  | missing {o : Except Failure Json} {v' : Option Json} (hl : c.read k v = .ok none)
      (hm : c.Making k v o v') : Settling c k v o v'
  | left (live : Json) (hl : c.read k v = .ok (some live)) (hd : k.drift = .leave) :
      Settling c k v (.ok live) v
  | kept (live : Json) (f : Failure) (hl : c.read k v = .ok (some live)) (hd : k.drift = .amend)
      (hf : c.replacementFailure? k (Managed.amend k live (c.desired k)) = some f) :
      Settling c k v (.error f) v
  | amended (live j live' : Json) (hl : c.read k v = .ok (some live)) (hd : k.drift = .amend)
      (hf : c.replacementFailure? k (Managed.amend k live (c.desired k)) = none)
      (hs : c.Stores k (Managed.amend k live (c.desired k)) j)
      (hr : Managed.ofJson k j = .ok live') : Settling c k v (.ok live') (some j)
  | renewed (live : Json) {o : Except Failure Json} {v' : Option Json}
      (hl : c.read k v = .ok (some live)) (hd : k.drift = .renew)
      (hm : c.Making k (c.remaining k v) o v') : Settling c k v o v'

theorem stored_congr (h : s'.store = s.store) (k : ManagedKind) :
    c.stored s' k = c.stored s k := by
  rw [stored, stored, Server.object, Server.object, h]

theorem making_of_run_beaten (h : c.Governs s) {f : Failure}
    (hc : c.creationFailure? k (c.stored s k) = some f) (hf : f.isAlreadyExists = true)
    {o : Except Failure Json}
    (hrun : Program.run Server.call (beaten k c.blueprint.namespace (c.desired k)).run s =
      (o, s')) : c.Making k (c.stored s k) o (c.stored s' k) := by
  have hkeep (hd : k.drift ≠ .renew)
      (hrun : Program.run Server.call (.done (.ok (c.desired k))) s = (o, s')) :
      c.Making k (c.stored s k) o (c.stored s' k) := by
    cases hrun
    exact .outrun f hc hf hd
  cases k with
  | serviceAccount | role | roleBinding | deployment => exact hkeep (by decide) hrun
  | service =>
      have hname := c.name_desired .service
      simp only [beaten, ExceptT.run_mk, ManagedKind.drift] at hrun
      rw [hname, Program.run_call] at hrun
      obtain ⟨hanswer, hstore⟩ := call_get h .service
      have hsame := stored_congr (c := c) hstore .service
      generalize Server.call (.get .service c.blueprint.namespace c.blueprint.name) s = q
        at hrun hanswer hsame
      obtain ⟨a, s₁⟩ := q
      simp only at hanswer hsame
      subst hanswer
      have hmaking := Making.reread f hc hf rfl
      cases hl : c.read .service (c.stored s .service) with
      | error g =>
          rw [hl] at hrun hmaking
          cases hrun
          rw [hsame]
          exact hmaking
      | ok live =>
          rw [hl] at hrun hmaking
          cases hrun
          rw [hsame]
          exact hmaking

theorem making_of_run (h : c.Governs s) {o : Except Failure Json}
    (hrun : Program.run Server.call (make k c.blueprint.namespace (c.desired k)).run s = (o, s')) :
    c.Making k (c.stored s k) o (c.stored s' k) := by
  rw [run_make_eq, Program.run_call] at hrun
  cases hc : c.creationFailure? k (c.stored s k) with
  | none =>
      obtain ⟨j, live, hs, hr, hanswer, hstored⟩ := call_create_of_no_failure h hc
      rw [hanswer] at hrun
      cases hrun
      rw [hstored]
      exact .made j live hc hs hr
  | some f =>
      obtain ⟨hanswer, hstore⟩ := call_create_of_failure h hc
      have h₁ := h.of_call (.create k c.blueprint.namespace (c.desired k))
      have hsame := stored_congr (c := c) hstore k
      generalize Server.call (.create k c.blueprint.namespace (c.desired k)) s = q
        at hrun hanswer h₁ hsame
      obtain ⟨a, s₁⟩ := q
      simp only at hanswer h₁ hsame
      subst hanswer
      simp only at hrun
      cases hf : f.isAlreadyExists with
      | false =>
          rw [hf] at hrun
          cases hrun
          rw [hsame]
          exact .refused f hc hf
      | true =>
          rw [hf, if_pos rfl] at hrun
          rw [← hsame] at hc ⊢
          exact making_of_run_beaten h₁ hc hf hrun

theorem settling_of_run_replace (h : c.Governs s) (hfiled : c.Filed s) {live : Json}
    (hl : c.read k (c.stored s k) = .ok (some live)) (hd : k.drift = .amend)
    {o : Except Failure Json}
    (hrun : Program.run Server.call (Pass.replace k c.blueprint.namespace
      (Managed.amend k live (c.desired k))).run s = (o, s')) :
    c.Settling k (c.stored s k) o (c.stored s' k) := by
  simp only [Pass.replace, ExceptT.run_mk, Program.run_call] at hrun
  obtain ⟨ho, rfl⟩ := Prod.mk.inj hrun
  cases hf : c.replacementFailure? k (Managed.amend k live (c.desired k)) with
  | some f =>
      obtain ⟨hanswer, hstore⟩ := call_replace_of_failure hl h hfiled hf
      rw [hanswer] at ho
      cases ho
      rw [stored_congr hstore]
      exact .kept live f hl hd hf
  | none =>
      obtain ⟨j, live', hs, hr, hanswer, hstored⟩ := call_replace_of_no_failure hl h hfiled hf
      rw [hanswer] at ho
      cases ho
      rw [hstored]
      exact .amended live j live' hl hd hf hs hr

theorem settling_of_run (h : c.Governs s) (hfiled : c.Filed s) {o : Except Failure Json}
    (hrun : Program.run Server.call (converge k (c.desired k)).run s = (o, s')) :
    c.Settling k (c.stored s k) o (c.stored s' k) := by
  rw [run_converge_of_place k (c.place_desired k), Program.run_call] at hrun
  obtain ⟨hanswer, hstore⟩ := call_get h k
  have h₁ := h.of_call (.get k c.blueprint.namespace c.blueprint.name)
  have hsame (k : ManagedKind) := stored_congr (c := c) hstore k
  generalize Server.call (.get k c.blueprint.namespace c.blueprint.name) s = q
    at hrun hanswer h₁ hsame
  obtain ⟨a, s₁⟩ := q
  simp only at hanswer h₁ hsame
  subst hanswer
  have hfiled₁ : c.Filed s₁ := by
    intro k j hj
    rw [hsame] at hj
    exact hfiled k j hj
  cases hl : c.read k (c.stored s k) with
  | error f =>
      rw [hl] at hrun
      cases hrun
      rw [hsame]
      exact .unread f hl
  | ok live =>
      rw [hl] at hrun
      cases live with
      | none =>
          have hm := making_of_run h₁ hrun
          rw [hsame] at hm
          exact .missing hl hm
      | some live =>
          simp only at hrun
          cases hd : k.drift with
          | leave =>
              rw [hd] at hrun
              cases hrun
              rw [hsame]
              exact .left live hl hd
          | amend =>
              rw [hd] at hrun
              rw [← hsame] at hl ⊢
              exact settling_of_run_replace h₁ hfiled₁ hl hd hrun
          | renew =>
              rw [hd] at hrun
              simp only [renew, ExceptT.run_mk, Program.run_call] at hrun
              rw [← hsame] at hl ⊢
              have hremaining := stored_call_delete hl h₁
              have hm := making_of_run (h₁.of_call _) hrun
              rw [hremaining] at hm
              exact .renewed live hl hd hm

end Setting

end RegistryKeeper
