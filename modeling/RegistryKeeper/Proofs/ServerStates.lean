import RegistryKeeper.Server.Client
import RegistryKeeper.Proofs.StatusPatches

namespace RegistryKeeper

namespace Json

def Ordered (j : Json) : Prop := j.fields.Pairwise fun a b => a.1 < b.1

theorem pairwise_put {l : List (String × Json)} (h : l.Pairwise fun a b => a.1 < b.1)
    (k : String) (v : Json) : (put k v l).Pairwise fun a b => a.1 < b.1 := by
  induction l with
  | nil => exact List.pairwise_singleton _ _
  | cons e l ih =>
      obtain ⟨k', v'⟩ := e
      obtain ⟨hall, hl⟩ := List.pairwise_cons.1 h
      unfold put
      split
      · next hk =>
          subst hk
          exact List.pairwise_cons.2 ⟨hall, hl⟩
      · next hne =>
          split
          · next hlt =>
              refine List.pairwise_cons.2 ⟨?_, h⟩
              intro e he
              rcases List.mem_cons.1 he with rfl | he
              · exact hlt
              · exact String.lt_trans hlt (hall e he)
          · next hge =>
              have hlt : k' < k := by
                rcases Std.lt_trichotomy k k' with h | h | h
                · exact absurd h hge
                · exact absurd h.symm hne
                · exact h
              refine List.pairwise_cons.2 ⟨?_, ih hl⟩
              intro e he
              rcases mem_put he with rfl | he
              · exact hlt
              · exact hall e he

theorem ordered_object (l : List (String × Json)) : (object l).Ordered := by
  suffices h : ∀ acc : List (String × Json), (acc.Pairwise fun a b => a.1 < b.1) →
      (l.foldl (fun l e => put e.1 e.2 l) acc).Pairwise fun a b => a.1 < b.1 from h [] .nil
  induction l with
  | nil =>
      intro acc h
      exact h
  | cons e l ih =>
      intro acc h
      exact ih _ (pairwise_put h e.1 e.2)

theorem pairwise_mergeFields {l : List (String × Json)} (h : l.Pairwise fun a b => a.1 < b.1)
    (patch : List (String × Json)) : (mergeFields l patch).Pairwise fun a b => a.1 < b.1 := by
  induction patch generalizing l with
  | nil => simpa [mergeFields] using h
  | cons e patch ih =>
      obtain ⟨k, p⟩ := e
      cases p with
      | null =>
          rw [mergeFields]
          exact ih (h.filter _)
      | _ =>
          rw [mergeFields]
          · exact ih (pairwise_put h k _)
          · simp

namespace Ordered
variable {j : Json}

theorem setAt (h : j.Ordered) (k : String) (p : List String) (v : Json) :
    (j.setAt (k :: p) v).Ordered := pairwise_put h k _

theorem merge (h : j.Ordered) {p : Json} (hp : p.Ordered) : (j.merge p).Ordered := by
  cases p with
  | obj l =>
      rw [Json.merge]
      exact pairwise_mergeFields h l
  | _ => exact hp

theorem nodup_keys (h : j.Ordered) : (j.fields.map (·.1)).Nodup := by
  rw [List.Nodup, List.pairwise_map]
  refine List.Pairwise.imp ?_ h
  intro a b hlt heq
  exact String.lt_irrefl _ (heq ▸ hlt)

end Ordered

end Json

theorem ordered_withIdentity {j : Json} (h : j.Ordered) (v : Nat) : (withIdentity v j).Ordered := by
  cases hu : j.blankAt uidPath with
  | true =>
      rw [withIdentity_of_no_uid hu]
      exact (h.setAt _ _ _).setAt _ _ _
  | false =>
      rw [withIdentity_of_uid hu]
      exact h.setAt _ _ _

namespace Store
variable {κ : Type}

theorem ordered_addressed (s : Store κ) (isService : Bool) {j : Json} (h : j.Ordered) :
    (s.addressed isService j).1.Ordered := by
  unfold addressed
  split
  · cases s.addressing with
    | drawn => exact h.setAt _ _ _
    | fixed address => exact h.setAt _ _ _
    | absent => exact h
  · exact h

theorem ordered_write [DecidableEq κ] (s : Store κ) (p : Place κ) (isService : Bool) {j : Json}
    (h : j.Ordered) : (s.write p isService j).1.Ordered :=
  ordered_addressed s isService (ordered_withIdentity h _)

end Store

namespace Server

def Sound (K : ResourceKind → Prop) (s : Server) : Prop :=
  s.store.All fun p j => K p.kind → j.Ordered ∧ j.blankAt uidPath = false

inductive Reachable : Server → Prop where
  | empty (addressing : Addressing) : Reachable (.empty addressing)
  | insert {s : Server} (k : ResourceKind) {j : Json} (hj : j.Ordered) :
      Reachable s → Reachable (s.insert k j)
  | adjust {s : Server} (p : Place ResourceKind) {f : Json → Json}
      (hf : ∀ j, j.Ordered ∧ j.blankAt uidPath = false →
        (f j).Ordered ∧ (f j).blankAt uidPath = false) :
      Reachable s → Reachable (s.adjust p f)
  | erase {s : Server} (p : Place ResourceKind) : Reachable s → Reachable (s.erase p)
  | plan {s : Server} (o : Outage) : Reachable s → Reachable (s.plan o)
  | clearOutages {s : Server} : Reachable s → Reachable s.clearOutages
  | answer {s : Server} (r : Request) (hr : ∀ j, r.body? = some j → j.Ordered) :
      Reachable s → Reachable (s.answer r).2

section
variable {K : ResourceKind → Prop} {s : Server}

theorem Sound.write (h : s.Sound K) {k : ResourceKind} (n m : String) {j : Json}
    (hj : K k → j.Ordered) : (s.write k n m j).2.Sound K :=
  Store.All.write h fun hk => ⟨Store.ordered_write _ _ _ (hj hk), Store.uid_write ..⟩

theorem Sound.serve (h : s.Sound K) {r : Request}
    (hr : K r.kind → ∀ j, r.body? = some j → j.Ordered) : (serve r s).2.Sound K := by
  cases r with
  | get k n m =>
      simp only [Server.serve]
      split <;> exact h
  | list k n => exact h
  | watch k n => exact h
  | create k n j =>
      simp only [Server.serve]
      split
      · exact h
      · exact h.write n _ fun hk => hr hk j rfl
  | replace k n m j =>
      simp only [Server.serve]
      split
      · exact h
      · split
        · exact h
        · exact h.write n m fun hk => hr hk j rfl
  | delete k n m =>
      simp only [Server.serve]
      split
      · exact Store.All.erase h _
      · exact h
  | patchStatus k n m patch =>
      simp only [Server.serve]
      split
      · exact h
      · next live hl => exact h.write n m fun hk => (h _ _ hl hk).1.merge (hr hk patch rfl)

theorem Sound.answer (h : s.Sound K) {r : Request}
    (hr : K r.kind → ∀ j, r.body? = some j → j.Ordered) : (s.answer r).2.Sound K := by
  unfold Server.answer
  split
  · exact h
  · refine Sound.serve ?_ hr
    exact h

theorem Sound.adjust (h : s.Sound K) (p : Place ResourceKind) {f : Json → Json}
    (hf : ∀ j, j.Ordered ∧ j.blankAt uidPath = false →
      (f j).Ordered ∧ (f j).blankAt uidPath = false) : (s.adjust p f).Sound K := by
  intro q i hi
  simp only [Server.adjust, Store.adjust] at hi
  split at hi
  · next j hj =>
      simp only [Store.get?, Table.get?_insert] at hi
      split at hi
      · next hp =>
          cases hi
          subst hp
          exact fun hk => hf j (h p j hj hk)
      · exact h q i hi
  · exact h q i hi

theorem Reachable.sound (h : s.Reachable) (K : ResourceKind → Prop) : s.Sound K := by
  induction h with
  | empty addressing => exact .empty _
  | insert k hj _ ih => exact ih.write _ _ fun _ => hj
  | adjust p hf _ ih => exact ih.adjust p hf
  | erase p _ ih => exact Store.All.erase ih p
  | plan o _ ih => exact ih
  | clearOutages _ ih => exact ih
  | answer r hr _ ih => exact ih.answer fun _ => hr

theorem Reachable.uid (h : s.Reachable) {k : ResourceKind} {n m : String} {j : Json}
    (hj : s.object k n m = some j) : j.blankAt uidPath = false :=
  (h.sound (fun _ => True) _ _ hj trivial).2

end

structure Holds (s : Server) (n m : String) (j : Json) (r : PackageRegistry) : Prop where
  stored : s.object .registry n m = some j
  place : Managed.place j = .ok (n, m)
  reads : PackageRegistry.ofJson j = .ok r

theorem Holds.unique {s : Server} {n m : String} {j j' : Json} {r r' : PackageRegistry}
    (h : s.Holds n m j r) (h' : s.Holds n m j' r') : j = j' ∧ r = r' := by
  have hj : j = j' := Option.some.inj (h.stored.symm.trans h'.stored)
  subst hj
  exact ⟨rfl, Except.ok.inj (h.reads.symm.trans h'.reads)⟩

theorem Holds.of_object_eq {s s' : Server} {n m : String} {j : Json} {r : PackageRegistry}
    (h : s.Holds n m j r) (hs : s'.object .registry n m = s.object .registry n m) :
    s'.Holds n m j r := ⟨hs.trans h.stored, h.place, h.reads⟩

end Server

end RegistryKeeper
