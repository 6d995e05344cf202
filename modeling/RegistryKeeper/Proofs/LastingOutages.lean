import RegistryKeeper.Proofs.Exchanges

namespace RegistryKeeper

namespace Outage

def Lasting (os : List Outage) : Prop := ∀ o ∈ os, o.left = none

def status? (os : List Outage) (verb : String) (k : ResourceKind) : Option ErrorStatus :=
  (os.find? fun o => o.verb = verb && o.kind = k).map (·.status)

theorem strike_of_lasting {os : List Outage} (h : Lasting os) (r : Request) :
    strike r os = (status? os r.verb r.kind, os) := by
  induction os with
  | nil => rfl
  | cons o os ih =>
      obtain ⟨hleft, hrest⟩ := List.forall_mem_cons.1 h
      cases hhits : o.hits r with
      | true =>
          have hfind : (o.verb = r.verb && o.kind = r.kind) = true := hhits
          simp [strike, hhits, used, hleft, status?, hfind]
      | false =>
          have hfind : (o.verb = r.verb && o.kind = r.kind) = false := hhits
          simp [strike, hhits, ih hrest, status?, hfind]

end Outage

theorem Table.filter_put {κ ν : Type} [DecidableEq κ] {p : κ → Bool} {k : κ} (h : p k = false)
    (v : ν) (l : List (κ × ν)) :
    (Table.put k v l).filter (fun e => p e.1) = l.filter fun e => p e.1 := by
  induction l with
  | nil => simp [Table.put, h]
  | cons e l ih =>
      obtain ⟨k', v'⟩ := e
      by_cases hk : k' = k
      · subst hk
        simp [Table.put, h]
      · simp only [Table.put, hk, if_false, List.filter_cons, ih]

namespace Store
variable {κ : Type} [DecidableEq κ] {select : Place κ → Bool} {p : Place κ}

theorem listing_write (h : select p = false) (s : Store κ) (isService : Bool) (j : Json) :
    (s.write p isService j).2.listing select = s.listing select := by
  simp only [listing, write, Table.insert, Table.filter_put h]

theorem listing_erase (h : select p = false) (s : Store κ) :
    (s.erase p).listing select = s.listing select := by
  have hkeep (e : Place κ × Json) :
      (select e.1 && decide (e.1 ≠ p)) = select e.1 := by
    by_cases he : e.1 = p
    · simp [he, h]
    · simp [he]
  simp only [listing, erase, Table.erase, Table.filter, List.filter_filter, hkeep]

end Store

namespace Server
variable {s s' : Server}

theorem answer_of_lasting (h : Outage.Lasting s.outages) (r : Request) :
    s.answer r = match Outage.status? s.outages r.verb r.kind with
      | some e => (.error e, { s with log := s.log ++ [r] })
      | none => serve r { s with log := s.log ++ [r] } := by
  unfold answer
  rw [Outage.strike_of_lasting h]
  cases Outage.status? s.outages r.verb r.kind <;> rfl

theorem object_logged (s : Server) (log : List Request) (k : ResourceKind) (n m : String) :
    object { s with log } k n m = s.object k n m := rfl

theorem outages_serve (r : Request) (s : Server) : (serve r s).2.outages = s.outages := by
  cases r <;> simp only [serve] <;> (repeat' split) <;> rfl

theorem addressing_serve (r : Request) (s : Server) :
    (serve r s).2.store.addressing = s.store.addressing := by
  cases r <;> simp only [serve] <;> (repeat' split) <;> rfl

theorem listing_serve {r : Request} {k : ResourceKind} (h : r.kind ≠ k) (s : Server)
    (n : Option String) : (serve r s).2.listing k n = s.listing k n := by
  let select (p : Place ResourceKind) : Bool := p.kind = k && n.all (· = p.namespace)
  have hselect (k' : ResourceKind) (n' m' : String) (hk : k' ≠ k) : select ⟨k', n', m'⟩ = false := by
    simp [select, hk]
  have hwrite (t : Server) (k' : ResourceKind) (n' m' : String) (j : Json) (hk : k' ≠ k) :
      (t.write k' n' m' j).2.listing k n = t.listing k n :=
    congrArg (List.map Prod.snd) (Store.listing_write (hselect k' n' m' hk) t.store _ j)
  cases r with
  | get k' n' m' =>
      simp only [serve]
      split <;> rfl
  | list k' n' => rfl
  | watch k' n' => rfl
  | create k' n' j =>
      simp only [serve]
      split
      · rfl
      · exact hwrite s k' n' _ _ h
  | replace k' n' m' j =>
      simp only [serve]
      split
      · rfl
      · split
        · rfl
        · exact hwrite s k' n' m' _ h
  | delete k' n' m' =>
      simp only [serve]
      split
      · exact congrArg (List.map Prod.snd) (Store.listing_erase (hselect k' n' m' h) s.store)
      · rfl
  | patchStatus k' n' m' patch =>
      simp only [serve]
      split
      · rfl
      · exact hwrite s k' n' m' _ h

theorem listing_answer {r : Request} {k : ResourceKind} (h : r.kind ≠ k) (s : Server)
    (n : Option String) : (s.answer r).2.listing k n = s.listing k n := by
  unfold answer
  split
  · rfl
  · exact listing_serve h _ n

theorem Exchange.listing_eq {P : Request → Prop} {k : ResourceKind} (h : Exchange P s s')
    (hk : ∀ r, P r → r.kind ≠ k) (n : Option String) : s'.listing k n = s.listing k n := by
  obtain ⟨rs, hrs, rfl⟩ := h
  induction rs generalizing s with
  | nil => rfl
  | cons r rs ih =>
      have hr := hk r (hrs r List.mem_cons_self)
      exact (ih fun r' hr' => hrs r' (List.mem_cons_of_mem _ hr')).trans (listing_answer hr s n)

structure Alike (s s' : Server) : Prop where
  outages : s'.outages = s.outages
  addressing : s'.store.addressing = s.store.addressing

theorem Alike.trans {s'' : Server} (h : s.Alike s') (h' : s'.Alike s'') : s.Alike s'' :=
  ⟨h'.outages.trans h.outages, h'.addressing.trans h.addressing⟩

theorem alike_answer (h : Outage.Lasting s.outages) (r : Request) : s.Alike (s.answer r).2 := by
  rw [answer_of_lasting h]
  cases Outage.status? s.outages r.verb r.kind with
  | some e => exact ⟨rfl, rfl⟩
  | none => exact ⟨outages_serve r _, addressing_serve r _⟩

theorem Exchange.alike {P : Request → Prop} (h : Exchange P s s')
    (hs : Outage.Lasting s.outages) : s.Alike s' := by
  obtain ⟨rs, -, rfl⟩ := h
  induction rs generalizing s with
  | nil => exact ⟨rfl, rfl⟩
  | cons r rs ih =>
      have hr := alike_answer hs r
      exact hr.trans (ih (hr.outages ▸ hs))

theorem listSources_congr (hs : Outage.Lasting s.outages) (h : s.Alike s')
    (hl : s'.listing .source none = s.listing .source none) :
    s'.listSources.1 = s.listSources.1 := by
  unfold listSources
  rw [answer_of_lasting hs, answer_of_lasting (h.outages ▸ hs), h.outages]
  cases Outage.status? s.outages (Request.list .source none).verb
      (Request.list .source none).kind with
  | some e => rfl
  | none =>
      have hitems (os : List Outage) (log : List Request) :
          listing ⟨s'.store, os, log⟩ .source none = s.listing .source none := hl
      simp only [serve, hitems]
      rfl

end Server

end RegistryKeeper
