import Mathlib.Data.List.Induction
import RegistryKeeper.Proofs.IndexReads
import RegistryKeeper.Server.Client

namespace RegistryKeeper

structure Listing where
  moment : Nat
  sources : List PackageSource
  deriving DecidableEq

inductive Refresh where
  | due (packages : List String)
  | listed (own : Listing) (packages : List String)
  | resolving (own : Listing) (r : Resolving)
  | stopped (f : Failure)
  deriving DecidableEq

/-- A catalog that reconciles share, the server that they list, and the listings that have been put
into the catalog, the last one at the end. -/
structure SharedCatalog (ι : Type) where
  moment : Nat
  server : Server
  catalog : Catalog
  refreshes : ι → Refresh
  syncs : List (ι × Listing)

namespace SharedCatalog

inductive Move (ι : Type) where
  | turn (i : ι)
  | change (f : Server → Server)

variable {ι : Type}

def start (server : Server) (catalog : Catalog) (packages : ι → List String) : SharedCatalog ι :=
  ⟨0, server, catalog, fun i => .due (packages i), []⟩

variable [DecidableEq ι]

def put (s : SharedCatalog ι) (i : ι) (r : Refresh) : ι → Refresh :=
  fun j => if j = i then r else s.refreshes j

def turn (s : SharedCatalog ι) (i : ι) : SharedCatalog ι :=
  match s.refreshes i with
  | .due packages =>
      match s.server.listSources with
      | (.ok sources, server) =>
          { s with server, refreshes := s.put i (.listed ⟨s.moment, sources⟩ packages) }
      | (.error f, server) => { s with server, refreshes := s.put i (.stopped f) }
  | .listed own packages =>
      { s with
        catalog := s.catalog.sync own.sources
        refreshes := s.put i (.resolving own (.start packages))
        syncs := s.syncs ++ [(i, own)] }
  | .resolving own r =>
      { s with refreshes := s.put i (.resolving own (r.look s.catalog.read)) }
  | .stopped _ => s

def step (s : SharedCatalog ι) : Move ι → SharedCatalog ι
  | .turn i => { s.turn i with moment := s.moment + 1 }
  | .change f => { s with moment := s.moment + 1, server := f s.server }

def after (s : SharedCatalog ι) (moves : List (Move ι)) : SharedCatalog ι := moves.foldl step s

theorem after_append (s : SharedCatalog ι) (moves moves' : List (Move ι)) :
    s.after (moves ++ moves') = (s.after moves).after moves' :=
  List.foldl_append ..

theorem after_concat (s : SharedCatalog ι) (moves : List (Move ι)) (m : Move ι) :
    s.after (moves ++ [m]) = (s.after moves).step m :=
  s.after_append moves [m]

theorem moment_after (s : SharedCatalog ι) (moves : List (Move ι)) :
    (s.after moves).moment = s.moment + moves.length := by
  induction moves using List.reverseRecOn with
  | nil => rfl
  | append_singleton moves m ih =>
      rw [after_concat, List.length_append, ← Nat.add_assoc, ← ih]
      cases m <;> rfl

theorem refreshes_turn_self (s : SharedCatalog ι) (i : ι) :
    (s.turn i).refreshes i = match s.refreshes i with
      | .due packages =>
          match s.server.listSources.1 with
          | .ok sources => .listed ⟨s.moment, sources⟩ packages
          | .error f => .stopped f
      | .listed own packages => .resolving own (.start packages)
      | .resolving own r => .resolving own (r.look s.catalog.read)
      | .stopped f => .stopped f := by
  unfold turn
  cases hrefresh : s.refreshes i with
  | due packages =>
      obtain ⟨answer, server⟩ := s.server.listSources
      cases answer <;> exact if_pos rfl
  | listed own packages | resolving own r => exact if_pos rfl
  | stopped f => exact hrefresh

theorem refreshes_turn_of_ne {s : SharedCatalog ι} {i j : ι} (h : j ≠ i) :
    (s.turn i).refreshes j = s.refreshes j := by
  unfold turn
  cases s.refreshes i with
  | due packages =>
      obtain ⟨answer, server⟩ := s.server.listSources
      cases answer <;> exact if_neg h
  | listed own packages | resolving own r => exact if_neg h
  | stopped f => rfl

theorem refreshes_step_of_ne {s : SharedCatalog ι} {m : Move ι} {j : ι} (h : m ≠ .turn j) :
    (s.step m).refreshes j = s.refreshes j := by
  cases m with
  | change f => rfl
  | turn i =>
      apply refreshes_turn_of_ne
      rintro rfl
      exact h rfl

theorem sync_cases (s : SharedCatalog ι) (m : Move ι) :
    ((s.step m).syncs = s.syncs ∧ (s.step m).catalog = s.catalog) ∨
      ∃ i own packages, m = .turn i ∧ s.refreshes i = .listed own packages ∧
        (s.step m).syncs = s.syncs ++ [(i, own)] ∧
        (s.step m).catalog = Catalog.ofListing own.sources := by
  cases m with
  | change f => exact .inl ⟨rfl, rfl⟩
  | turn i =>
      simp only [step, turn]
      cases hrefresh : s.refreshes i with
      | due packages =>
          obtain ⟨answer, server⟩ := s.server.listSources
          cases answer <;> exact .inl ⟨rfl, rfl⟩
      | listed own packages => exact .inr ⟨i, own, packages, rfl, hrefresh, rfl, rfl⟩
      | resolving own r | stopped f => exact .inl ⟨rfl, rfl⟩

theorem syncs_turn_of_listed {s : SharedCatalog ι} {i : ι} {own : Listing}
    {packages : List String} (h : s.refreshes i = .listed own packages) :
    (s.turn i).syncs = s.syncs ++ [(i, own)] := by
  simp only [turn, h]

theorem mem_syncs_step {s : SharedCatalog ι} {e : ι × Listing} (h : e ∈ s.syncs) (m : Move ι) :
    e ∈ (s.step m).syncs := by
  rcases s.sync_cases m with ⟨hsyncs, -⟩ | ⟨i, own, packages, -, -, hsyncs, -⟩
  · rw [hsyncs]
    exact h
  · rw [hsyncs]
    exact List.mem_append_left _ h

def ListedBy (s : SharedCatalog ι) (moves : List (Move ι)) (i : ι) (l : Listing) : Prop :=
  ∃ before after packages, moves = before ++ .turn i :: after ∧ l.moment = before.length ∧
    (s.after before).refreshes i = .due packages ∧
    (s.after before).server.listSources.1 = .ok l.sources

theorem ListedBy.concat {s : SharedCatalog ι} {moves : List (Move ι)} {i : ι} {l : Listing}
    (h : s.ListedBy moves i l) (m : Move ι) : s.ListedBy (moves ++ [m]) i l := by
  obtain ⟨before, after, packages, rfl, hmoment, hdue, hlisted⟩ := h
  exact ⟨before, after ++ [m], packages, by simp, hmoment, hdue, hlisted⟩

structure Tracked (s : SharedCatalog ι) (moves : List (Move ι)) : Prop where
  due : ∀ i packages, (s.after moves).refreshes i = .due packages →
    s.refreshes i = .due packages
  listed : ∀ i own packages, (s.after moves).refreshes i = .listed own packages →
    s.ListedBy moves i own ∧ s.refreshes i = .due packages
  synced : ∀ i l, (i, l) ∈ (s.after moves).syncs →
    s.ListedBy moves i l ∧ ∃ r, (s.after moves).refreshes i = .resolving l r
  resolving : ∀ i own r, (s.after moves).refreshes i = .resolving own r →
    (i, own) ∈ (s.after moves).syncs
  catalog : ∀ i l, (s.after moves).syncs.getLast? = some (i, l) →
    (s.after moves).catalog = Catalog.ofListing l.sources

namespace Tracked
variable {s : SharedCatalog ι} {moves : List (Move ι)}

theorem due_concat (h : s.Tracked moves) (m : Move ι) {i : ι} {packages : List String}
    (hdue : (s.after (moves ++ [m])).refreshes i = .due packages) :
    s.refreshes i = .due packages := by
  rw [after_concat] at hdue
  by_cases hm : m = .turn i
  · subst hm
    rw [step, refreshes_turn_self] at hdue
    split at hdue
    · split at hdue <;> cases hdue
    · cases hdue
    · cases hdue
    · cases hdue
  · rw [refreshes_step_of_ne hm] at hdue
    exact h.due i packages hdue

theorem listed_concat (h : s.Tracked moves) (hstart : s.moment = 0) (m : Move ι) {i : ι}
    {own : Listing} {packages : List String}
    (hlisted : (s.after (moves ++ [m])).refreshes i = .listed own packages) :
    s.ListedBy (moves ++ [m]) i own ∧ s.refreshes i = .due packages := by
  rw [after_concat] at hlisted
  by_cases hm : m = .turn i
  · subst hm
    rw [step, refreshes_turn_self] at hlisted
    split at hlisted
    · next packages' hdue =>
        split at hlisted
        · next sources hsources =>
            cases hlisted
            refine ⟨⟨moves, [], packages, rfl, ?_, hdue, hsources⟩, h.due i packages hdue⟩
            rw [moment_after, hstart, Nat.zero_add]
        · cases hlisted
    · cases hlisted
    · cases hlisted
    · cases hlisted
  · rw [refreshes_step_of_ne hm] at hlisted
    obtain ⟨hby, hdue⟩ := h.listed i own packages hlisted
    exact ⟨hby.concat m, hdue⟩

theorem resolving_step {i : ι} {l : Listing}
    (h : ∃ r, (s.after moves).refreshes i = .resolving l r) (m : Move ι) :
    ∃ r, (s.after (moves ++ [m])).refreshes i = .resolving l r := by
  obtain ⟨r, hr⟩ := h
  rw [after_concat]
  by_cases hm : m = .turn i
  · subst hm
    refine ⟨r.look (s.after moves).catalog.read, ?_⟩
    rw [step, refreshes_turn_self, hr]
  · exact ⟨r, (refreshes_step_of_ne hm).trans hr⟩

theorem synced_concat (h : s.Tracked moves) (m : Move ι) {i : ι} {l : Listing}
    (hmem : (i, l) ∈ (s.after (moves ++ [m])).syncs) :
    s.ListedBy (moves ++ [m]) i l ∧
      ∃ r, (s.after (moves ++ [m])).refreshes i = .resolving l r := by
  have hold : (i, l) ∈ (s.after moves).syncs → s.ListedBy (moves ++ [m]) i l ∧
      ∃ r, (s.after (moves ++ [m])).refreshes i = .resolving l r := by
    intro hmem
    obtain ⟨hlisted, hr⟩ := h.synced i l hmem
    exact ⟨hlisted.concat m, resolving_step hr m⟩
  rw [after_concat] at hmem
  rcases (s.after moves).sync_cases m with ⟨hsyncs, -⟩ | ⟨j, own, packages, rfl, hj, hsyncs, -⟩
  · exact hold (hsyncs ▸ hmem)
  · rw [hsyncs, List.mem_append, List.mem_singleton] at hmem
    rcases hmem with hmem | hnew
    · exact hold hmem
    · cases hnew
      refine ⟨(h.listed i l packages hj).1.concat _, .start packages, ?_⟩
      rw [after_concat, step, refreshes_turn_self, hj]

theorem resolving_concat (h : s.Tracked moves) (m : Move ι) {i : ι} {own : Listing} {r : Resolving}
    (hr : (s.after (moves ++ [m])).refreshes i = .resolving own r) :
    (i, own) ∈ (s.after (moves ++ [m])).syncs := by
  rw [after_concat] at hr ⊢
  by_cases hm : m = .turn i
  · subst hm
    rw [step, refreshes_turn_self] at hr
    split at hr
    · split at hr <;> cases hr
    · next own' packages hlisted =>
        cases hr
        rw [step, syncs_turn_of_listed hlisted]
        exact List.mem_append_right _ (List.mem_singleton_self _)
    · next own' r' hresolving =>
        cases hr
        exact mem_syncs_step (h.resolving i own r' hresolving) _
    · cases hr
  · rw [refreshes_step_of_ne hm] at hr
    exact mem_syncs_step (h.resolving i own r hr) m

theorem catalog_concat (h : s.Tracked moves) (m : Move ι) {i : ι} {l : Listing}
    (hlast : (s.after (moves ++ [m])).syncs.getLast? = some (i, l)) :
    (s.after (moves ++ [m])).catalog = Catalog.ofListing l.sources := by
  rw [after_concat] at hlast ⊢
  rcases (s.after moves).sync_cases m with ⟨hsyncs, hcatalog⟩ | ⟨j, own, -, -, -, hsyncs, hcatalog⟩
  · rw [hsyncs] at hlast
    rw [hcatalog]
    exact h.catalog i l hlast
  · rw [hsyncs, List.getLast?_concat, Option.some.injEq] at hlast
    cases hlast
    exact hcatalog

end Tracked

theorem tracked_start (server : Server) (catalog : Catalog) (packages : ι → List String)
    (moves : List (Move ι)) : (start server catalog packages).Tracked moves := by
  induction moves using List.reverseRecOn with
  | nil =>
      constructor
      case due => exact fun i packages' hdue => hdue
      case listed => exact fun i own packages' hlisted => by cases hlisted
      case synced => exact fun i l hmem => by cases hmem
      case resolving => exact fun i own r hr => by cases hr
      case catalog => exact fun i l hlast => by cases hlast
  | append_singleton moves m ih =>
      constructor
      case due => exact fun i packages' hdue => ih.due_concat m hdue
      case listed => exact fun i own packages' hlisted => ih.listed_concat rfl m hlisted
      case synced => exact fun i l hmem => ih.synced_concat m hmem
      case resolving => exact fun i own r hr => ih.resolving_concat m hr
      case catalog => exact fun i l hlast => ih.catalog_concat m hlast

theorem after_looks (n : Nat) {s : SharedCatalog ι} {i : ι} {own : Listing} {r : Resolving}
    (h : s.refreshes i = .resolving own r) :
    let s' := s.after (List.replicate n (.turn i))
    s'.server = s.server ∧ s'.catalog = s.catalog ∧
      s'.refreshes i =
        .resolving own ((List.replicate n s.catalog.read).foldl Resolving.look r) := by
  induction n generalizing s r with
  | zero => exact ⟨rfl, rfl, h⟩
  | succ n ih =>
      have hstep : s.step (.turn i) = { s with
          moment := s.moment + 1
          refreshes := s.put i (.resolving own (r.look s.catalog.read)) } := by
        simp only [step, turn, h]
      have hnext : (s.step (.turn i)).refreshes i = .resolving own (r.look s.catalog.read) := by
        rw [hstep]
        exact if_pos rfl
      have hrest := ih hnext
      rw [hstep] at hrest
      rw [List.replicate_succ, List.replicate_succ, after, List.foldl_cons, hstep]
      exact hrest

theorem after_turns_alone {s : SharedCatalog ι} {i : ι} {packages : List String}
    {sources : List PackageSource} {server : Server} (h : s.refreshes i = .due packages)
    (hlist : s.server.listSources = (.ok sources, server)) :
    let s' := s.after (List.replicate (packages.length + 2) (.turn i))
    s'.server = server ∧ s'.catalog = s.catalog.sync sources ∧
      s'.refreshes i = .resolving ⟨s.moment, sources⟩
        ⟨[], Resolution.resolve (s.catalog.sync sources).read packages⟩ := by
  let listed := s.step (.turn i)
  let synced := listed.step (.turn i)
  have hlisted : listed = { s with
      moment := s.moment + 1
      server := server
      refreshes := s.put i (.listed ⟨s.moment, sources⟩ packages) } := by
    simp only [listed, step, turn, h, hlist]
  have hdue : listed.refreshes i = .listed ⟨s.moment, sources⟩ packages := by
    rw [hlisted]
    exact if_pos rfl
  have hsynced : synced = { listed with
      moment := listed.moment + 1
      catalog := listed.catalog.sync sources
      refreshes := listed.put i (.resolving ⟨s.moment, sources⟩ (.start packages))
      syncs := listed.syncs ++ [(i, ⟨s.moment, sources⟩)] } := by
    simp only [synced, step, turn, hdue]
  have hresolving : synced.refreshes i = .resolving ⟨s.moment, sources⟩ (.start packages) := by
    rw [hsynced]
    exact if_pos rfl
  have hcatalog : synced.catalog = s.catalog.sync sources := by
    rw [hsynced, hlisted]
  have hserver : synced.server = server := by
    rw [hsynced, hlisted]
  obtain ⟨hserver', hcatalog', hrefresh⟩ := after_looks packages.length hresolving
  have hanswers : Resolving.answers (List.replicate packages.length synced.catalog.read) packages =
      packages.map synced.catalog.read := by
    rw [← List.map_replicate]
    refine Resolving.answers_of_agreeing (fun u hu package _ => ?_) List.length_replicate
    rw [List.eq_of_mem_replicate hu]
  rw [Resolving.foldl_look_start, List.length_replicate, List.drop_length, hanswers] at hrefresh
  exact ⟨hserver'.trans hserver, hcatalog'.trans hcatalog, hcatalog ▸ hrefresh⟩

/-- The catalog was built from this listing, the last one to be put there. The listing of the
reconcile itself is in the catalog or was there before. -/
structure InPlace (s : SharedCatalog ι) (moves : List (Move ι)) (i : ι) (own : Listing)
    (last : ι × Listing) : Prop where
  ownListed : s.ListedBy moves i own
  lastListed : s.ListedBy moves last.1 last.2
  catalog : (s.after moves).catalog = Catalog.ofListing last.2.sources
  synced : ∃ before since, (s.after moves).syncs = before ++ (i, own) :: since ∧
    ((i, own) :: since).getLast? = some last ∧
    (last.2.moment < own.moment → last.1 ≠ i ∧ last ∈ since)

theorem Tracked.inPlace {s : SharedCatalog ι} {moves : List (Move ι)} (h : s.Tracked moves) {i : ι}
    {own : Listing} {r : Resolving} (hr : (s.after moves).refreshes i = .resolving own r) :
    ∃ last, s.InPlace moves i own last := by
  have hown := h.resolving i own r hr
  obtain ⟨before, since, hsyncs⟩ := List.append_of_mem hown
  obtain ⟨⟨j, last⟩, hlast⟩ : ∃ e, ((i, own) :: since).getLast? = some e :=
    Option.isSome_iff_exists.1 (by simp)
  have hsyncsLast : (s.after moves).syncs.getLast? = some (j, last) := by
    rw [hsyncs, List.getLast?_append, hlast]
    rfl
  have hmem := List.mem_of_getLast? hsyncsLast
  refine ⟨(j, last), (h.synced i own hown).1, (h.synced j last hmem).1,
    h.catalog j last hsyncsLast, before, since, hsyncs, hlast, fun hearlier => ?_⟩
  have hne : last ≠ own := by
    rintro rfl
    exact Nat.lt_irrefl _ hearlier
  constructor
  · -- a reconcile puts only one listing into the catalog
    rintro rfl
    obtain ⟨-, r', hr'⟩ := h.synced j last hmem
    rw [hr] at hr'
    cases hr'
    exact hne rfl
  · rcases List.mem_cons.1 (List.mem_of_getLast? hlast) with heq | hsince
    · cases heq
      exact absurd rfl hne
    · exact hsince

/-- In one of these moves the reconcile looked up the package after the first `n`, and was answered
from this listing. -/
def LookedUp (s : SharedCatalog ι) (moves : List (Move ι)) (i : ι) (own : Listing)
    (packages : List String) (n : Nat) (last : ι × Listing) : Prop :=
  ∃ before after r, moves = before ++ .turn i :: after ∧
    (s.after before).refreshes i = .resolving own r ∧
    r.left = packages.drop n ∧ n < packages.length ∧ s.InPlace before i own last ∧
    (s.after (before ++ [.turn i])).refreshes i =
      .resolving own (r.look (Catalog.ofListing last.2.sources).read)

theorem LookedUp.concat {s : SharedCatalog ι} {moves : List (Move ι)} {i : ι} {own : Listing}
    {packages : List String} {n : Nat} {last : ι × Listing}
    (h : s.LookedUp moves i own packages n last) (m : Move ι) :
    s.LookedUp (moves ++ [m]) i own packages n last := by
  obtain ⟨before, after, r, rfl, hlook⟩ := h
  exact ⟨before, after ++ [m], r, by simp, hlook⟩

structure Looks (s : SharedCatalog ι) (moves : List (Move ι)) (i : ι) (own : Listing)
    (packages : List String) (r : Resolving) (used : List (ι × Listing)) : Prop where
  resolving : r = (used.map fun e => (Catalog.ofListing e.2.sources).read).foldl Resolving.look
    (.start packages)
  enough : used.length ≤ packages.length
  lookups : ∀ n last, used[n]? = some last → s.LookedUp moves i own packages n last

namespace Looks
variable {s : SharedCatalog ι} {moves : List (Move ι)} {i : ι} {own : Listing}
  {packages : List String} {r : Resolving} {used : List (ι × Listing)}

theorem start (s : SharedCatalog ι) (moves : List (Move ι)) (i : ι) (own : Listing)
    (packages : List String) : s.Looks moves i own packages (.start packages) [] :=
  ⟨rfl, Nat.zero_le _, by simp⟩

theorem concat (h : s.Looks moves i own packages r used) (m : Move ι) :
    s.Looks (moves ++ [m]) i own packages r used :=
  ⟨h.resolving, h.enough, fun n last hlast => (h.lookups n last hlast).concat m⟩

theorem eq (h : s.Looks moves i own packages r used) :
    r = ⟨packages.drop used.length, Resolution.ofAnswers
      (used.zipWith (fun e package => (Catalog.ofListing e.2.sources).read package) packages)⟩ := by
  rw [h.resolving, Resolving.foldl_look_start, List.length_map, Resolving.answers,
    List.zipWith_map_left]

theorem look (h : s.Looks moves i own packages r used) (ht : s.Tracked moves)
    (hr : (s.after moves).refreshes i = .resolving own r) :
    ∃ used', s.Looks (moves ++ [.turn i]) i own packages (r.look (s.after moves).catalog.read)
      used' := by
  have hleft : r.left = packages.drop used.length := congrArg Resolving.left h.eq
  by_cases hdone : packages.length ≤ used.length
  · refine ⟨used, ?_⟩
    have hnone : r.left = [] := hleft.trans (List.drop_eq_nil_of_le hdone)
    have hkeep : r.look (s.after moves).catalog.read = r := by
      simp only [Resolving.look, hnone]
    rw [hkeep]
    exact h.concat _
  · obtain ⟨last, hlast⟩ := ht.inPlace hr
    refine ⟨used ++ [last], ?_, ?_, ?_⟩
    · rw [List.map_append, List.foldl_append, ← h.resolving, hlast.catalog]
      rfl
    · rw [List.length_append, List.length_singleton]
      omega
    · intro n e he
      rcases Nat.lt_or_ge n used.length with hn | hn
      · rw [List.getElem?_append_left hn] at he
        exact (h.lookups n e he).concat _
      · rw [List.getElem?_append_right hn, List.getElem?_singleton] at he
        split at he
        · next hzero =>
            cases he
            obtain rfl : n = used.length := by omega
            refine ⟨moves, [], r, rfl, hr, hleft, by omega, hlast, ?_⟩
            rw [after_concat, step, refreshes_turn_self, hr, hlast.catalog]
        · cases he

end Looks

theorem exists_looks (server : Server) (catalog : Catalog) (packages : ι → List String)
    (moves : List (Move ι)) {i : ι} {own : Listing} {r : Resolving}
    (h : ((start server catalog packages).after moves).refreshes i = .resolving own r) :
    ∃ used, (start server catalog packages).Looks moves i own (packages i) r used := by
  induction moves using List.reverseRecOn generalizing r with
  | nil => cases h
  | append_singleton moves m ih =>
      have ht := tracked_start server catalog packages moves
      by_cases hm : m = .turn i
      · subst hm
        have hturn := h
        rw [after_concat, step, refreshes_turn_self] at hturn
        split at hturn
        · split at hturn <;> cases hturn
        · next own' packages' hlisted =>
            cases hturn
            cases (ht.listed i own packages' hlisted).2
            exact ⟨[], .start ..⟩
        · next own' r' hr' =>
            cases hturn
            obtain ⟨used, hused⟩ := ih hr'
            exact hused.look ht hr'
        · cases hturn
      · rw [after_concat, refreshes_step_of_ne hm] at h
        obtain ⟨used, hused⟩ := ih h
        exact ⟨used, hused.concat m⟩

/-- How far a reconcile has come in these moves: what it has looked up, each package in the catalog
that was built from one listing, the last one that was put there. -/
structure ResolvedFrom (s : SharedCatalog ι) (moves : List (Move ι)) (i : ι) (own : Listing)
    (packages : List String) (r : Resolving) (used : List (ι × Listing)) : Prop where
  left : r.left = packages.drop used.length
  refs : r.refs = Resolution.ofAnswers
    (used.zipWith (fun e package => (Catalog.ofListing e.2.sources).read package) packages)
  each : used.length + r.left.length = packages.length
  lookups : ∀ n last, used[n]? = some last → s.LookedUp moves i own packages n last
  undisturbed : ∀ before sources,
    moves = before ++ List.replicate (packages.length + 2) (.turn i) →
    (s.after before).refreshes i = .due packages →
    (s.after before).server.listSources.1 = .ok sources →
    own.sources = sources ∧ r.left = [] ∧
      r.refs = Resolution.resolve (Catalog.ofListing sources).read packages

end SharedCatalog

theorem lookups_use_last_synced_listing {ι : Type} [DecidableEq ι] (server : Server)
    (catalog : Catalog) (packages : ι → List String) {moves : List (SharedCatalog.Move ι)} {i : ι}
    {own : Listing} {r : Resolving}
    (h : ((SharedCatalog.start server catalog packages).after moves).refreshes i =
      .resolving own r) :
    ∃ used, (SharedCatalog.start server catalog packages).ResolvedFrom moves i own (packages i) r
      used := by
  obtain ⟨used, hused⟩ := SharedCatalog.exists_looks server catalog packages moves h
  have hleft := congrArg Resolving.left hused.eq
  refine ⟨used, hleft, congrArg Resolving.refs hused.eq, ?_, hused.lookups, ?_⟩
  · have henough := hused.enough
    rw [hleft, List.length_drop]
    omega
  · rintro before sources rfl hdue hlist
    obtain ⟨-, -, halone⟩ := SharedCatalog.after_turns_alone hdue (Prod.ext hlist rfl)
    have happend := SharedCatalog.after_append (SharedCatalog.start server catalog packages) before
      (List.replicate ((packages i).length + 2) (.turn i))
    rw [← happend, h] at halone
    cases halone
    exact ⟨rfl, rfl, rfl⟩

def overtakenSync : List (SharedCatalog.Move Bool) :=
  [.turn false,
    .change (·.insert .source (SourceRef.offering ⟨"marketplace", "upstream"⟩ ["etcd"]).toJson),
    .turn true, .turn true, .turn false]

def storedUpstream : PackageSource :=
  let offered := SourceRef.offering ⟨"marketplace", "upstream"⟩ ["etcd"]
  { offered with metadata :=
      { offered.metadata with resourceVersion := some "1", uid := some "uid-1" } }

theorem lookups_use_overtaken_sync :
    let s₀ := SharedCatalog.start (.empty .drawn) .empty fun _ : Bool => ["etcd"]
    let moves := overtakenSync ++ [.turn true]
    let own : Listing := ⟨2, [storedUpstream]⟩
    (s₀.after moves).refreshes true = .resolving own ⟨[], []⟩ ∧
      (Catalog.ofListing own.sources).read "etcd" = .ok ⟨"marketplace", "upstream"⟩ ∧
      (s₀.after moves).syncs = [(true, own), (false, ⟨0, []⟩)] ∧
      ∃ used, s₀.ResolvedFrom moves true own ["etcd"] ⟨[], []⟩ used := by
  intro s₀ moves own
  have hdone : (s₀.after moves).refreshes true = .resolving own ⟨[], []⟩ := by
    decide +kernel
  exact ⟨hdone, by decide +kernel, by decide +kernel,
    lookups_use_last_synced_listing (.empty .drawn) .empty (fun _ : Bool => ["etcd"]) hdone⟩

theorem lookups_use_older_listing :
    ¬ ∀ (server : Server) (catalog : Catalog) (packages : Bool → List String)
      (moves : List (SharedCatalog.Move Bool)) (i : Bool) (own : Listing) (r : Resolving),
      let s₀ := SharedCatalog.start server catalog packages
      (s₀.after moves).refreshes i = .resolving own r → r.left ≠ [] →
      ∃ j l, s₀.ListedBy moves j l ∧ own.moment ≤ l.moment ∧
        (s₀.after (moves ++ [.turn i])).refreshes i =
          .resolving own (r.look (Catalog.ofListing l.sources).read) := by
  intro h
  let s₀ := SharedCatalog.start (.empty .drawn) .empty fun _ : Bool => ["etcd"]
  let own : Listing := ⟨2, [storedUpstream]⟩
  -- whoever lists from the second move on is answered that the source is there
  have hlisted : ∀ before ∈ overtakenSync.inits, 2 ≤ before.length →
      (s₀.after before).server.listSources.1 = .ok [storedUpstream] := by
    decide +kernel
  obtain ⟨j, l, ⟨before, after, packages, hmoves, hmoment, -, hsources⟩, hlater, hlook⟩ :=
    h (.empty .drawn) .empty (fun _ => ["etcd"]) overtakenSync true own (.start ["etcd"])
      (by decide +kernel) (by decide)
  have hbefore : before ∈ overtakenSync.inits :=
    (List.mem_inits _ _).2 ⟨.turn j :: after, hmoves.symm⟩
  have hsame : l.sources = [storedUpstream] := by
    have hfound := hlisted before hbefore (hmoment ▸ hlater)
    exact Except.ok.inj (hsources.symm.trans hfound)
  have hnone : (s₀.after (overtakenSync ++ [.turn true])).refreshes true =
      .resolving own ⟨[], []⟩ := by
    decide +kernel
  have hsome : (Resolving.start ["etcd"]).look (Catalog.ofListing [storedUpstream]).read ≠
      ⟨[], []⟩ := by
    decide +kernel
  rw [hsame] at hlook
  exact hsome (Refresh.resolving.inj (hlook.symm.trans hnone)).2

end RegistryKeeper
