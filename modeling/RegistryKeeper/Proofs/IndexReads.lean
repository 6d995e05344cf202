import Mathlib.Data.List.Infix
import RegistryKeeper.Catalog.Resolution

namespace RegistryKeeper

theorem distinct_congr {α : Type} [DecidableEq α] {seen seen' : List α}
    (h : ∀ x, x ∈ seen ↔ x ∈ seen') (l : List α) : distinct seen l = distinct seen' l := by
  induction l generalizing seen seen' with
  | nil => rfl
  | cons y l ih =>
      have hcons : ∀ x, x ∈ y :: seen ↔ x ∈ y :: seen' := by
        intro x
        rw [List.mem_cons, List.mem_cons, h]
      simp only [distinct, h y, ih h, ih hcons]

structure Resolving where
  left : List String
  refs : List SourceRef
  deriving DecidableEq

namespace Resolving

def start (packages : List String) : Resolving := ⟨packages, []⟩

def look (r : Resolving) (lookup : Lookup) : Resolving :=
  match r.left with
  | [] => r
  | package :: left =>
      match lookup package with
      | .ok source => ⟨left, if source ∈ r.refs then r.refs else r.refs ++ [source]⟩
      | .error _ => ⟨left, r.refs⟩

def answers (lookups : List Lookup) (packages : List String) : List (Except Failure SourceRef) :=
  lookups.zipWith (fun lookup package => lookup package) packages

theorem foldl_look (lookups : List Lookup) (r : Resolving) :
    lookups.foldl look r = ⟨r.left.drop lookups.length,
      r.refs ++ distinct r.refs ((answers lookups r.left).filterMap Except.toOption)⟩ := by
  induction lookups generalizing r with
  | nil => simp [answers, distinct]
  | cons lookup lookups ih =>
      obtain ⟨left, refs⟩ := r
      rw [List.foldl_cons, ih]
      cases left with
      | nil => simp [look, answers, distinct]
      | cons package left =>
          cases hlookup : lookup package with
          | error f => simp [look, answers, hlookup, Except.toOption, List.filterMap_cons]
          | ok source =>
              by_cases hseen : source ∈ refs
              · simp [look, answers, hlookup, hseen, Except.toOption, distinct]
              · -- the sources that were found are those that have been seen, in another order
                have hmem : ∀ x, x ∈ refs ++ [source] ↔ x ∈ source :: refs := by
                  intro x
                  rw [List.mem_append, List.mem_singleton, List.mem_cons, or_comm]
                simp [look, answers, hlookup, hseen, Except.toOption, distinct,
                  distinct_congr hmem]

theorem foldl_look_start (lookups : List Lookup) (packages : List String) :
    lookups.foldl look (start packages) =
      ⟨packages.drop lookups.length, Resolution.ofAnswers (answers lookups packages)⟩ :=
  foldl_look lookups (start packages)

end Resolving

inductive Catalog.Change where
  | register (s : SourceRef) (packages : List String)
  | remove (s : SourceRef)
  | sync (listing : List PackageSource)

def Catalog.Change.apply : Catalog.Change → Catalog → Catalog
  | .register s packages, c => c.register s packages
  | .remove s, c => c.remove s
  | .sync listing, c => c.sync listing

inductive IndexEvent where
  | look
  | change (d : Catalog.Change)

namespace Catalog

def afterEvents (c : Catalog) : List IndexEvent → Catalog
  | [] => c
  | .look :: events => c.afterEvents events
  | .change d :: events => (d.apply c).afterEvents events

def lookedAt (c : Catalog) : List IndexEvent → List Catalog
  | [] => []
  | .look :: events => c :: c.lookedAt events
  | .change d :: events => (d.apply c).lookedAt events

theorem lookedAt_append (c : Catalog) (events events' : List IndexEvent) :
    c.lookedAt (events ++ events') =
      c.lookedAt events ++ (c.afterEvents events).lookedAt events' := by
  induction events generalizing c with
  | nil => rfl
  | cons e events ih =>
      cases e with
      | look => exact congrArg (c :: ·) (ih c)
      | change d => exact ih (d.apply c)

theorem lookedAt_of_no_look {events : List IndexEvent} (h : .look ∉ events) (c : Catalog) :
    c.lookedAt events = [] := by
  induction events generalizing c with
  | nil => rfl
  | cons e events ih =>
      obtain ⟨he, hevents⟩ := not_or.1 (mt List.mem_cons.2 h)
      cases e with
      | look => exact absurd rfl he
      | change d => exact ih hevents (d.apply c)

theorem lookedAt_of_looks {events : List IndexEvent} (h : ∀ e ∈ events, e = .look) (c : Catalog) :
    c.lookedAt events = List.replicate events.length c := by
  induction events with
  | nil => rfl
  | cons e events ih =>
      obtain rfl := h e List.mem_cons_self
      exact congrArg (c :: ·) (ih fun e' he' => h e' (List.mem_cons_of_mem _ he'))

theorem mem_lookedAt {c v : Catalog} {events : List IndexEvent} (h : v ∈ c.lookedAt events) :
    ∃ before after, events = before ++ .look :: after ∧ v = c.afterEvents before := by
  induction events generalizing c with
  | nil => cases h
  | cons e events ih =>
      cases e with
      | look =>
          rcases List.mem_cons.1 h with rfl | h
          · exact ⟨[], events, rfl, rfl⟩
          · obtain ⟨before, after, rfl, rfl⟩ := ih h
            exact ⟨.look :: before, after, rfl, rfl⟩
      | change d =>
          obtain ⟨before, after, rfl, rfl⟩ := ih h
          exact ⟨.change d :: before, after, rfl, rfl⟩

end Catalog

namespace Resolving

def among (r : Resolving) (c : Catalog) : List IndexEvent → Resolving
  | [] => r
  | .look :: events => (r.look c.read).among c events
  | .change d :: events => r.among (d.apply c) events

theorem among_eq (r : Resolving) (c : Catalog) (events : List IndexEvent) :
    r.among c events = ((c.lookedAt events).map Catalog.read).foldl look r := by
  induction events generalizing r c with
  | nil => rfl
  | cons e events ih =>
      cases e with
      | look => exact ih (r.look c.read) c
      | change d => exact ih r (d.apply c)

theorem answers_of_agreeing {used : List Catalog} {packages : List String} {v : Catalog}
    (h : ∀ u ∈ used, ∀ package ∈ packages, u.read package = v.read package)
    (hlength : used.length = packages.length) :
    answers (used.map Catalog.read) packages = packages.map v.read := by
  induction packages generalizing used with
  | nil => simp [answers]
  | cons package packages ih =>
      cases used with
      | nil => cases hlength
      | cons u used =>
          have hread := h u List.mem_cons_self package List.mem_cons_self
          have htail := ih (fun u' hu' package' hp' =>
            h u' (List.mem_cons_of_mem _ hu') package' (List.mem_cons_of_mem _ hp'))
            (Nat.succ.inj hlength)
          exact congrArg₂ List.cons hread htail

theorem answers_take (lookups : List Lookup) (packages : List String) :
    answers (lookups.take packages.length) packages = answers lookups packages := by
  induction packages generalizing lookups with
  | nil => simp [answers]
  | cons package packages ih =>
      cases lookups with
      | nil => rfl
      | cons lookup lookups => exact congrArg (lookup package :: ·) (ih lookups)

end Resolving

structure ResolvedAmong (c : Catalog) (packages : List String) (events : List IndexEvent)
    (refs : List SourceRef) (used : List Catalog) : Prop where
  moments : ∀ u ∈ used, ∃ before after, events = before ++ .look :: after ∧
    u = c.afterEvents before
  each : used.length = packages.length
  answered : refs = Resolution.ofAnswers (used.zipWith Catalog.read packages)
  agreeing : ∀ v : Catalog, (∀ u ∈ used, ∀ package ∈ packages, u.read package = v.read package) →
    refs = Resolution.resolve v.read packages
  undisturbed : ∀ before looks after, events = before ++ looks ++ after → .look ∉ before →
    (∀ e ∈ looks, e = .look) → packages.length ≤ looks.length →
    refs = Resolution.resolve (c.afterEvents before).read packages

theorem resolution_reads_whole_catalogs (c : Catalog) (packages : List String)
    {events : List IndexEvent}
    (h : ((Resolving.start packages).among c events).left = []) :
    ResolvedAmong c packages events ((Resolving.start packages).among c events).refs
      ((c.lookedAt events).take packages.length) := by
  have hend := Resolving.among_eq (.start packages) c events
  rw [Resolving.foldl_look_start, ← Resolving.answers_take, ← List.map_take] at hend
  rw [hend] at h ⊢
  have hlength : ((c.lookedAt events).take packages.length).length = packages.length := by
    have hlooks := List.drop_eq_nil_iff.1 h
    rw [List.length_map] at hlooks
    exact List.length_take_of_le hlooks
  have hagreeing : ∀ v : Catalog, (∀ u ∈ (c.lookedAt events).take packages.length,
      ∀ package ∈ packages, u.read package = v.read package) →
      Resolution.ofAnswers (Resolving.answers
        (((c.lookedAt events).take packages.length).map Catalog.read) packages) =
      Resolution.resolve v.read packages := by
    intro v hv
    rw [Resolving.answers_of_agreeing hv hlength]
    rfl
  constructor
  case moments => exact fun u hu => Catalog.mem_lookedAt (List.mem_of_mem_take hu)
  case each => exact hlength
  case answered => rw [Resolving.answers, List.zipWith_map_left]
  case agreeing => exact hagreeing
  case undisturbed =>
    rintro before looks after rfl hbefore hlooks henough
    apply hagreeing
    intro u hu package hpackage
    rw [Catalog.lookedAt_append, Catalog.lookedAt_append, Catalog.lookedAt_of_no_look hbefore,
      Catalog.lookedAt_of_looks hlooks, List.nil_append, List.take_append_of_le_length
        (by rw [List.length_replicate]; exact henough)] at hu
    have hsame := List.eq_of_mem_replicate (List.mem_of_mem_take hu)
    rw [hsame]

def SourceRef.offering (s : SourceRef) (packages : List String) : PackageSource :=
  ⟨{ Metadata.empty with name := some s.name, «namespace» := some s.namespace },
    ⟨"https://quay.io/cnr", "operators"⟩, some ⟨packages, none⟩⟩

theorem resolution_reads_whole_catalogs_around_sync :
    let upstream : SourceRef := ⟨"marketplace", "upstream"⟩
    let community : SourceRef := ⟨"marketplace", "community"⟩
    let c := Catalog.ofListing [upstream.offering ["etcd", "vault"]]
    let events : List IndexEvent :=
      [.look, .change (.sync [community.offering ["etcd", "vault"]]), .look]
    let resolving := (Resolving.start ["etcd", "vault"]).among c events
    resolving.left = [] ∧ resolving.refs = [upstream, community] ∧
      ResolvedAmong c ["etcd", "vault"] events resolving.refs ((c.lookedAt events).take 2) := by
  intro upstream community c events resolving
  have hdone : resolving.left = [] := by decide +kernel
  exact ⟨hdone, by decide +kernel, resolution_reads_whole_catalogs c ["etcd", "vault"] hdone⟩

theorem resolution_mixes_catalogs :
    ¬ ∀ (c : Catalog) (packages : List String) (events : List IndexEvent),
      ((Resolving.start packages).among c events).left = [] →
      ∃ before, before <+: events ∧ ((Resolving.start packages).among c events).refs =
        Resolution.resolve (c.afterEvents before).read packages := by
  intro h
  let upstream : SourceRef := ⟨"marketplace", "upstream"⟩
  let community : SourceRef := ⟨"marketplace", "community"⟩
  let c := Catalog.ofListing [upstream.offering ["etcd", "vault"]]
  let events : List IndexEvent :=
    [.look, .change (.sync [community.offering ["etcd", "vault"]]), .look]
  have hnone : ∀ before ∈ events.inits, ((Resolving.start ["etcd", "vault"]).among c events).refs ≠
      Resolution.resolve (c.afterEvents before).read ["etcd", "vault"] := by
    decide +kernel
  obtain ⟨before, hbefore, hrefs⟩ := h c ["etcd", "vault"] events (by decide +kernel)
  exact hnone before ((List.mem_inits before events).2 hbefore) hrefs

end RegistryKeeper
