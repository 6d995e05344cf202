import RegistryKeeper.Proofs.Grants
import RegistryKeeper.Proofs.PackageIds

namespace RegistryKeeper

namespace Text

def pieces (separator : Char) (s : String) : List String :=
  (s.toList.splitOn separator).map String.ofList

theorem pieces_intercalate {separator : Char} {s : String} (hs : s.toList = [separator])
    {l : List String} (h : ∀ t ∈ l, separator ∉ t.toList) (hl : l ≠ []) :
    pieces separator (s.intercalate l) = l := by
  have hpieces : ([separator].intercalate (l.map String.toList)).splitOn separator =
      l.map String.toList := by
    refine List.splitOn_intercalate separator ?_ (by simpa using hl)
    intro cs hcs
    obtain ⟨t, ht, rfl⟩ := List.mem_map.1 hcs
    exact h t ht
  rw [pieces, String.toList_intercalate, hs, hpieces, List.map_map]
  exact List.map_id'' (fun _ => String.ofList_toList) l

end Text

theorem RegistrySpec.of_defects_eq_nil {s : RegistrySpec} (h : s.defects = []) :
    1 ≤ s.packages.length ∧ s.packages.length ≤ 256 ∧
      ∀ id ∈ s.packages, id ≠ "" ∧ ',' ∉ id.toList := by
  obtain ⟨⟨hone, hbound⟩, hids⟩ := RegistrySpec.defects_eq_nil_iff.1 h
  exact ⟨hone, hbound, fun id hid => ⟨(hids id hid).ne_empty, (hids id hid).notMem_comma⟩⟩

theorem pieces_packages {s : RegistrySpec} (h : s.defects = []) :
    Text.pieces ',' (",".intercalate s.packages) = s.packages := by
  obtain ⟨hone, -, hids⟩ := RegistrySpec.of_defects_eq_nil h
  exact Text.pieces_intercalate rfl (fun id hid => (hids id hid).2) (List.ne_nil_of_length_pos hone)

structure SourceRef.Plain (s : SourceRef) : Prop where
  namespace_comma : ',' ∉ s.namespace.toList
  namespace_slash : '/' ∉ s.namespace.toList
  name_comma : ',' ∉ s.name.toList
  name_slash : '/' ∉ s.name.toList

theorem SourceRef.Plain.comma {s : SourceRef} (h : s.Plain) : ',' ∉ s.text.toList := by
  simp [SourceRef.text, h.namespace_comma, h.name_comma]

theorem SourceRef.Plain.pieces {s : SourceRef} (h : s.Plain) :
    Text.pieces '/' s.text = [s.namespace, s.name] := by
  have htext : s.text = "/".intercalate [s.namespace, s.name] := by
    rw [← String.toList_inj, String.toList_intercalate]
    simp [SourceRef.text]
  rw [htext]
  refine Text.pieces_intercalate rfl ?_ (List.cons_ne_nil _ _)
  intro t ht
  rcases List.mem_cons.1 ht with rfl | ht
  · exact h.namespace_slash
  · rw [List.mem_singleton.1 ht]
    exact h.name_slash

def sourcesIn (s : String) : List (List String) :=
  if s = "" then [] else (Text.pieces ',' s).map (Text.pieces '/')

theorem SourceRef.text_ne_empty (s : SourceRef) : s.text ≠ "" := by
  intro h
  have htoList := congrArg String.toList h
  simp [text] at htoList

theorem sourcesIn_text {sources : List SourceRef} (h : ∀ s ∈ sources, s.Plain) :
    sourcesIn (Resolution.text sources) = sources.map fun s => [s.namespace, s.name] := by
  by_cases hs : sources = []
  · subst hs
    rfl
  have hcomma : ∀ t ∈ sources.map SourceRef.text, ',' ∉ t.toList := by
    intro t ht
    obtain ⟨s, hmem, rfl⟩ := List.mem_map.1 ht
    exact (h s hmem).comma
  have hpieces : Text.pieces ',' (Resolution.text sources) = sources.map SourceRef.text :=
    Text.pieces_intercalate rfl hcomma (by simpa using hs)
  have hne : Resolution.text sources ≠ "" := by
    intro hempty
    have hmem : "" ∈ sources.map SourceRef.text := by
      rw [← hpieces, hempty]
      decide
    obtain ⟨s, -, htext⟩ := List.mem_map.1 hmem
    exact s.text_ne_empty htext
  rw [sourcesIn, if_neg hne, hpieces, List.map_map]
  exact List.map_congr_left fun s hmem => (h s hmem).pieces

theorem PolicyRule.resourceNames_forSources (sources : List SourceRef) :
    ((forSources sources).map toJson).flatMap (Json.textsAt · "resourceNames") =
      Resolution.names sources := by
  cases sources with
  | nil => simp [forSources, textsAt_resourceNames, Resolution.names]
  | cons s rest => simp [forSources, textsAt_resourceNames, Resolution.names]

def ownerIn (listing : List PackageSource) (package : String) : Option SourceRef :=
  ((listing.filterMap Catalog.offer).reverse.find? fun o => package ∈ o.2).map (·.1)

def ownersIn (listing : List PackageSource) (packages : List String) : List SourceRef :=
  (packages.filterMap (ownerIn listing)).eraseDups

theorem get?_foldl_give (offers : List (SourceRef × List String)) (p : String) :
    (offers.foldl (fun c o => c.give o.1 o.2) Catalog.empty).owners.get? p =
      (offers.reverse.find? fun o => p ∈ o.2).map (·.1) := by
  rw [← List.foldr_reverse]
  induction offers.reverse with
  | nil => rfl
  | cons o rest ih =>
      rw [List.foldr_cons, Catalog.get?_give, List.find?_cons]
      by_cases hp : p ∈ o.2
      · simp [hp]
      · simp [hp, ih]

theorem toOption_read_ofListing (listing : List PackageSource) (p : String) :
    ((Catalog.ofListing listing).read p).toOption = ownerIn listing p := by
  rw [ownerIn, ← get?_foldl_give, Catalog.read, ← Catalog.ofListing]
  cases (Catalog.ofListing listing).owners.get? p <;> rfl

theorem distinct_eq_eraseDups {α : Type} [DecidableEq α] (seen l : List α) :
    distinct seen l = (l.filter (· ∉ seen)).eraseDups := by
  induction l generalizing seen with
  | nil => rfl
  | cons x l ih =>
      by_cases hx : x ∈ seen
      · simp [distinct, hx, ih]
      · simp only [distinct, if_neg hx, ih]
        rw [List.filter_cons_of_pos (by simpa using hx), List.eraseDups_cons, List.filter_filter]
        congr 3
        funext y
        by_cases hy : y = x <;> simp [hy]

theorem resolve_ofListing (listing : List PackageSource) (packages : List String) :
    Resolution.resolve (Catalog.ofListing listing).read packages =
      ownersIn listing packages := by
  have hanswers : Except.toOption ∘ (Catalog.ofListing listing).read = ownerIn listing :=
    funext fun p => toOption_read_ofListing listing p
  rw [Resolution.resolve, Resolution.ofAnswers, distinct_eq_eraseDups, List.filterMap_map,
    hanswers, ownersIn, List.filter_eq_self.2 (by simp)]

theorem exists_offer_of_mem_ownersIn {listing : List PackageSource} {packages : List String}
    {s : SourceRef} (h : s ∈ ownersIn listing packages) :
    ∃ d ∈ listing, s = ⟨d.metadata.namespace.getD "default", d.metadata.anyName⟩ := by
  rw [ownersIn, List.mem_eraseDups, List.mem_filterMap] at h
  obtain ⟨p, -, howner⟩ := h
  obtain ⟨o, hfound, rfl⟩ := Option.map_eq_some_iff.1 howner
  have hoffered := List.mem_reverse.1 (List.mem_of_find?_eq_some hfound)
  obtain ⟨d, hd, hoffer⟩ := List.mem_filterMap.1 hoffered
  refine ⟨d, hd, ?_⟩
  unfold Catalog.offer at hoffer
  split at hoffer
  · cases hoffer
    rfl
  · cases hoffer

end RegistryKeeper
