import RegistryKeeper.Catalog.Basic

namespace RegistryKeeper

def distinct {α : Type} [DecidableEq α] (seen : List α) : List α → List α
  | [] => []
  | x :: r => if x ∈ seen then distinct seen r else x :: distinct (x :: seen) r

namespace Resolution

def ofAnswers (answers : List (Except Failure SourceRef)) : List SourceRef :=
  distinct [] (answers.filterMap Except.toOption)

def resolve (lookup : Lookup) (packages : List String) : List SourceRef :=
  ofAnswers (packages.map lookup)

def names (sources : List SourceRef) : List String := sources.map (·.name)

def text (sources : List SourceRef) : String := ",".intercalate (sources.map SourceRef.text)

end Resolution

theorem mem_distinct {α : Type} [DecidableEq α] (seen l : List α) (x : α) :
    x ∈ distinct seen l ↔ x ∈ l ∧ x ∉ seen := by
  induction l generalizing seen with
  | nil => simp [distinct]
  | cons y r ih =>
      by_cases hy : y ∈ seen
      · simp only [distinct, hy, if_true, ih, List.mem_cons]
        grind
      · simp only [distinct, hy, if_false, List.mem_cons, ih]
        grind

theorem nodup_distinct {α : Type} [DecidableEq α] (seen l : List α) : (distinct seen l).Nodup := by
  induction l generalizing seen with
  | nil => simp [distinct]
  | cons y r ih =>
      by_cases hy : y ∈ seen
      · simpa [distinct, hy] using ih seen
      · simpa [distinct, hy, mem_distinct] using ih (y :: seen)

end RegistryKeeper
