import AmbientStubs.Proofs.Access.Chain
import AmbientStubs.Proofs.Import.Legible
import AmbientStubs.SourceSummary

/-!
What the summary of a source text looks like: its imports and accesses are legible, whatever
the text.
-/

namespace AmbientStubs.SourceSummary

open Text

structure Legible (summary : SourceSummary) : Prop where
  imports : ∀ imported ∈ summary.imports, imported.Legible
  accesses : ∀ access ∈ summary.accesses, access.Legible

theorem not_mem_of_mem_lines {content line : List Char} (membership : line ∈ lines content) :
    '\n' ∉ line := by
  obtain ⟨piece, listed, rfl⟩ := List.mem_map.mp membership
  intro broken
  rw [trim, trimEnd, List.mem_reverse] at broken
  have kept := (List.dropWhile_sublist _).subset broken
  rw [List.mem_reverse] at kept
  exact not_mem_of_mem_pieces listed ((List.dropWhile_sublist _).subset kept)

theorem Legible.addLine {summary : SourceSummary} (legible : summary.Legible)
    (reserved : List String) {line : List Char} (single : '\n' ∉ line) :
    (summary.addLine reserved line).Legible := by
  have imports : ∀ imported ∈ summary.imports ++ Import.ofLine line, imported.Legible := by
    rw [List.forall_mem_append]
    exact ⟨legible.imports, fun imported => Import.legible_of_mem_ofLine single⟩
  unfold SourceSummary.addLine
  split
  · exact legible
  · dsimp only
    split
    · refine ⟨imports, ?_⟩
      rw [addUses, addAccesses, List.forall_mem_append]
      exact ⟨legible.accesses, fun access => Access.legible_of_mem_ofLine⟩
    · exact ⟨imports, legible.accesses⟩

theorem Legible.foldl_addLine {summary : SourceSummary} (legible : summary.Legible)
    (reserved : List String) {lines : List (List Char)} (single : ∀ line ∈ lines, '\n' ∉ line) :
    (lines.foldl (SourceSummary.addLine reserved) summary).Legible := by
  induction lines generalizing summary with
  | nil => exact legible
  | cons line rest inductionHypothesis =>
      rw [List.forall_mem_cons] at single
      exact inductionHypothesis (legible.addLine reserved single.1) single.2

theorem legible_ofText (reserved : List String) (path content : String) :
    (ofText reserved path content).Legible := by
  have empty : SourceSummary.Legible { path := path } := ⟨by simp, by simp⟩
  exact empty.foldl_addLine reserved fun line => not_mem_of_mem_lines

end AmbientStubs.SourceSummary
