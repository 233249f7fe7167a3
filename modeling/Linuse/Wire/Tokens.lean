import Mathlib.Data.List.Basic

/-!
# Tokens between separators

A text is cut at each separator, and the empty pieces are dropped. Pieces that end in a separator
each, and have none, are the tokens of the text that they make, the empty ones apart
(`tokens_flatMap`); no token is empty or has a separator.
-/

namespace Wire

variable {α : Type} [BEq α] [LawfulBEq α] {sep : α} {l token : List α} {pieces : List (List α)}

/-- The pieces between separators that are not empty. -/
def tokens (sep : α) (l : List α) : List (List α) :=
  (l.splitOn sep).filter fun token => !token.isEmpty

theorem splitOn_flatMap (h : ∀ piece ∈ pieces, sep ∉ piece) :
    (pieces.flatMap fun piece => piece ++ [sep]).splitOn sep = pieces ++ [[]] := by
  induction pieces with
  | nil => rfl
  | cons piece pieces ih =>
      have hrest := ih fun other hother => h other (List.mem_cons_of_mem piece hother)
      rw [List.flatMap_cons, List.append_assoc, List.singleton_append,
        List.splitOn_append_cons_self, List.splitOn_eq_singleton (h piece List.mem_cons_self),
        hrest]
      rfl

theorem tokens_flatMap (h : ∀ piece ∈ pieces, sep ∉ piece) :
    tokens sep (pieces.flatMap fun piece => piece ++ [sep]) =
      pieces.filter fun piece => !piece.isEmpty := by
  rw [tokens, splitOn_flatMap h, List.filter_append]
  simp

/-- No piece has a separator. -/
theorem sep_notMem_of_mem_splitOn (h : token ∈ l.splitOn sep) : sep ∉ token := by
  induction l generalizing token with
  | nil =>
      rw [List.splitOn_nil, List.mem_singleton] at h
      simp [h]
  | cons a l ih =>
      rw [List.splitOn_cons_eq_if_modifyHead] at h
      split_ifs at h with ha
      · rcases List.mem_cons.1 h with rfl | h
        · exact List.not_mem_nil
        · exact ih h
      · obtain ⟨piece, pieces, hpieces⟩ := List.exists_cons_of_ne_nil (List.splitOn_ne_nil sep l)
        rw [hpieces, List.modifyHead_cons, List.mem_cons] at h
        rcases h with rfl | h
        · have hpiece : sep ∉ piece := ih (by rw [hpieces]; exact List.mem_cons_self)
          rw [List.mem_cons, not_or]
          exact ⟨fun heq => ha (by rw [heq]; exact BEq.rfl), hpiece⟩
        · exact ih (by rw [hpieces]; exact List.mem_cons_of_mem piece h)

/-- No token has a separator or is empty. -/
theorem of_mem_tokens (h : token ∈ tokens sep l) : sep ∉ token ∧ token ≠ [] := by
  obtain ⟨hmem, hne⟩ := List.mem_filter.1 h
  refine ⟨sep_notMem_of_mem_splitOn hmem, ?_⟩
  rintro rfl
  cases hne

end Wire
