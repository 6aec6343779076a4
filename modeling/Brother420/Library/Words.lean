import Mathlib.Data.List.TakeWhile

/-! # Words of a text

The words of a text are its longest parts without a mark; marks may be repeated, and stand at
the start and at the end.
-/

namespace Words

variable {α : Type} [DecidableEq α] {mark : α} {word rest text : List α}

def words (mark : α) (text : List α) : List (List α) := (text.splitOn mark).filter (!·.isEmpty)

@[simp] theorem words_nil : words mark ([] : List α) = [] := by
  simp [words]

@[simp] theorem words_mark : words mark (mark :: rest) = words mark rest := by
  simp [words, List.splitOn_cons_eq_if_modifyHead]

/-- A word and what follows it, which is nothing or starts with a mark. -/
theorem words_word (word_ne : word ≠ []) (plain : mark ∉ word) (behind : rest = [] ∨ ∃ rest', rest = mark :: rest') :
    words mark (word ++ rest) = word :: words mark rest := by
  rcases behind with rfl | ⟨rest, rfl⟩
  · simp [words, List.splitOn_eq_singleton plain, word_ne]
  · rw [words_mark, words, List.splitOn_append_cons_self_of_not_mem plain,
      List.filter_cons_of_pos (by simpa using word_ne), words]

/-- A text is built from marks and whole words. -/
theorem text_induction (mark : α) {P : List α → Prop} (nil : P []) (mark_ : ∀ rest, P rest → P (mark :: rest))
    (word : ∀ word rest, word ≠ [] → mark ∉ word → (rest = [] ∨ ∃ rest', rest = mark :: rest') → P rest →
      P (word ++ rest)) (text : List α) : P text := by
  induction size : text.length using Nat.strongRecOn generalizing text with
  | ind n ih =>
    subst size
    match text with
    | [] => exact nil
    | c :: tail =>
      by_cases isMark : c = mark
      · subst isMark
        exact mark_ tail (ih _ (Nat.lt_succ_self _) tail rfl)
      · -- the word that starts here goes on to the next mark
        have split := List.takeWhile_append_dropWhile (p := fun d => decide (d ≠ mark)) (l := c :: tail)
        have nonempty : (c :: tail).takeWhile (fun d => decide (d ≠ mark)) ≠ [] := by simp [isMark]
        have shorter : ((c :: tail).dropWhile (fun d => decide (d ≠ mark))).length < (c :: tail).length := by
          have lengths := congrArg List.length split
          rw [List.length_append] at lengths
          have := List.length_pos_iff.mpr nonempty
          omega
        rw [← split]
        refine word _ _ nonempty ?_ ?_ (ih _ shorter _ rfl)
        · intro member
          simpa using List.mem_takeWhile_imp member
        · cases behind : (c :: tail).dropWhile (fun d => decide (d ≠ mark)) with
          | nil => exact .inl rfl
          | cons d rest =>
            have stops := List.head?_dropWhile_not (fun d => decide (d ≠ mark)) (c :: tail)
            rw [behind, List.head?_cons] at stops
            exact .inr ⟨rest, by rw [show d = mark by simpa using stops]⟩

end Words
