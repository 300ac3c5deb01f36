import KernelCatalog.Text.Split

/-!
# Pieces between separators

Cutting goes by the separators: the pieces in front of one and those behind it are the pieces of the
two parts. So pieces that are joined are found again.

* `pieces_append_cons`: the pieces around a separator.
* `pieces_reverse`: the pieces of a text that is read backwards.
* `pieces_unpieces`: what is cut after it was joined.
-/

namespace KernelCatalog.Text

theorem pieces_append_cons (sep : Char) (front rest : List Char) :
    pieces sep (front ++ sep :: rest) = pieces sep front ++ pieces sep rest := by
  induction front with
  | nil => simp [pieces]
  | cons c more ih =>
    rw [List.cons_append, pieces, pieces, ih]
    split
    · rfl
    · cases hpieces : pieces sep more with
      | nil => exact absurd hpieces (pieces_ne_nil sep more)
      | cons piece others => rfl

theorem pieces_of_not_mem {sep : Char} {token : List Char} (h : sep ∉ token) :
    pieces sep token = [token] := by
  induction token with
  | nil => rfl
  | cons c token ih =>
    have hc : c ≠ sep := fun heq => h (by simp [heq])
    have htoken : sep ∉ token := fun hmem => h (List.mem_cons_of_mem c hmem)
    rw [pieces, if_neg hc, ih htoken]

/-- The pieces of a text that is read backwards are the pieces read backwards, the last one
first. -/
theorem pieces_reverse (sep : Char) (cs : List Char) :
    pieces sep cs.reverse = ((pieces sep cs).map List.reverse).reverse := by
  by_cases hmem : sep ∈ cs
  · obtain ⟨front, rest, rfl, hfront⟩ := List.eq_append_cons_of_mem hmem
    have hback : sep ∉ front.reverse := fun h => hfront (List.mem_reverse.mp h)
    rw [List.reverse_append, List.reverse_cons, List.append_assoc, List.singleton_append,
      pieces_append_cons, pieces_append_cons, pieces_reverse sep rest, pieces_of_not_mem hback,
      pieces_of_not_mem hfront]
    simp
  · have hback : sep ∉ cs.reverse := fun h => hmem (List.mem_reverse.mp h)
    rw [pieces_of_not_mem hback, pieces_of_not_mem hmem]
    rfl
termination_by cs.length
decreasing_by
  rename_i hcs _
  rw [hcs.1, List.length_append, List.length_cons]
  omega

/-- Joined pieces that hold no separator are found again by cutting. -/
theorem pieces_unpieces {sep : Char} {tokens : List (List Char)} (hne : tokens ≠ [])
    (h : ∀ token ∈ tokens, sep ∉ token) : pieces sep (unpieces sep tokens) = tokens := by
  induction tokens with
  | nil => exact absurd rfl hne
  | cons token more ih =>
    have htoken : sep ∉ token := h token (by simp)
    cases more with
    | nil => rw [unpieces, pieces_of_not_mem htoken]
    | cons next more =>
      have hmore := ih (by simp) fun t ht => h t (List.mem_cons_of_mem _ ht)
      rw [unpieces, pieces_append_cons, pieces_of_not_mem htoken, hmore]
      · rfl
      · simp

theorem mem_unpieces {sep c : Char} {tokens : List (List Char)} (h : c ∈ unpieces sep tokens) :
    c = sep ∨ ∃ token ∈ tokens, c ∈ token := by
  induction tokens with
  | nil => exact absurd h (by simp [unpieces])
  | cons token more ih =>
    cases more with
    | nil => exact Or.inr ⟨token, by simp, by simpa [unpieces] using h⟩
    | cons next more =>
      rw [unpieces] at h
      · rcases List.mem_append.mp h with h | h
        · exact Or.inr ⟨token, by simp, h⟩
        · rcases List.mem_cons.mp h with h | h
          · exact Or.inl h
          · rcases ih h with h | ⟨token, htoken, hc⟩
            · exact Or.inl h
            · exact Or.inr ⟨token, List.mem_cons_of_mem _ htoken, hc⟩
      · simp

end KernelCatalog.Text
