import Mathlib.Data.List.Basic

namespace Lib.Fields

variable {α : Type*}

def words (p : α → Bool) (xs : List α) : List (List α) :=
  (xs.splitOnP p).filter (fun word => word ≠ [])

/-- A word and the separators before it. -/
structure Column (α : Type*) where
  gap : List α
  word : List α

def laid (columns : List (Column α)) : List α :=
  columns.flatMap (fun c => c.gap ++ c.word)

/-- Each column holds a word, and separators stand between any two. -/
structure Apart (p : α → Bool) (columns : List (Column α)) : Prop where
  gaps : ∀ c ∈ columns, ∀ x ∈ c.gap, p x = true
  words : ∀ c ∈ columns, c.word ≠ [] ∧ ∀ x ∈ c.word, p x = false
  between : ∀ c ∈ columns.tail, c.gap ≠ []

instance Apart.decidable (p : α → Bool) (columns : List (Column α)) :
    Decidable (Apart p columns) :=
  decidable_of_iff ((columns.all (fun c => c.gap.all p) = true) ∧
      (columns.all (fun c => !c.word.isEmpty && c.word.all (fun x => !p x)) = true) ∧
      columns.tail.all (fun c => !c.gap.isEmpty) = true)
    ⟨fun ⟨hgaps, hwords, hbetween⟩ =>
        { gaps := by simpa using hgaps
          words := by simpa using hwords
          between := by simpa using hbetween },
      fun h => ⟨by simpa using h.gaps, by simpa using h.words, by simpa using h.between⟩⟩

variable {p : α → Bool} {gap word rest : List α} {columns : List (Column α)}

theorem words_gap (h : ∀ x ∈ gap, p x = true) : words p (gap ++ rest) = words p rest := by
  induction gap with
  | nil => rfl
  | cons x gap ih =>
    have hx : p x = true := h x List.mem_cons_self
    have hrest : words p (gap ++ rest) = words p rest :=
      ih fun y hy => h y (List.mem_cons_of_mem _ hy)
    rw [← hrest, words, words, List.cons_append, List.splitOnP_cons_eq_if_modifyHead, if_pos hx]
    rfl

/-- A word that a separator or the end follows. -/
theorem words_word (hne : word ≠ []) (hw : ∀ x ∈ word, p x = false)
    (hrest : ∀ x ∈ rest.head?, p x = true) : words p (word ++ rest) = word :: words p rest := by
  cases rest with
  | nil =>
    simp [words, List.splitOnP_eq_singleton hw, hne]
  | cons x rest =>
    have hx : p x = true := hrest x rfl
    have hgap : words p (x :: rest) = words p rest := @words_gap _ p [x] rest (by simpa using hx)
    rw [hgap, words, List.splitOnP_append_cons_of_forall_mem hw x hx]
    simp [words, hne]

/-- The words of a laid out text are those of its columns, whatever separators follow them. -/
theorem words_laid (h : Apart p columns) (hgap : ∀ x ∈ gap, p x = true) :
    words p (laid columns ++ gap) = columns.map Column.word := by
  induction columns with
  | nil =>
    have hend : words p (gap ++ []) = words p [] := words_gap hgap
    rw [List.append_nil] at hend
    exact hend
  | cons c columns ih =>
    obtain ⟨hne, hw⟩ := h.words c List.mem_cons_self
    have hrest : Apart p columns :=
      { gaps := fun d hd => h.gaps d (List.mem_cons_of_mem _ hd)
        words := fun d hd => h.words d (List.mem_cons_of_mem _ hd)
        between := fun d hd => h.between d (List.mem_of_mem_tail hd) }
    have hhead : ∀ x ∈ (laid columns ++ gap).head?, p x = true := by
      cases columns with
      | nil => exact fun x hx => hgap x (List.mem_of_mem_head? hx)
      | cons d columns =>
        have hne : d.gap ≠ [] := h.between d List.mem_cons_self
        intro x hx
        obtain ⟨y, ys, hy⟩ := List.exists_cons_of_ne_nil hne
        have hxy : y = x := by simpa [laid, hy] using hx
        refine h.gaps d (by simp) x ?_
        rw [hy, hxy]
        exact List.mem_cons_self
    have hlaid : laid (c :: columns) ++ gap = c.gap ++ (c.word ++ (laid columns ++ gap)) := by
      simp [laid]
    rw [hlaid, words_gap (h.gaps c List.mem_cons_self), words_word hne hw hhead, ih hrest,
      List.map_cons]

end Lib.Fields
