import Mathlib.Data.List.Basic

namespace Lib.Lines

variable {κ σ φ : Type*} {read : σ → List κ → σ × Option φ}

/-- Gives the lines to a reader, one after the other. -/
def readLines (read : σ → List κ → σ × Option φ) : σ → List (List κ) → σ × List φ
  | s, [] => (s, [])
  | s, line :: rest =>
    let (s, out) := read s line
    let (s, outs) := readLines read s rest
    (s, out.toList ++ outs)

theorem readLines_append (s : σ) (xs ys : List (List κ)) :
    readLines read s (xs ++ ys) =
      ((readLines read (readLines read s xs).1 ys).1,
        (readLines read s xs).2 ++ (readLines read (readLines read s xs).1 ys).2) := by
  induction xs generalizing s with
  | nil => rfl
  | cons line xs ih =>
    simp only [List.cons_append, readLines, ih, List.append_assoc]

variable [DecidableEq κ] {sep : κ}

/-- The lines of a text that are complete, and what follows the last separator. -/
def lines (sep : κ) : List κ → List (List κ) × List κ
  | [] => ([], [])
  | c :: cs =>
    let (complete, rest) := lines sep cs
    if c = sep then ([] :: complete, rest)
    else
      match complete with
      | [] => ([], c :: rest)
      | line :: complete => ((c :: line) :: complete, rest)

/-- Takes the next piece: the reader gets the lines it completes, the rest is kept. -/
def push (sep : κ) (read : σ → List κ → σ × Option φ) (s : σ × List κ) (chunk : List κ) :
    (σ × List κ) × List φ :=
  let (complete, rest) := lines sep (s.2 ++ chunk)
  let (t, outs) := readLines read s.1 complete
  ((t, rest), outs)

def pushAll (sep : κ) (read : σ → List κ → σ × Option φ) :
    σ × List κ → List (List κ) → (σ × List κ) × List φ
  | s, [] => (s, [])
  | s, chunk :: chunks =>
    let (s, outs) := push sep read s chunk
    let (s, more) := pushAll sep read s chunks
    (s, outs ++ more)

theorem lines_append (xs ys : List κ) :
    lines sep (xs ++ ys) =
      ((lines sep xs).1 ++ (lines sep ((lines sep xs).2 ++ ys)).1,
        (lines sep ((lines sep xs).2 ++ ys)).2) := by
  induction xs with
  | nil => rfl
  | cons c xs ih =>
    simp only [List.cons_append, lines, ih]
    split
    · rfl
    · cases hc : (lines sep xs).1 with
      | nil => simp_all [lines]
      | cons line complete => rfl

/-- A line and its separator come first whatever follows. -/
theorem lines_line {line : List κ} (h : sep ∉ line) (ys : List κ) :
    lines sep (line ++ sep :: ys) = (line :: (lines sep ys).1, (lines sep ys).2) := by
  induction line with
  | nil => simp [lines]
  | cons c line ih =>
    rw [List.mem_cons, not_or] at h
    obtain ⟨hc, hline⟩ := h
    simp only [List.cons_append, lines, ih hline, if_neg (Ne.symm hc)]

theorem lines_partial {line : List κ} (h : sep ∉ line) : lines sep line = ([], line) := by
  induction line with
  | nil => rfl
  | cons c line ih =>
    rw [List.mem_cons, not_or] at h
    obtain ⟨hc, hline⟩ := h
    simp only [lines, ih hline, if_neg (Ne.symm hc)]

/-- What is kept for later completes no line by itself. -/
theorem lines_rest (xs : List κ) : lines sep (lines sep xs).2 = ([], (lines sep xs).2) := by
  induction xs with
  | nil => rfl
  | cons c xs ih =>
    simp only [lines]
    split
    · exact ih
    · rename_i hc
      cases hm : (lines sep xs).1 with
      | nil => simp only [lines, ih, if_neg hc]
      | cons line complete => exact ih

theorem push_append (s : σ × List κ) (xs ys : List κ) :
    push sep read s (xs ++ ys) =
      ((push sep read (push sep read s xs).1 ys).1,
        (push sep read s xs).2 ++ (push sep read (push sep read s xs).1 ys).2) := by
  simp only [push, ← List.append_assoc, lines_append (s.2 ++ xs) ys, readLines_append]

/-- How the text was cut into pieces does not matter. -/
theorem pushAll_eq_push {s : σ × List κ} (hs : lines sep s.2 = ([], s.2))
    (chunks : List (List κ)) : pushAll sep read s chunks = push sep read s chunks.flatten := by
  induction chunks generalizing s with
  | nil => simp [pushAll, push, hs, readLines]
  | cons chunk chunks ih =>
    have hnext : lines sep (push sep read s chunk).1.2 = ([], (push sep read s chunk).1.2) :=
      lines_rest _
    rw [List.flatten_cons, push_append]
    simp only [pushAll, ih hnext]

end Lib.Lines
