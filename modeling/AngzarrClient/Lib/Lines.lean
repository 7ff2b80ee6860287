import Mathlib.Data.List.Basic

/-!
# Lines

A text read as lines, over any alphabet: `ends` says which letters end a line, and of these
`cr` followed by `lf` end one line together (`Text.splitLines`). The end of the last line may
be missing, and no line follows the last end.

What is read before an `lf` and what is read after it do not depend on each other
(`Text.splitLines_append`), so texts whose last line is ended are put together as their lines
are; and lines that hold no end are read back as they were written
(`Text.splitLines_unlines`).
-/

namespace Text

variable {α : Type} [DecidableEq α]

omit [DecidableEq α] in
/-- Lines with a letter before the first of them. -/
def grow (c : α) : List (List α) → List (List α)
  | [] => [[c]]
  | line :: lines => (c :: line) :: lines

/-- The lines of what follows a line's end, or of a text; the first argument says whether that
end was a `cr`. -/
def linesAfter (ends : α → Bool) (cr lf : α) : Bool → List α → List (List α)
  | _, [] => []
  | afterCr, c :: s =>
    if afterCr ∧ c = lf then linesAfter ends cr lf false s
    else if ends c then [] :: linesAfter ends cr lf (c = cr) s
    else grow c (linesAfter ends cr lf false s)

/-- **The lines of a text**, without their ends. -/
def splitLines (ends : α → Bool) (cr lf : α) (s : List α) : List (List α) :=
  linesAfter ends cr lf false s

omit [DecidableEq α] in
/-- Lines as a text, each with its end. -/
def unlines (lf : α) (lines : List (List α)) : List α := lines.flatMap (· ++ [lf])

omit [DecidableEq α] in
theorem grow_append (c : α) {lines : List (List α)} (h : lines ≠ []) (more : List (List α)) :
    grow c (lines ++ more) = grow c lines ++ more := by
  obtain ⟨line, lines, rfl⟩ := List.exists_cons_of_ne_nil h
  rfl

variable {ends : α → Bool} {cr lf : α}

theorem splitLines_cons (c : α) (s : List α) :
    splitLines ends cr lf (c :: s) =
      if ends c then [] :: linesAfter ends cr lf (c = cr) s
      else grow c (splitLines ends cr lf s) := by
  rw [splitLines, linesAfter, if_neg (by simp)]
  rfl

/-- A text that is not empty has a line. -/
theorem splitLines_cons_ne_nil (c : α) (s : List α) : splitLines ends cr lf (c :: s) ≠ [] := by
  rw [splitLines_cons]
  split
  · exact List.cons_ne_nil _ _
  · cases splitLines ends cr lf s <;> exact List.cons_ne_nil _ _

theorem linesAfter_append (hends : ends lf = true) (hne : lf ≠ cr) (afterCr : Bool)
    (s rest : List α) :
    linesAfter ends cr lf afterCr (s ++ lf :: rest) =
      linesAfter ends cr lf afterCr (s ++ [lf]) ++ splitLines ends cr lf rest := by
  induction s generalizing afterCr with
  | nil =>
    simp only [List.nil_append, linesAfter, hends, decide_eq_false hne, splitLines, if_true]
    cases afterCr
    · rw [if_neg (by simp), if_neg (by simp)]
      rfl
    · rw [if_pos (by simp), if_pos (by simp)]
      rfl
  | cons c s ih =>
    simp only [List.cons_append, linesAfter]
    split
    · exact ih false
    · split
      · rw [ih, List.cons_append]
      · have hline : linesAfter ends cr lf false (s ++ [lf]) ≠ [] := by
          cases s with
          | nil => exact splitLines_cons_ne_nil lf []
          | cons d s => exact splitLines_cons_ne_nil d (s ++ [lf])
        rw [ih, grow_append c hline]

/-- **Texts are put together as their lines are**, where the first ends its last line. -/
theorem splitLines_append (hends : ends lf = true) (hne : lf ≠ cr) {s : List α}
    (hs : s ≠ [] → [lf] <:+ s) (rest : List α) :
    splitLines ends cr lf (s ++ rest) =
      splitLines ends cr lf s ++ splitLines ends cr lf rest := by
  by_cases h : s = []
  · rw [h]
    rfl
  · obtain ⟨s, rfl⟩ := hs h
    rw [List.append_assoc, List.singleton_append]
    exact linesAfter_append hends hne false s rest

/-- A line that holds no end is read up to its own. -/
theorem splitLines_line (hends : ends lf = true) (hne : lf ≠ cr) {line : List α}
    (hline : ∀ c ∈ line, ends c = false) (rest : List α) :
    splitLines ends cr lf (line ++ lf :: rest) = line :: splitLines ends cr lf rest := by
  induction line with
  | nil =>
    rw [List.nil_append, splitLines_cons, if_pos hends, decide_eq_false hne]
    rfl
  | cons c line ih =>
    have hc : ¬ends c = true := by simp [hline c List.mem_cons_self]
    rw [List.cons_append, splitLines_cons, if_neg hc,
      ih fun d hd => hline d (List.mem_cons_of_mem c hd)]
    rfl

/-- **Lines that hold no end are read back.** -/
theorem splitLines_unlines (hends : ends lf = true) (hne : lf ≠ cr) {lines : List (List α)}
    (h : ∀ line ∈ lines, ∀ c ∈ line, ends c = false) :
    splitLines ends cr lf (unlines lf lines) = lines := by
  induction lines with
  | nil => rfl
  | cons line lines ih =>
    have hwhole : unlines lf (line :: lines) = line ++ lf :: unlines lf lines := by
      simp [unlines]
    rw [hwhole, splitLines_line hends hne (h line List.mem_cons_self),
      ih fun l hl => h l (List.mem_cons_of_mem line hl)]

end Text
