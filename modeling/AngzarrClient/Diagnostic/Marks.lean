import AngzarrClient.Diagnostic.Render

/-!
# Where a pattern is cut

A pattern is cut twice over: at the brace that closes a placeable, found by counting, and,
in a select's body, at its marks, found by a scan. Both cuts are local, and what is written
between two of them does not matter to either: braces that are balanced are passed over
(`AngzarrClient.Diagnostic.Balanced`), and a mark ends at the first whitespace
(`AngzarrClient.Diagnostic.mark_append`), so that texts with whitespace between them are
scanned one by one (`AngzarrClient.Diagnostic.scan_append`).

The scan does not see lines. A mark is a mark wherever it stands, and the text of the one
before it ends there (`AngzarrClient.Diagnostic.scan_first`).
-/

namespace AngzarrClient

namespace Diagnostic

open Utf8

/-! ### Characters -/

/-- `\n`. -/
def newline : CodePoint := .scalar '\n'

/-- The second character of an arrow. -/
def arrowhead : CodePoint := .scalar '>'

/-- **The characters that a pattern is cut at.** -/
inductive Delimiter : CodePoint → Prop where
  | lbrace : Delimiter lbrace
  | rbrace : Delimiter rbrace
  | lbracket : Delimiter lbracket
  | rbracket : Delimiter rbracket
  | star : Delimiter star
  | arrowhead : Delimiter arrowhead

theorem Delimiter.isspace_eq_false {c : CodePoint} (h : Delimiter c) : isspace c = false := by
  cases h <;> rfl

theorem Delimiter.isKeyChar_eq_false {c : CodePoint} (h : Delimiter c) : isKeyChar c = false := by
  cases h <;> rfl

/-- Whitespace is none of them. -/
theorem ne_of_isspace {c d : CodePoint} (hc : isspace c = true) (hd : Delimiter d) : c ≠ d := by
  rintro rfl
  rw [hd.isspace_eq_false] at hc
  cases hc

/-- Nor is a key's character. -/
theorem ne_of_isKeyChar {c d : CodePoint} (hc : isKeyChar c = true) (hd : Delimiter d) :
    c ≠ d := by
  rintro rfl
  rw [hd.isKeyChar_eq_false] at hc
  cases hc

/-- Nothing in a key is whitespace. -/
theorem isKeyChar_of_isspace {c : CodePoint} (hc : isspace c = true) : isKeyChar c = false := by
  cases c with
  | surrogate _ => rfl
  | scalar c =>
    simp only [isspace, decide_eq_true_eq] at hc
    simp only [isKeyChar, Bool.or_eq_false_iff, decide_eq_false_iff_not]
    have hne : ∀ d : Char, (33 ≤ d.toNat ∧ d.toNat ≤ 126) → c ≠ d := by
      rintro d hd rfl
      omega
    refine ⟨⟨?_, hne '_' (by decide)⟩, hne '-' (by decide)⟩
    have halphanum : c.isAlphanum = (decide (c.val ≥ 65 ∧ c.val ≤ 90) ||
        (decide (c.val ≥ 97) && decide (c.val ≤ 122)) ||
        (decide (c.val ≥ 48) && decide (c.val ≤ 57))) := rfl
    simp only [halphanum, Bool.or_eq_false_iff, Bool.and_eq_false_iff, decide_eq_false_iff_not,
      ge_iff_le, UInt32.le_iff_toNat_le]
    change ((¬(65 ≤ c.toNat ∧ c.toNat ≤ 90) ∧ (¬97 ≤ c.toNat ∨ ¬c.toNat ≤ 122)) ∧
      (¬48 ≤ c.toNat ∨ ¬c.toNat ≤ 57))
    omega

/-! ### Braces -/

/-- **Braces that are balanced are passed over.** -/
def Balanced (s : Str) : Prop :=
  ∀ depth rest, close (depth + 1) (s ++ rest) =
    (close (depth + 1) rest).map fun cut => (s ++ cut.1, cut.2)

theorem balanced_nil : Balanced [] := by
  intro depth rest
  rw [List.nil_append]
  exact Option.map_id'.symm

theorem Balanced.append {s t : Str} (hs : Balanced s) (ht : Balanced t) : Balanced (s ++ t) := by
  intro depth rest
  rw [List.append_assoc, hs, ht, Option.map_map]
  exact congrArg (fun f => (close (depth + 1) rest).map f)
    (funext fun cut => by simp)

/-- A character that is no brace. -/
theorem balanced_singleton {c : CodePoint} (hl : c ≠ lbrace) (hr : c ≠ rbrace) : Balanced [c] := by
  intro depth rest
  rw [List.singleton_append, close, opened, if_neg hl, if_neg hr, if_neg (Nat.succ_ne_zero depth)]
  rfl

/-- Text without braces. -/
theorem balanced_of_forall {s : Str} (h : ∀ c ∈ s, c ≠ lbrace ∧ c ≠ rbrace) : Balanced s := by
  induction s with
  | nil => exact balanced_nil
  | cons c s ih =>
    obtain ⟨hl, hr⟩ := h c List.mem_cons_self
    exact (balanced_singleton hl hr).append (ih fun d hd => h d (List.mem_cons_of_mem c hd))

/-- A placeable. -/
theorem Balanced.braced {s : Str} (hs : Balanced s) : Balanced (lbrace :: (s ++ [rbrace])) := by
  intro depth rest
  have hopen : opened (depth + 1) lbrace = depth + 1 + 1 := if_pos rfl
  have hclose : opened (depth + 1 + 1) rbrace = depth + 1 := by
    rw [opened, if_neg (by decide), if_pos rfl]
    rfl
  have hrest : close (depth + 1 + 1) (rbrace :: rest) =
      (close (depth + 1) rest).map fun cut => (rbrace :: cut.1, cut.2) := by
    rw [close, hclose, if_neg (Nat.succ_ne_zero depth)]
  rw [List.cons_append, close, hopen, if_neg (Nat.succ_ne_zero _), List.append_assoc, hs,
    List.singleton_append, hrest, Option.map_map, Option.map_map]
  exact congrArg (fun f => (close (depth + 1) rest).map f) (funext fun cut => by simp)

/-- **A placeable closes at its own brace.** -/
theorem Balanced.close {s : Str} (hs : Balanced s) (rest : Str) :
    Diagnostic.close 1 (s ++ rbrace :: rest) = some (s, rest) := by
  have hend : Diagnostic.close 1 (rbrace :: rest) = some ([], rest) := rfl
  rw [hs 0 (rbrace :: rest), hend, Option.map_some, List.append_nil]

/-- It does not close before. -/
theorem Balanced.close_prefix {s pre : Str} (hs : Balanced s) (hpre : pre <+: s) :
    Diagnostic.close 1 pre = none := by
  obtain ⟨more, rfl⟩ := hpre
  rcases hclose : Diagnostic.close 1 pre with _ | ⟨inner, rest⟩
  · rfl
  · have hwhole := hs.close []
    rw [List.append_assoc, close_append hclose] at hwhole
    have hinner : inner = pre ++ more := (Prod.mk.inj (Option.some.inj hwhole)).1
    have hlength := congrArg List.length (eq_of_close Nat.one_pos hclose)
    rw [hinner, List.length_append, List.length_append, List.length_cons] at hlength
    omega

/-! ### Marks -/

/-- The marks of a text, each with the text up to the next. -/
def marks (s : Str) : List Cut := (scan 0 s).2

/-- Taking while a predicate holds stops where it does not. -/
theorem takeWhile_append_stop {p : CodePoint → Bool} {w : CodePoint} (hw : p w = false)
    (s rest : Str) : (s ++ w :: rest).takeWhile p = s.takeWhile p := by
  induction s with
  | nil => exact List.takeWhile_cons_of_neg (by simp [hw])
  | cons c s ih =>
    rw [List.cons_append, List.takeWhile_cons, List.takeWhile_cons, ih]

/-- A key between brackets is read up to its bracket. -/
theorem bracketed_append {w : CodePoint} (hkey : isKeyChar w = false) (hl : w ≠ lbracket)
    (hr : w ≠ rbracket) (s rest : Str) : bracketed (s ++ w :: rest) = bracketed s := by
  cases s with
  | nil => exact if_neg fun h => hl h.1
  | cons c s =>
    rw [List.cons_append, bracketed, bracketed, takeWhile_append_stop hkey]
    have hle : (s.takeWhile isKeyChar).length ≤ s.length := (List.takeWhile_prefix _).length_le
    have hdrop : [rbracket] <+: (s ++ w :: rest).drop (s.takeWhile isKeyChar).length ↔
        [rbracket] <+: s.drop (s.takeWhile isKeyChar).length := by
      rw [List.drop_append_of_le_length hle]
      cases s.drop (s.takeWhile isKeyChar).length with
      | nil =>
        rw [List.nil_append, Text.singleton_prefix_cons]
        exact ⟨fun h => absurd h.symm hr, fun h => absurd h (by simp)⟩
      | cons d t =>
        rw [List.cons_append, Text.singleton_prefix_cons, Text.singleton_prefix_cons]
    simp only [hdrop]

/-- **A mark ends at the first whitespace.** -/
theorem mark_append {w : CodePoint} (hw : isspace w = true) (s rest : Str) :
    mark (s ++ w :: rest) = mark s := by
  have hkey := isKeyChar_of_isspace hw
  have hl : w ≠ lbracket := ne_of_isspace hw .lbracket
  have hr : w ≠ rbracket := ne_of_isspace hw .rbracket
  cases s with
  | nil =>
    have hstar : w ≠ star := ne_of_isspace hw .star
    have hnone : bracketed (w :: rest) = none := bracketed_append hkey hl hr [] rest
    have hnil : mark [] = none := rfl
    rw [List.nil_append, hnil, mark, if_neg hstar, hnone]
    rfl
  | cons c s =>
    rw [List.cons_append, mark, mark, ← List.cons_append, bracketed_append hkey hl hr,
      bracketed_append hkey hl hr]

/-- A key between brackets is in the text. -/
theorem bracketed_eq_some {s key : Str} (h : bracketed s = some key) :
    ∃ rest, s = lbracket :: (key ++ rbracket :: rest) ∧ key ≠ [] ∧
      ∀ c ∈ key, isKeyChar c = true := by
  cases s with
  | nil => cases h
  | cons c s =>
    rw [bracketed] at h
    obtain ⟨⟨hc, hne, rest, hrest⟩, heq⟩ := Option.ite_none_right_eq_some.mp h
    obtain rfl := Option.some.inj heq
    refine ⟨rest, ?_, hne, fun d hd => List.mem_takeWhile_imp hd⟩
    have hcut := List.prefix_append_drop (List.takeWhile_prefix (l := s) isKeyChar)
    rw [← hrest] at hcut
    exact congrArg₂ List.cons hc hcut

/-- A key between brackets is read, whatever follows it. -/
theorem bracketed_key {key : Str} (hne : key ≠ []) (hkey : ∀ c ∈ key, isKeyChar c = true)
    (rest : Str) : bracketed (lbracket :: (key ++ rbracket :: rest)) = some key := by
  have htake : (key ++ rbracket :: rest).takeWhile isKeyChar = key := by
    rw [takeWhile_append_stop Delimiter.rbracket.isKeyChar_eq_false]
    exact List.takeWhile_eq_self_iff.mpr hkey
  rw [bracketed, htake, List.drop_left]
  exact if_pos ⟨rfl, hne, rest, rfl⟩

/-- A mark as it is written. -/
def writeMark (starred : Bool) (key : Str) : Str :=
  (if starred then [star] else []) ++ lbracket :: (key ++ [rbracket])

theorem balanced_writeMark {key : Str} (hkey : ∀ c ∈ key, isKeyChar c = true) (starred : Bool) :
    Balanced (writeMark starred key) := by
  have hstar : Balanced (if starred then [star] else []) := by
    cases starred
    · exact balanced_nil
    · exact balanced_singleton nofun nofun
  have hends : Balanced [lbracket] ∧ Balanced [rbracket] :=
    ⟨balanced_singleton nofun nofun, balanced_singleton nofun nofun⟩
  have hkey : Balanced key := balanced_of_forall fun c hc =>
    ⟨ne_of_isKeyChar (hkey c hc) .lbrace, ne_of_isKeyChar (hkey c hc) .rbrace⟩
  exact hstar.append (hends.1.append (hkey.append hends.2))

/-- **A mark is read back**, whatever follows it. -/
theorem mark_writeMark {key : Str} (hne : key ≠ []) (hkey : ∀ c ∈ key, isKeyChar c = true)
    (starred : Bool) (rest : Str) :
    mark (writeMark starred key ++ rest) =
      some (starred, key, (writeMark starred key).length - 1) := by
  have hread := bracketed_key hne hkey rest
  have hl : lbracket ≠ star := by decide
  cases starred with
  | true =>
    have htext : writeMark true key ++ rest =
        star :: lbracket :: (key ++ rbracket :: rest) := by simp [writeMark]
    rw [htext, mark, if_pos rfl, hread]
    simp [writeMark]
  | false =>
    have htext : writeMark false key ++ rest = lbracket :: (key ++ rbracket :: rest) := by
      simp [writeMark]
    rw [htext, mark, if_neg hl, hread]
    simp [writeMark]

/-- A mark read is in the text as it is written. -/
theorem mark_eq_some {s key : Str} {starred : Bool} {taken : ℕ}
    (h : mark s = some (starred, key, taken)) :
    ∃ rest, s = writeMark starred key ++ rest ∧ key ≠ [] ∧ (∀ c ∈ key, isKeyChar c = true) ∧
      taken = (writeMark starred key).length - 1 := by
  cases s with
  | nil => cases h
  | cons c s =>
    rw [mark] at h
    split at h
    · next hc =>
      obtain ⟨read, hread, heq⟩ := Option.map_eq_some_iff.mp h
      obtain ⟨rest, rfl, hne, hkey⟩ := bracketed_eq_some hread
      simp only [Prod.mk.injEq] at heq
      obtain ⟨rfl, rfl, rfl⟩ := heq
      exact ⟨rest, by simp [writeMark, hc], hne, hkey, by simp [writeMark]⟩
    · obtain ⟨read, hread, heq⟩ := Option.map_eq_some_iff.mp h
      obtain ⟨rest, hs, hne, hkey⟩ := bracketed_eq_some hread
      simp only [Prod.mk.injEq] at heq
      obtain ⟨rfl, rfl, rfl⟩ := heq
      exact ⟨rest, by simp [writeMark, hs], hne, hkey, by simp [writeMark]⟩

/-- What follows a mark does not change it. -/
theorem mark_append_of_some {s : Str} {read : Bool × Str × ℕ} (h : mark s = some read)
    (more : Str) : mark (s ++ more) = some read := by
  obtain ⟨starred, key, taken⟩ := read
  obtain ⟨rest, rfl, hne, hkey, rfl⟩ := mark_eq_some h
  rw [List.append_assoc]
  exact mark_writeMark hne hkey starred (rest ++ more)

/-- A mark begins with its bracket, or with its star. -/
theorem mark_cons_eq_some {c : CodePoint} {s : Str} {read : Bool × Str × ℕ}
    (h : mark (c :: s) = some read) : c = lbracket ∨ c = star := by
  obtain ⟨starred, key, taken⟩ := read
  obtain ⟨rest, hs, -⟩ := mark_eq_some h
  cases starred with
  | true => exact Or.inr (List.cons.inj hs).1
  | false => exact Or.inl (List.cons.inj hs).1

/-! ### The scan -/

/-- The characters a mark takes are skipped. -/
theorem scan_eq_drop (taken : ℕ) (s : Str) : scan taken s = scan 0 (s.drop taken) := by
  induction s generalizing taken with
  | nil =>
    rw [List.drop_nil]
    cases taken <;> rfl
  | cons c s ih =>
    cases taken with
    | zero => rfl
    | succ taken =>
      rw [scan, List.drop_succ_cons]
      exact ih taken

/-- A mark is cut, with the text up to the next. -/
theorem scan_writeMark {key : Str} (hne : key ≠ []) (hkey : ∀ c ∈ key, isKeyChar c = true)
    (starred : Bool) (rest : Str) :
    scan 0 (writeMark starred key ++ rest) =
      ([], ⟨starred, key, (scan 0 rest).1⟩ :: marks rest) := by
  have hread := mark_writeMark hne hkey starred rest
  rcases hmark : writeMark starred key with _ | ⟨c, tail⟩
  · exact absurd hmark (by simp [writeMark])
  rw [hmark, List.cons_append] at hread
  rw [List.cons_append, scan, hread]
  dsimp only
  rw [scan_eq_drop, List.length_cons, Nat.add_sub_cancel, List.drop_left]
  rfl

/-- Where no mark begins, a character is text. -/
theorem scan_of_mark_eq_none {c : CodePoint} {s : Str} (h : mark (c :: s) = none) :
    scan 0 (c :: s) = (c :: (scan 0 s).1, marks s) := by
  rw [scan, h]
  rfl

/-- Whitespace before a text has no mark. -/
theorem marks_blank {blank : Str} (hblank : ∀ c ∈ blank, isspace c = true) (s : Str) :
    marks (blank ++ s) = marks s := by
  induction blank with
  | nil => rfl
  | cons w blank ih =>
    have hnone : mark (w :: (blank ++ s)) = none :=
      mark_append (hblank w List.mem_cons_self) [] (blank ++ s)
    rw [List.cons_append, marks, scan_of_mark_eq_none hnone]
    exact ih fun c hc => hblank c (List.mem_cons_of_mem w hc)

/-- **Texts with whitespace between them are scanned one by one**, when the second begins
with a mark. -/
theorem scan_append {w : CodePoint} (hw : isspace w = true) {rest : Str}
    (hrest : (scan 0 rest).1 = []) (s : Str) :
    scan 0 (s ++ w :: rest) = ((scan 0 (s ++ [w])).1, marks (s ++ [w]) ++ marks rest) := by
  induction hn : s.length using Nat.strong_induction_on generalizing s with
  | _ n ih =>
    cases s with
    | nil =>
      have hnone : ∀ more, mark (w :: more) = none := fun more => mark_append hw [] more
      rw [List.nil_append, List.nil_append, marks, scan_of_mark_eq_none (hnone rest),
        scan_of_mark_eq_none (hnone []), hrest]
      rfl
    | cons c s =>
      rcases hmark : mark (c :: s) with _ | ⟨starred, key, taken⟩
      · have hnone : ∀ more, mark (c :: (s ++ w :: more)) = none := fun more =>
          (mark_append hw (c :: s) more).trans hmark
        have htail := ih s.length (by rw [← hn]; exact Nat.lt_succ_self _) s rfl
        rw [List.cons_append, List.cons_append, marks, scan_of_mark_eq_none (hnone rest),
          scan_of_mark_eq_none (hnone []), marks, htail]
      · -- A mark: it is the same in both, and so is what it leaves of the first text.
        obtain ⟨tail, hs, hne, hkey, -⟩ := mark_eq_some hmark
        have hlt : tail.length < n := by
          rw [← hn, hs, List.length_append]
          exact Nat.lt_add_of_pos_left (List.length_pos_of_ne_nil (by simp [writeMark]))
        have htail := ih tail.length hlt tail rfl
        rw [hs, List.append_assoc, List.append_assoc, marks, scan_writeMark hne hkey,
          scan_writeMark hne hkey, marks, htail]
        rfl

/-- **What the scan leaves before its first mark**: text that holds none, with nothing after
it, or a bracket or a star. -/
theorem scan_first (s : Str) :
    ∃ rest, s = (scan 0 s).1 ++ rest ∧ (marks s = [] → rest = []) ∧
      (marks s ≠ [] → ∃ c more, rest = c :: more ∧ (c = lbracket ∨ c = star)) ∧
        ∀ t, t <:+: (scan 0 s).1 → mark t = none := by
  induction s with
  | nil =>
    refine ⟨[], rfl, fun _ => rfl, fun h => absurd rfl h, fun t ht => ?_⟩
    rw [List.infix_nil.mp ht]
    rfl
  | cons c s ih =>
    rcases hmark : mark (c :: s) with _ | ⟨starred, key, taken⟩
    · obtain ⟨rest, hs, hnil, hcons, hnone⟩ := ih
      have hmarks : marks (c :: s) = marks s := by
        rw [marks, scan_of_mark_eq_none hmark]
      rw [hmarks, scan_of_mark_eq_none hmark]
      refine ⟨rest, congrArg (c :: ·) hs, hnil, hcons, fun t ht => ?_⟩
      rcases List.infix_cons_iff.mp ht with hpre | hin
      · -- A mark at the front of the text would be one of the whole.
        obtain ⟨more, hmore⟩ := hpre
        rcases hread : mark t with _ | read
        · rfl
        · have hwhole := mark_append_of_some hread (more ++ rest)
          rw [← List.append_assoc, hmore, List.cons_append, ← hs, hmark] at hwhole
          cases hwhole
      · exact hnone t hin
    · have hcut : (scan 0 (c :: s)).1 = [] ∧ marks (c :: s) ≠ [] := by
        rw [marks, scan, hmark]
        exact ⟨rfl, List.cons_ne_nil _ _⟩
      refine ⟨c :: s, by rw [hcut.1, List.nil_append], fun h => absurd h hcut.2,
        fun _ => ⟨c, s, rfl, mark_cons_eq_some hmark⟩, fun t ht => ?_⟩
      rw [hcut.1] at ht
      rw [List.infix_nil.mp ht]
      rfl

end Diagnostic

end AngzarrClient
