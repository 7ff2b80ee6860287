import Mathlib.Data.List.TakeWhile
import Mathlib.Data.List.DropRight
import Mathlib.Data.List.Infix

/-!
# Cutting a sequence at a separator

The four cuts line formats are read with: before and after the *first* separator
(`Text.partition`), before and after the *last* one (`Text.rpartition`), a prefix
or a suffix taken off once if it is there (`Text.removePrefix`,
`Text.removeSuffix`). They are stated over any alphabet, so one set of lemmas reads
a line of bytes and a line of characters.

Beside them stand the two edits a renderer makes: both ends stripped
(`Text.strip`), and every occurrence of one sequence replaced by another, from the left
(`Text.replace`).

A partition keeps the separator it found as its middle part: an empty middle says
there was none, which is how a reader tells a missing field from an empty one.
-/

namespace Text

variable {α : Type} [DecidableEq α]

/-- The sequence before the first `sep`, the separator, and what follows it; the
whole sequence and two empty parts when there is none. -/
def partition (sep : α) (l : List α) : List α × List α × List α :=
  match l.dropWhile (· ≠ sep) with
  | [] => (l, [], [])
  | s :: rest => (l.takeWhile (· ≠ sep), [s], rest)

/-- The sequence before the last `sep`, the separator, and what follows it; two
empty parts and the whole sequence when there is none. -/
def rpartition (sep : α) (l : List α) : List α × List α × List α :=
  match l.reverse.dropWhile (· ≠ sep) with
  | [] => ([], [], l)
  | s :: rest => (rest.reverse, [s], (l.reverse.takeWhile (· ≠ sep)).reverse)

/-- The sequence without `pre` at its front, if it begins with it. -/
def removePrefix (pre l : List α) : List α :=
  if pre <+: l then l.drop pre.length else l

/-- The sequence without `suf` at its end, if it ends with it. -/
def removeSuffix (suf l : List α) : List α :=
  if suf <:+ l then l.take (l.length - suf.length) else l

/-- The sequence before the first occurrence of `sep`, the occurrence, and what follows it;
the whole sequence and two empty parts when there is none. -/
def partitionOn (sep : List α) : List α → List α × List α × List α
  | [] => ([], [], [])
  | c :: l =>
    if sep <+: c :: l then ([], sep, (c :: l).drop sep.length)
    else
      let (pre, found, rest) := partitionOn sep l
      (c :: pre, found, rest)

omit [DecidableEq α] in
/-- The sequence without what `p` holds of at either end. -/
def strip (p : α → Bool) (l : List α) : List α := (l.dropWhile p).rdropWhile p

/-- The sequence with every occurrence of `old` replaced by `new`, the leftmost first, none
overlapping the one before it. The first argument counts the elements still taken by the
last occurrence. -/
def replaceFrom (old new : List α) : ℕ → List α → List α
  | _, [] => []
  | skip + 1, _ :: l => replaceFrom old new skip l
  | 0, c :: l =>
    if old <+: c :: l then new ++ replaceFrom old new (old.length - 1) l
    else c :: replaceFrom old new 0 l

/-- `replace`: every occurrence of `old`, which is not empty, replaced by `new`. -/
def replace (old new l : List α) : List α := replaceFrom old new 0 l

/-! ### Partitions -/

omit [DecidableEq α] in
private theorem dropWhile_eq_nil_of_not_mem {p : α → Bool} {l : List α}
    (h : ∀ a ∈ l, p a = true) : l.dropWhile p = [] := by
  rw [List.dropWhile_eq_nil_iff]
  exact h

/-- Without a separator the partition keeps the whole sequence on the left. -/
theorem partition_of_not_mem {sep : α} {l : List α} (h : sep ∉ l) :
    partition sep l = (l, [], []) := by
  have hd : l.dropWhile (· ≠ sep) = [] := by
    refine dropWhile_eq_nil_of_not_mem fun a ha => ?_
    simpa using fun hs : a = sep => h (hs ▸ ha)
  rw [partition, hd]

/-- The partition cuts at the first separator. -/
theorem partition_append {sep : α} {l : List α} (h : sep ∉ l) (rest : List α) :
    partition sep (l ++ sep :: rest) = (l, [sep], rest) := by
  have hall : ∀ a ∈ l, (decide (a ≠ sep)) = true := fun a ha => by
    simpa using fun hs : a = sep => h (hs ▸ ha)
  have hd : (l ++ sep :: rest).dropWhile (· ≠ sep) = sep :: rest := by
    rw [List.dropWhile_append_of_pos hall, List.dropWhile_cons_of_neg (by simp)]
  have ht : (l ++ sep :: rest).takeWhile (· ≠ sep) = l := by
    rw [List.takeWhile_append_of_pos hall, List.takeWhile_cons_of_neg (by simp),
      List.append_nil]
  rw [partition, hd, ht]

/-- **A partition is one of two things**: the whole sequence when it holds no
separator, a cut at the first one otherwise. -/
theorem partition_cases (sep : α) (l : List α) :
    (sep ∉ l ∧ partition sep l = (l, [], [])) ∨
      ∃ pre rest, sep ∉ pre ∧ l = pre ++ sep :: rest ∧ partition sep l = (pre, [sep], rest) := by
  by_cases h : sep ∈ l
  · obtain ⟨pre, rest, hl, hpre⟩ := List.eq_append_cons_of_mem h
    exact Or.inr ⟨pre, rest, hpre, hl, hl ▸ partition_append hpre rest⟩
  · exact Or.inl ⟨h, partition_of_not_mem h⟩

/-- What a partition has on its left is the sequence up to the first separator. -/
theorem partition_fst (sep : α) (l : List α) :
    (partition sep l).1 = l.takeWhile (· ≠ sep) := by
  rcases partition_cases sep l with ⟨h, hcut⟩ | ⟨pre, rest, h, rfl, hcut⟩
  · rw [hcut, List.takeWhile_eq_self_iff.mpr]
    exact fun a ha => decide_eq_true fun hs => h (hs ▸ ha)
  · have hall : ∀ a ∈ pre, (decide (a ≠ sep)) = true :=
      fun a ha => decide_eq_true fun hs => h (hs ▸ ha)
    rw [hcut, List.takeWhile_append_of_pos hall, List.takeWhile_cons_of_neg (by simp),
      List.append_nil]

/-- Without a separator the right partition keeps the whole sequence on the right. -/
theorem rpartition_of_not_mem {sep : α} {l : List α} (h : sep ∉ l) :
    rpartition sep l = ([], [], l) := by
  have hd : l.reverse.dropWhile (· ≠ sep) = [] := by
    refine dropWhile_eq_nil_of_not_mem fun a ha => ?_
    simpa using fun hs : a = sep => h (hs ▸ List.mem_reverse.mp ha)
  rw [rpartition, hd]

/-- Nothing after the last separator is a separator. -/
theorem not_mem_rpartition (sep : α) (l : List α) : sep ∉ (rpartition sep l).2.2 := by
  by_cases h : sep ∈ l
  · obtain ⟨s, rest, hd⟩ : ∃ s rest, l.reverse.dropWhile (· ≠ sep) = s :: rest := by
      refine List.exists_cons_of_ne_nil fun hnil => ?_
      have hall := List.dropWhile_eq_nil_iff.mp hnil sep (List.mem_reverse.mpr h)
      simp at hall
    rw [rpartition, hd]
    intro hmem
    have hne := List.mem_takeWhile_imp (List.mem_reverse.mp hmem)
    simp at hne
  · rw [rpartition_of_not_mem h]
    exact h

/-- The right partition cuts at the last separator. -/
theorem rpartition_append {sep : α} {l : List α} (h : sep ∉ l) (pre : List α) :
    rpartition sep (pre ++ sep :: l) = (pre, [sep], l) := by
  have hall : ∀ a ∈ l.reverse, (decide (a ≠ sep)) = true := fun a ha => by
    simpa using fun hs : a = sep => h (hs ▸ List.mem_reverse.mp ha)
  have hrev : (pre ++ sep :: l).reverse = l.reverse ++ sep :: pre.reverse := by simp
  have hd : (pre ++ sep :: l).reverse.dropWhile (· ≠ sep) = sep :: pre.reverse := by
    rw [hrev, List.dropWhile_append_of_pos hall, List.dropWhile_cons_of_neg (by simp)]
  have ht : (pre ++ sep :: l).reverse.takeWhile (· ≠ sep) = l.reverse := by
    rw [hrev, List.takeWhile_append_of_pos hall, List.takeWhile_cons_of_neg (by simp),
      List.append_nil]
  rw [rpartition, hd, ht]
  simp

/-- **A last separator is found again**: two sequences cut at one that neither right part
holds are the same only part by part. -/
theorem append_sep_inj {sep : α} {l l' pre pre' : List α} (h : sep ∉ l) (h' : sep ∉ l') :
    pre ++ sep :: l = pre' ++ sep :: l' ↔ pre = pre' ∧ l = l' := by
  constructor
  · intro heq
    have hcut := rpartition_append h pre
    rw [heq, rpartition_append h' pre'] at hcut
    obtain ⟨hpre, hrest⟩ := Prod.mk.inj hcut
    exact ⟨hpre.symm, (Prod.mk.inj hrest).2.symm⟩
  · rintro ⟨rfl, rfl⟩
    rfl

/-- A cut at a longer separator puts its three parts back together. -/
theorem eq_of_partitionOn {sep l pre found rest : List α}
    (h : partitionOn sep l = (pre, found, rest)) : l = pre ++ found ++ rest := by
  induction l generalizing pre found rest with
  | nil =>
    simp only [partitionOn, Prod.mk.injEq] at h
    obtain ⟨rfl, rfl, rfl⟩ := h
    rfl
  | cons c l ih =>
    rw [partitionOn] at h
    split at h
    · next hsep =>
      simp only [Prod.mk.injEq] at h
      obtain ⟨rfl, rfl, rfl⟩ := h
      exact List.prefix_iff_eq_append.mp hsep |>.symm
    · simp only [Prod.mk.injEq] at h
      obtain ⟨rfl, hfound, hrest⟩ := h
      have hl := ih (show partitionOn sep l = ((partitionOn sep l).1, found, rest) by
        rw [← hfound, ← hrest])
      rw [List.cons_append, List.cons_append, ← hl]

/-- A separator with an element that the sequence lacks is not found. -/
theorem partitionOn_of_not_mem {sep l : List α} {a : α} (ha : a ∈ sep) (hl : a ∉ l) :
    partitionOn sep l = (l, [], []) := by
  induction l with
  | nil => rfl
  | cons b l ih =>
    rw [partitionOn, if_neg fun h => hl (h.subset ha), ih fun h => hl (List.mem_cons_of_mem b h)]

/-- A sequence the separator does not occur in is not cut. -/
theorem partitionOn_of_not_infix {sep l : List α} (h : ¬sep <:+: l) :
    partitionOn sep l = (l, [], []) := by
  induction l with
  | nil => rfl
  | cons b l ih =>
    rw [partitionOn, if_neg fun hsep => h hsep.isInfix,
      ih fun hsep => h (hsep.trans (List.suffix_cons b l).isInfix)]

/-- The cut is at the first separator. -/
theorem partitionOn_append {a b : α} {l : List α} (hab : a ≠ b) (hl : b ∉ l) (rest : List α) :
    partitionOn [a, b] (l ++ [a, b] ++ rest) = (l, [a, b], rest) := by
  induction l with
  | nil => exact if_pos ⟨rest, rfl⟩
  | cons c l ih =>
    have hnot : ¬[a, b] <+: c :: (l ++ [a, b] ++ rest) := by
      intro h
      -- The separator's second element would be the sequence's next.
      have hnext := (List.cons_prefix_cons.mp h).2
      cases l with
      | nil => exact hab (List.cons_prefix_cons.mp hnext).1.symm
      | cons d l => exact hl (by rw [(List.cons_prefix_cons.mp hnext).1]; simp)
    rw [List.cons_append, List.cons_append, partitionOn, if_neg hnot,
      ih fun h => hl (List.mem_cons_of_mem c h)]

/-! ### Taking an end off -/

omit [DecidableEq α] in
theorem strip_isInfix (p : α → Bool) (l : List α) : strip p l <:+: l :=
  (List.rdropWhile_prefix p (l.dropWhile p)).isInfix.trans (List.dropWhile_suffix p).isInfix

omit [DecidableEq α] in
/-- What stands at either end is stripped with it. -/
theorem strip_append {p : α → Bool} {lead trail : List α} (hlead : ∀ a ∈ lead, p a = true)
    (htrail : ∀ a ∈ trail, p a = true) (l : List α) :
    strip p (lead ++ l ++ trail) = strip p l := by
  have hend : ∀ l : List α, (l ++ trail).rdropWhile p = l.rdropWhile p := by
    intro l
    unfold List.rdropWhile
    rw [List.reverse_append,
      List.dropWhile_append_of_pos fun a ha => htrail a (List.mem_reverse.mp ha)]
  unfold strip
  rw [List.append_assoc, List.dropWhile_append_of_pos hlead, List.dropWhile_append]
  split
  · next hnil =>
    rw [List.isEmpty_iff.mp hnil, List.dropWhile_eq_nil_iff.mpr htrail]
  · exact hend _

omit [DecidableEq α] in
/-- A sequence that neither begins nor ends with what is stripped stays as it is. -/
theorem strip_eq_self {p : α → Bool} {l : List α} (hhead : ∀ a ∈ l.head?, p a = false)
    (hlast : ∀ a ∈ l.getLast?, p a = false) : strip p l = l := by
  unfold strip
  have hdrop : l.dropWhile p = l := by
    cases l with
    | nil => rfl
    | cons a l => exact List.dropWhile_cons_of_neg (by simp [hhead a rfl])
  rw [hdrop, List.rdropWhile_eq_self_iff]
  intro hne
  simp [hlast _ (List.getLast?_eq_some_getLast hne)]

omit [DecidableEq α] in
/-- What is stripped of the front of a stripped sequence stands at its end. -/
theorem exists_eq_strip_append {p : α → Bool} {l pre : List α} (hstrip : strip p l = l)
    (hpre : pre <+: l) : ∃ trail, pre = strip p pre ++ trail ∧ ∀ a ∈ trail, p a = true := by
  have hdrop : l.dropWhile p = l := by
    refine (List.dropWhile_suffix p).eq_of_length ?_
    refine le_antisymm (List.dropWhile_suffix p).length_le ?_
    conv_lhs => rw [← hstrip]
    exact (List.rdropWhile_prefix p _).length_le
  have hfront : pre.dropWhile p = pre := by
    cases pre with
    | nil => rfl
    | cons a pre =>
      obtain ⟨rest, rfl⟩ := hpre
      refine List.dropWhile_cons_of_neg fun ha => ?_
      rw [List.cons_append, List.dropWhile_cons_of_pos ha] at hdrop
      have hle := (List.dropWhile_suffix (l := pre ++ rest) p).length_le
      rw [hdrop, List.length_cons] at hle
      omega
  refine ⟨(pre.reverse.takeWhile p).reverse, ?_, fun a ha => ?_⟩
  · rw [strip, hfront, List.rdropWhile, ← List.reverse_append, List.takeWhile_append_dropWhile,
      List.reverse_reverse]
  · exact List.mem_takeWhile_imp (List.mem_reverse.mp ha)

theorem removePrefix_append (pre l : List α) : removePrefix pre (pre ++ l) = l := by
  rw [removePrefix, if_pos (List.prefix_append pre l), List.drop_left]

theorem removeSuffix_append (suf l : List α) : removeSuffix suf (l ++ suf) = l := by
  rw [removeSuffix, if_pos (List.suffix_append l suf), List.length_append,
    Nat.add_sub_cancel, List.take_left]

theorem removeSuffix_of_not {suf l : List α} (h : ¬suf <:+ l) : removeSuffix suf l = l :=
  if_neg h

theorem removeSuffix_prefix_self (suf l : List α) : removeSuffix suf l <+: l := by
  unfold removeSuffix
  split
  · exact List.take_prefix _ _
  · exact List.prefix_rfl

/-- A suffix that is there is taken off. -/
theorem length_removeSuffix_lt {suf l : List α} (hsuf : suf ≠ []) (h : suf <:+ l) :
    (removeSuffix suf l).length < l.length := by
  have hlen := h.length_le
  have hpos := List.length_pos_iff.mpr hsuf
  rw [removeSuffix, if_pos h, List.length_take]
  omega

/-- Taking a suffix off changes a sequence exactly when the suffix is there. -/
theorem removeSuffix_eq_self_iff {suf l : List α} (hsuf : suf ≠ []) :
    removeSuffix suf l = l ↔ ¬suf <:+ l := by
  constructor
  · intro heq h
    have hlt := length_removeSuffix_lt hsuf h
    rw [heq] at hlt
    exact Nat.lt_irrefl _ hlt
  · exact removeSuffix_of_not

/-! ### Replacing -/

theorem replaceFrom_append (old new : List α) (l rest : List α) :
    replaceFrom old new l.length (l ++ rest) = replaceFrom old new 0 rest := by
  induction l with
  | nil => rfl
  | cons c l ih => exact ih

@[simp] theorem replace_nil (old new : List α) : replace old new [] = [] := rfl

/-- An occurrence at the front is replaced, and the rest after it. -/
theorem replace_append {old : List α} (hold : old ≠ []) (new rest : List α) :
    replace old new (old ++ rest) = new ++ replace old new rest := by
  obtain ⟨c, old', rfl⟩ := List.exists_cons_of_ne_nil hold
  have hpre : c :: old' <+: c :: (old' ++ rest) := List.prefix_append (c :: old') rest
  show replaceFrom (c :: old') new 0 (c :: (old' ++ rest)) = _
  rw [replaceFrom, if_pos hpre]
  exact congrArg (new ++ ·) (replaceFrom_append (c :: old') new old' rest)

/-- Where no occurrence begins, nothing is replaced. -/
theorem replace_cons_of_not {old : List α} {c : α} {l : List α} (h : ¬old <+: c :: l)
    (new : List α) : replace old new (c :: l) = c :: replace old new l := by
  show replaceFrom old new 0 (c :: l) = _
  rw [replaceFrom, if_neg h]
  rfl

omit [DecidableEq α] in
theorem singleton_prefix_cons {a b : α} {l : List α} : [a] <+: b :: l ↔ a = b := by
  rw [List.cons_prefix_cons, and_iff_left (List.nil_prefix)]

/-- Replacing one element, element by element. -/
theorem replace_singleton_cons (a c : α) (new l : List α) :
    replace [a] new (c :: l) = (if a = c then new else [c]) ++ replace [a] new l := by
  split
  · next h =>
    subst h
    exact replace_append (List.cons_ne_nil a []) new l
  · next h => exact replace_cons_of_not (fun hpre => h (singleton_prefix_cons.mp hpre)) new

theorem replace_singleton_append (a : α) (new l l' : List α) :
    replace [a] new (l ++ l') = replace [a] new l ++ replace [a] new l' := by
  induction l with
  | nil => rfl
  | cons c l ih =>
    rw [List.cons_append, replace_singleton_cons, ih, replace_singleton_cons, List.append_assoc]

omit [DecidableEq α] in
theorem singleton_suffix_concat {a b : α} {l : List α} : [a] <:+ l ++ [b] ↔ a = b := by
  constructor
  · rintro ⟨t, ht⟩
    exact (List.cons.inj (List.append_inj' ht rfl).2).1
  · rintro rfl
    exact List.suffix_append l [a]

/-- An ending of one element takes nothing off that has another in it. -/
theorem mem_removeSuffix_singleton {a b : α} {l : List α} (hne : b ≠ a) :
    b ∈ removeSuffix [a] l ↔ b ∈ l := by
  by_cases hs : [a] <:+ l
  · obtain ⟨t, rfl⟩ := hs
    rw [removeSuffix_append, List.mem_append, List.mem_singleton, or_iff_left hne]
  · rw [removeSuffix_of_not hs]

/-- A sequence with a separator in it is cut there whatever ending is off. -/
theorem partition_removeSuffix {sep a : α} {l : List α} (hne : sep ≠ a) (h : sep ∈ l) :
    (partition sep (removeSuffix [a] l)).1 = (partition sep l).1 := by
  obtain ⟨more, hmore⟩ := removeSuffix_prefix_self [a] l
  have hmem := (mem_removeSuffix_singleton hne).mpr h
  obtain ⟨pre, rest, hpre, hcut⟩ :
      ∃ pre rest, sep ∉ pre ∧ removeSuffix [a] l = pre ++ sep :: rest := by
    rcases partition_cases sep (removeSuffix [a] l) with ⟨hnot, -⟩ | ⟨pre, rest, hpre, hcut, -⟩
    · exact absurd hmem hnot
    · exact ⟨pre, rest, hpre, hcut⟩
  have hl : l = pre ++ sep :: (rest ++ more) := by
    rw [← hmore, hcut, List.append_assoc, List.cons_append]
  rw [hcut, partition_append hpre, hl, partition_append hpre]

omit [DecidableEq α] in
/-- **Reading undoes writing, letter by letter**, when each letter is read off the front of
what it is written before. -/
theorem read_flatMap {β : Type} {write : β → List α} {read : List α → List β}
    (hnil : read [] = []) (hcons : ∀ b rest, read (write b ++ rest) = b :: read rest)
    (l : List β) : read (l.flatMap write) = l := by
  induction l with
  | nil => exact hnil
  | cons b l ih => rw [List.flatMap_cons, hcons, ih]

end Text
