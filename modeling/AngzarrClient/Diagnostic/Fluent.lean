import AngzarrClient.Diagnostic.Marks

/-!
# Patterns as Fluent reads them

The catalogs are written in a subset of Fluent: text, placeables of an arg, and selects on
an arg, whose variants each begin on a line of their own and hold patterns again
(`AngzarrClient.Diagnostic.Pattern`). What such a pattern comes to is defined on its
structure (`AngzarrClient.Diagnostic.Pattern.render`): a select is the whole of the first
variant whose key its arg's value matches, else of the starred one.

`AngzarrClient.Diagnostic.pattern` reads the pattern as it is written, and its scan takes a
bracketed key in a variant's text for a variant of its own. Where the variant it picks is
one of the select's, it renders the pattern as Fluent reads it exactly when no variant
rendered holds a bracketed key (`AngzarrClient.Diagnostic.Pattern.renders_iff`); where one
does, the variant is cut there, and a select nested in it is left unclosed
(`AngzarrClient.Diagnostic.Pattern.variant_cut`).
-/

namespace AngzarrClient

namespace Diagnostic

open Utf8

/-! ### The subset -/

/-- Whitespace. -/
abbrev Blank := {s : Str // ∀ c ∈ s, isspace c = true}

/-- The name of an arg, or a variant's key. -/
abbrev Ident := {s : Str // s ≠ [] ∧ ∀ c ∈ s, isKeyChar c = true}

mutual

/-- **A pattern of the subset**: text, placeables of an arg, and selects on an arg, each
with the whitespace it is written with. -/
inductive Pattern where
  | nil
  | char (c : CodePoint) (hc : c ≠ lbrace ∧ c ≠ rbrace) (rest : Pattern)
  | placeable (lead : Blank) (name : Ident) (trail : Blank) (rest : Pattern)
  | select (lead : Blank) (name : Ident) (trail head : Blank) (variants : Variants)
      (rest : Pattern)

/-- The variants of a select. -/
inductive Variants where
  | nil
  | cons (starred : Bool) (key : Ident) (lead : Blank) (body : Pattern) (trail : Blank)
      (rest : Variants)

end

/-- What stands between a placeable's braces: the arg's name. -/
def reference (lead : Blank) (name : Ident) (trail : Blank) : Str :=
  lead.val ++ dollar :: name.val ++ trail.val

mutual

/-- A pattern as it is written. -/
def Pattern.write : Pattern → Str
  | .nil => []
  | .char c _ rest => c :: rest.write
  | .placeable lead name trail rest =>
    lbrace :: (reference lead name trail ++ rbrace :: rest.write)
  | .select lead name trail head variants rest =>
    lbrace :: (reference lead name trail ++ arrow ++ (head.val ++ variants.write) ++
      rbrace :: rest.write)

/-- Variants as they are written. -/
def Variants.write : Variants → Str
  | .nil => []
  | .cons starred key lead body trail rest =>
    writeMark starred key.val ++ (lead.val ++ body.write ++ trail.val ++ rest.write)

end

/-! ### What it comes to -/

/-- Whether a variant's key matches the value of an arg, where it has one. -/
def Cut.matched (value : Option Str) (cut : Cut) : Bool := value.any (matchesKey cut.key)

/-- **The variant a select comes to**: the first that the value matches, else the first that
is starred. -/
def pick (value : Option Str) (variants : List Cut) : Option Cut :=
  (variants.find? (·.matched value)).or (variants.find? (·.starred))

mutual

/-- **What a pattern comes to.** -/
def Pattern.render (args : Dict Str Str) : Pattern → Str
  | .nil => []
  | .char c _ rest => c :: rest.render args
  | .placeable _ name _ rest => argText args name.val ++ rest.render args
  | .select _ name _ _ variants rest =>
    ((pick (args.get? name.val) (variants.render args)).map Cut.text).getD [] ++
      rest.render args

/-- What each variant comes to. -/
def Variants.render (args : Dict Str Str) : Variants → List Cut
  | .nil => []
  | .cons starred key _ body _ rest => ⟨starred, key.val, body.render args⟩ :: rest.render args

end

/-! ### Well-formedness -/

/-- The variants, each with the whole of its text. -/
def Variants.written : Variants → List Cut
  | .nil => []
  | .cons starred key lead body trail rest =>
    ⟨starred, key.val, lead.val ++ body.write ++ trail.val⟩ :: rest.written

/-- No text begins a line with a bracket, or with a star and a bracket, as a variant does. -/
def Pattern.unbracketed : Bool → Pattern → Bool
  | _, .nil => true
  | startsLine, .char c _ rest =>
    !(startsLine && ([lbracket] <+: c :: rest.write || [star, lbracket] <+: c :: rest.write)) &&
      rest.unbracketed (c = newline || startsLine && isspace c)
  | _, .placeable _ _ _ rest => rest.unbracketed false
  | _, .select _ _ _ _ _ rest => rest.unbracketed false

mutual

/-- **A pattern that reads in one way only**: each variant is on a line of its own, exactly
one of a select's is starred, and what surrounds a variant is not of its pattern. -/
def Pattern.wellFormed : Pattern → Bool
  | .nil => true
  | .char _ _ rest => rest.wellFormed
  | .placeable _ _ _ rest => rest.wellFormed
  | .select _ _ _ head variants rest =>
    newline ∈ head.val && variants.written.countP (·.starred) = 1 && variants.wellFormed &&
      rest.wellFormed

/-- Each variant is well-formed, and the next is on a line of its own. -/
def Variants.wellFormed : Variants → Bool
  | .nil => true
  | .cons _ _ lead body trail rest =>
    Text.strip isspace body.write = body.write && body.unbracketed (newline ∈ lead.val) &&
      (rest.written = [] || newline ∈ trail.val) && body.wellFormed && rest.wellFormed

end

/-! ### The marks of a select -/

/-- A variant of a select. -/
structure Variant where
  starred : Bool
  key : Ident
  lead : Blank
  body : Pattern
  trail : Blank

namespace Variant

/-- A variant with the whole of its text. -/
def written (V : Variant) : Cut := ⟨V.starred, V.key.val, V.lead.val ++ V.body.write ++ V.trail.val⟩

/-- A variant with what it comes to. -/
def rendered (args : Dict Str Str) (V : Variant) : Cut := ⟨V.starred, V.key.val, V.body.render args⟩

end Variant

namespace Variants

/-- The variants in a list. -/
def toList : Variants → List Variant
  | .nil => []
  | .cons starred key lead body trail rest => ⟨starred, key, lead, body, trail⟩ :: rest.toList

theorem written_eq : ∀ variants : Variants, variants.written = variants.toList.map Variant.written
  | .nil => rfl
  | .cons _ _ _ _ _ rest => congrArg (_ :: ·) rest.written_eq

theorem render_eq (args : Dict Str Str) : ∀ variants : Variants,
    variants.render args = variants.toList.map (Variant.rendered args)
  | .nil => by rw [render]; rfl
  | .cons _ _ _ _ _ rest => by rw [render, rest.render_eq args]; rfl

/-- A variant's pattern is well-formed, and stripped. -/
theorem stripped_of_mem : ∀ {variants : Variants}, variants.wellFormed = true →
    ∀ V ∈ variants.toList, Text.strip isspace V.body.write = V.body.write ∧
      V.body.wellFormed = true
  | .nil, _, V, hV => by cases hV
  | .cons _ _ _ _ _ rest, h, V, hV => by
    rw [wellFormed] at h
    simp only [Bool.and_eq_true, decide_eq_true_eq] at h
    obtain ⟨⟨⟨⟨hstrip, -⟩, -⟩, hbody⟩, hrest⟩ := h
    rcases List.mem_cons.mp hV with rfl | hV
    · exact ⟨hstrip, hbody⟩
    · exact stripped_of_mem hrest V hV

end Variants

/-- A select comes to one of its variants, and the variant picked as it is written is the
one picked as it is rendered. -/
theorem exists_pick (value : Option Str) {variants : List Variant}
    (hstarred : ∃ V ∈ variants, V.starred = true) :
    ∃ V ∈ variants, pick value (variants.map Variant.written) = some V.written ∧
      ∀ args, pick value (variants.map (Variant.rendered args)) = some (V.rendered args) := by
  -- Either way it is found by its key or its star alone.
  have hmatched : ∀ args, ((·.matched value) ∘ Variant.rendered args) =
      ((·.matched value) ∘ Variant.written) := fun _ => rfl
  have hstar : ∀ args, ((·.starred) ∘ Variant.rendered args) =
      ((·.starred) ∘ Variant.written) := fun _ => rfl
  simp only [pick, List.find?_map, hmatched, hstar]
  rcases hfound : variants.find? ((·.matched value) ∘ Variant.written) with _ | V
  · obtain ⟨V₀, hV₀, hs₀⟩ := hstarred
    rcases hdefault : variants.find? ((·.starred) ∘ Variant.written) with _ | V
    · exact absurd hs₀ (List.find?_eq_none.mp hdefault V₀ hV₀)
    · refine ⟨V, List.mem_of_find?_eq_some hdefault, ?_, fun args => ?_⟩ <;>
        rw [hfound, hdefault] <;> rfl
  · refine ⟨V, List.mem_of_find?_eq_some hfound, ?_, fun args => ?_⟩ <;> rw [hfound] <;> rfl

/-- The marks of a variant's text, its own first. -/
def Cut.pieces (cut : Cut) : List Cut :=
  ⟨cut.starred, cut.key, (scan 0 cut.text).1⟩ :: marks cut.text

/-- Variants begin with a mark. -/
theorem scan_write_fst : ∀ variants : Variants, (scan 0 variants.write).1 = []
  | .nil => rfl
  | .cons starred key _ _ _ _ => by
    rw [Variants.write, scan_writeMark key.2.1 key.2.2]

/-- **The marks of a select's body are those of its variants**, one variant after another. -/
theorem marks_write : ∀ {variants : Variants}, variants.wellFormed = true →
    marks variants.write = variants.written.flatMap Cut.pieces
  | .nil, _ => rfl
  | .cons starred key lead body trail rest, h => by
    rw [Variants.wellFormed] at h
    simp only [Bool.and_eq_true, Bool.or_eq_true, decide_eq_true_eq] at h
    obtain ⟨⟨⟨-, htrail⟩, -⟩, hrest⟩ := h
    rw [Variants.write, marks, scan_writeMark key.2.1 key.2.2, Variants.written,
      List.flatMap_cons, Cut.pieces, ← marks_write hrest]
    rcases htrail with hlast | hnewline
    · cases rest with
      | nil => rw [Variants.write, List.append_nil]; exact (List.append_nil _).symm
      | cons _ _ _ _ _ _ => cases hlast
    · -- The line's end keeps the two scans apart.
      obtain ⟨init, w, htext⟩ : ∃ init w, trail.val = init ++ [w] :=
        (List.eq_nil_or_concat' trail.val).resolve_left (List.ne_nil_of_mem hnewline)
      have hw : isspace w = true := trail.2 w (by rw [htext]; simp)
      have hwhole : lead.val ++ body.write ++ trail.val ++ rest.write =
          (lead.val ++ body.write ++ init) ++ w :: rest.write := by simp [htext]
      have hpart : lead.val ++ body.write ++ trail.val = lead.val ++ body.write ++ init ++ [w] := by
        simp [htext]
      rw [hwhole, hpart, marks, scan_append hw (scan_write_fst rest)]
      rfl

/-! ### Which mark is picked -/

section Consider

variable {value : Option Str}

/-- One mark of the loop. -/
theorem consider_fst (found : Option Str × Str) (cut : Cut) :
    (consider value found cut).1 =
      found.1.or (if cut.matched value then some (Text.strip isspace cut.text) else none) := by
  rcases found with ⟨_ | chosen, default⟩
  · cases value <;> rfl
  · cases value <;> rfl

/-- Marks that do not match choose nothing. -/
theorem foldl_consider_fst {cuts : List Cut} (h : ∀ cut ∈ cuts, cut.matched value = false)
    (found : Option Str × Str) : (cuts.foldl (consider value) found).1 = found.1 := by
  induction cuts generalizing found with
  | nil => rfl
  | cons cut cuts ih =>
    rw [List.foldl_cons, ih fun c hc => h c (List.mem_cons_of_mem cut hc), consider_fst,
      h cut List.mem_cons_self]
    exact Option.or_none

/-- What is chosen stays chosen. -/
theorem foldl_consider_of_some (cuts : List Cut) {found : Option Str × Str} {chosen : Str}
    (h : found.1 = some chosen) : (cuts.foldl (consider value) found).1 = some chosen := by
  induction cuts generalizing found with
  | nil => exact h
  | cons cut cuts ih =>
    refine ih ?_
    rw [consider_fst, h, Option.some_or]

/-- Marks without a star leave the default. -/
theorem foldl_consider_snd {cuts : List Cut} (h : ∀ cut ∈ cuts, cut.starred = false)
    (found : Option Str × Str) : (cuts.foldl (consider value) found).2 = found.2 := by
  induction cuts generalizing found with
  | nil => rfl
  | cons cut cuts ih =>
    rw [List.foldl_cons, ih fun c hc => h c (List.mem_cons_of_mem cut hc)]
    show (if cut.starred then _ else found.2) = _
    rw [h cut List.mem_cons_self]
    rfl

end Consider

/-- **A select that picks one of its own variants**: no bracketed key in a text before the
variant that matches is taken for it; and where none matches, no starred one in the default's
text, or after it, is taken for the default. -/
structure OwnPick (value : Option Str) (variants : List Cut) : Prop where
  matching : ∀ V ∈ variants.takeWhile (!·.matched value), ∀ cut ∈ marks V.text,
    cut.matched value = false
  default : (∀ V ∈ variants, V.matched value = false) →
    ∀ V ∈ variants.dropWhile (!·.starred), ∀ cut ∈ marks V.text, cut.starred = false

/-- **The text that is rendered is that of the variant picked, up to its first mark.** -/
theorem select_of_ownPick {selector body : Str} {args : Dict Str Str} {variants : List Cut}
    (hmarks : marks body = variants.flatMap Cut.pieces)
    (hone : variants.countP (·.starred) = 1)
    (hown : OwnPick (args.get? (selectorName selector)) variants) {V : Cut}
    (hpick : pick (args.get? (selectorName selector)) variants = some V) :
    select selector body args = Text.strip isspace (scan 0 V.text).1 := by
  unfold select
  rw [show (scan 0 body).2 = variants.flatMap Cut.pieces from hmarks]
  generalize args.get? (selectorName selector) = value at hown hpick
  dsimp only
  rcases hfound : variants.find? (·.matched value) with _ | V'
  · -- The default: nothing matches, and nothing after it is starred.
    have hnone : ∀ V ∈ variants, V.matched value = false := fun V hV => by
      simpa using List.find?_eq_none.mp hfound V hV
    rw [pick, hfound, Option.none_or] at hpick
    obtain ⟨hstar, pre, post, rfl, hpre⟩ := List.find?_eq_some_iff_append.mp hpick
    have hmatching := hown.matching
    rw [List.takeWhile_eq_self_iff.mpr fun V hV => by rw [hnone V hV]; rfl] at hmatching
    have hdefault := hown.default hnone
    rw [List.dropWhile_append_of_pos hpre, List.dropWhile_cons_of_neg (by simp [hstar])] at hdefault
    have hpost : ∀ V' ∈ post, V'.starred = false := by
      have hzero : pre.countP (·.starred) = 0 :=
        List.countP_eq_zero.mpr fun V' hV' => by simpa using hpre V' hV'
      rw [List.countP_append, List.countP_cons_of_pos hstar, hzero, Nat.zero_add] at hone
      have hcount : post.countP (·.starred) = 0 := Nat.succ.inj hone
      exact fun V' hV' => by simpa using List.countP_eq_zero.mp hcount V' hV'
    have hchosen : ∀ cut ∈ (pre ++ V :: post).flatMap Cut.pieces, cut.matched value = false := by
      intro cut hcut
      obtain ⟨V', hV', hcut⟩ := List.mem_flatMap.mp hcut
      rcases List.mem_cons.mp hcut with rfl | hcut
      · exact hnone V' hV'
      · exact hmatching V' hV' cut hcut
    have hrest : ∀ cut ∈ marks V.text ++ post.flatMap Cut.pieces, cut.starred = false := by
      intro cut hcut
      rcases List.mem_append.mp hcut with hcut | hcut
      · exact hdefault V List.mem_cons_self cut hcut
      · obtain ⟨V', hV', hcut⟩ := List.mem_flatMap.mp hcut
        rcases List.mem_cons.mp hcut with rfl | hcut
        · exact hpost V' hV'
        · exact hdefault V' (List.mem_cons_of_mem V hV') cut hcut
    rw [foldl_consider_fst hchosen, List.flatMap_append, List.flatMap_cons, Cut.pieces,
      List.foldl_append, List.cons_append, List.foldl_cons, foldl_consider_snd hrest]
    exact if_pos hstar
  · -- The first variant that matches: no mark before it does.
    rw [pick, hfound, Option.some_or] at hpick
    obtain rfl := Option.some.inj hpick
    obtain ⟨hmatch, pre, post, rfl, hpre⟩ := List.find?_eq_some_iff_append.mp hfound
    have hmatching := hown.matching
    rw [List.takeWhile_append_of_pos hpre, List.takeWhile_cons_of_neg (by simp [hmatch]),
      List.append_nil] at hmatching
    have hchosen : ∀ cut ∈ pre.flatMap Cut.pieces, cut.matched value = false := by
      intro cut hcut
      obtain ⟨V, hV, hcut⟩ := List.mem_flatMap.mp hcut
      rcases List.mem_cons.mp hcut with rfl | hcut
      · have hunmatched : V.matched value = false := by simpa using hpre V hV
        exact hunmatched
      · exact hmatching V hV cut hcut
    have hown' : (consider value ((pre.flatMap Cut.pieces).foldl (consider value) (none, []))
        ⟨V'.starred, V'.key, (scan 0 V'.text).1⟩).1 =
          some (Text.strip isspace (scan 0 V'.text).1) := by
      rw [consider_fst, foldl_consider_fst hchosen]
      exact if_pos hmatch
    rw [List.flatMap_append, List.flatMap_cons, Cut.pieces, List.foldl_append, List.cons_append,
      List.foldl_cons, foldl_consider_of_some _ hown']
    rfl

/-! ### One item rendered -/

theorem reference_chars {lead trail : Blank} {name : Ident} {c : CodePoint}
    (hc : c ∈ reference lead name trail) : isspace c = true ∨ c = dollar ∨ isKeyChar c = true := by
  simp only [reference, List.mem_append, List.mem_cons] at hc
  rcases hc with (hc | rfl | hc) | hc
  · exact Or.inl (lead.2 c hc)
  · exact Or.inr (Or.inl rfl)
  · exact Or.inr (Or.inr (name.2.2 c hc))
  · exact Or.inl (trail.2 c hc)

/-- A reference is cut nowhere. -/
theorem not_mem_reference {lead trail : Blank} {name : Ident} {d : CodePoint} (hd : Delimiter d) :
    d ∉ reference lead name trail := by
  intro hmem
  rcases reference_chars hmem with h | rfl | h
  · exact ne_of_isspace h hd rfl
  · cases hd
  · exact ne_of_isKeyChar h hd rfl

/-- A reference stripped is the arg's name after its dollar. -/
theorem strip_reference (lead trail : Blank) (name : Ident) :
    Text.strip isspace (reference lead name trail) = dollar :: name.val := by
  rw [reference, Text.strip_append lead.2 trail.2]
  refine Text.strip_eq_self ?_ fun c hc => ?_
  · rintro c hc
    obtain rfl := Option.some.inj hc
    decide
  · rcases List.mem_cons.mp (List.mem_of_getLast? hc) with rfl | hname
    · decide
    · refine Bool.eq_false_iff.mpr fun hspace => ?_
      have hkey := name.2.2 c hname
      rw [isKeyChar_of_isspace hspace] at hkey
      cases hkey

theorem selectorName_reference (lead trail : Blank) (name : Ident) :
    selectorName (reference lead name trail) = name.val := by
  rw [selectorName, strip_reference]
  exact Text.removePrefix_append [dollar] name.val

theorem balanced_reference (lead trail : Blank) (name : Ident) :
    Balanced (reference lead name trail) := by
  refine balanced_of_forall fun c hc => ⟨?_, ?_⟩
  · rintro rfl
    exact not_mem_reference .lbrace hc
  · rintro rfl
    exact not_mem_reference .rbrace hc

theorem balanced_blank (blank : Blank) : Balanced blank.val :=
  balanced_of_forall fun c hc =>
    ⟨ne_of_isspace (blank.2 c hc) .lbrace, ne_of_isspace (blank.2 c hc) .rbrace⟩

theorem balanced_arrow : Balanced arrow :=
  balanced_of_forall (by decide)

/-- **A placeable is rendered as its arg.** -/
theorem pattern_reference (args : Dict Str Str) (lead trail : Blank) (name : Ident) (rest : Str) :
    pattern args (lbrace :: (reference lead name trail ++ rbrace :: rest)) =
      (pattern args rest).map (argText args name.val ++ ·) := by
  have hhead : arrowhead ∈ arrow := List.mem_cons_of_mem _ List.mem_cons_self
  rw [pattern_placeable ((balanced_reference lead trail name).close rest), placeable,
    Text.partitionOn_of_not_mem hhead (not_mem_reference .arrowhead)]
  have hdollar : [dollar] <+: dollar :: name.val := List.prefix_append [dollar] name.val
  have hname : Text.removePrefix [dollar] (dollar :: name.val) = name.val :=
    Text.removePrefix_append [dollar] name.val
  dsimp only
  rw [strip_reference, if_neg (not_not.mpr hdollar), hname]
  rfl

/-- **A select is rendered as the variant it picks.** -/
theorem pattern_select (args : Dict Str Str) (lead trail : Blank) (name : Ident) {body : Str}
    (hbody : Balanced body) (rest : Str) :
    pattern args (lbrace :: (reference lead name trail ++ arrow ++ body ++ rbrace :: rest)) = (do
      let out ← pattern args (select (reference lead name trail) body args)
      let more ← pattern args rest
      return out ++ more) := by
  have hinner := ((balanced_reference lead trail name).append balanced_arrow).append hbody
  have hcut : Text.partitionOn arrow (reference lead name trail ++ arrow ++ body) =
      (reference lead name trail, arrow, body) :=
    Text.partitionOn_append (by decide) (not_mem_reference .arrowhead) body
  rw [pattern_placeable (hinner.close rest), placeable, hcut]
  rfl

mutual

/-- A pattern's braces are balanced. -/
theorem Pattern.balanced_write : ∀ P : Pattern, Balanced P.write
  | .nil => balanced_nil
  | .char c hc rest => (balanced_singleton hc.1 hc.2).append rest.balanced_write
  | .placeable lead name trail rest => by
    have hitem := (balanced_reference lead trail name).braced.append rest.balanced_write
    rw [Pattern.write]
    simpa using hitem
  | .select lead name trail head variants rest => by
    have hinner := ((balanced_reference lead trail name).append balanced_arrow).append
      ((balanced_blank head).append variants.balanced_write)
    have hitem := hinner.braced.append rest.balanced_write
    rw [Pattern.write]
    simpa using hitem

/-- So are those of variants. -/
theorem Variants.balanced_write : ∀ variants : Variants, Balanced variants.write
  | .nil => balanced_nil
  | .cons starred key lead body trail rest =>
    (balanced_writeMark key.2.2 starred).append
      ((((balanced_blank lead).append body.balanced_write).append (balanced_blank trail)).append
        rest.balanced_write)

end

/-- The inside of a select. -/
theorem balanced_select (lead : Blank) (name : Ident) (trail head : Blank) (variants : Variants) :
    Balanced (reference lead name trail ++ arrow ++ (head.val ++ variants.write)) :=
  ((balanced_reference lead trail name).append balanced_arrow).append
    ((balanced_blank head).append variants.balanced_write)

/-! ### What is cut short -/

/-- **What a rendering shows of a text**: the text, where it is whole; else a shorter one, or
none at all. -/
structure Shows (result : Except UnclosedPlaceable Str) (text : Str) (whole : Prop) : Prop where
  all : whole → result = .ok text
  short : ¬whole → ∀ out, result = .ok out → out.length < text.length

namespace Shows

variable {result result' : Except UnclosedPlaceable Str} {text text' : Str} {whole whole' : Prop}

theorem iff (h : Shows result text whole) : result = .ok text ↔ whole := by
  refine ⟨fun heq => ?_, h.all⟩
  by_contra hnot
  exact absurd (h.short hnot text heq) (lt_irrefl _)

/-- It is never longer. -/
theorem length_le (h : Shows result text whole) {out : Str} (hout : result = .ok out) :
    out.length ≤ text.length := by
  by_cases hw : whole
  · rw [h.all hw] at hout
    rw [Except.ok.inj hout]
  · exact (h.short hw out hout).le

theorem congr (h : Shows result text whole) (hiff : whole' ↔ whole) : Shows result text whole' :=
  ⟨fun hall => h.all (hiff.mp hall), fun hnot => h.short fun hall => hnot (hiff.mpr hall)⟩

theorem prepend (h : Shows result text whole) (s : Str) :
    Shows (result.map (s ++ ·)) (s ++ text) whole := by
  refine ⟨fun hwhole => by rw [h.all hwhole]; rfl, fun hnot out hout => ?_⟩
  rcases result with e | shown
  · cases hout
  · obtain rfl := Except.ok.inj hout
    have hlt := h.short hnot shown rfl
    simp only [List.length_append]
    omega

theorem append (h : Shows result text whole) (h' : Shows result' text' whole') :
    Shows (do
      let out ← result
      let more ← result'
      return out ++ more) (text ++ text') (whole ∧ whole') := by
  refine ⟨fun hwhole => by rw [h.all hwhole.1, h'.all hwhole.2]; rfl, fun hnot out hout => ?_⟩
  rcases result with e | shown
  · cases hout
  rcases result' with e | shown'
  · cases hout
  obtain rfl : shown ++ shown' = out := Except.ok.inj hout
  simp only [List.length_append]
  -- Neither is longer than its text, and one is shorter.
  have hle := h.length_le rfl
  have hle' := h'.length_le rfl
  by_cases hw : whole
  · have hlt := h'.short (fun hw' => hnot ⟨hw, hw'⟩) shown' rfl
    omega
  · have hlt := h.short hw shown rfl
    omega

end Shows

/-- A text that ends, or goes on with whitespace and a bracket or a star. -/
def Stops (rest : Str) : Prop :=
  rest = [] ∨ ∃ c, rest.find? (!isspace ·) = some c ∧ (c = lbracket ∨ c = star)

/-- A brace is neither. -/
theorem not_stops_brace {c : CodePoint} (hc : c = lbrace ∨ c = rbrace) (rest : Str) :
    ¬Stops (c :: rest) := by
  have hspace : isspace c = false := by rcases hc with rfl | rfl <;> rfl
  rintro (hnil | ⟨d, hfind, hd⟩)
  · cases hnil
  · rw [List.find?_cons_of_pos (by simp [hspace])] at hfind
    obtain rfl := Option.some.inj hfind
    rcases hc with rfl | rfl <;> exact hd.elim nofun nofun

/-- Nor is what is left of a reference. -/
theorem not_stops_reference {lead trail : Blank} {name : Ident} {s : Str}
    (hs : s <:+ reference lead name trail) (rest : Str) : ¬Stops (s ++ rbrace :: rest) := by
  intro hstops
  rcases hfirst : s.find? (!isspace ·) with _ | d
  · refine not_stops_brace (Or.inr rfl) rest (hstops.elim (fun hnil => by simp at hnil) ?_)
    rintro ⟨c, hfind, hc⟩
    rw [List.find?_append, hfirst, Option.none_or] at hfind
    exact Or.inr ⟨c, hfind, hc⟩
  · rcases hstops with hnil | ⟨c, hfind, hc⟩
    · simp at hnil
    rw [List.find?_append, hfirst, Option.some_or] at hfind
    obtain rfl := Option.some.inj hfind
    have href := hs.subset (List.mem_of_find?_eq_some hfirst)
    rcases hc with rfl | rfl
    · exact not_mem_reference .lbracket href
    · exact not_mem_reference .star href

/-- A select holds the mark of its first variant. -/
theorem exists_mark {variants : Variants} (hstarred : variants.written ≠ []) (pre rest : Str) :
    ∃ t, t <:+: pre ++ variants.write ++ rest ∧ mark t ≠ none := by
  cases variants with
  | nil => exact absurd rfl hstarred
  | cons starred key lead body trail more =>
    refine ⟨writeMark starred key.val,
      ⟨pre, lead.val ++ body.write ++ trail.val ++ more.write ++ rest, ?_⟩, ?_⟩
    · simp [Variants.write]
    · have hread := mark_writeMark key.2.1 key.2.2 starred []
      rw [List.append_nil] at hread
      rw [hread]
      exact Option.some_ne_none _

/-- **What is cut at its first mark is cut short**: a pattern's text up to there is rendered
as all of the pattern, where that is all, and else as less of it, or not at all. -/
theorem shows_prefix (args : Dict Str Str) : ∀ {P : Pattern}, P.wellFormed = true →
    ∀ {pre rest : Str}, P.write = pre ++ rest → Stops rest → (∀ t, t <:+: pre → mark t = none) →
      Shows (pattern args pre) (P.render args) (rest = [])
  | .nil, _, pre, rest, hwrite, _, _ => by
    obtain ⟨rfl, rfl⟩ := List.append_eq_nil_iff.mp hwrite.symm
    exact ⟨fun _ => pattern_nil args, fun hnot => absurd rfl hnot⟩
  | .char c hc more, hwf, pre, rest, hwrite, hstops, hnone => by
    rw [Pattern.write] at hwrite
    rw [Pattern.wellFormed] at hwf
    rw [Pattern.render]
    rcases pre with _ | ⟨d, pre⟩
    · rw [List.nil_append] at hwrite
      subst hwrite
      refine ⟨fun hnil => absurd hnil (List.cons_ne_nil _ _), fun _ out hout => ?_⟩
      rw [pattern_nil] at hout
      obtain rfl := Except.ok.inj hout
      exact Nat.succ_pos _
    · obtain ⟨rfl, htail⟩ := List.cons.inj hwrite
      have hmore : Shows (pattern args pre) (more.render args) (rest = []) :=
        shows_prefix args hwf htail hstops fun t ht =>
          hnone t (ht.trans (List.suffix_cons c pre).isInfix)
      rw [pattern_cons hc.1]
      exact hmore.prepend [c]
  | .placeable lead name trail more, hwf, pre, rest, hwrite, hstops, hnone => by
    rw [Pattern.write] at hwrite
    rw [Pattern.wellFormed] at hwf
    rw [Pattern.render]
    rcases pre with _ | ⟨d, pre⟩
    · rw [List.nil_append] at hwrite
      subst hwrite
      exact absurd hstops (not_stops_brace (Or.inl rfl) _)
    obtain ⟨rfl, htail⟩ := List.cons.inj hwrite
    rcases List.append_eq_append_iff.mp htail with ⟨s, rfl, hs⟩ | ⟨s, href, rfl⟩
    · -- The whole placeable is there.
      rcases s with _ | ⟨d, pre⟩
      · rw [List.nil_append] at hs
        subst hs
        exact absurd hstops (not_stops_brace (Or.inr rfl) _)
      · obtain ⟨rfl, hmore⟩ := List.cons.inj hs
        have hpre : pre <:+: lbrace :: (reference lead name trail ++ rbrace :: pre) :=
          ⟨lbrace :: (reference lead name trail ++ [rbrace]), [], by simp⟩
        have hshows : Shows (pattern args pre) (more.render args) (rest = []) :=
          shows_prefix args hwf hmore hstops fun t ht => hnone t (ht.trans hpre)
        rw [pattern_reference]
        exact hshows.prepend _
    · exact absurd hstops (not_stops_reference ⟨pre, href.symm⟩ _)
  | .select lead name trail head variants more, hwf, pre, rest, hwrite, hstops, hnone => by
    rw [Pattern.write] at hwrite
    rcases pre with _ | ⟨d, pre⟩
    · rw [List.nil_append] at hwrite
      subst hwrite
      exact absurd hstops (not_stops_brace (Or.inl rfl) _)
    obtain ⟨rfl, htail⟩ := List.cons.inj hwrite
    have hbalanced := balanced_select lead name trail head variants
    rcases List.append_eq_append_iff.mp htail with ⟨s, rfl, hs⟩ | ⟨s, hinner, rfl⟩
    · -- The whole select is there, with a mark in it.
      rw [Pattern.wellFormed] at hwf
      simp only [Bool.and_eq_true, decide_eq_true_eq] at hwf
      obtain ⟨⟨⟨-, hone⟩, -⟩, -⟩ := hwf
      have hne : variants.written ≠ [] := by
        intro hnil
        rw [hnil] at hone
        cases hone
      obtain ⟨t, ht, hmark⟩ := exists_mark hne
        (lbrace :: (reference lead name trail ++ arrow ++ head.val)) s
      refine absurd (hnone t ?_) hmark
      simpa using ht
    · -- It is left unclosed.
      have hunclosed := hbalanced.close_prefix ⟨s, hinner.symm⟩
      refine ⟨fun hnil => absurd hnil (by simp), fun _ out hout => ?_⟩
      rw [pattern_unclosed hunclosed] at hout
      cases hout

/-- **Where a variant is cut**: its text up to the first mark, stripped, is its pattern up to
there. -/
theorem exists_cut (lead trail : Blank) {body : Str} (hstrip : Text.strip isspace body = body) :
    ∃ rest, body = Text.strip isspace (scan 0 (lead.val ++ body ++ trail.val)).1 ++ rest ∧
      (rest = [] ↔ marks (lead.val ++ body ++ trail.val) = []) ∧ Stops rest ∧
        ∀ t, t <:+: Text.strip isspace (scan 0 (lead.val ++ body ++ trail.val)).1 →
          mark t = none := by
  obtain ⟨rest, htext, hnil, hcons, hnone⟩ := scan_first (lead.val ++ body ++ trail.val)
  generalize (scan 0 (lead.val ++ body ++ trail.val)).1 = cut at htext hnone ⊢
  have hstripped : ∀ t, t <:+: Text.strip isspace cut → mark t = none :=
    fun t ht => hnone t (ht.trans (Text.strip_isInfix _ _))
  by_cases hmarks : marks (lead.val ++ body ++ trail.val) = []
  · -- No mark: the whole of it.
    rw [hnil hmarks, List.append_nil] at htext
    rw [← htext, Text.strip_append lead.2 trail.2, hstrip] at hstripped ⊢
    exact ⟨[], (List.append_nil _).symm, ⟨fun _ => hmarks, fun _ => rfl⟩, Or.inl rfl, hstripped⟩
  · obtain ⟨c, more, rfl, hc⟩ := hcons hmarks
    have hdelimiter : Delimiter c := by
      rcases hc with rfl | rfl
      · exact .lbracket
      · exact .star
    -- A mark begins in neither end.
    have hnot : ∀ blank : Blank, ∀ s t, blank.val ≠ s ++ c :: t := fun blank s t heq =>
      ne_of_isspace (blank.2 c (by rw [heq]; simp)) hdelimiter rfl
    obtain ⟨front, rfl, hrest⟩ : ∃ front, cut = lead.val ++ front ∧
        body ++ trail.val = front ++ c :: more := by
      rw [List.append_assoc] at htext
      rcases List.append_eq_append_iff.mp htext with ⟨s, hs, hsrest⟩ | ⟨s, hs, hsrest⟩
      · exact ⟨s, hs, hsrest⟩
      · rcases s with _ | ⟨d, s⟩
        · exact ⟨[], by rw [hs, List.append_nil, List.append_nil], hsrest.symm⟩
        · obtain ⟨rfl, -⟩ := List.cons.inj hsrest
          exact absurd hs (hnot lead _ _)
    obtain ⟨tail, hbody⟩ : ∃ tail, body = front ++ c :: tail := by
      rcases List.append_eq_append_iff.mp hrest with ⟨s, -, hs⟩ | ⟨s, hs, hsrest⟩
      · exact absurd hs (hnot trail _ _)
      · rcases s with _ | ⟨d, s⟩
        · exact absurd hsrest.symm (hnot trail [] more)
        · obtain ⟨rfl, -⟩ := List.cons.inj hsrest
          exact ⟨s, hs⟩
    obtain ⟨blank, hblank, hall⟩ := Text.exists_eq_strip_append hstrip ⟨c :: tail, hbody.symm⟩
    have hcut : Text.strip isspace (lead.val ++ front) = Text.strip isspace front := by
      have hends := Text.strip_append lead.2 (List.forall_mem_nil _) front
      rwa [List.append_nil] at hends
    refine ⟨blank ++ c :: tail, ?_, ⟨fun h => absurd h (by simp), fun h => absurd h hmarks⟩,
      Or.inr ⟨c, ?_, hc⟩, hstripped⟩
    · rw [hcut, ← List.append_assoc, ← hblank, ← hbody]
    · have hskip : blank.find? (!isspace ·) = none :=
        List.find?_eq_none.mpr fun d hd => by simp [hall d hd]
      rw [List.find?_append, hskip, Option.none_or,
        List.find?_cons_of_pos (by simp [hdelimiter.isspace_eq_false])]

/-! ### A pattern as Fluent reads it -/

namespace Pattern

/-- Every select of the pattern picks one of its own variants. -/
def OwnPicks (args : Dict Str Str) : Pattern → Prop
  | .nil => True
  | .char _ _ rest => rest.OwnPicks args
  | .placeable _ _ _ rest => rest.OwnPicks args
  | .select _ name _ _ variants rest =>
    OwnPick (args.get? name.val) variants.written ∧ rest.OwnPicks args

/-- No variant that a select of the pattern comes to holds a bracketed key. -/
def Uncut (args : Dict Str Str) : Pattern → Prop
  | .nil => True
  | .char _ _ rest => rest.Uncut args
  | .placeable _ _ _ rest => rest.Uncut args
  | .select _ name _ _ variants rest =>
    (∀ V, pick (args.get? name.val) variants.written = some V → marks V.text = []) ∧
      rest.Uncut args

/-- **A pattern rendered is what it comes to, where no variant it comes to is cut**, and else
less, or nothing at all. -/
theorem shows_write (args : Dict Str Str) : ∀ {P : Pattern}, P.wellFormed = true →
    P.OwnPicks args → Shows (pattern args P.write) (P.render args) (P.Uncut args)
  | .nil, _, _ => ⟨fun _ => pattern_nil args, fun hnot => absurd trivial hnot⟩
  | .char c hc rest, hwf, hown => by
    rw [wellFormed] at hwf
    rw [write, render, pattern_cons hc.1]
    exact (shows_write args hwf hown).prepend [c]
  | .placeable lead name trail rest, hwf, hown => by
    rw [wellFormed] at hwf
    rw [write, render, pattern_reference]
    exact (shows_write args hwf hown).prepend _
  | .select lead name trail head variants rest, hwf, hown => by
    rw [wellFormed] at hwf
    simp only [Bool.and_eq_true, decide_eq_true_eq] at hwf
    obtain ⟨⟨⟨-, hone⟩, hvariants⟩, hrest⟩ := hwf
    obtain ⟨hpick, hown⟩ := hown
    have hstarred : ∃ V ∈ variants.toList, V.starred = true := by
      rw [variants.written_eq] at hone
      obtain ⟨cut, hcut, hstar⟩ := List.countP_pos_iff.mp (hone ▸ Nat.one_pos)
      obtain ⟨V, hV, rfl⟩ := List.mem_map.mp hcut
      exact ⟨V, hV, hstar⟩
    obtain ⟨V, hV, hwritten, hrendered⟩ := exists_pick (args.get? name.val) hstarred
    rw [← variants.written_eq] at hwritten
    obtain ⟨hstrip, hbody⟩ := Variants.stripped_of_mem hvariants V hV
    have hmarks : marks (head.val ++ variants.write) = variants.written.flatMap Cut.pieces := by
      rw [marks_blank head.2, marks_write hvariants]
    have hname := selectorName_reference lead trail name
    have hselect : Diagnostic.select (reference lead name trail) (head.val ++ variants.write) args =
        Text.strip isspace (scan 0 V.written.text).1 :=
      select_of_ownPick hmarks hone (by rw [hname]; exact hpick) (by rw [hname]; exact hwritten)
    obtain ⟨more, hcut, hall, hstops, hnone⟩ := exists_cut V.lead V.trail hstrip
    have hvariant := shows_prefix args hbody hcut hstops hnone
    have hbalanced : Balanced (head.val ++ variants.write) :=
      (balanced_blank head).append variants.balanced_write
    rw [write, render, pattern_select args lead trail name hbalanced, hselect, variants.render_eq,
      hrendered args]
    refine (hvariant.append (shows_write args hrest hown)).congr ?_
    rw [Uncut, hwritten, hall]
    refine and_congr_left fun _ => ⟨fun h => h V.written rfl, fun h V' hV' => ?_⟩
    rw [← Option.some.inj hV']
    exact h

/-- **Where every select picks one of its own variants, a pattern is rendered as Fluent reads
it if and only if no variant rendered holds a bracketed key.** -/
theorem renders_iff {P : Pattern} (hwf : P.wellFormed = true) {args : Dict Str Str}
    (hown : P.OwnPicks args) :
    pattern args P.write = .ok (P.render args) ↔ P.Uncut args :=
  (shows_write args hwf hown).iff

/-- No variant of the pattern's selects holds a bracketed key. -/
def Plain : Pattern → Prop
  | .nil => True
  | .char _ _ rest => rest.Plain
  | .placeable _ _ _ rest => rest.Plain
  | .select _ _ _ _ variants rest => (∀ V ∈ variants.written, marks V.text = []) ∧ rest.Plain

theorem Plain.ownPicks (args : Dict Str Str) : ∀ {P : Pattern}, P.Plain → P.OwnPicks args
  | .nil, _ => trivial
  | .char _ _ rest, h => Plain.ownPicks args (P := rest) h
  | .placeable _ _ _ rest, h => Plain.ownPicks args (P := rest) h
  | .select _ _ _ _ _ _, ⟨hvariants, hrest⟩ => by
    refine ⟨⟨fun V hV cut hcut => ?_, fun _ V hV cut hcut => ?_⟩, hrest.ownPicks args⟩
    · rw [hvariants V ((List.takeWhile_sublist _).subset hV)] at hcut
      cases hcut
    · rw [hvariants V ((List.dropWhile_sublist _).subset hV)] at hcut
      cases hcut

theorem Plain.uncut (args : Dict Str Str) : ∀ {P : Pattern}, P.Plain → P.Uncut args
  | .nil, _ => trivial
  | .char _ _ rest, h => Plain.uncut args (P := rest) h
  | .placeable _ _ _ rest, h => Plain.uncut args (P := rest) h
  | .select _ _ _ _ _ _, ⟨hvariants, hrest⟩ => by
    refine ⟨fun V hV => hvariants V ?_, hrest.uncut args⟩
    rcases Option.or_eq_some_iff.mp hV with hfound | ⟨-, hfound⟩
    · exact List.mem_of_find?_eq_some hfound
    · exact List.mem_of_find?_eq_some hfound

/-- **A pattern without bracketed keys in its variants is rendered as Fluent reads it**,
whatever the args. -/
theorem Plain.renders {P : Pattern} (h : P.Plain) (hwf : P.wellFormed = true)
    (args : Dict Str Str) : pattern args P.write = .ok (P.render args) :=
  (shows_write args hwf (h.ownPicks args)).all (h.uncut args)

/-! ### Patterns at work -/

/-- Text, its braces left out. -/
def text : Str → Pattern → Pattern
  | [], rest => rest
  | c :: s, rest =>
    if hc : c ≠ lbrace ∧ c ≠ rbrace then .char c hc (text s rest) else text s rest

/-- A select on an arg with one variant and the default, each on its line. -/
def choice (name key : Ident) (body default : Pattern) : Pattern :=
  .select ⟨str " ", by decide⟩ name ⟨str " ", by decide⟩ ⟨str "\n", by decide⟩
    (.cons false key ⟨str " ", by decide⟩ body ⟨str "\n", by decide⟩
      (.cons true ⟨str "other", by decide⟩ ⟨str " ", by decide⟩ default ⟨str "\n", by decide⟩ .nil))
    .nil

/-- A plural: `one run`, else the number of runs. -/
def runs : Pattern :=
  choice ⟨str "n", by decide⟩ ⟨str "one", by decide⟩ (text (str "one run") .nil)
    (.placeable ⟨str " ", by decide⟩ ⟨str "n", by decide⟩ ⟨str " ", by decide⟩
      (text (str " runs") .nil))

/-- A variant whose text holds a bracketed key. -/
def seeing : Pattern :=
  choice ⟨str "k", by decide⟩ ⟨str "a", by decide⟩ (text (str "see [b] x") .nil)
    (text (str "z") .nil)

/-- A variant that holds a select. -/
def nested : Pattern :=
  choice ⟨str "k", by decide⟩ ⟨str "a", by decide⟩ runs (text (str "z") .nil)

theorem renders_iff_runs :
    pattern (Dict.ofList [(str "n", str "1")]) runs.write =
      .ok (runs.render (Dict.ofList [(str "n", str "1")])) := by
  have hplain : runs.Plain := ⟨by decide, trivial⟩
  exact (renders_iff (by decide) (hplain.ownPicks _)).mpr (hplain.uncut _)

/-- **A variant is cut at a bracketed key, and a select in one is left unclosed.** -/
theorem variant_cut :
    (seeing.wellFormed = true ∧
      pattern (Dict.ofList [(str "k", str "a")]) seeing.write = .ok (str "see") ∧
        seeing.render (Dict.ofList [(str "k", str "a")]) = str "see [b] x") ∧
    nested.wellFormed = true ∧
      pattern (Dict.ofList [(str "k", str "a"), (str "n", str "1")]) nested.write =
          .error ⟨str "\x7b $n ->"⟩ ∧
        nested.render (Dict.ofList [(str "k", str "a"), (str "n", str "1")]) = str "one run" := by
  decide

end Pattern

end Diagnostic

end AngzarrClient
