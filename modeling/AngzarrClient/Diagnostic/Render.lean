import AngzarrClient.Diagnostic

/-!
# An error's English

A catalog's pattern is text with placeables between braces: an arg's value, or a select
expression that renders one of its variants. `AngzarrClient.Diagnostic.pattern` finds a
placeable's end by counting braces (`AngzarrClient.Diagnostic.close`) and a select's
variants by scanning its body for `[key]` and `*[key]`, wherever they stand
(`AngzarrClient.Diagnostic.scan`).

An arg's value is put into the output and never looked at again: only a select reads one,
to compare it with its keys. So the output of a pattern is text with holes where an arg
that no select reads was put, the same text and the same holes whatever its value
(`AngzarrClient.Diagnostic.exists_pieces`), and a value cannot pull in another arg, choose
a variant, hide text or make the rendering raise
(`AngzarrClient.Diagnostic.values_never_read`).

Args are the text `str` gives of them, as an error's details are.
-/

namespace AngzarrClient

namespace Diagnostic

open Utf8

/-! ### Characters -/

/-- `{`. -/
def lbrace : CodePoint := .scalar '\x7b'

/-- `}`. -/
def rbrace : CodePoint := .scalar '\x7d'

/-- `[`. -/
def lbracket : CodePoint := .scalar '['

/-- `]`. -/
def rbracket : CodePoint := .scalar ']'

/-- `*`. -/
def star : CodePoint := .scalar '*'

/-- `$`. -/
def dollar : CodePoint := .scalar '$'

/-- `->`. -/
def arrow : Str := str "->"

/-- `[A-Za-z0-9_-]`. -/
def isKeyChar : CodePoint → Bool
  | .scalar c => c.isAlphanum || c = '_' || c = '-'
  | .surrogate _ => false

/-! ### Variants -/

/-- A variant as the scan cuts it: its mark, and the text up to the next mark. -/
structure Cut where
  starred : Bool
  key : Str
  text : Str
  deriving DecidableEq

/-- `\[([A-Za-z0-9_-]+)\]`, at the start of a text: the key. -/
def bracketed : Str → Option Str
  | [] => none
  | c :: s =>
    let key := s.takeWhile isKeyChar
    if c = lbracket ∧ key ≠ [] ∧ [rbracket] <+: s.drop key.length then some key else none

/-- `_VARIANT`, at the start of a text: whether it is starred, its key, and how many
characters it takes after its first. -/
def mark : Str → Option (Bool × Str × ℕ)
  | [] => none
  | c :: s =>
    if c = star then (bracketed s).map fun key => (true, key, key.length + 2)
    else (bracketed (c :: s)).map fun key => (false, key, key.length + 1)

/-- `_VARIANT.finditer`: the text before the first mark, and the marks with the text after
each. The first argument counts the characters the last mark still takes. -/
def scan : ℕ → Str → Str × List Cut
  | _, [] => ([], [])
  | taken + 1, _ :: s => scan taken s
  | 0, c :: s =>
    match mark (c :: s) with
    | some (starred, key, taken) =>
      let (text, cuts) := scan taken s
      ([], ⟨starred, key, text⟩ :: cuts)
    | none =>
      let (text, cuts) := scan 0 s
      (c :: text, cuts)

/-- `_matches`. -/
def matchesKey (key value : Str) : Bool := key = value ∨ key = str "one" ∧ value = str "1"

/-- One mark of `_select`'s loop: the variant chosen so far, and the default. -/
def consider (value : Option Str) (found : Option Str × Str) (cut : Cut) : Option Str × Str :=
  let variant := Text.strip isspace cut.text
  let default := if cut.starred then variant else found.2
  let chosen :=
    match found.1, value with
    | none, some value => if matchesKey cut.key value then some variant else none
    | chosen, _ => chosen
  (chosen, default)

/-- The name of the arg a select reads. -/
def selectorName (selector : Str) : Str := Text.removePrefix [dollar] (Text.strip isspace selector)

/-- `_select`, up to its rendering: the variant of `body` the arg `selector` picks. -/
def select (selector body : Str) (args : Dict Str Str) : Str :=
  let value := args.get? (selectorName selector)
  let (chosen, default) := (scan 0 body).2.foldl (consider value) (none, [])
  chosen.getD default

/-! ### Placeables -/

/-- The `ValueError` of a placeable that is not closed, and the text from it on. -/
structure UnclosedPlaceable where
  text : Str
  deriving DecidableEq

/-- The placeables open after a character. -/
def opened (depth : ℕ) (c : CodePoint) : ℕ :=
  if c = lbrace then depth + 1 else if c = rbrace then depth - 1 else depth

/-- `_close`, from past an opening brace, `depth` of them open: the text up to the brace
that closes the outermost, and the text after that. -/
def close : ℕ → Str → Option (Str × Str)
  | _, [] => none
  | depth, c :: s =>
    if opened depth c = 0 then some ([], s)
    else (close (opened depth c) s).map fun cut => (c :: cut.1, cut.2)

/-- An arg's value, shown as `{$name}` when the args lack it. -/
def argText (args : Dict Str Str) (name : Str) : Str :=
  match args.get? name with
  | some value => value
  | none => lbrace :: dollar :: (name ++ [rbrace])

/-- `_placeable`, a select's variant rendered by `render`. -/
def placeable (render : Str → Except UnclosedPlaceable Str) (args : Dict Str Str) (inner : Str) :
    Except UnclosedPlaceable Str :=
  match Text.partitionOn arrow inner with
  | (selector, _ :: _, body) => render (select selector body args)
  | (_, [], _) =>
    let reference := Text.strip isspace inner
    if ¬[dollar] <+: reference then .ok (lbrace :: (inner ++ [rbrace]))
    else .ok (argText args (Text.removePrefix [dollar] reference))

/-- `_pattern`, on a text of at most `fuel` characters. -/
def patternFrom (args : Dict Str Str) : ℕ → Str → Except UnclosedPlaceable Str
  | _, [] => .ok []
  | 0, _ :: _ => .ok []
  | fuel + 1, c :: s =>
    if c = lbrace then
      match close 1 s with
      | none => .error ⟨c :: s⟩
      | some (inner, rest) => do
        let out ← placeable (patternFrom args fuel) args inner
        let more ← patternFrom args fuel rest
        return out ++ more
    else do
      let more ← patternFrom args fuel s
      return c :: more

/-- `_pattern`. -/
def pattern (args : Dict Str Str) (text : Str) : Except UnclosedPlaceable Str :=
  patternFrom args text.length text

example : pattern (Dict.ofList [(str "n", str "1")])
    (str "\x7b $n ->\n[one] one run\n*[other] \x7b $n \x7d runs\n\x7d") = .ok (str "one run") := by
  decide

/-! ### What is read of a text is part of it -/

/-- How a placeable closes: at its first character, or further on. -/
theorem close_cons_cases {depth : ℕ} {c : CodePoint} {s inner rest : Str}
    (h : close depth (c :: s) = some (inner, rest)) :
    (opened depth c = 0 ∧ inner = [] ∧ rest = s) ∨
      opened depth c ≠ 0 ∧
        ∃ inner', inner = c :: inner' ∧ close (opened depth c) s = some (inner', rest) := by
  rw [close] at h
  split at h
  · next hzero =>
    obtain ⟨rfl, rfl⟩ := Prod.mk.inj (Option.some.inj h)
    exact Or.inl ⟨hzero, rfl, rfl⟩
  · next hne =>
    obtain ⟨cut, hcut, heq⟩ := Option.map_eq_some_iff.mp h
    obtain ⟨rfl, rfl⟩ := Prod.mk.inj heq
    exact Or.inr ⟨hne, cut.1, rfl, hcut⟩

/-- Nothing but a closing brace closes the last open placeable. -/
theorem eq_rbrace_of_opened {depth : ℕ} {c : CodePoint} (hdepth : 0 < depth)
    (h : opened depth c = 0) : c = rbrace := by
  rw [opened] at h
  split at h
  · omega
  · split at h
    · next hc => exact hc
    · omega

/-- Closing a placeable cuts the text at a brace. -/
theorem eq_of_close {depth : ℕ} {s inner rest : Str} (hdepth : 0 < depth)
    (h : close depth s = some (inner, rest)) : s = inner ++ rbrace :: rest := by
  induction s generalizing depth inner with
  | nil => cases h
  | cons c s ih =>
    rcases close_cons_cases h with ⟨hzero, rfl, rfl⟩ | ⟨hne, inner', rfl, hclose⟩
    · rw [eq_rbrace_of_opened hdepth hzero, List.nil_append]
    · rw [List.cons_append, ← ih (Nat.pos_of_ne_zero hne) hclose]

/-- What follows a placeable does not change where it closes. -/
theorem close_append {depth : ℕ} {s inner rest : Str} (h : close depth s = some (inner, rest))
    (more : Str) : close depth (s ++ more) = some (inner, rest ++ more) := by
  induction s generalizing depth inner with
  | nil => cases h
  | cons c s ih =>
    rw [List.cons_append, close]
    rcases close_cons_cases h with ⟨hzero, rfl, rfl⟩ | ⟨hne, inner', rfl, hclose⟩
    · rw [if_pos hzero]
    · rw [if_neg hne, ih hclose, Option.map_some]

/-- The text before the first mark is at the front, and each variant's is in the text. -/
theorem scan_spec (taken : ℕ) (s : Str) :
    (scan taken s).1 <+: s.drop taken ∧ ∀ cut ∈ (scan taken s).2, cut.text <:+: s := by
  induction s generalizing taken with
  | nil => exact ⟨by simp [scan], by simp [scan]⟩
  | cons c s ih =>
    have htail : ∀ {t : Str}, t <:+: s → t <:+: c :: s := fun h =>
      h.trans (List.suffix_cons c s).isInfix
    cases taken with
    | succ taken =>
      rw [scan]
      exact ⟨(ih taken).1, fun cut hmem => htail ((ih taken).2 cut hmem)⟩
    | zero =>
      rw [scan]
      cases hmark : mark (c :: s) with
      | none =>
        exact ⟨List.cons_prefix_cons.mpr ⟨rfl, (ih 0).1⟩,
          fun cut hmem => htail ((ih 0).2 cut hmem)⟩
      | some read =>
        obtain ⟨starred, key, taken⟩ := read
        refine ⟨List.nil_prefix, fun cut hmem => htail ?_⟩
        rcases List.mem_cons.mp hmem with rfl | hmem
        · exact (ih taken).1.isInfix.trans (List.drop_suffix taken s).isInfix
        · exact (ih taken).2 cut hmem

/-- The variant a select renders is in its body. -/
theorem select_isInfix (selector body : Str) (args : Dict Str Str) :
    select selector body args <:+: body := by
  have hfold : ∀ (cuts : List Cut) (found : Option Str × Str),
      (∀ cut ∈ cuts, cut.text <:+: body) → (∀ t, found.1 = some t → t <:+: body) →
      found.2 <:+: body →
      let found := cuts.foldl (consider (args.get? (selectorName selector))) found
      found.1.getD found.2 <:+: body := by
    intro cuts
    induction cuts with
    | nil =>
      rintro ⟨_ | chosen, default⟩ _ hchosen hdefault
      · exact hdefault
      · exact hchosen chosen rfl
    | cons cut cuts ih =>
      rintro ⟨chosen, default⟩ hcuts hchosen hdefault
      have hvariant : Text.strip isspace cut.text <:+: body :=
        (Text.strip_isInfix _ _).trans (hcuts cut List.mem_cons_self)
      refine ih _ (fun c hmem => hcuts c (List.mem_cons_of_mem _ hmem)) ?_ ?_
      · intro t ht
        rcases chosen with _ | chosen
        · cases hvalue : args.get? (selectorName selector) with
          | none =>
            rw [hvalue] at ht
            cases ht
          | some value =>
            rw [hvalue] at ht
            obtain ⟨-, heq⟩ := Option.ite_none_right_eq_some.mp ht
            exact Option.some.inj heq ▸ hvariant
        · exact hchosen t ht
      · show (if cut.starred then Text.strip isspace cut.text else default) <:+: body
        split
        · exact hvariant
        · exact hdefault
  exact hfold _ (none, []) (scan_spec 0 body).2 nofun (List.nil_infix)

/-! ### The rendering, without its fuel -/

/-- A placeable's rendering asks only for texts in it to be rendered. -/
theorem placeable_congr {render render' : Str → Except UnclosedPlaceable Str} {inner : Str}
    (h : ∀ t, t <:+: inner → render t = render' t) (args : Dict Str Str) :
    placeable render args inner = placeable render' args inner := by
  unfold placeable
  rcases hcut : Text.partitionOn arrow inner with ⟨selector, _ | ⟨c, found⟩, body⟩
  · rfl
  · refine h _ ((select_isInfix selector body args).trans ?_)
    rw [Text.eq_of_partitionOn hcut]
    exact (List.suffix_append _ _).isInfix

/-- Fuel for a text's characters is enough. -/
theorem patternFrom_eq (args : Dict Str Str) {fuel fuel' : ℕ} {text : Str}
    (h : text.length ≤ fuel) (h' : text.length ≤ fuel') :
    patternFrom args fuel text = patternFrom args fuel' text := by
  induction fuel generalizing fuel' text with
  | zero =>
    obtain rfl := List.length_eq_zero_iff.mp (Nat.le_zero.mp h)
    cases fuel' <;> rfl
  | succ fuel ih =>
    cases text with
    | nil => cases fuel' <;> rfl
    | cons c s =>
      cases fuel' with
      | zero => exact absurd h' (by simp)
      | succ fuel' =>
        have hs : s.length ≤ fuel := Nat.le_of_succ_le_succ h
        have hs' : s.length ≤ fuel' := Nat.le_of_succ_le_succ h'
        rw [patternFrom, patternFrom]
        split
        · cases hclose : close 1 s with
          | none => rfl
          | some cut =>
            obtain ⟨inner, rest⟩ := cut
            have hlength := congrArg List.length (eq_of_close Nat.one_pos hclose)
            rw [List.length_append, List.length_cons] at hlength
            have hinner : ∀ t, t <:+: inner → patternFrom args fuel t = patternFrom args fuel' t :=
              fun t ht => ih (by have := ht.length_le; omega) (by have := ht.length_le; omega)
            have hrest : patternFrom args fuel rest = patternFrom args fuel' rest :=
              ih (by omega) (by omega)
            simp only [placeable_congr hinner args, hrest]
        · rw [ih hs hs']

theorem pattern_nil (args : Dict Str Str) : pattern args [] = .ok [] := rfl

/-- Text is rendered as it is. -/
theorem pattern_cons {args : Dict Str Str} {c : CodePoint} (hc : c ≠ lbrace) (s : Str) :
    pattern args (c :: s) = (pattern args s).map fun more => c :: more := by
  show patternFrom args (s.length + 1) (c :: s) = _
  rw [patternFrom, if_neg hc]
  rfl

/-- A placeable that is not closed is refused. -/
theorem pattern_unclosed {args : Dict Str Str} {s : Str} (h : close 1 s = none) :
    pattern args (lbrace :: s) = .error ⟨lbrace :: s⟩ := by
  show patternFrom args (s.length + 1) (lbrace :: s) = _
  rw [patternFrom, if_pos rfl, h]

/-- **A placeable is rendered, and then what follows it.** -/
theorem pattern_placeable {args : Dict Str Str} {s inner rest : Str}
    (h : close 1 s = some (inner, rest)) :
    pattern args (lbrace :: s) = (do
      let out ← placeable (pattern args) args inner
      let more ← pattern args rest
      return out ++ more) := by
  have hlength := congrArg List.length (eq_of_close Nat.one_pos h)
  rw [List.length_append, List.length_cons] at hlength
  have hinner : ∀ t, t <:+: inner → patternFrom args s.length t = pattern args t := fun t ht =>
    patternFrom_eq args (by have := ht.length_le; omega) le_rfl
  have hrest : patternFrom args s.length rest = pattern args rest :=
    patternFrom_eq args (by omega) le_rfl
  show patternFrom args (s.length + 1) (lbrace :: s) = _
  rw [patternFrom, if_pos rfl, h]
  simp only [placeable_congr hinner args, hrest]

/-! ### The args a pattern's selects read -/

/-- A text has a placeable, with what stands between its braces. -/
def HasPlaceable (text inner : Str) : Prop :=
  ∃ pre s rest, text = pre ++ lbrace :: s ∧ close 1 s = some (inner, rest)

/-- Some select of a text, at whatever depth, reads an arg. -/
def Reads (text name : Str) : Prop :=
  ∃ inner selector found body, HasPlaceable text inner ∧
    Text.partitionOn arrow inner = (selector, found, body) ∧ found ≠ [] ∧
      selectorName selector = name

/-- The arg the select at the start of a text reads, when one is there. -/
def selectedArg : Str → Option Str
  | [] => none
  | c :: s =>
    if c = lbrace then
      match close 1 s with
      | none => none
      | some (inner, _) =>
        match Text.partitionOn arrow inner with
        | (selector, _ :: _, _) => some (selectorName selector)
        | (_, [], _) => none
    else none

theorem selectedArg_eq_some_iff {t name : Str} :
    selectedArg t = some name ↔
      ∃ s inner rest selector found body, t = lbrace :: s ∧ close 1 s = some (inner, rest) ∧
        Text.partitionOn arrow inner = (selector, found, body) ∧ found ≠ [] ∧
          selectorName selector = name := by
  constructor
  · intro h
    unfold selectedArg at h
    split at h
    · cases h
    · next c s =>
      split at h
      · next hc =>
        rcases hclose : close 1 s with _ | ⟨inner, rest⟩
        · rw [hclose] at h
          cases h
        · rw [hclose] at h
          rcases hcut : Text.partitionOn arrow inner with ⟨selector, _ | ⟨d, found⟩, body⟩
          · simp only [hcut] at h
            cases h
          · simp only [hcut, Option.some.injEq] at h
            exact ⟨s, inner, rest, selector, d :: found, body, by rw [hc], hclose, hcut, by simp, h⟩
      · cases h
  · rintro ⟨s, inner, rest, selector, found, body, rfl, hclose, hcut, hfound, rfl⟩
    obtain ⟨d, found, rfl⟩ := List.exists_cons_of_ne_nil hfound
    simp only [selectedArg, if_true, hclose, hcut]

theorem reads_iff {text name : Str} :
    Reads text name ↔ ∃ t ∈ text.tails, selectedArg t = some name := by
  simp only [selectedArg_eq_some_iff, List.mem_tails]
  constructor
  · rintro ⟨inner, selector, found, body, ⟨pre, s, rest, rfl, hclose⟩, hcut, hfound, hname⟩
    exact ⟨lbrace :: s, List.suffix_append _ _, s, inner, rest, selector, found, body, rfl, hclose,
      hcut, hfound, hname⟩
  · rintro ⟨_, ⟨pre, rfl⟩, s, inner, rest, selector, found, body, rfl, hclose, hcut, hfound, hname⟩
    exact ⟨inner, selector, found, body, ⟨pre, s, rest, rfl, hclose⟩, hcut, hfound, hname⟩

instance (text name : Str) : Decidable (Reads text name) :=
  decidable_of_iff (∃ t ∈ text.tails, selectedArg t = some name) reads_iff.symm

/-- A part's placeables are the text's. -/
theorem HasPlaceable.of_part {t text inner : Str} (h : HasPlaceable t inner) (ht : t <:+: text) :
    HasPlaceable text inner := by
  obtain ⟨pre, s, rest, rfl, hclose⟩ := h
  obtain ⟨before, after, rfl⟩ := ht
  exact ⟨before ++ pre, s ++ after, rest ++ after, by simp, close_append hclose after⟩

theorem Reads.of_part {t text name : Str} (h : Reads t name) (ht : t <:+: text) :
    Reads text name := by
  obtain ⟨inner, selector, found, body, hplaceable, hcut⟩ := h
  exact ⟨inner, selector, found, body, hplaceable.of_part ht, hcut⟩

/-! ### Holes -/

/-- An output where an arg's value is put: a character of its own, or a hole. -/
abbrev Piece := Option CodePoint

/-- Pieces with a value in their holes. -/
def fill (value : Str) (pieces : List Piece) : Str :=
  pieces.flatMap fun
    | some c => [c]
    | none => value

/-- Text without holes. -/
def solid (s : Str) : List Piece := s.map some

@[simp] theorem fill_nil (value : Str) : fill value [] = [] := rfl

@[simp] theorem fill_append (value : Str) (p q : List Piece) :
    fill value (p ++ q) = fill value p ++ fill value q := List.flatMap_append

@[simp] theorem fill_some_cons (value : Str) (c : CodePoint) (p : List Piece) :
    fill value (some c :: p) = c :: fill value p := rfl

@[simp] theorem fill_none_cons (value : Str) (p : List Piece) :
    fill value (none :: p) = value ++ fill value p := rfl

@[simp] theorem fill_solid (value s : Str) : fill value (solid s) = s := by
  induction s with
  | nil => rfl
  | cons c s ih => exact congrArg (c :: ·) ih

/-- A select that reads another arg picks the same variant whatever the arg's value. -/
theorem select_set {selector body x : Str} (hx : selectorName selector ≠ x) (args : Dict Str Str)
    (v : Str) : select selector body (args.set x v) = select selector body args := by
  unfold select
  rw [Dict.get?_set, if_neg hx]

section Pieces

variable {x : Str} {args : Dict Str Str}

/-- A rendering that is text and holes, the same for every value of the arg. -/
def HasPieces (x : Str) (args : Dict Str Str)
    (render : Dict Str Str → Except UnclosedPlaceable Str) : Prop :=
  ∃ pieces : Except UnclosedPlaceable (List Piece), ∀ v, render (args.set x v) = pieces.map (fill v)

theorem hasPieces_solid (s : Str) : HasPieces x args fun _ => .ok s :=
  ⟨.ok (solid s), fun v => congrArg Except.ok (fill_solid v s).symm⟩

/-- An arg shown is a hole or a text of its own. -/
theorem hasPieces_argText (name : Str) : HasPieces x args fun args => .ok (argText args name) := by
  by_cases hname : name = x
  · refine ⟨.ok [none], fun v => ?_⟩
    have hshown : argText (args.set x v) name = v := by
      unfold argText
      rw [Dict.get?_set, if_pos hname]
    show Except.ok (argText (args.set x v) name) = .ok (v ++ [])
    rw [hshown, List.append_nil]
  · refine ⟨.ok (solid (argText args name)), fun v => ?_⟩
    have hshown : argText (args.set x v) name = argText args name := by
      unfold argText
      rw [Dict.get?_set, if_neg hname]
    show Except.ok (argText (args.set x v) name) = .ok (fill v (solid (argText args name)))
    rw [hshown, fill_solid]

/-- One rendering after another has the pieces of both. -/
theorem HasPieces.append {render render' : Dict Str Str → Except UnclosedPlaceable Str}
    (h : HasPieces x args render) (h' : HasPieces x args render') :
    HasPieces x args fun args => (do
      let out ← render args
      let more ← render' args
      return out ++ more) := by
  obtain ⟨pieces, hpieces⟩ := h
  obtain ⟨pieces', hpieces'⟩ := h'
  refine ⟨(do let p ← pieces; let p' ← pieces'; return p ++ p'), fun v => ?_⟩
  simp only [hpieces v, hpieces' v]
  rcases pieces with e | p
  · rfl
  · rcases pieces' with e | p'
    · rfl
    · exact congrArg Except.ok (fill_append v p p').symm

/-- What a placeable renders as: a hole where it shows the arg, and no select of it reads
the arg. -/
theorem hasPieces_placeable {inner : Str}
    (hselect : ∀ selector found body, Text.partitionOn arrow inner = (selector, found, body) →
      found ≠ [] → selectorName selector ≠ x)
    (hinner : ∀ t, t <:+: inner → HasPieces x args fun args => pattern args t) :
    HasPieces x args fun args => placeable (pattern args) args inner := by
  unfold placeable
  rcases hcut : Text.partitionOn arrow inner with ⟨selector, _ | ⟨c, found⟩, body⟩
  · -- a reference, or what is shown as written
    by_cases href : [dollar] <+: Text.strip isspace inner
    · simp only [href, not_true_eq_false, if_false]
      exact hasPieces_argText _
    · simp only [href, not_false_eq_true, if_true]
      exact hasPieces_solid _
  · -- a select on another arg: the variant it picks is in the placeable
    have hne : selectorName selector ≠ x := hselect selector (c :: found) body hcut (by simp)
    have hbody : select selector body args <:+: inner := by
      refine (select_isInfix selector body args).trans ?_
      rw [Text.eq_of_partitionOn hcut]
      exact (List.suffix_append _ _).isInfix
    obtain ⟨pieces, hpieces⟩ := hinner _ hbody
    refine ⟨pieces, fun v => ?_⟩
    show pattern (args.set x v) (select selector body (args.set x v)) = _
    rw [select_set hne]
    exact hpieces v

end Pieces

/-- **The output has holes where the arg was put**, and is otherwise the same whatever its
value: the same text, or the same refusal. -/
theorem exists_pieces {text x : Str} (hx : ¬Reads text x) (args : Dict Str Str) :
    HasPieces x args fun args => pattern args text := by
  induction hn : text.length using Nat.strong_induction_on generalizing text with
  | _ n ih =>
    cases text with
    | nil => exact hasPieces_solid []
    | cons c s =>
      have hpart : ∀ {t : Str}, t <:+: s → HasPieces x args fun args => pattern args t :=
        fun {t} ht => ih t.length (by
          have hle := ht.length_le
          rw [← hn, List.length_cons]
          omega) (fun h => hx (h.of_part (ht.trans (List.suffix_cons c s).isInfix))) rfl
      by_cases hc : c = lbrace
      · subst hc
        cases hclose : close 1 s with
        | none => exact ⟨.error ⟨lbrace :: s⟩, fun v => pattern_unclosed hclose⟩
        | some cut =>
          obtain ⟨inner, rest⟩ := cut
          have hs := eq_of_close Nat.one_pos hclose
          have hin : inner <:+: s := ⟨[], rbrace :: rest, by rw [hs, List.nil_append]⟩
          have hrest : rest <:+: s := ⟨inner ++ [rbrace], [], by simp [hs]⟩
          have hplaceable : HasPlaceable (lbrace :: s) inner := ⟨[], s, rest, rfl, hclose⟩
          simp only [pattern_placeable hclose]
          refine HasPieces.append (hasPieces_placeable ?_ fun t ht => hpart (ht.trans hin))
            (hpart hrest)
          intro selector found body hcut hfound hname
          exact hx ⟨inner, selector, found, body, hplaceable, hcut, hfound, hname⟩
      · obtain ⟨pieces, hpieces⟩ := hpart List.infix_rfl
        refine ⟨pieces.map fun p => some c :: p, fun v => ?_⟩
        simp only [pattern_cons hc, hpieces v]
        cases pieces <;> rfl

/-! ### A token in the holes -/

/-- A token occurs nowhere but where the arg was put: none of its occurrences begins at a
character of the text. -/
def Fresh (token : Str) (pieces : List Piece) : Prop :=
  ∀ c rest, some c :: rest <:+ pieces → ¬token <+: c :: fill token rest

/-- A token that begins with a character of no text occurs nowhere else. -/
theorem fresh_of_not_mem {c : CodePoint} {pieces : List Piece} (h : some c ∉ pieces)
    (token : Str) : Fresh (c :: token) pieces := by
  rintro d rest hsuffix hpre
  obtain ⟨rfl, -⟩ := List.cons_prefix_cons.mp hpre
  exact h (hsuffix.subset List.mem_cons_self)

/-- Replacing a token that occurs nowhere else puts the value in its place. -/
theorem replace_fill {token : Str} (htoken : token ≠ []) (v : Str) {pieces : List Piece}
    (hfresh : Fresh token pieces) : Text.replace token v (fill token pieces) = fill v pieces := by
  induction pieces with
  | nil => rfl
  | cons p pieces ih =>
    have hrest := ih fun c rest hsuffix => hfresh c rest (hsuffix.trans (List.suffix_cons p pieces))
    cases p with
    | some c =>
      rw [fill_some_cons, fill_some_cons,
        Text.replace_cons_of_not (hfresh c pieces List.suffix_rfl), hrest]
    | none => rw [fill_none_cons, fill_none_cons, Text.replace_append htoken, hrest]

/-- **Arg values are never read as template.** -/
theorem values_never_read {text x : Str} (hx : ¬Reads text x) (args : Dict Str Str) :
    ∃ pieces : Except UnclosedPlaceable (List Piece),
      (∀ v, pattern (args.set x v) text = pieces.map (fill v)) ∧
      ∀ v token, token ≠ [] → (∀ p, pieces = .ok p → Fresh token p) →
        pattern (args.set x v) text =
          (pattern (args.set x token) text).map (Text.replace token v) := by
  obtain ⟨pieces, hpieces⟩ := exists_pieces hx args
  have hrun : ∀ v, pattern (args.set x v) text = pieces.map (fill v) := hpieces
  refine ⟨pieces, hrun, fun v token htoken hfresh => ?_⟩
  rw [hrun, hrun]
  cases pieces with
  | error e => rfl
  | ok p => exact congrArg Except.ok (replace_fill htoken v (hfresh p rfl)).symm

/-- A variant that shows an arg, picked by another. -/
theorem values_never_read_variant :
    ∃ pieces : Except UnclosedPlaceable (List Piece), ∀ v,
      pattern ((Dict.ofList [(str "n", str "1")]).set (str "x") v)
        (str "\x7b $n ->\n[one] a \x7b $x \x7d\n*[other] b\n\x7d") = pieces.map (fill v) := by
  have hx : ¬Reads (str "\x7b $n ->\n[one] a \x7b $x \x7d\n*[other] b\n\x7d") (str "x") := by
    decide
  obtain ⟨pieces, hruns, -⟩ := values_never_read hx (Dict.ofList [(str "n", str "1")])
  exact ⟨pieces, hruns⟩

end Diagnostic

end AngzarrClient
