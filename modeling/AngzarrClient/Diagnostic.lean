import AngzarrClient.Lib.Dict
import AngzarrClient.Lib.Text
import AngzarrClient.Lib.Utf8

/-!
# An error's text

An error shows as its code and then its args, each as ` name=value`
(`AngzarrClient.Diagnostic.display`), with a value quoted where it would not parse back
(`AngzarrClient.Diagnostic.quote`). Values are anything at all, and may look like the
format: a quoted value holds no quote but an escaped one, so the first that is not escaped
ends it. `AngzarrClient.Diagnostic.undisplay` reads the code and the args back
(`AngzarrClient.Diagnostic.undisplay_display`).
-/

namespace AngzarrClient

namespace Diagnostic

open Utf8

/-! ### Characters -/

/-- `"`. -/
def dquote : CodePoint := .scalar '"'

/-- `\`. -/
def backslash : CodePoint := .scalar '\\'

/-- `=`. -/
def equals : CodePoint := .scalar '='

/-- A blank. -/
def blank : CodePoint := .scalar ' '

/-- `str.isspace` of one character. -/
def isspace : CodePoint → Bool
  | .scalar c =>
    let n := c.toNat
    (9 ≤ n ∧ n ≤ 13) ∨ (28 ≤ n ∧ n ≤ 32) ∨ n = 0x85 ∨ n = 0xA0 ∨ n = 0x1680 ∨
      (0x2000 ≤ n ∧ n ≤ 0x200A) ∨ n = 0x2028 ∨ n = 0x2029 ∨ n = 0x202F ∨ n = 0x205F ∨ n = 0x3000
  | .surrogate _ => false

/-- Whether a character makes a value be quoted. -/
def special (c : CodePoint) : Bool := isspace c || c = equals || c = dquote || c = backslash

/-! ### Displaying -/

/-- `quote`. -/
def quote (value : Str) : Str :=
  if value ≠ [] ∧ ¬value.any special then value
  else
    dquote ::
      (Text.replace [dquote] [backslash, dquote]
        (Text.replace [backslash] [backslash, backslash] value) ++ [dquote])

/-- `display`, of the args in their order. -/
def display (code : Str) (args : List (Str × Str)) : Str :=
  code ++ args.flatMap fun arg => blank :: (arg.1 ++ equals :: quote arg.2)

/-! ### Reading back -/

/-- A quoted value from past its opening quote, unescaped, and what follows its closing
one. -/
def unquote : Str → Option (Str × Str)
  | [] => none
  | c :: s =>
    if c = dquote then some ([], s)
    else if c = backslash then
      match s with
      | [] => none
      | d :: s => (unquote s).map fun read => (d :: read.1, read.2)
    else (unquote s).map fun read => (c :: read.1, read.2)

/-- A value, bare or quoted, and what follows it. -/
def readValue : Str → Option (Str × Str)
  | [] => some ([], [])
  | c :: s =>
    if c = dquote then unquote s
    else some ((c :: s).takeWhile (· ≠ blank), (c :: s).dropWhile (· ≠ blank))

/-- The args of a text, as many as `count` at most. -/
def readArgs : ℕ → Str → Option (List (Str × Str))
  | _, [] => some []
  | 0, _ :: _ => none
  | count + 1, c :: s =>
    if c = blank then
      match Text.partition equals s with
      | (name, [_], rest) => do
        let (value, rest) ← readValue rest
        let args ← readArgs count rest
        return (name, value) :: args
      | _ => none
    else none

/-- The code and the args a text displays. -/
def undisplay (text : Str) : Option (Str × List (Str × Str)) :=
  (readArgs text.length (text.dropWhile (· ≠ blank))).map fun args =>
    (text.takeWhile (· ≠ blank), args)

/-- A code or a name: not empty, with no character that makes a value be quoted. -/
structure Bare (s : Str) : Prop where
  ne_nil : s ≠ []
  not_special : ∀ c ∈ s, special c = false

/-! ### What stands in a text -/

theorem Bare.blank_not_mem {s : Str} (h : Bare s) : blank ∉ s := fun hmem =>
  absurd (h.not_special blank hmem) (by decide)

theorem Bare.equals_not_mem {s : Str} (h : Bare s) : equals ∉ s := fun hmem =>
  absurd (h.not_special equals hmem) (by decide)

theorem Bare.dquote_not_mem {s : Str} (h : Bare s) : dquote ∉ s := fun hmem =>
  absurd (h.not_special dquote hmem) (by decide)

/-- A value is shown bare exactly when it is bare. -/
theorem quote_of_bare {value : Str} (h : Bare value) : quote value = value := by
  refine if_pos ⟨h.ne_nil, ?_⟩
  rw [List.any_eq_true]
  rintro ⟨c, hmem, hspecial⟩
  rw [h.not_special c hmem] at hspecial
  cases hspecial

/-- A value between its quotes: `"` and `\` escaped. -/
def escaped (value : Str) : Str :=
  Text.replace [dquote] [backslash, dquote]
    (Text.replace [backslash] [backslash, backslash] value)

theorem quote_of_not_bare {value : Str} (h : ¬Bare value) :
    quote value = dquote :: (escaped value ++ [dquote]) := by
  refine if_neg fun hbare => h ⟨hbare.1, fun c hmem => ?_⟩
  by_contra hspecial
  exact hbare.2 (List.any_eq_true.mpr ⟨c, hmem, by simpa using hspecial⟩)

/-- Each character is escaped on its own: the two replacements do not meet, as the first is
of backslashes. -/
theorem escaped_cons (c : CodePoint) (value : Str) :
    escaped (c :: value) =
      (if c = dquote ∨ c = backslash then [backslash, c] else [c]) ++ escaped value := by
  unfold escaped
  rw [Text.replace_singleton_cons, Text.replace_singleton_append]
  congr 1
  by_cases hb : backslash = c
  · subst hb
    rw [if_pos rfl, if_pos (Or.inr rfl)]
    rfl
  · rw [if_neg hb, Text.replace_singleton_cons, Text.replace_nil, List.append_nil]
    by_cases hd : dquote = c
    · subst hd
      rw [if_pos rfl, if_pos (Or.inl rfl)]
    · rw [if_neg hd, if_neg]
      rintro (h | h)
      · exact hd h.symm
      · exact hb h.symm

/-! ### The round trip -/

theorem unquote_dquote (s : Str) : unquote (dquote :: s) = some ([], s) := by
  rw [unquote.eq_def]
  exact if_pos rfl

/-- What follows a backslash stands for itself. -/
theorem unquote_backslash (c : CodePoint) (s : Str) :
    unquote (backslash :: c :: s) = (unquote s).map fun read => (c :: read.1, read.2) := by
  rw [unquote.eq_def]
  exact (if_neg (by decide)).trans (if_pos rfl)

theorem unquote_cons {c : CodePoint} (hquote : c ≠ dquote) (hbackslash : c ≠ backslash)
    (s : Str) : unquote (c :: s) = (unquote s).map fun read => (c :: read.1, read.2) := by
  rw [unquote.eq_def]
  exact (if_neg hquote).trans (if_neg hbackslash)

/-- **A quoted value ends at its own closing quote**, whatever it holds. -/
theorem unquote_escaped (value rest : Str) :
    unquote (escaped value ++ dquote :: rest) = some (value, rest) := by
  induction value with
  | nil => exact unquote_dquote rest
  | cons c value ih =>
    rw [escaped_cons, List.append_assoc]
    by_cases hc : c = dquote ∨ c = backslash
    · rw [if_pos hc]
      show unquote (backslash :: c :: (escaped value ++ dquote :: rest)) = _
      rw [unquote_backslash, ih]
      rfl
    · rw [if_neg hc]
      show unquote (c :: (escaped value ++ dquote :: rest)) = _
      rw [unquote_cons (fun h => hc (.inl h)) (fun h => hc (.inr h)), ih]
      rfl

/-- What follows a value: nothing, or a blank and more. -/
def Ends (rest : Str) : Prop := ∀ c s, rest = c :: s → c = blank

/-- Up to the first blank: a text without one before what follows it. -/
theorem takeWhile_append {s rest : Str} (hs : blank ∉ s) (hrest : Ends rest) :
    (s ++ rest).takeWhile (· ≠ blank) = s := by
  have hall : ∀ c ∈ s, decide (c ≠ blank) = true := fun c hmem => by
    simpa using fun hc : c = blank => hs (hc ▸ hmem)
  rw [List.takeWhile_append_of_pos hall]
  cases rest with
  | nil => exact List.append_nil s
  | cons c rest =>
    rw [hrest c rest rfl, List.takeWhile_cons_of_neg (by simp), List.append_nil]

/-- From the first blank on: what follows a text without one. -/
theorem dropWhile_append {s rest : Str} (hs : blank ∉ s) (hrest : Ends rest) :
    (s ++ rest).dropWhile (· ≠ blank) = rest := by
  have hall : ∀ c ∈ s, decide (c ≠ blank) = true := fun c hmem => by
    simpa using fun hc : c = blank => hs (hc ▸ hmem)
  rw [List.dropWhile_append_of_pos hall]
  cases rest with
  | nil => rfl
  | cons c rest => rw [hrest c rest rfl, List.dropWhile_cons_of_neg (by simp)]

/-- A value is read back, bare or quoted. -/
theorem readValue_quote (value : Str) {rest : Str} (hrest : Ends rest) :
    readValue (quote value ++ rest) = some (value, rest) := by
  by_cases h : Bare value
  · rw [quote_of_bare h]
    obtain ⟨c, value', rfl⟩ := List.exists_cons_of_ne_nil h.ne_nil
    have hquote : c ≠ dquote := fun hc => h.dquote_not_mem (hc ▸ List.mem_cons_self)
    show readValue (c :: (value' ++ rest)) = _
    rw [readValue, if_neg hquote]
    exact congrArg some (Prod.ext (takeWhile_append h.blank_not_mem hrest)
      (dropWhile_append h.blank_not_mem hrest))
  · rw [quote_of_not_bare h]
    show readValue (dquote :: (escaped value ++ [dquote] ++ rest)) = _
    rw [readValue, if_pos rfl, List.append_assoc]
    exact unquote_escaped value rest

/-- The args of a text, in order. -/
def shown (args : List (Str × Str)) : Str :=
  args.flatMap fun arg => blank :: (arg.1 ++ equals :: quote arg.2)

theorem ends_shown (args : List (Str × Str)) : Ends (shown args) := by
  cases args with
  | nil => nofun
  | cons arg args =>
    intro c s h
    exact (List.cons.inj h).1.symm

/-- **The args are read back**, each value ending where the next arg begins. -/
theorem readArgs_shown {args : List (Str × Str)} (hargs : ∀ arg ∈ args, Bare arg.1)
    {count : ℕ} (hcount : args.length ≤ count) : readArgs count (shown args) = some args := by
  induction args generalizing count with
  | nil => cases count <;> rfl
  | cons arg args ih =>
    obtain ⟨name, value⟩ := arg
    obtain ⟨count, rfl⟩ : ∃ n, count = n + 1 :=
      Nat.exists_eq_succ_of_ne_zero (Nat.ne_of_gt (Nat.lt_of_lt_of_le (Nat.succ_pos _) hcount))
    have hname : Bare name := hargs (name, value) List.mem_cons_self
    have hrest : readArgs count (shown args) = some args :=
      ih (fun arg hmem => hargs arg (List.mem_cons_of_mem _ hmem)) (Nat.le_of_succ_le_succ hcount)
    have hshown : shown ((name, value) :: args) =
        blank :: (name ++ equals :: (quote value ++ shown args)) := by
      simp [shown]
    rw [hshown, readArgs, if_pos rfl, Text.partition_append hname.equals_not_mem]
    simp only [readValue_quote value (ends_shown args), Option.bind_eq_bind, Option.bind_some,
      hrest]
    rfl

theorem length_le_shown (args : List (Str × Str)) : args.length ≤ (shown args).length := by
  induction args with
  | nil => exact le_rfl
  | cons arg args ih =>
    simp only [shown, List.flatMap_cons, List.length_append, List.length_cons] at ih ⊢
    omega

/-- One reading gives the code and the args back. -/
theorem undisplay_display {code : Str} {args : List (Str × Str)} (hcode : Bare code)
    (hargs : ∀ arg ∈ args, Bare arg.1) :
    undisplay (display code args) = some (code, args) := by
  have htext : display code args = code ++ shown args := rfl
  have hends := ends_shown args
  have hcount : args.length ≤ (code ++ shown args).length := by
    rw [List.length_append]
    have hle := length_le_shown args
    omega
  rw [undisplay, htext, takeWhile_append hcode.blank_not_mem hends,
    dropWhile_append hcode.blank_not_mem hends, readArgs_shown hargs hcount]
  rfl

/-- **An error's text parses back**: one reading gives the code and the args of every text,
so no two errors share one. -/
theorem text_parses_back {code : Str} {args : List (Str × Str)} (hcode : Bare code)
    (hargs : ∀ arg ∈ args, Bare arg.1) :
    undisplay (display code args) = some (code, args) ∧
      ∀ code' args', Bare code' → (∀ arg ∈ args', Bare arg.1) →
        display code' args' = display code args → code' = code ∧ args' = args := by
  refine ⟨undisplay_display hcode hargs, fun code' args' hcode' hargs' heq => ?_⟩
  have hread := undisplay_display hcode' hargs'
  rw [heq, undisplay_display hcode hargs] at hread
  obtain ⟨rfl, rfl⟩ := Prod.mk.inj (Option.some.inj hread)
  exact ⟨rfl, rfl⟩

/-- A value that looks like further args, its own closing quote among it. -/
theorem text_parses_back_imitation :
    undisplay (display (str "SEAT_TAKEN") [(str "seat", str "a\" table=t1"), (str "row", [])]) =
      some (str "SEAT_TAKEN", [(str "seat", str "a\" table=t1"), (str "row", [])]) := by
  refine (text_parses_back ⟨by decide, by decide⟩ ?_).1
  intro arg hmem
  rcases List.mem_cons.mp hmem with rfl | hmem
  · exact ⟨by decide, by decide⟩
  · rw [List.mem_singleton.mp hmem]
    exact ⟨by decide, by decide⟩

end Diagnostic

end AngzarrClient
