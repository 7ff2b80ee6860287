import AngzarrClient.Diagnostic.Fluent
import AngzarrClient.Lib.Lines

/-!
# Catalogs

A catalog is read line by line (`AngzarrClient.Diagnostic.parse`): a line at the margin
begins a message or ends the one before it, and an indented line continues the message that
is being read, if one is. That message is one the catalog holds already, which is a field of
what is kept between two lines (`AngzarrClient.Diagnostic.Reading`).

* **What is written is read back** (`AngzarrClient.Diagnostic.parse_write`): messages over any
  number of lines, however they are indented, among comments and blank lines.
* **Catalogs are merged as their texts are put together**
  (`AngzarrClient.Diagnostic.catalog_eq_parse`): nothing is carried over from one to the next,
  as the next begins at the margin, and the messages stand in the same order.
* **A message is shown as Fluent reads it** (`AngzarrClient.Diagnostic.written_renders`): from
  the client's catalog wherever that has it, with the args filled into the pattern its lines
  are written in. One without a select is shown for all args or for none
  (`AngzarrClient.Diagnostic.shown_alike`).
-/

namespace AngzarrClient

namespace Diagnostic

open Utf8

/-! ### Lines -/

/-- A character that ends a line. -/
def endsLine : CodePoint → Bool
  | .scalar c =>
    let n := c.toNat
    (10 ≤ n ∧ n ≤ 13) ∨ (28 ≤ n ∧ n ≤ 30) ∨ n = 0x85 ∨ n = 0x2028 ∨ n = 0x2029
  | .surrogate _ => false

/-- A carriage return. -/
def carriageReturn : CodePoint := .scalar '\r'

/-- `str.splitlines`. -/
def splitlines (text : Str) : List Str := Text.splitLines endsLine carriageReturn newline text

/-- `[A-Za-z]`. -/
def isLetter : CodePoint → Bool
  | .scalar c => c.isAlpha
  | .surrogate _ => false

/-- `_MESSAGE`, on a line: the id and the text after it. -/
def messageLine (line : Str) : Option (Str × Str) :=
  let id := line.takeWhile isKeyChar
  let rest := line.drop id.length
  if id.head?.any isLetter then
    if rest = str " =" then some (id, [])
    else if str " = " <+: rest then some (id, rest.drop 3)
    else none
  else none

/-! ### Reading a catalog -/

/-- What `parse` keeps between two lines: the messages so far, and which of them the next line
may continue. -/
structure Reading where
  messages : Dict Str Str
  current : Option {id : Str // (messages.get? id).isSome}

namespace Reading

/-- Before the first line. -/
def start : Reading := ⟨∅, none⟩

/-- A line at the margin: the message it begins, if it begins one. -/
def begin (messages : Dict Str Str) (line : Str) : Reading :=
  match messageLine line with
  | some (id, text) => ⟨messages.set id text, some ⟨id, by rw [Dict.get?_set, if_pos rfl]; rfl⟩⟩
  | none => ⟨messages, none⟩

/-- A line that continues a message. -/
def continued (messages : Dict Str Str) (id : {id : Str // (messages.get? id).isSome})
    (line : Str) : Reading :=
  ⟨messages.set id.val ((messages.get? id.val).get id.2 ++ newline :: Text.strip isspace line),
    some ⟨id.val, by rw [Dict.get?_set, if_pos rfl]; rfl⟩⟩

/-- One line of the loop. -/
def readLine (reading : Reading) (line : Str) : Reading :=
  match reading.current with
  | some id =>
    if [blank] <+: line then continued reading.messages id line else begin reading.messages line
  | none => begin reading.messages line

end Reading

/-- `parse`. -/
def parse (text : Str) : Dict Str Str :=
  ((splitlines text).foldl Reading.readLine Reading.start).messages

/-- `catalog`, of the texts of the spec's catalogs and of the client's. -/
def catalog (specs : List Str) (client : Str) : Dict Str Str :=
  (Dict.ofList (specs.flatMap fun text => (parse text).entries)).update (parse client)

/-- `render`. -/
def render (specs : List Str) (client code : Str) (args : Dict Str Str) :
    Except UnclosedPlaceable Str :=
  match (catalog specs client).get? code with
  | none => .ok (display code args.entries)
  | some text => pattern args text

/-! ### One line -/

namespace Reading

/-- The id of the message the next line may continue. -/
def id? (reading : Reading) : Option Str := reading.current.map Subtype.val

variable {reading : Reading} {line : Str}

/-- At the margin nothing is continued. -/
theorem readLine_margin (h : ¬[blank] <+: line) :
    reading.readLine line = begin reading.messages line := by
  unfold readLine
  rcases reading.current with _ | id
  · rfl
  · exact if_neg h

/-- An indented line begins no message. -/
theorem begin_indented (messages : Dict Str Str) (h : [blank] <+: line) :
    begin messages line = ⟨messages, none⟩ := by
  obtain ⟨s, rfl⟩ := h
  rfl

/-- Where none is read, an indented line is passed over. -/
theorem readLine_stray (hid : reading.id? = none) (h : [blank] <+: line) :
    reading.readLine line = reading := by
  obtain ⟨messages, current⟩ := reading
  obtain rfl : current = none := Option.map_eq_none_iff.mp hid
  exact begin_indented messages h

/-- Where one is read, an indented line is put to it. -/
theorem readLine_indented {id text : Str} (hid : reading.id? = some id)
    (htext : reading.messages.get? id = some text) (h : [blank] <+: line) :
    (reading.readLine line).messages =
        reading.messages.set id (text ++ newline :: Text.strip isspace line) ∧
      (reading.readLine line).id? = some id := by
  obtain ⟨key, hkey, rfl⟩ := Option.map_eq_some_iff.mp hid
  have hget : (reading.messages.get? key.val).get key.2 = text := Option.get_of_eq_some _ htext
  have hline : reading.readLine line = continued reading.messages key line := by
    rw [readLine, hkey]
    exact if_pos h
  rw [hline]
  refine ⟨?_, rfl⟩
  show reading.messages.set _ (_ ++ _) = _
  rw [hget]

/-- A message that is read is held. -/
theorem exists_text {id : Str} (hid : reading.id? = some id) :
    ∃ text, reading.messages.get? id = some text := by
  obtain ⟨key, -, rfl⟩ := Option.map_eq_some_iff.mp hid
  exact Option.isSome_iff_exists.mp key.2

end Reading

/-! ### Catalogs put together -/

/-- **A reading over messages there were before**: they are overwritten, and forgotten in
nothing else. -/
structure Over (d : Dict Str Str) (alone after : Reading) : Prop where
  messages : after.messages = d.update alone.messages
  id? : after.id? = alone.id?

/-- A line at the margin reads alike whatever there was before. -/
theorem over_begin (d messages : Dict Str Str) (line : Str) :
    Over d (.begin messages line) (.begin (d.update messages) line) := by
  unfold Reading.begin
  rcases messageLine line with _ | ⟨id, text⟩
  · exact ⟨rfl, rfl⟩
  · exact ⟨(Dict.update_set d messages id text).symm, rfl⟩

/-- One line more. -/
theorem Over.readLine {d : Dict Str Str} {alone after : Reading} (h : Over d alone after)
    (line : Str) : Over d (alone.readLine line) (after.readLine line) := by
  by_cases hline : [blank] <+: line
  · rcases hid : alone.id? with _ | id
    · rw [Reading.readLine_stray hid hline, Reading.readLine_stray (h.id?.trans hid) hline]
      exact h
    · obtain ⟨text, htext⟩ := Reading.exists_text hid
      have hafter : after.messages.get? id = some text := by
        rw [h.messages, Dict.get?_update, htext, Option.some_or]
      obtain ⟨halone, hid'⟩ := Reading.readLine_indented hid htext hline
      obtain ⟨hmessages, hid''⟩ := Reading.readLine_indented (h.id?.trans hid) hafter hline
      refine ⟨?_, hid''.trans hid'.symm⟩
      rw [hmessages, halone, Dict.update_set, h.messages]
  · rw [Reading.readLine_margin hline, Reading.readLine_margin hline, h.messages]
    exact over_begin d alone.messages line

/-- Any number of lines more. -/
theorem Over.foldl {d : Dict Str Str} {alone after : Reading} (h : Over d alone after)
    (lines : List Str) : Over d (lines.foldl Reading.readLine alone)
      (lines.foldl Reading.readLine after) := by
  induction lines generalizing alone after with
  | nil => exact h
  | cons line lines ih => exact ih (h.readLine line)

/-- A text at the margin has its first line there. -/
theorem margin_of_splitlines {text line : Str} {lines : List Str} (h : ¬[blank] <+: text)
    (hlines : splitlines text = line :: lines) : ¬[blank] <+: line := by
  cases text with
  | nil => cases hlines
  | cons c s =>
    rw [splitlines, Text.splitLines_cons] at hlines
    split at hlines
    · obtain ⟨rfl, -⟩ := List.cons.inj hlines
      rintro ⟨s, hs⟩
      cases hs
    · intro hblank
      refine h (Text.singleton_prefix_cons.mpr ?_)
      cases hmore : Text.splitLines endsLine carriageReturn newline s with
      | nil =>
        rw [hmore] at hlines
        obtain ⟨rfl, -⟩ := List.cons.inj hlines
        exact Text.singleton_prefix_cons.mp hblank
      | cons more rest =>
        rw [hmore] at hlines
        obtain ⟨rfl, -⟩ := List.cons.inj hlines
        exact Text.singleton_prefix_cons.mp hblank

/-- **A catalog behind another one** reads as it does alone, over the messages of the
other. -/
theorem parse_append {text more : Str} (htext : text ≠ [] → [newline] <:+ text)
    (hmore : ¬[blank] <+: more) : parse (text ++ more) = (parse text).update (parse more) := by
  have hlines : splitlines (text ++ more) = splitlines text ++ splitlines more :=
    Text.splitLines_append rfl (by decide) htext more
  rw [parse, hlines, List.foldl_append, parse, parse]
  cases hread : splitlines more with
  | nil => rfl
  | cons line lines =>
    -- The first line forgets what was being read.
    have hmargin := margin_of_splitlines hmore hread
    rw [List.foldl_cons, List.foldl_cons, Reading.readLine_margin hmargin,
      Reading.readLine_margin hmargin]
    exact ((over_begin _ ∅ line).foldl lines).messages

/-- A catalog that ends its last line and begins at the margin. -/
structure Whole (text : Str) : Prop where
  ended : text ≠ [] → [newline] <:+ text
  margin : ¬[blank] <+: text

/-- The messages of several catalogs, over those of one before them. -/
theorem parse_flatten {specs : List Str} (hspecs : ∀ text ∈ specs, Whole text) {before : Str}
    (hbefore : before ≠ [] → [newline] <:+ before) :
    parse (before ++ specs.flatten) =
      (specs.flatMap fun text => (parse text).entries).foldl (fun d kv => d.set kv.1 kv.2)
        (parse before) ∧
      (before ++ specs.flatten ≠ [] → [newline] <:+ before ++ specs.flatten) := by
  induction specs generalizing before with
  | nil => simpa using hbefore
  | cons text specs ih =>
    have htext := hspecs text List.mem_cons_self
    have hended : before ++ text ≠ [] → [newline] <:+ before ++ text := by
      intro h
      by_cases hnil : text = []
      · rw [hnil, List.append_nil] at h ⊢
        exact hbefore h
      · exact (htext.ended hnil).trans (List.suffix_append before text)
    rw [List.flatten_cons, ← List.append_assoc, List.flatMap_cons, List.foldl_append]
    have hparse := parse_append hbefore htext.margin
    rw [Dict.update] at hparse
    rw [← hparse]
    exact ih (fun t ht => hspecs t (List.mem_cons_of_mem text ht)) hended

/-- **The catalogs are one**: merged, they hold the messages of their texts put together, in
the same order. -/
theorem catalog_eq_parse {specs : List Str} (hspecs : ∀ text ∈ specs, Whole text) {client : Str}
    (hclient : ¬[blank] <+: client) :
    catalog specs client = parse (specs.flatten ++ client) := by
  obtain ⟨hparse, hended⟩ := parse_flatten hspecs (fun h => absurd rfl h : [] ≠ [] → _)
  rw [List.nil_append] at hparse hended
  rw [parse_append hended hclient, hparse]
  rfl

/-- A message of the first catalog that the client's overwrites, and one it leaves. -/
theorem catalog_eq_parse_overwritten :
    catalog [str "A = a\n  b\nB = c\n"] (str "A = d\n") =
      parse ([str "A = a\n  b\nB = c\n"].flatten ++ str "A = d\n") := by
  refine catalog_eq_parse ?_ (by decide)
  intro text htext
  rw [List.mem_singleton.mp htext]
  exact ⟨fun _ => by decide, by decide⟩

/-! ### A catalog as it is written -/

/-- A line's text. -/
abbrev Line := {s : Str // ∀ c ∈ s, endsLine c = false}

/-- A message's id. -/
abbrev MessageId := {s : Str // s.head?.any isLetter = true ∧ ∀ c ∈ s, isKeyChar c = true}

/-- A line that continues a message, however it is indented. -/
structure Continuation where
  lead : Line
  lead_blank : ∀ c ∈ lead.val, isspace c = true
  text : Line
  text_stripped : Text.strip isspace text.val = text.val
  trail : Line
  trail_blank : ∀ c ∈ trail.val, isspace c = true

/-- A continuation as it is written. -/
def Continuation.write (more : Continuation) : Str :=
  blank :: (more.lead.val ++ more.text.val ++ more.trail.val)

/-- **A part of a catalog**: a message, of a first line and others, or a line that is none – a
comment, or an empty one – and indented lines that so continue nothing. -/
inductive Block where
  | message (id : MessageId) (first : Option Line) (more : List Continuation)
  | other (line : Line) (margin : ¬[blank] <+: line.val) (none : messageLine line.val = none)
    (stray : List Line)

namespace Block

/-- The lines a block is written in. -/
def lines : Block → List Str
  | message id first more =>
    (id.val ++ str " =" ++ (first.elim [] fun text => blank :: text.val)) ::
      more.map Continuation.write
  | other line _ _ stray => line.val :: stray.map fun text => blank :: text.val

/-- The message a block is. -/
def entry : Block → Option (Str × Str)
  | message id first more =>
    some (id.val, (first.elim [] Subtype.val) ++ more.flatMap fun m => newline :: m.text.val)
  | other _ _ _ _ => none

end Block

/-- A catalog as it is written. -/
def write (blocks : List Block) : Str := Text.unlines newline (blocks.flatMap Block.lines)

/-! ### What is written is read back -/

/-- The first line of a message. -/
theorem messageLine_write (id : MessageId) (first : Option Line) :
    messageLine (id.val ++ str " =" ++ (first.elim [] fun text => blank :: text.val)) =
      some (id.val, first.elim [] Subtype.val) := by
  obtain ⟨id, hletter, hkey⟩ := id
  have hid : ∀ rest, (id ++ blank :: rest).takeWhile isKeyChar = id := fun rest => by
    rw [List.takeWhile_append_of_pos hkey, List.takeWhile_cons_of_neg (by decide), List.append_nil]
  have hequals : str " =" = blank :: str "=" := rfl
  rw [List.append_assoc, hequals, List.cons_append, messageLine]
  dsimp only
  rw [hid, List.drop_left, if_pos hletter]
  cases first with
  | none => exact if_pos rfl
  | some text => exact (if_neg (by simp [str])).trans (if_pos (List.prefix_append (str " = ") _))

/-- The lines that continue a message are put to it, stripped. -/
theorem foldl_continuation {reading : Reading} {id text : Str} (hid : reading.id? = some id)
    {messages : Dict Str Str} (hmessages : reading.messages = messages.set id text)
    (more : List Continuation) :
    ((more.map Continuation.write).foldl Reading.readLine reading).messages =
      messages.set id (text ++ more.flatMap fun m => newline :: m.text.val) := by
  induction more generalizing reading text with
  | nil => rw [List.flatMap_nil, List.append_nil]; exact hmessages
  | cons m more ih =>
    have htext : reading.messages.get? id = some text := by
      rw [hmessages, Dict.get?_set, if_pos rfl]
    have hstrip : Text.strip isspace m.write = m.text.val := by
      have hlead : ∀ c ∈ blank :: m.lead.val, isspace c = true := by
        rintro c (_ | ⟨_, hc⟩)
        · rfl
        · exact m.lead_blank c hc
      rw [Continuation.write, ← List.cons_append, ← List.cons_append,
        Text.strip_append hlead m.trail_blank, m.text_stripped]
    have hindent : [blank] <+: m.write := Text.singleton_prefix_cons.mpr rfl
    obtain ⟨hread, hid'⟩ := Reading.readLine_indented hid htext hindent
    rw [List.map_cons, List.foldl_cons, List.flatMap_cons, ← List.append_assoc]
    refine ih hid' ?_
    rw [hread, hstrip, hmessages, Dict.set_set]

/-- Nothing is continued by a stray line. -/
theorem foldl_stray {reading : Reading} (hid : reading.id? = none) (stray : List Line) :
    (stray.map fun text => blank :: text.val).foldl Reading.readLine reading = reading := by
  induction stray with
  | nil => rfl
  | cons text stray ih =>
    rw [List.map_cons, List.foldl_cons,
      Reading.readLine_stray hid (Text.singleton_prefix_cons.mpr rfl), ih]

/-- **A block sets its own message**, whatever was being read before it. -/
theorem foldl_block (reading : Reading) (block : Block) :
    (block.lines.foldl Reading.readLine reading).messages =
      block.entry.elim reading.messages fun kv => reading.messages.set kv.1 kv.2 := by
  cases block with
  | message id first more =>
    have hmargin : ¬[blank] <+: id.val ++ str " =" ++
        (first.elim [] fun text => blank :: text.val) := by
      intro hblank
      obtain ⟨c, s, hc⟩ : ∃ c s, id.val = c :: s := by
        cases hid : id.val with
        | nil => exact absurd id.2.1 (by rw [hid]; decide)
        | cons c s => exact ⟨c, s, rfl⟩
      rw [hc, List.cons_append, List.cons_append, Text.singleton_prefix_cons] at hblank
      have hkey := id.2.2 c (by rw [hc]; exact List.mem_cons_self)
      rw [← hblank] at hkey
      cases hkey
    rw [Block.lines, List.foldl_cons, Reading.readLine_margin hmargin, Reading.begin,
      messageLine_write]
    exact foldl_continuation rfl rfl more
  | other line margin none stray =>
    rw [Block.lines, List.foldl_cons, Reading.readLine_margin margin, Reading.begin, none,
      foldl_stray rfl]
    rfl

/-- A character that ends a line is whitespace. -/
theorem isspace_of_endsLine {c : CodePoint} (h : endsLine c = true) : isspace c = true := by
  cases c with
  | scalar c =>
    simp only [endsLine, isspace, decide_eq_true_eq] at h ⊢
    omega
  | surrogate n => cases h

/-- No line of a block is ended within. -/
theorem Block.endsLine_eq_false (block : Block) :
    ∀ line ∈ block.lines, ∀ c ∈ line, endsLine c = false := by
  have hblank : endsLine blank = false := rfl
  cases block with
  | message id first more =>
    rintro line (_ | ⟨_, hline⟩)
    · intro c hc
      simp only [List.mem_append] at hc
      rcases hc with (hc | hc) | hc
      · by_contra hends
        have hspace : isspace c = true := isspace_of_endsLine (by simpa using hends)
        have hkey := id.2.2 c hc
        rw [isKeyChar_of_isspace hspace] at hkey
        cases hkey
      · have hall : ∀ c ∈ str " =", endsLine c = false := by decide
        exact hall c hc
      · cases first with
        | none => cases hc
        | some text =>
          rcases List.mem_cons.mp hc with rfl | hc
          · exact hblank
          · exact text.2 c hc
    · obtain ⟨m, -, rfl⟩ := List.mem_map.mp hline
      intro c hc
      simp only [Continuation.write, List.mem_cons, List.mem_append] at hc
      rcases hc with rfl | (hc | hc) | hc
      · exact hblank
      · exact m.lead.2 c hc
      · exact m.text.2 c hc
      · exact m.trail.2 c hc
  | other line margin none stray =>
    intro own hown
    rcases List.mem_cons.mp hown with rfl | hown
    · exact line.2
    · obtain ⟨text, -, rfl⟩ := List.mem_map.mp hown
      intro c hc
      rcases List.mem_cons.mp hc with rfl | hc
      · exact hblank
      · exact text.2 c hc

/-- **What is written is read back**: a catalog's messages are its blocks', each with the text
of its lines, a later one winning, whatever stands between them. -/
theorem parse_write (blocks : List Block) :
    parse (write blocks) = Dict.ofList (blocks.filterMap Block.entry) := by
  have hrun : ∀ reading : Reading,
      ((blocks.flatMap Block.lines).foldl Reading.readLine reading).messages =
        (blocks.filterMap Block.entry).foldl (fun d kv => d.set kv.1 kv.2) reading.messages := by
    intro reading
    induction blocks generalizing reading with
    | nil => rfl
    | cons block blocks ih =>
      rw [List.flatMap_cons, List.foldl_append, ih, foldl_block]
      cases hentry : block.entry with
      | none => rw [List.filterMap_cons_none hentry]; rfl
      | some kv => rw [List.filterMap_cons_some hentry]; rfl
  have hends : ∀ line ∈ blocks.flatMap Block.lines, ∀ c ∈ line, endsLine c = false := by
    intro line hline
    obtain ⟨block, -, hline⟩ := List.mem_flatMap.mp hline
    exact block.endsLine_eq_false line hline
  rw [parse, write, splitlines, Text.splitLines_unlines rfl (by decide) hends]
  exact hrun .start

/-! ### Rendering -/

/-- **The client's catalog is asked first**, whatever the spec's hold. -/
theorem render_of_client (specs : List Str) {client code text : Str}
    (h : (parse client).get? code = some text) (args : Dict Str Str) :
    render specs client code args = pattern args text := by
  have hget : (catalog specs client).get? code = some text := by
    rw [catalog, Dict.get?_update, h, Option.some_or]
  rw [render, hget]

/-- **A message is shown as Fluent reads it**: the pattern its lines are written in, in the
client's catalog, with the args filled in, whatever stands around it and in the spec's. -/
theorem written_renders (specs : List Str) {blocks : List Block}
    (hids : ((blocks.filterMap Block.entry).map Prod.fst).Nodup) {id : Str} {P : Pattern}
    (hmem : (id, P.write) ∈ blocks.filterMap Block.entry) (hplain : P.Plain)
    (hwf : P.wellFormed = true) (args : Dict Str Str) :
    render specs (write blocks) id args = .ok (P.render args) := by
  have hget : (parse (write blocks)).get? id = some P.write := by
    rw [parse_write]
    refine Dict.get?_of_mem ?_
    rw [Dict.entries_ofList hids]
    exact hmem
  rw [render_of_client specs hget, hplain.renders hwf]

/-- A plural over four lines, between a comment and another message. -/
theorem written_renders_plural :
    render [str "N = 0\n"] (write [
        .other ⟨str "# runs", by decide⟩ (by decide) (by decide) [],
        .message ⟨str "N", by decide⟩ (some ⟨str "\x7b $n ->", by decide⟩) [
          ⟨⟨str "   ", by decide⟩, by decide, ⟨str "[one] one run", by decide⟩, by decide,
            ⟨[], by decide⟩, by decide⟩,
          ⟨⟨str "  ", by decide⟩, by decide, ⟨str "*[other] \x7b $n \x7d runs", by decide⟩,
            by decide, ⟨[], by decide⟩, by decide⟩,
          ⟨⟨[], by decide⟩, by decide, ⟨str "\x7d", by decide⟩, by decide,
            ⟨[], by decide⟩, by decide⟩],
        .message ⟨str "M", by decide⟩ none []])
      (str "N") (Dict.ofList [(str "n", str "2")]) =
      .ok (Pattern.runs.render (Dict.ofList [(str "n", str "2")])) := by
  have hplain : Pattern.runs.Plain := ⟨by decide, trivial⟩
  exact written_renders _ (by decide) (by decide) hplain (by decide) _

/-! ### Messages without a select -/

/-- A text with the args it names: its characters, and the names where their values go. -/
abbrev Segment := CodePoint ⊕ Str

/-- The text with the args' values in it. -/
def fillIn (args : Dict Str Str) (segments : List Segment) : Str :=
  segments.flatMap (Sum.elim (fun c => [c]) (argText args))

theorem fillIn_map_inl (args : Dict Str Str) (s : Str) (segments : List Segment) :
    fillIn args (s.map Sum.inl ++ segments) = s ++ fillIn args segments := by
  induction s with
  | nil => rfl
  | cons c s ih => exact congrArg (c :: ·) ih

/-- No select stands in a text: no arrow between a brace and the one that closes it. -/
def Selectless (text : Str) : Prop :=
  ∀ s, lbrace :: s <:+ text → ∀ cut, close 1 s = some cut → ¬arrow <:+: cut.1

instance (text : Str) : Decidable (Selectless text) :=
  decidable_of_iff
    (∀ s ∈ text.tails, s.head? = some lbrace → ∀ cut ∈ close 1 s.tail, ¬arrow <:+: cut.1) <| by
    constructor
    · intro h s hs cut hcut
      exact h (lbrace :: s) ((List.mem_tails _ _).mpr hs) rfl cut hcut
    · intro h s hs hhead cut hcut
      refine h s.tail ?_ cut hcut
      rw [List.cons_head?_tail hhead]
      exact (List.mem_tails _ _).mp hs

theorem Selectless.of_suffix {s text : Str} (h : Selectless text) (hs : s <:+ text) :
    Selectless s := fun t ht => h t (ht.trans hs)

/-- What stands between braces, without an arrow, is the same whatever the args but for the
value of one of them. -/
theorem exists_placeable {inner : Str} (harrow : ¬arrow <:+: inner) :
    ∃ own : List Segment, ∀ render args, placeable render args inner = .ok (fillIn args own) := by
  have hcut := Text.partitionOn_of_not_infix harrow
  by_cases hdollar : [dollar] <+: Text.strip isspace inner
  · refine ⟨[.inr (Text.removePrefix [dollar] (Text.strip isspace inner))], fun render args => ?_⟩
    simp only [placeable, hcut, hdollar, not_true, if_false, fillIn, List.flatMap_singleton,
      Sum.elim_inr]
  · refine ⟨(lbrace :: (inner ++ [rbrace])).map Sum.inl ++ [], fun render args => ?_⟩
    rw [fillIn_map_inl]
    simp only [placeable, hcut, hdollar, not_false_eq_true, if_true, fillIn, List.flatMap_nil,
      List.append_nil]

/-- A text without a select renders for all args or for none, and to the same text around
them. -/
theorem exists_segments {text : Str} (hselect : Selectless text) :
    (∃ segments : List Segment, ∀ args, pattern args text = .ok (fillIn args segments)) ∨
      ∃ e, ∀ args, pattern args text = .error e := by
  induction hlength : text.length using Nat.strong_induction_on generalizing text with
  | _ n ih =>
    subst hlength
    cases text with
    | nil => exact .inl ⟨[], pattern_nil⟩
    | cons c s =>
      by_cases hc : c = lbrace
      · subst hc
        rcases hclose : close 1 s with _ | ⟨inner, rest⟩
        · exact .inr ⟨_, fun args => pattern_unclosed hclose⟩
        · -- The placeable is shown, and then what follows it decides.
          have hs := eq_of_close Nat.one_pos hclose
          have hrest : rest <:+ lbrace :: s := ⟨lbrace :: (inner ++ [rbrace]), by rw [hs]; simp⟩
          have hlt : rest.length < (lbrace :: s).length := by
            rw [hs, List.length_cons, List.length_append, List.length_cons]
            omega
          obtain ⟨own, hown⟩ := exists_placeable (hselect s List.suffix_rfl _ hclose)
          rcases ih rest.length hlt (hselect.of_suffix hrest) rfl with
            ⟨segments, hall⟩ | ⟨e, hall⟩
          · refine .inl ⟨own ++ segments, fun args => ?_⟩
            rw [pattern_placeable hclose, hown, hall, fillIn, fillIn, fillIn, List.flatMap_append]
            rfl
          · refine .inr ⟨e, fun args => ?_⟩
            rw [pattern_placeable hclose, hown, hall]
            rfl
      · rcases ih s.length (Nat.lt_succ_self _) (hselect.of_suffix (List.suffix_cons c s)) rfl with
          ⟨segments, hall⟩ | ⟨e, hall⟩
        · refine .inl ⟨.inl c :: segments, fun args => ?_⟩
          rw [pattern_cons hc, hall]
          rfl
        · refine .inr ⟨e, fun args => ?_⟩
          rw [pattern_cons hc, hall]
          rfl

/-- **A message without a select is shown for all args or for none**: as one text with the
args' values in it as they are, or refused alike, whatever the args and the spec's catalogs. -/
theorem shown_alike {client code text : Str} (htext : (parse client).get? code = some text)
    (hselect : Selectless text) :
    (∃ segments : List Segment, ∀ specs args,
      render specs client code args = .ok (fillIn args segments)) ∨
      ∃ e, ∀ specs args, render specs client code args = .error e := by
  have hrender := fun specs args => render_of_client specs htext args
  rcases exists_segments hselect with ⟨segments, hall⟩ | ⟨e, hall⟩
  · exact .inl ⟨segments, fun specs args => (hrender specs args).trans (hall args)⟩
  · exact .inr ⟨e, fun specs args => (hrender specs args).trans (hall args)⟩

/-- A message of a catalog of one line, with an arrow and a placeable, and no select. -/
theorem shown_alike_oneLine :
    (∃ segments : List Segment, ∀ specs args,
      render specs (str "A = -> \x7b $x \x7d!\n") (str "A") args = .ok (fillIn args segments)) ∨
      ∃ e, ∀ specs args, render specs (str "A = -> \x7b $x \x7d!\n") (str "A") args = .error e := by
  have htext : (parse (str "A = -> \x7b $x \x7d!\n")).get? (str "A") =
      some (str "-> \x7b $x \x7d!") := by
    decide
  exact shown_alike htext (by decide)

end Diagnostic

end AngzarrClient
