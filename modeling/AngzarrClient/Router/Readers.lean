import AngzarrClient.Router.Policy
import AngzarrClient.Router.Projector
import AngzarrClient.Router.Session

/-!
# What reads a stream

The coordinator hands the pages of a stream on: to policies, which react to them, and to
projectors, which fold them. It does so in books, and where it cuts them is its own affair
(`AngzarrClient.Router.Cut`). Neither a policy nor a projector keeps anything from one book to
the next, so what they make of a stream rests on its pages alone, and on their numbers.

* **A stream's events are reacted to once each**, by number and in order, however its pages
  are cut into books (`AngzarrClient.Router.Cut.stream_reacts_once`). So a coordinator that
  knows the reactions of a stream by their trigger's number loses none and counts none twice.
* **A projection of a stream is the state its next handler is called on**, where a projector
  folds as the stream's component does (`AngzarrClient.Router.Cut.projection_is_state`), and
  the position it gives is the stream's next sequence; of a cut, where the next book starts.
-/

namespace AngzarrClient

namespace Router

/-! ### Streams in books -/

/-- **A stream in books**: under its cover, its pages in a row. -/
structure Cut (cover : Option Cover) (stream : Stream) (books : List EventBook) : Prop where
  cover : ∀ book ∈ books, book.cover = cover
  pages : books.flatMap EventBook.pages = stream.journal

namespace Cut

/-- A stream in one book. -/
def whole (cover : Option Cover) (stream : Stream) : EventBook where
  cover := cover
  pages := stream.journal
  snapshot := none
  nextSequence := stream.journal.length

section Numbered

variable {stream : Stream}

/-- The page at an index carries its number. -/
theorem sequence_eq (h : stream.Numbered) {i : ℕ} {page : EventPage}
    (hi : stream.journal[i]? = some page) : page.sequence = i := by
  have hmap : (stream.journal.map EventPage.sequence)[i]? = some page.sequence := by
    rw [List.getElem?_map, hi]
    rfl
  rw [h, List.getElem?_range (List.getElem?_eq_some_iff.mp hi).1] at hmap
  exact (Option.some.inj hmap).symm

/-- **Deliveries keep any stream numbered**, whatever tables answer them. -/
theorem numbered_run [Spec] {σ : Type} [Message σ] [Message CommandRefused]
    (cover : Option Cover) (deliveries : List (Delivery σ)) :
    (Run.run (Delivery.act cover) .empty deliveries).Numbered := by
  have hstep : ∀ (stream : Stream) (d : Delivery σ), stream.Numbered →
      (d.act cover stream).Numbered := fun stream d h => Delivery.numbered_act h d
  have hempty : Stream.empty.Numbered := rfl
  exact Run.invariant_of_step hstep hempty deliveries

end Numbered

/-! ### Policies -/

section Policy

variable [Spec] {table : PolicyDispatch} {cover : Option Cover}

/-- A page that was answered was passed over or reacted to. -/
theorem react_eq_ok {page : EventPage} {more : List Reaction}
    (h : (table.react cover page).result = .ok more) :
    (∀ exc, table.outcome cover page ≠ some (.error exc)) ∧ more = table.reactions cover page := by
  have hok : ∀ exc, table.outcome cover page ≠ some (.error exc) := by
    intro exc hexc
    rw [PolicyDispatch.react_of_error hexc] at h
    cases h
  rw [PolicyDispatch.react_of_ok hok] at h
  exact ⟨hok, (Except.ok.inj h).symm⟩

/-- **An answered book's reactions are its pages'**, none of which failed. -/
theorem handle_eq_ok {book : EventBook} {resp : PolicyResponse}
    (h : (table.handle book).result = .ok resp) :
    (∀ page ∈ book.pages, ∀ exc, table.outcome book.cover page ≠ some (.error exc)) ∧
      resp.reactions = book.pages.flatMap (table.reactions book.cover) := by
  have hcollect : ∀ (pages : List EventPage) (more : List Reaction),
      (Traced.collect (table.react book.cover) pages).result = .ok more →
        (∀ page ∈ pages, ∀ exc, table.outcome book.cover page ≠ some (.error exc)) ∧
          more = pages.flatMap (table.reactions book.cover) := by
    intro pages
    induction pages with
    | nil =>
      rintro more hmore
      exact ⟨nofun, (Except.ok.inj hmore).symm⟩
    | cons page pages ih =>
      rintro more hmore
      rw [Traced.collect, Traced.result_bind_eq_ok] at hmore
      obtain ⟨first, hfirst, hmore⟩ := hmore
      rw [Traced.result_bind_eq_ok] at hmore
      obtain ⟨rest, hrest, hmore⟩ := hmore
      obtain ⟨hok, rfl⟩ := react_eq_ok hfirst
      obtain ⟨hoks, rfl⟩ := ih rest hrest
      refine ⟨fun p hp => ?_, (Except.ok.inj hmore).symm⟩
      rcases List.mem_cons.mp hp with rfl | hp
      · exact hok
      · exact hoks p hp
  rw [PolicyDispatch.handle_eq] at h
  cases hr : (Traced.collect (table.react book.cover) book.pages).result with
  | error e =>
    rw [map_eq_pure_bind, Traced.result_bind, hr] at h
    cases h
  | ok more =>
    obtain ⟨hok, hmore⟩ := hcollect book.pages more hr
    rw [map_eq_pure_bind, Traced.result_bind, hr] at h
    obtain rfl := Except.ok.inj h
    exact ⟨hok, hmore⟩

omit [Spec] in
/-- What a page's reactions are numbered. -/
theorem triggerSequence_of_mem {page : EventPage} {reaction : Reaction}
    (h : reaction ∈ table.reactions cover page) :
    reaction.triggerSequence = page.sequence := by
  unfold PolicyDispatch.reactions at h
  split at h
  · obtain rfl := List.mem_singleton.mp h
    rfl
  · cases h

omit [Spec] in
/-- **Of numbered pages, the reactions of a number are those of its page.** -/
theorem filter_reactions {stream : Stream} (h : stream.Numbered) {i : ℕ} {page : EventPage}
    (hi : stream.journal[i]? = some page) :
    (stream.journal.flatMap (table.reactions cover)).filter (·.triggerSequence = i) =
      table.reactions cover page := by
  have hnone {pages : List EventPage} (hne : ∀ p ∈ pages, p.sequence ≠ i) :
      (pages.flatMap (table.reactions cover)).filter (·.triggerSequence = i) = [] := by
    rw [List.filter_eq_nil_iff]
    intro reaction hmem
    obtain ⟨p, hp, hreaction⟩ := List.mem_flatMap.mp hmem
    simpa [triggerSequence_of_mem hreaction] using hne p hp
  obtain ⟨hlt, hget⟩ := List.getElem?_eq_some_iff.mp hi
  have hsplit : stream.journal =
      stream.journal.take i ++ page :: stream.journal.drop (i + 1) := by
    rw [← hget, List.getElem_cons_drop, List.take_append_drop]
  -- No page before it has its number, and none after it.
  have htake : ∀ p ∈ stream.journal.take i, p.sequence ≠ i := by
    intro p hp
    obtain ⟨j, hj, rfl⟩ := List.mem_take_iff_getElem.mp hp
    have hseq := sequence_eq h (List.getElem?_eq_getElem (by omega : j < stream.journal.length))
    omega
  have hdrop : ∀ p ∈ stream.journal.drop (i + 1), p.sequence ≠ i := by
    intro p hp
    obtain ⟨j, hj, rfl⟩ := List.mem_drop_iff_getElem.mp hp
    have hseq := sequence_eq h
      (List.getElem?_eq_getElem (by omega : i + 1 + j < stream.journal.length))
    omega
  have hpage : (table.reactions cover page).filter (·.triggerSequence = i) =
      table.reactions cover page := by
    rw [List.filter_eq_self]
    intro reaction hmem
    simpa [triggerSequence_of_mem hmem] using sequence_eq h hi
  rw [hsplit, List.flatMap_append, List.flatMap_cons, List.filter_append, List.filter_append,
    hnone htake, hnone hdrop, hpage, List.append_nil, List.nil_append]

omit [Spec] in
/-- Reactions are numbered as their pages are, in order. -/
theorem reactions_sublist (table : PolicyDispatch) (cover : Option Cover)
    (pages : List EventPage) :
    ((pages.flatMap (table.reactions cover)).map Reaction.triggerSequence).Sublist
      (pages.map EventPage.sequence) := by
  induction pages with
  | nil => exact .slnil
  | cons page pages ih =>
    rw [List.flatMap_cons, List.map_append, List.map_cons]
    unfold PolicyDispatch.reactions at ih ⊢
    split
    · exact ih.cons_cons page.sequence
    · exact ih.cons page.sequence

/-- What is answered of the books of a cut are the reactions to the stream's pages. -/
theorem reactions_answered {stream : Stream} {books : List EventBook}
    (hcut : Cut cover stream books) {answers : List PolicyResponse}
    (h : List.Forall₂ (fun book resp => (table.handle book).result = .ok resp) books answers) :
    (∀ page ∈ stream.journal, ∀ exc, table.outcome cover page ≠ some (.error exc)) ∧
      answers.flatMap PolicyResponse.reactions =
        stream.journal.flatMap (table.reactions cover) := by
  obtain ⟨hcover, hpages⟩ := hcut
  rw [← hpages]
  clear hpages
  induction h with
  | nil => exact ⟨nofun, rfl⟩
  | @cons book resp books answers hbook _ ih =>
    obtain ⟨hok, hresp⟩ := handle_eq_ok hbook
    obtain ⟨hoks, hrest⟩ := ih fun b hb => hcover b (List.mem_cons_of_mem _ hb)
    rw [hcover book (List.mem_cons_self ..)] at hok hresp
    rw [List.flatMap_cons, List.flatMap_cons, List.flatMap_append, hresp, hrest]
    refine ⟨fun page hp => ?_, rfl⟩
    rcases List.mem_append.mp hp with hp | hp
    · exact hok page hp
    · exact hoks page hp

/-- **A stream's events are reacted to once each.** Whatever was delivered to it, and however
its pages are cut into books, when a policy has answered every book its reactions carry the
numbers of the stream's declared pages, each number once and in order; and the reaction of a
number holds what the page's handler returns. -/
theorem stream_reacts_once {σ : Type} [Message σ] [Message CommandRefused]
    (cover : Option Cover) (deliveries : List (Delivery σ)) (table : PolicyDispatch)
    {books : List EventBook}
    (hcut : Cut cover (Run.run (Delivery.act cover) .empty deliveries) books)
    {answers : List PolicyResponse}
    (h : List.Forall₂ (fun book resp => (table.handle book).result = .ok resp) books answers) :
    ((answers.flatMap PolicyResponse.reactions).map Reaction.triggerSequence).Pairwise (· < ·) ∧
      ∀ i page, (Run.run (Delivery.act cover) .empty deliveries).journal[i]? = some page →
        (table.outcome cover page = none ∧
            (answers.flatMap PolicyResponse.reactions).filter (·.triggerSequence = i) = []) ∨
          ∃ outputs, table.outcome cover page = some (.ok outputs) ∧
            (answers.flatMap PolicyResponse.reactions).filter (·.triggerSequence = i) =
              [⟨i, outputs.getD []⟩] := by
  have hnum := numbered_run cover deliveries
  obtain ⟨hok, hreactions⟩ := reactions_answered hcut h
  rw [hreactions]
  refine ⟨?_, fun i page hi => ?_⟩
  · have hsublist := reactions_sublist table cover
      (Run.run (Delivery.act cover) .empty deliveries).journal
    rw [hnum] at hsublist
    exact List.Pairwise.sublist hsublist List.pairwise_lt_range
  · rw [filter_reactions hnum hi]
    have hseq := sequence_eq hnum hi
    have hpage := hok page (List.mem_of_getElem? hi)
    unfold PolicyDispatch.reactions
    rcases ho : table.outcome cover page with _ | exc | outputs
    · exact Or.inl ⟨rfl, rfl⟩
    · exact absurd ho (hpage exc)
    · exact Or.inr ⟨outputs, rfl, by rw [hseq]⟩

end Policy

section Raised

open Ledger

/-- A policy that reacts to the ledger's increases, by no command. -/
def watchful : PolicyDispatch :=
  (PolicyDispatch.new "Watch" "ledger" "audit").onEvent increasedName fun _ _ => .ok none

/-- The two increases, in a book each: a reaction to either. -/
theorem stream_reacts_once_twoIncreases :
    let stream := Run.run (Delivery.act (some Ledger.cover)) .empty Delivery.twoIncreases
    let reactions : List Reaction := [⟨0, []⟩, ⟨1, []⟩]
    (reactions.map Reaction.triggerSequence).Pairwise (· < ·) ∧
      ∀ i page, stream.journal[i]? = some page →
        (watchful.outcome (some Ledger.cover) page = none ∧
            reactions.filter (·.triggerSequence = i) = []) ∨
          ∃ outputs, watchful.outcome (some Ledger.cover) page = some (.ok outputs) ∧
            reactions.filter (·.triggerSequence = i) = [⟨i, outputs.getD []⟩] := by
  intro stream reactions
  have hcut : Cut (some Ledger.cover) stream
      (stream.journal.map fun page => ⟨some Ledger.cover, [page], none, 0⟩) := by
    refine ⟨fun book hmem => ?_, rfl⟩
    obtain ⟨page, -, rfl⟩ := List.mem_map.mp hmem
    rfl
  have hanswers : List.Forall₂ (fun book resp => (watchful.handle book).result = .ok resp)
      (stream.journal.map fun page => ⟨some Ledger.cover, [page], none, 0⟩)
      [⟨[⟨0, []⟩]⟩, ⟨[⟨1, []⟩]⟩] := .cons rfl (.cons rfl .nil)
  exact stream_reacts_once (some Ledger.cover) Delivery.twoIncreases watchful hcut hanswers

end Raised

/-! ### Projectors -/

section Projector

variable {cover : Option Cover} {stream : Stream} {books : List EventBook}

/-- **The position after a book of a cut is where the next one starts.** -/
theorem after_eq (h : stream.Numbered) {pre post : List EventBook} {book : EventBook}
    (hcut : Cut cover stream (pre ++ book :: post)) (hne : book.pages ≠ []) :
    ProjectorDispatch.after book = ((pre ++ [book]).flatMap EventBook.pages).length := by
  obtain ⟨front, last, hpages⟩ := List.eq_nil_or_concat book.pages |>.resolve_left hne
  have hjournal : stream.journal = pre.flatMap EventBook.pages ++ front ++
      last :: post.flatMap EventBook.pages := by
    rw [← hcut.pages, List.flatMap_append, List.flatMap_cons, hpages, List.concat_eq_append]
    simp
  have hlast : stream.journal[(pre.flatMap EventBook.pages ++ front).length]? = some last := by
    rw [hjournal, List.getElem?_append_right (Nat.le_refl _), Nat.sub_self]
    rfl
  have hsequence := sequence_eq h hlast
  rw [ProjectorDispatch.after, hpages, List.concat_eq_append, List.getLast?_concat,
    List.flatMap_append, List.flatMap_singleton, hpages, List.concat_eq_append]
  dsimp only
  rw [hsequence]
  simp only [List.length_append, List.length_singleton]
  omega

/-- The position after a stream is its next sequence. -/
theorem after_whole (h : stream.Numbered) (cover : Option Cover) :
    ProjectorDispatch.after (whole cover stream) = stream.journal.length := by
  by_cases hnil : stream.journal = []
  · rw [ProjectorDispatch.after, whole, hnil]
    rfl
  · have hcut : Cut cover stream ([] ++ whole cover stream :: []) := by
      refine ⟨fun book hmem => ?_, List.append_nil _⟩
      rw [List.mem_singleton.mp hmem, whole]
    exact (after_eq h hcut hnil).trans (congrArg List.length (List.append_nil _))

variable [Spec] {σ : Type} [Message σ] [Message CommandRefused] {rebuilder : Rebuilder σ}
  {fresh : σ}

/-- **A projection of a stream is the state its next handler is called on**, and stands where
the next input is numbered from, when a projector of the stream's domain folds as the
stream's component does. -/
theorem projection_is_state (cover : Option Cover) (hfresh : rebuilder.factory = .ok fresh)
    {deliveries : List (Delivery σ)}
    (h : ∀ d ∈ deliveries, d.table.rebuilder = rebuilder ∧ d.table.ReadOnly)
    {stream : Stream} (hstream : stream = Run.run (Delivery.act cover) .empty deliveries)
    (projector : ProjectorDispatch σ) (hfactory : projector.factory = rebuilder.factory)
    (hevents : projector.events = rebuilder.appliers)
    (hconsumes : projector.consumes (whole cover stream) = true)
    (hlimit : stream.journal.length < Spec.sequenceLimit) :
    ∃ s, (projector.handle (whole cover stream)).result =
        .ok ⟨some (cover.getD default), projector.name, stream.journal.length, some (pack s)⟩ ∧
      ∀ d : Delivery σ, d.table.rebuilder = rebuilder → ∀ decide,
        d.table.route (d.request cover stream) = .ok decide →
          (d.request cover stream).events.nextSequence = stream.journal.length ∧
          ∃ first rest, (d.answer cover stream).log =
              first ++ .handler (PageContext.ofCover d.command.cover) s
                (handed (d.request cover stream)) :: rest ∧
            (∀ c ∈ first, c.isApplier = true) ∧ ∀ c ∈ rest, c.isHandler = false := by
  have hsound : stream.Sound rebuilder fresh cover := by
    rw [hstream]
    exact Delivery.sound_run hfresh h
  obtain ⟨s, hfold⟩ := Delivery.exists_fold hsound
  have hproject : (projector.project (whole cover stream) fresh).result = .ok s := by
    rw [ProjectorDispatch.project, if_pos hconsumes, hevents]
    exact hfold
  have hafter := after_whole hsound.numbered cover
  refine ⟨s, ?_, fun d hd decide hr => ⟨?_, Delivery.handler_on_fold hfresh hsound hfold hd hr⟩⟩
  · rw [ProjectorDispatch.handle, hfactory, hfresh, Traced.bind_of_ok rfl,
      Traced.bind_of_ok hproject]
    have hrespond : projector.respond (whole cover stream) s =
        .ok ⟨some (cover.getD default), projector.name, stream.journal.length, some (pack s)⟩ := by
      rw [ProjectorDispatch.respond, hafter, if_pos hlimit]
      rfl
    rw [hrespond]
    rfl
  · rw [Delivery.request_nextSequence]

end Projector

section Raised

open Ledger

/-- A projector that counts a ledger's increases as the ledger does. -/
def countProjector : ProjectorDispatch CounterState where
  name := "Count"
  factory := ledgerAggregate.rebuilder.factory
  domains := ["ledger"]
  events := ledgerAggregate.rebuilder.appliers
  rulesVersion := ""

/-- The projection of the two increases is the count a third one is handed. -/
theorem projection_is_state_twoIncreases :
    ∃ s, (countProjector.handle (whole (some Ledger.cover)
          (Run.run (Delivery.act (some Ledger.cover)) .empty Delivery.twoIncreases))).result =
        .ok ⟨some Ledger.cover, "Count", 2, some (pack s)⟩ ∧
      ∃ first rest, ((Delivery.increase "v3" none (some 1)).answer (some Ledger.cover)
          (Run.run (Delivery.act (some Ledger.cover)) .empty Delivery.twoIncreases)).log =
        first ++ .handler (PageContext.ofCover (some Ledger.cover)) s
          (handed ((Delivery.increase "v3" none (some 1)).request (some Ledger.cover)
            (Run.run (Delivery.act (some Ledger.cover)) .empty Delivery.twoIncreases))) :: rest ∧
        (∀ c ∈ first, c.isApplier = true) ∧ ∀ c ∈ rest, c.isHandler = false := by
  obtain ⟨s, hprojection, hnext⟩ := projection_is_state (some Ledger.cover) rfl
    Delivery.twoIncreases_rebuilder rfl countProjector rfl rfl (by decide) (by decide)
  exact ⟨s, hprojection, (hnext (Delivery.increase "v3" none (some 1)) rfl _ rfl).2⟩

end Raised

end Cut

end Router

end AngzarrClient
