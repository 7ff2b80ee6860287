import AngzarrClient.GoogleRpc
import AngzarrClient.Router.Errors

/-!
# Decoding an event by its type

Business code reads an event as the message it expects in three ways:
`AngzarrClient.decodeEvent` by a name known at run time, `AngzarrClient.decodeTyped` and
`AngzarrClient.tryUnpack` by the message's class. Each compares names in its own way
before it lets the runtime unpack, and the router has compared them once already, in
`AngzarrClient.Router.typeName`, when it chose the applier that now decodes.

All three come to what the runtime's `Any.Unpack` answers
(`AngzarrClient.decodeTyped_eq`, `AngzarrClient.decodeEvent_eq`,
`AngzarrClient.tryUnpack_eq`). The router and `type_name_from_url` take a URL without any
`/` for the name itself, the runtime does not: that is the one text on which a routed
event is not decoded (`AngzarrClient.readsRouted_iff`).
-/

namespace AngzarrClient

open Router

/-! ### Type URLs -/

/-- `wire_name`: the identity. -/
def wireName (fullName : String) : String := fullName

/-- `type_name_from_url`: what stands after the last `/`; a URL without one is returned
unchanged. -/
def typeNameFromUrl (typeUrl : String) : String :=
  if '/' ∈ typeUrl.toList then String.ofList (Text.rpartition '/' typeUrl.toList).2.2
  else typeUrl

/-- `type_url_matches`. -/
def typeUrlMatches (typeUrl typeName : String) : Bool :=
  typeNameFromUrl typeUrl = wireName typeName

/-- The name helper and the router's read the same name. -/
theorem typeNameFromUrl_eq (typeUrl : String) : typeNameFromUrl typeUrl = typeName typeUrl := by
  unfold typeNameFromUrl typeName
  split
  · rfl
  · next h => rw [Text.rpartition_of_not_mem h, String.ofList_toList]

theorem typeUrlMatches_iff {typeUrl name : String} :
    typeUrlMatches typeUrl name = true ↔ typeName typeUrl = name := by
  rw [typeUrlMatches, decide_eq_true_eq, typeNameFromUrl_eq, wireName]

section Decoding

variable (μ : Type) [Message μ]

/-! ### Decoding -/

/-- `EventPage.decode_typed(μ)`: the message; nothing when there is no payload or it is of
another type; or the text of the runtime's `DecodeError`. -/
def decodeTyped (page : EventPage) : Except String (Option μ) :=
  match page.payload with
  | none => .ok none
  | some payload =>
    if typeUrlMatches payload.typeUrl (Message.fullName μ) then payload.unpack μ else .ok none

/-- `decode_event(page, full_type_name, μ)`. -/
def decodeEvent (page : Option EventPage) (fullTypeName : String) : Except String (Option μ) :=
  match page with
  | none => .ok none
  | some page =>
    match page.payload with
    | none => .ok none
    | some payload =>
      if typeUrlMatches payload.typeUrl fullTypeName then payload.unpack μ else .ok none

/-- `type_matches(any_proto, μ)`. -/
def typeMatches (any : Option Any) : Bool :=
  match any with
  | none => false
  | some any => any.is μ

/-- `try_unpack(any_proto, μ)`. The message starts fresh, and is returned whatever
`Any.Unpack` answers. -/
def tryUnpack [Inhabited μ] (any : Option Any) : Except String (Option μ) :=
  match any with
  | none => .ok none
  | some any =>
    if typeMatches μ (some any) then (any.unpack μ).map fun msg => some (msg.getD default)
    else .ok none

variable {μ}

/-! ### What the three come to -/

/-- `Any.Is`, in the router's words. -/
theorem is_iff {any : Any} :
    any.is μ = true ↔ '/' ∈ any.typeUrl.toList ∧ typeName any.typeUrl = Message.fullName μ :=
  decide_eq_true_iff

/-- An `Any` of another name unpacks as nothing. -/
theorem unpack_of_typeName_ne {any : Any} (h : typeName any.typeUrl ≠ Message.fullName μ) :
    any.unpack μ = .ok none := by
  rw [Any.unpack, if_neg fun his => h (is_iff.mp his).2]

/-- The default `Any` unpacks as nothing: its type URL holds no `/`. -/
theorem unpack_default : (default : Any).unpack μ = .ok none := by
  rw [Any.unpack, if_neg fun his => ?_]
  exact absurd (is_iff.mp his).1 List.not_mem_nil

/-- A name test before `Any.Unpack` changes nothing. -/
theorem guarded_unpack (any : Any) :
    (if typeUrlMatches any.typeUrl (Message.fullName μ) then any.unpack μ else .ok none) =
      any.unpack μ := by
  split
  · rfl
  · next h => exact (unpack_of_typeName_ne fun hname => h (typeUrlMatches_iff.mpr hname)).symm

/-- `decode_typed` answers what the payload unpacks as. -/
theorem decodeTyped_eq (page : EventPage) : decodeTyped μ page = page.getPayload.unpack μ := by
  unfold decodeTyped EventPage.getPayload
  cases page.payload with
  | none => exact unpack_default.symm
  | some payload => exact guarded_unpack payload

/-- `decode_event`, asked for the message's own name, answers the same. -/
theorem decodeEvent_eq (page : EventPage) :
    decodeEvent μ (some page) (Message.fullName μ) = page.getPayload.unpack μ :=
  decodeTyped_eq page

/-- `try_unpack` answers the same: where `Any.Is` holds, `Any.Unpack` never refuses. -/
theorem tryUnpack_eq [Inhabited μ] (any : Any) : tryUnpack μ (some any) = any.unpack μ := by
  unfold tryUnpack typeMatches Any.unpack
  dsimp only
  split
  · cases Message.parse (μ := μ) any.value with
    | error text => rfl
    | ok msg => rfl
  · rfl

/-! ### Routed and decoded -/

/-- What a payload read as a `μ` comes to: the message its bytes hold, or the text of the
runtime's `DecodeError`; never nothing. -/
def readAs (μ : Type) [Message μ] (any : Any) : Except String (Option μ) :=
  (Message.parse any.value).map some

theorem readAs_ne_none (any : Any) : readAs μ any ≠ .ok none := by
  unfold readAs
  cases Message.parse (μ := μ) any.value with
  | error text => nofun
  | ok msg => nofun

/-- An `Any` is read as a `μ` exactly when `Any.Is` holds. -/
theorem unpack_eq_readAs_iff {any : Any} : any.unpack μ = readAs μ any ↔ any.is μ = true := by
  unfold Any.unpack
  split
  · next h => exact ⟨fun _ => h, fun _ => rfl⟩
  · next h => exact ⟨fun hread => absurd hread.symm (readAs_ne_none any), fun his => absurd his h⟩

/-- Every decoder answers the same of a page. -/
def AllAnswer (μ : Type) [Message μ] [Inhabited μ] (page : EventPage)
    (answer : Except String (Option μ)) : Prop :=
  decodeTyped μ page = answer ∧ decodeEvent μ (some page) (Message.fullName μ) = answer ∧
    tryUnpack μ (some page.getPayload) = answer

/-- **What the router routes, the decoders decode**: a page whose URL names the message is
read as one by every decoder, and one whose URL names another answers nothing. -/
structure ReadsRouted (μ : Type) [Message μ] [Inhabited μ] (page : EventPage) : Prop where
  routed : typeName page.getPayload.typeUrl = Message.fullName μ →
    AllAnswer μ page (readAs μ page.getPayload)
  other : typeName page.getPayload.typeUrl ≠ Message.fullName μ → AllAnswer μ page (.ok none)

variable [Inhabited μ]

/-- The decoders agree, on what the payload unpacks as. -/
theorem allAnswer_iff {page : EventPage} {answer : Except String (Option μ)} :
    AllAnswer μ page answer ↔ page.getPayload.unpack μ = answer := by
  rw [AllAnswer, decodeTyped_eq, decodeEvent_eq, tryUnpack_eq, and_self, and_self]

/-- **Exactly a URL with a `/`, or one that names another message, is decoded as it is
routed.** -/
theorem readsRouted_iff (page : EventPage) :
    ReadsRouted μ page ↔
      '/' ∈ page.getPayload.typeUrl.toList ∨
        typeName page.getPayload.typeUrl ≠ Message.fullName μ := by
  by_cases hname : typeName page.getPayload.typeUrl = Message.fullName μ
  · rw [or_iff_left (not_not_intro hname)]
    constructor
    · intro h
      exact (is_iff.mp (unpack_eq_readAs_iff.mp (allAnswer_iff.mp (h.routed hname)))).1
    · intro hslash
      have hread := unpack_eq_readAs_iff.mpr (is_iff.mpr ⟨hslash, hname⟩)
      exact ⟨fun _ => allAnswer_iff.mpr hread, fun hne => absurd hname hne⟩
  · refine ⟨fun _ => Or.inr hname, fun _ => ⟨fun heq => absurd heq hname, fun hne => ?_⟩⟩
    exact allAnswer_iff.mpr (unpack_of_typeName_ne hne)

end Decoding

/-- A fresh `ErrorInfo`. -/
instance : Inhabited ErrorInfo := ⟨"", "", ∅⟩

open scoped GoogleRpc in
/-- A page whose URL is the bare name is routed under that name, and no decoder reads it. -/
theorem not_readsRouted_of_bare_name :
    ¬ReadsRouted ErrorInfo ⟨0, some ⟨"google.rpc.ErrorInfo", []⟩, none⟩ := by
  intro h
  have hdecoded := (h.routed (by decide)).1
  exact readAs_ne_none _ hdecoded.symm

end AngzarrClient
