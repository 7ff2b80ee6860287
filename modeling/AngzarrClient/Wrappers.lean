import AngzarrClient.Lib.Hex
import AngzarrClient.Lib.Text
import AngzarrClient.Proto

/-!
# What a cover is known by

Whatever carries a cover answers for it (`AngzarrClient.CoverBearer`): its domain, its
root, its edition, and the key a cache files its aggregate under,
`<edition>:<domain>:<root>` (`AngzarrClient.CoverBearer.cacheKey`).

An edition may hold the separator, so the key is read from its right end: the root is
hexadecimal digits and a domain holds no `:`, hence the last two separators of a key are
its own and the three fields come back from it
(`AngzarrClient.CoverBearer.cacheKey_eq_iff`).
-/

namespace AngzarrClient

/-- `UNKNOWN_DOMAIN`. -/
def unknownDomain : String := "unknown"

/-- `CoverBearer`: what carries a cover. -/
class CoverBearer (β : Type) where
  /-- `_cover_proto`: the cover, nothing when it is missing. -/
  coverProto : β → Option Cover

instance : CoverBearer Cover := ⟨some⟩

instance : CoverBearer EventBook := ⟨EventBook.cover⟩

instance : CoverBearer CommandBook := ⟨CommandBook.cover⟩

instance : CoverBearer Query := ⟨Query.cover⟩

namespace CoverBearer

variable {β : Type} [CoverBearer β]

/-- `domain`: `UNKNOWN_DOMAIN` when there is none. -/
def domain (bearer : β) : String :=
  match coverProto bearer with
  | none => unknownDomain
  | some c => if c.domain = "" then unknownDomain else c.domain

/-- `root_id_hex`: nothing when there is no root. -/
def rootIdHex (bearer : β) : String :=
  match coverProto bearer with
  | none => ""
  | some c =>
    match c.root with
    | none => ""
    | some root => String.ofList (Hex.encode root.value)

/-- `edition`: a missing one and an empty one are none. -/
def edition (bearer : β) : Option String :=
  match coverProto bearer with
  | none => none
  | some c =>
    match c.edition with
    | none => none
    | some edition => if edition = "" then none else some edition

/-- `cache_key`. -/
def cacheKey (bearer : β) : String :=
  (edition bearer).getD "" ++ ":" ++ domain bearer ++ ":" ++ rootIdHex bearer

/-! ### Through any bearer -/

/-- `cover()`: the wrapped cover, the default one when there is none. -/
def cover (bearer : β) : Cover := (coverProto bearer).getD default

/-- **A bearer's key is its cover's**, missing or not. -/
theorem cacheKey_cover (bearer : β) : cacheKey (cover bearer) = cacheKey bearer := by
  unfold cacheKey edition domain rootIdHex cover
  cases coverProto bearer with
  | none => rfl
  | some c => rfl

/-- A cover's key is the same through whatever carries it. -/
theorem cacheKey_of_coverProto {bearer : β} {c : Cover} (h : coverProto bearer = some c) :
    cacheKey bearer = cacheKey c := by
  rw [← cacheKey_cover bearer, cover, h, Option.getD_some]

/-! ### The fields of a key -/

/-- A cover's edition as text: a missing one is empty. -/
def editionText (c : Cover) : String := c.edition.getD ""

/-- A cover's root as bytes: a missing one is empty. -/
def rootBytes (c : Cover) : Bytes := (c.root.getD default).value

theorem getD_edition (c : Cover) : (edition c).getD "" = editionText c := by
  show (match c.edition with
    | none => none
    | some edition => if edition = "" then none else some edition).getD "" = c.edition.getD ""
  cases c.edition with
  | none => rfl
  | some e =>
    by_cases he : e = ""
    · simp [he]
    · simp [he]

theorem rootIdHex_eq (c : Cover) : rootIdHex c = String.ofList (Hex.encode (rootBytes c)) := by
  show (match c.root with
    | none => ""
    | some root => String.ofList (Hex.encode root.value)) = _
  unfold rootBytes
  cases c.root with
  | none => rfl
  | some root => rfl

theorem domain_eq {c : Cover} (h : c.domain ≠ "") : domain c = c.domain := if_neg h

/-- The framework's rule for domains: not empty, and without the separator. -/
structure Named (c : Cover) : Prop where
  ne_empty : c.domain ≠ ""
  no_colon : ':' ∉ c.domain.toList

theorem colon_not_mem_encode (bytes : List UInt8) : ':' ∉ Hex.encode bytes := fun h => by
  have hdigit : ':' ∉ Hex.digits := by decide
  exact hdigit (Hex.mem_encode h)

/-- A key's characters. -/
theorem toList_cacheKey {c : Cover} (h : Named c) :
    (cacheKey c).toList =
      (editionText c).toList ++ ':' :: c.domain.toList ++ ':' :: Hex.encode (rootBytes c) := by
  rw [cacheKey, getD_edition, domain_eq h.ne_empty, rootIdHex_eq]
  simp [String.toList_append]

/-- **Two keys are the same exactly when the three fields are.** -/
theorem cacheKey_eq_iff {c c' : Cover} (h : Named c) (h' : Named c') :
    cacheKey c = cacheKey c' ↔
      editionText c = editionText c' ∧ c.domain = c'.domain ∧ rootBytes c = rootBytes c' := by
  rw [← String.toList_inj, toList_cacheKey h, toList_cacheKey h',
    Text.append_sep_inj (colon_not_mem_encode _) (colon_not_mem_encode _),
    Text.append_sep_inj h.no_colon h'.no_colon, Hex.encode_injective.eq_iff,
    String.toList_inj, String.toList_inj, and_assoc]

/-- **Cache keys do not collide**, and a cover's is the same through every bearer. -/
theorem cache_keys_do_not_collide {c c' : Cover} (h : Named c) (h' : Named c') :
    (cacheKey c = cacheKey c' ↔
      editionText c = editionText c' ∧ c.domain = c'.domain ∧ rootBytes c = rootBytes c') ∧
    (∀ book : EventBook, book.cover = some c → cacheKey book = cacheKey c) ∧
    (∀ book : CommandBook, book.cover = some c → cacheKey book = cacheKey c) ∧
    ∀ query : Query, query.cover = some c → cacheKey query = cacheKey c := by
  refine ⟨cacheKey_eq_iff h h', ?_, ?_, ?_⟩
  · intro book hbook
    exact cacheKey_of_coverProto hbook
  · intro book hbook
    exact cacheKey_of_coverProto hbook
  · intro query hquery
    exact cacheKey_of_coverProto hquery

/-- An edition that holds the separator and the domain after it keeps its own key. -/
theorem cache_keys_do_not_collide_editions :
    cacheKey (⟨"orders", some ⟨[10]⟩, some "a:orders"⟩ : Cover) ≠
      cacheKey (⟨"orders", some ⟨[10]⟩, some "a"⟩ : Cover) := by
  have h : Named ⟨"orders", some ⟨[10]⟩, some "a:orders"⟩ := ⟨by decide, by decide⟩
  have h' : Named ⟨"orders", some ⟨[10]⟩, some "a"⟩ := ⟨by decide, by decide⟩
  intro heq
  have hfields := (cache_keys_do_not_collide h h').1.mp heq
  exact absurd hfields.1 (by decide)

end CoverBearer

end AngzarrClient
