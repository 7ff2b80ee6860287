import AngzarrClient.Child
import AngzarrClient.Lib.Dict

/-!
# Where a client connects

A domain's coordinator is found under an endpoint made of the domain's name and of the
environment (`AngzarrClient.resolveChEndpoint`), and an endpoint is dialled by its form: a
path is a Unix socket, a scheme picks the credentials, and anything else is a host and a
port (`AngzarrClient.createChannel`).

The form is read off the endpoint's first characters, which two domains of one environment
share; so they are dialled alike, and never at one address
(`AngzarrClient.domains_apart`).
-/

namespace AngzarrClient

open Utf8

/-! ### Endpoints -/

/-- `TransportMode`. -/
inductive TransportMode where
  | standalone
  | distributed
  deriving DecidableEq

/-- `TransportMode(text)`, or its `ValueError`. -/
def TransportMode.parse (text : Str) : Option TransportMode :=
  if text = str "standalone" then some .standalone
  else if text = str "distributed" then some .distributed
  else none

/-- What `resolve_ch_endpoint` reads of its surroundings: the environment, and `int` and
`str` of a number. -/
structure Surroundings where
  environ : Dict Str Str
  /-- `int(text)`; nothing where it raises `ValueError`. -/
  parseInt : Str → Option ℤ
  /-- `str` of a number. -/
  showInt : ℤ → Str

/-- `os.environ.get(name, default)`. -/
def Surroundings.get (os : Surroundings) (name : String) (default : Str) : Str :=
  (os.environ.get? (str name)).getD default

/-- `resolve_ch_endpoint`; nothing where it raises `ValueError`. -/
def resolveChEndpoint (os : Surroundings) (domain : Str) (mode : Option TransportMode)
    (udsBase ns : Str) (port : ℤ) : Option Str := do
  let mode ← mode.or (TransportMode.parse (os.get "ANGZARR_MODE" (str "distributed")))
  match mode with
  | .standalone =>
    let base := os.get "ANGZARR_UDS_BASE" udsBase
    return base ++ str "/ch-" ++ domain ++ str ".sock"
  | .distributed =>
    let ns := os.get "ANGZARR_NAMESPACE" ns
    let p ← os.parseInt (os.get "ANGZARR_CH_PORT" (os.showInt port))
    return str "ch-" ++ domain ++ str "." ++ ns ++ str ".svc:" ++ os.showInt p

/-! ### Channels -/

/-- What a channel is made of: where it goes, and whether under TLS. -/
structure Target where
  secure : Bool
  address : Str
  deriving DecidableEq

/-- `text.rstrip("/")`. -/
def rstripSlash (text : Str) : Str := text.rdropWhile (· = Child.slash)

/-- `_create_channel`. -/
def createChannel (endpoint : Str) : Target :=
  if str "./" <+: endpoint then ⟨false, str "unix:" ++ endpoint⟩
  else if str "/" <+: endpoint then ⟨false, str "unix://" ++ endpoint⟩
  else if str "unix:" <+: endpoint then ⟨false, endpoint⟩
  else if str "https://" <+: endpoint then
    ⟨true, rstripSlash (endpoint.drop (str "https://").length)⟩
  else if str "http://" <+: endpoint then
    ⟨false, rstripSlash (endpoint.drop (str "http://").length)⟩
  else ⟨false, endpoint⟩

/-! ### The form of an endpoint -/

/-- What the first characters of an endpoint are compared with. -/
def forms : List Str := [str "./", str "/", str "unix:", str "https://", str "http://"]

/-- A text that is no start of another has that one at its front as far as it goes. -/
theorem prefix_append_iff {p c : Str} (h : ¬c <+: p) (t : Str) : p <+: c ++ t ↔ p <+: c := by
  refine ⟨fun hp => ?_, fun hp => hp.trans (List.prefix_append c t)⟩
  exact (List.prefix_or_prefix_of_prefix hp (List.prefix_append c t)).resolve_right h

/-- An endpoint of no form is a host and a port. -/
theorem createChannel_plain {endpoint : Str} (h : ∀ p ∈ forms, ¬p <+: endpoint) :
    createChannel endpoint = ⟨false, endpoint⟩ := by
  rw [createChannel, if_neg (h _ (by decide)), if_neg (h _ (by decide)), if_neg (h _ (by decide)),
    if_neg (h _ (by decide)), if_neg (h _ (by decide))]

/-- A text that ends in no slash loses nothing, whatever is before it. -/
theorem rstripSlash_append (s : Str) {t : Str} (hne : t ≠ [])
    (ht : t.getLast hne ≠ Child.slash) : rstripSlash (s ++ t) = s ++ t := by
  rw [rstripSlash, List.rdropWhile_eq_self_iff]
  intro hst
  rw [List.getLast_append_of_ne_nil hst hne]
  simpa using ht

/-- Endpoints of one start, as long as that decides their form, are dialled at addresses of
their own. -/
theorem createChannel_append_inj {c : Str} (hc : ∀ p ∈ forms, ¬c <+: p) {t t' : Str}
    (hne : t ≠ []) (hne' : t' ≠ []) (ht : t.getLast hne ≠ Child.slash)
    (ht' : t'.getLast hne' ≠ Child.slash)
    (h : createChannel (c ++ t) = createChannel (c ++ t')) : t = t' := by
  have hform (p : Str) (hp : p ∈ forms) (t : Str) : p <+: c ++ t ↔ p <+: c :=
    prefix_append_iff (hc p hp) t
  unfold createChannel at h
  simp only [hform (str "./") (by decide), hform (str "/") (by decide),
    hform (str "unix:") (by decide), hform (str "https://") (by decide),
    hform (str "http://") (by decide)] at h
  split at h
  · exact List.append_cancel_left (List.append_cancel_left (congrArg Target.address h))
  split at h
  · exact List.append_cancel_left (List.append_cancel_left (congrArg Target.address h))
  split at h
  · exact List.append_cancel_left (congrArg Target.address h)
  split at h
  · next hp =>
    rw [List.drop_append_of_le_length hp.length_le, List.drop_append_of_le_length hp.length_le,
      rstripSlash_append _ hne ht, rstripSlash_append _ hne' ht'] at h
    exact List.append_cancel_left (congrArg Target.address h)
  split at h
  · next hp =>
    rw [List.drop_append_of_le_length hp.length_le, List.drop_append_of_le_length hp.length_le,
      rstripSlash_append _ hne ht, rstripSlash_append _ hne' ht'] at h
    exact List.append_cancel_left (congrArg Target.address h)
  · exact List.append_cancel_left (congrArg Target.address h)

/-! ### The endpoints of domains -/

/-- What stands before a domain's socket decides the form of its endpoint. -/
theorem socket_form (base : Str) : ∀ p ∈ forms, ¬base ++ str "/ch-" <+: p := by
  have hinner : ∀ p ∈ forms, ¬str "/ch-" <:+: p := by decide
  intro p hp h
  exact hinner p hp ((List.suffix_append base (str "/ch-")).isInfix.trans h.isInfix)

/-- **One environment puts the same around every domain**: it has no endpoint for any, or a
socket for each, or a host for each. -/
theorem resolveChEndpoint_cases (os : Surroundings) (mode : Option TransportMode)
    (udsBase ns : Str) (port : ℤ) :
    (∀ domain, resolveChEndpoint os domain mode udsBase ns port = none) ∨
      (∃ base, ∀ domain, resolveChEndpoint os domain mode udsBase ns port =
        some (base ++ str "/ch-" ++ (domain ++ str ".sock"))) ∨
      ∃ rest, ∀ domain, resolveChEndpoint os domain mode udsBase ns port =
        some (str "ch-" ++ (domain ++ rest)) := by
  simp only [resolveChEndpoint]
  cases mode.or (TransportMode.parse (os.get "ANGZARR_MODE" (str "distributed"))) with
  | none => exact .inl fun _ => rfl
  | some mode =>
    cases mode with
    | standalone =>
      refine .inr (.inl ⟨os.get "ANGZARR_UDS_BASE" udsBase, fun domain => ?_⟩)
      exact congrArg some (List.append_assoc _ _ _)
    | distributed =>
      cases hport : os.parseInt (os.get "ANGZARR_CH_PORT" (os.showInt port)) with
      | none => exact .inl fun _ => rfl
      | some p =>
        refine .inr (.inr ⟨str "." ++ os.get "ANGZARR_NAMESPACE" ns ++ str ".svc:" ++
          os.showInt p, fun domain => ?_⟩)
        refine congrArg some ?_
        simp only [List.append_assoc]

/-- A host of a domain is of no form. -/
theorem createChannel_host (rest : Str) :
    createChannel (str "ch-" ++ rest) = ⟨false, str "ch-" ++ rest⟩ := by
  refine createChannel_plain fun p hp => ?_
  have hform : ∀ p ∈ forms, ¬str "ch-" <+: p ∧ ¬p <+: str "ch-" := by decide
  rw [prefix_append_iff (hform p hp).1]
  exact (hform p hp).2

/-- A socket's name ends in no slash. -/
theorem getLast_socket {domain : Str} (h : domain ++ str ".sock" ≠ []) :
    (domain ++ str ".sock").getLast h ≠ Child.slash := by
  rw [List.getLast_append_of_ne_nil h (by decide)]
  decide

/-- **Two domains are never dialled at one address**, whatever the environment. -/
theorem domains_apart (os : Surroundings) (mode : Option TransportMode) (udsBase ns : Str)
    (port : ℤ) {domain domain' endpoint endpoint' : Str}
    (h : resolveChEndpoint os domain mode udsBase ns port = some endpoint)
    (h' : resolveChEndpoint os domain' mode udsBase ns port = some endpoint') :
    createChannel endpoint = createChannel endpoint' ↔ domain = domain' := by
  refine ⟨fun hsame => ?_, ?_⟩
  swap
  · rintro rfl
    rw [Option.some.inj (h.symm.trans h')]
  rcases resolveChEndpoint_cases os mode udsBase ns port with
    hnone | ⟨base, hsocket⟩ | ⟨rest, hhost⟩
  · rw [hnone] at h
    cases h
  · rw [hsocket] at h h'
    obtain rfl := Option.some.inj h
    obtain rfl := Option.some.inj h'
    have hne (domain : Str) : domain ++ str ".sock" ≠ [] := by simp [str]
    exact List.append_cancel_right (createChannel_append_inj (socket_form base)
      (hne domain) (hne domain') (getLast_socket _) (getLast_socket _) hsame)
  · rw [hhost] at h h'
    obtain rfl := Option.some.inj h
    obtain rfl := Option.some.inj h'
    rw [createChannel_host, createChannel_host] at hsame
    exact List.append_cancel_right (List.append_cancel_left (congrArg Target.address hsame))

/-- Two domains behind a base that makes a scheme of their sockets. -/
theorem domains_apart_scheme :
    createChannel (str "https://ch-hand.sock") ≠ createChannel (str "https://ch-table.sock") := by
  have h : resolveChEndpoint ⟨∅, fun _ => none, fun _ => []⟩ (str "hand") (some .standalone)
      (str "https:/") [] 0 = some (str "https://ch-hand.sock") := by decide
  have h' : resolveChEndpoint ⟨∅, fun _ => none, fun _ => []⟩ (str "table") (some .standalone)
      (str "https:/") [] 0 = some (str "https://ch-table.sock") := by decide
  exact (domains_apart _ _ _ _ _ h h').not.mpr (by decide)

end AngzarrClient
