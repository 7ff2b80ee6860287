import AngzarrClient.Client.Calls
import AngzarrClient.Lib.Run
import AngzarrClient.Retry

/-!
# Who closes a channel

A channel is made by the caller, or by the client that connects; a client is made over a
channel it owns or borrows, of a stub, or – a domain's – of two clients. All of them may be
closed, in any order and more than once, and closing one closes its channel if it owns it
and does nothing if it does not. An action is one of these
(`AngzarrClient.Client.Action`), and a run any list of them.

* A channel is closed exactly when somebody entitled to has closed it: the caller, or an
  object that owned it at the time (`AngzarrClient.Connections.closed_run_iff`). That is also
  exactly when a client over it sends nothing and raises what it reads off grpc-python's error
  (`AngzarrClient.Connections.refused_iff`).
* Where clients are made by the class methods alone, a channel has one owner at most, the
  object that connected it (`AngzarrClient.Connections.tidy_run`); so what connected works
  until it is closed itself, whoever borrows its channel meanwhile
  (`AngzarrClient.Connections.connected_until_closed`).
-/

namespace AngzarrClient

open Utf8

namespace Connections

/-! ### Making and closing -/

/-- No objects yet. -/
def empty : Connections := ⟨[], [], []⟩

/-- A channel to a target, open. -/
def addChannel (w : Connections) (target : Target) : Connections :=
  { w with channels := w.channels ++ [⟨target, false⟩] }

/-- A client more. -/
def addClient (w : Connections) (c : Client) : Connections := { w with clients := w.clients ++ [c] }

/-- A domain's client more. -/
def addDomain (w : Connections) (d : DomainClient) : Connections :=
  { w with domains := w.domains ++ [d] }

/-- `QueryClient(channel, owns_channel)`, `CommandHandlerClient(channel, owns_channel)`. -/
def newClient (w : Connections) (kind : ClientKind) (channel : ℕ) (owns : Bool) : Connections :=
  w.addClient ⟨kind, .bound channel, some channel, owns, by simp, fun _ => rfl⟩

/-- `from_channel`. -/
def fromChannel (w : Connections) (kind : ClientKind) (channel : ℕ) : Connections :=
  w.newClient kind channel false

/-- `from_stub`. -/
def fromStub (w : Connections) (kind : ClientKind) (stub : ℕ) : Connections :=
  w.addClient ⟨kind, .given stub, none, false, by simp, by simp⟩

/-- `DomainClient(channel, owns_channel)`. -/
def newDomain (w : Connections) (channel : ℕ) (owns : Bool) : Connections :=
  let commandHandler := w.clients.length
  let w := w.fromChannel .commandHandler channel
  let query := w.clients.length
  let w := w.fromChannel .query channel
  w.addDomain ⟨commandHandler, query, some channel, owns, fun _ => rfl⟩

/-- `DomainClient.from_clients`. -/
def fromClients (w : Connections) (commandHandler query : ℕ) : Connections :=
  w.addDomain ⟨commandHandler, query, none, false, by simp⟩

/-- `channel.close()`. -/
def closeChannel (w : Connections) (channel : ℕ) : Connections :=
  { w with channels := w.channels.modify channel fun c => { c with closed := true } }

/-- The body of every `close` method: the channel is closed if it is owned. -/
def closeOwned (w : Connections) (channel : Option ℕ) (owns : Bool) : Connections :=
  if owns then
    match channel with
    | some channel => w.closeChannel channel
    | none => w
  else w

end Connections

/-! ### Runs -/

/-- An object with a `close` method, by its place. -/
inductive Holder where
  | client (place : ℕ)
  | domain (place : ℕ)
  deriving DecidableEq

/-- A `connect`: what is dialled, the policy it is retried under, and what each attempt to
make the channel comes to. -/
structure Dial (ε : Type) where
  endpoint : Str
  retry : Option (ExponentialBackoffRetry ε)
  attempts : ℕ → Except ε Unit
  draws : ℕ → Draw

/-- Whether `policy.execute` returned a channel. -/
def Dial.made {ε : Type} (dial : Dial ε) : Bool :=
  match ((dial.retry.getD defaultRetryPolicy).execute dial.attempts dial.draws).result with
  | .ok () => true
  | .error _ => false

/-- What a caller does to channels and clients. `__exit__` is `close`, and `from_env` and
`for_domain` connect to the endpoint they find. -/
inductive Client.Action (ε : Type) where
  /-- A channel of the caller's own. -/
  | channel (target : Target)
  /-- `channel.close()`, by the caller. -/
  | closeChannel (channel : ℕ)
  | new (kind : ClientKind) (channel : ℕ) (owns : Bool)
  | fromChannel (kind : ClientKind) (channel : ℕ)
  | fromStub (kind : ClientKind) (stub : ℕ)
  | connect (kind : ClientKind) (dial : Dial ε)
  | newDomain (channel : ℕ) (owns : Bool)
  | domainFromChannel (channel : ℕ)
  | fromClients (commandHandler query : ℕ)
  | connectDomain (dial : Dial ε)
  | close (holder : Holder)

namespace Connections

variable {ε : Type}

/-- **One action.** Of what does not exist there is none. -/
def act (w : Connections) : Client.Action ε → Connections
  | .channel target => w.addChannel target
  | .closeChannel channel => w.closeChannel channel
  | .new kind channel owns =>
    if channel < w.channels.length then w.newClient kind channel owns else w
  | .fromChannel kind channel =>
    if channel < w.channels.length then w.fromChannel kind channel else w
  | .fromStub kind stub => w.fromStub kind stub
  | .connect kind dial =>
    if dial.made then
      (w.addChannel (createChannel dial.endpoint)).newClient kind w.channels.length true
    else w
  | .newDomain channel owns =>
    if channel < w.channels.length then w.newDomain channel owns else w
  | .domainFromChannel channel =>
    if channel < w.channels.length then w.newDomain channel false else w
  | .fromClients commandHandler query =>
    if commandHandler < w.clients.length ∧ query < w.clients.length then
      w.fromClients commandHandler query
    else w
  | .connectDomain dial =>
    if dial.made then
      (w.addChannel (createChannel dial.endpoint)).newDomain w.channels.length true
    else w
  | .close (.client place) =>
    match w.clients[place]? with
    | some c => w.closeOwned c.channel c.ownsChannel
    | none => w
  | .close (.domain place) =>
    match w.domains[place]? with
    | some d => w.closeOwned d.channel d.ownsChannel
    | none => w

/-- An object owns a channel. -/
def Owns (w : Connections) (channel : ℕ) : Holder → Prop
  | .client place => ∃ c, w.clients[place]? = some c ∧ c.ownsChannel = true ∧
      c.channel = some channel
  | .domain place => ∃ d, w.domains[place]? = some d ∧ d.ownsChannel = true ∧
      d.channel = some channel

/-- An action closes a channel: the caller's own close, or the close of an owner. -/
def Closes (channel : ℕ) (w : Connections) : Client.Action ε → Prop
  | .closeChannel closed => closed = channel ∧ channel < w.channels.length
  | .close holder => w.Owns channel holder ∧ channel < w.channels.length
  | _ => False

/-! ### What is closed -/

/-- Whether a channel is closed is a matter of the channels. -/
theorem closed_congr {w w' : Connections} (h : w'.channels = w.channels) (stub : Stub) :
    w'.closed stub = w.closed stub := by
  cases stub with
  | bound channel => rw [closed, closed, h]
  | given stub => rfl

/-- A new channel is open, and leaves the others as they are. -/
theorem closed_addChannel (w : Connections) (target : Target) (stub : Stub) :
    (w.addChannel target).closed stub = w.closed stub := by
  cases stub with
  | given stub => rfl
  | bound channel =>
    rw [closed, closed, addChannel]
    rcases Nat.lt_trichotomy channel w.channels.length with h | rfl | h
    · rw [List.getElem?_append_left h]
    · simp
    · rw [List.getElem?_eq_none (by simp; omega), List.getElem?_eq_none (by omega)]

theorem closed_closeChannel (w : Connections) (closing channel : ℕ) :
    (w.closeChannel closing).closed (.bound channel) = true ↔
      w.closed (.bound channel) = true ∨ closing = channel ∧ channel < w.channels.length := by
  rw [closed, closed, closeChannel, List.getElem?_modify]
  by_cases h : channel < w.channels.length
  · rw [List.getElem?_eq_getElem h]
    by_cases heq : closing = channel <;> simp [heq, h]
  · rw [List.getElem?_eq_none (by omega)]
    simp [h]

theorem closed_closeOwned (w : Connections) {owned : Option ℕ} {owns : Bool} (channel : ℕ) :
    (w.closeOwned owned owns).closed (.bound channel) = true ↔
      w.closed (.bound channel) = true ∨
        (owns = true ∧ owned = some channel) ∧ channel < w.channels.length := by
  unfold closeOwned
  split
  · next howns =>
    split
    · next closing =>
      rw [closed_closeChannel]
      simp [howns]
    · simp
  · next howns => simp [howns]

theorem closed_newClient (w : Connections) (kind : ClientKind) (channel : ℕ) (owns : Bool)
    (stub : Stub) : (w.newClient kind channel owns).closed stub = w.closed stub :=
  closed_congr rfl stub

theorem closed_newDomain (w : Connections) (channel : ℕ) (owns : Bool) (stub : Stub) :
    (w.newDomain channel owns).closed stub = w.closed stub :=
  closed_congr rfl stub

/-- An action that makes an object, if it can, leaves what is closed as it was. -/
theorem closed_ite {w made : Connections} {p : Prop} [Decidable p] {stub : Stub}
    (h : made.closed stub = w.closed stub) :
    (if p then made else w).closed stub = w.closed stub := by
  split
  · exact h
  · rfl

/-- **What one action closes**: nothing opens, and nothing closes but what the action is
entitled to close. -/
theorem closed_act_iff (w : Connections) (a : Client.Action ε) (channel : ℕ) :
    (w.act a).closed (.bound channel) = true ↔
      w.closed (.bound channel) = true ∨ Closes channel w a := by
  have hmade {w' : Connections} (h : w'.closed (.bound channel) = w.closed (.bound channel)) :
      w'.closed (.bound channel) = true ↔ w.closed (.bound channel) = true ∨ False := by
    rw [h, or_false]
  cases a with
  | channel target => exact hmade (closed_addChannel w target _)
  | closeChannel closing => exact closed_closeChannel w closing channel
  | new kind ch owns => exact hmade (closed_ite (closed_newClient w kind ch owns _))
  | fromChannel kind ch => exact hmade (closed_ite (closed_newClient w kind ch false _))
  | fromStub kind stub => exact hmade (closed_congr rfl _)
  | connect kind dial =>
    exact hmade (closed_ite ((closed_newClient _ kind _ true _).trans (closed_addChannel w _ _)))
  | newDomain ch owns => exact hmade (closed_ite (closed_newDomain w ch owns _))
  | domainFromChannel ch => exact hmade (closed_ite (closed_newDomain w ch false _))
  | fromClients commandHandler query => exact hmade (closed_ite (closed_congr rfl _))
  | connectDomain dial =>
    exact hmade (closed_ite ((closed_newDomain _ _ true _).trans (closed_addChannel w _ _)))
  | close holder =>
    cases holder with
    | client place =>
      rw [act, Closes, Owns]
      cases hc : w.clients[place]? with
      | none => simp
      | some c => simp only [closed_closeOwned, Option.some.injEq, exists_eq_left']
    | domain place =>
      rw [act, Closes, Owns]
      cases hd : w.domains[place]? with
      | none => simp
      | some d => simp only [closed_closeOwned, Option.some.injEq, exists_eq_left']

/-- A class method makes no owner but where it connects: the constructors do so only where
they are told to. -/
def ByClassMethod : Client.Action ε → Prop
  | .new _ _ owns => owns = false
  | .newDomain _ owns => owns = false
  | _ => True

/-- The object an action connects, if it does. -/
def connected (w : Connections) : Client.Action ε → Option Holder
  | .connect _ dial => if dial.made then some (.client w.clients.length) else none
  | .connectDomain dial => if dial.made then some (.domain w.domains.length) else none
  | _ => none

theorem owns_addClient_iff {w : Connections} {c : Client} {channel : ℕ} {holder : Holder} :
    (w.addClient c).Owns channel holder ↔ w.Owns channel holder ∨
      holder = .client w.clients.length ∧ c.ownsChannel = true ∧ c.channel = some channel := by
  cases holder with
  | domain place => simp [Owns, addClient]
  | client place =>
    simp only [Owns, addClient, Holder.client.injEq]
    rcases Nat.lt_trichotomy place w.clients.length with h | rfl | h
    · rw [List.getElem?_append_left h]
      simp [Nat.ne_of_lt h]
    · simp
    · rw [List.getElem?_eq_none (by simp; omega), List.getElem?_eq_none (by omega)]
      simp [Nat.ne_of_gt h]

theorem owns_addDomain_iff {w : Connections} {d : DomainClient} {channel : ℕ} {holder : Holder} :
    (w.addDomain d).Owns channel holder ↔ w.Owns channel holder ∨
      holder = .domain w.domains.length ∧ d.ownsChannel = true ∧ d.channel = some channel := by
  cases holder with
  | client place => simp [Owns, addDomain]
  | domain place =>
    simp only [Owns, addDomain, Holder.domain.injEq]
    rcases Nat.lt_trichotomy place w.domains.length with h | rfl | h
    · rw [List.getElem?_append_left h]
      simp [Nat.ne_of_lt h]
    · simp
    · rw [List.getElem?_eq_none (by simp; omega), List.getElem?_eq_none (by omega)]
      simp [Nat.ne_of_gt h]

theorem owns_newClient_iff {w : Connections} {kind : ClientKind} {made channel : ℕ} {owns : Bool}
    {holder : Holder} :
    (w.newClient kind made owns).Owns channel holder ↔ w.Owns channel holder ∨
      holder = .client w.clients.length ∧ owns = true ∧ made = channel := by
  rw [newClient, owns_addClient_iff]
  simp

theorem owns_newDomain_iff {w : Connections} {made channel : ℕ} {owns : Bool} {holder : Holder} :
    (w.newDomain made owns).Owns channel holder ↔ w.Owns channel holder ∨
      holder = .domain w.domains.length ∧ owns = true ∧ made = channel := by
  simp only [newDomain, owns_addDomain_iff, fromChannel, owns_newClient_iff]
  simp [newClient, addClient]

/-- Closing changes no object's channel. -/
theorem owns_closeOwned (w : Connections) (owned : Option ℕ) (owns : Bool) (channel : ℕ)
    (holder : Holder) :
    (w.closeOwned owned owns).Owns channel holder ↔ w.Owns channel holder := by
  unfold closeOwned
  split
  · split
    · cases holder <;> rfl
    · rfl
  · rfl

/-- **Who owns a channel after a class method**: who did before, and the object that connects
owns the channel it made. -/
theorem owns_act_iff {w : Connections} {a : Client.Action ε} (ha : ByClassMethod a) {channel : ℕ}
    {holder : Holder} :
    (w.act a).Owns channel holder ↔ w.Owns channel holder ∨
      connected w a = some holder ∧ w.channels.length = channel := by
  have hnothing {w' : Connections} (h : w'.Owns channel holder ↔ w.Owns channel holder) :
      w'.Owns channel holder ↔ w.Owns channel holder ∨
        (none : Option Holder) = some holder ∧ w.channels.length = channel := by
    simp [h]
  -- Only the two that connect make an owner.
  cases a with
  | channel target => exact hnothing (by cases holder <;> rfl)
  | closeChannel closing => exact hnothing (by cases holder <;> rfl)
  | new kind ch owns =>
    obtain rfl : owns = false := ha
    refine hnothing ?_
    rw [act]
    split
    · simp [owns_newClient_iff]
    · rfl
  | fromChannel kind ch =>
    refine hnothing ?_
    rw [act]
    split
    · simp [fromChannel, owns_newClient_iff]
    · rfl
  | fromStub kind stub =>
    refine hnothing ?_
    simp [act, fromStub, owns_addClient_iff]
  | connect kind dial =>
    rw [act, connected]
    split
    · rw [owns_newClient_iff, Option.some.injEq]
      simp only [true_and]
      exact or_congr (by cases holder <;> rfl) (and_congr_left fun _ => eq_comm)
    · simp
  | newDomain ch owns =>
    obtain rfl : owns = false := ha
    refine hnothing ?_
    rw [act]
    split
    · simp [owns_newDomain_iff]
    · rfl
  | domainFromChannel ch =>
    refine hnothing ?_
    rw [act]
    split
    · simp [owns_newDomain_iff]
    · rfl
  | fromClients commandHandler query =>
    refine hnothing ?_
    rw [act]
    split
    · simp [fromClients, owns_addDomain_iff]
    · rfl
  | connectDomain dial =>
    rw [act, connected]
    split
    · rw [owns_newDomain_iff, Option.some.injEq]
      simp only [true_and]
      exact or_congr (by cases holder <;> rfl) (and_congr_left fun _ => eq_comm)
    · simp
  | close closing =>
    refine hnothing ?_
    cases closing with
    | client place =>
      rw [act]
      split
      · exact owns_closeOwned w _ _ channel holder
      · rfl
    | domain place =>
      rw [act]
      split
      · exact owns_closeOwned w _ _ channel holder
      · rfl

/-- Channels are only ever added, and connecting adds one. -/
theorem length_channels_act (w : Connections) (a : Client.Action ε) :
    w.channels.length ≤ (w.act a).channels.length ∧
      ((connected w a).isSome = true → w.channels.length < (w.act a).channels.length) := by
  have hsame {w' : Connections} (h : w'.channels.length = w.channels.length) :
      w.channels.length ≤ w'.channels.length ∧
        ((none : Option Holder).isSome = true → w.channels.length < w'.channels.length) :=
    ⟨Nat.le_of_eq h.symm, nofun⟩
  have hite {made : Connections} {p : Prop} [Decidable p]
      (h : made.channels.length = w.channels.length) :
      (if p then made else w).channels.length = w.channels.length := by
    split
    · exact h
    · rfl
  have hclose (owned : Option ℕ) (owns : Bool) :
      (w.closeOwned owned owns).channels.length = w.channels.length := by
    unfold closeOwned
    split
    · split
      · simp [closeChannel]
      · rfl
    · rfl
  cases a with
  | channel target => simp [act, addChannel, connected]
  | closeChannel closing => exact hsame (by simp [act, closeChannel])
  | new kind ch owns => exact hsame (hite rfl)
  | fromChannel kind ch => exact hsame (hite rfl)
  | fromStub kind stub => exact hsame rfl
  | connect kind dial =>
    rw [act, connected]
    split
    · simp [newClient, addClient, addChannel]
    · simp
  | newDomain ch owns => exact hsame (hite rfl)
  | domainFromChannel ch => exact hsame (hite rfl)
  | fromClients commandHandler query => exact hsame (hite rfl)
  | connectDomain dial =>
    rw [act, connected]
    split
    · simp [newDomain, fromChannel, newClient, addClient, addDomain, addChannel]
    · simp
  | close closing =>
    cases closing with
    | client place =>
      rw [act]
      split
      · exact hsame (hclose _ _)
      · exact hsame rfl
    | domain place =>
      rw [act]
      split
      · exact hsame (hclose _ _)
      · exact hsame rfl

/-- **A channel has one owner at most**, and only a channel that exists has one. -/
structure Tidy (w : Connections) : Prop where
  exists_channel : ∀ {channel holder}, w.Owns channel holder → channel < w.channels.length
  owner_eq : ∀ {channel holder holder'}, w.Owns channel holder → w.Owns channel holder' →
    holder = holder'

theorem tidy_empty : empty.Tidy where
  exists_channel := by
    intro channel holder h
    cases holder <;> simp [Owns, empty] at h
  owner_eq := by
    intro channel holder holder' h
    cases holder <;> simp [Owns, empty] at h

/-- A class method keeps the owners apart: what it connects owns a channel that was not
there. -/
theorem tidy_act {w : Connections} (h : w.Tidy) {a : Client.Action ε} (ha : ByClassMethod a) :
    (w.act a).Tidy where
  exists_channel := by
    intro channel holder howns
    have hlength := length_channels_act w a
    rcases (owns_act_iff ha).mp howns with howns | ⟨hconnected, rfl⟩
    · exact Nat.lt_of_lt_of_le (h.exists_channel howns) hlength.1
    · exact hlength.2 (by rw [hconnected]; rfl)
  owner_eq := by
    intro channel holder holder' howns howns'
    rcases (owns_act_iff ha).mp howns with howns | ⟨hconnected, rfl⟩
    · rcases (owns_act_iff ha).mp howns' with howns' | ⟨hconnected', rfl⟩
      · exact h.owner_eq howns howns'
      · exact absurd (h.exists_channel howns) (Nat.lt_irrefl _)
    · rcases (owns_act_iff ha).mp howns' with howns' | ⟨hconnected', -⟩
      · exact absurd (h.exists_channel howns') (Nat.lt_irrefl _)
      · exact Option.some.inj (hconnected.symm.trans hconnected')

/-- **A channel has one owner at most**, in every run of class methods. -/
theorem tidy_run {w : Connections} (h : w.Tidy) {actions : List (Client.Action ε)}
    (hactions : ∀ a ∈ actions, ByClassMethod a) : (Run.run act w actions).Tidy := by
  refine Run.invariant_run (P := fun _ a => ByClassMethod a) (fun w a hw ha => ?_) ?_
    (Run.along_of_forall fun a hmem _ => hactions a hmem)
  · exact tidy_act hw ha
  · exact h

/-- An owner stays one. -/
theorem owns_run {w : Connections} {channel : ℕ} {holder : Holder} (h : w.Owns channel holder)
    {actions : List (Client.Action ε)} (hactions : ∀ a ∈ actions, ByClassMethod a) :
    (Run.run act w actions).Owns channel holder := by
  induction actions generalizing w with
  | nil => exact h
  | cons a actions ih =>
    have ha := hactions a List.mem_cons_self
    exact ih ((owns_act_iff ha).mpr (.inl h)) fun b hb => hactions b (List.mem_cons_of_mem a hb)

/-- **What connected works until it is closed itself.** However clients borrow its channel
and are closed meanwhile, as long as neither it nor the channel is, a client over the
channel sends what it is asked to. -/
theorem connected_until_closed [Message Status] [Message ErrorInfo]
    {pre post : List (Client.Action ε)} {a : Client.Action ε} {holder : Holder}
    (hactions : ∀ b ∈ pre ++ a :: post, ByClassMethod b)
    (hconnected : connected (Run.run act empty pre) a = some holder)
    (hopen : ∀ b ∈ post, b ≠ .close holder ∧
      b ≠ .closeChannel (Run.run act empty pre).channels.length)
    {c : Client} (hc : c.channel = some (Run.run act empty pre).channels.length) {ρ : Type}
    (net : Net ρ) (request : Request) (correlationId : Option UUID) {α : Type}
    (answer : Peer ρ → Metadata → Except CallError α) :
    (c.rpc (Run.run act empty (pre ++ a :: post)) net request correlationId answer).log =
      [⟨request, correlatedMetadata (some (.uuid (correlationId.getD default)))⟩] := by
  obtain ⟨w, hw⟩ : ∃ w, w = Run.run act empty pre := ⟨_, rfl⟩
  rw [← hw] at hconnected hopen hc
  have ha : ByClassMethod a := hactions a (by simp)
  have hpre : ∀ b ∈ pre, ByClassMethod b := fun b hb => hactions b (by simp [hb])
  have hpost : ∀ b ∈ post, ByClassMethod b := fun b hb => hactions b (by simp [hb])
  have htidy : (w.act a).Tidy := tidy_act (hw ▸ tidy_run tidy_empty hpre) ha
  have howns : (w.act a).Owns w.channels.length holder :=
    (owns_act_iff ha).mpr (.inr ⟨hconnected, rfl⟩)
  have hrun : Run.run act empty (pre ++ a :: post) = Run.run act (w.act a) post := by
    rw [Run.run_append, hw]
    rfl
  refine congrArg Traced.log (Client.rpc_open ?_)
  rw [(c.bound _).mpr hc, hrun, ← Bool.not_eq_true,
    Run.latched_run_iff (fun w' : Connections => w'.closed (.bound w.channels.length) = true)
      fun w' b => closed_act_iff w' b w.channels.length]
  rintro (hclosed | ⟨pre', b, post', rfl, hcloses⟩)
  · -- the channel is made open, and was not there to be closed before
    rcases (closed_act_iff w a _).mp hclosed with hclosed | hcloses
    · simp [closed] at hclosed
    · cases a with
      | connect kind dial => exact hcloses
      | connectDomain dial => exact hcloses
      | _ => cases hconnected
  · -- and only its owner is entitled to close it
    obtain ⟨hholder, hchannel⟩ := hopen b (by simp)
    have howns' : (Run.run act (w.act a) pre').Owns w.channels.length holder :=
      owns_run howns fun b hb => hpost b (by simp [hb])
    cases b with
    | closeChannel closing => exact hchannel (congrArg Client.Action.closeChannel hcloses.1)
    | close closing =>
      have hsame : closing = holder :=
        (tidy_run htidy fun b hb => hpost b (by simp [hb])).owner_eq hcloses.1 howns'
      exact hholder (congrArg Client.Action.close hsame)
    | _ => exact hcloses

/-- A query client that connects, at once. -/
def connecting : Client.Action Unit :=
  .connect .query ⟨str "localhost:1310", none, fun _ => .ok (), fun _ => ⟨0, by simp, by simp⟩⟩

/-- A command client borrows the channel, and is closed. -/
def borrowing : List (Client.Action Unit) := [.fromChannel .commandHandler 0, .close (.client 1)]

open scoped GoogleRpc in
/-- What connected is there when what borrowed its channel has been closed. -/
theorem connected_until_closed_borrowed :
    (Client.rpc (Run.run act empty ([] ++ connecting :: borrowing))
      (⟨fun _ => default, fun _ => default, fun _ => closedChannelMessage⟩ : Net Unit)
      ⟨.query, .bound 0, some 0, true, by simp, by simp⟩ (.getEventBook default) none
      fun peer md => peer.getEventBook default md).log = [⟨.getEventBook default, []⟩] := by
  have hconnected : connected (Run.run act empty ([] : List (Client.Action Unit))) connecting =
      some (.client 0) := rfl
  refine connected_until_closed ?_ hconnected ?_ rfl _ _ _ _
  · intro b hb
    simp only [List.nil_append, List.mem_cons, borrowing, List.not_mem_nil, or_false] at hb
    rcases hb with rfl | rfl | rfl <;> trivial
  · intro b hb
    simp only [borrowing, List.mem_cons, List.not_mem_nil, or_false] at hb
    rcases hb with rfl | rfl <;> simp

end Connections

end AngzarrClient
