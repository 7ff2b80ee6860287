import AngzarrClient.Host.Lifecycle

/-!
# What a host's health says while it starts and stops

Three tasks share a host's event loop: `_start`, the readiness supervisor it makes, and
`_stop`. Any of them can be at any of its awaits while another runs, and registrations go on
beside them from other threads. All three publish to one health servicer, each the names it
read off the host when it began.

Here every await is a step (`AngzarrClient.HealthState.act`), and the history keeps with
each status what was so when it was published: whether the server had started listening, and
what the supervisor's tick made of each probe. What a name's history can look like is
`AngzarrClient.HealthState.Honest`: it begins `NOT_SERVING`, whatever it says `SERVING` was
said by a listening host whose every probe had just returned true, and once `_stop` has
joined the supervisor nothing but its own `NOT_SERVING` follows. That holds of every name the
host served when it was started, whatever the order of the steps, as long as each check that
does not pass can be warned of (`AngzarrClient.HealthState.serving_only_while_listening`).

The load-bearing fact is who may still publish. A supervisor is made when `_start` has
published everything it is going to, and a supervisor that was joined is over; so after the
join only `_stop` is left, and it goes through every name there is.

A warning reads the probe's name and the text of what its check raised, and no handler stands
around that. Where reading them raises, the supervisor ends with what they raised, `_stop`
raises it again where it joins, and what was published last stands
(`AngzarrClient.HealthState.Abandoned.run`).
-/

namespace AngzarrClient

/-! ### The tasks -/

/-- What the check of a probe comes to. -/
inductive Check where
  | returned (ok : Bool)
  | raised
  | timedOut
  deriving DecidableEq

/-- Whether a check counts as passed. -/
def Check.ok : Check → Bool
  | .returned ok => ok
  | .raised => false
  | .timedOut => false

/-- A status published for a name, with what was so when it was: whether the server had
started listening, and the probes of the tick with their checks, where the supervisor
published it. -/
structure Published (π : Type) where
  name : String
  status : HealthStatus
  listening : Bool
  tick : Option (List (π × Check))
  deriving DecidableEq

/-- Where `_start` is. -/
inductive Starting where
  | called
  /-- It publishes `NOT_SERVING` for its names, of which some are left. -/
  | publishing (names left : List String)
  /-- It has kept the health servicer and bound its address. -/
  | bound (names : List String)
  /-- Its server has started. -/
  | serving (names : List String)
  | finished
  | failed
  deriving DecidableEq

/-- Where the supervisor is, over probes of any type. -/
inductive Supervising (π : Type) where
  /-- It checks its probes, of which some are left. -/
  | probing (left : List π) (checks : List (π × Check)) (allOk : Bool)
  /-- It publishes a tick's status for its names, of which some are left. -/
  | publishing (checks : List (π × Check)) (status : HealthStatus) (left : List String)
  | sleeping
  /-- A cancellation has ended it. -/
  | ended
  /-- It has raised. -/
  | failed
  deriving DecidableEq

/-- The supervisor: the names it publishes, where it is, and whether it was cancelled. -/
structure Supervisor (π : Type) where
  names : List String
  place : Supervising π
  cancelled : Bool
  deriving DecidableEq

/-- Where `_stop` is. Once it has got past the supervisor, it says whether there was one to
cancel and join. -/
inductive Stopping where
  | idle
  | joining
  | past (joined : Bool)
  /-- It publishes `NOT_SERVING` for its names, of which some are left. -/
  | publishing (joined : Bool) (left : List String)
  | finished (joined : Bool)
  /-- It has joined a supervisor that raised, and raised that again. -/
  | raised
  deriving DecidableEq

/-- A host in one start and stop. -/
structure HealthState (π : Type) where
  host : ComponentHost
  starting : Starting
  /-- Whether the health servicer is kept. -/
  health : Bool
  /-- Whether the server has started listening. -/
  listening : Bool
  supervisor : Option (Supervisor π)
  stopping : Stopping
  /-- Every check that came to something, with its probe, in order. -/
  checked : List (π × Check)
  /-- Every status published, in order. -/
  history : List (Published π)
  deriving DecidableEq

/-- A step of a task, or a registration made beside them. -/
inductive HealthAction where
  | register (registration : ComponentHost.Registration)
  /-- A step of `_start`. -/
  | start
  /-- `_start` raises. -/
  | startRaises
  /-- The check the supervisor awaits comes to something, of which a warning can be made or
  not. -/
  | check (check : Check) (warns : Bool)
  /-- Any other step of the supervisor. -/
  | supervise
  /-- The supervisor ends at its await, by a cancellation. -/
  | cancelled
  /-- A step of `_stop`. -/
  | stop
  deriving DecidableEq

/-- Whether a check that does not pass can be warned of. -/
def HealthAction.Warned : HealthAction → Prop
  | .check came warns => came.ok = false → warns = true
  | _ => True

/-- What a check comes to. -/
def HealthAction.check? : HealthAction → Option Check
  | .check came _ => some came
  | _ => none

namespace HealthState

variable {π : Type}

/-- A host whose `start` was just called. -/
def new (host : ComponentHost) : HealthState π where
  host := host
  starting := .called
  health := false
  listening := false
  supervisor := none
  stopping := .idle
  checked := []
  history := []

/-- `await health.set(name, status)`. -/
def publish (s : HealthState π) (name : String) (status : HealthStatus)
    (tick : Option (List (π × Check))) : HealthState π :=
  { s with history := s.history ++ [⟨name, status, s.listening, tick⟩] }

/-- The history of a name. -/
def historyOf (s : HealthState π) (name : String) : List (Published π) :=
  s.history.filter fun published => published.name = name

section Steps

variable (probes : List π)

/-- A step of `_start`. -/
def start (s : HealthState π) : HealthState π :=
  match s.starting with
  | .called => { s with starting := .publishing s.host.names s.host.names }
  | .publishing names (name :: left) =>
    { s.publish name .notServing none with starting := .publishing names left }
  | .publishing names [] => { s with health := true, starting := .bound names }
  | .bound names => { s with listening := true, starting := .serving names }
  | .serving names =>
    { s with
      supervisor := some ⟨names, .probing probes [] true, false⟩
      starting := .finished }
  | .finished => s
  | .failed => s

/-- `_start` raises, if it is still running. -/
def startRaises (s : HealthState π) : HealthState π :=
  match s.starting with
  | .finished => s
  | _ => { s with starting := .failed }

/-- The supervisor moved on. -/
def supervisedAt (s : HealthState π) (supervisor : Supervisor π) (place : Supervising π) :
    HealthState π :=
  { s with supervisor := some { supervisor with place := place } }

/-- A check of the supervisor's tick. One that does not pass is warned of, under `probe.name`
and, where it raised, `str(exc)`: if these raise in turn the supervisor does. -/
def check (s : HealthState π) (check : Check) (warns : Bool) : HealthState π :=
  match s.supervisor with
  | none => s
  | some supervisor =>
    match supervisor.place with
    | .probing (probe :: left) checks allOk =>
      let place :=
        if check.ok || warns then
          Supervising.probing left (checks ++ [(probe, check)]) (allOk && check.ok)
        else .failed
      { s.supervisedAt supervisor place with checked := s.checked ++ [(probe, check)] }
    | _ => s

/-- A step of the supervisor between its checks. -/
def supervise (s : HealthState π) : HealthState π :=
  match s.supervisor with
  | none => s
  | some supervisor =>
    match supervisor.place with
    | .probing [] checks allOk =>
      let status := if allOk then HealthStatus.serving else .notServing
      s.supervisedAt supervisor (.publishing checks status supervisor.names)
    | .publishing checks status (name :: left) =>
      (s.publish name status (some checks)).supervisedAt supervisor
        (.publishing checks status left)
    | .publishing _ _ [] => s.supervisedAt supervisor .sleeping
    | .sleeping => s.supervisedAt supervisor (.probing probes [] true)
    | _ => s

/-- The supervisor ends at its await: one that was cancelled, and one whose own check raised
a `CancelledError`. -/
def endSupervisor (s : HealthState π) : HealthState π :=
  match s.supervisor with
  | none => s
  | some supervisor =>
    match supervisor.place with
    | .probing _ _ _ => s.supervisedAt supervisor .ended
    | .failed => s
    | _ => if supervisor.cancelled then s.supervisedAt supervisor .ended else s

/-- A step of `_stop`. -/
def stop (s : HealthState π) : HealthState π :=
  match s.stopping with
  | .idle =>
    match s.supervisor with
    | none => { s with stopping := .past false }
    | some supervisor =>
      { s with supervisor := some { supervisor with cancelled := true }, stopping := .joining }
  | .joining =>
    match s.supervisor with
    | some ⟨_, .ended, _⟩ => { s with stopping := .past true }
    | some ⟨_, .failed, _⟩ => { s with stopping := .raised }
    | _ => s
  | .past joined =>
    if s.health then { s with stopping := .publishing joined s.host.names }
    else { s with stopping := .finished joined }
  | .publishing joined (name :: left) =>
    { s.publish name .notServing none with stopping := .publishing joined left }
  | .publishing joined [] => { s with stopping := .finished joined }
  | .finished _ => s
  | .raised => s

variable [Spec]

/-- One step. -/
def act (s : HealthState π) : HealthAction → HealthState π
  | .register registration => { s with host := s.host.give registration }
  | .start => s.start probes
  | .startRaises => s.startRaises
  | .check check warns => s.check check warns
  | .supervise => s.supervise probes
  | .cancelled => s.endSupervisor
  | .stop => s.stop

/-- Any number of steps, in any order. -/
def run (s : HealthState π) (actions : List HealthAction) : HealthState π :=
  Run.run (act probes) s actions

end Steps

/-! ### The history of a name -/

@[simp] theorem historyOf_publish (s : HealthState π) (name name' : String)
    (status : HealthStatus) (tick : Option (List (π × Check))) :
    (s.publish name status tick).historyOf name' =
      s.historyOf name' ++ if name = name' then [⟨name, status, s.listening, tick⟩] else [] := by
  by_cases h : name = name' <;> simp [historyOf, publish, h]

/-- The last status of a name. -/
def lastStatus (s : HealthState π) (name : String) : Option HealthStatus :=
  (s.historyOf name).getLast?.map Published.status

theorem lastStatus_publish (s : HealthState π) (name name' : String) (status : HealthStatus)
    (tick : Option (List (π × Check))) :
    (s.publish name status tick).lastStatus name' =
      if name = name' then some status else s.lastStatus name' := by
  by_cases h : name = name' <;> simp [lastStatus, h]

/-! ### The invariant -/

theorem check_ok_iff {check : Check} : check.ok = true ↔ check = .returned true := by
  cases check with
  | returned ok => simp [Check.ok]
  | raised => simp [Check.ok]
  | timedOut => simp [Check.ok]

/-- What a tick comes to whose every probe returned true. -/
def allPassed (probes : List π) : List (π × Check) :=
  probes.map fun probe => (probe, .returned true)

/-- The probes a tick has checked all returned true. -/
theorem eq_allPassed {checks : List (π × Check)} (h : ∀ p ∈ checks, p.2 = .returned true) :
    checks = allPassed (checks.map Prod.fst) := by
  rw [allPassed, List.map_map]
  refine (List.map_id checks).symm.trans (List.map_congr_left fun p hp => ?_)
  exact Prod.ext rfl (h p hp)

/-- **What the health servicer was told so far**: each name's history begins `NOT_SERVING`,
and whatever said `SERVING` was said while listening, of a tick on which every probe returned
true. -/
structure Truthful (probes : List π) (checked : List (π × Check))
    (history : List (Published π)) : Prop where
  first : ∀ name published,
    (history.filter fun published => published.name = name).head? = some published →
      published.status = .notServing
  serving : ∀ published ∈ history, published.status = .serving →
    published.listening = true ∧ published.tick = some (allPassed probes) ∧
      allPassed probes <:+: checked

theorem Truthful.concat {probes : List π} {checked : List (π × Check)}
    {history : List (Published π)} (h : Truthful probes checked history) (p : π × Check) :
    Truthful probes (checked ++ [p]) history where
  first := h.first
  serving published hmem hstatus := by
    obtain ⟨hlistening, htick, hinfix⟩ := h.serving published hmem hstatus
    exact ⟨hlistening, htick, hinfix.trans (List.prefix_append checked [p]).isInfix⟩

/-- Something was published for a name. -/
def Told (s : HealthState π) (name : String) : Prop := s.historyOf name ≠ []

/-- What `_start` has done with its names, from those the host had at first. -/
def StartSound (initial : List String) (health listening : Bool) (told : String → Prop) :
    Starting → Prop
  | .called => True
  | .publishing names left => initial ⊆ names ∧ ∀ name ∈ names, name ∈ left ∨ told name
  | .bound names => initial ⊆ names ∧ health = true ∧ ∀ name ∈ names, told name
  | .serving names =>
    initial ⊆ names ∧ health = true ∧ listening = true ∧ ∀ name ∈ names, told name
  | .finished => ∀ name ∈ initial, told name
  | .failed => True

theorem StartSound.mono {initial : List String} {health listening : Bool}
    {told told' : String → Prop} (htold : ∀ name, told name → told' name) {starting : Starting}
    (h : StartSound initial health listening told starting) :
    StartSound initial health listening told' starting := by
  cases starting with
  | called => trivial
  | publishing names left =>
    exact ⟨h.1, fun name hname => (h.2 name hname).imp_right (htold name)⟩
  | bound names => exact ⟨h.1, h.2.1, fun name hname => htold name (h.2.2 name hname)⟩
  | serving names =>
    exact ⟨h.1, h.2.1, h.2.2.1, fun name hname => htold name (h.2.2.2 name hname)⟩
  | finished => exact fun name hname => htold name (h name hname)
  | failed => trivial

/-- What the supervisor knows of its tick, from the checks there were so far. -/
def TickSound (probes : List π) (checked : List (π × Check)) (names : List String) :
    Supervising π → Prop
  | .probing left checks allOk =>
    checks.map Prod.fst ++ left = probes ∧ checks <:+ checked ∧
      (allOk = true → ∀ p ∈ checks, p.2 = .returned true)
  | .publishing checks status left =>
    left ⊆ names ∧ checks <:+ checked ∧ (status = .serving → checks = allPassed probes)
  | .sleeping => True
  | .ended => True
  | .failed => False

/-- A supervisor was made at the end of `_start`, publishes names published before, and has
not raised. -/
structure SupervisorSound (probes : List π) (s : HealthState π) (supervisor : Supervisor π) :
    Prop where
  starting : s.starting = .finished
  health : s.health = true
  listening : s.listening = true
  published : ∀ name ∈ supervisor.names, s.Told name
  tick : TickSound probes s.checked supervisor.names supervisor.place

/-- `_stop` got past the supervisor, having joined one or having found none. -/
def Past (s : HealthState π) (joined : Bool) : Prop :=
  s.stopping = .past joined ∨ (∃ left, s.stopping = .publishing joined left) ∨
    s.stopping = .finished joined

/-- `_stop` has cancelled and joined the supervisor, and gone on or raised. -/
def Joined (s : HealthState π) : Prop := s.Past true ∨ s.stopping = .raised

/-- The supervisor was made, and is over. -/
def Over (s : HealthState π) : Prop :=
  ∃ supervisor, s.supervisor = some supervisor ∧ supervisor.place = .ended

/-- What `_stop` has done with its names, once it joined the supervisor. -/
structure StopSound (initial : List String) (s : HealthState π) : Prop where
  unraised : s.stopping ≠ .raised
  ended : s.Past true → s.Over
  publishing : ∀ left, s.stopping = .publishing true left →
    ∀ name ∈ initial, name ∈ left ∨ s.lastStatus name = some .notServing
  finished : s.stopping = .finished true →
    ∀ name ∈ initial, s.lastStatus name = some .notServing

/-- **The invariant**, over the names the host had when it was started. -/
structure Sound (probes : List π) (initial : List String) (s : HealthState π) : Prop where
  names : initial ⊆ s.host.names
  claimed : s.host.Claimed
  truthful : Truthful probes s.checked s.history
  started : StartSound initial s.health s.listening s.Told s.starting
  made : s.starting = .finished → s.supervisor ≠ none
  supervised : ∀ supervisor, s.supervisor = some supervisor → s.SupervisorSound probes supervisor
  stopped : s.StopSound initial

theorem sound_new (probes : List π) {host : ComponentHost} (hclaimed : host.Claimed) :
    (new host).Sound probes host.names where
  names := List.Subset.refl _
  claimed := hclaimed
  truthful := ⟨nofun, nofun⟩
  started := trivial
  made := nofun
  supervised := nofun
  stopped := by
    refine ⟨nofun, ?_, nofun, nofun⟩
    rintro (h | ⟨left, h⟩ | h) <;> cases h

/-! ### Publishing -/

variable {probes : List π} {initial : List String} {s : HealthState π}

theorem told_publish {name name' : String} {status : HealthStatus}
    {tick : Option (List (π × Check))} (h : s.Told name') :
    (s.publish name status tick).Told name' := by
  rw [Told, historyOf_publish]
  exact List.append_ne_nil_of_left_ne_nil h _

theorem Truthful.publish (h : Truthful probes s.checked s.history) {name : String}
    {status : HealthStatus} {tick : Option (List (π × Check))}
    (hserving : status = .serving → s.Told name ∧ s.listening = true ∧
      tick = some (allPassed probes) ∧ allPassed probes <:+: s.checked) :
    Truthful probes s.checked (s.publish name status tick).history where
  first := by
    intro name' published hhead
    change ((s.publish name status tick).historyOf name').head? = some published at hhead
    rw [historyOf_publish, List.head?_append] at hhead
    cases hold : (s.historyOf name').head? with
    | some first =>
      rw [hold] at hhead
      obtain rfl : first = published := Option.some.inj hhead
      exact h.first name' first hold
    | none =>
      rw [hold] at hhead
      split at hhead
      · next heq =>
        subst heq
        obtain rfl := Option.some.inj hhead
        cases status with
        | notServing => rfl
        | serving => exact absurd (List.head?_eq_none_iff.mp hold) (hserving rfl).1
      · cases hhead
  serving := by
    intro published hmem hstatus
    rcases List.mem_append.mp hmem with hmem | hmem
    · exact h.serving published hmem hstatus
    · obtain rfl := List.mem_singleton.mp hmem
      exact (hserving hstatus).2

/-- What `_stop` has done stays done, when no more than `NOT_SERVING` is published after the
join. -/
theorem StopSound.publish (h : s.StopSound initial) {name : String} {status : HealthStatus}
    {tick : Option (List (π × Check))} (hstatus : s.Past true → status = .notServing) :
    (s.publish name status tick).StopSound initial where
  unraised := h.unraised
  ended := h.ended
  publishing := by
    intro left hleft name' hname'
    rw [lastStatus_publish]
    split
    · exact Or.inr (congrArg some (hstatus (Or.inr (Or.inl ⟨left, hleft⟩))))
    · exact h.publishing left hleft name' hname'
  finished := by
    intro hfinished name' hname'
    rw [lastStatus_publish]
    split
    · exact congrArg some (hstatus (Or.inr (Or.inr hfinished)))
    · exact h.finished hfinished name' hname'

theorem SupervisorSound.publish {supervisor : Supervisor π}
    (h : s.SupervisorSound probes supervisor) (name : String) (status : HealthStatus)
    (tick : Option (List (π × Check))) :
    (s.publish name status tick).SupervisorSound probes supervisor :=
  { h with published := fun name' hname' => told_publish (h.published name' hname') }

/-! ### The steps of `_start` -/

/-- Until `_start` has finished there is no supervisor. -/
theorem Sound.supervisor_none (h : s.Sound probes initial) (hstarting : s.starting ≠ .finished) :
    s.supervisor = none := by
  cases hs : s.supervisor with
  | none => rfl
  | some supervisor => exact absurd (h.supervised supervisor hs).starting hstarting

/-- Without a supervisor `_stop` has joined none. -/
theorem StopSound.of_none {s' : HealthState π} (h : s.StopSound initial)
    (hnone : s.supervisor = none) (hstopping : s'.stopping = s.stopping) :
    s'.StopSound initial := by
  have hnot : ¬s.Past true := by
    intro hjoined
    obtain ⟨supervisor, hsome, -⟩ := h.ended hjoined
    exact absurd (hnone.symm.trans hsome) nofun
  refine ⟨hstopping ▸ h.unraised, fun hjoined => absurd ?_ hnot, fun left hleft => absurd ?_ hnot,
    fun hfinished => absurd ?_ hnot⟩
  · rwa [Past, hstopping] at hjoined
  · exact Or.inr (Or.inl ⟨left, hstopping ▸ hleft⟩)
  · exact Or.inr (Or.inr (hstopping ▸ hfinished))

/-- A step of `_start` before its last: it may keep the servicer, listen, and publish
`NOT_SERVING`. -/
theorem Sound.of_starting {s' : HealthState π} (h : s.Sound probes initial)
    (hstarting : s.starting ≠ .finished) (hhost : s'.host = s.host)
    (htruthful : Truthful probes s'.checked s'.history)
    (hstarted : StartSound initial s'.health s'.listening s'.Told s'.starting)
    (hstarting' : s'.starting ≠ .finished)
    (hsupervisor : s'.supervisor = s.supervisor) (hstopping : s'.stopping = s.stopping) :
    s'.Sound probes initial where
  names := hhost ▸ h.names
  claimed := hhost ▸ h.claimed
  truthful := htruthful
  started := hstarted
  made := fun hfinished => absurd hfinished hstarting'
  supervised := by
    intro supervisor hs
    rw [hsupervisor, h.supervisor_none hstarting] at hs
    cases hs
  stopped := h.stopped.of_none (h.supervisor_none hstarting) hstopping

theorem Sound.start (h : s.Sound probes initial) : (s.start probes).Sound probes initial := by
  have hstarted := h.started
  unfold HealthState.start
  split
  · next hcalled =>
    exact h.of_starting (hcalled ▸ nofun) rfl h.truthful ⟨h.names, fun _ hname => Or.inl hname⟩
      nofun rfl rfl
  · next names name left hpublishing =>
    rw [hpublishing] at hstarted
    refine h.of_starting (hpublishing ▸ nofun) rfl
      (h.truthful.publish nofun)
      ⟨hstarted.1, fun name' hname' => ?_⟩ nofun rfl rfl
    change name' ∈ left ∨ (s.publish name .notServing none).Told name'
    -- The name published is told now, and every other one is left or was told before.
    rcases hstarted.2 name' hname' with hmem | hold
    · rcases List.mem_cons.mp hmem with rfl | hmem
      · rw [Told, historyOf_publish, if_pos rfl]
        exact Or.inr (List.append_ne_nil_of_right_ne_nil _ (List.cons_ne_nil _ _))
      · exact Or.inl hmem
    · exact Or.inr (told_publish hold)
  · next names hpublishing =>
    rw [hpublishing] at hstarted
    exact h.of_starting (hpublishing ▸ nofun) rfl h.truthful
      ⟨hstarted.1, rfl, fun name hname => (hstarted.2 name hname).resolve_left List.not_mem_nil⟩
      nofun rfl rfl
  · next names hbound =>
    rw [hbound] at hstarted
    exact h.of_starting (hbound ▸ nofun) rfl h.truthful
      ⟨hstarted.1, hstarted.2.1, rfl, hstarted.2.2⟩ nofun rfl rfl
  · next names hserving =>
    rw [hserving] at hstarted
    obtain ⟨hinitial, hhealth, hlistening, hpublished⟩ := hstarted
    -- The last step makes the supervisor; `_stop` has joined none, as there was none.
    have hnone := h.supervisor_none (hserving ▸ nofun)
    refine
      { names := h.names
        claimed := h.claimed
        truthful := h.truthful
        started := fun name hname => hpublished name (hinitial hname)
        made := fun _ => nofun
        supervised := ?_
        stopped := h.stopped.of_none hnone rfl }
    rintro supervisor hs
    obtain rfl := Option.some.inj hs
    exact ⟨rfl, hhealth, hlistening, hpublished, rfl, List.nil_suffix, fun _ => nofun⟩
  · exact h
  · exact h

theorem Sound.startRaises (h : s.Sound probes initial) : s.startRaises.Sound probes initial := by
  unfold HealthState.startRaises
  split
  · exact h
  · next hstarting => exact h.of_starting hstarting rfl h.truthful trivial nofun rfl rfl

/-! ### The other steps -/

/-- A status published of names published before, and `NOT_SERVING` at any time. -/
theorem Sound.publish (h : s.Sound probes initial) {name : String} {status : HealthStatus}
    {tick : Option (List (π × Check))}
    (hserving : status = .serving → ¬s.Past true ∧ s.Told name ∧ s.listening = true ∧
      tick = some (allPassed probes) ∧ allPassed probes <:+: s.checked) :
    (s.publish name status tick).Sound probes initial where
  names := h.names
  claimed := h.claimed
  truthful := h.truthful.publish fun hstatus => (hserving hstatus).2
  started := h.started.mono fun _ => told_publish
  made := h.made
  supervised := fun supervisor hs => (h.supervised supervisor hs).publish name status tick
  stopped := by
    refine h.stopped.publish fun hjoined => ?_
    cases status with
    | serving => exact absurd hjoined (hserving rfl).1
    | notServing => rfl

/-- While the supervisor is not over, it was not joined. -/
theorem Sound.not_joined (h : s.Sound probes initial) {supervisor : Supervisor π}
    (hs : s.supervisor = some supervisor) (hplace : supervisor.place ≠ .ended) : ¬s.Past true := by
  intro hjoined
  obtain ⟨joined, hover, hended⟩ := h.stopped.ended hjoined
  obtain rfl : supervisor = joined := Option.some.inj (hs.symm.trans hover)
  exact hplace hended

/-- A supervisor of the same names, in its tick or not, is as sound where as much was
published. -/
theorem SupervisorSound.moved {s' : HealthState π} {supervisor supervisor' : Supervisor π}
    (h : s.SupervisorSound probes supervisor) (hstarting : s'.starting = s.starting)
    (hhealth : s'.health = s.health) (hlistening : s'.listening = s.listening)
    (hhistory : s'.history = s.history) (hnames : supervisor'.names = supervisor.names)
    (htick : TickSound probes s'.checked supervisor.names supervisor'.place) :
    s'.SupervisorSound probes supervisor' where
  starting := hstarting.trans h.starting
  health := hhealth.trans h.health
  listening := hlistening.trans h.listening
  published := by
    intro name hname
    rw [hnames] at hname
    rw [Told, historyOf, hhistory]
    exact h.published name hname
  tick := by
    rw [hnames]
    exact htick

/-- The supervisor moves on, in its tick or to its end. -/
theorem Sound.supervisedAt (h : s.Sound probes initial) {supervisor : Supervisor π}
    (hs : s.supervisor = some supervisor) {place : Supervising π}
    (htick : TickSound probes s.checked supervisor.names place)
    (hover : s.Past true → place = .ended) :
    (s.supervisedAt supervisor place).Sound probes initial where
  names := h.names
  claimed := h.claimed
  truthful := h.truthful
  started := h.started
  made := fun _ => nofun
  supervised := by
    rintro moved hmoved
    obtain rfl := Option.some.inj hmoved
    exact (h.supervised supervisor hs).moved rfl rfl rfl rfl rfl htick
  stopped :=
    ⟨h.stopped.unraised, fun hjoined => ⟨_, rfl, hover hjoined⟩, h.stopped.publishing,
      h.stopped.finished⟩

theorem Sound.register [Spec] (h : s.Sound probes initial)
    (registration : ComponentHost.Registration) :
    ({ s with host := s.host.give registration } : HealthState π).Sound probes initial := by
  have hgiven := ComponentHost.registered_give h.claimed registration
  exact
    { names := List.Subset.trans h.names hgiven.names
      claimed := hgiven.claimed h.claimed
      truthful := h.truthful
      started := h.started
      made := h.made
      supervised := fun supervisor hs =>
        (h.supervised supervisor hs).moved rfl rfl rfl rfl rfl (h.supervised supervisor hs).tick
      stopped :=
        ⟨h.stopped.unraised, h.stopped.ended, h.stopped.publishing, h.stopped.finished⟩ }

/-- A check that can be warned of if it has to be is one more of its tick. -/
theorem Sound.check (h : s.Sound probes initial) {check : Check} {warns : Bool}
    (hwarned : check.ok = false → warns = true) :
    (s.check check warns).Sound probes initial := by
  unfold HealthState.check
  split
  · exact h
  · next supervisor hs =>
    split
    · next probe left checks allOk hplace =>
      have hsound := h.supervised supervisor hs
      have htick := hsound.tick
      rw [hplace] at htick
      obtain ⟨hprobes, hsuffix, hall⟩ := htick
      -- The one use of the warning: the supervisor goes on.
      have hgoes : (check.ok || warns) = true := by
        cases hok : check.ok with
        | true => rfl
        | false => rw [hwarned hok, Bool.or_true]
      rw [hgoes, if_pos rfl]
      refine
        { names := h.names
          claimed := h.claimed
          truthful := h.truthful.concat (probe, check)
          started := h.started
          made := fun _ => nofun
          supervised := ?_
          stopped := ⟨h.stopped.unraised, fun hjoined => absurd hjoined ?_, h.stopped.publishing,
            h.stopped.finished⟩ }
      · rintro moved hmoved
        obtain rfl := Option.some.inj hmoved
        refine hsound.moved rfl rfl rfl rfl rfl ⟨?_, ?_, fun hboth => ?_⟩
        · rw [List.map_append, List.append_assoc]
          exact hprobes
        · -- The tick's checks are still the last there were.
          obtain ⟨earlier, hearlier⟩ := hsuffix
          exact ⟨earlier, by rw [← List.append_assoc, hearlier]⟩
        · rw [Bool.and_eq_true] at hboth
          intro p hp
          rcases List.mem_append.mp hp with hp | hp
          · exact hall hboth.1 p hp
          · obtain rfl := List.mem_singleton.mp hp
            exact check_ok_iff.mp hboth.2
      · exact h.not_joined hs (hplace ▸ nofun)
    · exact h

theorem Sound.supervise (h : s.Sound probes initial) :
    (s.supervise probes).Sound probes initial := by
  unfold HealthState.supervise
  split
  · exact h
  · next supervisor hs =>
    have hsound := h.supervised supervisor hs
    have htick := hsound.tick
    split
    · next checks allOk hplace =>
      rw [hplace] at htick
      obtain ⟨hprobes, hsuffix, hall⟩ := htick
      refine h.supervisedAt hs ⟨List.Subset.refl _, hsuffix, fun hstatus => ?_⟩
        fun hjoined => absurd hjoined (h.not_joined hs (hplace ▸ nofun))
      -- No probe is left, so what was checked in the tick is every probe there is.
      cases allOk with
      | true =>
        rw [List.append_nil] at hprobes
        rw [← hprobes]
        exact eq_allPassed (hall rfl)
      | false => cases hstatus
    · next checks status name left hplace =>
      rw [hplace] at htick
      have hnot := h.not_joined hs (hplace ▸ nofun)
      have hname : name ∈ supervisor.names := htick.1 (List.mem_cons_self ..)
      have hpublish : (s.publish name status (some checks)).Sound probes initial :=
        h.publish fun hstatus =>
          ⟨hnot, hsound.published name hname, hsound.listening,
            congrArg some (htick.2.2 hstatus), htick.2.2 hstatus ▸ htick.2.1.isInfix⟩
      exact hpublish.supervisedAt hs
        ⟨List.Subset.trans (List.subset_cons_self _ _) htick.1, htick.2⟩
        fun hjoined => absurd hjoined hnot
    · next checks status hplace =>
      exact h.supervisedAt hs trivial
        fun hjoined => absurd hjoined (h.not_joined hs (hplace ▸ nofun))
    · next hplace =>
      exact h.supervisedAt hs ⟨rfl, List.nil_suffix, fun _ => nofun⟩
        fun hjoined => absurd hjoined (h.not_joined hs (hplace ▸ nofun))
    · exact h

theorem Sound.endSupervisor (h : s.Sound probes initial) :
    s.endSupervisor.Sound probes initial := by
  unfold HealthState.endSupervisor
  split
  · exact h
  · next supervisor hs =>
    split
    · exact h.supervisedAt hs trivial fun _ => rfl
    · exact h
    · split
      · exact h.supervisedAt hs trivial fun _ => rfl
      · exact h

/-- `_stop` moves on. -/
theorem Sound.stoppingAt (h : s.Sound probes initial) {stopping : Stopping}
    (hstopped : ({ s with stopping := stopping } : HealthState π).StopSound initial) :
    ({ s with stopping := stopping } : HealthState π).Sound probes initial where
  names := h.names
  claimed := h.claimed
  truthful := h.truthful
  started := h.started
  made := h.made
  supervised := fun supervisor hs =>
    (h.supervised supervisor hs).moved rfl rfl rfl rfl rfl (h.supervised supervisor hs).tick
  stopped := hstopped

/-- A `_stop` that joined nobody has nothing to show. -/
theorem stopSound_of_not_joined (hunraised : s.stopping ≠ .raised) (h : ¬s.Past true) :
    s.StopSound initial :=
  ⟨hunraised, fun hjoined => absurd hjoined h,
    fun left hleft => absurd (Or.inr (Or.inl ⟨left, hleft⟩)) h,
    fun hfinished => absurd (Or.inr (Or.inr hfinished)) h⟩

theorem Sound.stop (h : s.Sound probes initial) : s.stop.Sound probes initial := by
  unfold HealthState.stop
  split
  · next hidle =>
    split
    · refine h.stoppingAt (stopSound_of_not_joined nofun ?_)
      rintro (hj | ⟨left, hj⟩ | hj) <;> cases hj
    · next supervisor hs =>
      have hsound := h.supervised supervisor hs
      refine
        { names := h.names
          claimed := h.claimed
          truthful := h.truthful
          started := h.started
          made := fun _ => nofun
          supervised := ?_
          stopped := stopSound_of_not_joined nofun (by rintro (hj | ⟨left, hj⟩ | hj) <;> cases hj) }
      rintro cancelled hcancelled
      obtain rfl := Option.some.inj hcancelled
      exact hsound.moved rfl rfl rfl rfl rfl hsound.tick
  · next hjoining =>
    split
    · next names cancelled hs => exact h.stoppingAt ⟨nofun, fun _ => ⟨_, hs, rfl⟩, nofun, nofun⟩
    · next names cancelled hs => exact (h.supervised _ hs).tick.elim
    · exact h
  · next joined hpast =>
    cases joined with
    | false =>
      split <;> exact h.stoppingAt
        (stopSound_of_not_joined nofun (by rintro (hj | ⟨left, hj⟩ | hj) <;> cases hj))
    | true =>
      -- There was a supervisor, so the servicer is kept.
      have hover := h.stopped.ended (Or.inl hpast)
      obtain ⟨supervisor, hs, -⟩ := hover
      rw [if_pos (h.supervised supervisor hs).health]
      refine h.stoppingAt ⟨nofun, fun _ => h.stopped.ended (Or.inl hpast), ?_, nofun⟩
      rintro left hleft name hname
      cases hleft
      exact Or.inl (h.names hname)
  · next joined name left hpublishing =>
    have hpublish : (s.publish name .notServing none).Sound probes initial := h.publish nofun
    refine hpublish.stoppingAt ⟨nofun, fun hjoined => ?_, ?_, nofun⟩
    · refine hpublish.stopped.ended (Or.inr (Or.inl ⟨name :: left, ?_⟩))
      rcases hjoined with hj | ⟨left', hj⟩ | hj
      · cases hj
      · cases hj
        exact hpublishing
      · cases hj
    · rintro left' hleft name' hname'
      cases hleft
      change name' ∈ left ∨ (s.publish name .notServing none).lastStatus name' = some .notServing
      rw [lastStatus_publish]
      split
      · exact Or.inr rfl
      · next hne =>
        refine (h.stopped.publishing _ hpublishing name' hname').imp_left fun hmem => ?_
        exact (List.mem_cons.mp hmem).resolve_left fun heq => hne heq.symm
  · next joined hpublishing =>
    refine h.stoppingAt ⟨nofun, fun hjoined => ?_, nofun, ?_⟩
    · refine h.stopped.ended (Or.inr (Or.inl ⟨[], ?_⟩))
      rcases hjoined with hj | ⟨left', hj⟩ | hj
      · cases hj
      · cases hj
      · cases hj
        exact hpublishing
    · rintro hfinished name hname
      cases hfinished
      exact (h.stopped.publishing _ hpublishing name hname).resolve_left List.not_mem_nil
  · exact h
  · exact h

/-! ### Runs -/

section Runs

variable [Spec]

/-- **The step**: each step of each task keeps the invariant, when its check is warned of if it
has to be. -/
theorem Sound.act (h : s.Sound probes initial) {action : HealthAction}
    (hwarned : action.Warned) : (s.act probes action).Sound probes initial := by
  cases action with
  | register registration => exact h.register registration
  | start => exact h.start
  | startRaises => exact h.startRaises
  | check check warns => exact h.check hwarned
  | supervise => exact h.supervise
  | cancelled => exact h.endSupervisor
  | stop => exact h.stop

/-- **The run**: any such steps in any order keep it. -/
theorem Sound.run (h : s.Sound probes initial) {actions : List HealthAction}
    (hwarned : ∀ action ∈ actions, action.Warned) :
    (s.run probes actions).Sound probes initial := by
  induction actions generalizing s with
  | nil => exact h
  | cons action actions ih =>
    obtain ⟨hfirst, hrest⟩ := List.forall_mem_cons.mp hwarned
    exact ih (h.act hfirst) hrest

variable (probes)

omit [Spec] in
/-- What a step of the supervisor adds to the checks there were. -/
theorem checked_check (s : HealthState π) (check : Check) (warns : Bool) :
    (s.check check warns).checked = s.checked ∨
      ∃ probe, (s.check check warns).checked = s.checked ++ [(probe, check)] := by
  unfold HealthState.check
  split
  · exact Or.inl rfl
  split
  · exact Or.inr ⟨_, rfl⟩
  · exact Or.inl rfl

/-- Only a check adds to them. -/
theorem checked_act (s : HealthState π) (action : HealthAction) :
    ∃ new, (s.act probes action).checked = s.checked ++ new ∧
      (new.map Prod.snd).Sublist action.check?.toList := by
  have hsame {s' : HealthState π} (h : s'.checked = s.checked) :
      ∃ new, s'.checked = s.checked ++ new ∧
        (new.map Prod.snd).Sublist action.check?.toList :=
    ⟨[], h.trans (List.append_nil _).symm, List.nil_sublist _⟩
  cases action with
  | register registration => exact hsame rfl
  | start =>
    refine hsame ?_
    rw [HealthState.act, HealthState.start]
    split <;> rfl
  | startRaises =>
    refine hsame ?_
    rw [HealthState.act, HealthState.startRaises]
    split <;> rfl
  | check check warns =>
    rcases s.checked_check check warns with hold | ⟨probe, hnew⟩
    · exact hsame hold
    · exact ⟨[(probe, check)], hnew, List.Sublist.refl _⟩
  | supervise =>
    refine hsame ?_
    rw [HealthState.act, HealthState.supervise]
    split
    · rfl
    · split <;> rfl
  | cancelled =>
    refine hsame ?_
    rw [HealthState.act, HealthState.endSupervisor]
    split
    · rfl
    · split
      · rfl
      · rfl
      · split <;> rfl
  | stop =>
    refine hsame ?_
    rw [HealthState.act, HealthState.stop]
    split
    · split <;> rfl
    · split <;> rfl
    · split <;> rfl
    · rfl
    · rfl
    · rfl
    · rfl

/-- **The checks a supervisor went by are those that came to something**, in their order. -/
theorem checked_run (s : HealthState π) (actions : List HealthAction) :
    ∃ new, (s.run probes actions).checked = s.checked ++ new ∧
      (new.map Prod.snd).Sublist (actions.filterMap HealthAction.check?) := by
  induction actions generalizing s with
  | nil => exact ⟨[], (List.append_nil _).symm, List.nil_sublist _⟩
  | cons action actions ih =>
    obtain ⟨new, hnew, hsublist⟩ := s.checked_act probes action
    obtain ⟨more, hmore, hsublist'⟩ := ih (s.act probes action)
    refine ⟨new ++ more, ?_, ?_⟩
    · change ((s.act probes action).run probes actions).checked = _
      rw [hmore, hnew, List.append_assoc]
    · have hsplit : (action :: actions).filterMap HealthAction.check? =
          action.check?.toList ++ actions.filterMap HealthAction.check? := by
        cases hcheck : action.check? <;> simp [hcheck]
      rw [hsplit, List.map_append]
      exact hsublist.append hsublist'

end Runs

/-! ### After the join -/

/-- **What can follow the join**: a supervisor that is over and a `_start` that has finished
publish nothing. -/
structure Closing (s : HealthState π) : Prop where
  joined : s.Past true
  ended : s.Over
  starting : s.starting = .finished

theorem Sound.closing (h : s.Sound probes initial) (hjoined : s.Past true) : s.Closing := by
  obtain ⟨supervisor, hs, hended⟩ := h.stopped.ended hjoined
  exact ⟨hjoined, ⟨supervisor, hs, hended⟩, (h.supervised supervisor hs).starting⟩

/-- From one closing state to a later one: no more than `NOT_SERVING` was published, and
nothing once `_stop` had finished. -/
structure Quiet (s s' : HealthState π) : Prop where
  closing : s'.Closing
  later : ∃ later, s'.history = s.history ++ later ∧
    ∀ published ∈ later, published.status = .notServing
  finished : s.stopping = .finished true →
    s'.stopping = .finished true ∧ s'.history = s.history

theorem Closing.quiet_self (h : s.Closing) : s.Quiet s :=
  ⟨h, ⟨[], (List.append_nil _).symm, nofun⟩, fun hfinished => ⟨hfinished, rfl⟩⟩

theorem Quiet.trans {s s' s'' : HealthState π} (h : s.Quiet s') (h' : s'.Quiet s'') :
    s.Quiet s'' where
  closing := h'.closing
  later := by
    obtain ⟨later, hhistory, hall⟩ := h.later
    obtain ⟨later', hhistory', hall'⟩ := h'.later
    refine ⟨later ++ later', by rw [hhistory', hhistory, List.append_assoc], ?_⟩
    intro published hmem
    exact (List.mem_append.mp hmem).elim (hall published) (hall' published)
  finished := by
    intro hfinished
    obtain ⟨hfinished', hhistory⟩ := h.finished hfinished
    obtain ⟨hfinished'', hhistory'⟩ := h'.finished hfinished'
    exact ⟨hfinished'', hhistory'.trans hhistory⟩

theorem Closing.quiet_stop (h : s.Closing) : s.Quiet s.stop := by
  obtain ⟨hjoined, hover, hstarting⟩ := h
  rcases hjoined with hpast | ⟨_ | ⟨name, left⟩, hpublishing⟩ | hfinished
  · rw [HealthState.stop, hpast]
    dsimp only
    split
    · exact ⟨⟨Or.inr (Or.inl ⟨_, rfl⟩), hover, hstarting⟩, ⟨[], (List.append_nil _).symm, nofun⟩,
        fun hfinished => absurd (hpast.symm.trans hfinished) nofun⟩
    · exact ⟨⟨Or.inr (Or.inr rfl), hover, hstarting⟩, ⟨[], (List.append_nil _).symm, nofun⟩,
        fun hfinished => absurd (hpast.symm.trans hfinished) nofun⟩
  · rw [HealthState.stop, hpublishing]
    exact ⟨⟨Or.inr (Or.inr rfl), hover, hstarting⟩, ⟨[], (List.append_nil _).symm, nofun⟩,
      fun hfinished => absurd (hpublishing.symm.trans hfinished) nofun⟩
  · rw [HealthState.stop, hpublishing]
    refine ⟨⟨Or.inr (Or.inl ⟨left, rfl⟩), hover, hstarting⟩, ⟨_, rfl, ?_⟩,
      fun hfinished => absurd (hpublishing.symm.trans hfinished) nofun⟩
    rintro published hmem
    obtain rfl := List.mem_singleton.mp hmem
    rfl
  · rw [HealthState.stop, hfinished]
    exact Closing.quiet_self ⟨Or.inr (Or.inr hfinished), hover, hstarting⟩

section Runs

variable [Spec] (probes)

/-- **The step after the join**: of all the tasks only `_stop` publishes. -/
theorem Closing.quiet_act (h : s.Closing) (action : HealthAction) :
    s.Quiet (s.act probes action) := by
  obtain ⟨supervisor, hs, hended⟩ := h.ended
  cases action with
  | register registration =>
    exact ⟨⟨h.joined, h.ended, h.starting⟩, ⟨[], (List.append_nil _).symm, nofun⟩,
      fun hfinished => ⟨hfinished, rfl⟩⟩
  | start =>
    rw [act, HealthState.start, h.starting]
    exact h.quiet_self
  | startRaises =>
    rw [act, HealthState.startRaises, h.starting]
    exact h.quiet_self
  | check check warns =>
    simp only [act, HealthState.check, hs, hended]
    exact h.quiet_self
  | supervise =>
    simp only [act, HealthState.supervise, hs, hended]
    exact h.quiet_self
  | cancelled =>
    simp only [act, HealthState.endSupervisor, hs, hended]
    split
    · exact ⟨⟨h.joined, ⟨_, rfl, rfl⟩, h.starting⟩, ⟨[], (List.append_nil _).symm, nofun⟩,
        fun hfinished => ⟨hfinished, rfl⟩⟩
    · exact h.quiet_self
  | stop => exact h.quiet_stop

/-- **The run after the join.** -/
theorem Closing.quiet_run (h : s.Closing) (actions : List HealthAction) :
    s.Quiet (s.run probes actions) :=
  Run.invariant_of_step (fun _ action hs => hs.trans (hs.closing.quiet_act probes action))
    h.quiet_self actions

/-- There is a supervisor, and `_stop` has not gone past it without joining it. -/
structure Watched (s : HealthState π) : Prop where
  supervisor : s.supervisor ≠ none
  waits : ¬s.Past false

/-- A step that is not `_stop`'s neither moves `_stop` nor takes the supervisor away. -/
theorem supervisor_act {s : HealthState π} (hsupervisor : s.supervisor ≠ none)
    {action : HealthAction} (haction : action ≠ .stop) :
    (s.act probes action).supervisor ≠ none ∧ (s.act probes action).stopping = s.stopping := by
  cases action with
  | register registration => exact ⟨hsupervisor, rfl⟩
  | start =>
    rw [act, HealthState.start]
    split <;> first | exact ⟨hsupervisor, rfl⟩ | exact ⟨nofun, rfl⟩
  | startRaises =>
    rw [act, HealthState.startRaises]
    split <;> exact ⟨hsupervisor, rfl⟩
  | check check warns =>
    rw [act, HealthState.check]
    split
    · exact ⟨hsupervisor, rfl⟩
    · split <;> first | exact ⟨hsupervisor, rfl⟩ | exact ⟨nofun, rfl⟩
  | supervise =>
    rw [act, HealthState.supervise]
    split
    · exact ⟨hsupervisor, rfl⟩
    · split <;> first | exact ⟨hsupervisor, rfl⟩ | exact ⟨nofun, rfl⟩
  | cancelled =>
    rw [act, HealthState.endSupervisor]
    split
    · exact ⟨hsupervisor, rfl⟩
    · split
      · exact ⟨nofun, rfl⟩
      · exact ⟨hsupervisor, rfl⟩
      · split <;> first | exact ⟨hsupervisor, rfl⟩ | exact ⟨nofun, rfl⟩
  | stop => exact absurd rfl haction

omit [Spec] in
/-- `_stop` finds a supervisor that is there. -/
theorem Watched.stop {s : HealthState π} (h : s.Watched) : s.stop.Watched := by
  obtain ⟨hsupervisor, hnot⟩ := h
  unfold HealthState.stop
  split
  · split
    · next hnone => exact absurd hnone hsupervisor
    · exact ⟨nofun, by rintro (h | ⟨left, h⟩ | h) <;> cases h⟩
  · split
    · exact ⟨hsupervisor, by rintro (h | ⟨left, h⟩ | h) <;> cases h⟩
    · exact ⟨hsupervisor, by rintro (h | ⟨left, h⟩ | h) <;> cases h⟩
    · exact ⟨hsupervisor, hnot⟩
  · next joined hpast =>
    split
    · refine ⟨hsupervisor, ?_⟩
      rintro (h | ⟨left, h⟩ | h) <;> cases h
      exact hnot (Or.inl hpast)
    · refine ⟨hsupervisor, ?_⟩
      rintro (h | ⟨left, h⟩ | h) <;> cases h
      exact hnot (Or.inl hpast)
  · next joined name left hpublishing =>
    refine ⟨hsupervisor, ?_⟩
    rintro (h | ⟨left, h⟩ | h) <;> cases h
    exact hnot (Or.inr (Or.inl ⟨_, hpublishing⟩))
  · next joined hpublishing =>
    refine ⟨hsupervisor, ?_⟩
    rintro (h | ⟨left, h⟩ | h) <;> cases h
    exact hnot (Or.inr (Or.inl ⟨_, hpublishing⟩))
  · exact ⟨hsupervisor, hnot⟩
  · exact ⟨hsupervisor, hnot⟩

/-- **A `_stop` that begins when there is a supervisor joins it**: it never gets past it
otherwise. -/
theorem Watched.act {s : HealthState π} (h : s.Watched) (action : HealthAction) :
    (s.act probes action).Watched := by
  rcases eq_or_ne action .stop with rfl | haction
  · exact h.stop
  · obtain ⟨hkept, hstopping⟩ := supervisor_act probes h.supervisor haction
    refine ⟨hkept, ?_⟩
    rw [Past, hstopping]
    exact h.waits

end Runs

/-! ### A supervisor that raised -/

/-- A supervisor has raised, and `_stop` has not been past it. -/
structure Abandoned (s : HealthState π) : Prop where
  starting : s.starting = .finished
  failed : ∃ supervisor, s.supervisor = some supervisor ∧ supervisor.place = .failed
  stopping : s.stopping = .idle ∨ s.stopping = .joining ∨ s.stopping = .raised

section Runs

variable [Spec] (probes)

/-- No step publishes any more: `_stop` comes to the join and raises there. -/
theorem Abandoned.act (h : s.Abandoned) (action : HealthAction) :
    (s.act probes action).Abandoned ∧ (s.act probes action).history = s.history := by
  obtain ⟨hstarting, ⟨⟨names, place, cancelled⟩, hs, rfl⟩, hstopping⟩ := h
  have hself : s.Abandoned ∧ s.history = s.history := ⟨⟨hstarting, ⟨_, hs, rfl⟩, hstopping⟩, rfl⟩
  cases action with
  | register registration => exact ⟨⟨hstarting, ⟨_, hs, rfl⟩, hstopping⟩, rfl⟩
  | start =>
    rw [HealthState.act, HealthState.start, hstarting]
    exact hself
  | startRaises =>
    rw [HealthState.act, HealthState.startRaises, hstarting]
    exact hself
  | check check warns =>
    simp only [HealthState.act, HealthState.check, hs]
    exact ⟨hself.1, trivial⟩
  | supervise =>
    simp only [HealthState.act, HealthState.supervise, hs]
    exact ⟨hself.1, trivial⟩
  | cancelled =>
    simp only [HealthState.act, HealthState.endSupervisor, hs]
    exact ⟨hself.1, trivial⟩
  | stop =>
    rw [HealthState.act, HealthState.stop]
    rcases hstopping with hidle | hjoining | hraised
    · rw [hidle, hs]
      exact ⟨⟨hstarting, ⟨_, rfl, rfl⟩, Or.inr (Or.inl rfl)⟩, rfl⟩
    · rw [hjoining, hs]
      exact ⟨⟨hstarting, ⟨_, rfl, rfl⟩, Or.inr (Or.inr rfl)⟩, rfl⟩
    · rw [hraised]
      exact hself

/-- **What a supervisor that raised published last stands**: whatever happens after, nothing is
published. -/
theorem Abandoned.run (h : s.Abandoned) (actions : List HealthAction) :
    (s.run probes actions).history = s.history := by
  induction actions generalizing s with
  | nil => rfl
  | cons action actions ih =>
    obtain ⟨hkept, hhistory⟩ := h.act probes action
    exact (ih hkept).trans hhistory

end Runs

/-! ### What a name's history says -/

section Honest

variable [Spec] (probes : List π)

/-- **An honest history**, of a name a host served when it was started. -/
structure Honest (s : HealthState π) (name : String) : Prop where
  /-- It begins `NOT_SERVING`. -/
  first : ∀ published, (s.historyOf name).head? = some published →
    published.status = .notServing
  /-- A `SERVING` was published by a host that listened, of a tick on which the supervisor
  checked each of its probes and each returned true. -/
  serving : ∀ published ∈ s.historyOf name, published.status = .serving →
    published.listening = true ∧ published.tick = some (allPassed probes) ∧
      allPassed probes <:+: s.checked
  /-- Once `_stop` has joined the supervisor only `NOT_SERVING` follows, whatever happens. -/
  joined : s.Joined → ∀ more, ∃ later, (s.run probes more).historyOf name =
    s.historyOf name ++ later ∧ ∀ published ∈ later, published.status = .notServing
  /-- And once it is over, `NOT_SERVING` is the last, and nothing follows. -/
  finished : s.stopping = .finished true ∨ s.stopping = .raised →
    s.lastStatus name = some .notServing ∧
      ∀ more, (s.run probes more).historyOf name = s.historyOf name
  /-- A `_stop` called once `_start` has returned joins the supervisor before it goes on. -/
  joins : s.starting = .finished → s.stopping = .idle → ∀ more, ¬(s.run probes more).Past false

theorem Sound.honest {initial : List String} {s : HealthState π} (h : s.Sound probes initial)
    {name : String} (hname : name ∈ initial) : s.Honest probes name where
  first := h.truthful.first name
  serving := fun published hmem => h.truthful.serving published (List.mem_of_mem_filter hmem)
  joined := by
    intro hjoined more
    have hpast := hjoined.resolve_right h.stopped.unraised
    obtain ⟨later, hhistory, hall⟩ :=
      ((h.closing hpast).quiet_run probes more).later
    refine ⟨later.filter fun published => published.name = name, ?_, ?_⟩
    · rw [historyOf, hhistory, List.filter_append]
      rfl
    · exact fun published hmem => hall published (List.mem_of_mem_filter hmem)
  finished := by
    intro hover
    have hfinished := hover.resolve_right h.stopped.unraised
    refine ⟨h.stopped.finished hfinished name hname, fun more => ?_⟩
    have hquiet := (h.closing (Or.inr (Or.inr hfinished))).quiet_run probes more
    rw [historyOf, (hquiet.finished hfinished).2]
    rfl
  joins := by
    intro hstarting hidle more
    have hwatched : s.Watched := by
      refine ⟨h.made hstarting, ?_⟩
      rintro (hpast | ⟨left, hpast⟩ | hpast) <;> cases hidle.symm.trans hpast
    exact (Run.invariant_of_step (fun _ action hs => hs.act probes action) hwatched more).waits

/-- The host that some registrations leave. -/
def given (host : ComponentHost) (registrations : List ComponentHost.Registration) :
    ComponentHost :=
  Run.run ComponentHost.give host registrations

/-- **`SERVING` only while listening and not stopping.** Whatever a host was given, and
however the steps of its start, its supervisor and its stop fall, with registrations among
them, the history of every name it served when it was started is an honest one, if each check
that does not pass can be warned of. And the checks a tick went by are those that came to
something, in their order. -/
theorem serving_only_while_listening (router : Option (Option DispatchTable))
    (rulesVersion : String) (registrations : List ComponentHost.Registration)
    {actions : List HealthAction} (hwarned : ∀ action ∈ actions, action.Warned) :
    let host := given (.new router rulesVersion) registrations
    let s := (new host).run probes actions
    (∀ name ∈ host.names, s.Honest probes name) ∧
      (s.checked.map Prod.snd).Sublist (actions.filterMap HealthAction.check?) := by
  intro host s
  have hclaimed : host.Claimed :=
    Run.invariant_of_step (fun _ registration hs => hs.give registration) (fun _ => rfl)
      registrations
  have hsound : s.Sound probes host.names := (sound_new probes hclaimed).run hwarned
  refine ⟨fun name hname => hsound.honest probes hname, ?_⟩
  obtain ⟨new, hnew, hsublist⟩ := (new host).checked_run probes actions
  rw [show s.checked = new from hnew]
  exact hsublist

end Honest

/-- The steps of an upcaster's host of one probe: it starts, its first tick passes, and a stop
cancels the supervisor between the two names it publishes. -/
def cancelledInATick : List HealthAction :=
  List.replicate 6 .start ++
    [.check (.returned true) false, .supervise, .supervise, .stop, .cancelled] ++
      List.replicate 5 .stop

open scoped Router.Ledger in
/-- The overall status of such a host ends `NOT_SERVING`. -/
theorem serving_only_while_listening_upcaster :
    let s : HealthState Unit :=
      (new (given (.new none "") [.addUpcaster])).run [()] cancelledInATick
    s.Honest [()] "" ∧ s.stopping = .finished true ∧
      (s.historyOf "").map Published.status = [.notServing, .serving, .notServing] := by
  have hwarned : ∀ action ∈ cancelledInATick, action.Warned := by
    simp [cancelledInATick, HealthAction.Warned, Check.ok]
  refine ⟨?_, by decide, by decide⟩
  exact (serving_only_while_listening [()] none "" [.addUpcaster] hwarned).1 ""
    (List.mem_cons_self ..)

/-- The steps of such a host whose second check raises what has no text: it was published
`SERVING` under both names before, and a stop follows. -/
def abandonedAfterATick : List HealthAction :=
  List.replicate 6 .start ++ .check (.returned true) false :: List.replicate 5 .supervise ++
    [.check .raised false, .stop, .stop]

open scoped Router.Ledger in
/-- **A check that cannot be warned of leaves a stopped host `SERVING`.** -/
theorem serving_after_abandoned :
    let s : HealthState Unit :=
      (new (given (.new none "") [.addUpcaster])).run [()] abandonedAfterATick
    s.stopping = .raised ∧ s.lastStatus "" = some .serving ∧ ¬s.Honest [()] "" := by
  refine ⟨by decide, by decide, fun hhonest => ?_⟩
  have hlast := (hhonest.finished (Or.inr (by decide))).1
  exact absurd hlast (by decide)

end HealthState

end AngzarrClient
