import Mathlib.Data.List.Basic

/-!
# Runs that leave a trace

A run of code that calls other code on the way: it leaves the calls it made, in
order, and it ends with a value or an error. `Traced τ ε α` is such a run, and its
bind is the one of every language with exceptions – what follows an error does not
run, and what ran before it stays in the trace.

Nothing here knows what a call is. A model that says which calls its code makes
writes it in this monad, and reads both halves of a statement off one definition:
what the code answers (`Traced.result`) and what it called to get there
(`Traced.log`).

The lemmas come in two shapes. `Traced.bind_of_ok` and `Traced.bind_of_error`
run a bind forwards, once the first half is known; `Traced.result_bind_eq_ok` and
`Traced.result_bind_eq_error` read one backwards, into what must have happened for
it to end as it did.

Two runs are alike up to a relation on their errors and one on their values
(`Traced.Rel`), and sequencing keeps them so (`Traced.rel_bind`).
-/

/-- A run: the events it left, in order, and the value or the error it ended with. -/
@[ext]
structure Traced (τ ε α : Type) where
  /-- The events the run left, in order. -/
  log : List τ
  /-- What the run ended with. -/
  result : Except ε α

namespace Traced

variable {τ ε α β : Type}

/-- **Sequencing**: the second half runs only on a value, after the trace of the
first. -/
protected def bind (run : Traced τ ε α) (next : α → Traced τ ε β) : Traced τ ε β :=
  match run.result with
  | .ok a => ⟨run.log ++ (next a).log, (next a).result⟩
  | .error e => ⟨run.log, .error e⟩

instance : Monad (Traced τ ε) where
  pure a := ⟨[], .ok a⟩
  bind := Traced.bind

/-- The run that fails at once. -/
def raise (e : ε) : Traced τ ε α := ⟨[], .error e⟩

/-- The run that leaves one event and ends with a result that was already known:
a call, and what came of it. -/
def call (event : τ) (result : Except ε α) : Traced τ ε α := ⟨[event], result⟩

/-- A result that took no call to get. -/
def ofExcept (result : Except ε α) : Traced τ ε α := ⟨[], result⟩

/-! ### Running forwards -/

@[simp] theorem pure_log (a : α) : (pure a : Traced τ ε α).log = [] := rfl

@[simp] theorem pure_result (a : α) : (pure a : Traced τ ε α).result = .ok a := rfl

@[simp] theorem raise_log (e : ε) : (raise e : Traced τ ε α).log = [] := rfl

@[simp] theorem raise_result (e : ε) : (raise e : Traced τ ε α).result = .error e := rfl

@[simp] theorem call_log (event : τ) (r : Except ε α) : (call event r).log = [event] := rfl

@[simp] theorem call_result (event : τ) (r : Except ε α) : (call event r).result = r := rfl

@[simp] theorem ofExcept_log (r : Except ε α) : (ofExcept r : Traced τ ε α).log = [] := rfl

/-- After a value the rest runs, and its trace comes after. -/
theorem bind_of_ok {run : Traced τ ε α} {a : α} (h : run.result = .ok a)
    (next : α → Traced τ ε β) :
    run >>= next = ⟨run.log ++ (next a).log, (next a).result⟩ := by
  change Traced.bind run next = _
  rw [Traced.bind, h]

/-- After an error nothing runs. -/
theorem bind_of_error {run : Traced τ ε α} {e : ε} (h : run.result = .error e)
    (next : α → Traced τ ε β) : run >>= next = ⟨run.log, .error e⟩ := by
  change Traced.bind run next = _
  rw [Traced.bind, h]

@[simp] theorem pure_bind' (a : α) (next : α → Traced τ ε β) :
    (pure a : Traced τ ε α) >>= next = next a := by
  rw [bind_of_ok rfl]
  exact Traced.ext (List.nil_append _) rfl

@[simp] theorem raise_bind (e : ε) (next : α → Traced τ ε β) :
    (raise e : Traced τ ε α) >>= next = raise e :=
  bind_of_error rfl next

theorem ofExcept_ok (a : α) : (ofExcept (.ok a) : Traced τ ε α) = pure a := rfl

theorem ofExcept_error (e : ε) : (ofExcept (.error e) : Traced τ ε α) = raise e := rfl

instance : LawfulMonad (Traced τ ε) :=
  LawfulMonad.mk' (Traced τ ε)
    (fun run => by
      change Traced.bind run _ = run
      rcases run with ⟨log, e | a⟩
      · rfl
      · simp [Traced.bind])
    (fun a next => pure_bind' a next)
    (fun run next last => by
      change Traced.bind (Traced.bind run next) last
        = Traced.bind run fun a => Traced.bind (next a) last
      rcases run with ⟨log, e | a⟩
      · rfl
      · simp only [Traced.bind]
        rcases (next a).result with e | b
        · rfl
        · simp only [List.append_assoc])

/-! ### Reading backwards -/

/-- Results in sequence are a value exactly when both are. -/
theorem except_bind_eq_ok {result : Except ε α} {next : α → Except ε β} {b : β} :
    result >>= next = .ok b ↔ ∃ a, result = .ok a ∧ next a = .ok b := by
  constructor
  · intro h
    rcases result with e | a
    · cases h
    · exact ⟨a, rfl, h⟩
  · rintro ⟨a, rfl, h⟩
    exact h

/-- They are an error exactly when the first is, or the second on what the first one gave. -/
theorem except_bind_eq_error {result : Except ε α} {next : α → Except ε β} {e : ε} :
    result >>= next = .error e ↔
      result = .error e ∨ ∃ a, result = .ok a ∧ next a = .error e := by
  constructor
  · intro h
    rcases result with e' | a
    · exact Or.inl (congrArg Except.error (Except.error.inj h))
    · exact Or.inr ⟨a, rfl, h⟩
  · rintro (rfl | ⟨a, rfl, h⟩)
    · rfl
    · exact h

/-- What a bind ends with is its halves' results in sequence. -/
theorem result_bind (run : Traced τ ε α) (next : α → Traced τ ε β) :
    (run >>= next).result = run.result >>= fun a => (next a).result := by
  rcases hr : run.result with e | a
  · rw [bind_of_error hr]
    rfl
  · rw [bind_of_ok hr]
    rfl

/-- A bind ends with a value exactly when both halves do. -/
theorem result_bind_eq_ok {run : Traced τ ε α} {next : α → Traced τ ε β} {b : β} :
    (run >>= next).result = .ok b ↔
      ∃ a, run.result = .ok a ∧ (next a).result = .ok b := by
  rw [result_bind, except_bind_eq_ok]

/-- A bind fails exactly when its first half does, or its second half on what the
first one gave. -/
theorem result_bind_eq_error {run : Traced τ ε α} {next : α → Traced τ ε β} {e : ε} :
    (run >>= next).result = .error e ↔
      run.result = .error e ∨ ∃ a, run.result = .ok a ∧ (next a).result = .error e := by
  rw [result_bind, except_bind_eq_error]

/-! ### Folding over a list -/

/-- A fold that fails fails at its first element that does: those before it folded. -/
theorem result_foldlM_eq_error {f : β → α → Traced τ ε β} {b : β} {l : List α} {e : ε} :
    (l.foldlM f b).result = .error e ↔
      ∃ pre a post c, l = pre ++ a :: post ∧ (pre.foldlM f b).result = .ok c ∧
        (f c a).result = .error e := by
  constructor
  · intro h
    induction l generalizing b with
    | nil => cases h
    | cons a l ih =>
      rw [List.foldlM_cons] at h
      rcases result_bind_eq_error.mp h with h | ⟨c, hc, h⟩
      · exact ⟨[], a, l, b, rfl, rfl, h⟩
      · obtain ⟨pre, a', post, d, rfl, hd, h⟩ := ih h
        refine ⟨a :: pre, a', post, d, rfl, ?_, h⟩
        rw [List.foldlM_cons]
        exact result_bind_eq_ok.mpr ⟨c, hc, hd⟩
  · rintro ⟨pre, a, post, c, rfl, hc, h⟩
    rw [List.foldlM_append]
    refine result_bind_eq_error.mpr (Or.inr ⟨c, hc, ?_⟩)
    rw [List.foldlM_cons]
    exact result_bind_eq_error.mpr (Or.inl h)

/-- **Nothing runs after the element a fold fails at.** -/
theorem log_foldlM_of_error {f : β → α → Traced τ ε β} {b c : β} {pre : List α} {a : α} {e : ε}
    (hc : (pre.foldlM f b).result = .ok c) (h : (f c a).result = .error e) (post : List α) :
    ((pre ++ a :: post).foldlM f b).log = (pre.foldlM f b).log ++ (f c a).log := by
  rw [List.foldlM_append, bind_of_ok hc, List.foldlM_cons, bind_of_error h]

/-! ### Collecting over a list -/

/-- What a run gives for each element of a list, in one list. -/
def collect (f : α → Traced τ ε (List β)) : List α → Traced τ ε (List β)
  | [] => pure []
  | a :: l => do
    let first ← f a
    let rest ← collect f l
    return first ++ rest

variable {f : α → Traced τ ε (List β)}

/-- A loop that adds what each element gives to what it has collects over the list. -/
theorem foldlM_eq_collect {γ : Type} {add : γ → List β → γ}
    (hnil : ∀ c, add c [] = c) (hadd : ∀ c bs bs', add (add c bs) bs' = add c (bs ++ bs'))
    (c : γ) (l : List α) :
    l.foldlM (fun c a => add c <$> f a) c = add c <$> collect f l := by
  induction l generalizing c with
  | nil => simp only [List.foldlM_nil, collect, map_pure, hnil]
  | cons a l ih =>
    simp only [List.foldlM_cons, collect, ih, bind_map_left, map_bind, map_pure]
    refine bind_congr fun bs => ?_
    rw [← bind_pure_comp]
    exact bind_congr fun bs' => congrArg pure (hadd c bs bs')

theorem collect_append (l l' : List α) :
    collect f (l ++ l') = do
      let first ← collect f l
      let rest ← collect f l'
      return first ++ rest := by
  induction l with
  | nil => simp [collect]
  | cons a l ih =>
    simp only [List.cons_append, collect, ih, bind_assoc, pure_bind]
    refine bind_congr fun first => bind_congr fun rest => bind_congr fun more => ?_
    rw [List.append_assoc]

/-- What gives nothing and calls nothing can be left out. -/
theorem collect_filter {keep : α → Bool} (h : ∀ a, keep a = false → f a = pure []) (l : List α) :
    collect f (l.filter keep) = collect f l := by
  induction l with
  | nil => rfl
  | cons a l ih =>
    rcases hk : keep a with _ | _
    · rw [List.filter_cons_of_neg (by simp [hk]), collect, h a hk, ih]
      simp
    · rw [List.filter_cons_of_pos hk, collect, collect, ih]

/-- Where every element gives something, the list gives it all, in order. -/
theorem collect_of_ok {give : α → List β} {calls : α → List τ} {l : List α}
    (h : ∀ a ∈ l, f a = ⟨calls a, .ok (give a)⟩) :
    collect f l = ⟨l.flatMap calls, .ok (l.flatMap give)⟩ := by
  induction l with
  | nil => rfl
  | cons a l ih =>
    have ha : (f a).result = .ok (give a) := by rw [h a (List.mem_cons_self ..)]
    have hl := ih fun b hb => h b (List.mem_cons_of_mem _ hb)
    have hrest : (collect f l).result = .ok (l.flatMap give) := by rw [hl]
    rw [collect, bind_of_ok ha, bind_of_ok hrest, hl, h a (List.mem_cons_self ..)]
    simp

/-- **The first element that fails fails the list**, and nothing after it runs. -/
theorem collect_of_error {give : α → List β} {calls : α → List τ} {pre : List α} {a : α}
    {e : ε} (h : ∀ b ∈ pre, f b = ⟨calls b, .ok (give b)⟩) (ha : (f a).result = .error e)
    (post : List α) :
    collect f (pre ++ a :: post) = ⟨pre.flatMap calls ++ (f a).log, .error e⟩ := by
  have hpre : (collect f pre).result = .ok (pre.flatMap give) := by rw [collect_of_ok h]
  have hrest : (collect f (a :: post)).result = .error e := by rw [collect, bind_of_error ha]
  rw [collect_append, bind_of_ok hpre, bind_of_error hrest, collect_of_ok h, collect,
    bind_of_error ha]

/-! ### Two runs alike -/

/-- Two results are alike: values `R` relates, or errors `E` does. -/
inductive ResultRel (E : ε → ε → Prop) (R : α → β → Prop) : Except ε α → Except ε β → Prop where
  | ok {a : α} {b : β} (h : R a b) : ResultRel E R (.ok a) (.ok b)
  | error {e e' : ε} (h : E e e') : ResultRel E R (.error e) (.error e')

/-- **Two runs are alike**: they made the same calls and ended alike. -/
def Rel (E : ε → ε → Prop) (R : α → β → Prop) (run : Traced τ ε α) (run' : Traced τ ε β) : Prop :=
  run.log = run'.log ∧ ResultRel E R run.result run'.result

section Rel

variable {γ δ : Type} {E : ε → ε → Prop} {R : α → β → Prop} {S : γ → δ → Prop}

/-- Alike results, read alike, are alike. -/
theorem ResultRel.map {f : α → γ} {g : β → δ} (hfg : ∀ a b, R a b → S (f a) (g b))
    {r : Except ε α} {r' : Except ε β} (h : ResultRel E R r r') :
    ResultRel E S (r.map f) (r'.map g) := by
  cases h with
  | ok h => exact .ok (hfg _ _ h)
  | error h => exact .error h

/-- Alike results are the same once their errors are read so that alike ones are. -/
theorem ResultRel.mapError {ε' : Type} {f : ε → ε'} (hf : ∀ e e', E e e' → f e = f e')
    {r r' : Except ε α} (h : ResultRel E Eq r r') : r.mapError f = r'.mapError f := by
  cases h with
  | ok h => rw [h]
  | error h => exact congrArg Except.error (hf _ _ h)

theorem rel_ofExcept {r : Except ε α} {r' : Except ε β} (h : ResultRel E R r r') :
    Rel E R (ofExcept r : Traced τ ε α) (ofExcept r') :=
  ⟨rfl, h⟩

/-- A run is like itself, where every error is. -/
theorem rel_refl (hE : ∀ e, E e e) (run : Traced τ ε α) : Rel E Eq run run := by
  refine ⟨rfl, ?_⟩
  rcases run.result with e | a
  · exact .error (hE e)
  · exact .ok rfl

/-- **The rule of sequencing**: alike first halves, and second halves alike on whatever
alike values those give. -/
theorem rel_bind {run : Traced τ ε α} {run' : Traced τ ε β} {next : α → Traced τ ε γ}
    {next' : β → Traced τ ε δ} (h : Rel E R run run')
    (hnext : ∀ a b, R a b → Rel E S (next a) (next' b)) :
    Rel E S (run >>= next) (run' >>= next') := by
  obtain ⟨hlog, hresult⟩ := h
  rcases hr : run.result with e | a <;> rcases hr' : run'.result with e' | b <;>
    rw [hr, hr'] at hresult <;> cases hresult
  · rw [bind_of_error hr, bind_of_error hr']
    exact ⟨hlog, .error ‹_›⟩
  · rw [bind_of_ok hr, bind_of_ok hr']
    obtain ⟨hlog', hresult'⟩ := hnext a b ‹_›
    exact ⟨congrArg₂ (· ++ ·) hlog hlog', hresult'⟩

end Rel

end Traced
