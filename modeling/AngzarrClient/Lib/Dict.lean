import Mathlib.Data.List.Nodup

/-!
# Dictionaries that keep their order

A dictionary is a list of entries in which no key occurs twice; the list's order is
the order the keys were first set in, and setting a key again replaces its value
where it stands. That is the mapping type of most scripting languages, and the one
whose order a rendering of it shows.

The invariant is a field (`Dict.nodup`), so a dictionary with a key twice cannot be
built and no lemma below asks for it.
-/

/-- A dictionary: entries in the order their keys were first set, no key twice. -/
structure Dict (κ ν : Type) where
  /-- The entries, in the order their keys were first set. -/
  entries : List (κ × ν)
  /-- No key occurs twice. -/
  nodup : (entries.map Prod.fst).Nodup
  deriving DecidableEq

namespace Dict

variable {κ ν : Type} [DecidableEq κ]

/-- The empty dictionary. -/
def empty : Dict κ ν := ⟨[], List.nodup_nil⟩

instance : EmptyCollection (Dict κ ν) := ⟨empty⟩

/-- The value a key is set to. -/
def get? (d : Dict κ ν) (k : κ) : Option ν := d.entries.lookup k

/-- The entries once `k` is set to `v`: replaced where it stands, at the end when it
is new. -/
def setEntry (k : κ) (v : ν) : List (κ × ν) → List (κ × ν)
  | [] => [(k, v)]
  | (k', v') :: rest => if k' = k then (k, v) :: rest else (k', v') :: setEntry k v rest

theorem mem_keys_setEntry {k k' : κ} {v : ν} {l : List (κ × ν)} :
    k' ∈ (setEntry k v l).map Prod.fst ↔ k' = k ∨ k' ∈ l.map Prod.fst := by
  induction l with
  | nil => simp [setEntry]
  | cons e l ih =>
    obtain ⟨k₀, v₀⟩ := e
    rw [setEntry]
    split
    · next h => subst h; simp
    · rw [List.map_cons, List.mem_cons, ih, List.map_cons, List.mem_cons]
      tauto

theorem nodup_setEntry {k : κ} {v : ν} {l : List (κ × ν)} (h : (l.map Prod.fst).Nodup) :
    ((setEntry k v l).map Prod.fst).Nodup := by
  induction l with
  | nil => simp [setEntry]
  | cons e l ih =>
    obtain ⟨k₀, v₀⟩ := e
    rw [List.map_cons, List.nodup_cons] at h
    rw [setEntry]
    split
    · next hk => subst hk; exact List.nodup_cons.mpr h
    · next hk =>
      refine List.nodup_cons.mpr ⟨fun hmem => ?_, ih h.2⟩
      rcases mem_keys_setEntry.mp hmem with rfl | hmem
      · exact hk rfl
      · exact h.1 hmem

/-- Setting a key. -/
def set (d : Dict κ ν) (k : κ) (v : ν) : Dict κ ν :=
  ⟨setEntry k v d.entries, nodup_setEntry d.nodup⟩

/-- A dictionary set to another one's entries, in their order: `{**d, **e}`. -/
def update (d e : Dict κ ν) : Dict κ ν := e.entries.foldl (fun d kv => d.set kv.1 kv.2) d

/-- The dictionary of a list of settings, a later one winning. -/
def ofList (l : List (κ × ν)) : Dict κ ν := l.foldl (fun d kv => d.set kv.1 kv.2) ∅

/-- The dictionary of the same keys, each value read as `f` reads it. -/
def mapValues {ν' : Type} (f : ν → ν') (d : Dict κ ν) : Dict κ ν' :=
  ⟨d.entries.map fun e => (e.1, f e.2), by
    rw [List.map_map]
    exact d.nodup⟩

/-- Two dictionaries with the same keys, at each of which `R` relates the values. -/
def Rel {ν' : Type} (R : ν → ν' → Prop) (d : Dict κ ν) (d' : Dict κ ν') : Prop :=
  ∀ k, Option.Rel R (d.get? k) (d'.get? k)

/-! ### Looking up -/

@[simp] theorem get?_empty (k : κ) : (∅ : Dict κ ν).get? k = none := rfl

theorem lookup_entry (k k' : κ) (v : ν) (l : List (κ × ν)) :
    ((k, v) :: l).lookup k' = if k' = k then some v else l.lookup k' := by
  rw [List.lookup_cons]
  by_cases h : k' = k
  · rw [if_pos h, beq_iff_eq.mpr h]
  · rw [if_neg h, beq_eq_false_iff_ne.mpr h]

theorem lookup_setEntry (k k' : κ) (v : ν) (l : List (κ × ν)) :
    (setEntry k v l).lookup k' = if k' = k then some v else l.lookup k' := by
  induction l with
  | nil => exact lookup_entry k k' v []
  | cons e l ih =>
    obtain ⟨k₀, v₀⟩ := e
    rw [setEntry, lookup_entry k₀ k' v₀ l]
    split
    · next h =>
      subst h
      rw [lookup_entry]
      split
      · rfl
      · rfl
    · next h =>
      rw [lookup_entry, ih]
      by_cases hk : k' = k₀
      · rw [if_pos hk, if_neg fun hk' => h (hk.symm.trans hk'), if_pos hk]
      · rw [if_neg hk, if_neg hk]

/-- **A lookup after a setting.** -/
@[simp] theorem get?_set (d : Dict κ ν) (k k' : κ) (v : ν) :
    (d.set k v).get? k' = if k' = k then some v else d.get? k' :=
  lookup_setEntry k k' v d.entries

/-- An entry's value is found at its key. -/
theorem get?_of_mem {d : Dict κ ν} {k : κ} {v : ν} (h : (k, v) ∈ d.entries) :
    d.get? k = some v := by
  obtain ⟨entries, hnodup⟩ := d
  show entries.lookup k = some v
  induction entries with
  | nil => cases h
  | cons e l ih =>
    obtain ⟨k₀, v₀⟩ := e
    rw [List.map_cons, List.nodup_cons] at hnodup
    rw [lookup_entry]
    rcases List.mem_cons.mp h with heq | hmem
    · obtain ⟨rfl, rfl⟩ := Prod.mk.inj heq
      exact if_pos rfl
    · rw [if_neg fun hk => hnodup.1 (List.mem_map.mpr ⟨(k, v), hmem, hk⟩)]
      exact ih hnodup.2 hmem

theorem get?_mapValues {ν' : Type} (f : ν → ν') (d : Dict κ ν) (k : κ) :
    (d.mapValues f).get? k = (d.get? k).map f := by
  change (d.entries.map fun e => (e.1, f e.2)).lookup k = (d.entries.lookup k).map f
  induction d.entries with
  | nil => rfl
  | cons e l ih =>
    obtain ⟨k₀, v₀⟩ := e
    rw [List.map_cons, lookup_entry, lookup_entry, ih]
    split
    · rfl
    · rfl

/-! ### Entries in order -/

theorem setEntry_of_not_mem {k : κ} {l : List (κ × ν)} (h : k ∉ l.map Prod.fst) (v : ν) :
    setEntry k v l = l ++ [(k, v)] := by
  induction l with
  | nil => rfl
  | cons e l ih =>
    rw [List.map_cons, List.mem_cons, not_or] at h
    rw [setEntry, if_neg fun hk => h.1 hk.symm, ih h.2, List.cons_append]

/-- Keys that are new come after those there are, in their order. -/
theorem entries_foldl_set {l : List (κ × ν)} {d : Dict κ ν} (hl : (l.map Prod.fst).Nodup)
    (hd : ∀ e ∈ l, e.1 ∉ d.entries.map Prod.fst) :
    (l.foldl (fun d kv => d.set kv.1 kv.2) d).entries = d.entries ++ l := by
  induction l generalizing d with
  | nil => exact (List.append_nil _).symm
  | cons e l ih =>
    rw [List.map_cons, List.nodup_cons] at hl
    have hset : (d.set e.1 e.2).entries = d.entries ++ [e] :=
      setEntry_of_not_mem (hd e List.mem_cons_self) e.2
    rw [List.foldl_cons, ih hl.2, hset, List.append_assoc, List.singleton_append]
    intro e' he' hmem
    rw [hset, List.map_append, List.mem_append] at hmem
    rcases hmem with hmem | hmem
    · exact hd e' (List.mem_cons_of_mem _ he') hmem
    · have heq : e'.1 = e.1 := List.mem_singleton.mp hmem
      exact hl.1 (heq ▸ List.mem_map_of_mem he')

/-- Settings of different keys are the entries. -/
theorem entries_ofList {l : List (κ × ν)} (hl : (l.map Prod.fst).Nodup) :
    (ofList l).entries = l :=
  entries_foldl_set hl fun _ _ => List.not_mem_nil

omit [DecidableEq κ] in
theorem ext {d e : Dict κ ν} (h : d.entries = e.entries) : d = e := by
  cases d
  cases e
  cases h
  rfl

theorem mem_keys_set {d : Dict κ ν} {k k' : κ} {v : ν} :
    k' ∈ (d.set k v).entries.map Prod.fst ↔ k' = k ∨ k' ∈ d.entries.map Prod.fst :=
  mem_keys_setEntry

/-- A key is set anew where it stands. -/
theorem setEntry_setEntry (k : κ) (v w : ν) (l : List (κ × ν)) :
    setEntry k w (setEntry k v l) = setEntry k w l := by
  induction l with
  | nil => exact if_pos rfl
  | cons e l ih =>
    obtain ⟨k₀, v₀⟩ := e
    by_cases h : k₀ = k
    · simp only [setEntry, if_pos h, if_pos]
    · simp only [setEntry, if_neg h, ih]

theorem set_set (d : Dict κ ν) (k : κ) (v w : ν) : (d.set k v).set k w = d.set k w :=
  ext (setEntry_setEntry k v w d.entries)

/-- A key that is there is set where it stands, so before or after another one. -/
theorem setEntry_comm {k k' : κ} (hne : k ≠ k') (v v' : ν) {l : List (κ × ν)}
    (hmem : k ∈ l.map Prod.fst) :
    setEntry k v (setEntry k' v' l) = setEntry k' v' (setEntry k v l) := by
  induction l with
  | nil => cases hmem
  | cons e l ih =>
    obtain ⟨k₀, v₀⟩ := e
    by_cases hk : k₀ = k
    · subst hk
      simp only [setEntry, if_neg hne, if_pos]
    · have hmem' : k ∈ l.map Prod.fst := (List.mem_cons.mp hmem).resolve_left fun h => hk h.symm
      by_cases hk' : k₀ = k'
      · subst hk'
        simp only [setEntry, if_pos, if_neg hk]
      · simp only [setEntry, if_neg hk, if_neg hk', ih hmem']

theorem set_comm {d : Dict κ ν} {k k' : κ} (hne : k ≠ k') (v v' : ν)
    (hmem : k ∈ d.entries.map Prod.fst) : (d.set k' v').set k v = (d.set k v).set k' v' :=
  ext (setEntry_comm hne v v' hmem)

/-- Other keys may be set before or after one that is there. -/
theorem foldl_set_comm {k : κ} (v : ν) {l : List (κ × ν)} (hl : k ∉ l.map Prod.fst)
    {d : Dict κ ν} (hd : k ∈ d.entries.map Prod.fst) :
    (l.foldl (fun d kv => d.set kv.1 kv.2) d).set k v =
      l.foldl (fun d kv => d.set kv.1 kv.2) (d.set k v) := by
  induction l generalizing d with
  | nil => rfl
  | cons e l ih =>
    rw [List.map_cons, List.mem_cons, not_or] at hl
    rw [List.foldl_cons, ih hl.2 (mem_keys_set.mpr (.inr hd)), set_comm hl.1 v e.2 hd,
      List.foldl_cons]

/-- **A key set in a dictionary is a key set last** where the dictionary is set over another. -/
theorem update_set (d e : Dict κ ν) (k : κ) (v : ν) :
    d.update (e.set k v) = (d.update e).set k v := by
  obtain ⟨entries, hnodup⟩ := e
  show (setEntry k v entries).foldl (fun d kv => d.set kv.1 kv.2) d =
    (entries.foldl (fun d kv => d.set kv.1 kv.2) d).set k v
  induction entries generalizing d with
  | nil => rfl
  | cons e l ih =>
    obtain ⟨k₀, v₀⟩ := e
    rw [List.map_cons, List.nodup_cons] at hnodup
    by_cases hk : k₀ = k
    · -- Its entry stands here, and what follows sets other keys.
      subst hk
      have hset : k₀ ∈ (d.set k₀ v₀).entries.map Prod.fst := mem_keys_set.mpr (.inl rfl)
      rw [setEntry, if_pos rfl, List.foldl_cons, List.foldl_cons, foldl_set_comm v hnodup.1 hset,
        set_set]
    · rw [setEntry, if_neg hk, List.foldl_cons, List.foldl_cons, ih _ hnodup.2]

/-- Where a dictionary is set over another, its values are found first. -/
theorem get?_update (d e : Dict κ ν) (k : κ) :
    (d.update e).get? k = (e.get? k).or (d.get? k) := by
  obtain ⟨entries, hnodup⟩ := e
  show (entries.foldl (fun d kv => d.set kv.1 kv.2) d).get? k = (entries.lookup k).or (d.get? k)
  induction entries generalizing d with
  | nil => rfl
  | cons e l ih =>
    obtain ⟨k₀, v₀⟩ := e
    rw [List.map_cons, List.nodup_cons] at hnodup
    rw [List.foldl_cons, ih _ hnodup.2, get?_set, lookup_entry]
    by_cases hk : k = k₀
    · subst hk
      have hlookup : l.lookup k = none := by
        rw [List.lookup_eq_none_iff]
        intro e he
        refine bne_iff_ne.mpr ?_
        rintro rfl
        exact hnodup.1 (List.mem_map.mpr ⟨e, he, rfl⟩)
      rw [if_pos rfl, if_pos rfl, hlookup]
      rfl
    · rw [if_neg hk, if_neg hk]

/-! ### Two dictionaries alike -/

section Rel

variable {ν' : Type} {R : ν → ν' → Prop} {d : Dict κ ν} {d' : Dict κ ν'}

/-- Setting a key to values `R` relates keeps two dictionaries alike. -/
theorem Rel.set (h : Rel R d d') (k : κ) {v : ν} {v' : ν'} (hv : R v v') :
    Rel R (d.set k v) (d'.set k v') := by
  intro k'
  rw [get?_set, get?_set]
  split
  · exact .some hv
  · exact h k'

end Rel

end Dict
