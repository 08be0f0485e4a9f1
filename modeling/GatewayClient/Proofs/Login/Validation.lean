import GatewayClient.Proofs.Login.Batch

/-!
# What a batch is refused for

A batch can be wrong in two ways at once, and in several places. The validation names one index. It
looks for a repetition first, whether or not an index is beyond the total, and names the index whose
second occurrence comes first. Only a batch without repetition is compared with the total, and of
this the first index beyond it is named.

Both are told by the place of the index that is named: the batch is split there, and nothing in
front of it is wrong in the same way (`FirstRepeated`, `FirstBeyond`). The searches keep this by
induction on the batch (`firstRepeated?_eq_some`, `assign_eq_error`).
-/

namespace GatewayClient

theorem ShardAssignment.exists_ofPair {index total : UInt32} :
    (∃ a, ofPair index total = .ok a) ↔ index < total := by
  constructor
  · rintro ⟨a, ha⟩
    obtain ⟨rfl, rfl⟩ := eq_of_ofPair ha
    exact a.index_lt_total
  · intro hlt
    exact ⟨⟨index, total, hlt⟩, ofPair_self ⟨index, total, hlt⟩⟩

namespace Batch

/-- The first index of a batch, from left to right, that an earlier one equals. -/
def FirstRepeated (shards : List UInt32) (s : UInt32) : Prop :=
  ∃ before after, shards = before ++ s :: after ∧ s ∈ before ∧ before.Nodup

/-- The first index of a batch that is no shard of the total. -/
def FirstBeyond (total : UInt32) (shards : List UInt32) (s : UInt32) : Prop :=
  ∃ before after, shards = before ++ s :: after ∧ total ≤ s ∧ ∀ i ∈ before, i < total

variable {total : UInt32} {shards : List UInt32}

/-- A batch is split at its first index or behind it. -/
theorem split_cons {i s : UInt32} {rest : List UInt32} {p : List UInt32 → Prop} :
    (∃ before after, i :: rest = before ++ s :: after ∧ p before) ↔
      (i = s ∧ p []) ∨ ∃ before after, rest = before ++ s :: after ∧ p (i :: before) := by
  constructor
  · rintro ⟨before, after, heq, hp⟩
    cases before with
    | nil => exact .inl ⟨List.head_eq_of_cons_eq heq, hp⟩
    | cons j before =>
        obtain ⟨rfl, rfl⟩ := List.cons_eq_cons.mp heq
        exact .inr ⟨before, after, rfl, hp⟩
  · rintro (⟨rfl, hp⟩ | ⟨before, after, rfl, hp⟩)
    · exact ⟨[], rest, rfl, hp⟩
    · exact ⟨i :: before, after, rfl, hp⟩

/-! ## The search for a repetition -/

theorem firstRepeated?_eq_some {seen : List UInt32} {s : UInt32} :
    firstRepeated? seen shards = some s ↔
      ∃ before after, shards = before ++ s :: after
        ∧ (s ∈ seen ∨ s ∈ before) ∧ before.Nodup ∧ ∀ i ∈ before, i ∉ seen := by
  induction shards generalizing seen with
  | nil => simp [firstRepeated?]
  | cons i rest ih =>
      rw [split_cons]
      by_cases hi : i ∈ seen
      · rw [firstRepeated?, if_pos hi]
        constructor
        · rintro ⟨⟩
          exact .inl ⟨rfl, .inl hi, List.nodup_nil, List.forall_mem_nil _⟩
        · rintro (⟨rfl, -⟩ | ⟨before, -, -, -, -, hfresh⟩)
          · rfl
          · exact absurd hi (hfresh i List.mem_cons_self)
      · -- What is fresh behind `i` is apart from it, and what repeats may be `i` itself.
        have hahead : ∀ before : List UInt32,
            ((s ∈ i :: seen ∨ s ∈ before) ∧ before.Nodup ∧ ∀ j ∈ before, j ∉ i :: seen) ↔
              (s ∈ seen ∨ s ∈ i :: before) ∧ (i :: before).Nodup
                ∧ ∀ j ∈ i :: before, j ∉ seen := by
          intro before
          grind
        have hfirst : ¬ (i = s ∧ (s ∈ seen ∨ s ∈ []) ∧ ([] : List UInt32).Nodup
            ∧ ∀ j ∈ ([] : List UInt32), j ∉ seen) := by
          rintro ⟨rfl, hs, -⟩
          exact hi (hs.resolve_right List.not_mem_nil)
        rw [firstRepeated?, if_neg hi, ih, or_iff_right hfirst]
        simp only [hahead]

theorem firstRepeated?_nil_eq_some {s : UInt32} :
    firstRepeated? [] shards = some s ↔ FirstRepeated shards s := by
  simp [firstRepeated?_eq_some, FirstRepeated]

theorem FirstRepeated.not_nodup {s : UInt32} (h : FirstRepeated shards s) : ¬ shards.Nodup := by
  obtain ⟨before, after, rfl, hmem, -⟩ := h
  intro hnodup
  exact (List.nodup_append.mp hnodup).2.2 s hmem s List.mem_cons_self rfl

/-! ## The comparison with the total -/

theorem assign_eq_error {e : ShardError} :
    assign total shards = .error e ↔ ∃ s, FirstBeyond total shards s ∧ e = .outOfRange s total := by
  induction shards with
  | nil => simp [assign, FirstBeyond]
  | cons i rest ih =>
      by_cases hi : i < total
      · obtain ⟨a, ha⟩ := ShardAssignment.exists_ofPair.mpr hi
        have hrest : assign total (i :: rest) = .error e ↔ assign total rest = .error e := by
          rw [assign, ha]
          cases assign total rest <;> simp [Except.map]
        have hfirst : ∀ s, FirstBeyond total (i :: rest) s ↔ FirstBeyond total rest s := by
          intro s
          rw [FirstBeyond, split_cons, or_iff_right]
          · simp [FirstBeyond, hi]
          · rintro ⟨rfl, hs, -⟩
            exact UInt32.not_lt.mpr hs hi
        rw [hrest, ih]
        simp only [hfirst]
      · have hrefused : assign total (i :: rest) = .error (.outOfRange i total) := by
          cases ha : ShardAssignment.ofPair i total with
          | ok a => exact absurd (ShardAssignment.exists_ofPair.mp ⟨a, ha⟩) hi
          | error cause => rw [assign, ha]
        have hfirst : ∀ s, FirstBeyond total (i :: rest) s ↔ i = s := by
          intro s
          rw [FirstBeyond, split_cons]
          constructor
          · rintro (⟨rfl, -⟩ | ⟨before, -, -, -, hbefore⟩)
            · rfl
            · exact absurd (hbefore i List.mem_cons_self) hi
          · rintro rfl
            exact .inl ⟨rfl, UInt32.not_lt.mp hi, List.forall_mem_nil _⟩
        rw [hrefused]
        simp [hfirst, eq_comm]

/-! ## Both -/

theorem validate_eq_duplicate {s : UInt32} :
    validate total shards = .error (.duplicate s) ↔ FirstRepeated shards s := by
  rw [← firstRepeated?_nil_eq_some, validate]
  cases firstRepeated? [] shards with
  | some s' => simp
  | none => simp [assign_eq_error]

theorem validate_eq_outOfRange {s t : UInt32} :
    validate total shards = .error (.outOfRange s t) ↔
      shards.Nodup ∧ FirstBeyond total shards s ∧ t = total := by
  rw [validate]
  cases hrepeated : firstRepeated? [] shards with
  | some s' => simp [(firstRepeated?_nil_eq_some.mp hrepeated).not_nodup]
  | none =>
      simp only [(firstRepeated?_eq_none.mp hrepeated).1, true_and, assign_eq_error]
      constructor
      · rintro ⟨s', hs', heq⟩
        cases heq
        exact ⟨hs', rfl⟩
      · rintro ⟨hs, rfl⟩
        exact ⟨s, hs, rfl⟩

/-- What the validation of a batch comes to. -/
structure Judged (total : UInt32) (shards : List UInt32)
    (r : Except ShardError (List ShardAssignment)) : Prop where
  /-- A repetition is named whether or not an index is beyond the total. -/
  duplicate : ∀ s, r = .error (.duplicate s) ↔ FirstRepeated shards s
  repeats : (∃ s, r = .error (.duplicate s)) ↔ ¬ shards.Nodup
  outOfRange : ∀ s t,
    r = .error (.outOfRange s t) ↔ shards.Nodup ∧ FirstBeyond total shards s ∧ t = total
  exceeds : (∃ s t, r = .error (.outOfRange s t)) ↔ shards.Nodup ∧ ∃ s ∈ shards, total ≤ s
  accepted : ∀ as, r = .ok as ↔
    shards.Nodup ∧ (∀ s ∈ shards, s < total)
      ∧ as.map (fun a => (a.index, a.total)) = shards.map fun s => (s, total)
  /-- There is no other outcome. -/
  only : (∃ as, r = .ok as) ∨ (∃ s, r = .error (.duplicate s))
    ∨ ∃ s, r = .error (.outOfRange s total)

theorem map_pair_eq {as : List ShardAssignment} :
    as.map (fun a => (a.index, a.total)) = shards.map (fun s => (s, total)) ↔
      as.map (·.index) = shards ∧ ∀ a ∈ as, a.total = total := by
  induction as generalizing shards with
  | nil => cases shards <;> simp
  | cons a rest ih =>
      cases shards with
      | nil => simp
      | cons s shards =>
          simp only [List.map_cons, List.cons.injEq, Prod.mk.injEq, ih, List.forall_mem_cons]
          exact and_and_and_comm

theorem validate_only :
    (∃ as, validate total shards = .ok as) ∨ (∃ s, validate total shards = .error (.duplicate s))
      ∨ ∃ s, validate total shards = .error (.outOfRange s total) := by
  rw [validate]
  cases firstRepeated? [] shards with
  | some s => exact .inr (.inl ⟨s, rfl⟩)
  | none =>
      dsimp only
      cases hassign : assign total shards with
      | ok as => exact .inl ⟨as, rfl⟩
      | error e =>
          obtain ⟨s, -, rfl⟩ := assign_eq_error.mp hassign
          exact .inr (.inr ⟨s, rfl⟩)

/-- **A batch is refused for its first repeated index, or else for its first index beyond the
total.** If the batch repeats an index, the one named is the first, from left to right, that an
earlier one equals, whatever the total; without a repetition it is the first that is not below the
total, which is named with it; and otherwise the batch gives its assignments in order. There is no
other outcome. -/
theorem validate_judges (total : UInt32) (shards : List UInt32) :
    Judged total shards (validate total shards) where
  duplicate _ := validate_eq_duplicate
  repeats := by
    constructor
    · rintro ⟨s, hs⟩
      exact (validate_eq_duplicate.mp hs).not_nodup
    · intro hrepeats
      rw [validate]
      cases hrepeated : firstRepeated? [] shards with
      | some s => exact ⟨s, rfl⟩
      | none => exact absurd (firstRepeated?_eq_none.mp hrepeated).1 hrepeats
  outOfRange _ _ := validate_eq_outOfRange
  exceeds := by
    constructor
    · rintro ⟨s, t, hs⟩
      obtain ⟨hnodup, ⟨before, after, rfl, hle, -⟩, -⟩ := validate_eq_outOfRange.mp hs
      exact ⟨hnodup, s, List.mem_append_right before List.mem_cons_self, hle⟩
    · rintro ⟨hnodup, s, hs, hle⟩
      rcases @validate_only total shards with ⟨as, has⟩ | ⟨s', hs'⟩ | ⟨s', hs'⟩
      · exact absurd ((exists_validate.mp ⟨as, has⟩).2 s hs) (UInt32.not_lt.mpr hle)
      · exact absurd hnodup (validate_eq_duplicate.mp hs').not_nodup
      · exact ⟨s', total, hs'⟩
  accepted as := by
    rw [map_pair_eq, validate_eq_ok]
    constructor
    · rintro ⟨hnodup, hindices, htotals⟩
      exact ⟨hnodup, exists_assign.mp ⟨as, assign_eq_ok.mpr ⟨hindices, htotals⟩⟩, hindices, htotals⟩
    · rintro ⟨hnodup, -, hindices, htotals⟩
      exact ⟨hnodup, hindices, htotals⟩
  only := validate_only

/-- The index repeats and is beyond the total, and a later one repeats too. -/
example : validate 3 [5, 7, 1, 7, 5] = .error (.duplicate 7) := rfl

end Batch

end GatewayClient
