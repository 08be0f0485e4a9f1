import GatewayClient.Proofs.Settings.Objects

/-!
# Merging key by key

A merge builds its object by writing into the one it lays over: it visits the entries of the source
one after the other, takes out what is there under the key, merges, and puts the outcome back. What
it comes to is told here without a loop, for each key by itself (`KeyByKey`).

In which order an object of the source is visited is left open by a merge that is told as a relation
(`Merges`), with another order for every object. It comes to one value only, the one of `merge`
(`Merges.eq_merge`). The reason is at one level (`mergeEntries_perm`): two visits leave the same
values, and ordered entries with the same values are the same. So the induction over all levels has
to keep that the entries are ordered at all depths (`merges_and_visits`).
-/

namespace GatewayClient.Json

variable {entries target source visited merged : List (String × Json)} {key query : String}
  {value below : Json}

/-! ## Merging in any order -/

mutual

/-- What a merge can come to if the keys of every object of the source are visited in an order of
their own. -/
inductive Merges : Json → Json → Json → Prop
  | objects {target source visited merged : List (String × Json)} : visited.Perm source →
      Visits target visited merged → Merges (.obj target) (.obj source) (.obj merged)
  | replaced {target source : Json} : (∀ below above, target = .obj below → source ≠ .obj above) →
      Merges target source source

/-- Visits entries one after the other. What the target has under a key is taken out of it, and what
comes of it is put back. -/
inductive Visits :
    List (String × Json) → List (String × Json) → List (String × Json) → Prop
  | done {target : List (String × Json)} : Visits target [] target
  | unset {target rest merged : List (String × Json)} {key : String} : Visits target rest merged →
      Visits target ((key, .null) :: rest) merged
  | fresh {target rest merged : List (String × Json)} {key : String} {value : Json} :
      value ≠ .null → lookup key target = none →
      Visits (insertEntry key value target) rest merged →
      Visits target ((key, value) :: rest) merged
  | over {target rest merged : List (String × Json)} {key : String} {value below above : Json} :
      value ≠ .null → lookup key target = some below → Merges below value above →
      Visits (insertEntry key above (without key target)) rest merged →
      Visits target ((key, value) :: rest) merged

end

/-- Taking the old value out first makes no difference. -/
theorem insertEntry_without (h : Ordered target) :
    insertEntry key value (without key target) = insertEntry key value target := by
  refine h.without.insertEntry.ext h.insertEntry fun query => ?_
  rw [lookup_insertEntry, lookup_insertEntry, lookup_without]
  split <;> rfl

theorem Canonical.reinsert (h : Canonical (.obj target)) (hv : Canonical value) :
    Canonical (.obj (Json.insertEntry key value (without key target))) := by
  rw [insertEntry_without h.ordered]
  exact h.insertEntry hv

theorem lookup_perm (h : (source.map (·.1)).Nodup) (hperm : visited.Perm source) :
    lookup key visited = lookup key source := by
  have hvisited : (visited.map (·.1)).Nodup := (hperm.map (·.1)).nodup_iff.mpr h
  cases hl : lookup key visited with
  | some v => exact (lookup_of_mem h (hperm.mem_iff.mp (mem_of_lookup hl))).symm
  | none =>
    cases hr : lookup key source with
    | none => rfl
    | some v =>
      rw [lookup_of_mem hvisited (hperm.mem_iff.mpr (mem_of_lookup hr))] at hl
      cases hl

theorem mergeEntries_perm (ht : Ordered target) (hs : Ordered source)
    (hperm : visited.Perm source) : mergeEntries target visited = mergeEntries target source := by
  have hvisited : (visited.map (·.1)).Nodup := (hperm.map (·.1)).nodup_iff.mpr hs.keys_nodup
  refine ht.mergeEntries.ext ht.mergeEntries fun query => ?_
  rw [lookup_mergeEntries_of_nodup hvisited, lookup_mergeEntries hs, given,
    lookup_perm hs.keys_nodup hperm, given]

theorem merge_replaced {target source : Json}
    (h : ∀ below above, target = .obj below → source ≠ .obj above) :
    merge target source = source := by
  rw [merge]
  intro below above htarget hsource
  exact h below above htarget hsource

/-- A merge visits the keys in their own order, and what it comes to is ordered at all depths. -/
theorem merges_and_visits :
    (∀ target source, Canonical target → Canonical source →
      Merges target source (merge target source) ∧ Canonical (merge target source))
    ∧ ∀ target source, Canonical (.obj target) → (∀ e ∈ source, Canonical e.2) →
      Visits target source (mergeEntries target source)
        ∧ Canonical (.obj (mergeEntries target source)) := by
  apply merge.mutual_induct
  case case1 =>
    intro target source ih ht hs
    obtain ⟨hvisits, hcanonical⟩ := ih ht hs.each
    rw [merge_obj]
    exact ⟨.objects (.refl source) hvisits, hcanonical⟩
  case case2 =>
    intro target source hnot ht hs
    have hnot' : ∀ below above, target = .obj below → source ≠ .obj above := hnot
    rw [merge_replaced hnot']
    exact ⟨.replaced hnot', hs⟩
  case case3 =>
    intro target ht _
    rw [mergeEntries_nil]
    exact ⟨.done, ht⟩
  case case4 =>
    intro target key rest ih ht hs
    obtain ⟨hvisits, hcanonical⟩ := ih ht (List.forall_mem_cons.mp hs).2
    rw [mergeEntries_null]
    exact ⟨.unset hvisits, hcanonical⟩
  case case5 =>
    intro target key value rest hv merged ihbelow ih ht hs
    obtain ⟨hvalue, hrest⟩ := List.forall_mem_cons.mp hs
    rw [mergeEntries_cons hv]
    cases hl : lookup key target with
    | none =>
      simp only [merged, hl] at ih
      obtain ⟨hvisits, hcanonical⟩ := ih (ht.insertEntry hvalue) hrest
      exact ⟨.fresh hv hl hvisits, hcanonical⟩
    | some below =>
      simp only [merged, hl] at ih
      obtain ⟨hmerges, habove⟩ := ihbelow below (ht.at hl) hvalue
      obtain ⟨hvisits, hcanonical⟩ := ih (ht.insertEntry habove) hrest
      refine ⟨.over hv hl hmerges ?_, hcanonical⟩
      rw [insertEntry_without ht.ordered]
      exact hvisits

mutual

theorem Merges.eq_merge : ∀ {target source r : Json}, Merges target source r →
    Canonical target → Canonical source → r = merge target source
  | _, _, _, .objects hperm hvisits, ht, hs => by
    have hmerged := hvisits.eq_mergeEntries ht fun e he => hs.each e (hperm.mem_iff.mp he)
    rw [merge_obj, hmerged, mergeEntries_perm ht.ordered hs.ordered hperm]
  | _, _, _, .replaced hnot, _, _ => (merge_replaced hnot).symm

theorem Visits.eq_mergeEntries : ∀ {target visited merged : List (String × Json)},
    Visits target visited merged → Canonical (.obj target) → (∀ e ∈ visited, Canonical e.2) →
    merged = mergeEntries target visited
  | _, _, _, .done, _, _ => mergeEntries_nil.symm
  | _, _, _, .unset hrest, ht, hvisited => by
    rw [mergeEntries_null]
    exact hrest.eq_mergeEntries ht (List.forall_mem_cons.mp hvisited).2
  | _, _, _, .fresh hv hl hrest, ht, hvisited => by
    obtain ⟨hvalue, hvisited⟩ := List.forall_mem_cons.mp hvisited
    rw [mergeEntries_cons hv, hl]
    exact hrest.eq_mergeEntries (ht.insertEntry hvalue) hvisited
  | _, _, _, .over hv hl hmerges hrest, ht, hvisited => by
    obtain ⟨hvalue, hvisited⟩ := List.forall_mem_cons.mp hvisited
    have habove := hmerges.eq_merge (ht.at hl) hvalue
    have hcanonical := (merges_and_visits.1 _ _ (ht.at hl) hvalue).2
    rw [← habove] at hcanonical
    rw [hrest.eq_mergeEntries (ht.reinsert hcanonical) hvisited,
      insertEntry_without ht.ordered, mergeEntries_cons hv, hl, habove]
    rfl

end

/-! ## Key by key -/

theorem exists_lookup : (∃ value, lookup key entries = some value) ↔ key ∈ entries.map (·.1) := by
  constructor
  · rintro ⟨value, hl⟩
    exact List.mem_map_of_mem (mem_of_lookup hl)
  · intro hkey
    cases hl : lookup key entries with
    | some value => exact ⟨value, rfl⟩
    | none =>
      induction entries with
      | nil => cases hkey
      | cons e rest ih =>
        obtain ⟨k, v⟩ := e
        rw [lookup_cons] at hl
        split at hl
        · cases hl
        · next hne =>
          exact ih ((List.mem_cons.mp hkey).resolve_left fun h => hne h.symm) hl

/-- What an object over an object comes to, told for each key. -/
structure KeyByKey (target source merged : List (String × Json)) : Prop where
  /-- No key occurs twice, at any depth. -/
  canonical : Canonical (.obj merged)
  keys : ∀ key, key ∈ merged.map (·.1) ↔
    key ∈ target.map (·.1) ∨ ∃ value, lookup key source = some value ∧ value ≠ .null
  kept : ∀ key, lookup key source = none ∨ lookup key source = some .null →
    lookup key merged = lookup key target
  taken : ∀ key value, lookup key target = none → lookup key source = some value →
    value ≠ .null → lookup key merged = some value
  laid : ∀ key below value, lookup key target = some below → lookup key source = some value →
    value ≠ .null → lookup key merged = some (merge below value)

theorem mergeEntries_keyByKey (ht : Canonical (.obj target)) (hs : Canonical (.obj source)) :
    KeyByKey target source (mergeEntries target source) := by
  have hlookup := fun key => @lookup_mergeEntries target source key hs.ordered
  constructor
  case canonical => exact (merges_and_visits.2 target source ht hs.each).2
  case keys =>
    intro key
    rw [← exists_lookup, ← exists_lookup, hlookup]
    cases hgiven : given key source with
    | none =>
      refine (or_iff_left ?_).symm
      rintro ⟨value, hl, hv⟩
      rw [given_eq hl hv] at hgiven
      cases hgiven
    | some value => exact iff_of_true ⟨_, rfl⟩ (.inr ⟨value, given_eq_some hgiven⟩)
  case kept =>
    intro key hunset
    rw [hlookup, hunset.elim given_eq_none given_null]
    rfl
  case taken =>
    intro key value hbelow hl hv
    rw [hlookup, given_eq hl hv, hbelow]
    rfl
  case laid =>
    intro key below value hbelow hl hv
    rw [hlookup, given_eq hl hv, hbelow]
    rfl

/-- **Objects are merged key by key.** An object over an object comes to an object. Its keys are
those of the target and those under which the source has more than `null`; under a key for which the
source has nothing or `null` it has what the target has; under one that is new it has the value of
the source, and under any other the value of the source over that of the target. All this does not
depend on the order in which the keys of the source are visited, at any depth. -/
theorem merge_key_by_key (ht : Canonical (.obj target)) (hs : Canonical (.obj source)) :
    ∃ merged, merge (.obj target) (.obj source) = .obj merged ∧ KeyByKey target source merged
      ∧ ∀ r, Merges (.obj target) (.obj source) r ↔ r = .obj merged := by
  refine ⟨mergeEntries target source, merge_obj _ _, mergeEntries_keyByKey ht hs, fun r => ?_⟩
  rw [← merge_obj]
  constructor
  · intro hmerges
    exact hmerges.eq_merge ht hs
  · rintro rfl
    exact (merges_and_visits.1 _ _ ht hs).1

/-- A layer with a section and a key beside it. -/
def lowerEntries : List (String × Json) :=
  [("a", .obj [("x", .ofInt 1), ("y", .null)]), ("b", .ofInt 2)]

/-- It unsets a key of the section and the key beside it, and adds to both. -/
def upperEntries : List (String × Json) :=
  [("a", .obj [("x", .null), ("z", .ofInt 3)]), ("b", .null), ("c", .obj [("d", .null)])]

theorem merge_key_by_key_sections :
    Canonical (.obj lowerEntries) ∧ Canonical (.obj upperEntries)
      ∧ ∃ merged, merge (.obj lowerEntries) (.obj upperEntries) = .obj merged
        ∧ lookup "a" merged = some (.obj [("x", .ofInt 1), ("y", .null), ("z", .ofInt 3)])
        ∧ lookup "b" merged = some (.ofInt 2)
        ∧ lookup "c" merged = some (.obj [("d", .null)]) := by
  have hlower : Canonical (.obj lowerEntries) := by
    refine .obj (.of_keys (by decide)) ?_
    simp only [lowerEntries, List.forall_mem_cons]
    refine ⟨.obj (.of_keys (by decide)) ?_, .num _, nofun⟩
    simp only [List.forall_mem_cons]
    exact ⟨.num _, .null, nofun⟩
  have hupper : Canonical (.obj upperEntries) := by
    refine .obj (.of_keys (by decide)) ?_
    simp only [upperEntries, List.forall_mem_cons]
    refine ⟨.obj (.of_keys (by decide)) ?_, .null, .obj (.of_keys (by decide)) ?_, nofun⟩
    · simp only [List.forall_mem_cons]
      exact ⟨.null, .num _, nofun⟩
    · simp only [List.forall_mem_cons]
      exact ⟨.null, nofun⟩
  obtain ⟨merged, hmerged, hkeys, -⟩ := merge_key_by_key hlower hupper
  refine ⟨hlower, hupper, merged, hmerged, ?_, ?_, ?_⟩
  · exact hkeys.laid "a" _ _ rfl rfl nofun
  · exact hkeys.kept "b" (.inr rfl)
  · exact hkeys.taken "c" _ rfl rfl nofun

end GatewayClient.Json
