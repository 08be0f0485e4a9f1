import GatewayClient.Json.Merge
import GatewayClient.Json.Reader

/-!
# Objects as maps

An object is the list of its entries, and what a decoder or a merge does with it should depend on
the values under its keys only. That is so for entries in strictly increasing order of their keys,
which two such lists with the same values have in common (`Ordered.ext`). `insertEntry` and with it
`merge` keep the order, and every value that is read from a text is ordered at all depths
(`parse_canonical`).

The value under a key after a merge is told by `lookup_mergeEntries_of_nodup`. An entry `null` of
the source counts as none, which is what `given` reads.
-/

namespace GatewayClient.Json

variable {entries target source : List (String × Json)} {key query : String} {value : Json}

/-- The keys stand in strictly increasing order. -/
def Ordered (entries : List (String × Json)) : Prop :=
  entries.Pairwise fun a b => a.1 < b.1

theorem Ordered.of_keys (h : (entries.map (·.1)).Pairwise (· < ·)) : Ordered entries :=
  List.pairwise_map.mp h

theorem lookup_cons :
    lookup query ((key, value) :: entries) =
      if key = query then some value else lookup query entries :=
  rfl

/-! ## Taking out an entry and writing one -/

/-- The entries without the one of a key. -/
def without (key : String) (entries : List (String × Json)) : List (String × Json) :=
  entries.filter fun e => e.1 ≠ key

theorem lookup_without :
    lookup query (without key entries) = if key = query then none else lookup query entries := by
  induction entries with
  | nil => simp [without, lookup]
  | cons e rest ih =>
    obtain ⟨k, v⟩ := e
    unfold without at ih ⊢
    by_cases hk : k = key
    · subst hk
      rw [List.filter_cons_of_neg (by simp), ih, lookup_cons]
      split <;> rfl
    · rw [List.filter_cons_of_pos (by simpa using hk), lookup_cons, ih, lookup_cons]
      by_cases hq : k = query
      · subst hq
        simp [Ne.symm hk]
      · simp [hq]

theorem Ordered.without (h : Ordered entries) : Ordered (without key entries) :=
  List.Pairwise.filter _ h

theorem lookup_insertEntry :
    lookup query (insertEntry key value entries) =
      if key = query then some value else lookup query entries := by
  induction entries with
  | nil => rfl
  | cons e rest ih =>
    obtain ⟨k, v⟩ := e
    simp only [insertEntry]
    split
    · rfl
    · split
      · rename_i hk
        subst hk
        by_cases hq : key = query <;> simp [lookup, hq]
      · rename_i hk
        by_cases hq : k = query
        · subst hq
          simp [lookup, hk]
        · simp [lookup, hq, ih]

theorem mem_insertEntry {e : String × Json} (h : e ∈ insertEntry key value entries) :
    e = (key, value) ∨ e ∈ entries := by
  induction entries with
  | nil =>
    simp only [insertEntry, List.mem_singleton] at h
    exact .inl h
  | cons a rest ih =>
    simp only [insertEntry] at h
    split at h
    · exact List.mem_cons.mp h
    · split at h
      · exact (List.mem_cons.mp h).imp_right (List.mem_cons_of_mem _)
      · rcases List.mem_cons.mp h with rfl | h
        · exact .inr List.mem_cons_self
        · exact (ih h).imp_right (List.mem_cons_of_mem _)

theorem Ordered.insertEntry (h : Ordered entries) :
    Ordered (insertEntry key value entries) := by
  induction entries with
  | nil => exact List.pairwise_singleton _ _
  | cons e rest ih =>
    obtain ⟨k, v⟩ := e
    obtain ⟨hk, hrest⟩ := List.pairwise_cons.mp h
    simp only [Json.insertEntry]
    split
    · rename_i hlt
      refine List.pairwise_cons.mpr ⟨fun e he => ?_, h⟩
      rcases List.mem_cons.mp he with rfl | he
      · exact hlt
      · exact String.lt_trans hlt (hk e he)
    · rename_i hlt
      split
      · rename_i heq
        subst heq
        exact List.pairwise_cons.mpr ⟨hk, hrest⟩
      · rename_i hne
        refine List.pairwise_cons.mpr ⟨fun e he => ?_, ih hrest⟩
        rcases mem_insertEntry he with rfl | he
        · show k < key
          grind
        · exact hk e he

/-! ## Ordered entries are determined by their values -/

theorem mem_of_lookup (h : lookup key entries = some value) : (key, value) ∈ entries := by
  induction entries with
  | nil => simp [lookup] at h
  | cons e rest ih =>
    obtain ⟨k, v⟩ := e
    simp only [lookup] at h
    split at h
    · rename_i hk
      subst hk
      cases h
      exact List.mem_cons_self
    · exact List.mem_cons_of_mem _ (ih h)

/-- No entry stands under a key that is smaller than all keys. -/
theorem lookup_below (h : ∀ e ∈ entries, key < e.1) : lookup key entries = none := by
  cases hl : lookup key entries with
  | none => rfl
  | some v => exact absurd (h _ (mem_of_lookup hl)) (String.lt_irrefl key)

theorem lookup_eq_none (h : key ∉ entries.map (·.1)) : lookup key entries = none := by
  cases hl : lookup key entries with
  | none => rfl
  | some v => exact absurd (List.mem_map_of_mem (mem_of_lookup hl)) h

/-- If the keys are apart, an entry is the one of its key wherever it stands. -/
theorem lookup_of_mem (h : (entries.map (·.1)).Nodup) (hm : (key, value) ∈ entries) :
    lookup key entries = some value := by
  induction entries with
  | nil => cases hm
  | cons e rest ih =>
    obtain ⟨k, v⟩ := e
    obtain ⟨hk, hrest⟩ := List.nodup_cons.mp h
    rcases List.mem_cons.mp hm with he | hm
    · cases he
      simp [lookup]
    · have hne : k ≠ key := by
        rintro rfl
        exact hk (List.mem_map.mpr ⟨_, hm, rfl⟩)
      simp [lookup, hne, ih hrest hm]

theorem Ordered.keys_nodup (h : Ordered entries) : (entries.map (·.1)).Nodup :=
  (List.pairwise_map.mpr h).imp fun hlt => String.ne_of_lt hlt

theorem Ordered.lookup_eq (h : Ordered entries) (hm : (key, value) ∈ entries) :
    lookup key entries = some value :=
  lookup_of_mem h.keys_nodup hm

theorem Ordered.nodup (h : Ordered entries) : entries.Nodup := by
  refine List.Pairwise.imp ?_ h
  rintro a b hlt rfl
  exact String.lt_irrefl _ hlt

/-- Ordered entries with the same values are the same. -/
theorem Ordered.ext {as bs : List (String × Json)} (ha : Ordered as) (hb : Ordered bs)
    (h : ∀ key, lookup key as = lookup key bs) : as = bs := by
  have hmem : ∀ e, e ∈ as ↔ e ∈ bs := by
    intro e
    constructor
    · intro he
      exact mem_of_lookup ((h e.1).symm.trans (ha.lookup_eq he))
    · intro he
      exact mem_of_lookup ((h e.1).trans (hb.lookup_eq he))
  have hperm := (List.perm_ext_iff_of_nodup ha.nodup hb.nodup).mpr hmem
  exact hperm.eq_of_pairwise (fun _ _ _ _ hab hba => absurd hba (String.lt_asymm hab)) ha hb

/-! ## Merging -/

/-- The value that an object gives for a key. `null` gives none. -/
def given (key : String) (entries : List (String × Json)) : Option Json :=
  (lookup key entries).filter fun v => !v.isNull

/-- A value laid over what was there under its key. -/
def overlay (below : Option Json) (value : Json) : Json :=
  below.elim value fun b => merge b value

/-- What is no object is replaced. -/
theorem overlay_plain {below : Option Json} (h : ∀ sub, below ≠ some (.obj sub)) :
    overlay below value = value := by
  cases below with
  | none => rfl
  | some b =>
    show merge b value = value
    cases b with
    | obj sub => exact absurd rfl (h sub)
    | _ => simp only [merge]

theorem overlay_obj {below value : List (String × Json)} :
    overlay (some (.obj below)) (.obj value) = .obj (mergeEntries below value) := by
  simp only [overlay, Option.elim_some, merge]

theorem isNull_eq_false : value.isNull = false ↔ value ≠ .null := by
  cases value <;> simp [isNull]

theorem given_cons_ne (h : key ≠ query) :
    given query ((key, value) :: entries) = given query entries := by
  simp [given, lookup_cons, h]

theorem given_eq (h : lookup key entries = some value) (hv : value ≠ .null) :
    given key entries = some value := by
  simp [given, h, isNull_eq_false.mpr hv]

theorem given_null (h : lookup key entries = some .null) : given key entries = none := by
  simp [given, h, isNull]

theorem given_eq_none (h : lookup key entries = none) : given key entries = none := by
  simp [given, h]

theorem given_eq_some (h : given key entries = some value) :
    lookup key entries = some value ∧ value ≠ .null := by
  obtain ⟨hl, hv⟩ := Option.filter_eq_some_iff.mp h
  exact ⟨hl, isNull_eq_false.mp (by simpa using hv)⟩

theorem merge_obj (target source : List (String × Json)) :
    merge (.obj target) (.obj source) = .obj (mergeEntries target source) := by
  simp only [merge]

theorem mergeEntries_nil : mergeEntries target [] = target := by
  simp only [mergeEntries]

theorem mergeEntries_null :
    mergeEntries target ((key, .null) :: source) = mergeEntries target source := by
  simp only [mergeEntries]

theorem mergeEntries_cons (h : value ≠ .null) :
    mergeEntries target ((key, value) :: source) =
      mergeEntries (insertEntry key (overlay (lookup key target) value) target) source := by
  rw [mergeEntries]
  · cases lookup key target <;> rfl
  · exact h

theorem Ordered.mergeEntries (h : Ordered target) : Ordered (mergeEntries target source) := by
  induction source generalizing target with
  | nil => rwa [mergeEntries_nil]
  | cons e rest ih =>
    obtain ⟨k, v⟩ := e
    by_cases hv : v = .null
    · subst hv
      rw [mergeEntries_null]
      exact ih h
    · rw [mergeEntries_cons hv]
      exact ih h.insertEntry

/-- The value under a key after a merge: the one of the source, laid over the one of the target, if
the source gives one, else the one of the target. It does not matter where the entries of the source
stand, as long as their keys are apart. -/
theorem lookup_mergeEntries_of_nodup (h : (source.map (·.1)).Nodup) :
    lookup query (mergeEntries target source) =
      (given query source).elim (lookup query target)
        fun v => some (overlay (lookup query target) v) := by
  induction source generalizing target with
  | nil => rw [mergeEntries_nil]; rfl
  | cons e rest ih =>
    obtain ⟨k, v⟩ := e
    obtain ⟨hk, hrest⟩ := List.nodup_cons.mp h
    by_cases hv : v = .null
    · subst hv
      rw [mergeEntries_null, ih hrest]
      by_cases hq : k = query
      · subst hq
        rw [given_eq_none (lookup_eq_none hk), given_null (by simp [lookup_cons])]
      · rw [given_cons_ne hq]
    · rw [mergeEntries_cons hv, ih hrest, lookup_insertEntry]
      by_cases hq : k = query
      · subst hq
        rw [given_eq_none (lookup_eq_none hk), given_eq (by simp [lookup_cons]) hv]
        simp
      · rw [given_cons_ne hq, if_neg hq]

theorem lookup_mergeEntries (h : Ordered source) :
    lookup query (mergeEntries target source) =
      (given query source).elim (lookup query target)
        fun v => some (overlay (lookup query target) v) :=
  lookup_mergeEntries_of_nodup h.keys_nodup

/-- An object merged over one with some of its keys comes out as it is, if each of its values
does. -/
theorem mergeEntries_self (ht : Ordered target) (hs : Ordered source)
    (hnull : ∀ e ∈ source, e.2 ≠ .null)
    (hsub : ∀ e ∈ target, ∃ v, lookup e.1 source = some v ∧ merge e.2 v = v) :
    mergeEntries target source = source := by
  refine ht.mergeEntries.ext hs fun query => ?_
  have hgiven : given query source = lookup query source := by
    cases hl : lookup query source with
    | none => exact given_eq_none hl
    | some v => exact given_eq hl (hnull _ (mem_of_lookup hl))
  rw [lookup_mergeEntries hs, hgiven]
  cases hl : lookup query target with
  | none => cases lookup query source <;> rfl
  | some below =>
    obtain ⟨v, hv, hmerge⟩ := hsub _ (mem_of_lookup hl)
    simp [hv, overlay, hmerge]

/-! ## Values that are read from a text -/

/-- The entries of each object within a value are ordered. -/
inductive Canonical : Json → Prop
  | null : Canonical .null
  | bool (b : Bool) : Canonical (.bool b)
  | num (n : Number) : Canonical (.num n)
  | str (s : String) : Canonical (.str s)
  | arr {items : List Json} (each : ∀ v ∈ items, Canonical v) : Canonical (.arr items)
  | obj {entries : List (String × Json)} (order : Ordered entries)
      (each : ∀ e ∈ entries, Canonical e.2) : Canonical (.obj entries)

theorem Canonical.ordered (h : Canonical (.obj entries)) : Ordered entries := by
  cases h with
  | obj order each => exact order

theorem Canonical.each (h : Canonical (.obj entries)) : ∀ e ∈ entries, Canonical e.2 := by
  cases h with
  | obj order each => exact each

theorem Canonical.at (h : Canonical (.obj entries)) (hl : lookup key entries = some value) :
    Canonical value :=
  h.each _ (mem_of_lookup hl)

theorem Canonical.insertEntry (h : Canonical (.obj entries)) (hv : Canonical value) :
    Canonical (.obj (insertEntry key value entries)) := by
  refine .obj h.ordered.insertEntry fun e he => ?_
  rcases mem_insertEntry he with rfl | he
  · exact hv
  · exact h.each e he

theorem ofEntries_canonical (h : ∀ e ∈ entries, Canonical e.2) :
    Canonical (ofEntries entries) := by
  have go : ∀ (es o : List (String × Json)), Canonical (.obj o) → (∀ e ∈ es, Canonical e.2) →
      Canonical (.obj (es.foldl (fun o e => Json.insertEntry e.1 e.2 o) o)) := by
    intro es
    induction es with
    | nil =>
      intro o ho _
      exact ho
    | cons e rest ih =>
      intro o ho hes
      exact ih _ (ho.insertEntry (hes e List.mem_cons_self))
        fun a ha => hes a (List.mem_cons_of_mem _ ha)
  exact go entries [] (.obj List.Pairwise.nil (List.forall_mem_nil _)) h

/-- Every member of a container was read by the reader of its members. -/
theorem mem_members {α : Type} {close : Char} {member : List Char → Reading α} {fuel : Nat}
    {first : Bool} {cs rest : List Char} {ms : List α}
    (h : members close member fuel first cs = .ok (ms, rest)) :
    ∀ m ∈ ms, ∃ cs' rest', member cs' = .ok (m, rest') := by
  induction fuel generalizing first cs rest ms with
  | zero => simp [members] at h
  | succ fuel ih =>
    simp only [members] at h
    split at h
    · cases h
    · split at h
      · cases h
        exact List.forall_mem_nil _
      · split at h
        · split at h
          · cases h
          · rename_i hm
            split at h
            · cases h
            · rename_i hms
              cases h
              exact List.forall_mem_cons.mpr ⟨⟨_, _, hm⟩, ih hms⟩
        · split at h
          · split at h
            · cases h
            · split at h
              · cases h
              · split at h
                · cases h
                · rename_i hm
                  split at h
                  · cases h
                  · rename_i hms
                    cases h
                    exact List.forall_mem_cons.mpr ⟨⟨_, _, hm⟩, ih hms⟩
          · cases h

theorem word_canonical {letters cs rest : List Char} {v w : Json} (hv : Canonical v)
    (h : word v letters cs = .ok (w, rest)) : Canonical w := by
  induction letters generalizing cs with
  | nil =>
    simp only [word] at h
    cases h
    exact hv
  | cons c letters ih =>
    cases cs with
    | nil => simp [word] at h
    | cons d cs =>
      simp only [word] at h
      split at h
      · exact ih h
      · cases h

/-- What is read by a reader that wraps the result of another one. -/
theorem map_reading {α β : Type} {r : Reading α} {f : α → β} {b : β} {rest : List Char}
    (h : (r.map fun p => (f p.1, p.2)) = .ok (b, rest)) :
    ∃ a, r = .ok (a, rest) ∧ f a = b := by
  cases r with
  | error e => cases h
  | ok p =>
    cases h
    exact ⟨p.1, rfl, rfl⟩

theorem mem_entry {read : List Char → Reading Json} {cs rest : List Char} {e : String × Json}
    (h : entry read cs = .ok (e, rest)) : ∃ cs', read cs' = .ok (e.2, rest) := by
  unfold entry at h
  split at h
  · split at h
    · cases h
    · split at h
      · cases h
      · obtain ⟨v, hv, rfl⟩ := map_reading h
        exact ⟨_, hv⟩
      · cases h
  · cases h

/-- Scalars have no entries; the members of a container are read one level deeper. -/
theorem readValue_step {depth : Nat}
    (deeper : ∀ d, depth = d + 1 → ∀ {cs rest v}, readValue d cs = .ok (v, rest) → Canonical v)
    {cs rest : List Char} {v : Json} (h : readValue depth cs = .ok (v, rest)) :
    Canonical v := by
  unfold readValue at h
  split at h
  · cases h
  · exact word_canonical .null h
  · exact word_canonical (.bool true) h
  · exact word_canonical (.bool false) h
  · obtain ⟨s, -, rfl⟩ := map_reading h
    exact .str s
  · obtain ⟨n, -, rfl⟩ := map_reading h
    exact .num n
  · split at h
    · cases h
    · rename_i d
      obtain ⟨items, hitems, rfl⟩ := map_reading h
      refine .arr fun v hv => ?_
      obtain ⟨_, _, hread⟩ := mem_members hitems v hv
      exact deeper d rfl hread
  · split at h
    · cases h
    · rename_i d
      obtain ⟨entries, hentries, rfl⟩ := map_reading h
      refine ofEntries_canonical fun e he => ?_
      obtain ⟨_, _, hread⟩ := mem_members hentries e he
      obtain ⟨_, hvalue⟩ := mem_entry hread
      exact deeper d rfl hvalue
  · split at h
    · obtain ⟨n, -, rfl⟩ := map_reading h
      exact .num n
    · cases h

theorem readValue_canonical {depth : Nat} {cs rest : List Char} {v : Json}
    (h : readValue depth cs = .ok (v, rest)) : Canonical v := by
  induction depth generalizing cs rest v with
  | zero => exact readValue_step (fun d hd => by omega) h
  | succ depth ih =>
    refine readValue_step (fun d hd => ?_) h
    obtain rfl := Nat.succ.inj hd
    exact ih

/-- The entries of every object in a text that parses are ordered, and no key occurs twice. -/
theorem parse_canonical {text : String} {v : Json} (h : parse text = .ok v) : Canonical v := by
  unfold parse at h
  split at h
  · cases h
  · rename_i hv
    split at h
    · cases h
      exact readValue_canonical hv
    · cases h

/-- A text given by its characters. -/
theorem parse_ofList {cs : List Char} {v : Json}
    (h : readValue 127 cs = .ok (v, [])) : parse (String.ofList cs) = .ok v := by
  simp only [parse, String.toList_ofList, h, skipBlanks]

end GatewayClient.Json
