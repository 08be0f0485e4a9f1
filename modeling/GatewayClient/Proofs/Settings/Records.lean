import GatewayClient.Proofs.Settings.Objects
import GatewayClient.Json.Decode

/-!
# Decoding records

A record is decoded by writing one entry after the other into it. `Reads` says of a reading of the
record that one field writes it and the others leave it alone; from the order of the entries
follows that the reading of the result is the decoded value under the field's name, or the initial
one where the object has none (`Reads.putEntries`).

Two objects decode alike if what they hold under the names of the fields does (`putEntries_congr`).
Other keys do not count, and no order of the fields is needed: `puts` tells what the entries write,
and it is an ordered list again.
-/

namespace GatewayClient.Json

variable {ρ α : Type} {fields : List (Field ρ)} {entries : List (String × Json)}
  {name : String} {decode : Json → Decoded α} {get : ρ → α} {r r' : ρ}

/-! ## What the fields write -/

@[simp] theorem field_name {write : α → ρ → ρ} : (field name decode write).name = name := rfl

theorem field_put {write : α → ρ → ρ} {v : Json}
    (h : (field name decode write).put v r = .ok r') :
    ∃ a, decode v = .ok a ∧ write a r = r' := by
  simp only [field] at h
  cases hd : decode v with
  | error e =>
    rw [hd] at h
    cases h
  | ok a =>
    rw [hd] at h
    cases h
    exact ⟨a, rfl, rfl⟩

/-- A field that leaves a reading of the record as it is. -/
def Field.Keeps (f : Field ρ) (get : ρ → α) : Prop :=
  ∀ {v r r'}, f.put v r = .ok r' → get r' = get r

theorem keeps_field {β : Type} {decode : Json → Decoded β} {write : β → ρ → ρ}
    (h : ∀ b r, get (write b r) = get r) : (field name decode write).Keeps get := by
  intro v r r' hput
  obtain ⟨b, -, rfl⟩ := field_put hput
  exact h b r

/-- A reading of a record is written by the field of a name, and by no other one. -/
structure Reads (fields : List (Field ρ)) (name : String) (decode : Json → Decoded α)
    (get : ρ → α) : Prop where
  own : ∃ write, fields.find? (·.name = name) = some (field name decode write) ∧
    ∀ a r, get (write a r) = a
  other : ∀ f ∈ fields, f.name ≠ name → f.Keeps get

theorem Reads.put_own (hr : Reads fields name decode get) {f : Field ρ} {v : Json}
    (hf : fields.find? (·.name = name) = some f) (h : f.put v r = .ok r') :
    decode v = .ok (get r') := by
  obtain ⟨write, hown, hget⟩ := hr.own
  obtain rfl := Option.some.inj (hown.symm.trans hf)
  obtain ⟨a, ha, rfl⟩ := field_put h
  rw [ha, hget]

theorem Reads.put_other (hr : Reads fields name decode get) {key : String} {f : Field ρ}
    {v : Json} (hne : key ≠ name) (hf : fields.find? (·.name = key) = some f)
    (h : f.put v r = .ok r') : get r' = get r := by
  have hname : f.name = key := by simpa using List.find?_some hf
  exact hr.other f (List.mem_of_find?_eq_some hf) (hname ▸ hne) h

/-! ## Reading the result -/

theorem putEntries_cons {key : String} {v : Json}
    (h : putEntries fields ((key, v) :: entries) r = .ok r') :
    (fields.find? (·.name = key) = none ∧ putEntries fields entries r = .ok r') ∨
      ∃ f r₁, fields.find? (·.name = key) = some f ∧ f.put v r = .ok r₁ ∧
        putEntries fields entries r₁ = .ok r' := by
  simp only [putEntries] at h
  split at h
  · rename_i f hf
    cases hput : f.put v r with
    | error e =>
      rw [hput] at h
      cases h
    | ok r₁ =>
      rw [hput] at h
      exact .inr ⟨f, r₁, hf, hput, h⟩
  · rename_i hf
    exact .inl ⟨hf, h⟩

theorem putEntries_field {write : α → ρ → ρ} {v : Json} {a : α}
    (hf : fields.find? (·.name = name) = some (field name decode write))
    (hd : decode v = .ok a) :
    putEntries fields ((name, v) :: entries) r = putEntries fields entries (write a r) := by
  simp only [putEntries, hf, field, hd]
  rfl

/-- Entries are put into a record if each of them is that names a field. -/
theorem exists_putEntries
    (h : ∀ e ∈ entries, ∀ f, fields.find? (·.name = e.1) = some f → ∀ r, ∃ r', f.put e.2 r = .ok r')
    (r : ρ) : ∃ r', putEntries fields entries r = .ok r' := by
  induction entries generalizing r with
  | nil => exact ⟨r, rfl⟩
  | cons e rest ih =>
    obtain ⟨key, v⟩ := e
    obtain ⟨hput, hrest⟩ := List.forall_mem_cons.mp h
    simp only [Json.putEntries]
    split
    · next f hf =>
      obtain ⟨r₁, hr₁⟩ := hput f hf r
      rw [hr₁]
      exact ih hrest r₁
    · exact ih hrest r

/-- Entries under other names leave a reading as it is. -/
theorem Reads.unwritten (hr : Reads fields name decode get) (hl : lookup name entries = none)
    (h : putEntries fields entries r = .ok r') : get r' = get r := by
  induction entries generalizing r with
  | nil =>
    cases h
    rfl
  | cons e rest ih =>
    obtain ⟨key, v⟩ := e
    rw [lookup_cons] at hl
    split at hl
    · cases hl
    · rename_i hne
      rcases putEntries_cons h with ⟨-, hrest⟩ | ⟨f, r₁, hf, hput, hrest⟩
      · exact ih hl hrest
      · rw [ih hl hrest, hr.put_other hne hf hput]

/-- The reading of a decoded record is the decoded value under the name of its field, or the
initial reading if there is none. -/
theorem Reads.putEntries (hr : Reads fields name decode get) (ho : Ordered entries)
    (h : putEntries fields entries r = .ok r') :
    (lookup name entries).elim (.ok (get r)) decode = .ok (get r') := by
  induction entries generalizing r with
  | nil =>
    cases h
    rfl
  | cons e rest ih =>
    obtain ⟨key, v⟩ := e
    obtain ⟨hk, hrest⟩ := List.pairwise_cons.mp ho
    rw [lookup_cons]
    by_cases hkey : key = name
    · subst hkey
      rw [if_pos rfl]
      rcases putEntries_cons h with ⟨hnone, -⟩ | ⟨f, r₁, hf, hput, hputs⟩
      · obtain ⟨write, hown, -⟩ := hr.own
        rw [hown] at hnone
        cases hnone
      · rw [hr.unwritten (lookup_below hk) hputs]
        exact hr.put_own hf hput
    · rw [if_neg hkey]
      rcases putEntries_cons h with ⟨-, hputs⟩ | ⟨f, r₁, hf, hput, hputs⟩
      · exact ih hrest hputs
      · rw [← hr.put_other hkey hf hput]
        exact ih hrest hputs

/-! ## Objects that decode alike -/

/-- The writes of the entries whose keys name a field. -/
def puts (fields : List (Field ρ)) (entries : List (String × Json)) :
    List (String × (ρ → Decoded ρ)) :=
  entries.filterMap fun e => (fields.find? (·.name = e.1)).map fun f => (e.1, f.put e.2)

theorem putEntries_eq (fields : List (Field ρ)) (entries : List (String × Json)) (r : ρ) :
    putEntries fields entries r = (puts fields entries).foldlM (fun r p => p.2 r) r := by
  induction entries generalizing r with
  | nil => rfl
  | cons e rest ih =>
    obtain ⟨key, v⟩ := e
    simp only [Json.putEntries]
    split
    · rename_i f hf
      simp only [puts, List.filterMap_cons, hf, Option.map_some, List.foldlM_cons]
      exact congrArg _ (funext ih)
    · rename_i hf
      simp only [puts, List.filterMap_cons, hf, Option.map_none]
      exact ih r

theorem mem_puts (ho : Ordered entries) {p : String × (ρ → Decoded ρ)} :
    p ∈ puts fields entries ↔
      ∃ f v, fields.find? (·.name = p.1) = some f ∧ lookup p.1 entries = some v ∧
        f.put v = p.2 := by
  simp only [puts, List.mem_filterMap, Option.map_eq_some_iff]
  constructor
  · rintro ⟨e, he, f, hf, rfl⟩
    exact ⟨f, e.2, hf, ho.lookup_eq he, rfl⟩
  · rintro ⟨f, v, hf, hv, hput⟩
    exact ⟨(p.1, v), mem_of_lookup hv, f, hf, by rw [hput]⟩

theorem puts_ordered (ho : Ordered entries) :
    (puts fields entries).Pairwise fun a b => a.1 < b.1 := by
  refine List.Pairwise.filterMap _ ?_ ho
  intro a b hab p hp q hq
  obtain ⟨f, -, rfl⟩ := Option.map_eq_some_iff.mp hp
  obtain ⟨g, -, rfl⟩ := Option.map_eq_some_iff.mp hq
  exact hab

/-- Two objects hold the same for the fields of a record. -/
def Alike (fields : List (Field ρ)) (as bs : List (String × Json)) : Prop :=
  ∀ f ∈ fields, (lookup f.name as).map f.put = (lookup f.name bs).map f.put

theorem Alike.symm {as bs : List (String × Json)} (h : Alike fields as bs) :
    Alike fields bs as :=
  fun f hf => (h f hf).symm

theorem Alike.puts_subset {as bs : List (String × Json)} (ha : Ordered as) (hb : Ordered bs)
    (h : Alike fields as bs) : puts fields as ⊆ puts fields bs := by
  intro p hp
  obtain ⟨f, v, hf, hv, hput⟩ := (mem_puts ha).mp hp
  have hname : f.name = p.1 := by simpa using List.find?_some hf
  have hsame := h f (List.mem_of_find?_eq_some hf)
  rw [hname, hv, Option.map_some] at hsame
  obtain ⟨w, hw, hputw⟩ := Option.map_eq_some_iff.mp hsame.symm
  exact (mem_puts hb).mpr ⟨f, w, hf, hw, hputw.trans hput⟩

/-- Objects that hold the same for the fields of a record decode alike, into the same record or
with the same error. -/
theorem putEntries_congr {as bs : List (String × Json)} (ha : Ordered as) (hb : Ordered bs)
    (h : Alike fields as bs) (r : ρ) : putEntries fields as r = putEntries fields bs r := by
  have nodup {es : List (String × Json)} (ho : Ordered es) : (puts fields es).Nodup := by
    refine (puts_ordered ho).imp ?_
    rintro a b hlt rfl
    exact String.lt_irrefl _ hlt
  have hperm := (List.perm_ext_iff_of_nodup (nodup ha) (nodup hb)).mpr fun _ =>
    ⟨fun hp => h.puts_subset ha hb hp, fun hp => h.symm.puts_subset hb ha hp⟩
  have hputs := hperm.eq_of_pairwise
    (fun _ _ _ _ hab hba => absurd hba (String.lt_asymm hab)) (puts_ordered ha) (puts_ordered hb)
  rw [putEntries_eq, putEntries_eq, hputs]

/-! ## Records over their defaults -/

theorem decodeDefaulted_obj (record : String) (fields : List (Field ρ)) (default : ρ)
    (entries : List (String × Json)) :
    decodeDefaulted record fields default (.obj entries) = putEntries fields entries default := by
  show (Json.putEntries fields entries default).bind _ = _
  cases Json.putEntries fields entries default <;> rfl

end GatewayClient.Json

