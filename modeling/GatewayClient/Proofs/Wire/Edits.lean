import Mathlib.Data.List.Nodup
import Mathlib.Logic.Relation
import GatewayClient.Proofs.Settings.Records

/-!
# Edits of a written record

A record is written as an object, and others may write the same record in another way: they leave
out a field that has its default, add what they alone know, and do so within a field that is a
record itself. Such an edit (`Schema.Edit`) is told by the fields of the record (`Schema`), without
a decoder. What every edit keeps is that each field is held in a form of its own or has its default
(`Schema.Written`), and this is all that a decoder asks for. So an object decodes to the same record
after any number of edits (`Schema.Written.decodes`), provided that each field by itself is read
from all of its forms (`Part.Restores`).
-/

namespace GatewayClient.Json

open Relation

variable {ρ α : Type} {entries : List (String × Json)} {v : Json} {r : ρ}

/-! ## Fields and edits -/

/-- A field of a record as it is written. -/
structure Part (ρ : Type) where
  {Value : Type}
  name : String
  read : ρ → Value
  /-- When two values of the field are equal. -/
  Same : Value → Value → Prop := Eq
  /-- What a value of the field may be written as. -/
  Form : Value → Json → Prop

/-- A field that is always written in the same way. -/
def Part.plain (name : String) (read : ρ → α) (encode : α → Json) : Part ρ :=
  { name, read, Form := fun a v => v = encode a }

/-- A field that has no entry where its value is absent. -/
def Part.present (name : String) (read : ρ → Option α) (Form : α → Json → Prop) : Part ρ :=
  { name, read, Form := fun o v => ∃ a, o = some a ∧ Form a v }

/-- The fields of a record, and the record in which all of them have their defaults. -/
structure Schema (ρ : Type) where
  parts : List (Part ρ)
  default : ρ
  distinct : (parts.map Part.name).Nodup

namespace Schema

variable {S : Schema ρ}

/-- Equality of records, field by field. -/
def Same (S : Schema ρ) (r s : ρ) : Prop := ∀ p ∈ S.parts, p.Same (p.read r) (p.read s)

/-- One edit of an object that a record is written as. -/
inductive Edit (S : Schema ρ) (r : ρ) : Json → Json → Prop
  /-- A field that has its default is left out. -/
  | drops {entries : List (String × Json)} {p : Part ρ} : p ∈ S.parts →
      p.Same (p.read r) (p.read S.default) →
      Edit S r (.obj entries) (.obj (without p.name entries))
  /-- An entry that is no field's is added. -/
  | adds {entries : List (String × Json)} {key : String} {value : Json} :
      key ∉ S.parts.map Part.name → Edit S r (.obj entries) (.obj (insertEntry key value entries))
  /-- The value of a field is written in another form. -/
  | rewrites {entries : List (String × Json)} {p : Part ρ} {value : Json} : p ∈ S.parts →
      p.Form (p.read r) value → Edit S r (.obj entries) (.obj (insertEntry p.name value entries))

/-- What is written for a record: each field is held in a form of its own, or is not and has its
default. -/
structure Written (S : Schema ρ) (r : ρ) (entries : List (String × Json)) : Prop where
  ordered : Ordered entries
  held : ∀ p ∈ S.parts,
    (lookup p.name entries).elim (p.Same (p.read r) (p.read S.default)) (p.Form (p.read r))

/-- Fields of one name are the same. -/
theorem eq_of_name {p q : Part ρ} (hp : p ∈ S.parts) (hq : q ∈ S.parts) (h : p.name = q.name) :
    p = q :=
  List.inj_on_of_nodup_map S.distinct hp hq h

/-- **An edit leaves the record written.** -/
theorem Written.edit (hwritten : S.Written r entries) (hedit : S.Edit r (.obj entries) v) :
    ∃ entries', v = .obj entries' ∧ S.Written r entries' := by
  cases hedit with
  | @drops _ p hp hdefault =>
    refine ⟨_, rfl, hwritten.ordered.without, fun q hq => ?_⟩
    rw [lookup_without]
    split
    · next hname => exact eq_of_name hp hq hname ▸ hdefault
    · exact hwritten.held q hq
  | @adds _ key value hunknown =>
    refine ⟨_, rfl, hwritten.ordered.insertEntry, fun q hq => ?_⟩
    have hname : key ≠ q.name := by
      rintro rfl
      exact hunknown (List.mem_map_of_mem hq)
    rw [lookup_insertEntry, if_neg hname]
    exact hwritten.held q hq
  | @rewrites _ p value hp hform =>
    refine ⟨_, rfl, hwritten.ordered.insertEntry, fun q hq => ?_⟩
    rw [lookup_insertEntry]
    split
    · next hname => exact eq_of_name hp hq hname ▸ hform
    · exact hwritten.held q hq

theorem Written.edited (hwritten : S.Written r entries)
    (hedits : ReflTransGen (S.Edit r) (.obj entries) v) :
    ∃ entries', v = .obj entries' ∧ S.Written r entries' := by
  induction hedits with
  | refl => exact ⟨entries, rfl, hwritten⟩
  | tail _ hedit ih =>
    obtain ⟨before, rfl, hbefore⟩ := ih
    exact hbefore.edit hedit

end Schema

/-! ## Decoding -/

variable {fields : List (Field ρ)} {S : Schema ρ}

/-- A field of a record is read from each form of its value, and no other one writes it. -/
def Part.Restores (p : Part ρ) (fields : List (Field ρ)) (r : ρ) : Prop :=
  ∃ decode, Reads fields p.name decode p.read
    ∧ ∀ v, p.Form (p.read r) v → ∃ a, decode v = .ok a ∧ p.Same (p.read r) a

theorem Reads.restores_plain {name : String} {read : ρ → α} {encode : α → Json}
    {decode : Json → Decoded α} (hreads : Reads fields name decode read)
    (hdecode : decode (encode (read r)) = .ok (read r)) :
    (Part.plain name read encode).Restores fields r := by
  refine ⟨decode, hreads, ?_⟩
  rintro v rfl
  exact ⟨_, hdecode, rfl⟩

theorem Reads.restores_present {name : String} {read : ρ → Option α} {Form : α → Json → Prop}
    {decode : Json → Decoded (Option α)} (hreads : Reads fields name decode read)
    (hdecode : ∀ a v, Form a v → decode v = .ok (some a)) :
    (Part.present name read Form).Restores fields r := by
  refine ⟨decode, hreads, ?_⟩
  rintro v ⟨a, ha, hform⟩
  exact ⟨some a, hdecode a v hform, ha⟩

/-- A field that a record under construction may lack until its entry is put in. -/
theorem Reads.required {name : String} {read : ρ → Option α} {decode : Json → Decoded α}
    (write : Option α → ρ → ρ)
    (hown : fields.find? (·.name = name) = some (field name decode fun a r => write (some a) r))
    (hread : ∀ o r, read (write o r) = o)
    (hother : ∀ f ∈ fields, f.name ≠ name → f.Keeps read) :
    Reads fields name (fun v => (decode v).map some) read := by
  refine ⟨⟨write, hown.trans (congrArg some ?_), hread⟩, hother⟩
  unfold field
  congr 1
  funext v r
  dsimp only
  cases decode v <;> rfl

/-- A decoder knows no field but those of the schema, and each of these is restored. -/
structure Schema.Decodes (S : Schema ρ) (fields : List (Field ρ)) (r : ρ) : Prop where
  names : ∀ f ∈ fields, f.name ∈ S.parts.map Part.name
  restores : ∀ p ∈ S.parts, p.Restores fields r

/-- A field that is restored takes each form of its value. -/
theorem Part.Restores.put {p : Part ρ} {f : Field ρ} (hrestores : p.Restores fields r)
    (hf : fields.find? (·.name = p.name) = some f) (hform : p.Form (p.read r) v) (s : ρ) :
    ∃ s', f.put v s = .ok s' := by
  obtain ⟨decode, hreads, hdecode⟩ := hrestores
  obtain ⟨write, hown, -⟩ := hreads.own
  obtain rfl := Option.some.inj (hown.symm.trans hf)
  obtain ⟨a, ha, -⟩ := hdecode v hform
  refine ⟨write a s, ?_⟩
  simp only [field, ha]
  rfl

/-- What was written of a field, or else its default, is what the decoded record has. -/
theorem Schema.Written.same {p : Part ρ} {s : ρ} (hwritten : S.Written r entries)
    (hp : p ∈ S.parts) (hrestores : p.Restores fields r)
    (hputs : putEntries fields entries S.default = .ok s) : p.Same (p.read r) (p.read s) := by
  obtain ⟨decode, hreads, hdecode⟩ := hrestores
  have hread := hreads.putEntries hwritten.ordered hputs
  have hheld := hwritten.held p hp
  cases hlookup : lookup p.name entries with
  | none =>
    rw [hlookup] at hread hheld
    exact Except.ok.inj hread ▸ hheld
  | some v =>
    rw [hlookup] at hread hheld
    obtain ⟨a, ha, hsame⟩ := hdecode v hheld
    exact Except.ok.inj (ha.symm.trans hread) ▸ hsame

/-- **What is written for a record decodes to the record, whatever edits were made to it.** So it
does for every decoder that puts the entries into these fields. -/
theorem Schema.Written.decodes (hwritten : S.Written r entries) (hdecodes : S.Decodes fields r)
    (hedits : ReflTransGen (S.Edit r) (.obj entries) v) :
    ∃ s, S.Same r s ∧ ∀ {α : Type} (record : String) (finish : Layout → ρ → Decoded α),
      decodeRecord record fields S.default finish v = finish .entries s := by
  obtain ⟨entries', rfl, hwritten'⟩ := hwritten.edited hedits
  have htakes : ∀ e ∈ entries', ∀ f, fields.find? (·.name = e.1) = some f →
      ∀ s, ∃ s', f.put e.2 s = .ok s' := by
    intro e he f hf
    have hname : f.name = e.1 := by simpa using List.find?_some hf
    obtain ⟨p, hp, hpart⟩ := List.mem_map.mp (hdecodes.names f (List.mem_of_find?_eq_some hf))
    have hheld := hwritten'.held p hp
    rw [hpart, hname, hwritten'.ordered.lookup_eq he] at hheld
    exact (hdecodes.restores p hp).put (hpart.trans hname ▸ hf) hheld
  obtain ⟨s, hs⟩ := exists_putEntries htakes S.default
  refine ⟨s, fun p hp => hwritten'.same hp (hdecodes.restores p hp) hs, fun record finish => ?_⟩
  show (putEntries fields entries' S.default).bind (finish .entries) = _
  rw [hs]
  rfl

end GatewayClient.Json
