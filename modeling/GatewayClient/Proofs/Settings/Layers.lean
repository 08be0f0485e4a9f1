import GatewayClient.Proofs.Settings.Overriding
import GatewayClient.Settings.Load

/-!
# Layers of settings

Settings come from the environment, the file and the defaults, in this order of precedence, and
each setting on its own: it is what its variable says, else what the file gives under its key, else
its default (`load_layers`). The proof follows the way of a value: the merge keeps what the file
gives and the default where it gives nothing, per key and per object of the file
(`lookup_mergeEntries`); the decoder reads each field from its key (`Reads.putEntries`); the
overrides are told row by row (`override_read`).

Nothing else in the file or the environment has any influence, on the settings or on whether they
load at all (`load_congr`).
-/

namespace GatewayClient

open Json

/-! ## What a file gives -/

/-- The entries of an object that stands under a key of another one. -/
def Json.sectionOf (key : String) (es : List (String × Json)) : List (String × Json) :=
  ((lookup key es).map Json.entries).getD []

theorem Text.fromUTF8?_toUTF8 (text : String) : String.fromUTF8? text.toUTF8 = some text := by
  simp only [String.fromUTF8?, Option.dite_none_right_eq_some]
  exact ⟨text.isValidUTF8, rfl⟩

theorem SettingsFile.text?_bytes (text : String) :
    (SettingsFile.bytes text.toUTF8).text? = .ok (some text) := by
  simp only [SettingsFile.text?, Text.fromUTF8?_toUTF8]

/-- The value a file gives for a setting. `null` gives none. -/
def Setting.fromFile (t : Setting) (es : List (String × Json)) : Option Json :=
  given t.slot.key (t.group?.elim es (sectionOf · es))

/-- What stands in a file for the three objects of the settings is an object, or `null`. -/
def Sectioned (es : List (String × Json)) : Prop :=
  ∀ key ∈ ["proxy", "discovery", "logging"], ∀ v, given key es = some v → ∃ sub, v = .obj sub

/-- A file whose text is an object with the given entries. A file that is missing gives none. -/
inductive SettingsFile.Gives : SettingsFile → List (String × Json) → Prop
  | absent : Gives .absent []
  | text {file : SettingsFile} {text : String} {es : List (String × Json)}
      (read : file.text? = .ok (some text)) (parsed : Json.parse text = .ok (.obj es)) :
      Gives file es

/-- The first that exists of what the environment says, the decoded value the file gives, and the
default. -/
def Setting.layered (t : Setting) (es : List (String × Json)) (lookup : String → Option String) :
    Decoded t.slot.Value :=
  match t.slot.fromEnvironment lookup with
  | some a => .ok a
  | none => (t.fromFile es).elim (.ok (t.slot.read {})) t.slot.decode

/-- A file and a lookup of variables say the same about a setting as other ones. -/
def Setting.SameSources (t : Setting) (es : List (String × Json))
    (lookup : String → Option String) (es' : List (String × Json))
    (lookup' : String → Option String) : Prop :=
  t.fromFile es = t.fromFile es' ∧
    ∀ g, t.slot.governor = some g → lookup g.1 = lookup' g.1

variable {es es' : List (String × Json)} {path path' : String} {file file' : SettingsFile}
  {lookup lookup' : String → Option String} {s : ClientSettings}

theorem SettingsFile.Gives.canonical (h : file.Gives es) : Canonical (.obj es) := by
  cases h with
  | absent => exact .obj List.Pairwise.nil (List.forall_mem_nil _)
  | text read parsed => exact parse_canonical parsed

theorem Slot.fromEnvironment_congr {ρ : Type} (e : Slot ρ)
    (h : ∀ g, e.governor = some g → lookup g.1 = lookup' g.1) :
    e.fromEnvironment lookup = e.fromEnvironment lookup' := by
  cases hg : e.governor with
  | none => simp only [fromEnvironment, hg, Option.bind_none]
  | some g => simp only [fromEnvironment, hg, Option.bind_some, Override.said, h g hg]

theorem Setting.layered_congr (t : Setting) (h : t.SameSources es lookup es' lookup') :
    t.layered es lookup = t.layered es' lookup' := by
  simp only [layered, t.slot.fromEnvironment_congr h.2, h.1]

/-! ## A layer over the defaults of a record -/

section Record

variable {ρ : Type} {fields : List (Json.Field ρ)} {default r : ρ} {base : List (String × Json)}

/-- A setting of a record that is decoded from the defaults with entries laid over them: the
decoded value among the entries, or the default. The default must not be an object, which would be
merged and not replaced. -/
theorem slot_layered {e : Slot ρ} (hr : Reads fields e.key e.decode e.read) (hb : Ordered base)
    (hdefault : putEntries fields base default = .ok default)
    (hplain : ∀ sub, Json.lookup e.key base ≠ some (.obj sub)) (hes : Ordered es)
    (h : putEntries fields (mergeEntries base es) default = .ok r) :
    (given e.key es).elim (.ok (e.read default)) e.decode = .ok (e.read r) := by
  have hread := hr.putEntries hb.mergeEntries h
  rw [lookup_mergeEntries hes] at hread
  cases hgiven : given e.key es with
  | none =>
    have hbase := hr.putEntries hb hdefault
    rw [hgiven] at hread
    cases hl : Json.lookup e.key base with
    | none => simpa [hl] using hread
    | some v =>
      simp only [hl, Option.elim_some, Option.elim_none] at hbase hread ⊢
      exact hbase.symm.trans hread
  | some v =>
    rw [hgiven] at hread
    simpa [overlay_plain hplain] using hread

end Record

/-! ## The file over the defaults -/

/-- Where the defaults hold an object, the merged object holds it with the one of the file laid
over it. -/
theorem lookup_section {key : String} {base sub : List (String × Json)} (hes : Ordered es)
    (hbase : Json.lookup key base = some (.obj sub))
    (hsec : ∀ v, given key es = some v → ∃ sub, v = .obj sub) :
    Json.lookup key (mergeEntries base es) =
      some (.obj (mergeEntries sub (sectionOf key es))) := by
  rw [lookup_mergeEntries hes, hbase]
  cases hgiven : given key es with
  | none =>
    have hnone : sectionOf key es = [] := by
      cases hl : Json.lookup key es with
      | none => simp [sectionOf, hl]
      | some v =>
        by_cases hv : v = .null
        · subst hv
          simp [sectionOf, hl, entries]
        · rw [given_eq hl hv] at hgiven
          cases hgiven
    simp only [hnone, mergeEntries_nil]
    rfl
  | some v =>
    obtain ⟨given, rfl⟩ := hsec v hgiven
    have hsame : sectionOf key es = given := by
      simp [sectionOf, (given_eq_some hgiven).1, entries]
    simp only [hsame, Option.elim_some, overlay_obj]

theorem Json.Canonical.section {key : String} (h : Canonical (.obj es)) :
    Ordered (sectionOf key es) := by
  cases hl : Json.lookup key es with
  | none =>
    simp only [sectionOf, hl]
    exact List.Pairwise.nil
  | some v =>
    simp only [sectionOf, hl, Option.map_some, Option.getD_some]
    have hv := h.at hl
    cases hv with
    | obj order each => exact order
    | _ => exact List.Pairwise.nil

theorem ClientSettings.slots_read : ∀ e ∈ slots, Reads fields e.key e.decode e.read := by
  simp only [slots, List.forall_mem_cons]
  refine ⟨⟨⟨_, rfl, fun _ _ => rfl⟩, ?_⟩, ⟨⟨_, rfl, fun _ _ => rfl⟩, ?_⟩,
    ⟨⟨_, rfl, fun _ _ => rfl⟩, ?_⟩, ⟨⟨_, rfl, fun _ _ => rfl⟩, ?_⟩,
    ⟨⟨_, rfl, fun _ _ => rfl⟩, ?_⟩, ⟨⟨_, rfl, fun _ _ => rfl⟩, ?_⟩, List.forall_mem_nil _⟩ <;>
    simp [fields, keeps_field]

theorem ProxyConfig.slots_read : ∀ e ∈ slots, Reads fields e.key e.decode e.read := by
  simp only [slots, List.forall_mem_cons]
  refine ⟨⟨⟨_, rfl, fun _ _ => rfl⟩, ?_⟩, ⟨⟨_, rfl, fun _ _ => rfl⟩, ?_⟩,
    ⟨⟨_, rfl, fun _ _ => rfl⟩, ?_⟩, List.forall_mem_nil _⟩ <;>
    simp [fields, keeps_field]

theorem Backoff.slots_read : ∀ e ∈ slots, Reads fields e.key e.decode e.read := by
  simp only [slots, List.forall_mem_cons]
  refine ⟨⟨⟨_, rfl, fun _ _ => rfl⟩, ?_⟩, ⟨⟨_, rfl, fun _ _ => rfl⟩, ?_⟩,
    ⟨⟨_, rfl, fun _ _ => rfl⟩, ?_⟩, List.forall_mem_nil _⟩ <;>
    simp [fields, keeps_field]

theorem LoggingSettings.slots_read : ∀ e ∈ slots, Reads fields e.key e.decode e.read := by
  simp only [slots, List.forall_mem_cons]
  refine ⟨⟨⟨_, rfl, fun _ _ => rfl⟩, ?_⟩, ⟨⟨_, rfl, fun _ _ => rfl⟩, ?_⟩,
    List.forall_mem_nil _⟩ <;>
    simp [fields, keeps_field]

namespace ClientSettings

theorem reads_proxy : Reads fields "proxy" ProxyConfig.ofJson proxy :=
  ⟨⟨_, rfl, fun _ _ => rfl⟩, by simp [fields, keeps_field]⟩

theorem reads_discovery : Reads fields "discovery" Backoff.ofJson discovery :=
  ⟨⟨_, rfl, fun _ _ => rfl⟩, by simp [fields, keeps_field]⟩

theorem reads_logging : Reads fields "logging" LoggingSettings.ofJson logging :=
  ⟨⟨_, rfl, fun _ _ => rfl⟩, by simp [fields, keeps_field]⟩

theorem default_proxy :
    Json.lookup "proxy" (toJson {}).entries = some (.obj (ProxyConfig.toJson {}).entries) :=
  rfl

theorem default_discovery :
    Json.lookup "discovery" (toJson {}).entries = some (.obj (Backoff.toJson {}).entries) :=
  rfl

theorem default_logging :
    Json.lookup "logging" (toJson {}).entries = some (.obj (LoggingSettings.toJson {}).entries) :=
  rfl

theorem layered_obj (es : List (String × Json)) :
    layered (.obj es) = putEntries fields (mergeEntries (toJson {}).entries es) {} := by
  have hmerge : Json.merge (toJson {}) (.obj es) = .obj (mergeEntries (toJson {}).entries es) := by
    rw [toJson, Json.merge]
    rfl
  rw [layered, hmerge, ofJson, decodeDefaulted_obj]

/-- A setting within one of the three objects of a file. -/
theorem section_layered {ρ : Type} {record key : String} {fields : List (Json.Field ρ)}
    {default : ρ} {base : List (String × Json)} {part : ClientSettings → ρ} {e : Slot ρ}
    (hpart : Reads ClientSettings.fields key (decodeDefaulted record fields default) part)
    (hbase : Json.lookup key (toJson {}).entries = some (.obj base))
    (hsec : ∀ v, given key es = some v → ∃ sub, v = .obj sub) (hes : Canonical (.obj es))
    (hr : Reads fields e.key e.decode e.read) (hb : Ordered base)
    (hdefault : decodeDefaulted record fields default (.obj base) = .ok default)
    (hplain : ∀ sub, Json.lookup e.key base ≠ some (.obj sub))
    (h : layered (.obj es) = .ok s) :
    (given e.key (sectionOf key es)).elim (.ok (e.read default)) e.decode =
      .ok (e.read (part s)) := by
  rw [layered_obj] at h
  rw [decodeDefaulted_obj] at hdefault
  have hread := hpart.putEntries (ordered_toJson {}).mergeEntries h
  rw [lookup_section hes.ordered hbase hsec, Option.elim_some, decodeDefaulted_obj] at hread
  exact slot_layered hr hb hdefault hplain hes.section hread

/-! No value of a setting is encoded as an object, apart from the credentials, which are absent by
default. -/

theorem plain_toJson (s : ClientSettings) :
    ∀ e ∈ slots, ∀ sub, Json.lookup e.key s.toJson.entries ≠ some (.obj sub) := by
  intro e he sub hl
  have hkey : e.key = "discovery" ∨ e.key = "logging" ∨ e.key = "proxy" := by
    have hm := mem_of_lookup hl
    simp [toJson, entries, AccountType.toJson, ofInt] at hm
    rcases hm with h | h | h <;> simp [h]
  simp only [slots, List.mem_cons, List.not_mem_nil, or_false] at he
  rcases he with rfl | rfl | rfl | rfl | rfl | rfl <;> simp at hkey

theorem plain_proxy : ∀ e ∈ ProxyConfig.slots, ∀ sub,
    Json.lookup e.key (ProxyConfig.toJson {}).entries ≠ some (.obj sub) := by
  simp [ProxyConfig.slots, ProxyConfig.toJson, entries, Json.lookup]

theorem plain_discovery (b : Backoff) : ∀ e ∈ Backoff.slots, ∀ sub,
    Json.lookup e.key b.toJson.entries ≠ some (.obj sub) := by
  have hjitter : ∀ sub, Json.ofDouble b.jitterFactor ≠ .obj sub := by
    unfold Json.ofDouble
    split <;> simp
  simp [Backoff.slots, Backoff.toJson, entries, Json.lookup, ofInt, hjitter]

theorem plain_logging (l : LoggingSettings) : ∀ e ∈ LoggingSettings.slots, ∀ sub,
    Json.lookup e.key l.toJson.entries ≠ some (.obj sub) := by
  simp [LoggingSettings.slots, LoggingSettings.toJson, entries, Json.lookup]

/-- What the file and the defaults come to, setting by setting. -/
theorem layered_read (hes : Canonical (.obj es)) (hsec : Sectioned es)
    (h : layered (.obj es) = .ok s) :
    ∀ t ∈ settings, (t.fromFile es).elim (.ok (t.slot.read {})) t.slot.decode =
      .ok (t.slot.read s) := by
  refine forall_settings (fun e he => ?_) (fun e he => ?_) (fun e he => ?_) (fun e he => ?_)
  · exact slot_layered (slots_read e he) (ordered_toJson {}) ofJson_default
      (plain_toJson {} e he) hes.ordered (layered_obj es ▸ h)
  · exact section_layered reads_proxy default_proxy (hsec "proxy" (by simp)) hes
      (ProxyConfig.slots_read e he) (ProxyConfig.ordered_toJson {}) (ProxyConfig.ofJson_toJson {})
      (plain_proxy e he) h
  · exact section_layered reads_discovery default_discovery (hsec "discovery" (by simp)) hes
      (Backoff.slots_read e he) (Backoff.ordered_toJson {}) (Backoff.ofJson_toJson Backoff.finite_default)
      (plain_discovery {} e he) h
  · exact section_layered reads_logging default_logging (hsec "logging" (by simp)) hes
      (LoggingSettings.slots_read e he) (LoggingSettings.ordered_toJson {})
      (LoggingSettings.ofJson_toJson {}) (plain_logging {} e he) h

/-! ## Files that give the same -/

theorem merged_congr {key : String} {base : List (String × Json)} (ho : Ordered es)
    (ho' : Ordered es') (h : given key es = given key es') :
    Json.lookup key (mergeEntries base es) = Json.lookup key (mergeEntries base es') := by
  rw [lookup_mergeEntries ho, lookup_mergeEntries ho', h]

/-- An object within a file decodes alike if it gives the same settings. -/
theorem section_congr {ρ : Type} {record key : String} {fields : List (Json.Field ρ)} {default : ρ}
    {slots : List (Slot ρ)} {base : List (String × Json)}
    {write : ρ → ClientSettings → ClientSettings}
    (hfields : ∀ f ∈ fields, ∃ e ∈ slots, e.key = f.name) (hb : Ordered base)
    (hbase : Json.lookup key (toJson {}).entries = some (.obj base))
    (hes : Canonical (.obj es)) (hes' : Canonical (.obj es'))
    (hsec : ∀ v, given key es = some v → ∃ sub, v = .obj sub)
    (hother : ∀ v, given key es' = some v → ∃ sub, v = .obj sub)
    (h : ∀ e ∈ slots, given e.key (sectionOf key es) = given e.key (sectionOf key es')) :
    (Json.lookup key (mergeEntries (toJson {}).entries es)).map
        (field key (decodeDefaulted record fields default) write).put =
      (Json.lookup key (mergeEntries (toJson {}).entries es')).map
        (field key (decodeDefaulted record fields default) write).put := by
  have hsame : putEntries fields (mergeEntries base (sectionOf key es)) default =
      putEntries fields (mergeEntries base (sectionOf key es')) default := by
    refine putEntries_congr hb.mergeEntries hb.mergeEntries (fun f hf => ?_) default
    obtain ⟨e, he, hname⟩ := hfields f hf
    rw [← hname, merged_congr hes.section hes'.section (h e he)]
  rw [lookup_section hes.ordered hbase hsec, lookup_section hes'.ordered hbase hother]
  simp only [Option.map_some, field, decodeDefaulted_obj, hsame]

/-- Files that give the same for every setting come to the same, over the same defaults. -/
theorem layered_congr (hes : Canonical (.obj es)) (hes' : Canonical (.obj es'))
    (hsec : Sectioned es) (hother : Sectioned es')
    (h : ∀ t ∈ settings, t.fromFile es = t.fromFile es') :
    layered (.obj es) = layered (.obj es') := by
  simp only [settings, List.forall_mem_append, List.forall_mem_map] at h
  obtain ⟨⟨⟨htop, hproxy⟩, hdiscovery⟩, hlogging⟩ := h
  have same (e : Slot ClientSettings) (he : e ∈ slots) :
      Json.lookup e.key (mergeEntries (toJson {}).entries es) =
        Json.lookup e.key (mergeEntries (toJson {}).entries es') :=
    merged_congr hes.ordered hes'.ordered (htop e he)
  simp only [slots, List.forall_mem_cons] at same
  obtain ⟨token, account, current, total, wait, trust, -⟩ := same
  rw [layered_obj, layered_obj]
  have hbase := ordered_toJson {}
  refine putEntries_congr hbase.mergeEntries hbase.mergeEntries ?_ _
  simp only [Alike, fields, List.forall_mem_cons]
  refine ⟨congrArg _ token, congrArg _ account, congrArg _ current, congrArg _ total,
    congrArg _ wait, congrArg _ trust, ?_, ?_, ?_, List.forall_mem_nil _⟩
  · exact section_congr (by simp [ProxyConfig.fields, ProxyConfig.slots])
      (ProxyConfig.ordered_toJson {}) default_proxy hes hes' (hsec "proxy" (by simp))
      (hother "proxy" (by simp)) hproxy
  · exact section_congr (by simp [Backoff.fields, Backoff.slots])
      (Backoff.ordered_toJson {}) default_discovery hes hes' (hsec "discovery" (by simp))
      (hother "discovery" (by simp)) hdiscovery
  · exact section_congr (by simp [LoggingSettings.fields, LoggingSettings.slots])
      (LoggingSettings.ordered_toJson {}) default_logging hes hes' (hsec "logging" (by simp))
      (hother "logging" (by simp)) hlogging

/-! ## Loading -/

theorem ofFile_eq (h : file.Gives es) :
    ∃ text?, file.text? = .ok text? ∧
      ofFile text? = (layered (.obj es)).mapError SettingsError.undecodable := by
  cases h with
  | absent =>
    refine ⟨none, rfl, ?_⟩
    have hbase : layered (.obj []) = .ok {} := by
      rw [layered_obj, mergeEntries_nil]
      exact ofJson_default
    rw [ofFile, hbase, ofJson_default]
    rfl
  | text read parsed =>
    refine ⟨_, read, ?_⟩
    simp only [ofFile, parsed]
    cases layered (.obj es) <;> rfl

theorem finish_fst (s : ClientSettings) (lookup : String → Option String) :
    (s.finish lookup).1 = ((s.override lookup).1.validate.mapError SettingsError.invalid).map
      fun _ => (s.override lookup).1 := by
  simp only [finish]
  cases (s.override lookup).1.validate <;> rfl

/-- The result of a load: what the file and the defaults come to, overridden and validated. -/
theorem load_fst (h : file.Gives es) :
    (load path file lookup).1 =
      ((layered (.obj es)).mapError SettingsError.undecodable).bind
        fun s => (s.finish lookup).1 := by
  obtain ⟨text?, htext, hfile⟩ := ofFile_eq h
  simp only [load, htext, hfile]
  cases layered (.obj es) <;> rfl

theorem load_ok (hf : file.Gives es) :
    (load path file lookup).1 = .ok s ↔
      ∃ s₀, layered (.obj es) = .ok s₀ ∧ (s₀.override lookup).1 = s ∧ s.validate = .ok () := by
  rw [load_fst hf]
  cases layered (.obj es) with
  | error e =>
    constructor
    · intro h
      cases h
    · rintro ⟨_, h, -⟩
      cases h
  | ok s₀ =>
    show (s₀.finish lookup).1 = _ ↔ _
    rw [finish_fst]
    constructor
    · intro h
      cases hv : (s₀.override lookup).1.validate with
      | error c =>
        rw [hv] at h
        cases h
      | ok u =>
        rw [hv] at h
        cases h
        exact ⟨s₀, rfl, rfl, hv⟩
    · rintro ⟨_, hs, rfl, hv⟩
      cases hs
      rw [hv]
      rfl

theorem override_congr
    (h : ∀ t ∈ settings, ∀ g, t.slot.governor = some g → lookup g.1 = lookup' g.1) :
    (s.override lookup).1 = (s.override lookup').1 := by
  refine settings_complete fun t ht => ?_
  rw [override_read t ht, override_read t ht, t.slot.fromEnvironment_congr (h t ht)]

/-- Loads from the same sources of every setting have the same result: the same settings, or the
same error. -/
theorem load_congr (hf : file.Gives es) (hf' : file'.Gives es') (hsec : Sectioned es)
    (hother : Sectioned es') (h : ∀ t ∈ settings, t.SameSources es lookup es' lookup') :
    (load path file lookup).1 = (load path' file' lookup').1 := by
  have hover (s : ClientSettings) : (s.override lookup).1 = (s.override lookup').1 :=
    override_congr fun t ht => (h t ht).2
  rw [load_fst hf, load_fst hf',
    layered_congr hf.canonical hf'.canonical hsec hother fun t ht => (h t ht).1]
  simp only [finish_fst, hover]

/-- Every setting that is loaded comes from the first of its sources that gives one. -/
theorem load_read (hf : file.Gives es) (hsec : Sectioned es)
    (h : (load path file lookup).1 = .ok s) :
    ∀ t ∈ settings, t.layered es lookup = .ok (t.slot.read s) := by
  intro t ht
  obtain ⟨s₀, hlayered, rfl, -⟩ := (load_ok hf).mp h
  have hread := layered_read hf.canonical hsec hlayered t ht
  rw [override_read t ht]
  unfold Setting.layered
  split
  · rename_i a ha
    rw [ha]
    rfl
  · rename_i hnone
    rw [hread, hnone]
    rfl

/-- **Layering.** Each setting that is loaded is what its variable says, else what the file gives
for it, else its default. Two loads agree in a setting whose own key and variable they agree in,
whatever the others are, and a load is repeated by any file and environment that agree in the keys
and the variables of the settings. The variable of the proxy URL has two settings, and the
credentials have none. -/
theorem load_layers {journal : Journal} (hf : file.Gives es) (hsec : Sectioned es)
    (h : load path file lookup = (.ok s, journal)) :
    (∀ t ∈ settings, t.layered es lookup = .ok (t.slot.read s)) ∧
    (∀ url, Override.said lookup "RELAY_PROXY_URL" = some url →
      s.proxy.mode = .url ∧ s.proxy.url = some url) ∧
    (given "credentials" (sectionOf "proxy" es)).elim (.ok none)
      (decodeOption ProxyCredentials.ofJson) = .ok s.proxy.credentials ∧
    (∀ path' file' es' lookup' s' journal', SettingsFile.Gives file' es' → Sectioned es' →
      load path' file' lookup' = (.ok s', journal') →
      ∀ t ∈ settings, t.SameSources es lookup es' lookup' → t.slot.read s' = t.slot.read s) ∧
    ∀ path' file' es' lookup', SettingsFile.Gives file' es' → Sectioned es' →
      (∀ t ∈ settings, t.SameSources es lookup es' lookup') →
      (load path' file' lookup').1 = .ok s := by
  have hs : (load path file lookup).1 = .ok s := congrArg Prod.fst h
  have hread := load_read hf hsec hs
  have hproxy := hread
  simp only [settings, List.forall_mem_append, List.forall_mem_map] at hproxy
  obtain ⟨⟨⟨-, hproxy⟩, -⟩, -⟩ := hproxy
  simp only [ProxyConfig.slots, List.forall_mem_cons, Setting.layered, Slot.within,
    Slot.fromEnvironment, Option.bind_some] at hproxy
  obtain ⟨hmode, hurl, hcredentials, -⟩ := hproxy
  refine ⟨hread, ?_, hcredentials, ?_, ?_⟩
  · intro url hsaid
    rw [hsaid] at hmode hurl
    exact ⟨(Except.ok.inj hmode).symm, (Except.ok.inj hurl).symm⟩
  · intro path' file' es' lookup' s' journal' hf' hother h' t ht hsame
    have hread' := load_read hf' hother (congrArg Prod.fst h') t ht
    rw [← t.layered_congr hsame, hread t ht] at hread'
    exact (Except.ok.inj hread').symm
  · intro path' file' es' lookup' hf' hother hsame
    rw [← hs]
    exact (load_congr hf hf' hsec hother hsame).symm

/-! A file with an unknown key, a `null` and an object in part, under variables of which one is
invalid and one is empty. -/

def layeredText : String :=
  String.ofList
    ("\x7b\"totalShards\":4,\"note\":[],".toList ++
    ("\"proxy\":\x7b\"mode\":\"system\",\"url\":null\x7d,".toList ++
      "\"logging\":null\x7d".toList))

def layeredEntries : List (String × Json) :=
  [("logging", .null), ("note", .arr []),
   ("proxy", .obj [("mode", .str "system"), ("url", .null)]), ("totalShards", .num (.int 4))]

def layeredVariables : String → Option String
  | "RELAY_TOTAL_SHARDS" => some "0"
  | "RELAY_CURRENT_SHARD" => some " +3 "
  | "RELAY_PROXY_URL" => some "http://p:1"
  | "RELAY_LOG_LEVEL" => some ""
  | _ => none

def layeredSettings : ClientSettings where
  currentShard := 3
  totalShards := 4
  proxy := { mode := .url, url := some "http://p:1" }

theorem layeredText_parse : Json.parse layeredText = .ok (.obj layeredEntries) :=
  Json.parse_ofList (by rfl)

theorem layeredText_gives : (SettingsFile.bytes layeredText.toUTF8).Gives layeredEntries :=
  .text (SettingsFile.text?_bytes layeredText) layeredText_parse

theorem layeredEntries_sectioned : Sectioned layeredEntries := by
  intro key hkey v hv
  simp only [List.mem_cons, List.not_mem_nil, or_false] at hkey
  rcases hkey with rfl | rfl | rfl
  · exact ⟨_, (Option.some.inj hv).symm⟩
  · cases hv
  · cases hv

theorem layeredText_load :
    load "settings.json" (.bytes layeredText.toUTF8) layeredVariables =
      (.ok layeredSettings,
        [announcement "settings.json" (.bytes layeredText.toUTF8),
         Override.warning "RELAY_TOTAL_SHARDS" "invalid u32 env var, ignoring" "0"]) := by
  have hlayered : layered (.obj layeredEntries) =
      .ok { totalShards := 4, proxy := { mode := .system } } := by rfl
  have hover : override { totalShards := 4, proxy := { mode := .system } } layeredVariables =
      (layeredSettings,
        [Override.warning "RELAY_TOTAL_SHARDS" "invalid u32 env var, ignoring" "0"]) := by rfl
  have hunit : Binary64.zero.isUnit = true := by decide +kernel
  have hvalid : layeredSettings.validate = .ok () := by
    simp [validate, layeredSettings, ShardAssignment.ofPair, Backoff.validate, hunit]
  simp only [load, SettingsFile.text?_bytes, ofFile, layeredText_parse, hlayered, finish, hover,
    hvalid]

theorem load_layers_layeredText :
    SettingsFile.Gives (.bytes layeredText.toUTF8) layeredEntries ∧
      Sectioned layeredEntries ∧
      ∀ t ∈ settings, t.layered layeredEntries layeredVariables =
        .ok (t.slot.read layeredSettings) :=
  ⟨layeredText_gives, layeredEntries_sectioned,
    (load_layers layeredText_gives layeredEntries_sectioned layeredText_load).1⟩

end ClientSettings

end GatewayClient
