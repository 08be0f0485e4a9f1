import Mathlib.Data.List.Basic
import GatewayClient.Proofs.Settings.Layers

/-!
# Overrides field by field

What the environment makes of some settings, told for each setting and each variable by itself
(`FieldByField`). The settings have been told row by row in the table of settings
(`override_read`); the warnings are told here in the same way, by the table `checked` of the
variables whose values may be invalid. An override says something only of its own variable, in a
way that does not depend on the settings (`Checks.told`), so that the warnings about one variable
can be read off the journal by its name (`filter_warnings`).
-/

namespace GatewayClient

namespace Override

variable {lookup lookup' : String → Option String} {os : List Override} {s : ClientSettings}

theorem said_eq_some {name v : String} :
    said lookup name = some v ↔ lookup name = some v ∧ v ≠ "" := by
  rw [said, Option.filter_eq_some_iff]
  simp

/-! ## Warnings -/

/-- A variable whose value may be invalid, with what is said of an invalid one. -/
structure Checked where
  name : String
  complaint : String
  valid : String → Bool

/-- A variable that has to be parsed. -/
def Checked.parsed {α : Type} (name complaint : String) (parse? : String → Option α) : Checked :=
  ⟨name, complaint, fun v => (parse? v).isSome⟩

/-- The variables whose values may be invalid, in the order in which they are read. -/
def checked : List Checked :=
  [.parsed "RELAY_ACCOUNT_TYPE" "invalid account type env var, ignoring" AccountType.ofName?,
   .parsed "RELAY_TOTAL_SHARDS" "invalid u32 env var, ignoring" (uint32InRange? · 1 0xFFFFFFFF),
   .parsed "RELAY_CURRENT_SHARD" "invalid u32 env var, ignoring" (uint32InRange? · 0 0xFFFFFFFE),
   .parsed "RELAY_WAIT_FOR_SERVERS" "invalid boolean env var, ignoring" boolOfWord?,
   .parsed "RELAY_TRUST_ALL_CERTIFICATES" "invalid boolean env var, ignoring" boolOfWord?]

/-- The warning about a variable that is set, not empty and invalid. It names the variable and has
its value as it was set. -/
def Checked.warning? (c : Checked) (lookup : String → Option String) : Option LogRecord :=
  (said lookup c.name).bind fun v =>
    if c.valid v then none
    else some
      { level := .warn, message := c.complaint, fields := [("key", c.name), ("value", v)] }

/-- The variables that are checked by some overrides. -/
inductive Checks : List Override → List Checked → Prop
  | nil : Checks [] []
  | taken {name : String} {write : String → ClientSettings → ClientSettings}
      {os : List Override} {cs : List Checked} : Checks os cs →
      Checks (⟨name, fun v s => .ok (write v s)⟩ :: os) cs
  | parsed {α : Type} {name complaint : String} {parse? : String → Option α}
      {write : α → ClientSettings → ClientSettings} {os : List Override} {cs : List Checked} :
      Checks os cs →
      Checks (Override.parsed name complaint parse? write :: os)
        (.parsed name complaint parse? :: cs)

theorem checks_all : Checks all checked :=
  .taken (.parsed (.parsed (.parsed (.parsed (.parsed (.taken (.taken .nil)))))))

theorem told_ok {o : Override} {v : String} {changed : ClientSettings}
    (h : said lookup o.name = some v) (hput : o.put v s = .ok changed) :
    (o.apply lookup s).2 = [] := by
  obtain ⟨hv, hempty⟩ := said_eq_some.mp h
  simp only [apply, hv, String.isEmpty_iff, if_neg hempty, hput]

theorem told_error {o : Override} {v complaint : String} (h : said lookup o.name = some v)
    (hput : o.put v s = .error complaint) :
    (o.apply lookup s).2 =
      [{ level := .warn, message := complaint, fields := [("key", o.name), ("value", v)] }] := by
  obtain ⟨hv, hempty⟩ := said_eq_some.mp h
  simp only [apply, hv, String.isEmpty_iff, if_neg hempty, hput, warning_eq]

theorem told_taken {name : String} {write : String → ClientSettings → ClientSettings} :
    (apply ⟨name, fun v s => .ok (write v s)⟩ lookup s).2 = [] := by
  cases hs : said lookup name with
  | none => rw [apply_unsaid hs]
  | some v => exact told_ok hs rfl

theorem warning?_parsed {α : Type} {name complaint v : String} {parse? : String → Option α}
    (h : said lookup name = some v) : (Checked.parsed name complaint parse?).warning? lookup =
      if (parse? v).isSome then none
      else some { level := .warn, message := complaint, fields := [("key", name), ("value", v)] } := by
  show (said lookup name).bind _ = _
  rw [h]
  rfl

theorem told_parsed {α : Type} {name complaint : String} {parse? : String → Option α}
    {write : α → ClientSettings → ClientSettings} :
    ((parsed name complaint parse? write).apply lookup s).2 =
      ((Checked.parsed name complaint parse?).warning? lookup).toList := by
  cases hs : said lookup name with
  | none =>
    rw [apply_unsaid hs]
    simp [Checked.warning?, Checked.parsed, hs]
  | some v =>
    rw [warning?_parsed hs]
    cases hparse : parse? v with
    | none =>
      have hput : (parsed name complaint parse? write).put v s = .error complaint := by
        simp only [parsed, hparse]
      exact told_error hs hput
    | some a =>
      have hput : (parsed name complaint parse? write).put v s = .ok (write a s) := by
        simp only [parsed, hparse]
      exact told_ok hs hput

/-- What is said does not depend on the settings. -/
theorem Checks.told {cs : List Checked} (h : Checks os cs) :
    (applyEach lookup os s).2 = cs.filterMap (·.warning? lookup) := by
  induction h generalizing s with
  | nil => rfl
  | taken _ ih =>
    simp only [applyEach, told_taken, ih, List.nil_append]
  | parsed _ ih =>
    simp only [applyEach, told_parsed, ih, List.filterMap_cons]
    cases (Checked.warning? _ lookup) <;> rfl

/-- The record names a variable. -/
def Names (name : String) (r : LogRecord) : Bool := r.field? "key" = some name

theorem names_of_warning? {c : Checked} {r : LogRecord} (h : c.warning? lookup = some r)
    (name : String) : Names name r = decide (c.name = name) := by
  obtain ⟨v, -, hr⟩ := Option.bind_eq_some_iff.mp h
  split at hr
  · cases hr
  · cases hr
    simp [Names, LogRecord.field?]

/-- The warnings that name a variable are about that variable. -/
theorem filter_warnings (cs : List Checked) (name : String) :
    (cs.filterMap (·.warning? lookup)).filter (Names name) =
      (cs.filter (·.name = name)).filterMap (·.warning? lookup) := by
  rw [List.filter_filterMap, List.filterMap_filter]
  refine List.filterMap_congr fun c _ => ?_
  cases hc : c.warning? lookup with
  | none => simp
  | some r => simp [Option.filter, names_of_warning? hc]

theorem filter_warnings_congr {name : String} (h : lookup' name = lookup name)
    (cs : List Checked) : (cs.filterMap (·.warning? lookup')).filter (Names name) =
      (cs.filterMap (·.warning? lookup)).filter (Names name) := by
  rw [filter_warnings, filter_warnings]
  refine List.filterMap_congr fun c hc => ?_
  have hname : c.name = name := by simpa using (List.mem_filter.mp hc).2
  simp only [Checked.warning?, said, hname, h]

/-- A variable for which a setting has no value in some cases is checked, once. -/
theorem checked_governor : ∀ t ∈ settings, ∀ g, t.slot.governor = some g →
    (∀ v, g.2 v ≠ none) ∨
      ∃ complaint, checked.filter (·.name = g.1) = [.parsed g.1 complaint g.2] := by
  refine forall_settings ?_ ?_ ?_ ?_
  · simp only [ClientSettings.slots, List.forall_mem_cons]
    refine ⟨?_, ?_, ?_, ?_, ?_, ?_, List.forall_mem_nil _⟩ <;> rintro g ⟨⟩
    · exact .inl fun _ => Option.some_ne_none _
    all_goals exact .inr ⟨_, rfl⟩
  · simp only [ProxyConfig.slots, List.forall_mem_cons]
    refine ⟨?_, ?_, ?_, List.forall_mem_nil _⟩ <;> rintro g ⟨⟩ <;>
      exact .inl fun _ => Option.some_ne_none _
  · simp only [Backoff.slots, List.forall_mem_cons]
    refine ⟨?_, ?_, ?_, List.forall_mem_nil _⟩ <;> rintro g ⟨⟩
  · simp only [LoggingSettings.slots, List.forall_mem_cons]
    refine ⟨?_, ?_, List.forall_mem_nil _⟩ <;> rintro g ⟨⟩
    exact .inl fun _ => Option.some_ne_none _

end Override

open Override

variable {lookup : String → Option String} {s : ClientSettings}

theorem Slot.fromEnvironment_eq_some {ρ : Type} {e : Slot ρ} {a : e.Value} :
    e.fromEnvironment lookup = some a ↔ ∃ g v, e.governor = some g ∧ lookup g.1 = some v ∧ v ≠ ""
      ∧ g.2 v = some a := by
  simp only [fromEnvironment, Option.bind_eq_some_iff, said_eq_some, and_assoc]
  constructor
  · rintro ⟨g, hg, v, hv, hempty, ha⟩
    exact ⟨g, v, hg, hv, hempty, ha⟩
  · rintro ⟨g, v, hg, hv, hempty, ha⟩
    exact ⟨g, hg, v, hv, hempty, ha⟩

/-- What the environment makes of settings, and what is said about it. -/
structure FieldByField (lookup : String → Option String) (s final : ClientSettings)
    (journal : Journal) : Prop where
  /-- A setting changes only if its variable is set, not empty and valid. -/
  changed : ∀ t ∈ settings, t.slot.read final ≠ t.slot.read s →
    ∃ g v, t.slot.governor = some g ∧ lookup g.1 = some v ∧ v ≠ ""
      ∧ g.2 v = some (t.slot.read final)
  /-- And then to what the variable stands for. -/
  taken : ∀ t ∈ settings, ∀ g v a, t.slot.governor = some g → lookup g.1 = some v → v ≠ "" →
    g.2 v = some a → t.slot.read final = a
  /-- A variable that is set, not empty and invalid leaves its setting, and one warning names it,
  with its value as it was set. -/
  refused : ∀ t ∈ settings, ∀ g v, t.slot.governor = some g → lookup g.1 = some v → v ≠ "" →
    g.2 v = none → t.slot.read final = t.slot.read s
      ∧ ∃ complaint, journal.filter (Names g.1) =
        [{ level := .warn, message := complaint, fields := [("key", g.1), ("value", v)] }]
  /-- Nothing else is said, and the warnings come in the order of the variables. -/
  told : journal = checked.filterMap (·.warning? lookup)
  discovery : final.discovery = s.discovery
  json : final.logging.json = s.logging.json
  credentials : final.proxy.credentials = s.proxy.credentials
  /-- What comes of a variable, and is said about it, is the same whatever the other variables and
  settings are. -/
  own : ∀ name lookup' s', lookup' name = lookup name →
    (∀ t ∈ settings, t.slot.governor.map (·.1) = some name → t.slot.read s' = t.slot.read s →
      t.slot.read (s'.override lookup').1 = t.slot.read final)
    ∧ (s'.override lookup').2.filter (Names name) = journal.filter (Names name)
  /-- A second time nothing changes, and the same is said. -/
  again : final.override lookup = (final, journal)

namespace ClientSettings

theorem override_told : (s.override lookup).2 = checked.filterMap (·.warning? lookup) :=
  checks_all.told

theorem override_discovery : (s.override lookup).1.discovery = s.discovery :=
  applyEach_keeps (by simp [all, keeps_parsed, keeps_taken]) s

theorem override_json : (s.override lookup).1.logging.json = s.logging.json :=
  have hkeeps : ∀ o ∈ all, o.Keeps fun s => s.logging.json := by
    simp [all, keeps_parsed, keeps_taken]
  applyEach_keeps hkeeps s

theorem override_credentials : (s.override lookup).1.proxy.credentials = s.proxy.credentials :=
  have hkeeps : ∀ o ∈ all, o.Keeps fun s => s.proxy.credentials := by
    simp [all, keeps_parsed, keeps_taken]
  applyEach_keeps hkeeps s

variable {t : Setting}

theorem override_changed (ht : t ∈ settings)
    (hne : t.slot.read (s.override lookup).1 ≠ t.slot.read s) :
    ∃ g v, t.slot.governor = some g ∧ lookup g.1 = some v ∧ v ≠ ""
      ∧ g.2 v = some (t.slot.read (s.override lookup).1) := by
  have hread : t.slot.read (s.override lookup).1 = _ := override_read t ht
  cases hsaid : t.slot.fromEnvironment lookup with
  | none =>
    rw [hsaid] at hread
    exact absurd hread hne
  | some a =>
    rw [hsaid] at hread
    obtain ⟨g, v, hg, hv, hempty, ha⟩ := Slot.fromEnvironment_eq_some.mp hsaid
    exact ⟨g, v, hg, hv, hempty, ha.trans (congrArg some hread.symm)⟩

variable {g : String × (String → Option t.slot.Value)} {v : String} {a : t.slot.Value}

theorem override_taken (ht : t ∈ settings) (hg : t.slot.governor = some g)
    (hv : lookup g.1 = some v) (hempty : v ≠ "") (ha : g.2 v = some a) :
    t.slot.read (s.override lookup).1 = a := by
  rw [override_read t ht, Slot.fromEnvironment_eq_some.mpr ⟨g, v, hg, hv, hempty, ha⟩]
  rfl

theorem override_refused (ht : t ∈ settings) (hg : t.slot.governor = some g)
    (hsaid : said lookup g.1 = some v) (hnone : g.2 v = none) :
    t.slot.read (s.override lookup).1 = t.slot.read s := by
  have hfrom : t.slot.fromEnvironment lookup = none := by
    simp only [Slot.fromEnvironment, hg, Option.bind_some, hsaid, hnone]
  rw [override_read t ht, hfrom]
  rfl

/-- A variable that has no value for its setting is one that is checked, and what is said of it is
all that names it. -/
theorem override_warned (ht : t ∈ settings) (hg : t.slot.governor = some g)
    (hsaid : said lookup g.1 = some v) (hnone : g.2 v = none) :
    ∃ complaint, (s.override lookup).2.filter (Names g.1) =
      [{ level := .warn, message := complaint, fields := [("key", g.1), ("value", v)] }] := by
  obtain halways | ⟨complaint, hchecked⟩ := checked_governor t ht g hg
  · exact absurd hnone (halways v)
  · refine ⟨complaint, ?_⟩
    rw [override_told, filter_warnings, hchecked, List.filterMap_cons, warning?_parsed hsaid,
      hnone]
    rfl

theorem override_read_congr {s' : ClientSettings} {lookup' : String → Option String}
    (ht : t ∈ settings) (hsame : t.slot.read s' = t.slot.read s)
    (hlookup : ∀ g, t.slot.governor = some g → lookup' g.1 = lookup g.1) :
    t.slot.read (s'.override lookup').1 = t.slot.read (s.override lookup).1 := by
  rw [override_read t ht, override_read t ht, hsame, t.slot.fromEnvironment_congr hlookup]

theorem override_again : (s.override lookup).1.override lookup = s.override lookup := by
  refine Prod.ext (settings_complete fun t ht => ?_) (override_told.trans override_told.symm)
  rw [override_read t ht, override_read t ht]
  cases t.slot.fromEnvironment lookup <;> rfl

/-- **The environment overrides each setting by its own variable.** An invalid value leaves the
setting and is warned about once, in the order of the variables; nothing else is changed or said,
and overriding again changes nothing. -/
theorem override_field_by_field (lookup : String → Option String) (s : ClientSettings) :
    FieldByField lookup s (s.override lookup).1 (s.override lookup).2 := by
  refine ⟨fun t ht => override_changed ht, fun t ht g v a => override_taken ht, ?refused,
    override_told, override_discovery, override_json, override_credentials, ?own, override_again⟩
  case refused =>
    intro t ht g v hg hv hempty hnone
    have hsaid := said_eq_some.mpr ⟨hv, hempty⟩
    exact ⟨override_refused ht hg hsaid hnone, override_warned ht hg hsaid hnone⟩
  case own =>
    intro name lookup' s' hname
    constructor
    · intro t ht hgovernor hsame
      refine override_read_congr ht hsame fun g hg => ?_
      rw [hg] at hgovernor
      obtain rfl := Option.some.inj hgovernor
      exact hname
    · rw [override_told, override_told, filter_warnings_congr hname]

end ClientSettings

end GatewayClient
