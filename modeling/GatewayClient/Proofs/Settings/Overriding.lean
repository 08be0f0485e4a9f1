import GatewayClient.Proofs.Settings.Wire
import GatewayClient.Settings.Override

/-!
# The settings one by one

A setting is named by where a file gives it: a key, within the file or within one of its three
objects. The table `settings` has a row for each, with the decoder of its value and the variable
that governs it, if there is one. One variable has two rows, `RELAY_PROXY_URL`, and the settings
with no variable have none.

What the environment makes of a record of settings is told row by row: a setting is what its
variable says, if that is set, not empty and stands for a value, and what it was else
(`override_read`). The table is complete, so this says everything about the result.
-/

namespace GatewayClient

open Json

/-- A setting of a record: the key and the decoder of its value, how it is read in the record, and
the variable that governs it with what a text of it stands for. -/
structure Slot (ρ : Type) where
  {Value : Type}
  key : String
  decode : Json → Decoded Value
  read : ρ → Value
  governor : Option (String × (String → Option Value)) := none

/-- The text of a variable that is set and not empty. -/
def Override.said (lookup : String → Option String) (name : String) : Option String :=
  (lookup name).filter fun v => !v.isEmpty

namespace Slot

variable {ρ σ : Type}

/-- A setting of a part of a record. -/
def within (part : σ → ρ) (slot : Slot ρ) : Slot σ :=
  { slot with read := fun s => slot.read (part s) }

/-- What the environment says about a setting. A variable that is empty, or stands for no value of
the setting, says nothing. -/
def fromEnvironment (slot : Slot ρ) (lookup : String → Option String) : Option slot.Value :=
  slot.governor.bind fun g => (Override.said lookup g.1).bind g.2

end Slot

def ProxyConfig.slots : List (Slot ProxyConfig) :=
  [{ key := "mode", decode := ProxyMode.ofJson, read := mode,
     governor := some ("RELAY_PROXY_URL", fun _ => some .url) },
   { key := "url", decode := decodeOption decodeString, read := url,
     governor := some ("RELAY_PROXY_URL", fun v => some (some v)) },
   { key := "credentials", decode := decodeOption ProxyCredentials.ofJson, read := credentials }]

def Backoff.slots : List (Slot Backoff) :=
  [{ key := "baseDelayMs", decode := decodeUInt64, read := baseDelayMs },
   { key := "maxDelayMs", decode := decodeUInt64, read := maxDelayMs },
   { key := "jitterFactor", decode := decodeDouble, read := jitterFactor }]

def LoggingSettings.slots : List (Slot LoggingSettings) :=
  [{ key := "level", decode := decodeString, read := level,
     governor := some ("RELAY_LOG_LEVEL", some) },
   { key := "json", decode := decodeBool, read := json }]

/-- The settings that stand at the top of a file. -/
def ClientSettings.slots : List (Slot ClientSettings) :=
  [{ key := "token", decode := decodeOption decodeString, read := token,
     governor := some ("RELAY_TOKEN", fun v => some (some v)) },
   { key := "accountType", decode := AccountType.ofJson, read := accountType,
     governor := some ("RELAY_ACCOUNT_TYPE", AccountType.ofName?) },
   { key := "currentShard", decode := decodeUInt32, read := currentShard,
     governor := some ("RELAY_CURRENT_SHARD", (uint32InRange? · 0 0xFFFFFFFE)) },
   { key := "totalShards", decode := decodeUInt32, read := totalShards,
     governor := some ("RELAY_TOTAL_SHARDS", (uint32InRange? · 1 0xFFFFFFFF)) },
   { key := "waitForServersOnStartup", decode := decodeBool, read := waitForServersOnStartup,
     governor := some ("RELAY_WAIT_FOR_SERVERS", boolOfWord?) },
   { key := "trustAllCertificates", decode := decodeBool, read := trustAllCertificates,
     governor := some ("RELAY_TRUST_ALL_CERTIFICATES", boolOfWord?) }]

/-- A setting with the object that holds it in a file, if it is not the file itself. -/
structure Setting where
  group? : Option String
  slot : Slot ClientSettings

/-- All settings. -/
def settings : List Setting :=
  ClientSettings.slots.map (Setting.mk none) ++
    ProxyConfig.slots.map (fun e => ⟨some "proxy", e.within ClientSettings.proxy⟩) ++
    Backoff.slots.map (fun e => ⟨some "discovery", e.within ClientSettings.discovery⟩) ++
    LoggingSettings.slots.map (fun e => ⟨some "logging", e.within ClientSettings.logging⟩)

/-- A property of every setting, record by record. -/
theorem forall_settings {P : Setting → Prop}
    (top : ∀ e ∈ ClientSettings.slots, P ⟨none, e⟩)
    (proxy : ∀ e ∈ ProxyConfig.slots, P ⟨some "proxy", e.within ClientSettings.proxy⟩)
    (discovery : ∀ e ∈ Backoff.slots, P ⟨some "discovery", e.within ClientSettings.discovery⟩)
    (logging : ∀ e ∈ LoggingSettings.slots, P ⟨some "logging", e.within ClientSettings.logging⟩) :
    ∀ t ∈ settings, P t := by
  simp only [settings, List.forall_mem_append, List.forall_mem_map]
  exact ⟨⟨⟨top, proxy⟩, discovery⟩, logging⟩

/-- Records that agree in every setting are the same. -/
theorem settings_complete {s t : ClientSettings}
    (h : ∀ e ∈ settings, e.slot.read s = e.slot.read t) : s = t := by
  obtain ⟨_, _, _, _, _, _, ⟨_, _, _⟩, ⟨_, _, _⟩, ⟨_, _⟩⟩ := s
  obtain ⟨_, _, _, _, _, _, ⟨_, _, _⟩, ⟨_, _, _⟩, ⟨_, _⟩⟩ := t
  simp only [settings, ClientSettings.slots, ProxyConfig.slots, Backoff.slots,
    LoggingSettings.slots, Slot.within, List.map_cons, List.map_nil, List.cons_append,
    List.nil_append, List.forall_mem_cons] at h
  simp [h]

/-! ## What the environment changes -/

namespace Override

variable {lookup : String → Option String} {o : Override} {s : ClientSettings} {α : Type}
  {get : ClientSettings → α} {slot : Slot ClientSettings}

theorem apply_unsaid (h : said lookup o.name = none) : o.apply lookup s = (s, []) := by
  unfold apply
  split
  · rfl
  · rename_i v hv
    have hempty : v.isEmpty = true := by simpa [said, hv] using h
    rw [if_pos hempty]

theorem apply_said {v : String} (h : said lookup o.name = some v) :
    (o.apply lookup s).1 = (o.put v s).toOption.getD s := by
  obtain ⟨hv, hempty⟩ := Option.filter_eq_some_iff.mp h
  have hempty : ¬ v.isEmpty = true := by simpa using hempty
  simp only [apply, hv, if_neg hempty]
  cases o.put v s <;> rfl

/-- An override that leaves a reading of the settings as it is. -/
def Keeps (o : Override) (get : ClientSettings → α) : Prop :=
  ∀ v s, get ((o.put v s).toOption.getD s) = get s

/-- An override that puts into a setting what its variable stands for. -/
def Governs (o : Override) (slot : Slot ClientSettings) : Prop :=
  ∃ parse?, slot.governor = some (o.name, parse?) ∧
    ∀ v s, slot.read ((o.put v s).toOption.getD s) = (parse? v).getD (slot.read s)

theorem Keeps.apply (h : o.Keeps get) : get (o.apply lookup s).1 = get s := by
  cases hs : said lookup o.name with
  | none => rw [apply_unsaid hs]
  | some v =>
    rw [apply_said hs]
    exact h v s

theorem Governs.apply (h : o.Governs slot) :
    slot.read (o.apply lookup s).1 = (slot.fromEnvironment lookup).getD (slot.read s) := by
  obtain ⟨parse?, hgovernor, hput⟩ := h
  simp only [Slot.fromEnvironment, hgovernor, Option.bind_some]
  cases hs : said lookup o.name with
  | none => rw [apply_unsaid hs]; rfl
  | some v =>
    rw [apply_said hs]
    exact hput v s

theorem applyEach_keeps {os : List Override} (h : ∀ o ∈ os, o.Keeps get) (s : ClientSettings) :
    get (applyEach lookup os s).1 = get s := by
  induction os generalizing s with
  | nil => rfl
  | cons o rest ih =>
    show get (applyEach lookup rest (o.apply lookup s).1).1 = _
    rw [ih (fun o ho => h o (List.mem_cons_of_mem _ ho)), (h o List.mem_cons_self).apply]

/-- A setting is governed by one override in a list, and the others leave it alone. -/
theorem applyEach_governs {before after : List Override} (h : o.Governs slot)
    (hb : ∀ o ∈ before, o.Keeps slot.read) (ha : ∀ o ∈ after, o.Keeps slot.read)
    (s : ClientSettings) :
    slot.read (applyEach lookup (before ++ o :: after) s).1 =
      (slot.fromEnvironment lookup).getD (slot.read s) := by
  induction before generalizing s with
  | nil =>
    show slot.read (applyEach lookup after (o.apply lookup s).1).1 = _
    rw [applyEach_keeps ha, h.apply]
  | cons b rest ih =>
    show slot.read (applyEach lookup (rest ++ o :: after) (b.apply lookup s).1).1 = _
    rw [ih (fun o ho => hb o (List.mem_cons_of_mem _ ho)), (hb b List.mem_cons_self).apply]

/-- How the overrides treat a setting: one of them governs it and the others leave it alone, or
none has to do with it. -/
inductive Treats (os : List Override) (slot : Slot ClientSettings) : Prop
  | governed (before : List Override) (o : Override) (after : List Override)
      (split : os = before ++ o :: after) (governs : o.Governs slot)
      (first : ∀ o ∈ before, o.Keeps slot.read) (last : ∀ o ∈ after, o.Keeps slot.read)
  | free (governor : slot.governor = none) (keeps : ∀ o ∈ os, o.Keeps slot.read)

theorem Treats.settles {os : List Override} (h : Treats os slot) :
    slot.read (applyEach lookup os s).1 = (slot.fromEnvironment lookup).getD (slot.read s) := by
  cases h with
  | governed before o after split governs first last =>
    rw [split]
    exact applyEach_governs governs first last s
  | free governor keeps =>
    rw [applyEach_keeps keeps]
    simp [Slot.fromEnvironment, governor]

theorem keeps_parsed {β : Type} {name complaint : String} {parse? : String → Option β}
    {write : β → ClientSettings → ClientSettings} (h : ∀ b s, get (write b s) = get s) :
    (parsed name complaint parse? write).Keeps get := by
  intro v s
  simp only [parsed]
  cases parse? v with
  | none => rfl
  | some b => exact h b s

theorem keeps_taken {name : String} {write : String → ClientSettings → ClientSettings}
    (h : ∀ v s, get (write v s) = get s) :
    Keeps ⟨name, fun v s => .ok (write v s)⟩ get :=
  h

theorem governs_parsed {key name complaint : String} {decode : Json → Decoded α}
    {parse? : String → Option α} {write : α → ClientSettings → ClientSettings}
    (h : ∀ a s, get (write a s) = a) :
    (parsed name complaint parse? write).Governs ⟨key, decode, get, some (name, parse?)⟩ := by
  refine ⟨parse?, rfl, fun v s => ?_⟩
  simp only [parsed]
  cases parse? v with
  | none => rfl
  | some a => exact h a s

theorem governs_taken {key name : String} {decode : Json → Decoded α}
    {parse? : String → Option α} {write : String → ClientSettings → ClientSettings}
    (h : ∀ v s, get (write v s) = (parse? v).getD (get s)) :
    Governs ⟨name, fun v s => .ok (write v s)⟩ ⟨key, decode, get, some (name, parse?)⟩ :=
  ⟨parse?, rfl, h⟩

/-- The override that governs a setting, by its place in the list. -/
theorem Treats.at {os : List Override} (k : Nat) (hk : os[k]? = some o) (h : o.Governs slot)
    (others : ∀ o ∈ os.eraseIdx k, o.Keeps slot.read) : Treats os slot := by
  rw [List.eraseIdx_eq_take_drop_succ, List.forall_mem_append] at others
  refine .governed (os.take k) o (os.drop (k + 1)) ?_ h others.1 others.2
  obtain ⟨hlt, rfl⟩ := List.getElem?_eq_some_iff.mp hk
  rw [← List.drop_eq_getElem_cons hlt, List.take_append_drop]

end Override

open Override

theorem ClientSettings.treats_slots : ∀ e ∈ slots, Treats all e := by
  simp only [slots, List.forall_mem_cons]
  refine ⟨.at 0 rfl (governs_taken fun _ _ => rfl) ?_, .at 1 rfl (governs_parsed fun _ _ => rfl) ?_,
    .at 3 rfl (governs_parsed fun _ _ => rfl) ?_, .at 2 rfl (governs_parsed fun _ _ => rfl) ?_,
    .at 4 rfl (governs_parsed fun _ _ => rfl) ?_, .at 5 rfl (governs_parsed fun _ _ => rfl) ?_,
    List.forall_mem_nil _⟩ <;>
    simp [all, keeps_parsed, keeps_taken]

theorem ProxyConfig.treats_slots : ∀ e ∈ slots, Treats all (e.within ClientSettings.proxy) := by
  simp only [slots, List.forall_mem_cons]
  refine ⟨.at 6 rfl (governs_taken fun _ _ => rfl) ?_, .at 6 rfl (governs_taken fun _ _ => rfl) ?_,
    .free rfl ?_, List.forall_mem_nil _⟩ <;>
    simp [all, keeps_parsed, keeps_taken, Slot.within]

theorem Backoff.treats_slots : ∀ e ∈ slots, Treats all (e.within ClientSettings.discovery) := by
  simp only [slots, List.forall_mem_cons]
  refine ⟨.free rfl ?_, .free rfl ?_, .free rfl ?_, List.forall_mem_nil _⟩ <;>
    simp [all, keeps_parsed, keeps_taken, Slot.within]

theorem LoggingSettings.treats_slots :
    ∀ e ∈ slots, Treats all (e.within ClientSettings.logging) := by
  simp only [slots, List.forall_mem_cons]
  refine ⟨.at 7 rfl (governs_taken fun _ _ => rfl) ?_, .free rfl ?_, List.forall_mem_nil _⟩ <;>
    simp [all, keeps_parsed, keeps_taken, Slot.within]

/-- Each setting is what the environment says about it, and what it was if the environment says
nothing. -/
theorem ClientSettings.override_read {s : ClientSettings} {lookup : String → Option String} :
    ∀ t ∈ settings, t.slot.read (s.override lookup).1 =
      (t.slot.fromEnvironment lookup).getD (t.slot.read s) :=
  forall_settings (fun e he => (ClientSettings.treats_slots e he).settles)
    (fun e he => (ProxyConfig.treats_slots e he).settles)
    (fun e he => (Backoff.treats_slots e he).settles)
    (fun e he => (LoggingSettings.treats_slots e he).settles)

end GatewayClient
