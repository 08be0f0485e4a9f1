import GatewayClient.Event
import GatewayClient.Proofs.Settings.Layers
import GatewayClient.Proofs.Wire.Edits

/-!
# Encodings stand edits

Events, proxies, backoffs and settings are written as objects and read again as the same values
(`edits_decode`), also where a field that has its default was left out or something unknown was
added, at any depth. For each type the schema tells the fields as they are written, without the
decoder; that the encoding is written so (`written`) and that the decoder reads each field
(`decodes`) is all that there is to show. A field that is a record itself may stand in any form that
edits make of the record's own encoding, so the types build on each other from the inside out.

Jitters are compared as numbers: minus zero equals the default, and where it is left out zero is
read. For a jitter that is not finite the encoding has `null`, which is not read.
-/

namespace GatewayClient

open Json Relation

variable {v : Json}

theorem Json.decodeOption_of_ok {α : Type} {decode : Json → Decoded α} {a : α}
    (hnull : ∀ a, decode .null ≠ .ok a) (h : decode v = .ok a) :
    decodeOption decode v = .ok (some a) := by
  cases v with
  | null => exact absurd h (hnull a)
  | _ => exact congrArg (Except.map some) h

/-- A finite double is equal to itself. -/
theorem Binary64.eqv_self {x : Binary64} (hfinite : x.isFinite = true) : x.eqv x = true := by
  cases x with
  | finite negative size => simp [eqv]
  | infinite | nan => cases hfinite

/-! ## Proxies -/

namespace ProxyCredentials

/-- Credentials under construction that are complete. -/
def draft (c : ProxyCredentials) : Draft := ⟨some c.username, some c.password⟩

/-- Credentials have no defaults: where nothing is written, the draft holds nothing. -/
def schema : Schema Draft where
  parts := [.present "username" Draft.username fun username v => v = .str username,
    .present "password" Draft.password fun password v => v = .str password]
  default := {}
  distinct := by decide

/-- What edits make of the encoding of credentials. -/
def Edited (c : ProxyCredentials) : Json → Prop := ReflTransGen (schema.Edit c.draft) c.toJson

theorem written (c : ProxyCredentials) : schema.Written c.draft c.toJson.entries where
  ordered := by
    refine .of_keys ?_
    show ["password", "username"].Pairwise (· < ·)
    decide
  held := by
    simp only [schema, List.forall_mem_cons]
    exact ⟨⟨_, rfl, rfl⟩, ⟨_, rfl, rfl⟩, List.forall_mem_nil _⟩

theorem reads_username :
    Reads fields "username" (fun v => (decodeString v).map some) Draft.username :=
  .required (fun o d => { d with username := o }) rfl (fun _ _ => rfl)
    (by simp [fields, keeps_field])

theorem reads_password :
    Reads fields "password" (fun v => (decodeString v).map some) Draft.password :=
  .required (fun o d => { d with password := o }) rfl (fun _ _ => rfl)
    (by simp [fields, keeps_field])

theorem decodes (c : ProxyCredentials) : schema.Decodes fields c.draft where
  names := by simp [fields, schema, Part.present]
  restores := by
    simp only [schema, List.forall_mem_cons]
    refine ⟨reads_username.restores_present ?_, reads_password.restores_present ?_,
      List.forall_mem_nil _⟩ <;>
    · rintro a v rfl
      rfl

theorem ofJson_edited {c : ProxyCredentials} (hedited : c.Edited v) : ofJson v = .ok c := by
  obtain ⟨d, hsame, hdecode⟩ := c.written.decodes c.decodes hedited
  simp only [schema, Schema.Same, List.forall_mem_cons] at hsame
  obtain ⟨husername, hpassword, -⟩ := hsame
  have hd : c.draft = d := by
    cases d
    exact (Draft.mk.injEq ..).mpr ⟨husername, hpassword⟩
  subst hd
  exact hdecode _ finish

end ProxyCredentials

namespace ProxyConfig

def schema : Schema ProxyConfig where
  parts := [.plain "mode" mode fun m => .str m.name,
    .present "url" url fun url v => v = .str url,
    .present "credentials" credentials ProxyCredentials.Edited]
  default := {}
  distinct := by decide

/-- What edits make of the encoding of a proxy. -/
def Edited (p : ProxyConfig) : Json → Prop := ReflTransGen (schema.Edit p) p.toJson

theorem written (p : ProxyConfig) : schema.Written p p.toJson.entries where
  ordered := p.ordered_toJson
  held := by
    obtain ⟨mode, url, credentials⟩ := p
    simp only [schema, List.forall_mem_cons]
    refine ⟨?_, ?_, ?_, List.forall_mem_nil _⟩
    · cases credentials <;> rfl
    · cases credentials <;> cases url
      · rfl
      · exact ⟨_, rfl, rfl⟩
      · rfl
      · exact ⟨_, rfl, rfl⟩
    · cases credentials
      · cases url <;> rfl
      · exact ⟨_, rfl, .refl⟩

theorem decodes (p : ProxyConfig) : schema.Decodes fields p where
  names := by simp [fields, schema, Part.plain, Part.present]
  restores := by
    have hreads := slots_read
    simp only [slots, List.forall_mem_cons] at hreads
    obtain ⟨hmode, hurl, hcredentials, -⟩ := hreads
    simp only [schema, List.forall_mem_cons]
    refine ⟨hmode.restores_plain (ProxyMode.ofJson_name _), hurl.restores_present ?_,
      hcredentials.restores_present ?_, List.forall_mem_nil _⟩
    · rintro url v rfl
      rfl
    · intro c v hedited
      refine decodeOption_of_ok (fun a hnull => ?_) (ProxyCredentials.ofJson_edited hedited)
      cases hnull

theorem ofJson_edited {p : ProxyConfig} (hedited : p.Edited v) : ofJson v = .ok p := by
  obtain ⟨q, hsame, hdecode⟩ := p.written.decodes p.decodes hedited
  simp only [schema, Schema.Same, List.forall_mem_cons] at hsame
  obtain ⟨hmode, hurl, hcredentials, -⟩ := hsame
  have hq : p = q := by
    cases p
    cases q
    exact (mk.injEq ..).mpr ⟨hmode, hurl, hcredentials⟩
  subst hq
  exact hdecode _ fun _ q => .ok q

end ProxyConfig

/-! ## Backoffs -/

namespace Backoff

/-- Jitters are equal as numbers. -/
def schema : Schema Backoff where
  parts := [.plain "baseDelayMs" baseDelayMs fun ms => .ofInt ms.toNat,
    .plain "maxDelayMs" maxDelayMs fun ms => .ofInt ms.toNat,
    { name := "jitterFactor"
      read := jitterFactor
      Same := fun x y => x.eqv y = true
      Form := fun x v => v = .ofDouble x }]
  default := {}
  distinct := by decide

/-- What edits make of the encoding of a backoff. -/
def Edited (b : Backoff) : Json → Prop := ReflTransGen (schema.Edit b) b.toJson

theorem written (b : Backoff) : schema.Written b b.toJson.entries where
  ordered := b.ordered_toJson
  held := by
    simp only [schema, List.forall_mem_cons]
    exact ⟨rfl, rfl, rfl, List.forall_mem_nil _⟩

theorem decodes {b : Backoff} (hfinite : b.jitterFactor.isFinite = true) :
    schema.Decodes fields b where
  names := by simp [fields, schema, Part.plain]
  restores := by
    have hreads := slots_read
    simp only [slots, List.forall_mem_cons] at hreads
    obtain ⟨hbase, hmax, hjitter, -⟩ := hreads
    simp only [schema, List.forall_mem_cons]
    refine ⟨hbase.restores_plain (decodeUInt64_ofInt _), hmax.restores_plain (decodeUInt64_ofInt _),
      ⟨_, hjitter, ?_⟩, List.forall_mem_nil _⟩
    rintro v rfl
    exact ⟨_, decodeDouble_ofDouble hfinite, Binary64.eqv_self hfinite⟩

theorem ofJson_edited {b : Backoff} (hfinite : b.jitterFactor.isFinite = true)
    (hedited : b.Edited v) : ∃ c, ofJson v = .ok c ∧ b.eqv c = true := by
  obtain ⟨c, hsame, hdecode⟩ := b.written.decodes (decodes hfinite) hedited
  simp only [schema, Schema.Same, Part.plain, List.forall_mem_cons] at hsame
  obtain ⟨hbase, hmax, hjitter, -⟩ := hsame
  refine ⟨c, hdecode _ fun _ c => .ok c, ?_⟩
  unfold eqv
  rw [beq_iff_eq.mpr hbase, beq_iff_eq.mpr hmax, hjitter]
  rfl

/-- A backoff comes back from its encoding exactly if its jitter is finite. -/
theorem ofJson_toJson_iff {b : Backoff} :
    ofJson b.toJson = .ok b ↔ b.jitterFactor.isFinite = true := by
  refine ⟨fun hdecodes => ?_, ofJson_toJson⟩
  have hreads := slots_read
  simp only [slots, List.forall_mem_cons] at hreads
  obtain ⟨-, -, hjitter, -⟩ := hreads
  have hdouble : decodeDouble (.ofDouble b.jitterFactor) = .ok b.jitterFactor :=
    hjitter.putEntries b.ordered_toJson ((decodeDefaulted_obj ..).symm.trans hdecodes)
  unfold ofDouble at hdouble
  split at hdouble
  · assumption
  · cases hdouble

end Backoff

/-! ## Settings -/

namespace LoggingSettings

def schema : Schema LoggingSettings where
  parts := [.plain "level" level .str, .plain "json" json .bool]
  default := {}
  distinct := by decide

/-- What edits make of the encoding of logging settings. -/
def Edited (l : LoggingSettings) : Json → Prop := ReflTransGen (schema.Edit l) l.toJson

theorem written (l : LoggingSettings) : schema.Written l l.toJson.entries where
  ordered := l.ordered_toJson
  held := by
    simp only [schema, List.forall_mem_cons]
    exact ⟨rfl, rfl, List.forall_mem_nil _⟩

theorem decodes (l : LoggingSettings) : schema.Decodes fields l where
  names := by simp [fields, schema, Part.plain]
  restores := by
    have hreads := slots_read
    simp only [slots, List.forall_mem_cons] at hreads
    obtain ⟨hlevel, hjson, -⟩ := hreads
    simp only [schema, List.forall_mem_cons]
    exact ⟨hlevel.restores_plain rfl, hjson.restores_plain rfl, List.forall_mem_nil _⟩

theorem ofJson_edited {l : LoggingSettings} (hedited : l.Edited v) : ofJson v = .ok l := by
  obtain ⟨m, hsame, hdecode⟩ := l.written.decodes l.decodes hedited
  simp only [schema, Schema.Same, List.forall_mem_cons] at hsame
  obtain ⟨hlevel, hjson, -⟩ := hsame
  have hm : l = m := by
    cases l
    cases m
    exact (mk.injEq ..).mpr ⟨hlevel, hjson⟩
  subst hm
  exact hdecode _ fun _ m => .ok m

end LoggingSettings

namespace ClientSettings

/-- Equality of settings, with the backoffs compared as such. -/
def Equals (s t : ClientSettings) : Prop :=
  t = { s with discovery := t.discovery } ∧ s.discovery.eqv t.discovery = true

def schema : Schema ClientSettings where
  parts := [.present "token" token fun token v => v = .str token,
    .plain "accountType" accountType AccountType.toJson,
    .plain "currentShard" currentShard fun n => .ofInt n.toNat,
    .plain "totalShards" totalShards fun n => .ofInt n.toNat,
    .plain "waitForServersOnStartup" waitForServersOnStartup .bool,
    .plain "trustAllCertificates" trustAllCertificates .bool,
    { name := "proxy", read := proxy, Form := ProxyConfig.Edited },
    { name := "discovery"
      read := discovery
      Same := fun b c => b.eqv c = true
      Form := Backoff.Edited },
    { name := "logging", read := logging, Form := LoggingSettings.Edited }]
  default := {}
  distinct := by decide

/-- What edits make of the encoding of settings. -/
def Edited (s : ClientSettings) : Json → Prop := ReflTransGen (schema.Edit s) s.toJson

theorem written (s : ClientSettings) : schema.Written s s.toJson.entries where
  ordered := s.ordered_toJson
  held := by
    obtain ⟨token, _, _, _, _, _, _, _, _⟩ := s
    simp only [schema, List.forall_mem_cons]
    cases token with
    | none =>
      exact ⟨rfl, rfl, rfl, rfl, rfl, rfl, .refl, .refl, .refl, List.forall_mem_nil _⟩
    | some token =>
      exact ⟨⟨token, rfl, rfl⟩, rfl, rfl, rfl, rfl, rfl, .refl, .refl, .refl,
        List.forall_mem_nil _⟩

theorem decodes {s : ClientSettings} (hfinite : s.discovery.jitterFactor.isFinite = true) :
    schema.Decodes fields s where
  names := by simp [fields, schema, Part.plain, Part.present]
  restores := by
    have hreads := slots_read
    simp only [slots, List.forall_mem_cons] at hreads
    obtain ⟨htoken, haccount, hcurrent, htotal, hwaits, htrusts, -⟩ := hreads
    simp only [schema, List.forall_mem_cons]
    refine ⟨htoken.restores_present ?_, haccount.restores_plain (AccountType.ofJson_toJson _),
      hcurrent.restores_plain (decodeUInt32_ofInt _), htotal.restores_plain (decodeUInt32_ofInt _),
      hwaits.restores_plain rfl, htrusts.restores_plain rfl, ⟨_, reads_proxy, fun v hv => ?_⟩,
      ⟨_, reads_discovery, fun v hv => Backoff.ofJson_edited hfinite hv⟩,
      ⟨_, reads_logging, fun v hv => ?_⟩, List.forall_mem_nil _⟩
    · rintro token v rfl
      rfl
    · exact ⟨s.proxy, ProxyConfig.ofJson_edited hv, rfl⟩
    · exact ⟨s.logging, LoggingSettings.ofJson_edited hv, rfl⟩

theorem ofJson_edited {s : ClientSettings} (hfinite : s.discovery.jitterFactor.isFinite = true)
    (hedited : s.Edited v) : ∃ t, ofJson v = .ok t ∧ s.Equals t := by
  obtain ⟨t, hsame, hdecode⟩ := s.written.decodes (decodes hfinite) hedited
  simp only [schema, Schema.Same, List.forall_mem_cons] at hsame
  obtain ⟨htoken, haccount, hcurrent, htotal, hwaits, htrusts, hproxy, hdiscovery, hlogging, -⟩ :=
    hsame
  refine ⟨t, hdecode _ fun _ t => .ok t, ?_, hdiscovery⟩
  cases s
  cases t
  exact ((mk.injEq ..).mpr
    ⟨htoken, haccount, hcurrent, htotal, hwaits, htrusts, hproxy, rfl, hlogging⟩).symm

/-- Settings come back from their encoding exactly if the jitter is finite. -/
theorem ofJson_toJson_iff {s : ClientSettings} :
    ofJson s.toJson = .ok s ↔ s.discovery.jitterFactor.isFinite = true := by
  refine ⟨fun hdecodes => Backoff.ofJson_toJson_iff.mp ?_, ofJson_toJson⟩
  have hwritten : lookup "discovery" s.toJson.entries = some s.discovery.toJson := rfl
  have hread :=
    reads_discovery.putEntries s.ordered_toJson ((decodeDefaulted_obj ..).symm.trans hdecodes)
  rw [hwritten, Option.elim_some] at hread
  exact hread

end ClientSettings

/-! ## Events -/

namespace ListenerCategory

theorem ofJson_toJson (c : ListenerCategory) : ofJson c.toJson = .ok c := by
  cases c <;> rfl

end ListenerCategory

namespace GatewayEvent

/-- An event under construction that is complete. -/
def draft (e : GatewayEvent) : Draft := ⟨some e.category, some e.shard, e.payload⟩

/-- Of the fields of an event only the payload has a default. -/
def schema : Schema Draft where
  parts := [.present "category" Draft.category fun c v => v = c.toJson,
    .present "shard" Draft.shard fun n v => v = .ofInt n.toNat,
    .plain "payload" Draft.payload id]
  default := {}
  distinct := by decide

/-- What edits make of the encoding of an event. -/
def Edited (e : GatewayEvent) : Json → Prop := ReflTransGen (schema.Edit e.draft) e.toJson

theorem written (e : GatewayEvent) : schema.Written e.draft e.toJson.entries where
  ordered := by
    refine .of_keys ?_
    show ["category", "payload", "shard"].Pairwise (· < ·)
    decide
  held := by
    simp only [schema, List.forall_mem_cons]
    exact ⟨⟨_, rfl, rfl⟩, ⟨_, rfl, rfl⟩, rfl, List.forall_mem_nil _⟩

theorem reads_category :
    Reads fields "category" (fun v => (ListenerCategory.ofJson v).map some) Draft.category :=
  .required (fun o d => { d with category := o }) rfl (fun _ _ => rfl)
    (by simp [fields, keeps_field])

theorem reads_shard : Reads fields "shard" (fun v => (decodeUInt32 v).map some) Draft.shard :=
  .required (fun o d => { d with shard := o }) rfl (fun _ _ => rfl) (by simp [fields, keeps_field])

theorem reads_payload : Reads fields "payload" Except.ok Draft.payload :=
  ⟨⟨_, rfl, fun _ _ => rfl⟩, by simp [fields, keeps_field]⟩

theorem decodes (e : GatewayEvent) : schema.Decodes fields e.draft where
  names := by simp [fields, schema, Part.plain, Part.present]
  restores := by
    simp only [schema, List.forall_mem_cons]
    refine ⟨reads_category.restores_present ?_, reads_shard.restores_present ?_,
      reads_payload.restores_plain rfl, List.forall_mem_nil _⟩
    · rintro c v rfl
      rw [c.ofJson_toJson]
      rfl
    · rintro n v rfl
      rw [decodeUInt32_ofInt]
      rfl

theorem ofJson_edited {e : GatewayEvent} (hedited : e.Edited v) : ofJson v = .ok e := by
  obtain ⟨d, hsame, hdecode⟩ := e.written.decodes e.decodes hedited
  simp only [schema, Schema.Same, List.forall_mem_cons] at hsame
  obtain ⟨hcategory, hshard, hpayload, -⟩ := hsame
  have hd : e.draft = d := by
    cases d
    exact (Draft.mk.injEq ..).mpr ⟨hcategory, hshard, hpayload⟩
  subst hd
  exact hdecode _ finish

end GatewayEvent

/-- **What is written is read again, and so is what others make of it.** Events, proxies, backoffs
and settings decode from their encodings, the latter two exactly if the jitter is finite. However
often a field that has its default is then left out, or an entry under a key that is no field's is
added, in the object or in the one of a record within it, what is decoded stays equal; for an event
only a payload that is `null` is left out, and nothing is edited within the payload. -/
theorem edits_decode (e : GatewayEvent) (p : ProxyConfig) (b : Backoff) (s : ClientSettings) :
    (GatewayEvent.ofJson e.toJson = .ok e ∧ ∀ v, e.Edited v → GatewayEvent.ofJson v = .ok e)
      ∧ (ProxyConfig.ofJson p.toJson = .ok p ∧ ∀ v, p.Edited v → ProxyConfig.ofJson v = .ok p)
      ∧ ((Backoff.ofJson b.toJson = .ok b ↔ b.jitterFactor.isFinite = true)
        ∧ (b.jitterFactor.isFinite = true → ∀ v, b.Edited v →
          ∃ c, Backoff.ofJson v = .ok c ∧ b.eqv c = true))
      ∧ (ClientSettings.ofJson s.toJson = .ok s ↔ s.discovery.jitterFactor.isFinite = true)
      ∧ (s.discovery.jitterFactor.isFinite = true → ∀ v, s.Edited v →
        ∃ t, ClientSettings.ofJson v = .ok t ∧ s.Equals t) :=
  ⟨⟨GatewayEvent.ofJson_edited .refl, fun _ => GatewayEvent.ofJson_edited⟩,
    ⟨p.ofJson_toJson, fun _ => ProxyConfig.ofJson_edited⟩,
    ⟨Backoff.ofJson_toJson_iff, fun hfinite _ => Backoff.ofJson_edited hfinite⟩,
    ClientSettings.ofJson_toJson_iff, fun hfinite _ => ClientSettings.ofJson_edited hfinite⟩

/-! Settings with a jitter of minus zero. Without this jitter, without one of the numbers of shards
and with a note they are still the same settings. -/

def notedSettings : ClientSettings := { discovery := ⟨500, 60000, .finite true .zero⟩ }

def notedDiscovery : Json := .obj (without "jitterFactor" notedSettings.discovery.toJson.entries)

def notedJson : Json :=
  .obj (insertEntry "note" .null
    (insertEntry "discovery" notedDiscovery (without "totalShards" notedSettings.toJson.entries)))

theorem edited_notedDiscovery : notedSettings.discovery.Edited notedDiscovery := by
  have hjitter := List.mem_of_getElem? (l := Backoff.schema.parts) (i := 2) rfl
  have hdefault : (Binary64.finite true .zero).eqv .zero = true := by decide
  exact .single (.drops (S := Backoff.schema) hjitter hdefault)

theorem edited_notedJson : notedSettings.Edited notedJson := by
  have htotal := List.mem_of_getElem? (l := ClientSettings.schema.parts) (i := 3) rfl
  have hdiscovery := List.mem_of_getElem? (l := ClientSettings.schema.parts) (i := 7) rfl
  have hunknown : "note" ∉ ClientSettings.schema.parts.map Part.name := by decide
  have hdrops : ReflTransGen (ClientSettings.schema.Edit notedSettings) notedSettings.toJson _ :=
    .single (.drops htotal rfl)
  exact (hdrops.tail (.rewrites hdiscovery edited_notedDiscovery)).tail (.adds hunknown)

theorem edits_decode_noted :
    notedSettings.Edited notedJson
      ∧ ∃ t, ClientSettings.ofJson notedJson = .ok t ∧ notedSettings.Equals t :=
  ⟨edited_notedJson,
    (edits_decode ⟨.resume, 0, .null⟩ {} {} notedSettings).2.2.2.2 rfl _ edited_notedJson⟩

end GatewayClient
