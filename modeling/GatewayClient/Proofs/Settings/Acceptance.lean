import GatewayClient.Client.Basic
import GatewayClient.Proofs.Login.Batch
import GatewayClient.Proofs.Settings.Layers

/-!
# Valid settings configure a client

Settings are checked twice on their way into a client: as a whole by `ClientSettings.validate`, and
again by the checks that the client makes of its numbers and its backoff. `validate_eq_ok` says what
the first accepts, and the second then has nothing left to refuse (`ofSettings_valid`). So a client
comes from settings exactly if they are valid, and has them all; a load checks before it returns, so
what it returns configures a client (`valid_configure_client`).
-/

namespace GatewayClient

variable {s : ClientSettings} {c : Client}

/-- A client is configured as settings say, and in nothing else: it knows no gateway, and nobody
listens. -/
structure Client.Carries (c : Client) (s : ClientSettings) : Prop where
  credential : c.credential = s.token.map Credential.mk
  accountType : c.accountType = s.accountType
  current : c.numbering.index = s.currentShard
  total : c.numbering.total = s.totalShards
  waits : c.waitForServersOnStartup = s.waitForServersOnStartup
  trusts : c.trustAllCertificates = s.trustAllCertificates
  proxy : c.proxy = s.proxy
  backoff : c.backoff = s.discovery
  endpoint : c.endpoint = none
  listeners : c.listeners = {}

/-! ## The two checks -/

namespace ClientSettings

theorem validate_eq_ok :
    s.validate = .ok () ↔
      s.currentShard < s.totalShards ∧ ¬ (s.proxy.mode = .url ∧ s.proxy.url = none) ∧
        s.discovery.validate = .ok () := by
  unfold validate
  constructor
  · intro hvalid
    split at hvalid
    · cases hvalid
    · next a hnumbering =>
      obtain ⟨hindex, htotal⟩ := ShardAssignment.eq_of_ofPair hnumbering
      split at hvalid
      · cases hvalid
      · next hproxy =>
        split at hvalid
        · cases hvalid
        · next hbackoff => exact ⟨hindex ▸ htotal ▸ a.index_lt_total, hproxy, hbackoff⟩
  · rintro ⟨hnumbers, hproxy, hbackoff⟩
    have hnumbering := ShardAssignment.ofPair_self ⟨s.currentShard, s.totalShards, hnumbers⟩
    dsimp only at hnumbering
    rw [hnumbering]
    dsimp only
    rw [if_neg hproxy, hbackoff]

end ClientSettings

namespace Client

theorem ofSettings_invalid {conflict : SettingsConflict} (h : s.validate = .error conflict) :
    ofSettings s = .error (.configuration conflict.report) := by
  simp only [ofSettings, h]

/-- The checks of the client find nothing more in valid settings. -/
theorem ofSettings_valid (h : s.validate = .ok ()) :
    ∃ c, ofSettings s = .ok c ∧ c.Carries s := by
  obtain ⟨hnumbers, -, hbackoff⟩ := ClientSettings.validate_eq_ok.mp h
  have hnumbering := ShardAssignment.ofPair_self ⟨s.currentShard, s.totalShards, hnumbers⟩
  dsimp only at hnumbering
  refine ⟨_, by simp only [ofSettings, h, hnumbering, setBackoff, hbackoff]; rfl, ?_⟩
  constructor <;> rfl

theorem exists_ofSettings : (∃ c, ofSettings s = .ok c) ↔ s.validate = .ok () := by
  constructor
  · rintro ⟨c, hmade⟩
    cases hvalid : s.validate with
    | ok => rfl
    | error conflict =>
      rw [ofSettings_invalid hvalid] at hmade
      cases hmade
  · intro hvalid
    obtain ⟨c, hmade, -⟩ := ofSettings_valid hvalid
    exact ⟨c, hmade⟩

theorem carries_ofSettings (hmade : ofSettings s = .ok c) : c.Carries s := by
  obtain ⟨c', hmade', hcarries⟩ := ofSettings_valid (exists_ofSettings.mp ⟨c, hmade⟩)
  rw [hmade] at hmade'
  cases hmade'
  exact hcarries

theorem ofSettings_eq_error {e : ClientError} :
    ofSettings s = .error e ↔
      ∃ conflict, s.validate = .error conflict ∧ e = .configuration conflict.report := by
  constructor
  · intro hrefused
    cases hvalid : s.validate with
    | ok =>
      obtain ⟨c, hmade, -⟩ := ofSettings_valid hvalid
      rw [hrefused] at hmade
      cases hmade
    | error conflict =>
      rw [ofSettings_invalid hvalid] at hrefused
      cases hrefused
      exact ⟨conflict, rfl, rfl⟩
  · rintro ⟨conflict, hinvalid, rfl⟩
    exact ofSettings_invalid hinvalid

end Client

/-! ## Loaded settings -/

namespace ClientSettings

variable {path : String} {file : SettingsFile} {lookup : String → Option String}

theorem validate_of_finish {s₀ : ClientSettings} (h : (s₀.finish lookup).1 = .ok s) :
    s.validate = .ok () := by
  rw [finish_fst] at h
  cases hvalid : (s₀.override lookup).1.validate with
  | error conflict =>
    rw [hvalid] at h
    cases h
  | ok =>
    rw [hvalid] at h
    cases h
    exact hvalid

/-- Whatever the file and the variables are. -/
theorem validate_of_load (h : (load path file lookup).1 = .ok s) : s.validate = .ok () := by
  unfold load at h
  dsimp only at h
  split at h
  · cases h
  · split at h
    · cases h
    · exact validate_of_finish h

/-- **Valid settings configure a client.** Settings make a client exactly if they are valid, and a
refusal tells the conflict that the validation finds, as an error of configuration. The client has
every setting, and knows neither a gateway nor a listener. Settings that are loaded, from any file
under any variables, are valid. -/
theorem valid_configure_client :
    (∀ s : ClientSettings,
      ((∃ c, Client.ofSettings s = .ok c) ↔ s.validate = .ok ()) ∧
      (∀ e, Client.ofSettings s = .error e ↔
        ∃ conflict, s.validate = .error conflict ∧ e = .configuration conflict.report) ∧
      ∀ c, Client.ofSettings s = .ok c → c.Carries s) ∧
    ∀ (path : String) (file : SettingsFile) (lookup : String → Option String) (s : ClientSettings),
      (load path file lookup).1 = .ok s →
        s.validate = .ok () ∧ ∃ c, Client.ofSettings s = .ok c ∧ c.Carries s := by
  refine ⟨fun s => ⟨Client.exists_ofSettings, fun e => Client.ofSettings_eq_error,
    fun c => Client.carries_ofSettings⟩, fun path file lookup s hload => ?_⟩
  have hvalid := validate_of_load hload
  exact ⟨hvalid, Client.ofSettings_valid hvalid⟩

/-- A file under variables that name a proxy, and the client of what it loads as. -/
theorem valid_configure_layered :
    (load "settings.json" (.bytes layeredText.toUTF8) layeredVariables).1 = .ok layeredSettings ∧
      ∃ c, Client.ofSettings layeredSettings = .ok c ∧ c.Carries layeredSettings := by
  have hload : (load "settings.json" (.bytes layeredText.toUTF8) layeredVariables).1 = .ok layeredSettings :=
    congrArg Prod.fst layeredText_load
  exact ⟨hload, (valid_configure_client.2 _ _ _ _ hload).2⟩

end ClientSettings

end GatewayClient
