import GatewayClient.Proofs.Settings.Acceptance

/-!
# Saved settings load again

A file that holds the encoding of valid settings loads as these settings, if no variable says
anything (`load_saved`). The encoding has an entry for every entry of the encoded defaults, so the
merge over the defaults leaves it as it is, on the top level and in each of the three objects; the
token, the proxy URL and the credentials have no entry in the defaults, so none of them comes back
after it was absent.
-/

namespace GatewayClient

open Json

/-! ## The defaults below an encoding -/

theorem Json.merge_bool (b : Bool) (value : Json) : merge (.bool b) value = value := by
  simp only [merge]

theorem Json.merge_num (n : Number) (value : Json) : merge (.num n) value = value := by
  simp only [merge]

theorem Json.merge_str (t : String) (value : Json) : merge (.str t) value = value := by
  simp only [merge]

theorem LoggingSettings.merge_toJson (base l : LoggingSettings) :
    merge base.toJson l.toJson = l.toJson := by
  refine (merge_obj _ _).trans (congrArg Json.obj ?_)
  refine mergeEntries_self base.ordered_toJson l.ordered_toJson (by simp) ?_
  simp [lookup_cons, merge_bool, merge_str]

theorem Json.merge_ofDouble (x : Binary64) (value : Json) : merge (.ofDouble x) value = value := by
  unfold ofDouble
  split <;> simp only [merge]

theorem Backoff.merge_toJson (base : Backoff) {b : Backoff}
    (hfinite : b.jitterFactor.isFinite = true) : merge base.toJson b.toJson = b.toJson := by
  refine (merge_obj _ _).trans (congrArg Json.obj ?_)
  refine mergeEntries_self base.ordered_toJson b.ordered_toJson ?_ ?_
  · simp [ofInt, ofDouble, hfinite]
  · simp [lookup_cons, merge_num, merge_ofDouble, ofInt]

theorem ProxyConfig.merge_toJson {base : ProxyConfig} (hurl : base.url = none)
    (hcredentials : base.credentials = none) (p : ProxyConfig) :
    merge base.toJson p.toJson = p.toJson := by
  refine (merge_obj _ _).trans (congrArg Json.obj ?_)
  refine mergeEntries_self base.ordered_toJson p.ordered_toJson ?_ ?_
  · cases p.url <;> cases p.credentials <;> simp [ProxyCredentials.toJson]
  · cases p.url <;> cases p.credentials <;> simp [hurl, hcredentials, lookup_cons, merge_str]

theorem ClientSettings.merge_toJson {base : ClientSettings} (htoken : base.token = none)
    (hurl : base.proxy.url = none) (hcredentials : base.proxy.credentials = none)
    {s : ClientSettings} (hfinite : s.discovery.jitterFactor.isFinite = true) :
    merge base.toJson s.toJson = s.toJson := by
  have hproxy := ProxyConfig.merge_toJson hurl hcredentials s.proxy
  have hdiscovery := Backoff.merge_toJson base.discovery hfinite
  have hlogging := LoggingSettings.merge_toJson base.logging s.logging
  refine (merge_obj _ _).trans (congrArg Json.obj ?_)
  refine mergeEntries_self base.ordered_toJson s.ordered_toJson ?_ ?_
  · cases s.token <;>
      simp [AccountType.toJson, Backoff.toJson, LoggingSettings.toJson, ProxyConfig.toJson, ofInt]
  · simp only [htoken, Option.map_none, Option.toList_none, List.append_nil, List.cons_append,
      List.nil_append, List.forall_mem_cons]
    cases s.token <;>
      exact ⟨⟨_, rfl, merge_str _ _⟩, ⟨_, rfl, merge_num _ _⟩, ⟨_, rfl, hdiscovery⟩,
        ⟨_, rfl, hlogging⟩, ⟨_, rfl, hproxy⟩, ⟨_, rfl, merge_num _ _⟩, ⟨_, rfl, merge_bool _ _⟩,
        ⟨_, rfl, merge_bool _ _⟩, List.forall_mem_nil _⟩

/-! ## Loading -/

theorem Override.applyEach_unsaid {os : List Override} {lookup : String → Option String}
    (h : ∀ o ∈ os, said lookup o.name = none) (s : ClientSettings) :
    applyEach lookup os s = (s, []) := by
  induction os with
  | nil => rfl
  | cons o rest ih =>
    simp only [applyEach, apply_unsaid (h o List.mem_cons_self),
      ih fun o ho => h o (List.mem_cons_of_mem _ ho), List.append_nil]

namespace ClientSettings

/-- The jitter of valid settings is a number between zero and one. -/
theorem finite_of_valid {s : ClientSettings} (hvalid : s.validate = .ok ()) :
    s.discovery.jitterFactor.isFinite = true := by
  obtain ⟨-, -, hdiscovery⟩ := validate_eq_ok.mp hvalid
  obtain ⟨-, -, -, hunit⟩ := Backoff.validate_eq_ok.mp hdiscovery
  cases hjitter : s.discovery.jitterFactor with
  | finite negative size => rfl
  | infinite negative =>
    rw [hjitter] at hunit
    cases hunit
  | nan =>
    rw [hjitter] at hunit
    cases hunit

/-- Settings that are valid load as they are where no variable says anything. -/
theorem finish_unsaid {s : ClientSettings} {lookup : String → Option String}
    (hvalid : s.validate = .ok ()) (h : ∀ o ∈ Override.all, Override.said lookup o.name = none) :
    s.finish lookup = (.ok s, []) := by
  simp only [finish, override, Override.applyEach_unsaid h, hvalid]

/-- **Save, then load.** Valid settings come back from a file with their encoding, every field as
it was, when no variable is set to anything; in particular the encoding, laid over the encoded
defaults, is as it was. -/
theorem load_saved {s : ClientSettings} (hvalid : s.validate = .ok ()) :
    merge (toJson {}) s.toJson = s.toJson ∧
    ∀ (path : String) (file : SettingsFile) (text : String) (lookup : String → Option String),
      file.text? = .ok (some text) → Json.parse text = .ok s.toJson →
      (∀ o ∈ Override.all, Override.said lookup o.name = none) →
      load path file lookup = (.ok s, [announcement path file]) := by
  have hfinite := finite_of_valid hvalid
  have hmerge : merge (toJson {}) s.toJson = s.toJson := merge_toJson rfl rfl rfl hfinite
  refine ⟨hmerge, fun path file text lookup hread hparse hunsaid => ?_⟩
  have hlayered : layered s.toJson = .ok s := by
    rw [layered, hmerge, ofJson_toJson hfinite]
  simp only [load, hread, ofFile, hparse, hlayered, finish_unsaid hvalid hunsaid]

/-! Settings with every kind of value, a jitter factor of minus zero and no token. -/

def savedSample : ClientSettings where
  accountType := .client
  currentShard := 2
  totalShards := 3
  waitForServersOnStartup := false
  proxy := { mode := .url, url := some "http://p:80" }
  discovery := ⟨500, 9000, .neg (.ofInt 0)⟩
  logging := ⟨"info", true⟩

def savedText : String :=
  String.ofList
    ("\x7b\"accountType\":\"client\",".toList ++ ("\"currentShard\":2,".toList ++
    ("\"discovery\":\x7b\"baseDelayMs\":500,".toList ++ ("\"jitterFactor\":-0,".toList ++
    ("\"maxDelayMs\":9000\x7d,".toList ++ ("\"logging\":\x7b\"json\":true,".toList ++
    ("\"level\":\"info\"\x7d,".toList ++ ("\"proxy\":\x7b\"mode\":\"url\",".toList ++
    ("\"url\":\"http://p:80\"\x7d,".toList ++ ("\"totalShards\":3,".toList ++
    ("\"trustAllCertificates\":false,".toList ++
      "\"waitForServersOnStartup\":false\x7d".toList)))))))))))

-- One level of unfolding for each character of the text.
set_option maxRecDepth 2000 in
theorem savedText_parse : Json.parse savedText = .ok savedSample.toJson := by
  have hshard : ofInt (2 : UInt32).toNat = .num (.int 2) := by simp [ofInt]
  have htotal : ofInt (3 : UInt32).toNat = .num (.int 3) := by simp [ofInt]
  have hbase : ofInt (500 : UInt64).toNat = .num (.int 500) := by simp [ofInt]
  have hmax : ofInt (9000 : UInt64).toNat = .num (.int 9000) := by simp [ofInt]
  have hparse : Json.parse savedText =
      .ok (.obj
        [("accountType", .str "client"), ("currentShard", .num (.int 2)),
         ("discovery", .obj
           [("baseDelayMs", .num (.int 500)), ("jitterFactor", .num (.float (.neg (.ofInt 0)))),
            ("maxDelayMs", .num (.int 9000))]),
         ("logging", .obj [("json", .bool true), ("level", .str "info")]),
         ("proxy", .obj [("mode", .str "url"), ("url", .str "http://p:80")]),
         ("totalShards", .num (.int 3)), ("trustAllCertificates", .bool false),
         ("waitForServersOnStartup", .bool false)]) := Json.parse_ofList (by rfl)
  rw [hparse, ← hshard, ← htotal, ← hbase, ← hmax]
  rfl

theorem savedSample_valid : savedSample.validate = .ok () := by
  have hunit : (Binary64.neg (.ofInt 0)).isUnit = true := by decide +kernel
  simp [validate, savedSample, ShardAssignment.ofPair, Backoff.validate, hunit]

theorem load_savedText :
    savedSample.validate = .ok () ∧
      load "settings.json" (.bytes savedText.toUTF8) (fun _ => none) =
        (.ok savedSample, [announcement "settings.json" (.bytes savedText.toUTF8)]) :=
  ⟨savedSample_valid,
    (load_saved savedSample_valid).2 _ _ _ _ (SettingsFile.text?_bytes savedText) savedText_parse
      fun _ _ => rfl⟩

end ClientSettings

end GatewayClient
