import GatewayClient.Proofs.Settings.Records
import GatewayClient.Settings.Wire

/-!
# What is written is read again

Settings decode from their own encoding, for each record of them and for every value but a jitter
that is not finite: a setting that is absent has no entry and is absent again, because the decoders
start from the defaults and the default of an optional setting is to be absent. The encodings are
objects with ordered entries, and without `null` where the jitter is finite.
-/

namespace GatewayClient

open Json

/-- The entries of an object. Other values have none. -/
def Json.entries : Json → List (String × Json)
  | .obj entries => entries
  | _ => []

/-! ## Scalars -/

theorem Json.decodeBelow_ofNat {bound n : Nat} (h : n < bound) (expected : String) :
    decodeBelow bound expected (.ofInt n) = .ok n := by
  have hin : (0 : Int) ≤ n ∧ (n : Int) < bound := by omega
  simp [decodeBelow, ofInt, hin]

theorem Json.decodeUInt32_ofInt (n : UInt32) : decodeUInt32 (.ofInt n.toNat) = .ok n := by
  rw [decodeUInt32, decodeBelow_ofNat n.toNat_lt_size]
  exact congrArg Except.ok UInt32.ofNat_toNat

theorem Json.decodeUInt64_ofInt (n : UInt64) : decodeUInt64 (.ofInt n.toNat) = .ok n := by
  rw [decodeUInt64, decodeBelow_ofNat n.toNat_lt_size]
  exact congrArg Except.ok UInt64.ofNat_toNat

theorem Json.decodeDouble_ofDouble {x : Binary64} (hfinite : x.isFinite = true) :
    decodeDouble (.ofDouble x) = .ok x := by
  rw [ofDouble, if_pos hfinite]
  rfl

theorem AccountType.ofJson_toJson (a : AccountType) : ofJson a.toJson = .ok a := by
  cases a <;> rfl

theorem ProxyMode.ofJson_name (m : ProxyMode) : ofJson (.str m.name) = .ok m := by
  cases m <;> rfl

/-! ## Records -/

theorem ProxyCredentials.ofJson_toJson (c : ProxyCredentials) : ofJson c.toJson = .ok c :=
  rfl

theorem LoggingSettings.ofJson_toJson (l : LoggingSettings) : ofJson l.toJson = .ok l :=
  rfl

theorem Backoff.ofJson_toJson {b : Backoff} (hfinite : b.jitterFactor.isFinite = true) :
    ofJson b.toJson = .ok b := by
  rw [ofJson, toJson, decodeDefaulted_obj, putEntries_field rfl (decodeUInt64_ofInt _),
    putEntries_field rfl (decodeDouble_ofDouble hfinite),
    putEntries_field rfl (decodeUInt64_ofInt _)]
  rfl

theorem Backoff.finite_default : ({} : Backoff).jitterFactor.isFinite = true := rfl

/-- The entry of a setting that is present, and none for an absent one, which is absent in the
record before. -/
theorem Json.putEntries_optional {ρ α : Type} {fields : List (Field ρ)} {name : String}
    {decode : Json → Decoded α} {write : Option α → ρ → ρ} {encode : α → Json} {r : ρ}
    {entries : List (String × Json)} {o : Option α}
    (hf : fields.find? (·.name = name) = some (field name (decodeOption decode) write))
    (hd : ∀ a, decodeOption decode (encode a) = .ok (some a)) (habsent : write none r = r) :
    putEntries fields ((o.map fun a => (name, encode a)).toList ++ entries) r =
      putEntries fields entries (write o r) := by
  cases o with
  | none => rw [habsent]; rfl
  | some a => exact putEntries_field hf (hd a)

theorem ProxyConfig.ofJson_toJson (p : ProxyConfig) : ofJson p.toJson = .ok p := by
  rw [ofJson, toJson, decodeDefaulted_obj, List.append_assoc,
    putEntries_optional rfl (fun _ => rfl) rfl, List.singleton_append,
    putEntries_field rfl (ProxyMode.ofJson_name _), ← List.append_nil (Option.toList _),
    putEntries_optional rfl (fun _ => rfl) rfl]
  rfl

theorem ClientSettings.ofJson_toJson {s : ClientSettings}
    (hfinite : s.discovery.jitterFactor.isFinite = true) : ofJson s.toJson = .ok s := by
  rw [ofJson, toJson, decodeDefaulted_obj, List.append_assoc]
  simp only [List.cons_append, List.nil_append]
  rw [putEntries_field rfl (AccountType.ofJson_toJson _),
    putEntries_field rfl (decodeUInt32_ofInt _), putEntries_field rfl (Backoff.ofJson_toJson hfinite),
    putEntries_field rfl (LoggingSettings.ofJson_toJson _),
    putEntries_field rfl (ProxyConfig.ofJson_toJson _),
    putEntries_optional rfl (fun _ => rfl) rfl, putEntries_field rfl (decodeUInt32_ofInt _),
    putEntries_field rfl (rfl : decodeBool (.bool _) = _),
    putEntries_field rfl (rfl : decodeBool (.bool _) = _)]
  rfl

/-- The defaults are read again. -/
theorem ClientSettings.ofJson_default : ofJson (toJson {}) = .ok {} :=
  ofJson_toJson Backoff.finite_default

/-! ## The entries of an encoding -/

theorem LoggingSettings.ordered_toJson (l : LoggingSettings) : Ordered l.toJson.entries := by
  refine .of_keys ?_
  show ["json", "level"].Pairwise (· < ·)
  decide

theorem Backoff.ordered_toJson (b : Backoff) : Ordered b.toJson.entries := by
  refine .of_keys ?_
  show ["baseDelayMs", "jitterFactor", "maxDelayMs"].Pairwise (· < ·)
  decide

theorem ProxyConfig.ordered_toJson (p : ProxyConfig) : Ordered p.toJson.entries := by
  obtain ⟨mode, url, credentials⟩ := p
  have hkeys : ["credentials", "mode", "url"].Pairwise (· < ·) := by decide
  refine .of_keys (hkeys.sublist ?_)
  cases url <;> cases credentials <;> simp [toJson, entries]

theorem ClientSettings.ordered_toJson (s : ClientSettings) : Ordered s.toJson.entries := by
  have hkeys : ["accountType", "currentShard", "discovery", "logging", "proxy", "token",
      "totalShards", "trustAllCertificates", "waitForServersOnStartup"].Pairwise (· < ·) := by
    decide
  refine .of_keys (hkeys.sublist ?_)
  cases h : s.token <;> simp [toJson, entries, h]

end GatewayClient
