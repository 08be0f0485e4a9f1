import GatewayClient.Client.Login
import GatewayClient.Client.Lookup
import GatewayClient.Client.Setting

/-!
# Veiled secrets

Secrets are login tokens and proxy passwords. To veil a value is to write one word over each secret
in it; values that are the same when veiled differ in the text of secrets only. No inspection text
tells a veiled value from the value itself (`ProxyConfig.inspect_veil` and its like), and nothing
that a client does looks at a secret: what it makes of veiled values is what it makes of the values,
veiled (`Client.set_veil`, `Client.ofSettings_veil`, `Client.loginShards_veil`, `Lookup.follow_veil`
and so on).
-/

namespace GatewayClient

/-- The word over a secret. It is the token of the requests that are not a client's, which the veil
therefore leaves as they are. -/
def cover : String := "tok"

/-! ## Values with secrets -/

def Credential.veil (_ : Credential) : Credential := ⟨cover⟩

def ProxyCredentials.veil (c : ProxyCredentials) : ProxyCredentials := { c with password := cover }

def ProxyConfig.veil (p : ProxyConfig) : ProxyConfig :=
  { p with credentials := p.credentials.map ProxyCredentials.veil }

def ClientSettings.veil (s : ClientSettings) : ClientSettings :=
  { s with token := s.token.map fun _ => cover, proxy := s.proxy.veil }

def Client.veil (c : Client) : Client :=
  { c with credential := c.credential.map Credential.veil, proxy := c.proxy.veil }

def ClientSetting.veil : ClientSetting → ClientSetting
  | token _ => token cover
  | proxy p => proxy p.veil
  | s => s

def ConnectionRequest.veil (q : ConnectionRequest) : ConnectionRequest :=
  { q with credential := q.credential.veil, proxy := q.proxy.veil }

def ProbeRequest.veil (q : ProbeRequest) : ProbeRequest :=
  { q with credential := q.credential.veil, proxy := q.proxy.veil }

def LoginStart.veil : LoginStart → LoginStart
  | opening request => opening request.veil
  | failed shard e => failed shard e

def LoginBatch.veil (b : LoginBatch) : LoginBatch :=
  { b with starts := b.starts.map LoginStart.veil }

def Lookup.veil (l : Lookup) : Lookup := { l with request := l.request.veil }

def LookupStep.veil (s : LookupStep) : LookupStep := { s with lookup := s.lookup.veil }

/-! ## Inspection texts -/

theorem ProxyConfig.inspect_veil (p : ProxyConfig) : p.veil.inspect = p.inspect := by
  obtain ⟨mode, url, credentials⟩ := p
  cases credentials <;> rfl

theorem ClientSettings.inspect_veil (s : ClientSettings) : s.veil.inspect = s.inspect := by
  have hproxy : s.veil.proxy.inspect = s.proxy.inspect := s.proxy.inspect_veil
  have htoken : s.veil.token.map (fun _ => Text.quote "***") =
      s.token.map fun _ => Text.quote "***" := Option.map_map ..
  simp only [inspect, hproxy, htoken]
  rfl

theorem Client.inspect_veil (c : Client) : c.veil.inspect = c.inspect := by
  obtain ⟨credential, accountType, numbering, wait, trust, proxy, endpoint, backoff, listeners⟩ := c
  cases credential <;> rfl

theorem ConnectionRequest.inspect_veil (q : ConnectionRequest) : q.veil.inspect = q.inspect := by
  have hproxy : q.veil.proxy.inspect = q.proxy.inspect := q.proxy.inspect_veil
  simp only [inspect, hproxy]
  rfl

theorem ProbeRequest.inspect_veil (q : ProbeRequest) : q.veil.inspect = q.inspect := by
  have hproxy : q.veil.proxy.inspect = q.proxy.inspect := q.proxy.inspect_veil
  simp only [inspect, hproxy]
  rfl

/-! ## Clients -/

namespace Client

theorem setTotalShards_veil (c : Client) (n : UInt32) :
    c.veil.setTotalShards n = (c.setTotalShards n).map veil := by
  have hnumbering : c.veil.numbering = c.numbering := rfl
  unfold setTotalShards
  rw [hnumbering]
  cases c.numbering.withTotal n <;> rfl

theorem setCurrentShard_veil (c : Client) (n : UInt32) :
    c.veil.setCurrentShard n = (c.setCurrentShard n).map veil := by
  have hnumbering : c.veil.numbering = c.numbering := rfl
  unfold setCurrentShard
  rw [hnumbering]
  cases c.numbering.withIndex n <;> rfl

theorem setBackoff_veil (c : Client) (b : Backoff) :
    c.veil.setBackoff b = (c.setBackoff b).map veil := by
  unfold setBackoff
  cases b.validate <;> rfl

theorem set_veil (c : Client) (s : ClientSetting) : c.veil.set s.veil = (c.set s).map veil := by
  cases s with
  | totalShards n => exact c.setTotalShards_veil n
  | currentShard n => exact c.setCurrentShard_veil n
  | backoff b => exact c.setBackoff_veil b
  | _ => rfl

theorem ofSettings_veil (s : ClientSettings) : ofSettings s.veil = (ofSettings s).map veil := by
  have hvalidate : s.veil.validate = s.validate := rfl
  have htoken : s.veil.token.map Credential.mk =
      (s.token.map Credential.mk).map Credential.veil := by
    obtain ⟨token⟩ := s
    cases token <;> rfl
  unfold ofSettings
  rw [hvalidate, htoken]
  cases s.validate with
  | error conflict => rfl
  | ok u =>
      have hnumbers : ShardAssignment.ofPair s.veil.currentShard s.veil.totalShards =
          ShardAssignment.ofPair s.currentShard s.totalShards := rfl
      dsimp only
      rw [hnumbers]
      cases ShardAssignment.ofPair s.currentShard s.totalShards with
      | error e => rfl
      | ok numbering =>
          exact setBackoff_veil
            { credential := s.token.map Credential.mk
              accountType := s.accountType
              numbering
              waitForServersOnStartup := s.waitForServersOnStartup
              trustAllCertificates := s.trustAllCertificates
              proxy := s.proxy }
            s.discovery

theorem configured_veil (s : ClientSettings) : configured s.veil = configured s := by
  rw [configured, s.inspect_veil]
  rfl

theorem lookup_veil (c : Client) (token : Option String) :
    c.veil.lookup token = (c.lookup token).map Lookup.veil := by
  obtain ⟨credential⟩ := c
  cases credential <;> rfl

theorem request_veil (c : Client) (shard : ShardAssignment) :
    c.veil.request shard = (c.request shard).map ConnectionRequest.veil := by
  obtain ⟨credential⟩ := c
  cases credential <;> rfl

end Client

/-! ## Logins -/

theorem LoginStart.ofRequest_veil (shard : ShardAssignment)
    (q : Except ClientError ConnectionRequest) :
    ofRequest shard (q.map ConnectionRequest.veil) = (ofRequest shard q).veil := by
  cases q <;> rfl

theorem LoginStart.notes_veil (s : LoginStart) : s.veil.notes = s.notes := by
  cases s <;> rfl

/-- A batch whose requests are veiled is the batch, veiled. -/
theorem LoginBatch.plan_veil (numbering : ShardAssignment)
    (request : ShardAssignment → Except ClientError ConnectionRequest) (shards : List UInt32) :
    plan numbering (fun a => (request a).map ConnectionRequest.veil) shards =
      (plan numbering request shards).map veil := by
  unfold plan
  split
  · rfl
  · cases Batch.validate numbering.total shards with
    | error e => rfl
    | ok assignments =>
        refine congrArg Except.ok ?_
        split
        · simp only [veil, LoginStart.ofRequest_veil, List.map_map, Function.comp_def]
        · simp only [veil, LoginStart.veil, List.map_map, Function.comp_def]

namespace Client

theorem login_veil (c : Client) : c.veil.login = c.login.veil := by
  rw [login, request_veil]
  exact LoginStart.ofRequest_veil c.numbering _

theorem loginShards_veil (c : Client) (shards : List UInt32) :
    c.veil.loginShards shards = (c.loginShards shards).map LoginBatch.veil := by
  have hrequest : c.veil.request = fun a => (c.request a).map ConnectionRequest.veil :=
    funext c.request_veil
  have hnumbering : c.veil.numbering = c.numbering := rfl
  rw [loginShards, loginShards, hrequest, hnumbering, LoginBatch.plan_veil]
  cases LoginBatch.plan c.numbering c.request shards <;> rfl

theorem loginMatching_veil (c : Client) (wanted : UInt32 → Bool) :
    c.veil.loginMatching wanted = (c.loginMatching wanted).map LoginBatch.veil :=
  c.loginShards_veil _

theorem loginAll_veil (c : Client) : c.veil.loginAll = c.loginAll.map LoginBatch.veil :=
  c.loginMatching_veil _

end Client

/-! ## Lookups -/

namespace Lookup

theorem follow_veil (l : Lookup) (s : ProbeStep) : l.veil.follow s = (l.follow s).veil := by
  obtain ⟨deeds, next⟩ := s
  cases next with
  | settled answer => cases answer <;> rfl
  | _ => rfl

theorem heed_veil (s : LookupStep) (cancelled : Bool) :
    s.veil.heed cancelled = (s.heed cancelled).veil := by
  obtain ⟨l, deeds, notes, next⟩ := s
  cases next with
  | wait phase ms => cases phase <;> cases cancelled <;> rfl
  | _ => cases cancelled <;> rfl

end Lookup

end GatewayClient
