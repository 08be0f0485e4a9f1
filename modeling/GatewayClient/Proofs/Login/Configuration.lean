import GatewayClient.Proofs.Login.Batch
import GatewayClient.Proofs.Lookup.Seeking
import GatewayClient.Proofs.Scenario.Ledger

/-!
# What a call takes with it

A login and a lookup are called at one time and run at another, and in between the client may be set
anew, listeners may be registered and recommendations may be applied. What they run with is what the
ledger of the client had when they were called. For this two things come together: the request of a
login, or the lookup, is made of what was written last (`Client.WrittenBy.request`,
`Client.WrittenBy.lookup`), and the task carries it along unchanged (`World.History.connecting`,
`World.History.seeks`).
-/

namespace GatewayClient

/-! ## Made of what was written last -/

/-- A request is made of what was written last. -/
structure ConnectionRequest.MadeOf (q : ConnectionRequest) (ws : List ClientWrite) : Prop where
  credential : lastWritten (·.credential?) none ws = some q.credential
  accountType : q.accountType = lastWritten (·.accountType?) .bot ws
  waitForServers : q.waitForServersOnStartup = lastWritten (·.waitForServers?) true ws
  trust : q.trustAllCertificates = lastWritten (·.trust?) false ws
  proxy : q.proxy = lastWritten (·.proxy?) {} ws
  endpoint : q.endpoint = lastWritten (·.endpoint?) none ws
  listeners : q.listeners = byCategory (registrations ws)

/-- A lookup is made of what was written last. -/
structure Lookup.MadeOf (l : Lookup) (ws : List ClientWrite) : Prop where
  credential : lastWritten (·.credential?) none ws = some l.request.credential
  proxy : l.request.proxy = lastWritten (·.proxy?) {} ws
  trust : l.request.trustAllCertificates = lastWritten (·.trust?) false ws
  backoff : l.backoff = lastWritten (·.backoff?) {} ws

namespace Client

variable {c : Client} {ws : List ClientWrite}

theorem WrittenBy.request (hwritten : c.WrittenBy ws) {a : ShardAssignment} {q : ConnectionRequest}
    (hq : c.request a = .ok q) : q.MadeOf ws := by
  unfold Client.request at hq
  split at hq
  · cases hq
  · next credential hcredential =>
    cases hq
    exact ⟨hwritten.credential.symm.trans hcredential, hwritten.accountType,
      hwritten.waitForServers, hwritten.trust, hwritten.proxy, hwritten.endpoint,
      hwritten.listeners.snapshot⟩

theorem WrittenBy.lookup (hwritten : c.WrittenBy ws) {token : Option String} {l : Lookup}
    (hl : c.lookup token = .ok l) : l.MadeOf ws := by
  obtain ⟨credential, hcredential, rfl⟩ := Client.lookup_ok hl
  exact ⟨hwritten.credential.symm.trans hcredential, hwritten.proxy, hwritten.trust,
    hwritten.backoff⟩

/-- With a token each assignment has its request, so requests stand as their assignments do. -/
theorem getElem?_requests {as : List ShardAssignment} {i : Nat} {q : ConnectionRequest}
    (hq : (as.filterMap fun a => (c.request a).toOption)[i]? = some q) :
    as[i]? = some q.shard ∧ c.request q.shard = .ok q := by
  induction as generalizing i with
  | nil => cases hq
  | cons a rest ih =>
      cases hmade : c.request a with
      | error e =>
          have hnone : ∀ a', (c.request a').toOption = none := by
            intro a'
            unfold Client.request at hmade ⊢
            split at hmade
            · rfl
            · cases hmade
          rw [List.filterMap_eq_nil_iff.mpr fun a' _ => hnone a'] at hq
          cases hq
      | ok q' =>
          have hshard := c.request_apt a q' hmade
          rw [List.filterMap_cons_some (by rw [hmade]; rfl)] at hq
          cases i with
          | zero =>
              cases hq
              rw [hshard]
              exact ⟨rfl, hmade⟩
          | succ i => exact ih hq

/-- All shards of a client, in order. -/
def allShards (c : Client) : List UInt32 :=
  (List.range c.numbering.total.toNat).map Nat.toUInt32

end Client

/-- The shards for which a call of a client starts logins. -/
def Step.asks? (c : Client) : Step → Option (List UInt32)
  | .login _ => some [c.numbering.index]
  | .loginShards _ shards => some shards
  | .loginAll _ => some c.allShards
  | .loginMatching _ wanted => some (c.allShards.filter wanted)
  | _ => none

namespace World

variable {w : World} {s : Step} {shards : List UInt32}

/-! ## What calls start -/

/-- The logins of a batch are those of assignments for the shards of the call, or of none. -/
structure Logins (c : Client) (shards : List UInt32) (b : LoginBatch) (as : List ShardAssignment) :
    Prop where
  requests : LoginStart.requests b.starts = as.filterMap fun a => (c.request a).toOption
  indices : as = [] ∨ as.map (·.index) = shards
  totals : ∀ a ∈ as, a.total = c.numbering.total

theorem logins_of_plan {c : Client} {b : LoginBatch}
    (hplan : LoginBatch.plan c.numbering c.request shards = .ok b) :
    ∃ as, Logins c shards b as := by
  by_cases hempty : shards = []
  · subst hempty
    cases hplan
    exact ⟨[], rfl, .inl rfl, nofun⟩
  · cases hvalid : Batch.validate c.numbering.total shards with
    | error e =>
        rw [LoginBatch.plan_of_refused hempty hvalid] at hplan
        cases hplan
    | ok as =>
        rw [LoginBatch.plan_of_validate hempty hvalid] at hplan
        cases hplan
        obtain ⟨-, hindices, htotals⟩ := Batch.validate_eq_ok.mp hvalid
        by_cases hindex : c.numbering.index = 0
        · refine ⟨as, ?_, .inr hindices, htotals⟩
          rw [LoginStart.requests_under, if_pos hindex]
        · refine ⟨[], ?_, .inl rfl, nofun⟩
          rw [LoginStart.requests_under, if_neg hindex]
          rfl

/-- A call that starts logins is refused, or it starts those of a batch. -/
theorem perform_asks (hasks : s.asks? w.client = some shards) :
    (w.perform s).1 = w
      ∨ ∃ h b as, w.perform s = w.answerBatch h b ∧ Logins w.client shards b as := by
  have hbatch : ∀ h shards, (w.startClientBatch h (w.client.loginShards shards)).1 = w
      ∨ ∃ h' b as, w.startClientBatch h (w.client.loginShards shards) = w.answerBatch h' b
        ∧ Logins w.client shards b as := by
    intro h shards
    rw [show w.startClientBatch h (w.client.loginShards shards) =
      w.callBatch w.client.numbering w.client.request h shards from perform_loginShards h shards w]
    cases hplan : LoginBatch.plan w.client.numbering w.client.request shards with
    | error e =>
        rw [callBatch_error hplan]
        exact .inl rfl
    | ok b =>
        rw [callBatch_ok hplan]
        obtain ⟨as, has⟩ := logins_of_plan hplan
        exact .inr ⟨h, b, as, rfl, has⟩
  cases s with
  | login h =>
      cases hasks
      refine .inr ⟨h, _, [w.client.numbering], rfl, ?_, .inr rfl, fun a ha => ?_⟩
      · exact LoginStart.requests_ofRequest w.client.request [w.client.numbering]
      · rw [List.mem_singleton.mp ha]
  | loginShards h _ =>
      cases hasks
      exact hbatch h shards
  | loginAll h =>
      cases hasks
      have hall : w.client.loginAll = w.client.loginShards w.client.allShards := by
        unfold Client.loginAll Client.loginMatching
        rw [List.filter_eq_self.mpr fun _ _ => rfl]
        rfl
      change (w.startClientBatch h w.client.loginAll).1 = w
        ∨ ∃ h' b as, w.startClientBatch h w.client.loginAll = w.answerBatch h' b ∧ _
      rw [hall]
      exact hbatch h w.client.allShards
  | loginMatching h wanted =>
      cases hasks
      exact hbatch h _
  | _ => cases hasks

/-- Of what a call starts, the connection of each new task is one of its logins. -/
theorem answerBatch_news {h : String} {b : LoginBatch} {id : TaskId}
    (hnew : w.scheduler.tasks.size ≤ id)
    (hlt : id < (w.answerBatch h b).1.scheduler.tasks.size) :
    ∃ i q, id = w.scheduler.tasks.size + i ∧ (LoginStart.requests b.starts)[i]? = some q
      ∧ (w.answerBatch h b).1.scheduler.tasks[id]? = some (.live (.connect q)) := by
  obtain ⟨i, rfl⟩ := Nat.exists_eq_add_of_le hnew
  by_cases hadmits : w.Admits b.starts
  · have hscheduler : (w.answerBatch h b).1.scheduler =
        w.scheduler.spawnAll ((LoginStart.requests b.starts).map .connect) := by
      rw [answerBatch_eq hadmits]
      rfl
    rw [hscheduler] at hlt ⊢
    have hi : i < (LoginStart.requests b.starts).length := by
      simpa [Scheduler.spawnAll] using hlt
    refine ⟨i, (LoginStart.requests b.starts)[i], rfl, List.getElem?_eq_getElem hi, ?_⟩
    exact Scheduler.spawnAll_task (by rw [List.getElem?_map, List.getElem?_eq_getElem hi]; rfl)
  · have hscheduler : (w.answerBatch h b).1.scheduler = w.scheduler := by
      obtain ⟨-, hstopped⟩ := Classical.not_imp.mp hadmits
      have hstart := @startLogins_stopped b.starts (w.noteAll b.announcement)
        (Bool.eq_false_iff.mpr hstopped)
      unfold answerBatch startBatch
      rcases hstarted : (w.noteAll b.announcement).startLogins b.starts with ⟨w', _ | pending⟩
      · rw [hstarted] at hstart
        exact hstart
      · rw [hstarted] at hstart
        exact hstart
    rw [hscheduler] at hlt
    exact absurd hlt (Nat.not_lt.mpr (Nat.le_add_right _ _))

/-- Each new task of a call is the connection of one of its shards, in order. -/
theorem asks_news (hasks : s.asks? w.client = some shards) {id : TaskId}
    (hnew : w.scheduler.tasks.size ≤ id) (hlt : id < (w.perform s).1.scheduler.tasks.size) :
    ∃ i q, id = w.scheduler.tasks.size + i ∧ shards[i]? = some q.shard.index
      ∧ q.shard.total = w.client.numbering.total ∧ w.client.request q.shard = .ok q
      ∧ (w.perform s).1.scheduler.tasks[id]? = some (.live (.connect q)) := by
  rcases perform_asks hasks with hrefused | ⟨h, b, as, hperform, hlogins⟩
  · rw [hrefused] at hlt
    exact absurd hlt (Nat.not_lt.mpr hnew)
  · rw [hperform] at hlt ⊢
    obtain ⟨i, q, hid, hi, htask⟩ := answerBatch_news hnew hlt
    rw [hlogins.requests] at hi
    obtain ⟨ha, hmade⟩ := Client.getElem?_requests hi
    refine ⟨i, q, hid, ?_, hlogins.totals _ (List.mem_of_getElem? ha), hmade, htask⟩
    rcases hlogins.indices with rfl | rfl
    · cases ha
    · rw [List.getElem?_map, ha]
      rfl

/-- The new task of a discovery is the lookup of its client. -/
theorem discover_news {h : String} {token : Option String} {id : TaskId}
    (hnew : w.scheduler.tasks.size ≤ id)
    (hlt : id < (w.perform (.discover h token)).1.scheduler.tasks.size) :
    ∃ l, w.client.lookup token = .ok l
      ∧ (w.perform (.discover h token)).1.scheduler.tasks[id]? =
        some (.live (.lookup w.current l none)) := by
  have hperform : w.perform (.discover h token) = w.startLookup h token := rfl
  rw [hperform] at hlt ⊢
  unfold startLookup at hlt ⊢
  cases hlookup : w.client.lookup token with
  | error e =>
      rw [hlookup] at hlt
      exact absurd hlt (Nat.not_lt.mpr hnew)
  | ok l =>
      simp only [hlookup] at hlt ⊢
      cases hspawn : w.spawn (.lookup w.current l none) with
      | error f =>
          rw [hspawn] at hlt
          exact absurd hlt (Nat.not_lt.mpr hnew)
      | ok started =>
          obtain ⟨id', w'⟩ := started
          obtain ⟨-, hid, hscheduler⟩ := spawn_eq hspawn
          rw [hspawn] at hlt
          change id < w'.scheduler.tasks.size at hlt
          change ∃ l', _ ∧ w'.scheduler.tasks[id]? = _
          rw [hscheduler] at hlt ⊢
          have hsize : id = w.scheduler.tasks.size := by
            rw [Array.size_push] at hlt
            exact Nat.le_antisymm (Nat.le_of_lt_succ hlt) hnew
          exact ⟨l, rfl, by rw [hsize, Array.getElem?_push_size]⟩

/-! ## What becomes of it -/

/-- **Calls take their configuration with them.** Let a client have been made at some point, and let
its ledger since then be given. Whatever the call that starts logins, and whatever happens after it:
each new task brings one request to the gateway, in its first run, and this is for a shard of the
call and is made of what the ledger had last at the call, with the registrations by category. The
new task of a discovery makes all its probes and waits out all its backoffs with what the ledger had
last at the call. -/
theorem history_keeps_configuration {w₀ : World} {c₀ : Client} {k : ClientId}
    {ws : List ClientWrite} {ps : List Passage} (hcreated : c₀.Created ws)
    (hclient : w₀.clients[k]? = some c₀) (hhistory : w₀.History ps w) (hcurrent : w.current = k) :
    (∀ s shards, s.asks? w.client = some shards →
      ∀ ps' w', (w.perform s).1.History ps' w' →
      ∀ id, w.scheduler.tasks.size ≤ id → id < (w.perform s).1.scheduler.tasks.size →
        ∃ i q, q.MadeOf (ws ++ writesTo k ps)
          ∧ id = w.scheduler.tasks.size + i ∧ shards[i]? = some q.shard.index
          ∧ q.shard.total = w.client.numbering.total
          ∧ (receivedFrom id ps' = [q] ∨ receivedFrom id ps' = []
            ∧ (w'.scheduler.tasks[id]? = some (.live (.connect q))
              ∨ w'.scheduler.tasks[id]? = some (.ended .aborted))))
      ∧ ∀ h token ps' w', (w.perform (.discover h token)).1.History ps' w' →
        ∀ id, w.scheduler.tasks.size ≤ id →
          id < (w.perform (.discover h token)).1.scheduler.tasks.size →
            ∃ l : Lookup, l.MadeOf (ws ++ writesTo k ps)
              ∧ ∀ p ∈ ps', p.By id → p.Seeks id l.request l.backoff := by
  obtain ⟨c, hc, hwritten⟩ := hhistory.writtenBy hclient hcreated.writtenBy
  have heq : w.client = c := client_eq (hcurrent ▸ hc)
  constructor
  · intro s shards hasks ps' w' hlater id hnew hlt
    obtain ⟨i, q, hid, hshard, htotal, hmade, htask⟩ := asks_news hasks hnew hlt
    rw [heq] at hmade
    exact ⟨i, q, hwritten.request hmade, hid, hshard, htotal, (hlater.connecting htask).received⟩
  · intro h token ps' w' hlater id hnew hlt
    obtain ⟨l, hl, htask⟩ := discover_news hnew hlt
    rw [heq] at hl
    exact ⟨l, hwritten.lookup hl, (hlater.seeks htask).1⟩

/-- The token is changed and a listener is registered before the task of the login runs. -/
theorem history_keeps_configuration_reset :
    ∃ ps w ps' w' q, History {} ps w ∧ (w.perform (.login "h")).1.History ps' w'
      ∧ receivedFrom 0 ps' = [q] ∧ q.credential = ⟨"old"⟩ ∧ q.listeners.length = 1
      ∧ w'.client.credential = some ⟨"new"⟩ := by
  let w : World := ((World.perform {} (.set (.token "old"))).1.perform
    (.addListener .resume "c" .none)).1
  have hbefore : History {} _ w := World.History.start
    |>.passage (.call (s := .set (.token "old")) id)
    |>.passage (.call (s := .addListener .resume "c" .none) id)
  have hafter := World.History.start (w := (w.perform (.login "h")).1)
    |>.passage (.call (s := .set (.token "new")) id)
    |>.passage (.call (s := .addListener .messageCreate "d" .none) id)
    |>.passage (.task 0 .started)
  obtain ⟨i, q, hmade, -, -, -, hreceived⟩ :=
    (history_keeps_configuration .fresh rfl hbefore rfl).1 (.login "h") [0] rfl _ _ hafter 0
      (by decide) (by decide)
  have hcredential : some ⟨"old"⟩ = some q.credential := hmade.credential
  have hlisteners : q.listeners = [(.resume, .consumer ⟨0, "c", .none⟩)] := hmade.listeners
  refine ⟨_, w, _, _, q, hbefore, hafter, ?_, (Option.some.inj hcredential).symm, ?_, rfl⟩
  · rcases hreceived with hone | ⟨hnone, -⟩
    · exact hone
    · cases hnone
  · rw [hlisteners]
    rfl

end World

end GatewayClient
