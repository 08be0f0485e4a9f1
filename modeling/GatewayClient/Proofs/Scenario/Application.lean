import GatewayClient.Proofs.Lookup.Trail
import GatewayClient.Proofs.Scenario.History

/-!
# What a run of a lookup applies

A lookup that a client starts is a task of its own. All that a run of such a task can do to the
clients is said once (`runTask_lookup`): most runs leave them alone, and the run that ends a
successful lookup writes the total and the endpoint that it found or, if the total does not go with
the shard that the client has then, nothing. `discover_cases` says the same of the call that starts
the lookup, and `legsOf` follows the runs of a task through a history.
-/

namespace GatewayClient

/-! ## Applying a recommendation -/

namespace Client

theorem setTotalShards_ok {c c' : Client} {n : UInt32} (hset : c.setTotalShards n = .ok c') :
    ∃ numbering : ShardAssignment, c' = { c with numbering }
      ∧ numbering.index = c.numbering.index ∧ numbering.total = n := by
  unfold setTotalShards at hset
  cases hnumbering : c.numbering.withTotal n with
  | error e => rw [hnumbering] at hset; cases hset
  | ok numbering =>
      rw [hnumbering] at hset
      cases hset
      exact ⟨numbering, rfl, ShardAssignment.eq_of_ofPair hnumbering⟩

/-- Why a total is refused. -/
inductive Refusal (c : Client) (n : UInt32) : ShardError → Prop
  | zero : n = 0 → Refusal c n .totalBelowOne
  | outOfRange : n ≠ 0 → n ≤ c.numbering.index →
      Refusal c n (.currentOutOfRange c.numbering.index n)

theorem setTotalShards_error {c : Client} {n : UInt32} {e : ClientError}
    (hset : c.setTotalShards n = .error e) :
    ∃ cause, e = .validation cause ∧ c.Refusal n cause := by
  unfold setTotalShards ShardAssignment.withTotal ShardAssignment.ofPair at hset
  by_cases hzero : n < 1
  · rw [if_pos hzero] at hset
    cases hset
    have hnat := UInt32.lt_iff_toNat_lt.mp hzero
    rw [UInt32.toNat_one] at hnat
    refine ⟨_, rfl, .zero (UInt32.toNat_inj.mp ?_)⟩
    rw [UInt32.toNat_zero]
    omega
  · rw [if_neg hzero] at hset
    by_cases hlt : c.numbering.index < n
    · rw [dif_pos hlt] at hset; cases hset
    · rw [dif_neg hlt] at hset
      cases hset
      refine ⟨_, rfl, .outOfRange (fun heq => hzero ?_) (UInt32.not_lt.mp hlt)⟩
      rw [heq]
      decide

end Client

/-! ## One run -/

namespace World

/-- What a run of the lookup of a client, the task `id`, comes to. It goes to sleep, it ends without
a recommendation, or it ends with one that is refused or applied. -/
inductive LookupRun (k : ClientId) (id : TaskId) (g : Lookup.Leg) (w' : World) : Prop
  | waits {phase : LookupPhase} {ms : Nat} : g.step.next = .wait phase ms →
      g.world.SameClients w' →
      w'.scheduler =
        g.world.scheduler.sleep id (.lookup k g.step.lookup (some phase)) ms
          (tokenOf g.step.lookup phase) →
      LookupRun k id g w'
  | faults {f : Fault} : g.step.next = .faulted f → g.world.SameClients w' →
      w'.scheduler = g.world.scheduler.finish id (.faulted f) → LookupRun k id g w'
  | fails {e : ClientError} : g.step.next = .returned (.error e) → g.world.SameClients w' →
      w'.scheduler = g.world.scheduler.finish id (.returned (.error e)) → LookupRun k id g w'
  | refused {report : LookupReport} {e : ClientError} : g.step.next = .returned (.ok report) →
      ((g.world.clients[k]?).getD {}).setTotalShards report.recommendation.shardCount =
        .error e →
      g.world.SameClients w' →
      w'.scheduler = g.world.scheduler.finish id (.returned (.error e)) → LookupRun k id g w'
  | applied {report : LookupReport} {c : Client} : g.step.next = .returned (.ok report) →
      ((g.world.clients[k]?).getD {}).setTotalShards report.recommendation.shardCount = .ok c →
      w'.current = g.world.current →
      w'.clients =
        g.world.clients.setIfInBounds k
          { c with endpoint := some report.recommendation.endpoint } →
      w'.scheduler =
        g.world.scheduler.finish id
          (.returned (.ok (.total report.recommendation.shardCount))) →
      LookupRun k id g w'

theorem runTask_lookup {w : World} {id : TaskId} {k : ClientId} {l : Lookup}
    {phase : Option LookupPhase} (htask : w.scheduler.tasks[id]? = some (.live (.lookup k l phase)))
    (wake : Wake) : LookupRun k id ⟨w, l, phase, wake⟩ (w.runTask id wake) := by
  have haside := stepLookup_aside l phase wake w
  have hstep : Lookup.Leg.step ⟨w, l, phase, wake⟩ = (w.stepLookup l phase wake).2 := rfl
  rw [runTask_eq htask]
  dsimp only [run]
  unfold runLookup
  rcases hlookup : w.stepLookup l phase wake with ⟨w₁, step⟩
  rw [hlookup] at haside hstep
  obtain ⟨l₁, deeds, notes, next⟩ := step
  obtain ⟨⟨hclients, hcurrent⟩, hscheduler⟩ := haside
  dsimp only at hclients hcurrent hscheduler hstep ⊢
  have hfinish : ∀ ending, w₁.scheduler.finish id ending = w.scheduler.finish id ending :=
    fun ending => by rw [hscheduler]
  cases next with
  | wait phase' ms =>
      refine .waits (by rw [hstep]) ⟨hclients, hcurrent⟩ ?_
      rw [hstep, ← hscheduler]
      rfl
  | faulted f => exact .faults (by rw [hstep]) ⟨hclients, hcurrent⟩ (hfinish _)
  | returned result =>
      cases result with
      | error e => exact .fails (by rw [hstep]) ⟨hclients, hcurrent⟩ (hfinish _)
      | ok report =>
          dsimp only
          rcases applyReport_cases k report w₁ with ⟨e, hset, heq⟩ | ⟨c, hset, heq⟩
          all_goals rw [heq]; rw [hclients] at hset
          · exact .refused (by rw [hstep]) hset ⟨hclients, hcurrent⟩ (hfinish _)
          · refine .applied (by rw [hstep]) hset hcurrent ?_ (hfinish _)
            rw [← hclients]
            rfl

end World

/-! ## Following a task through a history -/

/-- A passage is made by a task. -/
def Passage.By (p : Passage) (id : TaskId) : Prop := ∃ wake, p.mover = .task id wake

/-- The leg of a lookup that a passage is, if the lookup is the task `id`. -/
def Passage.leg? (id : TaskId) (p : Passage) : Option Lookup.Leg :=
  match p.mover, p.before.scheduler.tasks[id]? with
  | .task id' wake, some (.live (.lookup _ l phase)) =>
    if id' = id then some ⟨p.before, l, phase, wake⟩ else none
  | _, _ => none

/-- The legs of the lookup that is the task `id`. -/
def legsOf (id : TaskId) (ps : List Passage) : List Lookup.Leg := ps.filterMap (·.leg? id)

theorem legsOf_append (id : TaskId) (ps ps' : List Passage) :
    legsOf id (ps ++ ps') = legsOf id ps ++ legsOf id ps' := List.filterMap_append

theorem legsOf_other {id : TaskId} {p : Passage} (hother : ¬ p.By id) : legsOf id [p] = [] := by
  have hnone : p.leg? id = none := by
    unfold Passage.leg?
    split
    · next id' wake k l phase hmover _ =>
      have hne : id' ≠ id := by
        rintro rfl
        exact hother ⟨wake, hmover⟩
      exact if_neg hne
    · rfl
  simp only [legsOf, List.filterMap_cons, hnone, List.filterMap_nil]

theorem legsOf_own {id : TaskId} {p : Passage} {wake : Wake} {k : ClientId} {l : Lookup}
    {phase : Option LookupPhase} (hmover : p.mover = .task id wake)
    (htask : p.before.scheduler.tasks[id]? = some (.live (.lookup k l phase))) :
    legsOf id [p] = [⟨p.before, l, phase, wake⟩] := by
  have hsome : p.leg? id = some ⟨p.before, l, phase, wake⟩ := by
    simp only [Passage.leg?, hmover, htask, if_true]
  simp only [legsOf, List.filterMap_cons, hsome, List.filterMap_nil]

/-- A lookup takes the configuration of its client along, and its counter is fresh. -/
theorem Client.lookup_ok {c : Client} {token : Option String} {l : Lookup}
    (hlookup : c.lookup token = .ok l) :
    ∃ credential, c.credential = some credential
      ∧ l = { request := ⟨credential, c.proxy, c.trustAllCertificates⟩
              backoff := c.backoff
              token } := by
  unfold Client.lookup at hlookup
  split at hlookup
  · cases hlookup
  · next credential hcredential =>
    cases hlookup
    exact ⟨credential, hcredential, rfl⟩

namespace World

variable {id : TaskId} {w : World}

theorem result?_live {work : Work} (htask : w.scheduler.tasks[id]? = some (.live work)) :
    w.result? (.task id) = none := by
  simp only [result?, Scheduler.ending?, htask, Option.map_none]

theorem result?_ended {ending : Ending}
    (htask : w.scheduler.tasks[id]? = some (.ended ending)) :
    w.result? (.task id) = some ending.result := by
  simp only [result?, Scheduler.ending?, htask, Option.map_some]

/-! ## The call -/

/-- The failure of a lookup that a client without a token starts. -/
def noToken : ClientError :=
  .configuration "cannot request the recommended total shards without a token"

theorem handle?_store (h : String) (handle : Handle) (w : World) :
    (w.store h handle).handle? h = some handle := by
  simp only [handle?, store, List.find?_cons, decide_true, Option.map_some]

/-- A call that starts a lookup leaves the clients alone. Its handle has failed already for want of
a token, or it stands for the new task of a lookup that has yet to run. -/
theorem discover_cases {w₀ w₁ : World} {h : String} {token : Option String} {finished : Bool}
    {pending : Pending} (hcall : w₀.perform (.discover h token) = (w₁, .lookupStarted finished))
    (hhandle : w₁.handle? h = some (.lookup pending)) :
    w₀.SameClients w₁
      ∧ (w₀.client.credential = none ∧ pending = .failed noToken
        ∨ ∃ id l, pending = .task id
          ∧ w₁.scheduler.tasks[id]? = some (.live (.lookup w₀.current l none))
          ∧ w₀.client.lookup token = .ok l
          ∧ ∃ w', w₀.spawn (.lookup w₀.current l none) = .ok (id, w')
            ∧ w₁.scheduler = w'.scheduler) := by
  have hsame := sameClients_frame.startLookup h token w₀
  have hstart : w₀.startLookup h token = (w₁, .lookupStarted finished) := hcall
  rw [hstart] at hsame
  refine ⟨hsame, ?_⟩
  unfold startLookup at hstart
  cases hlookup : w₀.client.lookup token with
  | error e =>
      simp only [hlookup] at hstart
      cases hstart
      rw [handle?_store] at hhandle
      cases hhandle
      unfold Client.lookup at hlookup
      cases hcredential : w₀.client.credential with
      | none =>
          rw [hcredential] at hlookup
          cases hlookup
          exact .inl ⟨rfl, rfl⟩
      | some credential => rw [hcredential] at hlookup; cases hlookup
  | ok l =>
      simp only [hlookup] at hstart
      cases hspawn : w₀.spawn (.lookup w₀.current l none) with
      | error f => simp only [hspawn] at hstart; cases hstart
      | ok started =>
          obtain ⟨id, w'⟩ := started
          obtain ⟨-, hid, hscheduler⟩ := spawn_eq hspawn
          have hpushed : w'.scheduler.tasks[id]? = some (.live (.lookup w₀.current l none)) := by
            rw [hscheduler, hid, Array.getElem?_push_size]
          simp only [hspawn] at hstart
          cases hstart
          rw [handle?_store] at hhandle
          cases hhandle
          exact .inr ⟨id, l, rfl, hpushed, rfl, w', hspawn, rfl⟩

end World

end GatewayClient
