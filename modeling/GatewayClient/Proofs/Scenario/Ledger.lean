import GatewayClient.Proofs.Delivery.Registration
import GatewayClient.Proofs.Scenario.Application

/-!
# The ledger of a client

Everything about a client but its numbers is what was written last: by settings from which it was
made, by a setter, by a recommendation that was applied, or by a registration. The ledger of a
client is the row of these writes, read off the passages of a history, whoever made them. What one
passage does to the client is what its entry says, or nothing if it has none (`Passes.enters`), so
at every point of a history the client can be told from its ledger alone (`History.writtenBy`).
-/

namespace GatewayClient

/-- Something that is written to a client. -/
inductive ClientWrite
  | configured (s : ClientSettings)
  | set (s : ClientSetting)
  | applied (r : Recommendation)
  | listened (category : ListenerCategory) (listener : Sink)

namespace ClientWrite

/-! ## What an entry writes -/

def credential? : ClientWrite → Option (Option Credential)
  | configured s => some (s.token.map Credential.mk)
  | set (.token text) => some (some ⟨text⟩)
  | _ => none

def accountType? : ClientWrite → Option AccountType
  | configured s => some s.accountType
  | set (.accountType a) => some a
  | _ => none

def waitForServers? : ClientWrite → Option Bool
  | configured s => some s.waitForServersOnStartup
  | set (.waitForServers b) => some b
  | _ => none

def trust? : ClientWrite → Option Bool
  | configured s => some s.trustAllCertificates
  | set (.trustAllCertificates b) => some b
  | _ => none

def proxy? : ClientWrite → Option ProxyConfig
  | configured s => some s.proxy
  | set (.proxy p) => some p
  | _ => none

def endpoint? : ClientWrite → Option (Option String)
  | set (.endpoint address) => some (some address)
  | applied r => some (some r.endpoint)
  | _ => none

def backoff? : ClientWrite → Option Backoff
  | configured s => some s.discovery
  | set (.backoff b) => some b
  | _ => none

def registration? : ClientWrite → Option Registration
  | listened category listener => some (category, listener)
  | _ => none

end ClientWrite

/-- The value of a field that was written last. -/
def lastWritten {α : Type} (field? : ClientWrite → Option α) (default : α)
    (ws : List ClientWrite) : α :=
  (ws.filterMap field?).getLast?.getD default

theorem lastWritten_concat {α : Type} (field? : ClientWrite → Option α) (default : α)
    (ws : List ClientWrite) (x : ClientWrite) :
    lastWritten field? default (ws ++ [x]) = (field? x).getD (lastWritten field? default ws) := by
  unfold lastWritten
  cases hx : field? x with
  | none => simp [List.filterMap_append, hx]
  | some a => simp [List.filterMap_append, hx]

/-- The registrations among writes, in order. -/
def registrations (ws : List ClientWrite) : List Registration := ws.filterMap (·.registration?)

theorem registrations_concat (ws : List ClientWrite) (x : ClientWrite) :
    registrations (ws ++ [x]) = registrations ws ++ x.registration?.toList := by
  unfold registrations
  cases hx : x.registration? with
  | none => simp [List.filterMap_append, hx]
  | some r => simp [List.filterMap_append, hx]

namespace Client

/-- A client is what a row of writes says, the last one first. -/
structure WrittenBy (c : Client) (ws : List ClientWrite) : Prop where
  credential : c.credential = lastWritten (·.credential?) none ws
  accountType : c.accountType = lastWritten (·.accountType?) .bot ws
  waitForServers : c.waitForServersOnStartup = lastWritten (·.waitForServers?) true ws
  trust : c.trustAllCertificates = lastWritten (·.trust?) false ws
  proxy : c.proxy = lastWritten (·.proxy?) {} ws
  endpoint : c.endpoint = lastWritten (·.endpoint?) none ws
  backoff : c.backoff = lastWritten (·.backoff?) {} ws
  listeners : c.listeners.Holds (registrations ws)

/-- A write makes one client of another. -/
structure Amends (x : ClientWrite) (c c' : Client) : Prop where
  credential : c'.credential = x.credential?.getD c.credential
  accountType : c'.accountType = x.accountType?.getD c.accountType
  waitForServers : c'.waitForServersOnStartup = x.waitForServers?.getD c.waitForServersOnStartup
  trust : c'.trustAllCertificates = x.trust?.getD c.trustAllCertificates
  proxy : c'.proxy = x.proxy?.getD c.proxy
  endpoint : c'.endpoint = x.endpoint?.getD c.endpoint
  backoff : c'.backoff = x.backoff?.getD c.backoff
  listeners : c'.listeners =
    x.registration?.elim c.listeners fun r => (c.listeners.register r.1 r.2).1

theorem WrittenBy.concat {c c' : Client} {ws : List ClientWrite} {x : ClientWrite}
    (hwritten : c.WrittenBy ws) (hamends : Amends x c c') : c'.WrittenBy (ws ++ [x]) where
  credential := by rw [lastWritten_concat, ← hwritten.credential, hamends.credential]
  accountType := by rw [lastWritten_concat, ← hwritten.accountType, hamends.accountType]
  waitForServers := by rw [lastWritten_concat, ← hwritten.waitForServers, hamends.waitForServers]
  trust := by rw [lastWritten_concat, ← hwritten.trust, hamends.trust]
  proxy := by rw [lastWritten_concat, ← hwritten.proxy, hamends.proxy]
  endpoint := by rw [lastWritten_concat, ← hwritten.endpoint, hamends.endpoint]
  backoff := by rw [lastWritten_concat, ← hwritten.backoff, hamends.backoff]
  listeners := by
    rw [hamends.listeners, registrations_concat]
    cases x.registration? with
    | none => simpa using hwritten.listeners
    | some r => exact hwritten.listeners.register r.1 r.2

/-! ## What is written to a client -/

theorem amends_set {c c' : Client} {s : ClientSetting} (hset : c.set s = .ok c') :
    Amends (.set s) c c' := by
  cases s with
  | totalShards n =>
      unfold set setTotalShards at hset
      dsimp only at hset
      split at hset <;> cases hset
      exact ⟨rfl, rfl, rfl, rfl, rfl, rfl, rfl, rfl⟩
  | currentShard n =>
      unfold set setCurrentShard at hset
      dsimp only at hset
      split at hset <;> cases hset
      exact ⟨rfl, rfl, rfl, rfl, rfl, rfl, rfl, rfl⟩
  | backoff b =>
      unfold set setBackoff at hset
      dsimp only at hset
      split at hset <;> cases hset
      exact ⟨rfl, rfl, rfl, rfl, rfl, rfl, rfl, rfl⟩
  | _ =>
      cases hset
      exact ⟨rfl, rfl, rfl, rfl, rfl, rfl, rfl, rfl⟩

theorem amends_applied {c c' : Client} {r : Recommendation}
    (hset : c.setTotalShards r.shardCount = .ok c') :
    Amends (.applied r) c { c' with endpoint := some r.endpoint } := by
  obtain ⟨numbering, rfl, -⟩ := setTotalShards_ok hset
  exact ⟨rfl, rfl, rfl, rfl, rfl, rfl, rfl, rfl⟩

theorem amends_addListener (c : Client) (category : ListenerCategory) (listener : Sink) :
    Amends (.listened category listener) c (c.addListener category listener).1 :=
  ⟨rfl, rfl, rfl, rfl, rfl, rfl, rfl, rfl⟩

/-- A client as it is made, and what was written to it then. -/
inductive Created : Client → List ClientWrite → Prop
  | fresh : Created {} []
  | ofSettings {s : ClientSettings} {c : Client} : Client.ofSettings s = .ok c →
      Created c [.configured s]

theorem Created.writtenBy {c : Client} {ws : List ClientWrite} (hcreated : c.Created ws) :
    c.WrittenBy ws := by
  cases hcreated with
  | fresh => exact ⟨rfl, rfl, rfl, rfl, rfl, rfl, rfl, ListenerRegistry.holds_empty⟩
  | ofSettings hmade =>
      unfold Client.ofSettings at hmade
      split at hmade
      · cases hmade
      · split at hmade
        · cases hmade
        · unfold setBackoff at hmade
          dsimp only at hmade
          split at hmade <;> cases hmade
          exact ⟨rfl, rfl, rfl, rfl, rfl, rfl, rfl, ListenerRegistry.holds_empty⟩

end Client

/-! ## Entries of the ledger -/

/-- What a call writes to the client on which it is made, if it is not refused. -/
def Step.write? (w : World) : Step → Option ClientWrite
  | .set s =>
    match w.client.set s with
    | .ok _ => some (.set s)
    | .error _ => none
  | .addListener category consumer reaction =>
    some (.listened category (.consumer (w.hub.addConsumer consumer reaction).1))
  | .addPipeline category stage =>
    match w.hub.find? stage with
    | .ok id => some (.listened category (.stage id))
    | .error _ => none
  | _ => none

/-- What a run of a task writes to a client: a lookup of it applies what it has found. -/
def Work.write? (k : ClientId) (wake : Wake) (w : World) : Work → Option ClientWrite
  | .lookup k' l phase =>
    if k' = k then
      match (w.stepLookup l phase wake).2.next with
      | .returned (.ok report) =>
        match ((w.clients[k]?).getD {}).setTotalShards report.recommendation.shardCount with
        | .ok _ => some (.applied report.recommendation)
        | .error _ => none
      | _ => none
    else none
  | _ => none

/-- What a passage writes to a client. -/
def Passage.write? (k : ClientId) (p : Passage) : Option ClientWrite :=
  match p.mover with
  | .caller s => if p.before.current = k then s.write? p.before else none
  | .task id wake =>
    match p.before.scheduler.tasks[id]? with
    | some (.live work) => work.write? k wake p.before
    | _ => none
  | .surroundings => none

/-- The ledger of a client over some passages. -/
def writesTo (k : ClientId) (ps : List Passage) : List ClientWrite := ps.filterMap (·.write? k)

theorem writesTo_concat (k : ClientId) (ps : List Passage) (p : Passage) :
    writesTo k (ps ++ [p]) = writesTo k ps ++ (p.write? k).toList := by
  unfold writesTo
  cases hp : p.write? k with
  | none => simp [List.filterMap_append, hp]
  | some x => simp [List.filterMap_append, hp]

/-- From one client another has come, by an entry if there is one. -/
def Client.Turns (x? : Option ClientWrite) (c c' : Client) : Prop :=
  match x? with
  | none => c' = c
  | some x => Client.Amends x c c'

theorem Client.WrittenBy.turn {c c' : Client} {ws : List ClientWrite} {x? : Option ClientWrite}
    (hwritten : c.WrittenBy ws) (hturns : Client.Turns x? c c') :
    c'.WrittenBy (ws ++ x?.toList) := by
  cases x? with
  | none =>
      obtain rfl : c' = c := hturns
      simpa using hwritten
  | some x => exact hwritten.concat hturns

namespace World

/-- The client `k` is there before and after, and an entry tells what has become of it. -/
def Enters (k : ClientId) (x? : Option ClientWrite) (w w' : World) : Prop :=
  ∀ c, w.clients[k]? = some c → ∃ c', w'.clients[k]? = some c' ∧ Client.Turns x? c c'

variable {w w' : World} {k : ClientId}

theorem SameClients.enters (hsame : w.SameClients w') : w.Enters k none w' :=
  fun c hc => ⟨c, by rw [hsame.clients]; exact hc, rfl⟩

theorem enters_refl (w : World) : w.Enters k none w := fun c hc => ⟨c, hc, rfl⟩

/-- Writing the client `k'` is an entry in its own ledger only. -/
theorem enters_set {k' : ClientId} {c' : Client} {x : ClientWrite}
    (hclients : w'.clients = w.clients.setIfInBounds k' c')
    (hamends : ∀ c, w.clients[k']? = some c → Client.Amends x c c') :
    w.Enters k (if k' = k then some x else none) w' := by
  intro c hc
  have hlt := (Array.getElem?_eq_some_iff.mp hc).1
  rw [hclients, Array.getElem?_setIfInBounds]
  by_cases hk : k' = k
  · subst hk
    rw [if_pos rfl, if_pos hlt, if_pos rfl]
    exact ⟨c', rfl, hamends c hc⟩
  · rw [if_neg hk, if_neg hk]
    exact ⟨c, hc, rfl⟩

theorem enters_listen (category : ListenerCategory) (listener : Sink) (w : World) :
    w.Enters k (if w.current = k then some (.listened category listener) else none)
      (w.listen category listener) := by
  have hclients : (w.listen category listener).clients =
      w.clients.setIfInBounds w.current (w.client.addListener category listener).1 := rfl
  refine enters_set hclients fun c hc => ?_
  rw [client_eq hc]
  exact Client.amends_addListener c category listener

theorem enters_perform (w : World) {s : Step} (hwaits : ¬ s.Waits) :
    w.Enters k (if w.current = k then s.write? w else none) (w.perform s).1 := by
  have hnone : (if w.current = k then none else none : Option ClientWrite) = none := ite_self none
  by_cases hconfigures : s.Configures
  · cases s with
    | set s =>
        rw [perform_set, Step.write?]
        cases hset : w.client.set s with
        | error e =>
            rw [hnone]
            exact enters_refl w
        | ok c' =>
            have hclients : (w.setClient c').clients = w.clients.setIfInBounds w.current c' := rfl
            refine enters_set hclients fun c hc => ?_
            rw [client_eq hc] at hset
            exact Client.amends_set hset
    | ofSettings s =>
        have hwrite : (Step.ofSettings s).write? w = none := rfl
        rw [perform_ofSettings, hwrite, hnone]
        cases Client.ofSettings s with
        | error e => exact enters_refl w
        | ok c₁ =>
            intro c hc
            have hlt := (Array.getElem?_eq_some_iff.mp hc).1
            refine ⟨c, ?_, rfl⟩
            change (w.clients.push c₁)[k]? = some c
            rw [Array.getElem?_push_lt hlt, ← hc]
            exact (Array.getElem?_eq_getElem hlt).symm
    | addListener category consumer reaction =>
        exact enters_listen category _ { w with hub := (w.hub.addConsumer consumer reaction).2 }
    | addPipeline category stage =>
        rw [perform_addPipeline, Step.write?]
        cases w.hub.find? stage with
        | error f =>
            rw [hnone]
            exact enters_refl w
        | ok id => exact enters_listen category (.stage id) w
    | _ => exact hconfigures.elim
  · have hsame := perform_same w hwaits hconfigures
    have hwrite : s.write? w = none := by
      cases s with
      | set => exact absurd trivial hconfigures
      | addListener => exact absurd trivial hconfigures
      | addPipeline => exact absurd trivial hconfigures
      | _ => rfl
    rw [hwrite, hnone]
    exact hsame.enters

theorem enters_lookup {id : TaskId} {k' : ClientId} {l : Lookup} {phase : Option LookupPhase}
    (htask : w.scheduler.tasks[id]? = some (.live (.lookup k' l phase))) (wake : Wake) :
    w.Enters k (Work.write? k wake w (.lookup k' l phase)) (w.runTask id wake) := by
  have hrun := runTask_lookup htask wake
  have hstep : (w.stepLookup l phase wake).2 = Lookup.Leg.step ⟨w, l, phase, wake⟩ := rfl
  have hnone : (if k' = k then none else none : Option ClientWrite) = none := ite_self none
  rw [Work.write?, hstep]
  generalize hafter : w.runTask id wake = w' at hrun
  cases hrun with
  | waits hnext hsame =>
      rw [hnext, hnone]
      exact SameClients.enters hsame
  | faults hnext hsame =>
      rw [hnext, hnone]
      exact SameClients.enters hsame
  | fails hnext hsame =>
      rw [hnext, hnone]
      exact SameClients.enters hsame
  | refused hnext hset hsame =>
      rw [hnext]
      by_cases hk : k' = k
      · subst hk
        simp only [if_true, hset]
        exact SameClients.enters hsame
      · rw [if_neg hk]
        exact SameClients.enters hsame
  | @applied report c' hnext hset hcurrent hclients =>
      have henters :
          w.Enters k (if k' = k then some (.applied report.recommendation) else none) w' := by
        refine enters_set hclients fun c hc => ?_
        rw [hc] at hset
        exact Client.amends_applied hset
      rw [hnext]
      by_cases hk : k' = k
      · subst hk
        simpa only [if_true, hset] using henters
      · rwa [if_neg hk] at henters ⊢

theorem enters_runTask (id : TaskId) (wake : Wake) (w : World) :
    w.Enters k (Passage.write? k ⟨w, .task id wake, w.runTask id wake⟩) (w.runTask id wake) := by
  unfold Passage.write?
  dsimp only
  split
  · next work htask =>
    cases work with
    | lookup k' l phase => exact enters_lookup htask wake
    | _ =>
        intro c hc
        rw [runTask_clients wake htask, (run_same (fun _ _ _ heq => by cases heq) wake w).clients]
        exact ⟨c, hc, rfl⟩
  · next hidle =>
    rw [(runTask_idle wake hidle).2]
    exact enters_refl w

/-- What a passage does to a client is what its entry says. -/
theorem Passes.enters {mover : Mover} (hpasses : w.Passes mover w') :
    w.Enters k (Passage.write? k ⟨w, mover, w'⟩) w' := by
  cases hpasses with
  | call hwaits => exact enters_perform w hwaits
  | task id wake => exact enters_runTask id wake w
  | aside hbeside => exact hbeside.toSameClients.enters

/-- At every point of a history a client is what its ledger says. -/
theorem History.writtenBy {w₀ : World} {ps : List Passage} (hhistory : w₀.History ps w)
    {c₀ : Client} {ws : List ClientWrite} (hclient : w₀.clients[k]? = some c₀)
    (hwritten : c₀.WrittenBy ws) :
    ∃ c, w.clients[k]? = some c ∧ c.WrittenBy (ws ++ writesTo k ps) := by
  induction hhistory with
  | start => exact ⟨c₀, hclient, by simpa [writesTo] using hwritten⟩
  | passage _ hpasses ih =>
      obtain ⟨c, hc, hwritten⟩ := ih
      obtain ⟨c', hc', hturns⟩ := hpasses.enters c hc
      refine ⟨c', hc', ?_⟩
      rw [writesTo_concat, ← List.append_assoc]
      exact hwritten.turn hturns

end World

end GatewayClient
