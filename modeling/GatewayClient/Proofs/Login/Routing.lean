import GatewayClient.Proofs.Delivery.Nesting
import GatewayClient.Proofs.Login.Configuration
import GatewayClient.Proofs.Scenario.Pipelines

/-!
# Which listeners a session serves

The listeners of a session are fixed by the login from which it came: they are the registrations of
the client before that call, and an event goes to those of its category in the order in which they
were made. Neither is the list touched by what is registered later, nor does it depend on the other
categories. A pipeline in the list is the one that everybody else has, so what is appended to it
after the login counts for the events that come after that.
-/

namespace GatewayClient.World

variable {w₀ w w' : World} {c₀ : Client} {k : ClientId} {ws : List ClientWrite}
  {ps ps' : List Passage} {s : Step} {shards : List UInt32} {id : TaskId} {sess : Session}

/-- A session that a login led to has the listeners registered before the login. -/
theorem session_listeners (hcreated : c₀.Created ws) (hclient : w₀.clients[k]? = some c₀)
    (hhistory : w₀.History ps w) (hcurrent : w.current = k)
    (hasks : s.asks? w.client = some shards) (hlater : (w.perform s).1.History ps' w')
    (hnew : w.scheduler.tasks.size ≤ id) (hlt : id < (w.perform s).1.scheduler.tasks.size)
    (hresult : w'.result? (.task id) = some (.ok (.session sess))) (category : ListenerCategory) :
    sess.listenersFor category =
      registeredFor category (registrations (ws ++ writesTo k ps)) := by
  obtain ⟨c, hc, hwritten⟩ := hhistory.writtenBy hclient hcreated.writtenBy
  obtain ⟨i, q, -, -, -, hmade, htask⟩ := asks_news hasks hnew hlt
  rw [client_eq (hcurrent ▸ hc)] at hmade
  obtain ⟨-, hlisteners⟩ := (hlater.connecting htask).session hresult
  have hregistered := (hwritten.request hmade).listeners
  change registeredFor category sess.listeners = _
  rw [hlisteners, hregistered, registeredFor_byCategory]

/-- **Events are routed as registered before the login.** An event that comes to a session is
brought to the listeners that its client had for the category before the login that led to the
session, in the order of their registrations and once for each; to all of them unless one breaks
off, and to no others. Where there are no cycles and consumers feed nothing back, it is a fault if
not all of them are reached: the delivery does not nest too deep, unless consumers append ten
thousand stages in its course. What a pipeline among the listeners lets through goes to all sinks
that the pipeline had at any point after the login, among them those that were appended then. -/
theorem session_routes_events (hcreated : c₀.Created ws) (hclient : w₀.clients[k]? = some c₀)
    (hhistory : w₀.History ps w) (hcurrent : w.current = k)
    (hasks : s.asks? w.client = some shards) (hlater : (w.perform s).1.History ps' w')
    (hnew : w.scheduler.tasks.size ≤ id) (hlt : id < (w.perform s).1.scheduler.tasks.size)
    (hresult : w'.result? (.task id) = some (.ok (.session sess))) {name : String}
    (hfound : w'.gateway.sessions.find? (·.id.text = name) = some sess)
    (category : ListenerCategory) (payload : Json) :
    ∃ l hub o, w'.perform (.deliver name category payload) =
        ({ w' with hub }, .hub (.outcome o))
      ∧ Routed (registeredFor category (registrations (ws ++ writesTo k ps)))
          ⟨category, sess.shard.index, payload⟩ w'.hub l hub o
      ∧ (∀ kind, w'.hub.Only kind →
          (∀ sink ∈ registeredFor category (registrations (ws ++ writesTo k ps)),
            sink.OfKind kind) →
          (Confined Consumer.acts Act.Plain kind → w'.hub.Acyclic → o ≠ .tooDeep)
            ∧ (Confined Consumer.acts (¬ ·.Emits) kind → hub.Acyclic →
              hub.stages.size < w'.hub.stages.size + 10000 → o ≠ .tooDeep))
      ∧ (o = .done → Calm ps' → ∀ p ∈ ps', ∀ st stage out,
          .stage st ∈ registeredFor category (registrations (ws ++ writesTo k ps)) →
          p.after.hub.stages[st]? = some stage →
          stage.operation.apply ⟨category, sess.shard.index, payload⟩ = .ok (some out) →
            ∃ (n : Nat) (g : Hub), l[n]? = some ⟨.began (.stage st) out, g⟩
              ∧ stage.sinks.map (·, out) <+: visits (n + 1) l) := by
  have hlisteners := session_listeners hcreated hclient hhistory hcurrent hasks hlater hnew hlt
    hresult category
  have hdeliver : w'.perform (.deliver name category payload) =
      w'.deliverTo name category payload := rfl
  obtain ⟨l, hrouted⟩ := Hub.serve_routes Consumer.acts (sess.listenersFor category)
    ⟨category, sess.shard.index, payload⟩ w'.hub
  rw [hlisteners] at hrouted
  refine ⟨l, _, _, ?_, hrouted, fun kind honly hlisten => ⟨fun hconfined hacyclic => ?_,
    fun hconfined hacyclic hfew => ?_⟩, ?_⟩
  · rw [hdeliver, deliverTo, hfound, ← hlisteners]
  · exact Hub.serve_ends hacyclic hconfined honly hlisten _
  · exact Hub.serve_ends_of_few hconfined hlisten _ honly hacyclic hfew
  · intro hdone hcalm p hp st stage out hlistens hstage hout
    rw [hdone] at hrouted
    obtain ⟨more, hstage'⟩ := (hlater.grows hcalm).2 p hp st stage hstage
    obtain ⟨n, g, hbegan, hvisits⟩ := hrouted.appended hlistens hstage' hout
    refine ⟨n, g, hbegan, List.IsPrefix.trans ?_ hvisits⟩
    rw [List.map_append]
    exact List.prefix_append _ _

/-- A world with a pipeline and a consumer that listen. -/
def listeningWorld : World :=
  ((((World.perform {} (.set (.token "tok"))).1.perform
    (.hub (.start "pipe" .failFast))).1.perform (.addPipeline .resume "pipe")).1.perform
      (.addListener .resume "early" .none)).1

/-- After the login a second consumer listens and a sink is appended to the pipeline; then the task
of the login runs. -/
def connectedWorld : World :=
  ((((listeningWorld.perform (.login "h")).1.perform
    (.addListener .resume "late" .none)).1.perform
      (.hub (.consume "pipe" "appended" .none))).1.runTask 0 .started)

/-- The second consumer comes too late, the sink of the pipeline does not. -/
theorem session_routes_events_appended :
    ∃ ps ps' l hub, History {} ps listeningWorld
      ∧ (listeningWorld.perform (.login "h")).1.History ps' connectedWorld
      ∧ Routed (registeredFor .resume (registrations (writesTo 0 ps))) ⟨.resume, 0, .null⟩
        connectedWorld.hub l hub .done
      ∧ hub.received.map (·.consumer) = ["appended", "early"] := by
  have hbefore : History {} _ listeningWorld := World.History.start
    |>.passage (.call (s := .set (.token "tok")) id)
    |>.passage (.call (s := .hub (.start "pipe" .failFast)) id)
    |>.passage (.call (s := .addPipeline .resume "pipe") id)
    |>.passage (.call (s := .addListener .resume "early" .none) id)
  have hafter : (listeningWorld.perform (.login "h")).1.History _ connectedWorld :=
    World.History.start
      |>.passage (.call (s := .addListener .resume "late" .none) id)
      |>.passage (.call (s := .hub (.consume "pipe" "appended" .none)) id)
      |>.passage (.task 0 .started)
  let sess : Session := ⟨1, .unsharded, listeningWorld.client.listeners.snapshot⟩
  have hresult : connectedWorld.result? (.task 0) = some (.ok (.session sess)) := rfl
  have hfound : connectedWorld.gateway.sessions.find? (·.id.text = "s1") = some sess := rfl
  have hlisteners := session_listeners (s := .login "h") .fresh rfl hbefore rfl rfl hafter
    (by decide) (by decide) hresult .resume
  obtain ⟨l, hub, o, hperform, hrouted, -⟩ :=
    session_routes_events (s := .login "h") .fresh rfl hbefore rfl rfl hafter
      (by decide) (by decide) hresult hfound .resume .null
  have hdeliver : connectedWorld.perform (.deliver "s1" .resume .null) =
      connectedWorld.deliverTo "s1" .resume .null := rfl
  rw [hdeliver, deliverTo, hfound] at hperform
  simp only [hlisteners] at hperform
  obtain ⟨hhub, ho⟩ := Prod.mk.inj hperform
  cases congrArg World.hub hhub
  cases ho
  exact ⟨_, _, l, _, hbefore, hafter, hrouted, rfl⟩

end GatewayClient.World
