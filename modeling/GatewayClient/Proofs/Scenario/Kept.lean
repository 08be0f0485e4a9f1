import GatewayClient.Proofs.Scenario.History
import GatewayClient.Proofs.Scenario.Ledger

/-!
# What is true of every client

Clients are made fresh or from settings, and from then on they are changed by setters, by
recommendations and by registrations, each of which may refuse. What is true of a client that is
made and stays so over each of these is true of every client at every point of a history
(`Client.Kept.history`). One such thing is that a client has a backoff that validates
(`Client.kept_backoff`): all that is stored has passed the same check.
-/

namespace GatewayClient

/-- True of every client that is made, and not lost by any change. -/
structure Client.Kept (P : Client → Prop) : Prop where
  fresh : P {}
  ofSettings : ∀ {s : ClientSettings} {c : Client}, Client.ofSettings s = .ok c → P c
  set : ∀ {s : ClientSetting} {c c' : Client}, P c → c.set s = .ok c' → P c'
  addListener : ∀ {c : Client} (category : ListenerCategory) (listener : Sink), P c →
    P (c.addListener category listener).1

namespace Client

/-! ## Backoffs -/

theorem setBackoff_ok {c c' : Client} {b : Backoff} (hset : c.setBackoff b = .ok c') :
    b.validate = .ok () ∧ c'.backoff = b := by
  unfold setBackoff at hset
  split at hset
  · next hvalid =>
    cases hset
    exact ⟨hvalid, rfl⟩
  · cases hset

theorem ofSettings_backoff {s : ClientSettings} {c : Client} (hmade : ofSettings s = .ok c) :
    s.discovery.validate = .ok () ∧ c.backoff = s.discovery := by
  unfold ofSettings at hmade
  split at hmade
  · cases hmade
  · split at hmade
    · cases hmade
    · exact setBackoff_ok hmade

/-- What is true of every backoff that validates is true of the backoff of every client. -/
theorem kept_backoff {Q : Backoff → Prop} (hQ : ∀ b : Backoff, b.validate = .ok () → Q b) :
    Kept fun c => Q c.backoff where
  fresh := hQ {} Backoff.validate_default
  ofSettings := by
    intro s c hmade
    obtain ⟨hvalid, hbackoff⟩ := ofSettings_backoff hmade
    rw [hbackoff]
    exact hQ _ hvalid
  set := by
    intro s c c' hc hset
    have hbackoff := (amends_set hset).backoff
    cases s with
    | backoff b =>
        obtain ⟨hvalid, hstored⟩ := setBackoff_ok hset
        rw [hstored]
        exact hQ _ hvalid
    | _ => rw [hbackoff]; exact hc
  addListener := fun _ _ hc => hc

end Client

namespace World

variable {P : Client → Prop} {w w' : World}

/-- A client by its number is one of the clients, or a fresh one. -/
theorem getD_kept (hP : Client.Kept P) (hall : ∀ c ∈ w.clients, P c) (k : ClientId) :
    P ((w.clients[k]?).getD {}) := by
  cases hc : w.clients[k]? with
  | none => exact hP.fresh
  | some c => exact hall c (Array.mem_of_getElem? hc)

theorem write_kept {k : ClientId} {c : Client} (hall : ∀ c ∈ w.clients, P c)
    (hclients : w'.clients = w.clients.setIfInBounds k c) (hc : P c) :
    ∀ c ∈ w'.clients, P c := by
  intro c' hc'
  rw [hclients] at hc'
  rcases Array.mem_or_eq_of_mem_setIfInBounds hc' with hold | rfl
  · exact hall c' hold
  · exact hc

theorem perform_kept (hP : Client.Kept P) (w : World) {s : Step} (hwaits : ¬ s.Waits)
    (hall : ∀ c ∈ w.clients, P c) : ∀ c ∈ (w.perform s).1.clients, P c := by
  have hclient : P w.client := getD_kept hP hall w.current
  by_cases hconfigures : s.Configures
  · cases s with
    | set s =>
        rw [perform_set]
        cases hset : w.client.set s with
        | error e => exact hall
        | ok c => exact write_kept hall (k := w.current) rfl (hP.set hclient hset)
    | ofSettings s =>
        rw [perform_ofSettings]
        cases hmade : Client.ofSettings s with
        | error e => exact hall
        | ok c =>
            intro c' hc'
            rcases Array.mem_push.mp hc' with hold | rfl
            · exact hall c' hold
            · exact hP.ofSettings hmade
    | addListener category consumer reaction =>
        exact write_kept hall (k := w.current) rfl (hP.addListener category _ hclient)
    | addPipeline category stage =>
        rw [perform_addPipeline]
        cases w.hub.find? stage with
        | error f => exact hall
        | ok id => exact write_kept hall (k := w.current) rfl (hP.addListener category _ hclient)
    | _ => exact hconfigures.elim
  · rw [(perform_same w hwaits hconfigures).clients]
    exact hall

theorem runTask_kept (hP : Client.Kept P) (id : TaskId) (wake : Wake)
    (hall : ∀ c ∈ w.clients, P c) : ∀ c ∈ (w.runTask id wake).clients, P c := by
  by_cases hlookup : ∃ k l phase, w.scheduler.tasks[id]? = some (.live (.lookup k l phase))
  · obtain ⟨k, l, phase, htask⟩ := hlookup
    have hrun := runTask_lookup htask wake
    generalize w.runTask id wake = w' at hrun ⊢
    cases hrun with
    | waits _ hsame => exact hsame.clients ▸ hall
    | faults _ hsame => exact hsame.clients ▸ hall
    | fails _ hsame => exact hsame.clients ▸ hall
    | refused _ _ hsame => exact hsame.clients ▸ hall
    | @applied report c _ hset _ hclients =>
        -- Both writes are such as a call makes.
        have hc : P c := hP.set (s := .totalShards report.recommendation.shardCount)
          (getD_kept hP hall k) hset
        exact write_kept hall hclients
          (hP.set (s := .endpoint report.recommendation.endpoint) hc rfl)
  · by_cases hlives : ∃ work, w.scheduler.tasks[id]? = some (.live work)
    · obtain ⟨work, htask⟩ := hlives
      have hother : ∀ k l phase, work ≠ .lookup k l phase := by
        rintro k l phase rfl
        exact hlookup ⟨k, l, phase, htask⟩
      rw [runTask_clients wake htask, (run_same hother wake w).clients]
      exact hall
    · rw [(runTask_idle wake fun work hlive => hlives ⟨work, hlive⟩).2]
      exact hall

end World

namespace Client

variable {P : Client → Prop} {w w' : World}

theorem Kept.passage (hP : Kept P) {mover : Mover} (hpasses : w.Passes mover w')
    (hall : ∀ c ∈ w.clients, P c) : ∀ c ∈ w'.clients, P c := by
  cases hpasses with
  | call hwaits => exact World.perform_kept hP w hwaits hall
  | task id wake => exact World.runTask_kept hP id wake hall
  | aside hbeside => exact hbeside.clients ▸ hall

/-- At every point of a history. -/
theorem Kept.history (hP : Kept P) {ps : List Passage} (hhistory : w.History ps w')
    (hall : ∀ c ∈ w.clients, P c) : ∀ c ∈ w'.clients, P c := by
  induction hhistory with
  | start => exact hall
  | passage _ hpasses ih => exact hP.passage hpasses ih

end Client

end GatewayClient
