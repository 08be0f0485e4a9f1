import GatewayClient.Proofs.Scenario.Application

/-!
# The connection that a task opens

The task of a login carries the request with which it was started. Whatever happens before it runs,
the gateway receives this request from it, and it receives it once: a task that waits to run has
opened nothing yet, and after its first run it never comes to the gateway again. So at every point
of a history a task stands in one of three ways (`Connecting`), and a session that it returns has
the shard and the listeners of the request.
-/

namespace GatewayClient

/-- The requests that the gateway received in a passage. -/
def Passage.received (p : Passage) : List ConnectionRequest :=
  p.after.gateway.requests.drop p.before.gateway.requests.length

/-- The requests that the gateway received from a task. -/
def receivedFrom (id : TaskId) (ps : List Passage) : List ConnectionRequest :=
  ps.flatMap fun p =>
    match p.mover with
    | .task id' _ => if id' = id then p.received else []
    | _ => []

theorem receivedFrom_concat (id : TaskId) (ps : List Passage) (p : Passage) :
    receivedFrom id (ps ++ [p]) = receivedFrom id ps ++ receivedFrom id [p] :=
  List.flatMap_append

theorem receivedFrom_other {id : TaskId} {p : Passage} (hother : ¬ p.By id) :
    receivedFrom id [p] = [] := by
  unfold receivedFrom
  rw [List.flatMap_singleton]
  split
  · next id' wake hmover =>
    refine if_neg fun heq => hother ⟨wake, ?_⟩
    rw [hmover, heq]
  · rfl

theorem receivedFrom_own {id : TaskId} {p : Passage} {wake : Wake}
    (hmover : p.mover = .task id wake) : receivedFrom id [p] = p.received := by
  simp [receivedFrom, hmover]

/-- The session that a connection leads to. -/
def ConnectionRequest.Gives (q : ConnectionRequest) (s : Session) : Prop :=
  s.shard = q.shard ∧ s.listeners = q.listeners

/-- An ending of the task of a connection: what it finds is a session of its request. -/
def Ending.Of (q : ConnectionRequest) (ending : Ending) : Prop :=
  ∀ f, ending.result = .ok f → ∃ s, f = .session s ∧ q.Gives s

theorem Ending.Of.of_aborted (q : ConnectionRequest) : Ending.aborted.Of q := by
  intro f hf
  cases hf

namespace World

theorem openSession_gateway (number : Nat) (q : ConnectionRequest) (response : Response Unit)
    (w : World) : (w.openSession number q response).1.gateway.requests = w.gateway.requests := by
  cases response <;> rfl

theorem openSession_ended (number : Nat) (q : ConnectionRequest) (response : Response Unit)
    (w : World) :
    ∃ ending, (w.openSession number q response).2 = .ended ending ∧ ending.Of q := by
  cases response with
  | answer _ =>
      refine ⟨_, rfl, fun f hf => ?_⟩
      cases hf
      exact ⟨_, rfl, rfl, rfl⟩
  | refusal e => exact ⟨_, rfl, fun f hf => by cases hf⟩
  | fault f₀ =>
      refine ⟨_, rfl, fun f hf => ?_⟩
      cases f₀ <;> cases hf

/-- What a run of the task of a connection comes to: the task sleeps until the gateway answers, or
it ends. -/
inductive Opened (q : ConnectionRequest) : Progress → Prop
  | asleep {number ms : Nat} {response : Response Unit} {token : Option String} :
      Opened q (.asleep (.opening number q response) ms token)
  | ended {ending : Ending} : ending.Of q → Opened q (.ended ending)

theorem connect_opened (q : ConnectionRequest) (w : World) :
    (w.connect q).1.gateway.requests = w.gateway.requests ++ [q] ∧ Opened q (w.connect q).2 := by
  unfold connect
  dsimp only
  split
  · exact ⟨rfl, .asleep⟩
  · refine ⟨openSession_gateway _ _ _ _, ?_⟩
    obtain ⟨ending, hended, hof⟩ := openSession_ended (w.gateway.taken + 1) q
      (w.gateway.behaviour q.shard.index).response
      ({ w with
          gateway :=
            { w.gateway with
              taken := w.gateway.taken + 1
              requests := w.gateway.requests ++ [q] } }.note handshake)
    rw [hended]
    exact .ended hof

/-- How the task of a connection stands after some passages. -/
inductive Connecting (id : TaskId) (q : ConnectionRequest) (ps : List Passage) (w : World) : Prop
  | waiting : w.scheduler.tasks[id]? = some (.live (.connect q)) → receivedFrom id ps = [] →
      Connecting id q ps w
  | opening {number : Nat} {response : Response Unit} :
      w.scheduler.tasks[id]? = some (.live (.opening number q response)) →
      receivedFrom id ps = [q] → Connecting id q ps w
  | ended {ending : Ending} : w.scheduler.tasks[id]? = some (.ended ending) → ending.Of q →
      receivedFrom id ps = [q] ∨ receivedFrom id ps = [] ∧ ending = .aborted → Connecting id q ps w

variable {id : TaskId} {q : ConnectionRequest} {ps : List Passage} {w : World}

theorem runTask_live {work : Work} (htask : w.scheduler.tasks[id]? = some (.live work))
    (wake : Wake) :
    (w.runTask id wake).gateway = (w.run work wake).1.gateway
      ∧ (w.runTask id wake).scheduler.tasks[id]? = some (w.run work wake).2.task := by
  rw [runTask_eq htask]
  refine ⟨rfl, ?_⟩
  rw [Scheduler.tasks_settle, run_tasks]
  exact Array.getElem?_setIfInBounds_self_of_lt (Array.getElem?_eq_some_iff.mp htask).1

/-- The first run of the task: the gateway receives the request. -/
theorem connecting_of_first (htask : w.scheduler.tasks[id]? = some (.live (.connect q)))
    (hnone : receivedFrom id ps = []) (wake : Wake) :
    Connecting id q (ps ++ [⟨w, .task id wake, w.runTask id wake⟩]) (w.runTask id wake) := by
  obtain ⟨hgateway, hafter⟩ := runTask_live htask wake
  obtain ⟨hrequests, hopened⟩ := connect_opened q w
  have hreceived : receivedFrom id (ps ++ [⟨w, .task id wake, w.runTask id wake⟩]) = [q] := by
    rw [receivedFrom_concat, hnone, receivedFrom_own rfl, Passage.received, hgateway]
    change [] ++ (w.connect q).1.gateway.requests.drop _ = _
    rw [hrequests, List.nil_append, List.drop_left]
  change _ = some (w.connect q).2.task at hafter
  generalize (w.connect q).2 = progress at hopened hafter
  cases hopened with
  | asleep => exact .opening hafter hreceived
  | ended hof => exact .ended hafter hof (.inl hreceived)

/-- The second run: the gateway has answered. -/
theorem connecting_of_second {number : Nat} {response : Response Unit}
    (htask : w.scheduler.tasks[id]? = some (.live (.opening number q response)))
    (hone : receivedFrom id ps = [q]) (wake : Wake) :
    Connecting id q (ps ++ [⟨w, .task id wake, w.runTask id wake⟩]) (w.runTask id wake) := by
  obtain ⟨hgateway, hafter⟩ := runTask_live htask wake
  obtain ⟨ending, hended, hof⟩ := openSession_ended number q response w
  have hreceived : receivedFrom id (ps ++ [⟨w, .task id wake, w.runTask id wake⟩]) = [q] := by
    rw [receivedFrom_concat, hone, receivedFrom_own rfl, Passage.received, hgateway]
    change [q] ++ (w.openSession number q response).1.gateway.requests.drop _ = _
    rw [openSession_gateway, List.drop_length, List.append_nil]
  change _ = some (w.openSession number q response).2.task at hafter
  rw [hended] at hafter
  exact .ended hafter hof (.inl hreceived)

theorem Connecting.passage {mover : Mover} {w' : World} (hconnecting : Connecting id q ps w)
    (hpasses : w.Passes mover w') : Connecting id q (ps ++ [⟨w, mover, w'⟩]) w' := by
  by_cases hown : ∃ wake, mover = .task id wake
  · obtain ⟨wake, rfl⟩ := hown
    obtain rfl : w' = w.runTask id wake := by cases hpasses; rfl
    cases hconnecting with
    | waiting htask hnone => exact connecting_of_first htask hnone wake
    | opening htask hone => exact connecting_of_second htask hone wake
    | ended htask hof hreceived =>
        have hidle := (@runTask_idle id w wake fun work hlive => by
          rw [htask] at hlive; cases hlive).2
        have hnothing : receivedFrom id [⟨w, .task id wake, w⟩] = [] := by
          rw [receivedFrom_own rfl]
          exact List.drop_length
        rw [hidle]
        refine .ended htask hof ?_
        rw [receivedFrom_concat, hnothing, List.append_nil]
        exact hreceived
  · have hother : ¬ Passage.By ⟨w, mover, w'⟩ id := hown
    have hkeeps : ∀ task, w.scheduler.tasks[id]? = some task → _ :=
      fun task => hpasses.task_cases fun wake heq => hown ⟨wake, heq⟩
    have hsame : receivedFrom id (ps ++ [⟨w, mover, w'⟩]) = receivedFrom id ps := by
      rw [receivedFrom_concat, receivedFrom_other hother, List.append_nil]
    cases hconnecting with
    | waiting htask hnone =>
        rcases hkeeps _ htask with hstays | ⟨-, haborted⟩
        · exact .waiting hstays (hsame.trans hnone)
        · exact .ended haborted (.of_aborted q) (.inr ⟨hsame.trans hnone, rfl⟩)
    | opening htask hone =>
        rcases hkeeps _ htask with hstays | ⟨-, haborted⟩
        · exact .opening hstays (hsame.trans hone)
        · exact .ended haborted (.of_aborted q) (.inl (hsame.trans hone))
    | ended htask hof hreceived =>
        rcases hkeeps _ htask with hstays | ⟨⟨work, hlive⟩, -⟩
        · refine .ended hstays hof ?_
          rw [hsame]
          exact hreceived
        · cases hlive

/-- At every point of its history the task of a connection stands well. -/
theorem History.connecting {w₁ : World} (hhistory : w₁.History ps w)
    (htask : w₁.scheduler.tasks[id]? = some (.live (.connect q))) : Connecting id q ps w := by
  induction hhistory with
  | start => exact .waiting htask rfl
  | passage _ hpasses ih => exact ih.passage hpasses

/-- The gateway receives the request once, unless the task has yet to run or never will. -/
theorem Connecting.received (hconnecting : Connecting id q ps w) :
    receivedFrom id ps = [q] ∨ receivedFrom id ps = []
      ∧ (w.scheduler.tasks[id]? = some (.live (.connect q))
        ∨ w.scheduler.tasks[id]? = some (.ended .aborted)) := by
  cases hconnecting with
  | waiting htask hnone => exact .inr ⟨hnone, .inl htask⟩
  | opening _ hone => exact .inl hone
  | ended htask _ hreceived =>
      rcases hreceived with hone | ⟨hnone, rfl⟩
      · exact .inl hone
      · exact .inr ⟨hnone, .inr htask⟩

/-- A session that a connection led to is one of its request. -/
theorem Connecting.session (hconnecting : Connecting id q ps w) {s : Session}
    (hresult : w.result? (.task id) = some (.ok (.session s))) : q.Gives s := by
  cases hconnecting with
  | waiting htask => rw [result?_live htask] at hresult; cases hresult
  | opening htask => rw [result?_live htask] at hresult; cases hresult
  | ended htask hof =>
      rw [result?_ended htask] at hresult
      obtain ⟨s', hs', hgives⟩ := hof _ (Option.some.inj hresult)
      cases hs'
      exact hgives

end World

end GatewayClient
