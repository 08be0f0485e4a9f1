import GatewayClient.Proofs.Scenario.Run

/-!
# What starting logins comes to

Logins that are started one after the other leave their notes behind and a task for each connection
to open, in the order of the logins; a login that has failed starts nothing. All that becomes of the
world is said in one equation (`startLogins_eq`), so nobody has to go through the starts again: the
tasks are new and queued behind those that were there (`spawnAll`), and the handles stand for them
in order (`LoginStart.handles`).
-/

namespace GatewayClient

/-- The task that a handle waits for. -/
def Pending.task? : Pending → Option TaskId
  | task id => some id
  | failed _ => none

@[simp] theorem Pending.task?_task (id : TaskId) : (task id).task? = some id := rfl

@[simp] theorem Pending.task?_failed (e : ClientError) : (failed e).task? = none := rfl

namespace LoginStart

/-- The connections that logins open; a login that has failed opens none. -/
@[simp] def requests : List LoginStart → List ConnectionRequest
  | [] => []
  | opening request :: rest => request :: requests rest
  | failed _ _ :: rest => requests rest

theorem requests_append (starts starts' : List LoginStart) :
    requests (starts ++ starts') = requests starts ++ requests starts' := by
  induction starts with
  | nil => rfl
  | cons s rest ih => cases s <;> simp [ih]

/-- What the handles of logins stand for, if the next task has the given number. -/
@[simp] def handles : TaskId → List LoginStart → List (ShardAssignment × Pending)
  | _, [] => []
  | next, opening request :: rest => (request.shard, .task next) :: handles (next + 1) rest
  | next, failed shard e :: rest => (shard, .failed e) :: handles next rest

theorem handles_append (next : TaskId) (starts starts' : List LoginStart) :
    handles next (starts ++ starts') =
      handles next starts ++ handles (next + (requests starts).length) starts' := by
  induction starts generalizing next with
  | nil => rfl
  | cons s rest ih => cases s <;> simp [ih, Nat.add_assoc, Nat.add_comm 1]

theorem handles_shards (next : TaskId) (starts : List LoginStart) :
    (handles next starts).map (·.1) = starts.map shard := by
  induction starts generalizing next with
  | nil => rfl
  | cons s rest ih => cases s <;> simp [shard, ih]

/-- The tasks of the new numbers, in order, are the ones behind the handles. -/
theorem handles_tasks (next : TaskId) (starts : List LoginStart) :
    (handles next starts).filterMap (·.2.task?) = List.range' next (requests starts).length := by
  induction starts generalizing next with
  | nil => rfl
  | cons s rest ih =>
      cases s with
      | opening q => simp [ih, List.range'_succ]
      | failed shard e =>
          rw [handles, List.filterMap_cons_none rfl]
          exact ih next

theorem mem_handles {next : TaskId} {starts : List LoginStart} {p : ShardAssignment × Pending}
    (hp : p ∈ handles next starts) :
    (∃ e, failed p.1 e ∈ starts ∧ p.2 = .failed e)
      ∨ ∃ i q, opening q ∈ starts ∧ q.shard = p.1 ∧ p.2 = .task (next + i)
        ∧ (requests starts)[i]? = some q := by
  induction starts generalizing next with
  | nil => cases hp
  | cons s rest ih =>
      cases s with
      | opening q =>
          rcases List.mem_cons.mp hp with rfl | hrest
          · exact .inr ⟨0, q, List.mem_cons_self, rfl, rfl, rfl⟩
          · rcases ih hrest with ⟨e, he, hfailed⟩ | ⟨i, q', hq', hshard, htask, hi⟩
            · exact .inl ⟨e, List.mem_cons_of_mem _ he, hfailed⟩
            · refine .inr ⟨i + 1, q', List.mem_cons_of_mem _ hq', hshard, ?_, hi⟩
              rw [htask, Nat.add_assoc, Nat.add_comm 1 i]
      | failed shard e =>
          rcases List.mem_cons.mp hp with rfl | hrest
          · exact .inl ⟨e, List.mem_cons_self, rfl⟩
          · rcases ih hrest with ⟨e', he', hfailed⟩ | ⟨i, q', hq', hrest'⟩
            · exact .inl ⟨e', List.mem_cons_of_mem _ he', hfailed⟩
            · exact .inr ⟨i, q', List.mem_cons_of_mem _ hq', hrest'⟩

end LoginStart

namespace Scheduler

/-- A scheduler with more tasks, which are queued in order. -/
def spawnAll (works : List Work) (r : Scheduler) : Scheduler :=
  { r with
    tasks := r.tasks ++ (works.map Task.live).toArray
    queue := r.queue ++ (List.range' r.tasks.size works.length).map fun id => (id, .started) }

theorem spawnAll_nil (r : Scheduler) : r.spawnAll [] = r := by
  simp [spawnAll]

theorem spawnAll_spawnAll (works works' : List Work) (r : Scheduler) :
    (r.spawnAll works).spawnAll works' = r.spawnAll (works ++ works') := by
  simp [spawnAll, ← List.range'_append_1]

theorem spawnAll_task {works : List Work} {r : Scheduler} {i : Nat} {work : Work}
    (hi : works[i]? = some work) :
    (r.spawnAll works).tasks[r.tasks.size + i]? = some (.live work) := by
  simp [spawnAll, Array.getElem?_append_right, hi]

end Scheduler

namespace World

/-- The world after logins were started. -/
def begun (starts : List LoginStart) (w : World) : World :=
  { w.noteAll (starts.flatMap LoginStart.notes) with
    scheduler := w.scheduler.spawnAll ((LoginStart.requests starts).map .connect) }

theorem begun_nil (w : World) : w.begun [] = w := by
  simp [begun, noteAll, Scheduler.spawnAll_nil]

theorem begun_begun (starts starts' : List LoginStart) (w : World) :
    (w.begun starts).begun starts' = w.begun (starts ++ starts') := by
  simp [begun, noteAll, Scheduler.spawnAll_spawnAll, LoginStart.requests_append]

/-- To open a connection a task has to be started, which needs the clock to run. -/
def Admits (w : World) (starts : List LoginStart) : Prop :=
  LoginStart.requests starts ≠ [] → w.scheduler.running = true

theorem Admits.cons {w : World} {s : LoginStart} {rest : List LoginStart}
    (hadmits : w.Admits (s :: rest)) : w.Admits [s] ∧ (w.begun [s]).Admits rest := by
  cases s with
  | failed shard e => exact ⟨fun hne => absurd rfl hne, hadmits⟩
  | opening q => exact ⟨fun _ => hadmits nofun, fun _ => hadmits nofun⟩

theorem startLogin_eq {w : World} {s : LoginStart} (hadmits : w.Admits [s]) :
    ∃ p, w.startLogin s = (w.begun [s], .ok p)
      ∧ LoginStart.handles w.scheduler.tasks.size [s] = [p] := by
  cases s with
  | failed shard e =>
      refine ⟨(shard, .failed e), ?_, rfl⟩
      simp [startLogin, begun, Scheduler.spawnAll_nil, noteAll]
  | opening q =>
      have hrunning := hadmits (List.cons_ne_nil q [])
      refine ⟨(q.shard, .task w.scheduler.tasks.size), ?_, rfl⟩
      simp [startLogin, begun, Scheduler.spawnAll, spawn, Scheduler.spawn, noteAll, hrunning,
        Except.map]

theorem startLogins_eq {starts : List LoginStart} {w : World} (hadmits : w.Admits starts) :
    w.startLogins starts =
      (w.begun starts, .ok (LoginStart.handles w.scheduler.tasks.size starts)) := by
  induction starts generalizing w with
  | nil => rw [startLogins, begun_nil]; rfl
  | cons s rest ih =>
      obtain ⟨hfirst, hrest⟩ := hadmits.cons
      obtain ⟨p, hstart, hp⟩ := startLogin_eq hfirst
      have hsize : (w.begun [s]).scheduler.tasks.size =
          w.scheduler.tasks.size + (LoginStart.requests [s]).length := by
        simp [begun, Scheduler.spawnAll]
      have hsplit := LoginStart.handles_append w.scheduler.tasks.size [s] rest
      rw [hp, ← hsize] at hsplit
      rw [startLogins, hstart]
      dsimp only
      rw [ih hrest, begun_begun, Except.map, ← List.singleton_append (x := p), ← hsplit]
      rfl

/-- While the clock does not run, nothing is started. -/
theorem startLogins_stopped {starts : List LoginStart} {w : World}
    (hstopped : w.scheduler.running = false) :
    (w.startLogins starts).1.scheduler = w.scheduler := by
  induction starts generalizing w with
  | nil => rfl
  | cons s rest ih =>
      cases s with
      | failed shard e => exact @ih (w.noteAll []) hstopped
      | opening q =>
          have hbroke : w.startLogin (.opening q) =
              (w.noteAll [LoginStart.creating q.shard], .error Scheduler.stopped) := by
            simp [startLogin, LoginStart.notes, spawn, Scheduler.spawn, noteAll, hstopped,
              Except.map]
          rw [startLogins, hbroke]
          rfl

end World

end GatewayClient
