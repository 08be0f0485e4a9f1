import GatewayClient.Proofs.Scenario.Steady

/-!
# What a login comes to

The task of a login has one or two turns. In the first the gateway receives the request, numbers the
connection and decides how to respond; if the response is delayed, a second turn brings it. So what
a login comes to can be read off the worlds that it found in its own turns
(`ConnectionRequest.outcome?`), and in a history without a shutdown nothing else enters into it
(`History.login`). That is all that the independence of logins of one another needs.
-/

namespace GatewayClient

/-- The worlds that a task found in its turns, in order. -/
def turnsOf (id : TaskId) (ps : List Passage) : List World :=
  ps.flatMap fun p =>
    match p.mover with
    | .task id' _ => if id' = id then [p.before] else []
    | _ => []

theorem turnsOf_append (id : TaskId) (ps ps' : List Passage) :
    turnsOf id (ps ++ ps') = turnsOf id ps ++ turnsOf id ps' :=
  List.flatMap_append

theorem turnsOf_own {id : TaskId} {p : Passage} {wake : Wake} (hmover : p.mover = .task id wake) :
    turnsOf id [p] = [p.before] := by
  simp [turnsOf, hmover]

theorem turnsOf_other {id : TaskId} {p : Passage} (hother : ¬ p.By id) : turnsOf id [p] = [] := by
  unfold turnsOf
  rw [List.flatMap_singleton]
  split
  · next id' wake hmover =>
    have hne : id' ≠ id := fun heq => hother ⟨wake, by rw [hmover, heq]⟩
    exact if_neg hne
  · rfl

/-- How a panic of a task is told to the holder of its handle. -/
def Fault.panicked : Fault → String
  | .text message => "task panicked: task N panicked with message " ++ Text.quote message
  | .wordless => "task panicked: task N panicked"

namespace ConnectionRequest

/-- What opening a connection comes to when the gateway responds: the session, its error, or an
internal error if it panics. -/
def comesTo (q : ConnectionRequest) (number : Nat) : Response Unit → Except ClientError Finding
  | .answer _ => .ok (.session ⟨number, q.shard, q.listeners⟩)
  | .refusal e => .error e
  | .fault f => .error (.internal f.panicked)

/-- How the gateway that a request comes to treats it. -/
def treatedIn (q : ConnectionRequest) (w : World) : GatewayBehaviour :=
  w.gateway.behaviour q.shard.index

/-- What the connection comes to that a request opens in a world. -/
def resultIn (q : ConnectionRequest) (w : World) : Except ClientError Finding :=
  q.comesTo (w.gateway.taken + 1) (q.treatedIn w).response

/-- The outcome of a login after the turns of its task: a session or a failure, once the gateway has
responded. -/
def outcome? (q : ConnectionRequest) : List World → Option (Except ClientError Finding)
  | [] => none
  | first :: later =>
    if (q.treatedIn first).delay = none ∨ later ≠ [] then some (q.resultIn first) else none

/-- The outcome is told by the first turn alone, once it is there. -/
theorem outcome?_some {q : ConnectionRequest} {turns : List World}
    {result : Except ClientError Finding} (houtcome : q.outcome? turns = some result) :
    ∃ first later, turns = first :: later ∧ result = q.resultIn first := by
  cases turns with
  | nil => cases houtcome
  | cons first later =>
      rw [outcome?] at houtcome
      split at houtcome
      · cases houtcome
        exact ⟨first, later, rfl, rfl⟩
      · cases houtcome

/-! ## The task of a connection after its turns -/

def ending (q : ConnectionRequest) (number : Nat) : Response Unit → Ending
  | .answer _ => .returned (.ok (.session ⟨number, q.shard, q.listeners⟩))
  | .refusal e => .returned (.error e)
  | .fault f => .faulted f

theorem ending_result (q : ConnectionRequest) (number : Nat) (response : Response Unit) :
    (q.ending number response).result = q.comesTo number response := by
  rcases response with _ | e | f
  · rfl
  · rfl
  · cases f <;> rfl

def taskAfter (q : ConnectionRequest) : List World → Task
  | [] => .live (.connect q)
  | first :: later =>
    let number := first.gateway.taken + 1
    let response := (q.treatedIn first).response
    if (q.treatedIn first).delay = none ∨ later ≠ [] then .ended (q.ending number response)
    else .live (.opening number q response)

theorem taskAfter_cons (q : ConnectionRequest) (first : World) (later : List World) :
    q.taskAfter (first :: later) ≠ .live (.connect q)
      ∧ q.taskAfter (first :: later) ≠ .ended .aborted := by
  rw [taskAfter]
  constructor
  · split <;> exact nofun
  · cases (q.treatedIn first).response <;> split <;> exact nofun

end ConnectionRequest

namespace World

variable {id : TaskId} {q : ConnectionRequest} {w : World}

theorem openSession_ending (number : Nat) (q : ConnectionRequest) (response : Response Unit)
    (w : World) :
    (w.openSession number q response).2 = .ended (q.ending number response) := by
  cases response <;> rfl

theorem connect_task (q : ConnectionRequest) (w : World) :
    (w.connect q).2.task = q.taskAfter [w] := by
  unfold connect
  rw [ConnectionRequest.taskAfter, ConnectionRequest.treatedIn]
  dsimp only
  cases hdelay : (w.gateway.behaviour q.shard.index).delay with
  | some ms => simp [Progress.task]
  | none =>
      dsimp only
      rw [openSession_ending]
      simp [Progress.task]

/-- The task of a connection in its own passage: it was after its turns, and has one more. -/
theorem runTask_connection {turns : List World}
    (htask : w.scheduler.tasks[id]? = some (q.taskAfter turns)) (wake : Wake) :
    (w.runTask id wake).scheduler.tasks[id]? = some (q.taskAfter (turns ++ [w])) := by
  have hidle : ∀ ending, w.scheduler.tasks[id]? = some (.ended ending) →
      w.runTask id wake = w := by
    intro ending hended
    refine (runTask_idle wake fun work hlive => ?_).2
    rw [hended] at hlive
    cases hlive
  cases turns with
  | nil =>
      obtain ⟨-, hafter⟩ := runTask_live htask wake
      rw [hafter]
      exact congrArg some (connect_task q w)
  | cons first later =>
      have hagain : q.taskAfter (first :: later ++ [w]) =
          .ended (q.ending (first.gateway.taken + 1) (q.treatedIn first).response) := by
        simp [ConnectionRequest.taskAfter]
      rw [hagain]
      rw [ConnectionRequest.taskAfter] at htask
      split at htask
      · rw [hidle _ htask]
        exact htask
      · obtain ⟨-, hafter⟩ := runTask_live htask wake
        rw [hafter]
        exact congrArg (some ∘ Progress.task) (openSession_ending ..)

/-- In a history without a shutdown the task of a connection is what its turns make of it. -/
theorem History.connection {w₁ : World} {ps : List Passage} (hhistory : w₁.History ps w)
    (hsteady : Steady ps) (htask : w₁.scheduler.tasks[id]? = some (.live (.connect q))) :
    w.scheduler.tasks[id]? = some (q.taskAfter (turnsOf id ps)) := by
  induction hhistory with
  | start => exact htask
  | @passage ps w' w'' mover _ hpasses ih =>
      obtain ⟨hbefore, hlast⟩ := hsteady.of_append
      have hruns := steady_singleton.mp hlast
      have hnow := ih hbefore
      rw [turnsOf_append]
      by_cases hown : ∃ wake, mover = .task id wake
      · obtain ⟨wake, rfl⟩ := hown
        obtain rfl : w'' = w'.runTask id wake := by cases hpasses; rfl
        rw [turnsOf_own rfl]
        exact runTask_connection hnow wake
      · have hother : ¬ Passage.By ⟨w', mover, w''⟩ id := hown
        rw [turnsOf_other hother, List.append_nil]
        exact hpasses.task_steady (fun wake heq => hown ⟨wake, heq⟩) hruns hnow

/-- What the task of a connection resolves to after its turns. -/
theorem result?_taskAfter {turns : List World}
    (htask : w.scheduler.tasks[id]? = some (q.taskAfter turns)) :
    w.result? (.task id) = q.outcome? turns := by
  cases turns with
  | nil => exact result?_live htask
  | cons first later =>
      rw [ConnectionRequest.taskAfter] at htask
      rw [ConnectionRequest.outcome?]
      split at htask
      · next hresponded =>
        rw [result?_ended htask, if_pos hresponded, ConnectionRequest.ending_result]
        rfl
      · next hwaiting => rw [result?_live htask, if_neg hwaiting]

/-- How the login of a task stands at a point of a history: its handle resolves to what its own
turns came to, and the gateway received its request in the first of them. -/
structure LoginStands (id : TaskId) (q : ConnectionRequest) (ps : List Passage) (w : World) :
    Prop where
  result : w.result? (.task id) = q.outcome? (turnsOf id ps)
  received : receivedFrom id ps = if turnsOf id ps = [] then [] else [q]

theorem History.login {w₁ : World} {ps : List Passage} (hhistory : w₁.History ps w)
    (hsteady : Steady ps) (htask : w₁.scheduler.tasks[id]? = some (.live (.connect q))) :
    LoginStands id q ps w := by
  have hafter := hhistory.connection hsteady htask
  have hconnecting := hhistory.connecting htask
  refine ⟨result?_taskAfter hafter, ?_⟩
  cases hturns : turnsOf id ps with
  | nil =>
      rw [if_pos rfl]
      rw [hturns] at hafter
      cases hconnecting with
      | waiting _ hnone => exact hnone
      | opening hopening => rw [hafter] at hopening; cases hopening
      | ended hended => rw [hafter] at hended; cases hended
  | cons first later =>
      rw [if_neg nofun]
      obtain ⟨hconnect, haborted⟩ := q.taskAfter_cons first later
      rw [hturns] at hafter
      rcases hconnecting.received with hone | ⟨-, hidle⟩
      · exact hone
      · -- A task that has brought nothing to the gateway has had no turn.
        rw [hafter] at hidle
        rcases hidle with hlive | hended
        · exact absurd (Option.some.inj hlive) hconnect
        · exact absurd (Option.some.inj hended) haborted

end World

end GatewayClient
