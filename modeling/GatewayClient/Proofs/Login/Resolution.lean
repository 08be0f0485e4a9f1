import Mathlib.Data.List.Basic
import GatewayClient.Proofs.Login.Batch
import GatewayClient.Proofs.Login.Outcome
import GatewayClient.Proofs.Scenario.Progress

/-!
# What handles of logins resolve to

Each login of a batch is on its own: its handle has failed from the start, or it stands for the task
that opens its connection (`Login`). What is known of the one task (`History.login`) is then known
of every handle of the batch, at every point of every history, and the rest follows from this:
whoever awaits handles, in whichever order and whatever else happens meanwhile, is told the outcomes
of their own logins. And no wait for them goes on for good, as every task of a login gets its turns
(`await_logins`).
-/

namespace GatewayClient

/-- A login that was started: it has failed, or a task opens its connection. -/
inductive Login
  | failed (shard : ShardAssignment) (error : ClientError)
  | opening (id : TaskId) (request : ConnectionRequest)

namespace Login

/-- The start that a login comes from. -/
def start : Login → LoginStart
  | failed shard e => .failed shard e
  | opening _ q => .opening q

def pending : Login → Pending
  | failed _ e => .failed e
  | opening id _ => .task id

def handle (l : Login) : ShardAssignment × Pending := (l.start.shard, l.pending)

/-- The worlds that a login found in the turns of its task. -/
def turns (ps : List Passage) : Login → List World
  | failed .. => []
  | opening id _ => turnsOf id ps

/-- The outcome of a login at a point of a history, once it is there. -/
def outcome? (ps : List Passage) : Login → Option (Except ClientError Finding)
  | failed _ e => some (.error e)
  | opening id q => q.outcome? (turnsOf id ps)

/-- The requests that the gateway received from a login. -/
def received (ps : List Passage) : Login → List ConnectionRequest
  | failed .. => []
  | opening id _ => receivedFrom id ps

/-- The gateway has treated the connection of a login in two histories alike: it gave it the same
number and the same response. -/
def Alike (ps ps' : List Passage) : Login → Prop
  | failed .. => True
  | opening id q =>
    ∀ w w', (turnsOf id ps).head? = some w → (turnsOf id ps').head? = some w' →
      w.gateway.taken = w'.gateway.taken ∧ (q.treatedIn w).response = (q.treatedIn w').response

/-- The logins of starts, if the next task has the given number. -/
def ofStarts : TaskId → List LoginStart → List Login
  | _, [] => []
  | next, .opening q :: rest => opening next q :: ofStarts (next + 1) rest
  | next, .failed shard e :: rest => failed shard e :: ofStarts next rest

theorem ofStarts_start (next : TaskId) (starts : List LoginStart) :
    (ofStarts next starts).map start = starts := by
  induction starts generalizing next with
  | nil => rfl
  | cons s rest ih => cases s <;> simp [ofStarts, start, ih]

theorem ofStarts_handle (next : TaskId) (starts : List LoginStart) :
    (ofStarts next starts).map handle = LoginStart.handles next starts := by
  induction starts generalizing next with
  | nil => rfl
  | cons s rest ih => cases s <;> simp [ofStarts, handle, start, pending, LoginStart.shard, ih]

/-- The task behind a new login is the one of its request. -/
theorem mem_ofStarts {next id : TaskId} {q : ConnectionRequest} {starts : List LoginStart}
    (hmem : opening id q ∈ ofStarts next starts) :
    ∃ i, id = next + i ∧ (LoginStart.requests starts)[i]? = some q := by
  induction starts generalizing next with
  | nil => cases hmem
  | cons s rest ih =>
      cases s with
      | failed shard e =>
          rcases List.mem_cons.mp hmem with heq | hrest
          · cases heq
          · exact ih hrest
      | opening q' =>
          rcases List.mem_cons.mp hmem with heq | hrest
          · cases heq
            exact ⟨0, rfl, rfl⟩
          · obtain ⟨i, rfl, hi⟩ := ih hrest
            exact ⟨i + 1, by rw [Nat.add_assoc, Nat.add_comm 1 i], hi⟩

end Login

namespace World

/-! ## Awaiting -/

/-- What polling handles tells, each of them twice if asked to. -/
def told (again : Bool) (results : List (Except ClientError Finding)) :
    List (Except ClientError Finding) :=
  results.flatMap fun r => if again then [r, polledAgain] else [r]

/-- A wait for handles whose outcomes are there is over at once. -/
theorem resolve_finished {pending : List Pending} {w : World}
    (hfinished : ∀ p ∈ pending, w.isFinished p) (again : Bool) :
    w.resolve pending again = (w, .results (told again (pending.filterMap w.result?)) w.time?) := by
  have hattend : w.attend (.resolve pending) = (w, .inr .resolved) := by
    rw [attend_resolve, if_pos hfinished]
  have hawait : w.await patience (.resolve pending) = (w, .resolved) := await_done hattend _
  rw [resolve, hawait]
  rfl

/-- A wait for handles is over only if their outcomes are there. -/
theorem await_resolved {pending : List Pending} {w' : World} :
    ∀ {patience : Nat} {w : World}, w.await patience (.resolve pending) = (w', .resolved) →
      ∀ p ∈ pending, w'.isFinished p
  | 0, w, hawait => by cases hawait
  | patience + 1, w, hawait => by
      rw [await, attend_resolve] at hawait
      by_cases hfinished : ∀ p ∈ pending, w.isFinished p
      · rw [if_pos hfinished] at hawait
        cases hawait
        exact hfinished
      · rw [if_neg hfinished] at hawait
        dsimp only at hawait
        split at hawait
        · split at hawait
          · cases hawait
          · exact await_resolved hawait
        · exact await_resolved hawait

theorem resolve_results {pending : List Pending} {again : Bool} {w w' : World}
    {results : List (Except ClientError Finding)} {time : Option Nat}
    (hresolve : w.resolve pending again = (w', .results results time)) :
    w.await patience (.resolve pending) = (w', .resolved)
      ∧ results = told again (pending.filterMap w'.result?) := by
  unfold resolve at hresolve
  split at hresolve
  · next hawait =>
    cases hresolve
    exact ⟨hawait, rfl⟩
  · cases hresolve

/-! ## The logins of a batch -/

/-- The logins of starts as they were started: nothing has become of them yet. -/
def Begun (logins : List Login) (w : World) : Prop :=
  ∀ id q, .opening id q ∈ logins → w.scheduler.tasks[id]? = some (.live (.connect q))

theorem begun_logins {b : LoginBatch} {w : World} (h : String) (hadmits : w.Admits b.starts) :
    ∃ (logins : List Login) (w₁ : World),
      w.answerBatch h b = (w₁, .started (w₁.finishedOf (logins.map Login.handle)))
        ∧ w₁.handle? h = some (.logins (logins.map Login.handle))
        ∧ logins.map Login.start = b.starts
        ∧ (logins.filterMap (·.pending.task?)).Nodup ∧ w₁.Begun logins := by
  have hanswer := answerBatch_eq (h := h) hadmits
  rw [← Login.ofStarts_handle] at hanswer
  refine ⟨Login.ofStarts w.scheduler.tasks.size b.starts, _, hanswer, handle?_store ..,
    Login.ofStarts_start .., ?_, fun id q hmem => ?_⟩
  · have htasks := LoginStart.handles_tasks w.scheduler.tasks.size b.starts
    rw [← Login.ofStarts_handle, List.filterMap_map] at htasks
    exact htasks ▸ List.nodup_range'
  · obtain ⟨i, rfl, hi⟩ := Login.mem_ofStarts hmem
    exact Scheduler.spawnAll_task (by rw [List.getElem?_map, hi]; rfl)

variable {logins : List Login} {w₁ w w' : World} {ps ps' : List Passage}

theorem Begun.result (hbegun : w₁.Begun logins) (hhistory : w₁.History ps w) (hsteady : Steady ps)
    {l : Login} (hl : l ∈ logins) : w.result? l.pending = l.outcome? ps := by
  cases l with
  | failed shard e => rfl
  | opening id q => exact (hhistory.login hsteady (hbegun id q hl)).result

theorem Begun.received (hbegun : w₁.Begun logins) (hhistory : w₁.History ps w)
    (hsteady : Steady ps) {l : Login} (hl : l ∈ logins) :
    l.received ps = if l.turns ps = [] then [] else LoginStart.requests [l.start] := by
  cases l with
  | failed shard e => rfl
  | opening id q => exact (hhistory.login hsteady (hbegun id q hl)).received

/-- Once the outcome is there, the gateway has received all that it will receive from the login. -/
theorem Begun.received_all (hbegun : w₁.Begun logins) (hhistory : w₁.History ps w)
    (hsteady : Steady ps) {l : Login} (hl : l ∈ logins) (houtcome : (l.outcome? ps).isSome) :
    l.received ps = LoginStart.requests [l.start] := by
  rw [hbegun.received hhistory hsteady hl]
  cases l with
  | failed shard e => rfl
  | opening id q =>
      obtain ⟨result, hresult⟩ := Option.isSome_iff_exists.mp houtcome
      obtain ⟨first, later, hturns, -⟩ := ConnectionRequest.outcome?_some hresult
      have hne : (Login.opening id q).turns ps ≠ [] := by
        rw [Login.turns, hturns]
        exact List.cons_ne_nil first later
      exact if_neg hne

/-- Two histories in which the gateway treats a login alike give it the same outcome, whatever else
differs. -/
theorem outcome?_alike {l : Login} (halike : l.Alike ps ps')
    {result result' : Except ClientError Finding} (hresult : l.outcome? ps = some result)
    (hresult' : l.outcome? ps' = some result') : result = result' := by
  cases l with
  | failed shard e =>
      cases hresult
      cases hresult'
      rfl
  | opening id q =>
      obtain ⟨first, later, hturns, rfl⟩ := ConnectionRequest.outcome?_some hresult
      obtain ⟨first', later', hturns', rfl⟩ := ConnectionRequest.outcome?_some hresult'
      obtain ⟨htaken, hresponse⟩ := halike first first' (by rw [hturns]; rfl) (by rw [hturns']; rfl)
      rw [ConnectionRequest.resultIn, ConnectionRequest.resultIn, htaken, hresponse]

theorem Begun.filterMap_result (hbegun : w₁.Begun logins) (hhistory : w₁.History ps w)
    (hsteady : Steady ps) {list : List Login} (hlist : ∀ l ∈ list, l ∈ logins) :
    (list.map Login.pending).filterMap w.result? = list.filterMap (·.outcome? ps) := by
  rw [List.filterMap_map]
  exact List.filterMap_congr fun l hl => hbegun.result hhistory hsteady (hlist l hl)

theorem Begun.finished (hbegun : w₁.Begun logins) (hhistory : w₁.History ps w)
    (hsteady : Steady ps) {l : Login} (hl : l ∈ logins) :
    w.isFinished l.pending = (l.outcome? ps).isSome := by
  rw [isFinished, hbegun.result hhistory hsteady hl]

/-- A wait for handles that is over has found the outcomes of their own logins. -/
theorem Begun.awaited (hbegun : w₁.Begun logins) (hhistory : w₁.History ps w) (hsteady : Steady ps)
    (hruns : w.scheduler.running = true) {list : List Login} (hlist : ∀ l ∈ list, l ∈ logins)
    {fuel : Nat} (hawait : w.await fuel (.resolve (list.map Login.pending)) = (w', .resolved)) :
    ∃ ps', w.History ps' w' ∧ Steady ps' ∧ (∀ l ∈ list, (l.outcome? (ps ++ ps')).isSome)
      ∧ (list.map Login.pending).filterMap w'.result? =
        list.filterMap (·.outcome? (ps ++ ps')) := by
  have hspans := steady_covers.await fuel (.resolve (list.map Login.pending)) w
  have hrunning := await_running fuel (.resolve (list.map Login.pending)) w
  rw [hawait] at hspans hrunning
  obtain ⟨-, ps', hhistory', hsteady'⟩ := hspans (hrunning.trans hruns)
  have hwhole := hhistory.append hhistory'
  have hsteady'' := hsteady.append hsteady'
  refine ⟨ps', hhistory', hsteady', fun l hl => ?_,
    hbegun.filterMap_result hwhole hsteady'' hlist⟩
  rw [← hbegun.finished hwhole hsteady'' (hlist l hl)]
  exact await_resolved hawait l.pending (List.mem_map_of_mem hl)

theorem Connecting.ofLogin {id : TaskId} {q : ConnectionRequest}
    (hconnecting : Connecting id q ps w) : w.OfLogin (.task id) := by
  cases hconnecting with
  | waiting htask => exact ⟨_, htask, fun _ _ _ heq => by cases heq⟩
  | opening htask => exact ⟨_, htask, fun _ _ _ heq => by cases heq⟩
  | ended htask => exact ⟨_, htask, fun _ _ _ heq => by cases heq⟩

theorem Begun.advances (hbegun : w₁.Begun logins) (haccounted : ∀ id, w₁.scheduler.Accounted id)
    (hpaced : w₁.Paced) (hrun : w₁.Interleaving ps w) {list : List Login}
    (hlist : ∀ l ∈ list, l ∈ logins) : Advances (list.map Login.pending) w where
  accounted := fun id => (accounted_concerns id).interleaving hrun (haccounted id)
  paced := hrun.paced hpaced
  logins := by
    intro p hp
    obtain ⟨l, hl, rfl⟩ := List.mem_map.mp hp
    cases l with
    | failed shard e => trivial
    | opening id q =>
        exact (hrun.history.connecting (hbegun id q (hlist _ hl))).ofLogin

/-! ## What holds of them -/

/-- What is known of logins that began in a world, at every point of every history from there. -/
structure Resolves (logins : List Login) (w₁ : World) : Prop where
  /-- A handle resolves to the outcome of its own login, as soon as it is there. -/
  own : ∀ {ps w}, w₁.History ps w → Steady ps → ∀ l ∈ logins,
    w.result? l.pending = l.outcome? ps ∧ w.isFinished l.pending = (l.outcome? ps).isSome
  lasting : ∀ {ps w}, w₁.History ps w → ∀ l ∈ logins, ∀ result,
    w.result? l.pending = some result →
      ∀ {ps' w'}, w.History ps' w' → w'.result? l.pending = some result
  /-- Whoever awaits some of the handles, in any order, after their outcomes are there is told them
  at once. -/
  awaited : ∀ {ps w}, w₁.History ps w → Steady ps → ∀ (list : List Login) (again : Bool),
    (∀ l ∈ list, l ∈ logins) → (∀ l ∈ list, (l.outcome? ps).isSome) →
      w.resolve (list.map Login.pending) again =
        (w, .results (told again (list.filterMap (·.outcome? ps))) w.time?)
  /-- Whoever awaits them before is told the outcomes that come meanwhile. -/
  awaiting : ∀ {ps w}, w₁.History ps w → Steady ps → w.scheduler.running = true →
    ∀ (list : List Login) (again : Bool), (∀ l ∈ list, l ∈ logins) → ∀ {w' results time},
      w.resolve (list.map Login.pending) again = (w', .results results time) →
        ∃ ps', w.History ps' w' ∧ Steady ps' ∧ (∀ l ∈ list, (l.outcome? (ps ++ ps')).isSome)
          ∧ results = told again (list.filterMap (·.outcome? (ps ++ ps')))
  /-- The gateway receives the request of a login in the first turn of its task, and nothing else
  from it; from a login that has failed it receives nothing. -/
  received : ∀ {ps w}, w₁.History ps w → Steady ps → ∀ l ∈ logins,
    l.received ps = (if l.turns ps = [] then [] else LoginStart.requests [l.start])
      ∧ ((l.outcome? ps).isSome → l.received ps = LoginStart.requests [l.start])
  /-- In two histories a login whose own connection is treated alike comes to the same, whatever
  becomes of other logins and of handles, and in whichever order. -/
  independent : ∀ {ps w ps' w'}, w₁.History ps w → Steady ps → w₁.History ps' w' → Steady ps' →
    ∀ l ∈ logins, l.Alike ps ps' → w.isFinished l.pending = true →
      w'.isFinished l.pending = true →
        w.result? l.pending = w'.result? l.pending ∧ l.received ps = l.received ps'

/-- Whoever awaits some of the logins is answered, at every point of every interleaving without a
shutdown and whatever else goes on: with patience enough the wait ends, and it has found the
outcomes. -/
def Answers (logins : List Login) (w₁ : World) : Prop :=
  ∀ ps w, w₁.Interleaving ps w → Steady ps → w.scheduler.running = true →
    ∀ list : List Login, (∀ l ∈ list, l ∈ logins) → ∃ n, ∀ fuel, n ≤ fuel → ∃ ps' w',
      w.await fuel (.resolve (list.map Login.pending)) = (w', .resolved)
        ∧ w.History ps' w' ∧ Steady ps' ∧ (∀ l ∈ list, (l.outcome? (ps ++ ps')).isSome)
        ∧ (list.map Login.pending).filterMap w'.result? = list.filterMap (·.outcome? (ps ++ ps'))

theorem Begun.answers (hbegun : w₁.Begun logins) (haccounted : ∀ id, w₁.scheduler.Accounted id)
    (hpaced : w₁.Paced) : Answers logins w₁ := by
  intro ps w hrun hsteady hruns list hlist
  obtain ⟨n, hn⟩ := await_logins (hbegun.advances haccounted hpaced hrun hlist)
  refine ⟨n, fun fuel hle => ?_⟩
  obtain ⟨w', hawait⟩ := hn fuel hle
  obtain ⟨ps', hfound⟩ := hbegun.awaited hrun.history hsteady hruns hlist hawait
  exact ⟨ps', w', hawait, hfound⟩

theorem Begun.resolves (hbegun : w₁.Begun logins) : Resolves logins w₁ where
  own := fun hhistory hsteady _ hl =>
    ⟨hbegun.result hhistory hsteady hl, hbegun.finished hhistory hsteady hl⟩
  lasting := fun _ _ _ _ hresult _ _ hhistory' => hhistory'.result_lasts hresult
  awaited := by
    intro ps w hhistory hsteady list again hlist houtcomes
    have hfinished : ∀ p ∈ list.map Login.pending, w.isFinished p := by
      intro p hp
      obtain ⟨l, hl, rfl⟩ := List.mem_map.mp hp
      rw [hbegun.finished hhistory hsteady (hlist l hl)]
      exact houtcomes l hl
    rw [resolve_finished hfinished, hbegun.filterMap_result hhistory hsteady hlist]
  awaiting := by
    intro ps w hhistory hsteady hruns list again hlist w' results time hresolve
    obtain ⟨hawait, rfl⟩ := resolve_results hresolve
    obtain ⟨ps', hhistory', hsteady', houtcomes, hfound⟩ :=
      hbegun.awaited hhistory hsteady hruns hlist hawait
    exact ⟨ps', hhistory', hsteady', houtcomes, by rw [hfound]⟩
  received := fun hhistory hsteady _ hl =>
    ⟨hbegun.received hhistory hsteady hl, hbegun.received_all hhistory hsteady hl⟩
  independent := by
    intro ps w ps' w' hhistory hsteady hhistory' hsteady' l hl halike hfinished hfinished'
    rw [hbegun.finished hhistory hsteady hl] at hfinished
    rw [hbegun.finished hhistory' hsteady' hl] at hfinished'
    obtain ⟨result, hresult⟩ := Option.isSome_iff_exists.mp hfinished
    obtain ⟨result', hresult'⟩ := Option.isSome_iff_exists.mp hfinished'
    constructor
    · rw [hbegun.result hhistory hsteady hl, hbegun.result hhistory' hsteady' hl, hresult, hresult',
        outcome?_alike halike hresult hresult']
    · rw [hbegun.received_all hhistory hsteady hl hfinished,
        hbegun.received_all hhistory' hsteady' hl hfinished']

/-- **Handles resolve to their own outcomes.** A batch that is started has a login for each start,
in order, and a task of its own for each that opens a connection. At every point of every history in
which nobody shuts down, that is in every order of turns, calls, awaits and drops, and however the
gateway treats any of the connections, each handle resolves to what its own login came to: the error
that it failed with, or what the gateway gave its own request. In worlds that interleavings lead to,
whoever awaits handles is answered. A scenario that goes on from there has such a history as long as
the clock runs. -/
theorem handles_resolve_to_own (w : World) (h : String) (b : LoginBatch)
    (hadmits : w.Admits b.starts) :
    ∃ (logins : List Login) (w₁ : World),
      w.answerBatch h b = (w₁, .started (w₁.finishedOf (logins.map Login.handle)))
        ∧ w₁.handle? h = some (.logins (logins.map Login.handle))
        ∧ logins.map Login.start = b.starts
        ∧ (logins.filterMap (·.pending.task?)).Nodup
        ∧ Resolves logins w₁
        ∧ (Interleaves {} w → Answers logins w₁)
        ∧ ∀ steps, (w₁.play steps).1.scheduler.running = true →
          ∃ ps, w₁.History ps (w₁.play steps).1 ∧ Steady ps := by
  obtain ⟨logins, w₁, hanswer, hhandle, hstart, hdistinct, hbegun⟩ := begun_logins h hadmits
  refine ⟨logins, w₁, hanswer, hhandle, hstart, hdistinct, hbegun.resolves, ?_,
    fun steps hruns => (steady_play steps w₁ hruns).2⟩
  rintro ⟨ps₀, hbefore⟩
  have haccounted : ∀ id, w₁.scheduler.Accounted id := by
    intro id
    have hbatch := (accounted_concerns id).frame.answerBatch h b w
    rw [hanswer] at hbatch
    exact hbatch ((accounted_concerns id).interleaving hbefore rfl)
  have hpaced := paced_frame.answerBatch h b w
  rw [hanswer] at hpaced
  exact hbegun.answers haccounted (hpaced (hbefore.paced paced_fresh))

/-- A gateway that refuses the first shard and panics over the second one after a while. -/
def moodyGateway : Gateway :=
  { behaviours :=
      [(0, { response := .refusal (.connection "refused") }),
        (1, { delay := some 5, response := .fault .wordless })] }

/-- A batch of four shards of five, the last of which has no request. -/
def mixedBatch : LoginBatch :=
  { starts :=
      [.opening (plainRequest ⟨0, 5, by decide⟩), .opening (plainRequest ⟨1, 5, by decide⟩),
        .opening (plainRequest ⟨2, 5, by decide⟩),
        .failed ⟨3, 5, by decide⟩ (.configuration "no token")] }

theorem handles_resolve_to_own_mixed :
    World.Admits { gateway := moodyGateway } mixedBatch.starts
      ∧ ∃ (logins : List Login) (w₁ : World),
        w₁.handle? "h" = some (.logins (logins.map Login.handle))
          ∧ logins.map Login.start = mixedBatch.starts ∧ Resolves logins w₁
          ∧ Answers logins w₁ := by
  have hadmits : World.Admits { gateway := moodyGateway } mixedBatch.starts := fun _ => rfl
  have hreached : Interleaves {} { gateway := moodyGateway } :=
    ⟨_, Interleaving.start.aside ⟨⟨rfl, rfl⟩, rfl⟩⟩
  obtain ⟨logins, w₁, -, hhandle, hstart, -, hresolves, hanswers, -⟩ :=
    handles_resolve_to_own { gateway := moodyGateway } "h" mixedBatch hadmits
  exact ⟨hadmits, logins, w₁, hhandle, hstart, hresolves, hanswers hreached⟩

/-- Awaited in another order, each handle tells its own outcome, when the latest is there. -/
example :
    ((World.answerBatch "h" mixedBatch { gateway := moodyGateway }).1.resolve
        [.task 2, .failed (.configuration "no token"), .task 1, .task 0] false).2 =
      .results
        [.ok (.session ⟨3, ⟨2, 5, by decide⟩, []⟩), .error (.configuration "no token"),
          .error (.internal "task panicked: task N panicked"), .error (.connection "refused")]
        (some 5) := rfl

end World

end GatewayClient
