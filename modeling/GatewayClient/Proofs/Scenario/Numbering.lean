import GatewayClient.Proofs.Scenario.Clock

/-!
# The shard numbers of a client

Two calls and the lookups in the background write the shard numbers of a client, each one of the
two, and each write is checked against the other number. So whatever the order of calls and task
runs, the index is the one that was set last, the total is the one that was set or applied last,
and the two go together (`runs_keep_numbering`).

A move can be told to write a number (`Event.index?`, `Event.total?`). What a move does to the
numbers of a client is this and nothing else (`move_writes`), and a run is one move after the
other.
-/

namespace GatewayClient

/-! ## Writing one number -/

namespace ShardAssignment

theorem eq_of_ofPair {index total : UInt32} {a : ShardAssignment}
    (ha : ofPair index total = .ok a) : a.index = index ∧ a.total = total := by
  unfold ofPair at ha
  split at ha
  · cases ha
  · split at ha
    · cases ha
      exact ⟨rfl, rfl⟩
    · cases ha

theorem one_le_total (a : ShardAssignment) : 1 ≤ a.total := by
  have hlt := UInt32.lt_iff_toNat_lt.mp a.index_lt_total
  rw [UInt32.le_iff_toNat_le]
  exact Nat.succ_le_of_lt (Nat.lt_of_le_of_lt (Nat.zero_le _) hlt)

/-- The number shown to people is reached without leaving 32 bits. -/
theorem toNat_index_add_one (a : ShardAssignment) : (a.index + 1).toNat = a.ordinal := by
  have hlt := UInt32.lt_iff_toNat_lt.mp a.index_lt_total
  have htotal := a.total.toNat_lt
  rw [UInt32.toNat_add, UInt32.toNat_one, ordinal]
  exact Nat.mod_eq_of_lt (by omega)

end ShardAssignment

def ClientSetting.index? : ClientSetting → Option UInt32
  | .currentShard n => some n
  | _ => none

def ClientSetting.total? : ClientSetting → Option UInt32
  | .totalShards n => some n
  | _ => none

/-- The numbers after one of them was written, or none. -/
structure Renumbers (index? total? : Option UInt32) (a a' : ShardAssignment) : Prop where
  index : a'.index = index?.getD a.index
  total : a'.total = total?.getD a.total

namespace Client

theorem setTotalShards_renumbers {c c' : Client} {n : UInt32} (hset : c.setTotalShards n = .ok c') :
    Renumbers none (some n) c.numbering c'.numbering := by
  unfold setTotalShards at hset
  split at hset
  · next numbering hnumbering =>
    cases hset
    obtain ⟨hindex, htotal⟩ := ShardAssignment.eq_of_ofPair hnumbering
    exact ⟨hindex, htotal⟩
  · cases hset

theorem setCurrentShard_renumbers {c c' : Client} {n : UInt32}
    (hset : c.setCurrentShard n = .ok c') :
    Renumbers (some n) none c.numbering c'.numbering := by
  unfold setCurrentShard at hset
  split at hset
  · next numbering hnumbering =>
    cases hset
    obtain ⟨hindex, htotal⟩ := ShardAssignment.eq_of_ofPair hnumbering
    exact ⟨hindex, htotal⟩
  · cases hset

theorem setBackoff_numbering {c c' : Client} {b : Backoff} (hset : c.setBackoff b = .ok c') :
    c'.numbering = c.numbering := by
  unfold setBackoff at hset
  split at hset
  · cases hset
    rfl
  · cases hset

theorem set_renumbers {c c' : Client} {s : ClientSetting} (hset : c.set s = .ok c') :
    Renumbers s.index? s.total? c.numbering c'.numbering := by
  cases s with
  | totalShards n => exact setTotalShards_renumbers hset
  | currentShard n => exact setCurrentShard_renumbers hset
  | backoff b => rw [setBackoff_numbering hset]; exact ⟨rfl, rfl⟩
  | _ => cases hset; exact ⟨rfl, rfl⟩

/-- A client that is new or comes from settings, with the numbers that it starts with. -/
inductive Started : Client → UInt32 → UInt32 → Prop
  | fresh : Started {} 0 1
  | ofSettings {s : ClientSettings} {c : Client} :
      Client.ofSettings s = .ok c → Started c s.currentShard s.totalShards

theorem Started.numbering {c : Client} {index total : UInt32} (hstarted : c.Started index total) :
    c.numbering.index = index ∧ c.numbering.total = total := by
  cases hstarted with
  | fresh => exact ⟨rfl, rfl⟩
  | @ofSettings s _ hclient =>
      unfold Client.ofSettings at hclient
      split at hclient
      · cases hclient
      · split at hclient
        · cases hclient
        · next numbering hnumbering =>
          rw [setBackoff_numbering hclient]
          exact ShardAssignment.eq_of_ofPair hnumbering

end Client

/-! ## What moves write -/

/-- The index that a move writes to a client. -/
def Event.index? (i : ClientId) : Event → Option UInt32
  | .called client (.set s) .nothing => if client = i then s.index? else none
  | _ => none

/-- The total that a move writes to a client. -/
def Event.total? (i : ClientId) : Event → Option UInt32
  | .called client (.set s) .nothing => if client = i then s.total? else none
  | .applied client n => if client = i then some n else none
  | _ => none

namespace Event

theorem index?_ofApplied (k i : ClientId) (n? : Option UInt32) :
    (ofApplied k n?).index? i = none := by
  cases n? <;> rfl

/-- Only a call that is answered with nothing can have written a number. -/
theorem called_writes_nothing {k i : ClientId} {s : Step} {a : Answer} (ha : a ≠ .nothing) :
    (called k s a).index? i = none ∧ (called k s a).total? i = none := by
  constructor
  · unfold index?
    split
    · next heq => cases heq; exact absurd rfl ha
    · rfl
  · unfold total?
    split
    · next heq => cases heq; exact absurd rfl ha
    · next heq => cases heq
    · rfl

theorem total?_ofApplied (k i : ClientId) (n? : Option UInt32) :
    (ofApplied k n?).total? i = if k = i then n? else none := by
  cases n? with
  | none => exact (ite_self none).symm
  | some n => rfl

end Event

namespace World

/-- The client `i` is there before and after, and of its numbers only the given ones changed. -/
def Writes (i : ClientId) (index? total? : Option UInt32) (w w' : World) : Prop :=
  ∀ c, w.clients[i]? = some c →
    ∃ c', w'.clients[i]? = some c' ∧ Renumbers index? total? c.numbering c'.numbering

theorem SameClients.writes {w w' : World} (hsame : w.SameClients w') (i : ClientId) :
    w.Writes i none none w' :=
  fun c hc => ⟨c, by rw [hsame.clients]; exact hc, rfl, rfl⟩

theorem writes_refl (i : ClientId) (w : World) : w.Writes i none none w :=
  fun c hc => ⟨c, hc, rfl, rfl⟩

theorem writes_set {w w' : World} (i : ClientId) {k : ClientId} {c' : Client}
    {index? total? : Option UInt32} (hclients : w'.clients = w.clients.setIfInBounds k c')
    (hrenumbers : ∀ c, w.clients[k]? = some c → Renumbers index? total? c.numbering c'.numbering) :
    w.Writes i (if k = i then index? else none) (if k = i then total? else none) w' := by
  intro c hc
  have hi := (Array.getElem?_eq_some_iff.mp hc).1
  rw [hclients, Array.getElem?_setIfInBounds]
  by_cases hk : k = i
  · subst hk
    rw [if_pos rfl, if_pos hi, if_pos rfl, if_pos rfl]
    exact ⟨c', rfl, hrenumbers c hc⟩
  · rw [if_neg hk, if_neg hk, if_neg hk]
    exact ⟨c, hc, rfl, rfl⟩

theorem client_eq {w : World} {c : Client} (hc : w.clients[w.current]? = some c) :
    w.client = c := by
  rw [client, hc]
  rfl

theorem listen_writes (category : ListenerCategory) (listener : Sink) (w : World) (i : ClientId) :
    w.Writes i none none (w.listen category listener) := by
  have hsame : ∀ c, w.clients[w.current]? = some c →
      Renumbers none none c.numbering (w.client.addListener category listener).1.numbering := by
    intro c hc
    rw [client_eq hc]
    exact ⟨rfl, rfl⟩
  have hwrites : w.Writes i _ _ (w.listen category listener) := writes_set i rfl hsame
  rwa [ite_self] at hwrites

theorem replaceClient_writes (c₁ : Client) (w : World) (i : ClientId) :
    w.Writes i none none (w.replaceClient c₁) := by
  intro c hc
  have hi := (Array.getElem?_eq_some_iff.mp hc).1
  refine ⟨c, ?_, rfl, rfl⟩
  rw [replaceClient, Array.getElem?_push_lt hi, ← hc]
  exact (Array.getElem?_eq_getElem hi).symm

theorem perform_writes (w : World) {s : Step} (hwaits : ¬ s.Waits) (i : ClientId) :
    w.Writes i ((Event.called w.current s (w.perform s).2).index? i)
      ((Event.called w.current s (w.perform s).2).total? i) (w.perform s).1 := by
  by_cases hconfigures : s.Configures
  · cases s with
    | set s =>
        rw [perform_set]
        cases hset : w.client.set s with
        | error e => exact writes_refl i w
        | ok c' =>
            refine writes_set i rfl fun c hc => ?_
            rw [client_eq hc] at hset
            exact Client.set_renumbers hset
    | ofSettings s =>
        rw [perform_ofSettings]
        cases Client.ofSettings s with
        | error e => exact writes_refl i w
        | ok c => exact replaceClient_writes c w i
    | addListener category consumer reaction =>
        exact listen_writes category _ { w with hub := (w.hub.addConsumer consumer reaction).2 } i
    | addPipeline category stage =>
        rw [perform_addPipeline]
        cases w.hub.find? stage with
        | error f => exact writes_refl i w
        | ok id => exact listen_writes category (.stage id) w i
    | _ => exact hconfigures.elim
  · have hsame := perform_same w hwaits hconfigures
    cases s with
    | set => exact absurd trivial hconfigures
    | _ => exact hsame.writes i

/-! ## What tasks write -/

theorem applyReport_writes (k : ClientId) (report : LookupReport) (w : World) (i : ClientId) :
    w.Writes i none
      (if k = i then (Progress.ended (.returned (w.applyReport k report).2)).applied? else none)
      (w.applyReport k report).1 := by
  rcases applyReport_cases k report w with ⟨e, -, heq⟩ | ⟨c', hset, heq⟩
  · rw [heq]
    change w.Writes i none (if k = i then none else none) w
    rw [ite_self]
    exact writes_refl i w
  · have hwrites : w.Writes i (if k = i then none else none)
        (if k = i then some report.recommendation.shardCount else none)
        (w.applyReport k report).1 := by
      rw [heq]
      refine writes_set i rfl fun c hc => ?_
      rw [hc] at hset
      obtain ⟨hindex, htotal⟩ := Client.setTotalShards_renumbers hset
      exact ⟨hindex, htotal⟩
    rw [heq] at hwrites ⊢
    rwa [ite_self] at hwrites

/-- The lookup of a client writes the total that it applied. -/
theorem runLookup_writes (k : ClientId) (l : Lookup) (phase : Option LookupPhase) (wake : Wake)
    (w : World) (i : ClientId) :
    w.Writes i none (if k = i then (w.runLookup k l phase wake).2.applied? else none)
      (w.runLookup k l phase wake).1 := by
  have hsame := (stepLookup_aside l phase wake w).toSameClients
  unfold runLookup
  rcases hstep : w.stepLookup l phase wake with ⟨w₁, step⟩
  rw [hstep] at hsame
  dsimp only at hsame ⊢
  have hnone : w.Writes i none (if k = i then none else none) w₁ := by
    rw [ite_self]
    exact hsame.writes i
  cases step.next with
  | wait phase ms => exact hnone
  | faulted f => exact hnone
  | returned result =>
      cases result with
      | error e => exact hnone
      | ok report =>
          -- The lookup itself left the clients alone, so the report meets the same client.
          intro c hc
          exact applyReport_writes k report w₁ i c (by rw [hsame.clients]; exact hc)

theorem run_same {work : Work} (hwork : ∀ k l phase, work ≠ .lookup k l phase) (wake : Wake)
    (w : World) : w.SameClients (w.run work wake).1 := by
  cases work with
  | lookup k l phase => exact absurd rfl (hwork k l phase)
  | opening number request response => exact (openSession_aside _ _ _ w).toSameClients
  | cancelAfter => exact ⟨rfl, rfl⟩
  | cancelNow => exact ⟨rfl, rfl⟩
  | connect request => exact (connect_aside request w).toSameClients

/-- What becomes of the task itself does not matter to the clients. -/
theorem runTask_clients {id : TaskId} (wake : Wake) {w : World} {work : Work}
    (htask : w.scheduler.tasks[id]? = some (.live work)) :
    (w.runTask id wake).clients = (w.run work wake).1.clients := by
  rw [runTask_eq htask]

theorem runTask_writes (id : TaskId) (wake : Wake) (w : World) (i : ClientId) :
    w.Writes i ((w.runEvent id wake).index? i) ((w.runEvent id wake).total? i)
      (w.runTask id wake) := by
  by_cases hlive : ∃ work, w.scheduler.tasks[id]? = some (.live work)
  · obtain ⟨work, htask⟩ := hlive
    have hclients := runTask_clients wake htask
    intro c hc
    rw [hclients]
    cases work with
    | lookup k l phase =>
        have hwrites := runLookup_writes k l phase wake w i c hc
        have hevent : w.runEvent id wake =
            .ofApplied k (w.runLookup k l phase wake).2.applied? := by
          simp only [runEvent, htask]
        rw [hevent, Event.index?_ofApplied, Event.total?_ofApplied]
        exact hwrites
    | _ =>
        have hevent : w.runEvent id wake = .other := by
          simp only [runEvent, htask]
        rw [hevent]
        exact (run_same (fun _ _ _ heq => by cases heq) wake w).writes i c hc
  · obtain ⟨hevent, hsame⟩ := runTask_idle wake fun work htask => hlive ⟨work, htask⟩
    rw [hevent, hsame]
    exact writes_refl i w

/-! ## Runs -/

/-- A move writes to a client what it is told to write. -/
theorem move_writes {w w' : World} {ev : Event} (hmove : Move w ev w') (i : ClientId) :
    w.Writes i (ev.index? i) (ev.total? i) w' := by
  cases hmove with
  | call hwaits => exact perform_writes _ hwaits i
  | task id wake => exact runTask_writes id wake _ i
  | aside hsame => exact hsame.writes i

/-- The value that was written last, or the one at the start. -/
def latest (written? : Event → Option UInt32) (start : UInt32) (l : List Event) : UInt32 :=
  l.foldl (fun n ev => (written? ev).getD n) start

/-- Both numbers of a client are the ones that a run wrote last. -/
theorem runs_latest {w w' : World} {l : List Event} (hruns : Runs w l w') (i : ClientId) :
    ∀ c, w.clients[i]? = some c →
      ∃ c', w'.clients[i]? = some c'
        ∧ c'.numbering.index = latest (·.index? i) c.numbering.index l
        ∧ c'.numbering.total = latest (·.total? i) c.numbering.total l := by
  induction hruns with
  | refl => exact fun c hc => ⟨c, hc, rfl, rfl⟩
  | cons hmove _ ih =>
      intro c hc
      obtain ⟨c₁, hc₁, hindex, htotal⟩ := move_writes hmove i c hc
      obtain ⟨c', hc', hindex', htotal'⟩ := ih c₁ hc₁
      rw [hindex] at hindex'
      rw [htotal] at htotal'
      exact ⟨c', hc', hindex', htotal'⟩

end World

def Handle.shards : Handle → List ShardAssignment
  | .logins pending => pending.map (·.1)
  | .lookup _ => []

def Task.shards : Task → List ShardAssignment
  | .live (.connect request) => [request.shard]
  | .live (.opening _ request _) => [request.shard]
  | _ => []

theorem Renumbers.eq {a a' : ShardAssignment} (h : Renumbers none none a a') : a' = a := by
  obtain ⟨index, total, hlt⟩ := a
  obtain ⟨index', total', hlt'⟩ := a'
  obtain rfl : index' = index := h.index
  obtain rfl : total' = total := h.total
  rfl

namespace World

/-- The shards that handles, requests and sessions carry. -/
def shards (w : World) : List ShardAssignment :=
  w.handles.flatMap (·.2.shards) ++ w.scheduler.tasks.toList.flatMap Task.shards
    ++ w.gateway.requests.map (·.shard) ++ w.gateway.sessions.map (·.shard)

/-- **The shard numbers of a client.** Whatever is called and whenever tasks run, the index of a
client is the one that was set last and its total the one that was set or applied last, of those
that were not refused; the index stays below the total; and a call that does not succeed in setting
a number leaves both as they are. Every shard that is carried around can be shown within 32 bits. -/
theorem runs_keep_numbering {w w' : World} {l : List Event} {i : ClientId} {c₀ : Client}
    {index total : UInt32} (hstarted : c₀.Started index total) (hclient : w.clients[i]? = some c₀)
    (hruns : Runs w l w') :
    ∃ c, w'.clients[i]? = some c
      ∧ c.numbering.index = latest (·.index? i) index l
      ∧ c.numbering.total = latest (·.total? i) total l
      ∧ 1 ≤ c.numbering.total ∧ c.numbering.index < c.numbering.total
      ∧ (∀ k s a w'', Move w' (.called k s a) w'' → a ≠ .nothing →
        ∃ c', w''.clients[i]? = some c' ∧ c'.numbering = c.numbering)
      ∧ ∀ a ∈ w'.shards, a.index < a.total ∧ (a.index + 1).toNat = a.ordinal := by
  obtain ⟨c, hc, hindex, htotal⟩ := runs_latest hruns i c₀ hclient
  obtain ⟨hindex₀, htotal₀⟩ := hstarted.numbering
  rw [hindex₀] at hindex
  rw [htotal₀] at htotal
  refine ⟨c, hc, hindex, htotal, c.numbering.one_le_total, c.numbering.index_lt_total, ?_, ?_⟩
  · intro k s a w'' hmove ha
    obtain ⟨c', hc', hrenumbers⟩ := move_writes hmove i c hc
    obtain ⟨hindex?, htotal?⟩ := Event.called_writes_nothing ha
    rw [hindex?, htotal?] at hrenumbers
    exact ⟨c', hc', hrenumbers.eq⟩
  · exact fun a _ => ⟨a.index_lt_total, a.toNat_index_add_one⟩

/-- A client is pinned to the third of four shards, a total without that shard is refused, and a
lookup then applies a total of eight. -/
theorem runs_keep_numbering_pinned :
    ∃ l w', Client.Started {} 0 1 ∧ Runs {} l w' ∧ ∃ c, w'.clients[0]? = some c
      ∧ c.numbering.index = 2 ∧ c.numbering.total = 8 := by
  have hruns : Runs {} _ _ :=
    .cons (.call (s := .set (.token "t")) id) <|
    .cons (.call (s := .set (.totalShards 4)) id) <|
    .cons (.call (s := .set (.currentShard 2)) id) <|
    .cons (.call (s := .set (.totalShards 2)) id) <|
    .cons (.call (s := .answers [{ query := .answer ⟨"wss", 8⟩ }]) id) <|
    .cons (.call (s := .discover "d" none) id) <|
    .cons (.task 0 .started) (.refl _)
  obtain ⟨c, hc, hindex, htotal, -⟩ := runs_keep_numbering (i := 0) .fresh rfl hruns
  exact ⟨_, _, .fresh, hruns, c, hc, hindex.trans rfl, htotal.trans rfl⟩

end World

end GatewayClient
