import GatewayClient.Proofs.Login.Batch

/-!
# Batches and logins one by one

Without batches a caller would set the shard, log in, set the next shard, and in the end go back to
the first. A batch does not move the shard of the client at all, and still it comes to the same
world: the same tasks with the same requests, handles for the same shards and the same records, and
in both cases the client is as it was. The proof follows the single calls. What they have done to
the world so far is what the batch does for the same shards (`World.begun`), and the only thing that
differs on the way is the shard of the client (`World.renumbered`), which the requests do not read.
-/

namespace GatewayClient

namespace LoginStart

theorem notes_eq (starts : List LoginStart) :
    starts.flatMap notes = (requests starts).map fun q => creating q.shard := by
  induction starts with
  | nil => rfl
  | cons s rest ih => cases s <;> simp [notes, ih]

end LoginStart

namespace World

/-- Calls one after the other, each with its answer. -/
def calls : List Step → World → World × List (Step × Answer)
  | [], w => (w, [])
  | s :: rest, w =>
    let (w, a) := w.perform s
    let (w, told) := w.calls rest
    (w, (s, a) :: told)

theorem calls_append (steps steps' : List Step) (w : World) :
    w.calls (steps ++ steps') =
      (((w.calls steps).1.calls steps').1,
        (w.calls steps).2 ++ ((w.calls steps).1.calls steps').2) := by
  induction steps generalizing w with
  | nil => rfl
  | cons s rest ih => simp [calls, ih]

/-- Sets each shard and logs in with it, and goes back to the first shard. -/
def oneByOne (name : UInt32 → String) (shards : List UInt32) : List Step :=
  shards.flatMap (fun s => [.set (.currentShard s), .login (name s)]) ++ [.set (.currentShard 0)]

/-! ## Moving the shard -/

/-- A world whose client has other numbers. -/
def renumbered (a : ShardAssignment) (w : World) : World :=
  w.setClient { w.client with numbering := a }

section

variable {w : World} {c : Client}

theorem client_renumbered (hclient : w.clients[w.current]? = some c) (a : ShardAssignment) :
    (w.renumbered a).client = { c with numbering := a } := by
  have hlt := (Array.getElem?_eq_some_iff.mp hclient).1
  have hafter : (w.renumbered a).clients[(w.renumbered a).current]? =
      some { w.client with numbering := a } := Array.getElem?_setIfInBounds_self_of_lt hlt
  rw [client_eq hafter, client_eq hclient]

theorem renumbered_renumbered (hclient : w.clients[w.current]? = some c) (a b : ShardAssignment) :
    (w.renumbered a).renumbered b = w.renumbered b := by
  have hclient' := client_renumbered hclient a
  rw [renumbered, hclient', renumbered, renumbered, client_eq hclient]
  simp [setClient]

theorem renumbered_self (hclient : w.clients[w.current]? = some c) :
    w.renumbered c.numbering = w := by
  obtain ⟨hlt, hget⟩ := Array.getElem?_eq_some_iff.mp hclient
  have hsame : w.clients.setIfInBounds w.current c = w.clients := by
    rw [Array.setIfInBounds, dif_pos hlt, ← hget, Array.set_getElem_self]
  rw [renumbered, client_eq hclient, setClient]
  simp [hsame]

/-- Moving the shard of a client to another of its total is not refused. -/
theorem perform_currentShard (hclient : w.clients[w.current]? = some c) {a b : ShardAssignment}
    (htotal : a.total = b.total) :
    (w.renumbered b).perform (.set (.currentShard a.index)) = (w.renumbered a, .nothing) := by
  have hset : (w.renumbered b).client.set (.currentShard a.index) =
      .ok { c with numbering := a } := by
    rw [client_renumbered hclient]
    change Client.setCurrentShard _ _ = _
    unfold Client.setCurrentShard ShardAssignment.withIndex
    dsimp only
    rw [← htotal, a.ofPair_self]
  rw [perform_set, hset]
  have hmoved := renumbered_renumbered hclient b a
  rw [renumbered, client_renumbered hclient] at hmoved
  exact Prod.ext hmoved rfl

/-- The request for a shard does not depend on the numbers that the client has. -/
theorem login_renumbered (hclient : w.clients[w.current]? = some c) (a : ShardAssignment) :
    (w.renumbered a).client.login = .ofRequest a (c.request a) := by
  rw [client_renumbered hclient]
  rfl

end

/-! ## The single calls -/

/-- Stores a handle for each login under the name of its shard. -/
def storeEach (name : UInt32 → String) : List (ShardAssignment × Pending) → World → World
  | [], w => w
  | p :: rest, w => (w.store (name p.1.index) (.logins [p])).storeEach name rest

theorem handle?_store_ne {h h' : String} (hne : h ≠ h') (handle : Handle) (w : World) :
    (w.store h handle).handle? h' = w.handle? h' := by
  have hkept : (w.handles.filter (·.1 ≠ h)).find? (·.1 = h') = w.handles.find? (·.1 = h') := by
    rw [List.find?_filter]
    congr 1
    funext x
    by_cases hx : x.1 = h'
    · simp [hx, Ne.symm hne]
    · simp [hx]
  unfold handle? store forget
  rw [List.find?_cons_of_neg (by simpa using hne), hkept]

theorem handle?_storeEach_of_notMem {name : UInt32 → String} {h : String}
    {pending : List (ShardAssignment × Pending)}
    (hnot : h ∉ pending.map fun p => name p.1.index) (w : World) :
    (w.storeEach name pending).handle? h = w.handle? h := by
  induction pending generalizing w with
  | nil => rfl
  | cons p rest ih =>
      rw [List.map_cons, List.mem_cons, not_or] at hnot
      rw [storeEach, ih hnot.2, handle?_store_ne (Ne.symm hnot.1)]

/-- If the names are apart, each login keeps its handle. -/
theorem handle?_storeEach {name : UInt32 → String} {pending : List (ShardAssignment × Pending)}
    (hnames : (pending.map fun p => name p.1.index).Nodup) {p : ShardAssignment × Pending}
    (hp : p ∈ pending) (w : World) :
    (w.storeEach name pending).handle? (name p.1.index) = some (.logins [p]) := by
  induction pending generalizing w with
  | nil => cases hp
  | cons p' rest ih =>
      rw [List.map_cons, List.nodup_cons] at hnames
      rcases List.mem_cons.mp hp with rfl | hrest
      · rw [storeEach, handle?_storeEach_of_notMem hnames.1, handle?_store]
      · rw [storeEach, ih hnames.2 hrest]

/-- Handles are all that storing them changes. -/
theorem storeEach_eq (name : UInt32 → String) (pending : List (ShardAssignment × Pending))
    (w : World) : ∃ handles, w.storeEach name pending = { w with handles } := by
  induction pending generalizing w with
  | nil => exact ⟨w.handles, rfl⟩
  | cons p rest ih =>
      obtain ⟨handles, hstored⟩ := ih (w.store (name p.1.index) (.logins [p]))
      exact ⟨handles, hstored⟩

/-- The logins of shards, each as the client would do it if it were on that shard. -/
def logins (c : Client) (as : List ShardAssignment) : List LoginStart :=
  as.map fun a => .ofRequest a (c.request a)

/-- A login on some shard leaves the client on it. -/
theorem perform_login {w : World} {c : Client} {a : ShardAssignment} {h : String}
    (hclient : w.clients[w.current]? = some c) (hadmits : w.Admits (logins c [a])) :
    ∃ p, p.1 = a ∧ LoginStart.handles w.scheduler.tasks.size (logins c [a]) = [p]
      ∧ ((w.renumbered a).perform (.login h)).1 =
        ((w.begun (logins c [a])).store h (.logins [p])).renumbered a := by
  obtain ⟨p, -, hp⟩ := startLogin_eq hadmits
  have hshards := LoginStart.handles_shards w.scheduler.tasks.size (logins c [a])
  have hlogin : (w.renumbered a).perform (.login h) =
      (w.renumbered a).answerBatch h { starts := logins c [a] } := by
    change (w.renumbered a).answerBatch h { starts := [(w.renumbered a).client.login] } = _
    rw [login_renumbered hclient]
    rfl
  have hadmits' : (w.renumbered a).Admits (logins c [a]) := hadmits
  have hanswer := @answerBatch_eq h { starts := logins c [a] } _ hadmits'
  have hunnoted : (w.renumbered a).noteAll [] = w.renumbered a := by simp [noteAll]
  refine ⟨p, ?_, hp, ?_⟩
  · rw [logins, List.map_singleton, hp, List.map_singleton, List.map_singleton,
      LoginStart.ofRequest_shard c.request_apt] at hshards
    exact List.singleton_inj.mp hshards
  · rw [hlogin, hanswer, hunnoted]
    change ((w.begun (logins c [a])).store h
      (.logins (LoginStart.handles w.scheduler.tasks.size (logins c [a])))).renumbered a = _
    rw [logins, List.map_singleton, hp]

/-- The calls for some shards do to the world what the batch does for them, apart from the handles
and from the shard on which they leave the client. -/
theorem calls_each {name : UInt32 → String} {c : Client} {as : List ShardAssignment}
    {b : ShardAssignment} {w : World} (hclient : w.clients[w.current]? = some c)
    (htotals : ∀ a ∈ as, a.total = b.total) (hadmits : w.Admits (logins c as)) :
    ∃ (last : ShardAssignment) (told : List (Step × Answer)), last.total = b.total
      ∧ (w.renumbered b).calls ((as.map (·.index)).flatMap fun s =>
          [.set (.currentShard s), .login (name s)]) =
        ((((w.begun (logins c as)).storeEach name
          (LoginStart.handles w.scheduler.tasks.size (logins c as))).renumbered last), told)
      ∧ ∀ x ∈ told, ∀ s, x.1 = .set s → x.2 = .nothing := by
  induction as generalizing b w with
  | nil =>
      refine ⟨b, [], rfl, ?_, fun x hx => by cases hx⟩
      change ((w.renumbered b, []) : World × _) = ((w.begun []).renumbered b, [])
      rw [begun_nil]
  | cons a rest ih =>
      have htotal := htotals a List.mem_cons_self
      obtain ⟨hfirst, hrest⟩ := Admits.cons hadmits
      obtain ⟨p, hshard, hp, hlogin⟩ := @perform_login w c a (name a.index) hclient hfirst
      let w' := (w.begun (logins c [a])).store (name a.index) (.logins [p])
      obtain ⟨last, told, hlast, hcalls, htold⟩ := @ih a w' hclient
        (fun a' ha' => (htotals a' (List.mem_cons_of_mem a ha')).trans htotal.symm) hrest
      have hset := perform_currentShard hclient htotal
      have hbegun : w'.begun (logins c rest) =
          (w.begun (logins c (a :: rest))).store (name a.index) (.logins [p]) := by
        change ((w.begun _).begun _).store _ _ = _
        rw [begun_begun]
        rfl
      have hhandles : LoginStart.handles w.scheduler.tasks.size (logins c (a :: rest)) =
          p :: LoginStart.handles w'.scheduler.tasks.size (logins c rest) := by
        have hsize : w'.scheduler.tasks.size =
            w.scheduler.tasks.size + (LoginStart.requests (logins c [a])).length := by
          simp [w', store, forget, begun, Scheduler.spawnAll]
        have hsplit := LoginStart.handles_append w.scheduler.tasks.size (logins c [a])
          (logins c rest)
        rw [hp, ← hsize] at hsplit
        exact hsplit
      refine ⟨last, (.set (.currentShard a.index), .nothing) ::
        (.login (name a.index), ((w.renumbered a).perform (.login (name a.index))).2) :: told,
        hlast.trans htotal, ?_, ?_⟩
      · rw [hhandles, storeEach, hshard, ← hbegun]
        simp only [List.map_cons, List.flatMap_cons, List.cons_append, List.nil_append, calls,
          hset, hlogin, w', hcalls]
      · intro x hx s hs
        rcases List.mem_cons.mp hx with rfl | hx
        · rfl
        · rcases List.mem_cons.mp hx with rfl | hx
          · cases hs
          · exact htold x hx s hs

/-! ## Both ways -/

/-- The record of a batch, which an empty one does not have. -/
def announcement (c : Client) (shards : List UInt32) : Journal :=
  if shards = [] then [] else [LoginBatch.announce c.numbering.total shards]

/-- Two worlds to which the same logins have led, one by one and as a batch. -/
structure SameLogins (c : Client) (name : UInt32 → String) (h : String) (shards : List UInt32)
    (requests : List ConnectionRequest) (pending : List (ShardAssignment × Pending))
    (w each batch : World) : Prop where
  requested : requests = pending.filterMap fun p => (c.request p.1).toOption
  tasks : batch.scheduler.tasks =
    w.scheduler.tasks ++ (requests.map fun q => Task.live (.connect q)).toArray
  scheduler : each.scheduler = batch.scheduler
  indices : pending.map (·.1.index) = shards
  batchHandle : batch.handle? h = some (.logins pending)
  eachHandle : ∀ p ∈ pending, each.handle? (name p.1.index) = some (.logins [p])
  /-- A batch is announced; the records of the single shards are the same. -/
  batchJournal : batch.hub.journal =
    w.hub.journal ++ announcement c shards ++ requests.map fun q => LoginStart.creating q.shard
  eachJournal : each.hub.journal =
    w.hub.journal ++ requests.map fun q => LoginStart.creating q.shard
  clients : each.clients = w.clients ∧ batch.clients = w.clients
  /-- Apart from handles and records the worlds are the same. -/
  rest : batch = { each with
    handles := batch.handles, hub := { each.hub with journal := batch.hub.journal } }

section

variable {w : World} {c : Client} {as : List ShardAssignment}

theorem logins_eq_under (hindex : c.numbering.index = 0) (as : List ShardAssignment) :
    logins c as = as.map (LoginStart.under c.numbering c.request) := by
  refine List.map_congr_left fun a _ => ?_
  rw [LoginStart.under, if_pos hindex]

/-- What the calls one by one come to: the client is back on its first shard. -/
theorem oneByOne_eq (name : UInt32 → String) (hclient : w.clients[w.current]? = some c)
    (hindex : c.numbering.index = 0) (htotals : ∀ a ∈ as, a.total = c.numbering.total)
    (hadmits : w.Admits (logins c as)) :
    (w.calls (oneByOne name (as.map (·.index)))).1 =
        (w.begun (logins c as)).storeEach name
          (LoginStart.handles w.scheduler.tasks.size (logins c as))
      ∧ ∀ x ∈ (w.calls (oneByOne name (as.map (·.index)))).2, ∀ s,
        x.1 = .set s → x.2 = .nothing := by
  obtain ⟨last, told, hlast, hcalls, htold⟩ :=
    @calls_each name c as c.numbering w hclient htotals hadmits
  rw [renumbered_self hclient] at hcalls
  generalize LoginStart.handles w.scheduler.tasks.size (logins c as) = pending at hcalls ⊢
  obtain ⟨handles, hstored⟩ := storeEach_eq name pending (w.begun (logins c as))
  have hclient' : ((w.begun (logins c as)).storeEach name pending).clients[
      ((w.begun (logins c as)).storeEach name pending).current]? = some c := by
    rw [hstored]
    exact hclient
  have hback := perform_currentShard hclient' hlast.symm
  rw [hindex, renumbered_self hclient'] at hback
  rw [oneByOne, calls_append, hcalls]
  constructor
  · simp only [calls, hback]
  · intro x hx s hs
    rcases List.mem_append.mp hx with hx | hx
    · exact htold x hx s hs
    · simp only [calls, hback, List.mem_singleton] at hx
      rw [hx]

/-- What a batch that is not refused comes to. -/
theorem loginShards_eq (h : String) (hclient : w.clients[w.current]? = some c)
    (hindex : c.numbering.index = 0) (hnodup : (as.map (·.index)).Nodup)
    (htotals : ∀ a ∈ as, a.total = c.numbering.total) (hadmits : w.Admits (logins c as)) :
    (w.perform (.loginShards h (as.map (·.index)))).1 =
      ((w.noteAll (announcement c (as.map (·.index)))).begun (logins c as)).store h
        (.logins (LoginStart.handles w.scheduler.tasks.size (logins c as))) := by
  rw [perform_loginShards, client_eq hclient]
  by_cases hempty : as.map (·.index) = []
  · obtain rfl := List.map_eq_nil_iff.mp hempty
    rw [announcement, if_pos hempty]
    change (w.callBatch c.numbering c.request h []).1 =
      ((w.noteAll []).begun []).store h (.logins [])
    rw [callBatch_empty, begun_nil]
    simp [noteAll]
  · have hvalid := Batch.validate_eq_ok.mpr ⟨hnodup, rfl, htotals⟩
    rw [callBatch_ok (LoginBatch.plan_of_validate hempty hvalid), ← logins_eq_under hindex,
      answerBatch_eq hadmits, announcement, if_neg hempty]

end

/-- **A batch is its logins one by one.** Of a client on its first shard, a batch of shards that its
total has leads to what it comes to if the client is moved to each shard and logs in there, and is
moved back in the end. None of these moves is refused; the tasks with their requests are the same
and stand in the same order; the handles stand for the same shards, tasks and failures; and the
client is in both cases what it was before. -/
theorem loginShards_same_as_oneByOne {w : World} {c : Client} {name : UInt32 → String} (h : String)
    {shards : List UInt32} (hclient : w.clients[w.current]? = some c)
    (hindex : c.numbering.index = 0) (hnodup : shards.Nodup)
    (hlt : ∀ s ∈ shards, s < c.numbering.total) (hnames : (shards.map name).Nodup)
    (hrunning : c.credential ≠ none → w.scheduler.running = true) :
    (∀ x ∈ (w.calls (oneByOne name shards)).2, ∀ s, x.1 = .set s → x.2 = .nothing)
      ∧ ∃ requests pending, SameLogins c name h shards requests pending w
        (w.calls (oneByOne name shards)).1 (w.perform (.loginShards h shards)).1 := by
  obtain ⟨as, has⟩ := Batch.exists_validate.mpr ⟨hnodup, hlt⟩
  obtain ⟨-, rfl, htotals⟩ := Batch.validate_eq_ok.mp has
  have hrequests : LoginStart.requests (logins c as) = _ :=
    LoginStart.requests_ofRequest c.request as
  have hadmits : w.Admits (logins c as) := by
    intro hne
    refine hrunning fun hcredential => hne ?_
    rw [hrequests, List.filterMap_eq_nil_iff]
    intro a _
    rw [Client.request, hcredential]
    rfl
  obtain ⟨heach, hmoves⟩ := oneByOne_eq name hclient hindex htotals hadmits
  have hbatch := loginShards_eq h hclient hindex hnodup htotals hadmits
  have hshards : (LoginStart.handles w.scheduler.tasks.size (logins c as)).map (·.1) = as := by
    rw [LoginStart.handles_shards, logins, List.map_map]
    exact List.map_id'' (LoginStart.ofRequest_shard c.request_apt) as
  have hindices : (LoginStart.handles w.scheduler.tasks.size (logins c as)).map (·.1.index) =
      as.map (·.index) := by
    have hmapped := congrArg (List.map (·.index)) hshards
    rwa [List.map_map] at hmapped
  refine ⟨hmoves, LoginStart.requests (logins c as),
    LoginStart.handles w.scheduler.tasks.size (logins c as), ?_⟩
  obtain ⟨handles, hstored⟩ := storeEach_eq name
    (LoginStart.handles w.scheduler.tasks.size (logins c as)) (w.begun (logins c as))
  rw [hbatch, heach]
  constructor
  case requested =>
    have hmapped := congrArg (List.filterMap fun a => (c.request a).toOption) hshards
    rw [List.filterMap_map] at hmapped
    exact hrequests.trans hmapped.symm
  case tasks =>
    change w.scheduler.tasks ++
      ((((LoginStart.requests (logins c as)).map Work.connect).map Task.live).toArray) = _
    rw [List.map_map]
    rfl
  case scheduler =>
    rw [hstored]
    rfl
  case indices => exact hindices
  case batchHandle => exact handle?_store ..
  case eachHandle =>
    refine fun p hp => handle?_storeEach ?_ hp _
    rwa [← hindices, List.map_map] at hnames
  case batchJournal =>
    rw [← LoginStart.notes_eq]
    rfl
  case eachJournal =>
    rw [hstored, ← LoginStart.notes_eq]
    rfl
  case clients =>
    rw [hstored]
    exact ⟨rfl, rfl⟩
  case rest =>
    rw [hstored]
    rfl

/-- A world with a client on the first of four shards. -/
def fourShardWorld : World where
  clients := #[{ credential := some ⟨"tok"⟩, numbering := ⟨0, 4, by decide⟩ }]

/-- The third shard and the first, in this order. -/
theorem loginShards_same_as_oneByOne_two :
    ∃ name : UInt32 → String, ∃ requests pending,
      SameLogins fourShardWorld.client name "h" [2, 0] requests pending fourShardWorld
        (fourShardWorld.calls (oneByOne name [2, 0])).1
        (fourShardWorld.perform (.loginShards "h" [2, 0])).1
      ∧ requests.length = 2 := by
  let name : UInt32 → String := fun s => if s = 2 then "third" else "first"
  obtain ⟨-, requests, pending, hsame⟩ :=
    @loginShards_same_as_oneByOne fourShardWorld fourShardWorld.client name "h" [2, 0]
      rfl rfl (by decide) (by simp [fourShardWorld, client]) (by decide) fun _ => rfl
  refine ⟨name, requests, pending, hsame, ?_⟩
  have hsize := congrArg Array.size hsame.tasks
  simp only [Array.size_append, List.size_toArray, List.length_map] at hsize
  change 2 = 0 + requests.length at hsize
  omega

end World

end GatewayClient
