import GatewayClient.Proofs.Scenario.Threads

/-!
# The two writes of a lookup

A lookup is followed through a history on any number of threads. It is under way, has failed or was
refused, and has left the clients alone; or it is halfway, and all that it has written is the total;
or it has written the endpoint too, and does nothing any more (`Parallel.Standing`, step by step in
`Standing.passage`).

What the two writes leave behind need not go together: between them another lookup may make both of
its own (`writes_torn`).
-/

namespace GatewayClient.Parallel

/-! ## What a lookup has done -/

/-- The legs of the lookup that is the task `id`. -/
def legs (id : TaskId) (ps : List Passage) : List Lookup.Leg := legsOf id (ps.filterMap (·.run?))

/-- The passages of a task leave the clients alone. -/
def Still (id : TaskId) (ps : List Passage) : Prop :=
  ∀ p ∈ ps, p.By id → p.before.world.SameClients p.after.world

section

variable {id : TaskId}

theorem legs_append (id : TaskId) (ps ps' : List Passage) :
    legs id (ps ++ ps') = legs id ps ++ legs id ps' := by
  simp only [legs, List.filterMap_append, legsOf_append]

theorem legs_own {p : Passage} {wake : Wake} {k : ClientId} {l : Lookup}
    {phase : Option LookupPhase} (hmover : p.mover = .enters id wake)
    (htask : p.before.world.scheduler.tasks[id]? = some (.live (.lookup k l phase))) :
    legs id [p] = [⟨p.before.world, l, phase, wake⟩] := by
  have hrun : p.run? = some ⟨p.before.world, .task id wake, p.after.world⟩ := by
    simp only [Passage.run?, hmover]
  simp only [legs, List.filterMap_cons, hrun, List.filterMap_nil]
  exact legsOf_own (p := ⟨p.before.world, .task id wake, p.after.world⟩) rfl htask

theorem legs_other {p : Passage} (hother : ¬ p.By id) : legs id [p] = [] := by
  unfold legs
  cases hrun : p.run? with
  | none => simp only [List.filterMap_cons, hrun, List.filterMap_nil, legsOf]
  | some q =>
      simp only [List.filterMap_cons, hrun, List.filterMap_nil]
      refine legsOf_other ?_
      rintro ⟨wake, hmover⟩
      refine hother ?_
      unfold Passage.run? at hrun
      split at hrun
      · next henters =>
        cases hrun
        cases hmover
        rw [Passage.By, henters]
        rfl
      · cases hrun

theorem Still.concat {ps : List Passage} {p : Passage} (hstill : Still id ps)
    (hp : p.By id → p.before.world.SameClients p.after.world) : Still id (ps ++ [p]) := by
  intro q hq
  rcases List.mem_append.mp hq with hold | hnew
  · exact hstill q hold
  · exact List.mem_singleton.mp hnew ▸ hp

end

/-- A passage writes the total of a client, and nothing else about the clients. -/
structure Passage.WritesTotal (p : Passage) (k : ClientId) (n : UInt32) : Prop where
  current : p.after.world.current = p.before.world.current
  clients : ∃ (c : Client) (numbering : ShardAssignment), p.before.world.clients[k]? = some c
    ∧ numbering.index = c.numbering.index ∧ numbering.total = n
    ∧ p.after.world.clients = p.before.world.clients.setIfInBounds k { c with numbering }

/-- A passage writes the endpoint of a client, and nothing else about the clients. -/
structure Passage.WritesEndpoint (p : Passage) (k : ClientId) (endpoint : String) : Prop where
  current : p.after.world.current = p.before.world.current
  clients : ∃ c : Client, p.before.world.clients[k]? = some c
    ∧ p.after.world.clients =
      p.before.world.clients.setIfInBounds k { c with endpoint := some endpoint }

/-- A passage refuses a recommended total, which does not go with the shard of the client then. -/
structure Passage.Refuses (p : Passage) (k : ClientId) (n : UInt32) (cause : ShardError) :
    Prop where
  same : p.before.world.SameClients p.after.world
  why : ∃ c : Client, p.before.world.clients[k]? = some c ∧ c.Refusal n cause

/-- A passage of a lookup that has found a recommendation in one of its own attempts, and has left
the clients alone so far. -/
structure Found (id : TaskId) (past : List Passage) (p : Passage) (r : Recommendation) : Prop where
  mover : p.By id
  before : Still id past
  found : ∃ c ∈ Lookup.courses (legs id (past ++ [p])), c.Finds r

/-- A passage in which a task comes to its result, and after which it does nothing. -/
structure Ends (id : TaskId) (p : Passage) (future : List Passage)
    (result : Except ClientError Finding) : Prop where
  mover : p.By id
  unresolved : p.before.world.result? (.task id) = none
  resolved : p.after.world.result? (.task id) = some result
  after : ∀ m ∈ future, m.By id → m.after = m.before

/-- What comes between the writes of a lookup: passages of others, while it is halfway. Where they
leave the clients alone, the clients are as the first write left them. -/
structure Between (id : TaskId) (p : Passage) (between : List Passage) (s : Parallel) : Prop where
  others : ∀ m ∈ between, ¬ m.By id
  halfway : ∀ m ∈ between, ∃ h ∈ m.before.halfway, h.task = id
  undisturbed : (∀ m ∈ between, m.before.world.SameClients m.after.world) →
    p.after.world.SameClients s.world

/-- A lookup has written a total and the endpoint that goes with it, each in a passage of its own.
On one thread nothing comes between. -/
inductive WroteBoth (k : ClientId) (id : TaskId) (r : Recommendation) (ps : List Passage) : Prop
  | intro {past between future : List Passage} {p q : Passage} :
      ps = past ++ p :: (between ++ q :: future) → Found id past p r →
      p.WritesTotal k r.shardCount → Between id p between q.before →
      q.WritesEndpoint k r.endpoint → Ends id q future (.ok (.total r.shardCount)) →
      (OneThread ps → between = []) → WroteBoth k id r ps

/-- A lookup has written a total, and nothing else so far. -/
inductive WroteTotal (k : ClientId) (id : TaskId) (r : Recommendation) (ps : List Passage)
    (s : Parallel) : Prop
  | intro {past between : List Passage} {p : Passage} : ps = past ++ p :: between →
      Found id past p r → p.WritesTotal k r.shardCount → Between id p between s →
      WroteTotal k id r ps s

/-- A lookup was refused the total that it found, and has left the clients alone. -/
inductive WasRefused (k : ClientId) (id : TaskId) (r : Recommendation) (cause : ShardError)
    (ps : List Passage) : Prop
  | intro {past future : List Passage} {p : Passage} : ps = past ++ p :: future →
      Found id past p r → p.Refuses k r.shardCount cause →
      Ends id p future (.error (.validation cause)) → WasRefused k id r cause ps

section

variable {k : ClientId} {id : TaskId} {r : Recommendation} {cause : ShardError}
  {ps : List Passage} {s : Parallel} {m : Passage}

theorem Between.eq_nil {p : Passage} {between : List Passage} (hbetween : Between id p between s)
    (hone : OneThread ps) (hsub : ∀ m ∈ between, m ∈ ps) : between = [] := by
  refine List.eq_nil_iff_forall_not_mem.mpr fun m hm => hbetween.others m hm ?_
  obtain ⟨h, hmem, hid⟩ := hbetween.halfway m hm
  rw [Passage.By, hone m (hsub m hm) h hmem, ← hid]
  rfl

theorem Ends.later {p : Passage} {future : List Passage} {result : Except ClientError Finding}
    (hends : Ends id p future result) (hm : m.By id → m.after = m.before) :
    Ends id p (future ++ [m]) result := by
  refine { hends with after := fun m' hm' => ?_ }
  rcases List.mem_append.mp hm' with hold | hnew
  · exact hends.after m' hold
  · exact List.mem_singleton.mp hnew ▸ hm

theorem WroteBoth.later (hwrote : WroteBoth k id r ps) (hm : m.By id → m.after = m.before) :
    WroteBoth k id r (ps ++ [m]) := by
  obtain ⟨hps, hfound, htotal, hbetween, hendpoint, hends, hone⟩ := hwrote
  refine .intro ?_ hfound htotal hbetween hendpoint (hends.later hm) fun hone' =>
    hone fun p hp => hone' p (List.mem_append_left _ hp)
  simp only [hps, List.append_assoc, List.cons_append]

theorem WasRefused.later (hrefused : WasRefused k id r cause ps)
    (hm : m.By id → m.after = m.before) : WasRefused k id r cause (ps ++ [m]) := by
  obtain ⟨hps, hfound, hrefuses, hends⟩ := hrefused
  refine .intro ?_ hfound hrefuses (hends.later hm)
  rw [hps, List.append_assoc, List.cons_append]

/-- A passage of another comes between the writes. -/
theorem WroteTotal.later (hwrote : WroteTotal k id r ps m.before) (hother : ¬ m.By id)
    {h : Halfway} (hmem : h ∈ m.before.halfway) (hid : h.task = id) :
    WroteTotal k id r (ps ++ [m]) m.after := by
  obtain ⟨hps, hfound, htotal, hbetween⟩ := hwrote
  refine .intro (by rw [hps, List.append_assoc, List.cons_append]) hfound htotal
    ⟨fun m' hm' => ?_, fun m' hm' => ?_, fun hsame => ?_⟩
  · rcases List.mem_append.mp hm' with hold | hnew
    · exact hbetween.others m' hold
    · exact List.mem_singleton.mp hnew ▸ hother
  · rcases List.mem_append.mp hm' with hold | hnew
    · exact hbetween.halfway m' hold
    · exact List.mem_singleton.mp hnew ▸ ⟨h, hmem, hid⟩
  · have hold := hbetween.undisturbed fun m' hm' => hsame m' (List.mem_append_left _ hm')
    exact hold.trans (hsame m (List.mem_append_right _ (List.mem_singleton_self m)))

end

/-! ## How a lookup stands -/

/-- An ending of a lookup without a recommendation. -/
inductive Failed : Ending → Prop
  | faulted {f : Fault} : Failed (.faulted f)
  | aborted : Failed .aborted
  | cancelled : Failed (.returned (.error .cancelled))

/-- The results of a lookup that failed. -/
theorem Failed.result {ending : Ending} (hfailed : Failed ending) :
    ending.result = .error .cancelled ∨ ∃ reason, ending.result = .error (.internal reason) := by
  cases hfailed with
  | @faulted f => cases f <;> exact .inr ⟨_, rfl⟩
  | aborted => exact .inr ⟨_, rfl⟩
  | cancelled => exact .inl rfl

/-- How the lookup of a client stands after some passages. While it is under way, and when it has
failed or was refused, it has left the clients alone; halfway it has written the total that it
found; and in the end it has written the endpoint too. -/
inductive Standing (k : ClientId) (id : TaskId) (l₀ : Lookup) (ps : List Passage) (s : Parallel) :
    Prop
  | underWay {l : Lookup} {phase : Option LookupPhase} {place : Lookup.Place} :
      s.world.scheduler.tasks[id]? = some (.live (.lookup k l phase)) →
      (∀ h ∈ s.halfway, h.task ≠ id) → Lookup.Trail l₀ (legs id ps) l place →
      place.Onward phase → Still id ps → Standing k id l₀ ps s
  | failed {ending : Ending} : s.world.scheduler.tasks[id]? = some (.ended ending) →
      Failed ending → Still id ps → Standing k id l₀ ps s
  | refused {r : Recommendation} {cause : ShardError} :
      s.world.scheduler.tasks[id]? = some (.ended (.returned (.error (.validation cause)))) →
      Still id ps → WasRefused k id r cause ps → Standing k id l₀ ps s
  | halfway {h : Halfway} : h ∈ s.halfway → h.task = id → h.client = k →
      WroteTotal k id h.report.recommendation ps s → Standing k id l₀ ps s
  | wroteBoth {r : Recommendation} :
      s.world.scheduler.tasks[id]? = some (.ended (.returned (.ok (.total r.shardCount)))) →
      WroteBoth k id r ps → Standing k id l₀ ps s

section

variable {k : ClientId} {id : TaskId} {l₀ l : Lookup} {phase : Option LookupPhase}
  {place : Lookup.Place} {ps : List Passage} {s : Parallel}

/-- The first part of a run of a lookup that is under way. -/
theorem standing_of_enter {c : Client} {wake : Wake}
    (htask : s.world.scheduler.tasks[id]? = some (.live (.lookup k l phase)))
    (hfree : ∀ h ∈ s.halfway, h.task ≠ id) (htrail : Lookup.Trail l₀ (legs id ps) l place)
    (honward : place.Onward phase) (hstill : Still id ps) (hclient : s.world.clients[k]? = some c)
    {s' : Parallel} (hs' : s' =
      ⟨(s.world.enter id wake).1, (s.world.enter id wake).2.toList ++ s.halfway⟩) :
    Standing k id l₀ (ps ++ [⟨s, .enters id wake, s'⟩]) s' := by
  have hlegs : legs id (ps ++ [⟨s, .enters id wake, s'⟩]) =
      legs id ps ++ [⟨s.world, l, phase, wake⟩] := by
    rw [legs_append, legs_own (p := ⟨s, .enters id wake, s'⟩) rfl htask]
  have htrail' := Lookup.Trail.leg s.world wake htrail honward
  rw [← hlegs] at htrail'
  have hset : ∀ task, (s.world.scheduler.tasks.setIfInBounds id task)[id]? = some task :=
    fun task => Array.getElem?_setIfInBounds_self_of_lt (Array.getElem?_eq_some_iff.mp htask).1
  have hfound : ∀ {report}, (Lookup.Leg.step ⟨s.world, l, phase, wake⟩).next =
      .returned (.ok report) → Found id ps ⟨s, .enters id wake, s'⟩ report.recommendation := by
    intro report hnext
    rw [Lookup.Leg.arrival, hnext] at htrail'
    exact ⟨rfl, hstill, htrail'.returned_ok⟩
  rcases World.enter_lookup htask wake with
    ⟨hwhole, hnot⟩ | ⟨report, c', w₁, hnext, htotal, hpart, -, hclients, hcurrent, hscheduler⟩
  · rw [hwhole] at hs'
    have hhalfway : s'.halfway = s.halfway := by rw [hs']; rfl
    have hworld : s'.world = s.world.runTask id wake := by rw [hs']
    have hrun := World.runTask_lookup htask wake
    rw [← hworld] at hrun
    cases hrun with
    | waits hnext hsame hscheduler =>
        refine .underWay (by rw [hscheduler]; exact hset _) (hhalfway ▸ hfree) htrail' ?_
          (hstill.concat fun _ => hsame)
        rw [Lookup.Leg.arrival, hnext]
        exact .asleep
    | faults hnext hsame hscheduler =>
        exact .failed (by rw [hscheduler]; exact hset _) .faulted (hstill.concat fun _ => hsame)
    | @fails e hnext hsame hscheduler =>
        rw [Lookup.Leg.arrival, hnext] at htrail'
        obtain rfl : e = .cancelled := htrail'.returned_error
        exact .failed (by rw [hscheduler]; exact hset _) .cancelled (hstill.concat fun _ => hsame)
    | @refused report e hnext hrefused hsame hscheduler =>
        rw [hclient] at hrefused
        obtain ⟨cause, rfl, hrefusal⟩ := Client.setTotalShards_error hrefused
        have hended : s'.world.scheduler.tasks[id]? =
            some (.ended (.returned (.error (.validation cause)))) := by
          rw [hscheduler]; exact hset _
        exact .refused hended (hstill.concat fun _ => hsame)
          (.intro rfl (hfound hnext) ⟨hsame, c, hclient, hrefusal⟩
            ⟨rfl, World.result?_live htask, World.result?_ended hended,
              fun m hm => (List.not_mem_nil hm).elim⟩)
    | applied hnext htotal => exact absurd htotal (hnot _ _ hnext)
  · rw [hpart] at hs'
    rw [hclient] at htotal
    obtain ⟨numbering, rfl, hindex, hn⟩ := Client.setTotalShards_ok htotal
    have hworld : s'.world = w₁ := by rw [hs']
    have hmem : (⟨id, k, report⟩ : Halfway) ∈ s'.halfway := by
      rw [hs']
      exact List.mem_cons_self
    refine .halfway hmem rfl rfl (.intro rfl (hfound hnext)
      ⟨?_, c, numbering, hclient, hindex, hn, ?_⟩
      ⟨fun m hm => (List.not_mem_nil hm).elim, fun m hm => (List.not_mem_nil hm).elim,
        fun _ => ⟨rfl, rfl⟩⟩)
    · rw [hworld]; exact hcurrent
    · rw [hworld]; exact hclients

/-- The second write of a lookup that is halfway. -/
theorem standing_of_leave {h : Halfway} {c : Client} (hsound : s.Sound) (hmem : h ∈ s.halfway)
    (hid : h.task = id) (hk : h.client = k)
    (hwrote : WroteTotal k id h.report.recommendation ps s)
    (hclient : s.world.clients[k]? = some c) {s' : Parallel} (hs' : s'.world = s.world.leave h) :
    Standing k id l₀ (ps ++ [⟨s, .leaves h, s'⟩]) s' := by
  obtain ⟨l, phase, htask⟩ := hsound.live h hmem
  rw [hid] at htask
  have hended : s'.world.scheduler.tasks[id]? =
      some (.ended (.returned (.ok (.total h.report.recommendation.shardCount)))) := by
    rw [hs', ← hid]
    exact Array.getElem?_setIfInBounds_self_of_lt
      (Array.getElem?_eq_some_iff.mp (hid.symm ▸ htask)).1
  have hendpoint :
      Passage.WritesEndpoint ⟨s, .leaves h, s'⟩ k h.report.recommendation.endpoint := by
    refine ⟨by rw [hs']; rfl, c, hclient, ?_⟩
    rw [hs', ← hk]
    rw [← hk] at hclient
    simp only [World.leave, World.writeEndpoint, World.note, hclient, Option.getD_some]
  obtain ⟨hps, hfound, htotal, hbetween⟩ := hwrote
  refine .wroteBoth hended (.intro ?_ hfound htotal hbetween hendpoint
    ⟨congrArg some hid, World.result?_live htask, World.result?_ended hended,
      fun m hm => (List.not_mem_nil hm).elim⟩ fun hone => hbetween.eq_nil hone fun m hm => ?_)
  · rw [hps, List.append_assoc, List.cons_append]
  · rw [hps]
    exact List.mem_append_left _ (List.mem_append_right _ (List.mem_cons_of_mem _ hm))

/-- How a lookup stands after one more passage. -/
theorem Standing.passage {m : Mover} {s' : Parallel} (hstanding : Standing k id l₀ ps s)
    (hsound : s.Sound) (hclient : ∃ c, s.world.clients[k]? = some c) (hpasses : s.Passes m s') :
    Standing k id l₀ (ps ++ [⟨s, m, s'⟩]) s' := by
  obtain ⟨c, hc⟩ := hclient
  have hnotEnded : ∀ {h : Halfway} {ending : Ending}, h ∈ s.halfway → h.task = id →
      s.world.scheduler.tasks[id]? ≠ some (.ended ending) := by
    intro h ending hmem hid htask
    obtain ⟨l, phase, hlive⟩ := hsound.live h hmem
    rw [hid, htask] at hlive
    cases hlive
  by_cases hown : m.task? = some id
  · cases hpasses with
    | call => cases hown
    | aside => cases hown
    | enters id' wake hfree =>
        obtain rfl : id' = id := Option.some.inj hown
        have hidle : ∀ {ending}, s.world.scheduler.tasks[id']? = some (.ended ending) →
            Parallel.mk (s.world.enter id' wake).1
              ((s.world.enter id' wake).2.toList ++ s.halfway) = s := fun htask => by
          rw [World.enter_ended htask]
          rfl
        cases hstanding with
        | underWay htask hfree htrail honward hstill =>
            exact standing_of_enter htask hfree htrail honward hstill hc rfl
        | halfway hmem hid => exact absurd hid (hfree _ hmem)
        | failed htask hfailed hstill =>
            rw [hidle htask]
            exact .failed htask hfailed (hstill.concat fun _ => ⟨rfl, rfl⟩)
        | refused htask hstill hrefused =>
            rw [hidle htask]
            exact .refused htask (hstill.concat fun _ => ⟨rfl, rfl⟩) (hrefused.later fun _ => rfl)
        | wroteBoth htask hwrote =>
            rw [hidle htask]
            exact .wroteBoth htask (hwrote.later fun _ => rfl)
    | @leaves h hmem =>
        have hid : h.task = id := Option.some.inj hown
        cases hstanding with
        | underWay _ hfree => exact absurd hid (hfree h hmem)
        | failed htask => exact absurd htask (hnotEnded hmem hid)
        | refused htask => exact absurd htask (hnotEnded hmem hid)
        | wroteBoth htask => exact absurd htask (hnotEnded hmem hid)
        | @halfway h' hmem' hid' hk hwrote =>
            obtain rfl : h = h' := hsound.halfway_unique hmem hmem' (hid.trans hid'.symm)
            exact standing_of_leave hsound hmem hid hk hwrote hc rfl
  · have hother : ¬ Passage.By ⟨s, m, s'⟩ id := hown
    have hkept : ∀ {ending}, s.world.scheduler.tasks[id]? = some (.ended ending) →
        s'.world.scheduler.tasks[id]? = some (.ended ending) := by
      intro ending htask
      rcases hpasses.task_cases hown htask with hsame | ⟨⟨work, hlive⟩, -⟩
      · exact hsame
      · cases hlive
    cases hstanding with
    | underWay htask hfree htrail honward hstill =>
        have hstill' := hstill.concat fun hby => absurd hby hother
        rcases hpasses.task_cases hown htask with hsame | ⟨-, haborted⟩
        · refine .underWay hsame (fun h hmem hid => ?_) ?_ honward hstill'
          · exact hfree h ((hpasses.halfway_iff hown hid).mp hmem) hid
          · rw [legs_append, legs_other hother, List.append_nil]
            exact htrail
        · exact .failed haborted .aborted hstill'
    | failed htask hfailed hstill =>
        exact .failed (hkept htask) hfailed (hstill.concat fun hby => absurd hby hother)
    | refused htask hstill hrefused =>
        exact .refused (hkept htask) (hstill.concat fun hby => absurd hby hother)
          (hrefused.later fun hby => absurd hby hother)
    | halfway hmem hid hk hwrote =>
        exact .halfway ((hpasses.halfway_iff hown hid).mpr hmem) hid hk
          (hwrote.later (m := ⟨s, m, s'⟩) hother hmem hid)
    | wroteBoth htask hwrote =>
        exact .wroteBoth (hkept htask) (hwrote.later fun hby => absurd hby hother)

/-- At every point of its history a lookup of a client stands well. -/
theorem History.standing {s₁ : Parallel} (hhistory : s₁.History ps s) (hsound : s₁.Sound)
    (htask : s₁.world.scheduler.tasks[id]? = some (.live (.lookup k l₀ none)))
    (hfree : ∀ h ∈ s₁.halfway, h.task ≠ id) {c : Client}
    (hclient : s₁.world.clients[k]? = some c) :
    Standing k id l₀ ps s ∧ s.Sound ∧ ∃ c', s.world.clients[k]? = some c' := by
  induction hhistory with
  | start =>
      exact ⟨.underWay htask hfree .called .called fun p hp => (List.not_mem_nil hp).elim, hsound,
        c, hclient⟩
  | passage _ hpasses ih =>
      obtain ⟨hstanding, hsound', c', hc'⟩ := ih
      exact ⟨hstanding.passage hsound' ⟨c', hc'⟩ hpasses, hpasses.sound hsound',
        hpasses.client hc'⟩

theorem result?_halfway {h : Halfway} (hsound : s.Sound) (hmem : h ∈ s.halfway) :
    s.world.result? (.task h.task) = none := by
  obtain ⟨l, phase, hlive⟩ := hsound.live h hmem
  exact World.result?_live hlive

/-- A lookup that has a total as its result has written both. -/
theorem Standing.result_ok {f : Finding} (hstanding : Standing k id l₀ ps s) (hsound : s.Sound)
    (hf : s.world.result? (.task id) = some (.ok f)) :
    ∃ r, f = .total r.shardCount ∧ WroteBoth k id r ps := by
  cases hstanding with
  | underWay htask => rw [World.result?_live htask] at hf; cases hf
  | failed htask hfailed =>
      rw [World.result?_ended htask] at hf
      rcases hfailed.result with heq | ⟨reason, heq⟩
      · rw [heq] at hf; cases hf
      · rw [heq] at hf; cases hf
  | refused htask => rw [World.result?_ended htask] at hf; cases hf
  | halfway hmem hid => rw [← hid, result?_halfway hsound hmem] at hf; cases hf
  | wroteBoth htask hwrote =>
      rw [World.result?_ended htask] at hf
      cases hf
      exact ⟨_, rfl, hwrote⟩

/-- A lookup that has an error as its result has left the clients alone. -/
theorem Standing.result_error {e : ClientError} (hstanding : Standing k id l₀ ps s)
    (hsound : s.Sound) (he : s.world.result? (.task id) = some (.error e)) :
    Still id ps ∧ (e = .cancelled ∨ (∃ reason, e = .internal reason)
      ∨ ∃ r cause, e = .validation cause ∧ WasRefused k id r cause ps) := by
  cases hstanding with
  | underWay htask => rw [World.result?_live htask] at he; cases he
  | failed htask hfailed hstill =>
      rw [World.result?_ended htask] at he
      refine ⟨hstill, ?_⟩
      rcases hfailed.result with heq | ⟨reason, heq⟩
      · rw [heq] at he; cases he; exact .inl rfl
      · rw [heq] at he; cases he; exact .inr (.inl ⟨reason, rfl⟩)
  | refused htask hstill hrefused =>
      rw [World.result?_ended htask] at he
      cases he
      exact ⟨hstill, .inr (.inr ⟨_, _, rfl, hrefused⟩)⟩
  | halfway hmem hid => rw [← hid, result?_halfway hsound hmem] at he; cases he
  | wroteBoth htask => rw [World.result?_ended htask] at he; cases he

theorem Standing.result_none (hstanding : Standing k id l₀ ps s)
    (hnone : s.world.result? (.task id) = none) : Still id ps ∨ ∃ r, WroteTotal k id r ps s := by
  cases hstanding with
  | underWay _ _ _ _ hstill => exact .inl hstill
  | failed _ _ hstill => exact .inl hstill
  | refused _ hstill => exact .inl hstill
  | halfway _ _ _ hwrote => exact .inr ⟨_, hwrote⟩
  | wroteBoth htask => rw [World.result?_ended htask] at hnone; cases hnone

end

/-! ## Every lookup -/

/-- **A lookup of a client writes what it found, first the total and then the endpoint, or
nothing.** Whatever is called and whenever tasks run, on any number of threads and with any number
of lookups among them:

- A total as the result of a lookup was written, in a passage of the lookup, and then, in a later
  passage of it, the endpoint that one of its own attempts found with the total. This is all that
  the lookup ever did to the clients. On one thread nothing comes between the two.
- An error means that the lookup left the clients alone. The token was missing, the lookup was
  cancelled or broke off, or the client had a shard that does not go with the total when the lookup
  wanted to write it; and after that refusal the task does nothing any more.
- Without a result the lookup has left the clients alone, or has written the total and nothing else.

The histories of one thread are among these. -/
theorem lookup_writes_both :
    (∀ {w w₁ : World} {s₀ s : Parallel} {ps₀ ps : List Passage} {h : String}
      {token : Option String} {finished : Bool} {pending : Pending} {c₀ : Client},
      History ⟨w, []⟩ ps₀ s₀ → s₀.world.clients[s₀.world.current]? = some c₀ →
      s₀.world.perform (.discover h token) = (w₁, .lookupStarted finished) →
      w₁.handle? h = some (.lookup pending) → History { s₀ with world := w₁ } ps s →
      s₀.world.SameClients w₁
        ∧ (∀ f, s.world.result? pending = some (.ok f) → ∃ id r, pending = .task id
          ∧ f = .total r.shardCount ∧ WroteBoth s₀.world.current id r ps)
        ∧ (∀ e, s.world.result? pending = some (.error e) →
          (∀ id, pending = .task id → Still id ps)
            ∧ (e = .configuration "cannot request the recommended total shards without a token"
                ∧ s₀.world.client.credential = none
              ∨ e = .cancelled
              ∨ (∃ reason, e = .internal reason)
              ∨ ∃ id r cause, pending = .task id ∧ e = .validation cause
                ∧ WasRefused s₀.world.current id r cause ps))
        ∧ (s.world.result? pending = none → ∃ id, pending = .task id
          ∧ (Still id ps ∨ ∃ r, WroteTotal s₀.world.current id r ps s)))
      ∧ ∀ {w w' : World} {ps : List GatewayClient.Passage}, w.History ps w' →
        ∃ ps', History ⟨w, []⟩ ps' ⟨w', []⟩ ∧ OneThread ps' := by
  refine ⟨?_, fun hhistory => hhistory.parallel⟩
  intro w w₁ s₀ s ps₀ ps h token finished pending c₀ hbefore hclient hcall hhandle hhistory
  have hsound₀ := hbefore.sound (sound_none w)
  obtain ⟨hsame, ⟨hcredential, rfl⟩ | ⟨id, l, rfl, htask, -, w', hspawn, -⟩⟩ :=
    World.discover_cases hcall hhandle
  · refine ⟨hsame, fun f hf => ?_, fun e he => ?_, fun hnone => ?_⟩
    · cases hf
    · cases he
      exact ⟨fun id heq => (by cases heq), .inl ⟨rfl, hcredential⟩⟩
    · cases hnone
  · have hsound₁ : Sound { s₀ with world := w₁ } := by
      have hcalled := Passes.call (s := s₀) (c := .discover h token) (fun hwaits => hwaits)
        fun heq => by cases heq
      rw [hcall] at hcalled
      exact hcalled.sound hsound₀
    have hfree : ∀ h ∈ s₀.halfway, h.task ≠ id := by
      intro h hh heq
      obtain ⟨l', phase, hlive⟩ := hsound₀.live h hh
      have hlt := (Array.getElem?_eq_some_iff.mp hlive).1
      rw [heq, (World.spawn_eq hspawn).2.1] at hlt
      exact Nat.lt_irrefl _ hlt
    have hclient₁ : w₁.clients[s₀.world.current]? = some c₀ := by rw [hsame.clients]; exact hclient
    obtain ⟨hstanding, hsound, -⟩ := hhistory.standing hsound₁ htask hfree hclient₁
    refine ⟨hsame, fun f hf => ?_, fun e he => ?_,
      fun hnone => ⟨id, rfl, hstanding.result_none hnone⟩⟩
    · obtain ⟨r, hr, hwrote⟩ := hstanding.result_ok hsound hf
      exact ⟨id, r, rfl, hr, hwrote⟩
    · obtain ⟨hstill, hwhy⟩ := hstanding.result_error hsound he
      refine ⟨fun id' heq => ?_, .inr ?_⟩
      · cases heq
        exact hstill
      · rcases hwhy with hcancelled | hinternal | ⟨r, cause, he', hrefused⟩
        · exact .inl hcancelled
        · exact .inr (.inl hinternal)
        · exact .inr (.inr ⟨id, r, cause, rfl, he', hrefused⟩)

/-- A world in which a client is about to look for a total that it will find to be eight. -/
def hopefulWorld : World where
  clients := #[{ credential := some ⟨"tok"⟩ }]
  plane := { script := [{ query := .answer ⟨"wss://g", 8⟩ }] }

/-- The total is set by a call between the writes, and stays beside the endpoint of the lookup. -/
theorem lookup_writes_both_overCall : ∃ ps s,
    History ⟨(hopefulWorld.perform (.discover "d" none)).1, []⟩ ps s
      ∧ (∃ r, r.shardCount = 8 ∧ WroteBoth 0 0 r ps)
      ∧ (s.world.clients[0]?.map fun c => (c.numbering.total, c.endpoint)) =
        some (4, some "wss://g") := by
  have hcall : hopefulWorld.perform (.discover "d" none) =
      ((hopefulWorld.perform (.discover "d" none)).1, .lookupStarted false) := rfl
  have hhandle : (hopefulWorld.perform (.discover "d" none)).1.handle? "d" =
      some (.lookup (.task 0)) := rfl
  have hhistory := History.start (s := ⟨(hopefulWorld.perform (.discover "d" none)).1, []⟩)
    |>.passage (.enters 0 .started fun h hh => (List.not_mem_nil hh).elim)
    |>.passage (.call (c := .set (.totalShards 4)) id fun heq => by cases heq)
    |>.passage (.leaves (h := ⟨0, 0, ⟨⟨"wss://g", 8⟩, 0⟩⟩) List.mem_cons_self)
  obtain ⟨id, r, hid, hf, hwrote⟩ :=
    (lookup_writes_both.1 (w := hopefulWorld) .start rfl hcall hhandle hhistory).2.1 _ rfl
  cases hid
  exact ⟨_, _, hhistory, ⟨r, (Finding.total.inj hf).symm, hwrote⟩, rfl⟩

/-- A world in which a client is about to look for a total twice, and to find eight and four. -/
def rivalWorld : World where
  clients := #[{ credential := some ⟨"tok"⟩ }]
  plane := { script := [{ query := .answer ⟨"wss://a", 8⟩ }, { query := .answer ⟨"wss://b", 4⟩ }] }

/-- Two writes are not one: of two lookups that both find a total, the second makes both of its
writes between those of the first. The client is left with the total of one and the endpoint of the
other, and no passage has written both. -/
theorem writes_torn : ∃ ps s,
    History ⟨(rivalWorld.perform (.discover "a" none)).1, []⟩ ps s
      ∧ s.world.result? (.task 0) = some (.ok (.total 8))
      ∧ s.world.result? (.task 1) = some (.ok (.total 4))
      ∧ (s.world.clients[0]?.map fun c => (c.numbering.total, c.endpoint)) =
        some (4, some "wss://a")
      ∧ ∀ p ∈ ps,
        p.before.world.clients[0]?.map (·.numbering.total) =
            p.after.world.clients[0]?.map (·.numbering.total)
          ∨ p.before.world.clients[0]?.map (·.endpoint) =
            p.after.world.clients[0]?.map (·.endpoint) := by
  have hhistory := History.start (s := ⟨(rivalWorld.perform (.discover "a" none)).1, []⟩)
    |>.passage (.call (c := .discover "b" none) id fun heq => by cases heq)
    |>.passage (.enters 0 .started fun h hh => (List.not_mem_nil hh).elim)
    |>.passage (.enters 1 .started fun h hh => by rw [List.mem_singleton.mp hh]; decide)
    |>.passage (.leaves (h := ⟨1, 0, ⟨⟨"wss://b", 4⟩, 0⟩⟩) List.mem_cons_self)
    |>.passage (.leaves (h := ⟨0, 0, ⟨⟨"wss://a", 8⟩, 0⟩⟩) List.mem_cons_self)
  refine ⟨_, _, hhistory, rfl, rfl, rfl, fun p hp => ?_⟩
  simp only [List.nil_append, List.cons_append, List.mem_cons, List.not_mem_nil, or_false] at hp
  -- The call writes nothing, the first halves no endpoint and the second halves no new total.
  rcases hp with rfl | rfl | rfl | rfl | rfl
  · exact .inl rfl
  · exact .inr rfl
  · exact .inr rfl
  · exact .inl rfl
  · exact .inl rfl

end GatewayClient.Parallel
