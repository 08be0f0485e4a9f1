import Mathlib.Logic.Basic
import GatewayClient.Proofs.Login.Start
import GatewayClient.Proofs.Scenario.Connection

/-!
# Batches of logins

A batch is refused as a whole, and then nothing at all has happened, or it is accepted and each of
its shards gets a handle of its own. Which of the two depends on the indices and the total only
(`exists_validate`). What an accepted batch starts depends on the shard of the client: a pinned
client asks for nothing and every handle has failed; of any other client each shard is on its own,
so that one whose request cannot be made fails alone.

The requests are a parameter here. Those of a client are one case, and there all shards fail or none
does; a caller with requests of its own can have some of them fail.
-/

namespace GatewayClient

/-! ## Which batches are accepted -/

theorem ShardAssignment.ofPair_self (a : ShardAssignment) : ofPair a.index a.total = .ok a := by
  have htotal : ¬ a.total < 1 := by
    intro hlt
    have hindex := UInt32.lt_iff_toNat_lt.mp a.index_lt_total
    have hone := UInt32.lt_iff_toNat_lt.mp hlt
    rw [UInt32.toNat_one] at hone
    omega
  rw [ofPair, if_neg htotal, dif_pos a.index_lt_total]

namespace Batch

theorem firstRepeated?_eq_none {seen shards : List UInt32} :
    firstRepeated? seen shards = none ↔ shards.Nodup ∧ ∀ s ∈ shards, s ∉ seen := by
  induction shards generalizing seen with
  | nil => simp [firstRepeated?]
  | cons s rest ih =>
      by_cases hs : s ∈ seen
      · simp [firstRepeated?, hs]
      · rw [firstRepeated?, if_neg hs, ih, List.nodup_cons]
        constructor
        · rintro ⟨hnodup, hfresh⟩
          refine ⟨⟨fun hmem => hfresh s hmem List.mem_cons_self, hnodup⟩, fun s' hs' => ?_⟩
          rcases List.mem_cons.mp hs' with rfl | hmem
          · exact hs
          · exact fun hseen => hfresh s' hmem (List.mem_cons_of_mem s hseen)
        · rintro ⟨⟨hnot, hnodup⟩, hfresh⟩
          refine ⟨hnodup, fun s' hs' hseen => ?_⟩
          rcases List.mem_cons.mp hseen with rfl | hmem
          · exact hnot hs'
          · exact hfresh s' (List.mem_cons_of_mem s hs') hmem

theorem assign_eq_ok {total : UInt32} {shards : List UInt32} {as : List ShardAssignment} :
    assign total shards = .ok as ↔ as.map (·.index) = shards ∧ ∀ a ∈ as, a.total = total := by
  induction shards generalizing as with
  | nil =>
      constructor
      · intro has
        cases has
        exact ⟨rfl, nofun⟩
      · rintro ⟨has, -⟩
        rw [List.map_eq_nil_iff.mp has]
        rfl
  | cons s rest ih =>
      constructor
      · intro has
        rw [assign] at has
        split at has
        · cases has
        · next a ha =>
          cases hrest : assign total rest with
          | error e => rw [hrest] at has; cases has
          | ok as' =>
              rw [hrest] at has
              cases has
              obtain ⟨rfl, rfl⟩ := ShardAssignment.eq_of_ofPair ha
              obtain ⟨hindices, htotal⟩ := ih.mp hrest
              refine ⟨by rw [List.map_cons, hindices], fun a' ha' => ?_⟩
              rcases List.mem_cons.mp ha' with rfl | hmem
              · rfl
              · exact htotal a' hmem
      · rintro ⟨has, htotal⟩
        obtain ⟨a, as', rfl, rfl, hrest⟩ := List.map_eq_cons_iff.mp has
        have hothers := ih.mpr ⟨hrest, fun a' ha' => htotal a' (List.mem_cons_of_mem a ha')⟩
        rw [assign, ← htotal a List.mem_cons_self, a.ofPair_self]
        rw [← htotal a List.mem_cons_self] at hothers
        simp [hothers, Except.map]

theorem exists_assign {total : UInt32} {shards : List UInt32} :
    (∃ as, assign total shards = .ok as) ↔ ∀ s ∈ shards, s < total := by
  constructor
  · rintro ⟨as, has⟩ s hs
    obtain ⟨rfl, htotal⟩ := assign_eq_ok.mp has
    obtain ⟨a, ha, rfl⟩ := List.mem_map.mp hs
    rw [← htotal a ha]
    exact a.index_lt_total
  · intro hlt
    refine ⟨shards.attach.map fun s => ⟨s.1, total, hlt s.1 s.2⟩, assign_eq_ok.mpr ⟨?_, ?_⟩⟩
    · simp
    · intro a ha
      obtain ⟨s, -, rfl⟩ := List.mem_map.mp ha
      rfl

theorem validate_eq_ok {total : UInt32} {shards : List UInt32} {as : List ShardAssignment} :
    validate total shards = .ok as ↔
      shards.Nodup ∧ as.map (·.index) = shards ∧ ∀ a ∈ as, a.total = total := by
  rw [validate]
  cases hrepeated : firstRepeated? [] shards with
  | none => simp [assign_eq_ok, (firstRepeated?_eq_none.mp hrepeated).1]
  | some s =>
      have hnot : ¬ shards.Nodup := fun hnodup => by
        rw [firstRepeated?_eq_none.mpr ⟨hnodup, fun _ _ => List.not_mem_nil⟩] at hrepeated
        cases hrepeated
      simp [hnot]

/-- A batch is accepted if it repeats no index and each is one of the total. -/
theorem exists_validate {total : UInt32} {shards : List UInt32} :
    (∃ as, validate total shards = .ok as) ↔ shards.Nodup ∧ ∀ s ∈ shards, s < total := by
  constructor
  · rintro ⟨as, has⟩
    obtain ⟨hnodup, hassign⟩ := validate_eq_ok.mp has
    exact ⟨hnodup, exists_assign.mp ⟨as, assign_eq_ok.mpr hassign⟩⟩
  · rintro ⟨hnodup, hlt⟩
    obtain ⟨as, has⟩ := exists_assign.mpr hlt
    exact ⟨as, validate_eq_ok.mpr ⟨hnodup, assign_eq_ok.mp has⟩⟩

end Batch

/-! ## What a batch plans -/

/-- What is asked of a caller for a shard. -/
abbrev RequestFor := ShardAssignment → Except ClientError ConnectionRequest

/-- Requests are made for the shard that they are asked for. -/
def RequestFor.Apt (request : RequestFor) : Prop := ∀ a q, request a = .ok q → q.shard = a

theorem Client.request_apt (c : Client) : RequestFor.Apt c.request := by
  intro a q hq
  unfold Client.request at hq
  split at hq
  · cases hq
  · cases hq
    rfl

/-- How the login of a shard starts under the numbers of a client. -/
def LoginStart.under (numbering : ShardAssignment) (request : RequestFor) (a : ShardAssignment) :
    LoginStart :=
  if numbering.index = 0 then .ofRequest a (request a) else .failed a LoginBatch.pinned

namespace LoginBatch

variable {numbering : ShardAssignment} {request : RequestFor} {shards : List UInt32}

theorem plan_of_validate {as : List ShardAssignment} (hshards : shards ≠ [])
    (has : Batch.validate numbering.total shards = .ok as) :
    plan numbering request shards = .ok
      { asked := if numbering.index = 0 then as else []
        starts := as.map (LoginStart.under numbering request)
        announcement := [announce numbering.total shards] } := by
  have hnonempty : ¬ shards.isEmpty = true := fun h => hshards (List.isEmpty_iff.mp h)
  rw [plan, if_neg hnonempty, has, Except.map]
  by_cases hindex : numbering.index = 0
  · simp [LoginStart.under, hindex]
  · simp [LoginStart.under, hindex]

theorem plan_of_refused {e : ShardError} (hshards : shards ≠ [])
    (he : Batch.validate numbering.total shards = .error e) :
    plan numbering request shards = .error e := by
  have hnonempty : ¬ shards.isEmpty = true := fun h => hshards (List.isEmpty_iff.mp h)
  rw [plan, if_neg hnonempty, he]
  rfl

end LoginBatch

namespace LoginStart

variable {numbering : ShardAssignment} {request : RequestFor}

theorem ofRequest_shard (hapt : request.Apt) (a : ShardAssignment) :
    (ofRequest a (request a)).shard = a := by
  cases hq : request a with
  | error e => rfl
  | ok q => exact hapt a q hq

theorem under_shard (hapt : request.Apt) (a : ShardAssignment) :
    (under numbering request a).shard = a := by
  unfold under
  split
  · exact ofRequest_shard hapt a
  · rfl

theorem under_failed {a a' : ShardAssignment} {e : ClientError}
    (h : under numbering request a = failed a' e) :
    a' = a ∧ (numbering.index = 0 → request a = .error e)
      ∧ (numbering.index ≠ 0 → e = LoginBatch.pinned) := by
  unfold under at h
  split at h
  · next hindex =>
    cases hq : request a with
    | error e' => rw [hq] at h; cases h; exact ⟨rfl, fun _ => rfl, fun hne => absurd hindex hne⟩
    | ok q => rw [hq] at h; cases h
  · next hindex => cases h; exact ⟨rfl, fun hzero => absurd hzero hindex, fun _ => rfl⟩

theorem under_opening {a : ShardAssignment} {q : ConnectionRequest}
    (h : under numbering request a = opening q) : numbering.index = 0 ∧ request a = .ok q := by
  unfold under at h
  split at h
  · next hindex =>
    cases hq : request a with
    | error e => rw [hq] at h; cases h
    | ok q' => rw [hq] at h; cases h; exact ⟨hindex, rfl⟩
  · cases h

theorem requests_ofRequest (request : RequestFor) (as : List ShardAssignment) :
    requests (as.map fun a => ofRequest a (request a)) =
      as.filterMap fun a => (request a).toOption := by
  induction as with
  | nil => rfl
  | cons a rest ih =>
      cases hq : request a with
      | error e =>
          rw [List.filterMap_cons_none (by rw [hq]; rfl), ← ih]
          simp [hq, ofRequest]
      | ok q =>
          rw [List.filterMap_cons_some (by rw [hq]; rfl), ← ih]
          simp [hq, ofRequest]

/-- A pinned client opens nothing; any other opens what its requests were made for. -/
theorem requests_under (as : List ShardAssignment) :
    requests (as.map (under numbering request)) =
      if numbering.index = 0 then as.filterMap fun a => (request a).toOption else [] := by
  by_cases hindex : numbering.index = 0
  · have hunder : under numbering request = fun a => ofRequest a (request a) :=
      funext fun a => if_pos hindex
    rw [if_pos hindex, hunder, requests_ofRequest]
  · rw [if_neg hindex]
    induction as with
    | nil => rfl
    | cons a rest ih => simpa [under, hindex] using ih

end LoginStart

/-! ## What comes of a batch -/

namespace World

/-- A call that starts a batch of a caller with numbers and requests of its own. -/
def callBatch (numbering : ShardAssignment) (request : RequestFor) (h : String)
    (shards : List UInt32) (w : World) : World × Answer :=
  w.startClientBatch h ((LoginBatch.plan numbering request shards).mapError .validation)

/-- The batch of a client is one with the numbers and the requests of the client. -/
theorem perform_loginShards (h : String) (shards : List UInt32) (w : World) :
    w.perform (.loginShards h shards) =
      w.callBatch w.client.numbering w.client.request h shards := by
  have hloginShards : w.client.loginShards shards =
      (LoginBatch.plan w.client.numbering w.client.request shards).mapError .validation := by
    unfold Client.loginShards
    cases LoginBatch.plan w.client.numbering w.client.request shards <;> rfl
  rw [callBatch, ← hloginShards]
  rfl

theorem answerBatch_eq {h : String} {b : LoginBatch} {w : World} (hadmits : w.Admits b.starts) :
    w.answerBatch h b =
      (let pending := LoginStart.handles w.scheduler.tasks.size b.starts
       let w' := ((w.noteAll b.announcement).begun b.starts).store h (.logins pending)
       (w', .started (w'.finishedOf pending))) := by
  have hstart := startLogins_eq (w := w.noteAll b.announcement) hadmits
  unfold answerBatch startBatch
  rw [hstart]
  rfl

/-- The handles of an accepted batch, and what was started for them. -/
structure Accepted (numbering : ShardAssignment) (request : RequestFor) (shards : List UInt32)
    (w w' : World) (pending : List (ShardAssignment × Pending)) : Prop where
  indices : pending.map (·.1.index) = shards
  totals : ∀ p ∈ pending, p.1.total = numbering.total
  /-- A pinned client starts nothing, and each of its logins is refused for its usage. -/
  pinned : numbering.index ≠ 0 →
    w'.scheduler = w.scheduler ∧ ∀ p ∈ pending,
      p.2 = .failed (.usage "batch login is not allowed after pinning the current shard")
  failed : numbering.index = 0 →
    ∀ p ∈ pending, ∀ e, p.2 = .failed e ↔ request p.1 = .error e
  opening : numbering.index = 0 →
    ∀ p ∈ pending, ∀ q, request p.1 = .ok q →
      ∃ id, p.2 = .task id ∧ w'.scheduler.tasks[id]? = some (.live (.connect q))
        ∧ q.shard = p.1
  /-- The scheduler has one task more for each request, and nothing else is new about it. -/
  scheduler : numbering.index = 0 →
    w'.scheduler =
      w.scheduler.spawnAll ((pending.filterMap fun p => (request p.1).toOption).map .connect)
  /-- Each new task is behind one handle, in order. -/
  tasks : pending.filterMap (·.2.task?) =
    List.range' w.scheduler.tasks.size (w'.scheduler.tasks.size - w.scheduler.tasks.size)

/-- A handle has failed as the login of its shard has, or it stands for the task of its request. -/
theorem handle_of_batch {numbering : ShardAssignment} {request : RequestFor}
    {as : List ShardAssignment} {w w' : World} {p : ShardAssignment × Pending} (hapt : request.Apt)
    (hscheduler : w'.scheduler = w.scheduler.spawnAll
      ((LoginStart.requests (as.map (LoginStart.under numbering request))).map .connect))
    (hp : p ∈ LoginStart.handles w.scheduler.tasks.size
      (as.map (LoginStart.under numbering request))) :
    (∃ e, p.2 = .failed e ∧ (numbering.index = 0 → request p.1 = .error e)
        ∧ (numbering.index ≠ 0 → e = LoginBatch.pinned))
      ∨ ∃ id q, p.2 = .task id ∧ numbering.index = 0 ∧ request p.1 = .ok q
        ∧ w'.scheduler.tasks[id]? = some (.live (.connect q)) := by
  rcases LoginStart.mem_handles hp with ⟨e, he, hfailed⟩ | ⟨i, q, hq, hshard, htask, hi⟩
  · obtain ⟨a, -, ha⟩ := List.mem_map.mp he
    obtain ⟨heq, hrest⟩ := LoginStart.under_failed ha
    rw [← heq] at hrest
    exact .inl ⟨e, hfailed, hrest⟩
  · obtain ⟨a, -, ha⟩ := List.mem_map.mp hq
    obtain ⟨hindex, hok⟩ := LoginStart.under_opening ha
    obtain rfl : a = p.1 := (hapt a q hok).symm.trans hshard
    refine .inr ⟨_, q, htask, hindex, hok, ?_⟩
    rw [hscheduler]
    exact Scheduler.spawnAll_task (by rw [List.getElem?_map, hi]; rfl)

theorem accepted_of_validate {numbering : ShardAssignment} {request : RequestFor}
    {shards : List UInt32} {as : List ShardAssignment} {w : World} {announcement : Journal}
    (hapt : request.Apt) (has : Batch.validate numbering.total shards = .ok as) :
    Accepted numbering request shards w
      ((w.noteAll announcement).begun (as.map (LoginStart.under numbering request)))
      (LoginStart.handles w.scheduler.tasks.size
        (as.map (LoginStart.under numbering request))) := by
  obtain ⟨-, rfl, htotal⟩ := Batch.validate_eq_ok.mp has
  have hshards : (LoginStart.handles w.scheduler.tasks.size
      (as.map (LoginStart.under numbering request))).map (·.1) = as := by
    rw [LoginStart.handles_shards, List.map_map]
    exact List.map_id'' (LoginStart.under_shard hapt) as
  have hscheduler : ((w.noteAll announcement).begun
      (as.map (LoginStart.under numbering request))).scheduler = w.scheduler.spawnAll
        ((LoginStart.requests (as.map (LoginStart.under numbering request))).map .connect) := rfl
  have hcases := fun p => @handle_of_batch numbering request as w _ p hapt hscheduler
  have hrequests := @LoginStart.requests_under numbering request as
  generalize as.map (LoginStart.under numbering request) = starts at *
  constructor
  case indices =>
    rw [← hshards, List.map_map]
    rfl
  case totals =>
    intro p hp
    exact htotal p.1 (hshards ▸ List.mem_map_of_mem hp)
  case pinned =>
    intro hindex
    constructor
    · rw [hscheduler, hrequests, if_neg hindex]
      exact Scheduler.spawnAll_nil _
    · intro p hp
      rcases hcases p hp with ⟨e, hfailed, -, hpinned⟩ | ⟨id, q, -, hzero, -⟩
      · rw [hfailed, hpinned hindex, LoginBatch.pinned_eq_usage]
      · exact absurd hzero hindex
  case failed =>
    intro hindex p hp e
    rcases hcases p hp with ⟨e', hfailed, herror, -⟩ | ⟨id, q, htask, -, hok, -⟩
    · rw [hfailed, herror hindex]
      simp
    · rw [htask, hok]
      simp
  case opening =>
    intro hindex p hp q hq
    rcases hcases p hp with ⟨e, -, herror, -⟩ | ⟨id, q', htask, -, hok, hlive⟩
    · rw [herror hindex] at hq
      cases hq
    · rw [hok] at hq
      cases hq
      exact ⟨id, htask, hlive, hapt p.1 q hok⟩
  case scheduler =>
    intro hindex
    rw [hscheduler, hrequests, if_pos hindex, ← hshards, List.filterMap_map]
    rfl
  case tasks =>
    rw [LoginStart.handles_tasks, hscheduler]
    simp [Scheduler.spawnAll]

/-- What a call with a batch comes to: the world after it and the answer. -/
structure BatchOutcome (numbering : ShardAssignment) (request : RequestFor) (h : String)
    (shards : List UInt32) (w : World) (r : World × Answer) : Prop where
  empty : shards = [] → r = (w.store h (.logins []), .started [])
  refused_iff : shards ≠ [] →
    ((∃ cause, r.2 = .refused (.validation cause)) ↔
      ¬ shards.Nodup ∨ ∃ s ∈ shards, numbering.total ≤ s)
  refused : ∀ e, r.2 = .refused e → (∃ cause, e = .validation cause) ∧ r.1 = w
  accepted : shards ≠ [] → shards.Nodup → (∀ s ∈ shards, s < numbering.total) →
    (numbering.index = 0 → (∃ a q, request a = .ok q) → w.scheduler.running = true) →
      ∃ pending, r.2 = .started (r.1.finishedOf pending)
        ∧ r.1.handle? h = some (.logins pending) ∧ Accepted numbering request shards w r.1 pending
        -- Whatever happens afterwards, a task brings its own request to the gateway, once.
        ∧ ∀ ps w', r.1.History ps w' → ∀ p ∈ pending, ∀ id, p.2 = .task id →
          ∀ q, request p.1 = .ok q →
            receivedFrom id ps = [q] ∨ receivedFrom id ps = []
              ∧ (w'.scheduler.tasks[id]? = some (.live (.connect q))
                ∨ w'.scheduler.tasks[id]? = some (.ended .aborted))
  /-- A pinned client asks for no request. -/
  unasked : numbering.index ≠ 0 →
    ∀ b, LoginBatch.plan numbering request shards = .ok b → b.asked = []
  clients : w.SameClients r.1
  /-- After any number of its logins the clients are as they were. -/
  during : ∀ b, LoginBatch.plan numbering request shards = .ok b →
    ∀ n, w.SameClients ((w.noteAll b.announcement).startLogins (b.starts.take n)).1

theorem answerBatch_ne_refused (h : String) (b : LoginBatch) (w : World) (e : ClientError) :
    (w.answerBatch h b).2 ≠ .refused e := by
  unfold answerBatch
  split <;> exact nofun

section

variable {numbering : ShardAssignment} {request : RequestFor} {h : String} {shards : List UInt32}
  {w : World}

theorem callBatch_ok {b : LoginBatch} (hplan : LoginBatch.plan numbering request shards = .ok b) :
    w.callBatch numbering request h shards = w.answerBatch h b := by
  rw [callBatch, hplan]
  rfl

theorem callBatch_error {e : ShardError}
    (hplan : LoginBatch.plan numbering request shards = .error e) :
    w.callBatch numbering request h shards = (w, .refused (.validation e)) := by
  rw [callBatch, hplan]
  rfl

theorem callBatch_empty :
    w.callBatch numbering request h [] = (w.store h (.logins []), .started []) := by
  have hadmits : w.Admits [] := fun hne => absurd rfl hne
  rw [callBatch_ok (b := {}) rfl, answerBatch_eq hadmits, begun_nil]
  simp [noteAll, finishedOf]

/-- Whether a batch is refused depends on its validation only. -/
theorem callBatch_refused_iff (hshards : shards ≠ []) :
    (∃ cause, (w.callBatch numbering request h shards).2 = .refused (.validation cause)) ↔
      ¬ shards.Nodup ∨ ∃ s ∈ shards, numbering.total ≤ s := by
  have hsplit : (¬ shards.Nodup ∨ ∃ s ∈ shards, numbering.total ≤ s) ↔
      ¬ ∃ as, Batch.validate numbering.total shards = .ok as := by
    rw [Batch.exists_validate]
    simp only [not_and_or, not_forall, UInt32.not_lt, exists_prop]
  rw [hsplit]
  cases hvalid : Batch.validate numbering.total shards with
  | ok as =>
      rw [callBatch_ok (LoginBatch.plan_of_validate hshards hvalid)]
      constructor
      · rintro ⟨cause, hrefused⟩
        exact absurd hrefused (answerBatch_ne_refused h _ w _)
      · intro hnone
        exact absurd ⟨as, rfl⟩ hnone
  | error e =>
      rw [callBatch_error (LoginBatch.plan_of_refused hshards hvalid)]
      constructor
      · rintro - ⟨as, hok⟩
        cases hok
      · intro _
        exact ⟨e, rfl⟩

theorem callBatch_refused {e : ClientError}
    (hrefused : (w.callBatch numbering request h shards).2 = .refused e) :
    (∃ cause, e = .validation cause) ∧ (w.callBatch numbering request h shards).1 = w := by
  cases hplan : LoginBatch.plan numbering request shards with
  | ok b =>
      rw [callBatch_ok hplan] at hrefused
      exact absurd hrefused (answerBatch_ne_refused h _ w _)
  | error cause =>
      rw [callBatch_error hplan] at hrefused ⊢
      cases hrefused
      exact ⟨⟨cause, rfl⟩, rfl⟩

theorem callBatch_accepted (hapt : request.Apt) (hshards : shards ≠ []) (hnodup : shards.Nodup)
    (hlt : ∀ s ∈ shards, s < numbering.total)
    (hrunning : numbering.index = 0 → (∃ a q, request a = .ok q) → w.scheduler.running = true) :
    ∃ pending, (w.callBatch numbering request h shards).2 =
        .started ((w.callBatch numbering request h shards).1.finishedOf pending)
      ∧ (w.callBatch numbering request h shards).1.handle? h = some (.logins pending)
      ∧ Accepted numbering request shards w (w.callBatch numbering request h shards).1 pending := by
  obtain ⟨as, has⟩ := Batch.exists_validate.mpr ⟨hnodup, hlt⟩
  have hadmits : w.Admits (as.map (LoginStart.under numbering request)) := by
    intro hne
    obtain ⟨q, hq⟩ := List.exists_mem_of_ne_nil _ hne
    rw [LoginStart.requests_under] at hq
    split at hq
    · next hindex =>
      obtain ⟨a, -, ha⟩ := List.mem_filterMap.mp hq
      refine hrunning hindex ⟨a, q, ?_⟩
      cases hmade : request a with
      | error e => rw [hmade] at ha; cases ha
      | ok q' => rw [hmade] at ha; cases ha; rfl
    · cases hq
  have hplan := @LoginBatch.plan_of_validate numbering request shards as hshards has
  rw [callBatch_ok hplan, answerBatch_eq hadmits]
  have haccepted := @accepted_of_validate numbering request shards as w
    [LoginBatch.announce numbering.total shards] hapt has
  exact ⟨_, rfl, handle?_store .., { haccepted with }⟩

theorem Accepted.received {w' : World} {pending : List (ShardAssignment × Pending)}
    (haccepted : Accepted numbering request shards w w' pending) {ps : List Passage} {w'' : World}
    (hhistory : w'.History ps w'') {p : ShardAssignment × Pending} (hp : p ∈ pending) {id : TaskId}
    (htask : p.2 = .task id) {q : ConnectionRequest} (hq : request p.1 = .ok q) :
    receivedFrom id ps = [q] ∨ receivedFrom id ps = []
      ∧ (w''.scheduler.tasks[id]? = some (.live (.connect q))
        ∨ w''.scheduler.tasks[id]? = some (.ended .aborted)) := by
  have hindex : numbering.index = 0 := Decidable.byContradiction fun hne => by
    rw [(haccepted.pinned hne).2 p hp] at htask
    cases htask
  obtain ⟨id', htask', hlive, -⟩ := haccepted.opening hindex p hp q hq
  rw [htask] at htask'
  cases htask'
  exact (hhistory.connecting hlive).received

theorem callBatch_during {b : LoginBatch} (w : World) (n : Nat) :
    w.SameClients ((w.noteAll b.announcement).startLogins (b.starts.take n)).1 := by
  have hnoted : w.SameClients (w.noteAll b.announcement) := ⟨rfl, rfl⟩
  exact hnoted.trans (sameClients_frame.startLogins _ _)

theorem callBatch_unasked (hindex : numbering.index ≠ 0) {b : LoginBatch}
    (hplan : LoginBatch.plan numbering request shards = .ok b) : b.asked = [] := by
  unfold LoginBatch.plan at hplan
  split at hplan
  · cases hplan
    rfl
  · cases hvalid : Batch.validate numbering.total shards with
    | error e => rw [hvalid] at hplan; cases hplan
    | ok as =>
        rw [hvalid] at hplan
        cases hplan
        rfl

theorem callBatch_outcome (hapt : request.Apt) :
    BatchOutcome numbering request h shards w (w.callBatch numbering request h shards) where
  empty := by
    rintro rfl
    exact callBatch_empty
  refused_iff := callBatch_refused_iff
  refused := fun _ hrefused => callBatch_refused hrefused
  accepted := by
    intro hshards hnodup hlt hrunning
    obtain ⟨pending, hanswer, hhandle, haccepted⟩ :=
      callBatch_accepted (h := h) hapt hshards hnodup hlt hrunning
    exact ⟨pending, hanswer, hhandle, haccepted,
      fun _ _ hhistory _ hp _ htask _ hq => haccepted.received hhistory hp htask hq⟩
  unasked := fun hindex _ hplan => callBatch_unasked hindex hplan
  clients := sameClients_frame.startClientBatch h _ w
  during := fun _ _ n => callBatch_during w n

end

/-- **Batches are refused whole or each login is on its own.** An empty batch does nothing. Any
other is refused exactly if it repeats an index or names one that the total does not have, and then
the world is as it was; otherwise each index gets its handle, in order. Of a pinned client all have
failed, nothing is asked for and nothing is started. Of any other client a handle has failed exactly
if its request could not be made, and each request that was made is brought to the gateway by a task
of its own. The numbers of the client stay what they are all the time. The same holds for callers
with requests of their own, some of which may fail. -/
theorem loginShards_refuses_or_starts (w : World) (h : String) (shards : List UInt32) :
    BatchOutcome w.client.numbering w.client.request h shards w (w.perform (.loginShards h shards))
      ∧ ∀ (numbering : ShardAssignment) (request : RequestFor), request.Apt →
        BatchOutcome numbering request h shards w (w.callBatch numbering request h shards) := by
  refine ⟨?_, fun numbering request hapt => callBatch_outcome hapt⟩
  rw [perform_loginShards]
  exact callBatch_outcome w.client.request_apt

/-- A caller that cannot make the request of the second shard. -/
def pickyRequest : RequestFor := fun a =>
  if a.index = 1 then .error (.internal "no factory")
  else Client.request { credential := some ⟨"tok"⟩ } a

/-- The second shard fails alone, and the last one gets its connection. Pinned to the third shard
the same caller gets two handles that failed for its usage, and no task. -/
theorem loginShards_refuses_or_starts_picky :
    pickyRequest.Apt
      ∧ (∃ pending : List (ShardAssignment × Pending),
        (callBatch ⟨0, 4, by decide⟩ pickyRequest "h" [3, 1] {}).1.handle? "h" =
            some (.logins pending)
          ∧ pending.map (·.1.index) = [3, 1]
          ∧ ∀ p ∈ pending, p.1.index = 1 → p.2 = .failed (.internal "no factory"))
      ∧ ∃ pending : List (ShardAssignment × Pending),
        (callBatch ⟨2, 4, by decide⟩ pickyRequest "h" [3, 1] {}).1.handle? "h" =
            some (.logins pending)
          ∧ (callBatch ⟨2, 4, by decide⟩ pickyRequest "h" [3, 1] {}).1.scheduler.tasks = #[]
          ∧ pending.map (·.1.index) = [3, 1]
          ∧ ∀ p ∈ pending,
            p.2 = .failed (.usage "batch login is not allowed after pinning the current shard") := by
  have hapt : pickyRequest.Apt := by
    intro a q hq
    unfold pickyRequest at hq
    split at hq
    · cases hq
    · exact Client.request_apt _ a q hq
  obtain ⟨pending, -, hhandle, haccepted, -⟩ :=
    ((loginShards_refuses_or_starts {} "h" [3, 1]).2 ⟨0, 4, by decide⟩ pickyRequest hapt).accepted
      nofun (by decide) (by simp) fun _ _ => rfl
  obtain ⟨pending', -, hhandle', haccepted', -⟩ :=
    ((loginShards_refuses_or_starts {} "h" [3, 1]).2 ⟨2, 4, by decide⟩ pickyRequest hapt).accepted
      nofun (by decide) (by simp) fun _ _ => rfl
  obtain ⟨hscheduler, hpinned⟩ := haccepted'.pinned (by decide)
  refine ⟨hapt, ⟨pending, hhandle, haccepted.indices, fun p hp hindex => ?_⟩,
    pending', hhandle', by rw [hscheduler], haccepted'.indices, hpinned⟩
  exact (haccepted.failed rfl p hp _).mpr (if_pos hindex)

end World

end GatewayClient
