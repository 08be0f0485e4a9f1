import GatewayClient.Proofs.Login.Coverage

/-!
# Logins of the shards that a condition accepts

The client that logs in by a condition lists the shards itself, and its list then goes through the
validation of any other batch. It always passes: the list is increasing, so nothing repeats, and it
is cut out of the shards below the total of the same client (`selects_filter`). There is one such
list only (`Selects.unique`), so the call is the one for this list, and the call for all shards is
the one for the whole row.
-/

namespace GatewayClient

namespace Batch

/-- The shards of a total that a condition accepts, in increasing order and hence each once. -/
structure Selects (total : UInt32) (wanted : UInt32 → Bool) (shards : List UInt32) : Prop where
  increasing : shards.Pairwise (· < ·)
  mem_iff : ∀ i, i ∈ shards ↔ i < total ∧ wanted i = true

variable {total : UInt32} {wanted : UInt32 → Bool} {shards shards' : List UInt32}

theorem selects_filter (total : UInt32) (wanted : UInt32 → Bool) :
    Selects total wanted ((below total).filter wanted) where
  increasing := below_increasing.filter wanted
  mem_iff i := by rw [List.mem_filter, mem_below]

theorem Selects.nodup (h : Selects total wanted shards) : shards.Nodup :=
  nodup_of_increasing h.increasing

theorem Selects.lt (h : Selects total wanted shards) : ∀ s ∈ shards, s < total :=
  fun s hs => ((h.mem_iff s).mp hs).1

theorem Selects.unique (h : Selects total wanted shards) (h' : Selects total wanted shards') :
    shards = shards' := by
  have hperm : shards.Perm shards' :=
    (List.perm_ext_iff_of_nodup h.nodup h'.nodup).mpr fun i =>
      (h.mem_iff i).trans (h'.mem_iff i).symm
  exact hperm.eq_of_pairwise (fun _ _ _ _ hab hba => absurd hba (UInt32.lt_asymm hab))
    h.increasing h'.increasing

end Batch

/-- Shards that are apart and below the total are accepted, and each gets its login. -/
theorem LoginBatch.exists_plan {numbering : ShardAssignment} {request : RequestFor}
    {shards : List UInt32} (hnodup : shards.Nodup) (hlt : ∀ s ∈ shards, s < numbering.total) :
    ∃ (as : List ShardAssignment) (b : LoginBatch), as.map (·.index) = shards
      ∧ (∀ a ∈ as, a.total = numbering.total) ∧ plan numbering request shards = .ok b
      ∧ b.starts = as.map (LoginStart.under numbering request) := by
  obtain ⟨as, has⟩ := Batch.exists_validate.mpr ⟨hnodup, hlt⟩
  obtain ⟨-, hindices, htotals⟩ := Batch.validate_eq_ok.mp has
  by_cases hempty : shards = []
  · subst hempty
    obtain rfl := List.map_eq_nil_iff.mp hindices
    exact ⟨[], {}, rfl, htotals, rfl, rfl⟩
  · exact ⟨as, _, hindices, htotals, plan_of_validate hempty has, rfl⟩

theorem Client.loginMatching_eq {c : Client} {wanted : UInt32 → Bool} {shards : List UInt32}
    (hselects : Batch.Selects c.numbering.total wanted shards) :
    c.loginMatching wanted = c.loginShards shards := by
  rw [hselects.unique (Batch.selects_filter c.numbering.total wanted)]
  rfl

namespace World

open Batch (Selects)

/-- What comes of a call for the shards that a condition accepts. -/
structure MatchingOutcome (h : String) (wanted : UInt32 → Bool) (w : World) (r : World × Answer) :
    Prop where
  /-- The client accepts the batch, and its logins are those of the shards. -/
  planned : ∃ b, w.client.loginMatching wanted = .ok b
    ∧ Selects w.client.numbering.total wanted (b.starts.map (·.shard.index))
    ∧ ∀ s ∈ b.starts, s.shard.total = w.client.numbering.total
  unrefused : ∀ e, r.2 ≠ .refused e
  /-- The call comes to its end if the clock runs or no connection is to be started. -/
  handles : (w.client.numbering.index = 0 → w.client.credential ≠ none →
      (∃ i < w.client.numbering.total, wanted i = true) → w.scheduler.running = true) →
    ∃ pending, r.2 = .started (r.1.finishedOf pending)
      ∧ r.1.handle? h = some (.logins pending)
      ∧ Selects w.client.numbering.total wanted (pending.map (·.1.index))
      ∧ ∀ p ∈ pending, p.1.total = w.client.numbering.total

variable {w : World} {h : String} {wanted : UInt32 → Bool} {shards : List UInt32}

theorem perform_loginMatching (hselects : Selects w.client.numbering.total wanted shards) :
    w.perform (.loginMatching h wanted) = w.perform (.loginShards h shards) :=
  congrArg (w.startClientBatch h) (Client.loginMatching_eq hselects)

theorem loginMatching_planned (hselects : Selects w.client.numbering.total wanted shards) :
    ∃ b, w.client.loginMatching wanted = .ok b ∧ b.starts.map (·.shard.index) = shards
      ∧ ∀ s ∈ b.starts, s.shard.total = w.client.numbering.total := by
  obtain ⟨as, b, hindices, htotals, hplan, hstarts⟩ :=
    @LoginBatch.exists_plan _ w.client.request _ hselects.nodup hselects.lt
  have hshard := @LoginStart.under_shard w.client.numbering _ w.client.request_apt
  refine ⟨b, ?_, ?_, ?_⟩
  · rw [Client.loginMatching_eq hselects, Client.loginShards, hplan]
  · rw [hstarts, List.map_map, ← hindices]
    exact List.map_congr_left fun a _ => congrArg (·.index) (hshard a)
  · rw [hstarts]
    intro s hs
    obtain ⟨a, ha, rfl⟩ := List.mem_map.mp hs
    rw [hshard a]
    exact htotals a ha

/-- The handles of a call that comes to its end, one for each shard of the list. -/
theorem loginMatching_handles (hselects : Selects w.client.numbering.total wanted shards)
    (hrunning : w.client.numbering.index = 0 → w.client.credential ≠ none →
      (∃ i < w.client.numbering.total, wanted i = true) → w.scheduler.running = true) :
    ∃ pending, (w.perform (.loginShards h shards)).2 =
        .started ((w.perform (.loginShards h shards)).1.finishedOf pending)
      ∧ (w.perform (.loginShards h shards)).1.handle? h = some (.logins pending)
      ∧ pending.map (·.1.index) = shards
      ∧ ∀ p ∈ pending, p.1.total = w.client.numbering.total := by
  rw [perform_loginShards]
  by_cases hempty : shards = []
  · subst hempty
    rw [callBatch_empty]
    exact ⟨[], rfl, handle?_store .., rfl, nofun⟩
  · have hmade : w.client.numbering.index = 0 →
        (∃ a q, w.client.request a = .ok q) → w.scheduler.running = true := by
      rintro hindex ⟨a, q, hq⟩
      obtain ⟨i, hi⟩ := List.exists_mem_of_ne_nil shards hempty
      refine hrunning hindex (fun hnone => ?_) ⟨i, (hselects.mem_iff i).mp hi⟩
      rw [Client.request, hnone] at hq
      cases hq
    obtain ⟨pending, hanswer, hhandle, haccepted⟩ :=
      callBatch_accepted (h := h) w.client.request_apt hempty hselects.nodup hselects.lt hmade
    exact ⟨pending, hanswer, hhandle, haccepted.indices, haccepted.totals⟩

theorem loginMatching_outcome (w : World) (h : String) (wanted : UInt32 → Bool) :
    MatchingOutcome h wanted w (w.perform (.loginMatching h wanted)) := by
  have hselects := Batch.selects_filter w.client.numbering.total wanted
  obtain ⟨b, hb, hindices, htotals⟩ := loginMatching_planned hselects
  constructor
  case planned => exact ⟨b, hb, hindices ▸ hselects, htotals⟩
  case unrefused =>
    intro e
    change (w.startClientBatch h (w.client.loginMatching wanted)).2 ≠ .refused e
    rw [hb]
    exact answerBatch_ne_refused h b w e
  case handles =>
    intro hrunning
    rw [perform_loginMatching hselects]
    obtain ⟨pending, hanswer, hhandle, hindices, htotals⟩ :=
      loginMatching_handles (h := h) hselects hrunning
    exact ⟨pending, hanswer, hhandle, hindices ▸ hselects, htotals⟩

/-- **Logins by a condition are never refused.** Whatever the state of the client and whatever a
condition accepts, the client accepts the batch; each shard below the total that the condition
accepts has one login and one handle, no other has, and they stand in increasing order, each with
the total of the client. The call is the one for the increasing list of these shards, and a call for
all shards is the one with a condition that always holds, in all that it does, answers and logs. -/
theorem loginMatching_starts_wanted (w : World) (h : String) :
    (∀ wanted, MatchingOutcome h wanted w (w.perform (.loginMatching h wanted)))
      ∧ (∀ wanted shards, Selects w.client.numbering.total wanted shards →
        w.perform (.loginMatching h wanted) = w.perform (.loginShards h shards))
      ∧ w.perform (.loginAll h) = w.perform (.loginMatching h fun _ => true)
      ∧ w.perform (.loginAll h) =
        w.perform (.loginShards h (Batch.below w.client.numbering.total)) := by
  have hall : Selects w.client.numbering.total (fun _ => true)
      (Batch.below w.client.numbering.total) :=
    ⟨Batch.below_increasing, fun i => by rw [Batch.mem_below, and_iff_left rfl]⟩
  refine ⟨loginMatching_outcome w h, fun _ _ => perform_loginMatching, rfl, ?_⟩
  exact perform_loginMatching hall

/-- The even shards of four. -/
theorem loginMatching_starts_wanted_even :
    ∃ (w : World) (pending : List (ShardAssignment × Pending)),
      w.client.numbering.total = 4 ∧ w.client.credential = some ⟨"tok"⟩
      ∧ (w.perform (.loginMatching "h" fun i => i % 2 = 0)).1.handle? "h" = some (.logins pending)
      ∧ pending.map (·.1.index) = [0, 2] := by
  let w : World := { clients := #[{ credential := some ⟨"tok"⟩, numbering := ⟨0, 4, by decide⟩ }] }
  obtain ⟨pending, -, hhandle, hselects, -⟩ :=
    ((loginMatching_starts_wanted w "h").1 fun i => i % 2 = 0).handles fun _ _ _ => rfl
  refine ⟨w, pending, rfl, rfl, hhandle, ?_⟩
  exact hselects.unique (Batch.selects_filter 4 fun i => i % 2 = 0)

end World

end GatewayClient
