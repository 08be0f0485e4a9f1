import Mathlib.Data.List.Perm.Subperm
import GatewayClient.Proofs.Login.Batch

/-!
# Batches of all shards

The announcement of a batch says whether it starts all shards of the total or some of them, and all
it looks at is how many indices the batch has. For a batch that is accepted this decides it: its
indices are apart and each is one of the total, so there are no more of them than shards, and as
many only if no shard is left out (`length_eq_total`). A call logs the announcement once, before the
shards that start (`answerBatch_logs`), and the two kinds of announcement never read the same
(`announceSome_ne_announceAll`).
-/

namespace GatewayClient

namespace Batch

/-- All shards of a total, in increasing order. -/
def below (total : UInt32) : List UInt32 := (List.range total.toNat).map Nat.toUInt32

/-- Every shard of the total is in the batch. -/
def Covers (total : UInt32) (shards : List UInt32) : Prop := ∀ i < total, i ∈ shards

variable {total : UInt32} {shards : List UInt32}

theorem length_below : (below total).length = total.toNat := by
  rw [below, List.length_map, List.length_range]

/-- No number below the total wraps around. -/
theorem toNat_toUInt32_of_lt {n : Nat} (hn : n < total.toNat) : n.toUInt32.toNat = n :=
  UInt32.toNat_ofNat_of_lt' (Nat.lt_trans hn total.toNat_lt)

theorem mem_below {i : UInt32} : i ∈ below total ↔ i < total := by
  rw [below, List.mem_map]
  constructor
  · rintro ⟨n, hn, rfl⟩
    have hlt := List.mem_range.mp hn
    rw [UInt32.lt_iff_toNat_lt, toNat_toUInt32_of_lt hlt]
    exact hlt
  · intro hi
    exact ⟨i.toNat, List.mem_range.mpr (UInt32.lt_iff_toNat_lt.mp hi), UInt32.ofNat_toNat⟩

theorem below_increasing : (below total).Pairwise (· < ·) := by
  rw [below, List.pairwise_map]
  refine List.Pairwise.imp_of_mem (fun hm hn hlt => ?_) List.pairwise_lt_range
  rw [UInt32.lt_iff_toNat_lt, toNat_toUInt32_of_lt (List.mem_range.mp hm),
    toNat_toUInt32_of_lt (List.mem_range.mp hn)]
  exact hlt

theorem nodup_of_increasing (h : shards.Pairwise (· < ·)) : shards.Nodup :=
  h.imp fun hlt => UInt32.ne_of_lt hlt

theorem subperm_below (hnodup : shards.Nodup) (hlt : ∀ s ∈ shards, s < total) :
    shards.Subperm (below total) :=
  hnodup.subperm fun s hs => mem_below.mpr (hlt s hs)

theorem length_le_total (hnodup : shards.Nodup) (hlt : ∀ s ∈ shards, s < total) :
    shards.length ≤ total.toNat := by
  rw [← length_below]
  exact (subperm_below hnodup hlt).length_le

/-- Indices that are apart and below the total are as many as the total exactly if none of them is
left out. -/
theorem length_eq_total (hnodup : shards.Nodup) (hlt : ∀ s ∈ shards, s < total) :
    shards.length = total.toNat ↔ Covers total shards := by
  rw [← length_below]
  constructor
  · intro hlength i hi
    have hperm := (subperm_below hnodup hlt).perm_of_length_le (Nat.le_of_eq hlength.symm)
    exact hperm.mem_iff.mpr (mem_below.mpr hi)
  · intro hcovers
    have hsub : (below total).Subperm shards :=
      (nodup_of_increasing below_increasing).subperm fun i hi => hcovers i (mem_below.mp hi)
    exact Nat.le_antisymm (subperm_below hnodup hlt).length_le hsub.length_le

end Batch

/-! ## The two announcements -/

namespace LoginBatch

variable {total : UInt32} {shards : List UInt32}

/-- The record that all shards of a total are started. -/
def announceAll (total : UInt32) : LogRecord :=
  { level := .info
    message := "creating " ++ toString total.toNat ++ " " ++
      (if total = 1 then "shard" else "shards") }

/-- The record that some shards out of a total are started. -/
def announceSome (total : UInt32) (shards : List UInt32) : LogRecord :=
  { level := .info
    message := "creating " ++ toString shards.length ++ " out of " ++ toString total.toNat ++
      " shards (" ++ Text.inspectList (shards.map fun s => toString s.toNat) ++ ")" }

theorem announce_eq :
    announce total shards =
      if shards.length = total.toNat then announceAll total else announceSome total shards := by
  unfold announce
  split <;> rfl

theorem getLast?_announceSome :
    (announceSome total shards).message.toList.getLast? = some ')' := by
  simp only [announceSome, String.toList_append, List.getLast?_append]
  rfl

theorem getLast?_announceAll :
    (announceAll total).message.toList.getLast? = some (if total = 1 then 'd' else 's') := by
  simp only [announceAll, String.toList_append, List.getLast?_append]
  split <;> rfl

/-- One ends with a bracket and the other with a word. -/
theorem announceSome_ne_announceAll {total' : UInt32} :
    announceSome total shards ≠ announceAll total' := by
  intro heq
  have hlast := @getLast?_announceSome total shards
  rw [heq, getLast?_announceAll] at hlast
  split at hlast <;> simp at hlast

theorem announce_eq_announceAll :
    announce total shards = announceAll total ↔ shards.length = total.toNat := by
  rw [announce_eq]
  split
  · next hall => simp [hall]
  · next hsome => simp [hsome, announceSome_ne_announceAll]

theorem announce_eq_announceSome :
    announce total shards = announceSome total shards ↔ shards.length ≠ total.toNat := by
  rw [announce_eq]
  split
  · next hall => simp [hall, announceSome_ne_announceAll.symm]
  · next hsome => simp [hsome]

end LoginBatch

/-! ## What a call logs -/

namespace World

/-- Nothing was logged but the shards that start. -/
def LogsStarts (w w' : World) : Prop :=
  ∃ notes, w'.hub.journal = w.hub.journal ++ notes ∧ ∀ n ∈ notes, ∃ a, n = LoginStart.creating a

theorem LogsStarts.of_eq {w w' : World} (h : w'.hub = w.hub) : w.LogsStarts w' :=
  ⟨[], by rw [h, List.append_nil], nofun⟩

theorem LogsStarts.trans {w w' w'' : World} (h : w.LogsStarts w') (h' : w'.LogsStarts w'') :
    w.LogsStarts w'' := by
  obtain ⟨notes, hnotes, hstarts⟩ := h
  obtain ⟨notes', hnotes', hstarts'⟩ := h'
  refine ⟨notes ++ notes', by rw [hnotes', hnotes, List.append_assoc], fun n hn => ?_⟩
  exact (List.mem_append.mp hn).elim (hstarts n) (hstarts' n)

theorem spawn_hub {work : Work} {w w' : World} {id : TaskId}
    (hspawn : w.spawn work = .ok (id, w')) : w'.hub = w.hub := by
  unfold spawn Scheduler.spawn at hspawn
  dsimp only at hspawn
  split at hspawn <;> cases hspawn
  rfl

/-- The shard is logged even if its task cannot be started. -/
theorem startLogin_logs (s : LoginStart) (w : World) : w.LogsStarts (w.startLogin s).1 := by
  cases s with
  | failed shard e => exact ⟨[], rfl, nofun⟩
  | opening request =>
      have hnoted : w.LogsStarts (w.noteAll [LoginStart.creating request.shard]) :=
        ⟨_, rfl, fun n hn => ⟨request.shard, List.mem_singleton.mp hn⟩⟩
      unfold startLogin
      dsimp only [LoginStart.notes]
      split
      · exact hnoted
      · next hspawn => exact hnoted.trans (.of_eq (spawn_hub hspawn))

theorem startLogins_logs (starts : List LoginStart) (w : World) :
    w.LogsStarts (w.startLogins starts).1 := by
  induction starts generalizing w with
  | nil => exact .of_eq rfl
  | cons s rest ih =>
      have hfirst := startLogin_logs s w
      unfold startLogins
      split
      · next w₁ f hbroke =>
        rw [hbroke] at hfirst
        exact hfirst
      · next w₁ p hstarted =>
        rw [hstarted] at hfirst
        exact hfirst.trans (ih w₁)

/-- A batch is announced before its shards start, whether or not the call breaks off. -/
theorem answerBatch_logs (h : String) (b : LoginBatch) (w : World) :
    (w.noteAll b.announcement).LogsStarts (w.answerBatch h b).1 := by
  have hstarts := startLogins_logs b.starts (w.noteAll b.announcement)
  unfold answerBatch startBatch
  rcases hstarted : (w.noteAll b.announcement).startLogins b.starts with ⟨w', f | pending⟩
  · rw [hstarted] at hstarts
    exact hstarts
  · rw [hstarted] at hstarts
    exact hstarts.trans (.of_eq rfl)

/-- A call logged one announcement, and after it the shards that start. The announcement is of all
shards exactly if the batch has them all, and else it is of some. -/
def Announces (total : UInt32) (shards : List UInt32) (w w' : World) : Prop :=
  ∃ record notes, w'.hub.journal = w.hub.journal ++ record :: notes
    ∧ (record = LoginBatch.announceAll total ↔ Batch.Covers total shards)
    ∧ (record = LoginBatch.announceSome total shards ↔ ¬ Batch.Covers total shards)
    ∧ ∀ n ∈ notes, ∃ a, n = LoginStart.creating a

theorem announces_of_accepted {numbering : ShardAssignment} {request : RequestFor} {h : String}
    {shards : List UInt32} {w : World} (hshards : shards ≠ []) (hnodup : shards.Nodup)
    (hlt : ∀ s ∈ shards, s < numbering.total) :
    w.Announces numbering.total shards (w.callBatch numbering request h shards).1 := by
  obtain ⟨as, has⟩ := Batch.exists_validate.mpr ⟨hnodup, hlt⟩
  rw [callBatch_ok (LoginBatch.plan_of_validate hshards has)]
  obtain ⟨notes, hnotes, hstarts⟩ := answerBatch_logs h
    { asked := if numbering.index = 0 then as else []
      starts := as.map (LoginStart.under numbering request)
      announcement := [LoginBatch.announce numbering.total shards] } w
  refine ⟨LoginBatch.announce numbering.total shards, notes, ?_, ?_, ?_, hstarts⟩
  · rw [hnotes, noteAll, List.append_assoc, List.singleton_append]
  · rw [← Batch.length_eq_total hnodup hlt]
    exact LoginBatch.announce_eq_announceAll
  · rw [← Batch.length_eq_total hnodup hlt]
    exact LoginBatch.announce_eq_announceSome

/-- **A batch is announced as all shards exactly if it has them all.** For a batch that the
validation accepts, in whatever order, the number of its assignments is at most the total, and it is
the total exactly if no shard is left out. So the call of a client announces all shards in this case
and some of them in any other, and nothing but the shards that start is logged after it. The same
holds for callers with numbers and requests of their own. -/
theorem loginShards_announces_coverage {total : UInt32} {shards : List UInt32}
    {as : List ShardAssignment} (hshards : shards ≠ [])
    (has : Batch.validate total shards = .ok as) :
    as.length ≤ total.toNat
      ∧ (as.length = total.toNat ↔ Batch.Covers total shards)
      ∧ (∀ (w : World) (h : String), w.client.numbering.total = total →
        w.Announces total shards (w.perform (.loginShards h shards)).1)
      ∧ ∀ (w : World) (h : String) (numbering : ShardAssignment) (request : RequestFor),
        numbering.total = total →
          w.Announces total shards (w.callBatch numbering request h shards).1 := by
  obtain ⟨hnodup, hlt⟩ := Batch.exists_validate.mp ⟨as, has⟩
  have hlength : as.length = shards.length := by
    rw [← (Batch.validate_eq_ok.mp has).2.1, List.length_map]
  have hcalls : ∀ (w : World) (h : String) (numbering : ShardAssignment) (request : RequestFor),
      numbering.total = total →
        w.Announces total shards (w.callBatch numbering request h shards).1 := by
    rintro w h numbering request rfl
    exact announces_of_accepted hshards hnodup hlt
  rw [hlength]
  refine ⟨Batch.length_le_total hnodup hlt, Batch.length_eq_total hnodup hlt, ?_, hcalls⟩
  intro w h htotal
  rw [perform_loginShards]
  exact hcalls w h w.client.numbering w.client.request htotal

/-- All three shards, the last one first, of a client that is pinned: none of them starts, and yet
all are announced. -/
theorem loginShards_announces_coverage_pinned :
    ∃ record notes, (World.perform { clients := #[{ numbering := ⟨1, 3, by decide⟩ }] }
        (.loginShards "h" [2, 0, 1])).1.hub.journal = record :: notes
      ∧ record.message = "creating 3 shards" := by
  let w : World := { clients := #[{ numbering := ⟨1, 3, by decide⟩ }] }
  have has : Batch.validate 3 [2, 0, 1] =
      .ok [⟨2, 3, by decide⟩, ⟨0, 3, by decide⟩, ⟨1, 3, by decide⟩] := rfl
  obtain ⟨-, hlength, hclient, -⟩ := loginShards_announces_coverage (List.cons_ne_nil 2 [0, 1]) has
  obtain ⟨record, notes, hjournal, hall, -⟩ := hclient w "h" rfl
  refine ⟨record, notes, hjournal, ?_⟩
  rw [hall.mpr (hlength.mp rfl)]
  rfl

end World

end GatewayClient
