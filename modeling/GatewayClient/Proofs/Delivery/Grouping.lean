import GatewayClient.Proofs.Delivery.Registration

/-!
# The snapshot groups registrations by category

In which order the buckets of a registry stand is nobody's business: between two calls they may
stand in any order (`ListenerRegistry.ComesOf`). What a registry answers depends on the
registrations alone. Its snapshot is their stable sort by category, which is told by what it keeps
(`StablySorted`) and not by how it is made; there is only one row that keeps it
(`StablySorted.eq_byCategory`).

The invariant is `Holds`. Rearranging keeps it because each category has one bucket, so looking one
up finds the same wherever it stands (`listenersFor_perm`).
-/

namespace GatewayClient

/-- A row sorted stably by category: the same registrations, the categories in order, and those of
a category as they were. -/
structure StablySorted (regs sorted : List Registration) : Prop where
  perm : sorted.Perm regs
  ordered : sorted.Pairwise fun r r' => r.1.rank ≤ r'.1.rank
  stable : ∀ c, sorted.filter (·.1 = c) = regs.filter (·.1 = c)

theorem StablySorted.eq_byCategory {regs sorted : List Registration}
    (hsorted : StablySorted regs sorted) : sorted = byCategory regs := by
  rw [← byCategory_of_sorted hsorted.ordered]
  simp only [byCategory, hsorted.stable]

theorem stablySorted_byCategory (regs : List Registration) :
    StablySorted regs (byCategory regs) := by
  rw [← mergeSort_eq_byCategory]
  refine ⟨List.mergeSort_perm regs byRank, ?_, fun c => filter_mergeSort regs c⟩
  exact (List.pairwise_mergeSort byRank_trans byRank_total regs).imp fun h => of_decide_eq_true h

namespace ListenerRegistry

/-- A registry that comes of registrations, made in this order. The buckets may be rearranged at
any time. -/
inductive ComesOf : List Registration → ListenerRegistry → Prop
  | empty : ComesOf [] {}
  | registered {regs : List Registration} {r : ListenerRegistry} (category : ListenerCategory)
      (listener : Sink) : ComesOf regs r →
      ComesOf (regs ++ [(category, listener)]) (r.register category listener).1
  | rearranged {regs : List Registration} {r r' : ListenerRegistry} : ComesOf regs r →
      r'.buckets.Perm r.buckets → ComesOf regs r'

/-! ## The order of the buckets -/

section

variable {buckets buckets' : List (ListenerCategory × List Sink)} {c : ListenerCategory}

theorem listenersFor_of_notMem (hc : c ∉ buckets.map (·.1)) : listenersFor ⟨buckets⟩ c = [] := by
  have hnone : buckets.find? (·.1 = c) = none := by
    rw [List.find?_eq_none]
    intro b hb heq
    exact hc (List.mem_map.mpr ⟨b, hb, of_decide_eq_true heq⟩)
  simp only [listenersFor, hnone]

/-- The bucket of a category, wherever it stands. -/
theorem listenersFor_of_mem (hnodup : (buckets.map (·.1)).Nodup) {bucket : List Sink}
    (hmem : (c, bucket) ∈ buckets) : listenersFor ⟨buckets⟩ c = bucket := by
  induction buckets with
  | nil => cases hmem
  | cons b rest ih =>
      rw [List.map_cons, List.nodup_cons] at hnodup
      rcases List.mem_cons.mp hmem with rfl | hrest
      · simp [listenersFor]
      · have hne : b.1 ≠ c := by
          rintro rfl
          exact hnodup.1 (List.mem_map.mpr ⟨_, hrest, rfl⟩)
        rw [← ih hnodup.2 hrest]
        simp [listenersFor, hne]

theorem listenersFor_perm (hnodup : (buckets.map (·.1)).Nodup) (hperm : buckets'.Perm buckets) :
    listenersFor ⟨buckets'⟩ c = listenersFor ⟨buckets⟩ c := by
  have hkeys := hperm.map (·.1)
  by_cases hc : c ∈ buckets.map (·.1)
  · obtain ⟨⟨c, bucket⟩, hmem, rfl⟩ := List.mem_map.mp hc
    rw [listenersFor_of_mem hnodup hmem,
      listenersFor_of_mem (hkeys.nodup_iff.mpr hnodup) (hperm.mem_iff.mpr hmem)]
  · rw [listenersFor_of_notMem hc, listenersFor_of_notMem (mt hkeys.mem_iff.mp hc)]

end

theorem Holds.rearranged {r r' : ListenerRegistry} {regs : List Registration}
    (hholds : r.Holds regs) (hperm : r'.buckets.Perm r.buckets) : r'.Holds regs where
  apart := (hperm.map (·.1)).nodup_iff.mpr hholds.apart
  bucket c := (listenersFor_perm hholds.apart hperm).trans (hholds.bucket c)

theorem ComesOf.holds {regs : List Registration} {r : ListenerRegistry} (hcomes : ComesOf regs r) :
    r.Holds regs := by
  induction hcomes with
  | empty => exact holds_empty
  | registered category listener _ ih => exact ih.register category listener
  | rearranged _ hperm ih => exact ih.rearranged hperm

/-! ## What a registry answers -/

/-- A registry counts what its snapshot lists. -/
theorem length_snapshot (r : ListenerRegistry) : r.snapshot.length = r.count := by
  rw [snapshot, (List.mergeSort_perm _ _).length_eq, count]
  simp [List.length_flatMap]

theorem Holds.count {r : ListenerRegistry} {regs : List Registration} (hholds : r.Holds regs) :
    r.count = regs.length := by
  rw [← length_snapshot, hholds.snapshot]
  exact (stablySorted_byCategory regs).perm.length_eq

/-- **The snapshot is a stable grouping.** Whatever registrations were made and however the buckets
stood in between, the snapshot is the one stable sort of the registrations by category; what it has
of a category are the listeners of that category, which are its registrations in the order of the
calls; and the count is that of the registrations. -/
theorem snapshot_groups {regs : List Registration} {r : ListenerRegistry}
    (hcomes : ComesOf regs r) :
    (∀ sorted, StablySorted regs sorted ↔ sorted = r.snapshot)
      ∧ (∀ c, registeredFor c r.snapshot = r.listenersFor c
        ∧ r.listenersFor c = registeredFor c regs)
      ∧ r.count = regs.length
      ∧ (r.isEmpty = true ↔ regs = []) := by
  have hholds := hcomes.holds
  have hsnapshot := hholds.snapshot
  refine ⟨fun sorted => ⟨fun hsorted => ?_, ?_⟩, fun c => ⟨?_, hholds.bucket c⟩, hholds.count, ?_⟩
  · rw [hsnapshot, hsorted.eq_byCategory]
  · rintro rfl
    rw [hsnapshot]
    exact stablySorted_byCategory regs
  · rw [hsnapshot, registeredFor_byCategory, hholds.bucket]
  · rw [isEmpty, hholds.count, beq_iff_eq, List.length_eq_zero_iff]

/-- Three listeners, of which the second has the earlier category; the buckets were turned around
before the third came. -/
theorem snapshot_groups_rearranged :
    let first : Registration := (.resume, .stage 0)
    let second : Registration := (.messageCreate, .stage 1)
    let third : Registration := (.resume, .stage 2)
    let r : ListenerRegistry := ⟨[(.messageCreate, [.stage 1]), (.resume, [.stage 0, .stage 2])]⟩
    ComesOf [first, second, third] r ∧ r.snapshot = [second, first, third]
      ∧ r.listenersFor .resume = [.stage 0, .stage 2] ∧ r.count = 3 := by
  intro first second third r
  have htwo : ComesOf [first, second] ⟨[(.resume, [.stage 0]), (.messageCreate, [.stage 1])]⟩ :=
    .registered .messageCreate (.stage 1) (.registered .resume (.stage 0) .empty)
  have hthree : ComesOf [first, second, third] r :=
    .registered .resume (.stage 2) (htwo.rearranged (List.Perm.swap _ _ _))
  obtain ⟨hsorted, hlisteners, hcount, -⟩ := snapshot_groups hthree
  have hstable : StablySorted [first, second, third] [second, first, third] :=
    stablySorted_byCategory [first, second, third]
  exact ⟨hthree, ((hsorted _).mp hstable).symm, (hlisteners .resume).2, hcount⟩

end ListenerRegistry

end GatewayClient
