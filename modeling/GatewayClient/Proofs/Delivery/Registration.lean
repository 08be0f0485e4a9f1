import GatewayClient.Proofs.Delivery.Chronicle

/-!
# What a registry holds

A registry is a row of buckets, and in which order they stand depends on which category was
registered first. What it holds is said by the row of registrations from which it came
(`ListenerRegistry.Holds`), and two things are read from it: the listeners of a category, which are
its registrations in order, and the snapshot, which is the registrations of the first category, then
those of the second, and so on (`ListenerRegistry.Holds.snapshot`). That a stable sort comes to the
same as picking out one category after the other is what makes the order of the buckets irrelevant.
-/

namespace GatewayClient

/-- A listener with the category for which it is registered. -/
abbrev Registration := ListenerCategory × Sink

/-- Registrations by category, and those of a category in the order in which they were made. -/
def byCategory (regs : List Registration) : List Registration :=
  ListenerCategory.all.flatMap fun c => regs.filter (·.1 = c)

/-- The listeners of a category among registrations, in order. -/
def registeredFor (category : ListenerCategory) (regs : List Registration) : List Sink :=
  (regs.filter (·.1 = category)).map (·.2)

theorem registeredFor_concat (category : ListenerCategory) (regs : List Registration)
    (r : Registration) :
    registeredFor category (regs ++ [r]) =
      registeredFor category regs ++ if r.1 = category then [r.2] else [] := by
  by_cases hr : r.1 = category <;> simp [registeredFor, hr]

namespace ListenerCategory

theorem mem_all (c : ListenerCategory) : c ∈ all := by
  cases c <;> decide

theorem rank_lt_all : all.Pairwise fun c c' => c.rank < c'.rank := by decide

end ListenerCategory

/-! ## Sorting by category -/

/-- In front of a sorted row, a registration is the first of its category and of all. -/
theorem flatMap_filter_cons {r : Registration} {regs : List Registration}
    (hfirst : ∀ r' ∈ regs, r.1.rank ≤ r'.1.rank) {cs : List ListenerCategory}
    (hcs : cs.Pairwise fun c c' => c.rank < c'.rank) (hmem : r.1 ∈ cs) :
    (cs.flatMap fun c => (r :: regs).filter (·.1 = c)) =
      r :: cs.flatMap fun c => regs.filter (·.1 = c) := by
  induction cs with
  | nil => cases hmem
  | cons c rest ih =>
      obtain ⟨hlt, hrest⟩ := List.pairwise_cons.mp hcs
      rw [List.flatMap_cons, List.flatMap_cons]
      by_cases hc : r.1 = c
      · -- The categories after it are others.
        have hothers : ∀ c' ∈ rest, (r :: regs).filter (·.1 = c') = regs.filter (·.1 = c') := by
          intro c' hc'
          refine List.filter_cons_of_neg ?_
          have hless := hlt c' hc'
          rw [decide_eq_true_eq]
          intro heq
          rw [← hc, heq] at hless
          omega
        rw [List.flatMap_def, List.map_congr_left hothers, ← List.flatMap_def,
          List.filter_cons_of_pos (by simpa using hc), List.cons_append]
      · -- The category comes before that of the registration, and nothing has it.
        have hmem' : r.1 ∈ rest := (List.mem_cons.mp hmem).resolve_left hc
        have hless := hlt r.1 hmem'
        have hnone : (r :: regs).filter (·.1 = c) = [] := by
          rw [List.filter_eq_nil_iff]
          intro r' hr'
          rw [decide_eq_true_eq]
          rintro rfl
          rcases List.mem_cons.mp hr' with rfl | hr'
          · omega
          · have hle := hfirst r' hr'
            omega
        have hnone' : regs.filter (·.1 = c) = [] := by
          rwa [List.filter_cons_of_neg (by simpa using hc)] at hnone
        rw [hnone, hnone', List.nil_append, List.nil_append, ih hrest hmem']

theorem byCategory_of_sorted {regs : List Registration}
    (hsorted : regs.Pairwise fun r r' => r.1.rank ≤ r'.1.rank) : byCategory regs = regs := by
  induction regs with
  | nil => rfl
  | cons r rest ih =>
      obtain ⟨hfirst, hrest⟩ := List.pairwise_cons.mp hsorted
      unfold byCategory at ih ⊢
      rw [flatMap_filter_cons hfirst ListenerCategory.rank_lt_all r.1.mem_all, ih hrest]

section

variable (regs : List Registration)

/-- The order in which registries sort. -/
def byRank (r r' : Registration) : Bool := r.1.rank ≤ r'.1.rank

theorem byRank_trans (a b c : Registration) (hab : byRank a b = true) (hbc : byRank b c = true) :
    byRank a c = true := by
  simp only [byRank, decide_eq_true_eq] at *
  omega

theorem byRank_total (a b : Registration) : (byRank a b || byRank b a) = true := by
  simp only [byRank, Bool.or_eq_true, decide_eq_true_eq]
  omega

/-- The sort is stable: those of one category stay in their order. -/
theorem filter_mergeSort (c : ListenerCategory) :
    (regs.mergeSort byRank).filter (·.1 = c) = regs.filter (·.1 = c) := by
  have hequal : (regs.filter (·.1 = c)).Pairwise fun a b => byRank a b = true := by
    refine List.pairwise_of_forall_mem_list fun a ha b hb => ?_
    have ha := of_decide_eq_true (List.mem_filter.mp ha).2
    have hb := of_decide_eq_true (List.mem_filter.mp hb).2
    simp [byRank, ha, hb]
  have hsub := (List.sublist_mergeSort byRank_trans byRank_total hequal
    (List.filter_sublist (l := regs))).filter fun r => decide (r.1 = c)
  rw [List.filter_filter] at hsub
  simp only [Bool.and_self] at hsub
  refine (hsub.eq_of_length ?_).symm
  exact ((List.mergeSort_perm regs byRank).filter _).length_eq.symm

/-- Sorting stably by category is picking out one category after the other. -/
theorem mergeSort_eq_byCategory : regs.mergeSort byRank = byCategory regs := by
  have hsorted := List.pairwise_mergeSort byRank_trans byRank_total regs
  rw [← byCategory_of_sorted (hsorted.imp fun h => of_decide_eq_true h)]
  simp only [byCategory, filter_mergeSort]

end

/-! ## What registrations come to -/

namespace ListenerRegistry

/-- A registry has come from a row of registrations: each category has a bucket of its own, with
its listeners in order. -/
structure Holds (r : ListenerRegistry) (regs : List Registration) : Prop where
  apart : (r.buckets.map (·.1)).Nodup
  bucket : ∀ c, r.listenersFor c = registeredFor c regs

theorem holds_empty : Holds {} [] := ⟨List.nodup_nil, fun _ => rfl⟩

theorem mem_insert {category c : ListenerCategory} {listener : Sink}
    {buckets : List (ListenerCategory × List Sink)} :
    c ∈ (insert category listener buckets).map (·.1) ↔
      c ∈ buckets.map (·.1) ∨ c = category := by
  induction buckets with
  | nil => simp [insert]
  | cons b rest ih =>
      obtain ⟨c', bucket⟩ := b
      by_cases hsame : c' = category
      · subst hsame
        simp [insert, or_comm]
      · simp only [insert, if_neg hsame, List.map_cons, List.mem_cons, ih, or_assoc]

theorem nodup_insert {category : ListenerCategory} {listener : Sink}
    {buckets : List (ListenerCategory × List Sink)} (hnodup : (buckets.map (·.1)).Nodup) :
    ((insert category listener buckets).map (·.1)).Nodup := by
  induction buckets with
  | nil => simp [insert]
  | cons b rest ih =>
      obtain ⟨c', bucket⟩ := b
      rw [List.map_cons, List.nodup_cons] at hnodup
      by_cases hsame : c' = category
      · rw [insert, if_pos hsame]
        exact List.nodup_cons.mpr hnodup
      · rw [insert, if_neg hsame, List.map_cons, List.nodup_cons, mem_insert]
        refine ⟨?_, ih hnodup.2⟩
        rintro (hmem | rfl)
        · exact hnodup.1 hmem
        · exact hsame rfl

theorem Holds.register {r : ListenerRegistry} {regs : List Registration} (hholds : r.Holds regs)
    (category : ListenerCategory) (listener : Sink) :
    (r.register category listener).1.Holds (regs ++ [(category, listener)]) where
  apart := nodup_insert hholds.apart
  bucket := by
    intro c
    rw [registeredFor_concat, ← hholds.bucket c]
    exact Hub.listenersFor_insert category c listener r.buckets

/-- What the buckets have of a category. -/
theorem filter_buckets {buckets : List (ListenerCategory × List Sink)}
    (hnodup : (buckets.map (·.1)).Nodup) (c : ListenerCategory) :
    (buckets.flatMap fun b => b.2.map fun l => (b.1, l)).filter (·.1 = c) =
      (listenersFor ⟨buckets⟩ c).map fun l => (c, l) := by
  induction buckets with
  | nil => rfl
  | cons b rest ih =>
      obtain ⟨c', bucket⟩ := b
      rw [List.map_cons, List.nodup_cons] at hnodup
      rw [List.flatMap_cons, List.filter_append, ih hnodup.2]
      by_cases hc : c' = c
      · subst hc
        have hnone : rest.find? (·.1 = c') = none := by
          rw [List.find?_eq_none]
          intro b hb
          rw [decide_eq_true_eq]
          intro heq
          exact hnodup.1 (List.mem_map.mpr ⟨b, hb, heq⟩)
        simp [listenersFor, hnone]
      · simp [listenersFor, hc]

theorem map_registeredFor (c : ListenerCategory) (regs : List Registration) :
    ((registeredFor c regs).map fun l => (c, l)) = regs.filter (·.1 = c) := by
  rw [registeredFor, List.map_map]
  refine List.map_congr_left (g := id) (fun r hr => ?_) |>.trans (List.map_id _)
  have hc := of_decide_eq_true (List.mem_filter.mp hr).2
  rw [← hc]
  rfl

/-- The snapshot of a registry is its registrations by category. -/
theorem Holds.snapshot {r : ListenerRegistry} {regs : List Registration} (hholds : r.Holds regs) :
    r.snapshot = byCategory regs := by
  have hfilter : ∀ c, (r.buckets.flatMap fun b => b.2.map fun l => (b.1, l)).filter (·.1 = c) =
      regs.filter (·.1 = c) := by
    intro c
    rw [filter_buckets hholds.apart, hholds.bucket, map_registeredFor]
  change (List.mergeSort _ byRank) = _
  rw [mergeSort_eq_byCategory]
  simp only [byCategory, hfilter]

end ListenerRegistry

/-- Of the snapshot, a category has its registrations in order. -/
theorem registeredFor_byCategory (c : ListenerCategory) (regs : List Registration) :
    registeredFor c (byCategory regs) = registeredFor c regs := by
  rw [← mergeSort_eq_byCategory, registeredFor, filter_mergeSort, registeredFor]

end GatewayClient
