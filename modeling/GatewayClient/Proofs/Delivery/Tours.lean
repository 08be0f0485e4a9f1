import GatewayClient.Proofs.Delivery.Chronicle
import GatewayClient.Proofs.Delivery.Paths

/-!
# Tours of a graph

The tour of a stage goes to the stages at the ends of all paths from it, depth first: to the stage
itself, and then along the tour of each stage that it is linked to. In a graph without cycles it
comes to a stage once for each path that leads there (`count_tour`), where a stage that is a sink
several times lies on as many paths.

The paths are those of `Path`, told by the places of the sinks along them. The ways (`Hub.ways`) are
the tour with these places, and they tie the two together: no two go over the same places
(`pairwise_ways`), and they are the paths (`path_of_mem_ways`, `mem_ways_of_path`).
-/

namespace GatewayClient

def Sink.stage? : Sink → Option StageId
  | .stage id => some id
  | .consumer _ => none

namespace Hub

/-! ## Links -/

/-- The stages among the sinks of a stage, in order. -/
def links (h : Hub) (a : StageId) : List StageId :=
  (h.sinksOf (.stage a)).filterMap Sink.stage?

theorem links_of_stage {h : Hub} {a : StageId} {s : Stage} (hs : h.stages[a]? = some s) :
    h.links a = s.sinks.filterMap Sink.stage? := by
  rw [links, sinksOf, hs]

theorem mem_sinksOf_stage {h : Hub} {a b : StageId} :
    Sink.stage b ∈ h.sinksOf (.stage a) ↔ h.Link a b := by
  cases hs : h.stages[a]? with
  | none => simp [sinksOf, Link, hs]
  | some s => simp [sinksOf, Link, hs]

theorem mem_links {h : Hub} {a b : StageId} : b ∈ h.links a ↔ h.Link a b := by
  rw [← mem_sinksOf_stage, links, List.mem_filterMap]
  constructor
  · rintro ⟨sink, hsink, hb⟩
    cases sink with
    | stage id => exact Option.some.inj hb ▸ hsink
    | consumer c => cases hb
  · exact fun hb => ⟨_, hb, rfl⟩

/-! ## Tours and ways -/

/-- The stages at the ends of all paths from a stage of at most `n` links, depth first. -/
def tour (h : Hub) : Nat → StageId → List StageId
  | 0, a => [a]
  | n + 1, a => a :: (h.links a).flatMap (h.tour n)

/-- The ways that begin with one sink, given those that go on from a stage. -/
def waysBy (next : StageId → List (List Nat × StageId)) (k : Sink × Nat) :
    List (List Nat × StageId) :=
  match k.1 with
  | .stage b => (next b).map fun w => (k.2 :: w.1, w.2)
  | .consumer _ => []

/-- The places along the paths from a stage of at most `n` links, with the stages at their ends,
depth first. -/
def ways (h : Hub) : Nat → StageId → List (List Nat × StageId)
  | 0, a => [([], a)]
  | n + 1, a => ([], a) :: (h.sinksOf (.stage a)).zipIdx.flatMap (waysBy (h.ways n))

section

variable {h : Hub}

theorem mem_waysBy {next : StageId → List (List Nat × StageId)} {k : Sink × Nat}
    {w : List Nat × StageId} :
    w ∈ waysBy next k ↔ ∃ c rest, k.1 = .stage c ∧ (rest, w.2) ∈ next c ∧ w.1 = k.2 :: rest := by
  obtain ⟨sink, i⟩ := k
  obtain ⟨places, b⟩ := w
  cases sink with
  | consumer c => simp [waysBy]
  | stage c =>
      constructor
      · intro hw
        obtain ⟨⟨rest, b'⟩, hmem, heq⟩ := List.mem_map.mp hw
        cases heq
        exact ⟨c, rest, rfl, hmem, rfl⟩
      · rintro ⟨c', rest, hc, hmem, rfl⟩
        cases hc
        exact List.mem_map.mpr ⟨(rest, b), hmem, rfl⟩

theorem mem_ways_succ {n : Nat} {a : StageId} {w : List Nat × StageId} :
    w ∈ h.ways (n + 1) a ↔ w = ([], a)
      ∨ ∃ i c rest, (h.sinksOf (.stage a))[i]? = some (.stage c) ∧ (rest, w.2) ∈ h.ways n c
        ∧ w.1 = i :: rest := by
  rw [ways, List.mem_cons, List.mem_flatMap]
  refine or_congr_right ⟨?_, ?_⟩
  · rintro ⟨⟨sink, i⟩, hk, hw⟩
    obtain ⟨c, rest, rfl, hmem, hplaces⟩ := mem_waysBy.mp hw
    exact ⟨i, c, rest, List.mem_zipIdx_iff_getElem?.mp hk, hmem, hplaces⟩
  · rintro ⟨i, c, rest, hi, hmem, hplaces⟩
    exact ⟨(.stage c, i), List.mem_zipIdx_iff_getElem?.mpr hi,
      mem_waysBy.mpr ⟨c, rest, rfl, hmem, hplaces⟩⟩

theorem nil_mem_ways (n : Nat) (a : StageId) : ([], a) ∈ h.ways n a := by
  cases n <;> simp [ways]

/-- The tour goes along the ways. -/
theorem map_ways : ∀ (n : Nat) (a : StageId), (h.ways n a).map (·.2) = h.tour n a
  | 0, _ => rfl
  | n + 1, a => by
      have hsinks : ∀ (sinks : List Sink) (i : Nat),
          ((sinks.zipIdx i).flatMap (waysBy (h.ways n))).map (·.2) =
            (sinks.filterMap Sink.stage?).flatMap (h.tour n) := by
        intro sinks
        induction sinks with
        | nil => exact fun _ => rfl
        | cons sink rest ih =>
            intro i
            rw [List.zipIdx_cons, List.flatMap_cons, List.map_append, ih (i + 1)]
            cases sink with
            | consumer c => rfl
            | stage b =>
                rw [waysBy, List.map_map]
                exact congrArg (· ++ _) (map_ways n b)
      exact congrArg (a :: ·) (hsinks _ 0)

/-- No two ways go over the same places. -/
theorem pairwise_ways : ∀ (n : Nat) (a : StageId), (h.ways n a).Pairwise fun w w' => w.1 ≠ w'.1
  | 0, _ => List.pairwise_singleton _ _
  | n + 1, a => by
      rw [ways, List.pairwise_cons, List.pairwise_flatMap]
      refine ⟨?_, fun k _ => ?_, ?_⟩
      · intro w hw
        obtain ⟨k, -, hw⟩ := List.mem_flatMap.mp hw
        obtain ⟨c, rest, -, -, hplaces⟩ := mem_waysBy.mp hw
        rw [hplaces]
        nofun
      · obtain ⟨sink, i⟩ := k
        cases sink with
        | consumer c => exact List.Pairwise.nil
        | stage b =>
            rw [waysBy, List.pairwise_map]
            exact (pairwise_ways n b).imp fun hne heq => hne (List.cons.inj heq).2
      · rw [List.pairwise_iff_getElem]
        intro i j hi hj hij w hw w' hw' heq
        obtain ⟨c, rest, -, -, hplaces⟩ := mem_waysBy.mp hw
        obtain ⟨c', rest', -, -, hplaces'⟩ := mem_waysBy.mp hw'
        have hplace := (List.cons.inj (hplaces.symm.trans (heq.trans hplaces'))).1
        rw [List.getElem_zipIdx, List.getElem_zipIdx] at hplace
        dsimp only at hplace
        omega

theorem stage_of_sinksOf {a : StageId} {i : Nat} {sink : Sink}
    (hi : (h.sinksOf (.stage a))[i]? = some sink) :
    ∃ s, h.stages[a]? = some s ∧ s.sinks[i]? = some sink := by
  cases hs : h.stages[a]? with
  | none => simp [sinksOf, hs] at hi
  | some s => exact ⟨s, rfl, by rwa [sinksOf, hs] at hi⟩

/-- A path with one more stage in front. -/
theorem Path.cons {a c : StageId} {s : Stage} {i : Nat} (hs : h.stages[a]? = some s)
    (hi : s.sinks[i]? = some (.stage c)) {places : List Nat} {operations : List Operation}
    {sink : Sink} (hpath : h.Path c places operations sink) :
    h.Path a (i :: places) (s.operation :: operations) sink := by
  induction hpath with
  | start => exact Path.start.hop hs hi
  | hop _ hs' hi' ih => exact ih.hop hs' hi'

theorem path_of_mem_ways : ∀ {n : Nat} {a : StageId} {w : List Nat × StageId},
    w ∈ h.ways n a → ∃ operations, h.Path a w.1 operations (.stage w.2)
  | 0, a, w, hw => by
      cases List.mem_singleton.mp hw
      exact ⟨[], .start⟩
  | n + 1, a, w, hw => by
      rcases mem_ways_succ.mp hw with rfl | ⟨i, c, rest, hi, hmem, hplaces⟩
      · exact ⟨[], .start⟩
      · obtain ⟨operations, hpath⟩ := path_of_mem_ways hmem
        obtain ⟨s, hs, hi⟩ := stage_of_sinksOf hi
        exact ⟨_, hplaces ▸ hpath.cons hs hi⟩

/-- Where there are levels enough, the ways go on along every link. -/
theorem ways_concat (hacyclic : h.Acyclic) {b c : StageId} {s : Stage} {i : Nat}
    (hs : h.stages[c]? = some s) (hi : s.sinks[i]? = some (.stage b)) :
    ∀ {n : Nat} {a : StageId} {places : List Nat}, h.Fits n (.stage a) →
      (places, c) ∈ h.ways n a → (places ++ [i], b) ∈ h.ways n a
  | 0, a, places, hfits, hw => by
      cases List.mem_singleton.mp hw
      exact absurd hfits (not_fits_zero hs)
  | n + 1, a, places, hfits, hw => by
      rcases mem_ways_succ.mp hw with heq | ⟨j, d, rest, hj, hmem, rfl⟩
      · cases heq
        have hsink : (h.sinksOf (.stage c))[i]? = some (.stage b) := by rwa [sinksOf, hs]
        exact mem_ways_succ.mpr (.inr ⟨i, b, [], hsink, nil_mem_ways n b, rfl⟩)
      · obtain ⟨s', hs', hj'⟩ := stage_of_sinksOf hj
        have hbelow := hfits.sink hacyclic hs' (List.mem_of_getElem? hj')
        exact mem_ways_succ.mpr
          (.inr ⟨j, d, rest ++ [i], hj, ways_concat hacyclic hs hi hbelow hmem, rfl⟩)

theorem mem_ways_of_path (hacyclic : h.Acyclic) {n : Nat} {a : StageId}
    (hfits : h.Fits n (.stage a)) {places : List Nat} {operations : List Operation} {sink : Sink}
    (hpath : h.Path a places operations sink) :
    ∀ {b}, sink = .stage b → (places, b) ∈ h.ways n a := by
  induction hpath with
  | start =>
      intro b hb
      cases hb
      exact nil_mem_ways n a
  | hop _ hs hi ih =>
      rintro b rfl
      exact ways_concat hacyclic hs hi hfits (ih rfl)

/-- **A tour counts paths**: it comes to a stage once for each path that leads there. -/
theorem count_tour (hacyclic : h.Acyclic) {n : Nat} {a : StageId} (hfits : h.Fits n (.stage a))
    (b : StageId) :
    ∃ paths : List (List Nat), paths.Nodup
      ∧ (∀ places, places ∈ paths ↔ ∃ operations, h.Path a places operations (.stage b))
      ∧ (h.tour n a).count b = paths.length := by
  refine ⟨((h.ways n a).filter (·.2 = b)).map (·.1), ?_, fun places => ?_, ?_⟩
  · rw [List.nodup_iff_pairwise_ne, List.pairwise_map]
    exact (pairwise_ways n a).filter _
  · rw [List.mem_map]
    constructor
    · rintro ⟨w, hw, rfl⟩
      obtain ⟨hmem, hb⟩ := List.mem_filter.mp hw
      rw [← of_decide_eq_true hb]
      exact path_of_mem_ways hmem
    · rintro ⟨operations, hpath⟩
      exact ⟨(places, b), List.mem_filter.mpr ⟨mem_ways_of_path hacyclic hfits hpath rfl,
        decide_eq_true rfl⟩, rfl⟩
  · rw [← map_ways, List.count_eq_countP, List.countP_map, List.countP_eq_length_filter,
      List.length_map]
    rfl

end

end Hub

end GatewayClient
