import Mathlib.Data.Finset.Card
import Mathlib.Data.Finset.Filter
import Mathlib.Data.Finset.Range
import Mathlib.Logic.Relation
import GatewayClient.Pipeline.Delivery

/-!
# The deliveries that come of an event

What would be delivered, and where, if no delivery broke off: a stage whose operation lets an event
through delivers what comes out to each of its sinks, and those deliveries are told apart by their
routes, the places of the sinks that lead to them. Nothing here runs a hub; it is the yardstick
that a run is held against.

- **The agenda** (`Agenda`): all deliveries that come of one, depth first and in the order of the
  sinks, which is the lexicographic order of the places along the routes (`Earlier`).
- **Agendas exist in graphs without cycles** (`agenda_explore`): the height of a stage, the number
  of stages below it, falls along every link, so following the links comes to an end.
-/

namespace GatewayClient

/-! ## Deliveries and their routes -/

/-- One delivery on the way from a stage to a sink: the place of the sink among those of the stage,
and the policy of the stage. -/
structure Hop where
  place : Nat
  policy : DeliveryPolicy
deriving DecidableEq, Repr

/-- The bringing of an event to a sink, with the hops that led to it. -/
structure Delivery where
  route : List Hop
  sink : Sink
  event : GatewayEvent

namespace Delivery

/-- The places of the sinks along the route. -/
def places (d : Delivery) : List Nat := d.route.map Hop.place

/-- The delivery with which feeding an event to a stage begins. -/
def entry (id : StageId) (e : GatewayEvent) : Delivery := ⟨[], .stage id, e⟩

/-- A delivery one hop further on. -/
def hop (d : Delivery) (place : Nat) (policy : DeliveryPolicy) (sink : Sink)
    (out : GatewayEvent) : Delivery :=
  ⟨d.route ++ [⟨place, policy⟩], sink, out⟩

/-- Depth first and in the order of the sinks, one delivery comes before another. -/
def Earlier (d d' : Delivery) : Prop := List.Lex (· < ·) d.places d'.places

end Delivery

namespace Hub

/-- The deliveries that a delivery to a stage makes: one to each sink, of what the operation of the
stage lets through. -/
def onward (h : Hub) (d : Delivery) : List Delivery :=
  match d.sink with
  | .consumer _ => []
  | .stage a =>
    match h.stages[a]? with
    | none => []
    | some s =>
      match s.operation.apply d.event with
      | .ok (some out) => s.sinks.zipIdx.map fun k => d.hop k.2 s.policy k.1 out
      | _ => []

/-- One delivery comes of another, at however many hops. -/
def Reaches (h : Hub) : Delivery → Delivery → Prop :=
  Relation.ReflTransGen fun d d' => d' ∈ h.onward d

/-- All deliveries that come of one, in order. -/
structure Agenda (h : Hub) (d : Delivery) (ds : List Delivery) : Prop where
  ordered : ds.Pairwise Delivery.Earlier
  complete : ∀ d', d' ∈ ds ↔ h.Reaches d d'

theorem onward_stage {h : Hub} {d : Delivery} {a : StageId} {s : Stage} {out : GatewayEvent}
    (hsink : d.sink = .stage a) (hs : h.stages[a]? = some s)
    (hout : s.operation.apply d.event = .ok (some out)) :
    h.onward d = s.sinks.zipIdx.map fun k => d.hop k.2 s.policy k.1 out := by
  simp only [onward, hsink, hs, hout]

/-- A delivery goes on only from a stage that lets the event through, and only to its sinks. -/
theorem mem_onward {h : Hub} {d d' : Delivery} :
    d' ∈ h.onward d ↔
      ∃ a s out i sink, d.sink = .stage a ∧ h.stages[a]? = some s
        ∧ s.operation.apply d.event = .ok (some out) ∧ s.sinks[i]? = some sink
        ∧ d' = d.hop i s.policy sink out := by
  constructor
  · intro hmem
    unfold onward at hmem
    split at hmem
    · cases hmem
    · next a hsink =>
      split at hmem
      · cases hmem
      · next s hs =>
        split at hmem
        · next out hout =>
          obtain ⟨⟨sink, i⟩, hk, rfl⟩ := List.mem_map.mp hmem
          exact ⟨a, s, out, i, sink, hsink, hs, hout, List.mem_zipIdx_iff_getElem?.mp hk, rfl⟩
        · cases hmem
  · rintro ⟨a, s, out, i, sink, hsink, hs, hout, hi, rfl⟩
    rw [onward_stage hsink hs hout]
    exact List.mem_map.mpr ⟨(sink, i), List.mem_zipIdx_iff_getElem?.mpr hi, rfl⟩

/-- What is delivered depends on the stages alone. -/
theorem onward_congr {h h' : Hub} (hstages : h'.stages = h.stages) : h'.onward = h.onward := by
  funext d
  simp only [onward, hstages]

theorem Agenda.congr {h h' : Hub} (hstages : h'.stages = h.stages) {d : Delivery}
    {ds : List Delivery} (hds : h.Agenda d ds) : h'.Agenda d ds :=
  ⟨hds.ordered, fun d' => by rw [hds.complete, Reaches, Reaches, onward_congr hstages]⟩

/-! ## Graphs without cycles -/

def Link (h : Hub) (a b : StageId) : Prop :=
  ∃ s, h.stages[a]? = some s ∧ Sink.stage b ∈ s.sinks

/-- No stage can be reached from itself. -/
def Acyclic (h : Hub) : Prop := ∀ a, ¬ Relation.TransGen h.Link a a

/-- Every link leads to a stage that was made later. -/
def ascending (h : Hub) : Bool :=
  h.stages.toList.zipIdx.all fun k =>
    k.1.sinks.all fun
      | .stage b => k.2 < b
      | .consumer _ => true

theorem Link.lt {h : Hub} (hascending : h.ascending) {a b : StageId} (hlink : h.Link a b) :
    a < b := by
  obtain ⟨s, hs, hmem⟩ := hlink
  rw [ascending, List.all_eq_true] at hascending
  have hstage := hascending (s, a) (List.mem_zipIdx_iff_getElem?.mpr (by simpa using hs))
  rw [List.all_eq_true] at hstage
  simpa using hstage _ hmem

theorem acyclic_of_lt {h : Hub} (hlt : ∀ {a b}, h.Link a b → a < b) : h.Acyclic := by
  have htrans : ∀ {a b}, Relation.TransGen h.Link a b → a < b := by
    intro a b hab
    induction hab with
    | single hlink => exact hlt hlink
    | tail _ hlink ih => exact Nat.lt_trans ih (hlt hlink)
  exact fun a haa => Nat.lt_irrefl a (htrans haa)

theorem acyclic_of_ascending {h : Hub} (hascending : h.ascending) : h.Acyclic :=
  acyclic_of_lt fun hlink => hlink.lt hascending

open Classical in
/-- The stages that can be reached from a stage. -/
noncomputable def below (h : Hub) (a : StageId) : Finset StageId :=
  (Finset.range h.stages.size).filter fun b => Relation.TransGen h.Link a b

/-- The number of stages that can be reached from a stage. -/
noncomputable def height (h : Hub) (a : StageId) : Nat := (h.below a).card

theorem mem_below {h : Hub} {a b : StageId} :
    b ∈ h.below a ↔ b < h.stages.size ∧ Relation.TransGen h.Link a b := by
  simp [below]

theorem height_lt_height {h : Hub} (hacyclic : h.Acyclic) {a b : StageId} (hlink : h.Link a b)
    (hb : b < h.stages.size) : h.height b < h.height a := by
  refine Finset.card_lt_card (Finset.ssubset_iff_subset_ne.mpr ⟨?_, ?_⟩)
  · intro c hc
    obtain ⟨hsize, hbc⟩ := mem_below.mp hc
    exact mem_below.mpr ⟨hsize, .head hlink hbc⟩
  · intro heq
    have hself : b ∈ h.below b := heq ▸ mem_below.mpr ⟨hb, .single hlink⟩
    exact hacyclic b (mem_below.mp hself).2

theorem height_lt_size {h : Hub} (hacyclic : h.Acyclic) {a : StageId} (ha : a < h.stages.size) :
    h.height a < h.stages.size := by
  have hsub : h.below a ⊂ Finset.range h.stages.size :=
    Finset.ssubset_iff_subset_ne.mpr ⟨fun c hc => Finset.mem_range.mpr (mem_below.mp hc).1,
      fun heq => hacyclic a (mem_below.mp (heq ▸ Finset.mem_range.mpr ha : a ∈ h.below a)).2⟩
  simpa [height] using Finset.card_lt_card hsub

def Serves (h : Hub) (c : Consumer) : Prop :=
  ∃ (a : StageId) (s : Stage), h.stages[a]? = some s ∧ Sink.consumer c ∈ s.sinks

theorem Serves.mem {h : Hub} {c : Consumer} (hc : h.Serves c) :
    Sink.consumer c ∈ h.stages.toList.flatMap Stage.sinks := by
  obtain ⟨a, s, hs, hmem⟩ := hc
  exact List.mem_flatMap.mpr ⟨s, Array.mem_toList_iff.mpr (Array.mem_of_getElem? hs), hmem⟩

/-- A sink at which following the links ends after at most `n` more stages. -/
def Fits (h : Hub) (n : Nat) : Sink → Prop
  | .stage a => a < h.stages.size → h.height a < n
  | .consumer c => h.Serves c

theorem fits_size {h : Hub} (hacyclic : h.Acyclic) (id : StageId) :
    h.Fits h.stages.size (.stage id) :=
  fun hid => height_lt_size hacyclic hid

/-- The sinks of a stage fit one level lower than the stage. -/
theorem Fits.sink {h : Hub} (hacyclic : h.Acyclic) {n : Nat} {a : StageId} {s : Stage}
    (hfits : h.Fits (n + 1) (.stage a)) (hs : h.stages[a]? = some s) {sink : Sink}
    (hmem : sink ∈ s.sinks) : h.Fits n sink := by
  have ha : a < h.stages.size := (Array.getElem?_eq_some_iff.mp hs).1
  cases sink with
  | consumer c => exact ⟨a, s, hs, hmem⟩
  | stage b =>
      intro hb
      have hlow := height_lt_height hacyclic ⟨s, hs, hmem⟩ hb
      have := hfits ha
      omega

theorem not_fits_zero {h : Hub} {a : StageId} {s : Stage} (hs : h.stages[a]? = some s) :
    ¬ h.Fits 0 (.stage a) :=
  fun hfits => Nat.not_lt_zero _ (hfits (Array.getElem?_eq_some_iff.mp hs).1)

/-! ## Following the links -/

/-- A delivery and all that come of it within `n` hops. -/
def explore (h : Hub) : Nat → Delivery → List Delivery
  | 0, d => [d]
  | n + 1, d => d :: (h.onward d).flatMap (h.explore n)

/-- A delivery whose sink fits within no stage goes nowhere. -/
theorem onward_eq_nil_of_fits {h : Hub} {d : Delivery} (hfits : h.Fits 0 d.sink) :
    h.onward d = [] := by
  refine List.eq_nil_iff_forall_not_mem.mpr fun d' hmem => ?_
  obtain ⟨a, s, out, i, sink, hsink, hs, -⟩ := mem_onward.mp hmem
  exact not_fits_zero hs (hsink ▸ hfits)

theorem fits_of_mem_onward {h : Hub} (hacyclic : h.Acyclic) {n : Nat} {d d' : Delivery}
    (hfits : h.Fits (n + 1) d.sink) (hmem : d' ∈ h.onward d) : h.Fits n d'.sink := by
  obtain ⟨a, s, out, i, sink, hsink, hs, -, hi, rfl⟩ := mem_onward.mp hmem
  rw [hsink] at hfits
  exact hfits.sink hacyclic hs (List.mem_of_getElem? hi)

theorem mem_explore {h : Hub} (hacyclic : h.Acyclic) {d' : Delivery} :
    ∀ {n : Nat} {d : Delivery}, h.Fits n d.sink → (d' ∈ h.explore n d ↔ h.Reaches d d')
  | 0, d, hfits => by
      rw [explore, List.mem_singleton]
      constructor
      · rintro rfl
        exact .refl
      · intro hreach
        rcases hreach.cases_head with rfl | ⟨d₁, hd₁, -⟩
        · rfl
        · rw [onward_eq_nil_of_fits hfits] at hd₁
          cases hd₁
  | n + 1, d, hfits => by
      rw [explore, List.mem_cons, List.mem_flatMap]
      constructor
      · rintro (rfl | ⟨d₁, hd₁, hd'⟩)
        · exact .refl
        · exact .head hd₁ ((mem_explore hacyclic (fits_of_mem_onward hacyclic hfits hd₁)).mp hd')
      · intro hreach
        rcases hreach.cases_head with rfl | ⟨d₁, hd₁, hrest⟩
        · exact Or.inl rfl
        · exact Or.inr ⟨d₁, hd₁,
            (mem_explore hacyclic (fits_of_mem_onward hacyclic hfits hd₁)).mpr hrest⟩

theorem route_prefix_of_mem_onward {h : Hub} {d d' : Delivery} (hmem : d' ∈ h.onward d) :
    d.route <+: d'.route := by
  obtain ⟨a, s, out, i, sink, -, -, -, -, rfl⟩ := mem_onward.mp hmem
  exact List.prefix_append _ _

theorem route_prefix_of_mem_explore {h : Hub} {d' : Delivery} :
    ∀ {n : Nat} {d : Delivery}, d' ∈ h.explore n d → d.route <+: d'.route
  | 0, d, hmem => by
      obtain rfl := List.mem_singleton.mp hmem
      exact List.prefix_rfl
  | n + 1, d, hmem => by
      rcases List.mem_cons.mp hmem with rfl | hmem
      · exact List.prefix_rfl
      · obtain ⟨d₁, hd₁, hd'⟩ := List.mem_flatMap.mp hmem
        exact (route_prefix_of_mem_onward hd₁).trans (route_prefix_of_mem_explore hd')

end Hub

/-! ## The order of the agenda -/

namespace Delivery

/-- A delivery comes before those that go on from it. -/
theorem earlier_of_hop {d d' : Delivery} {i : Nat} {policy : DeliveryPolicy} {sink : Sink}
    {out : GatewayEvent} (hpre : (d.hop i policy sink out).route <+: d'.route) :
    d.Earlier d' := by
  obtain ⟨rest, hrest⟩ := hpre
  have hplaces : d'.places = d.places ++ i :: rest.map Hop.place := by
    simp [places, ← hrest, hop]
  rw [Earlier, hplaces]
  conv => arg 2; rw [← List.append_nil d.places]
  exact List.append_left_lt .nil

/-- What comes of an earlier sink comes before what comes of a later one. -/
theorem earlier_of_lt {d d₁ d₂ : Delivery} {i j : Nat} {policy : DeliveryPolicy}
    {sink₁ sink₂ : Sink} {out : GatewayEvent} (hij : i < j)
    (h₁ : (d.hop i policy sink₁ out).route <+: d₁.route)
    (h₂ : (d.hop j policy sink₂ out).route <+: d₂.route) : d₁.Earlier d₂ := by
  obtain ⟨rest₁, hrest₁⟩ := h₁
  obtain ⟨rest₂, hrest₂⟩ := h₂
  have hplaces₁ : d₁.places = d.places ++ i :: rest₁.map Hop.place := by
    simp [places, ← hrest₁, hop]
  have hplaces₂ : d₂.places = d.places ++ j :: rest₂.map Hop.place := by
    simp [places, ← hrest₂, hop]
  rw [Earlier, hplaces₁, hplaces₂]
  exact List.append_left_lt (.rel hij)

end Delivery

namespace Hub

theorem pairwise_explore {h : Hub} :
    ∀ {n : Nat} {d : Delivery}, (h.explore n d).Pairwise Delivery.Earlier
  | 0, d => List.pairwise_singleton _ _
  | n + 1, d => by
      rw [explore, List.pairwise_cons]
      refine ⟨?_, ?_⟩
      · intro d' hd'
        obtain ⟨d₁, hd₁, hmem⟩ := List.mem_flatMap.mp hd'
        obtain ⟨a, s, out, i, sink, -, -, -, -, rfl⟩ := mem_onward.mp hd₁
        exact Delivery.earlier_of_hop (route_prefix_of_mem_explore hmem)
      · rw [List.pairwise_flatMap]
        refine ⟨fun d₁ _ => pairwise_explore, ?_⟩
        unfold onward
        split
        · exact List.Pairwise.nil
        · split
          · exact List.Pairwise.nil
          · split
            · rw [List.pairwise_map, List.pairwise_iff_getElem]
              intro i j hi hj hij d₁ hd₁ d₂ hd₂
              refine Delivery.earlier_of_lt ?_ (route_prefix_of_mem_explore hd₁)
                (route_prefix_of_mem_explore hd₂)
              simpa using hij
            · exact List.Pairwise.nil

/-- In a graph without cycles every event has an agenda. -/
theorem agenda_explore {h : Hub} (hacyclic : h.Acyclic) (id : StageId) (e : GatewayEvent) :
    h.Agenda (.entry id e) (h.explore h.stages.size (.entry id e)) :=
  ⟨pairwise_explore, fun _ => mem_explore hacyclic (fits_size hacyclic id)⟩

end Hub

end GatewayClient
