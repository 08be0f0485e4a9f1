import Mathlib.Data.List.DropRight
import GatewayClient.Proofs.Delivery.Depth
import GatewayClient.Proofs.Delivery.Route

/-!
# Where a fault is contained

A delivery that breaks off unwinds to the nearest delivery around it that an isolating stage makes,
and skips exactly what comes after it within that one. This module says so without unwinding
anything: `undertake` goes through the agenda of an event from front to back, and skips a delivery
if an earlier one broke off whose shelter (`Delivery.shelter`, the route up to where its fault is
contained) the delivery lies in.

- **The consumers** are arbitrary, as long as they leave the graph as it is and each call of one
  comes to an end (`Steady`). What they do may depend on all that happened before, and they may feed
  events back: a call counts as one delivery, whatever it does inside.
- **The two agree** (`deliver_keeps`): a delivery within the graph does to the hub what going
  through its part of the agenda does, and it ends with the fault that leaves this part, if one
  does. The induction is on the levels of stages below; the list of breaches so far is the state
  that the agenda needs in place of a stack.
-/

namespace GatewayClient

namespace Hub

/-! ## Steady consumers -/

/-- One call of a consumer. -/
def call (behaviour : Behaviour) (c : Consumer) (e : GatewayEvent) (h : Hub) : Hub × Outcome :=
  deliver behaviour room (.consumer c) e h

/-- The hubs that come of one when its consumers are called and contained faults are noted, in any
order. -/
inductive Yields (behaviour : Behaviour) (h : Hub) : Hub → Prop
  | start : Yields behaviour h h
  | noted {h' : Hub} (f : Fault) : Yields behaviour h h' →
      Yields behaviour h (h'.note (contained f))
  | called {h' : Hub} {c : Consumer} (e : GatewayEvent) : h.Serves c → Yields behaviour h h' →
      Yields behaviour h (h'.call behaviour c e).1

/-- The consumers do not change the graph: however they are called, the stages stay as they are,
and each call comes to an end. -/
structure Steady (behaviour : Behaviour) (h : Hub) : Prop where
  stages_eq : ∀ {h'}, h.Yields behaviour h' → h'.stages = h.stages
  ends : ∀ {h' c}, h.Yields behaviour h' → h.Serves c → ∀ e,
    (h'.call behaviour c e).2 ≠ .tooDeep

theorem call_eq_performAll (behaviour : Behaviour) (c : Consumer) (e : GatewayEvent) (h : Hub) :
    h.call behaviour c e =
      performAll (deliver behaviour (room - 1)) c (behaviour c e (h.receive c.name e))
        (h.receive c.name e) := rfl

/-- Consumers that break off or not, as they like, but do nothing else are steady. -/
theorem steady_of_breakOff {behaviour : Behaviour} {h : Hub}
    (hacts : ∀ c e h', h.Serves c → ∀ a ∈ behaviour c e h', ∃ f, a = .breakOff f) :
    h.Steady behaviour := by
  have hcall : ∀ {c}, h.Serves c → ∀ e (h' : Hub),
      (h'.call behaviour c e).1 = h'.receive c.name e
        ∧ (h'.call behaviour c e).2 ≠ .tooDeep := by
    intro c hc e h'
    have hform := hacts c e (h'.receive c.name e) hc
    rw [call_eq_performAll]
    generalize behaviour c e (h'.receive c.name e) = acts at hform ⊢
    cases acts with
    | nil => exact ⟨rfl, nofun⟩
    | cons a rest =>
        obtain ⟨f, rfl⟩ := hform _ (List.mem_cons_self ..)
        exact ⟨rfl, nofun⟩
  refine ⟨fun hy => ?_, fun _ hc e => (hcall hc e _).2⟩
  induction hy with
  | start => rfl
  | noted _ _ ih => exact ih
  | called e hc _ ih => rw [(hcall hc e _).1]; exact ih

end Hub

/-! ## Breaches -/

/-- The route up to the nearest delivery that an isolating stage makes; empty if there is none. -/
def Delivery.shelter (d : Delivery) : List Hop := d.route.rdropWhile (·.policy = .failFast)

structure Breach where
  delivery : Delivery
  fault : Fault

namespace Breach

/-- A breach skips the deliveries that lie in its shelter, all if it has none. -/
def Skips (b : Breach) (d : Delivery) : Prop := b.delivery.shelter <+: d.route

instance (b : Breach) (d : Delivery) : Decidable (b.Skips d) :=
  inferInstanceAs (Decidable (_ <+: _))

/-- How feeding an event ends after these breaches: with the fault that no stage contains. -/
def outcome (bs : List Breach) : Outcome :=
  match bs.find? (·.delivery.shelter = []) with
  | some b => .fault b.fault
  | none => .done

end Breach

namespace Hub

def contain (b : Breach) (h : Hub) : Hub :=
  if b.delivery.shelter = [] then h else h.note (contained b.fault)

/-- One delivery by itself: a stage applies its operation, a consumer is called. -/
def attempt (behaviour : Behaviour) (d : Delivery) (h : Hub) : Hub × Outcome :=
  match d.sink with
  | .consumer c => h.call behaviour c d.event
  | .stage a =>
    match h.stages[a]? with
    | none => (h, .done)
    | some s =>
      match s.operation.apply d.event with
      | .error f => (h, .fault f)
      | .ok _ => (h, .done)

/-- Goes through deliveries in order, each by itself, and skips those that a breach skips. -/
def undertake (behaviour : Behaviour) : List Delivery → List Breach → Hub → Hub × List Breach
  | [], bs, h => (h, bs)
  | d :: ds, bs, h =>
    if ∃ b ∈ bs, b.Skips d then undertake behaviour ds bs h
    else
      match h.attempt behaviour d with
      | (h, .fault f) => undertake behaviour ds (bs ++ [⟨d, f⟩]) (h.contain ⟨d, f⟩)
      | (h, _) => undertake behaviour ds bs h

/-- What feeding an event does to the hub and how it ends, read off its agenda. -/
def follow (behaviour : Behaviour) (ds : List Delivery) (h : Hub) : Hub × Outcome :=
  let r := undertake behaviour ds [] h
  (r.1, Breach.outcome r.2)

end Hub

/-! ## Shelters along a route -/

namespace Delivery

theorem shelter_hop_failFast (d : Delivery) (i : Nat) (sink : Sink) (out : GatewayEvent) :
    (d.hop i .failFast sink out).shelter = d.shelter :=
  List.rdropWhile_concat_pos _ _ _ (by simp)

theorem shelter_hop_isolate (d : Delivery) (i : Nat) (sink : Sink) (out : GatewayEvent) :
    (d.hop i .isolate sink out).shelter = (d.hop i .isolate sink out).route :=
  List.rdropWhile_concat_neg _ _ _ (by simp)

theorem shelter_prefix (d : Delivery) : d.shelter <+: d.route := List.rdropWhile_prefix _ _

end Delivery

namespace Breach

/-- The breach is contained inside a delivery, at one that comes of it. -/
def Inside (b : Breach) (d : Delivery) : Prop :=
  d.route <+: b.delivery.shelter ∧ b.delivery.shelter ≠ d.route

/-- The breach neither skips what has a route nor is contained inside of it. -/
def Clear (b : Breach) (route : List Hop) : Prop :=
  ¬ b.delivery.shelter <+: route ∧ ¬ route <+: b.delivery.shelter

theorem Inside.of_hop {b : Breach} {d : Delivery} {i : Nat} {policy : DeliveryPolicy}
    {sink : Sink} {out : GatewayEvent}
    (h : (d.hop i policy sink out).route <+: b.delivery.shelter) :
    b.Inside d := by
  refine ⟨(List.prefix_append _ _).trans h, fun heq => ?_⟩
  have hlen := h.length_le
  simp only [heq, Delivery.hop, List.length_append, List.length_singleton] at hlen
  omega

theorem Clear.hop {b : Breach} {d : Delivery} (h : b.Clear d.route) (i : Nat)
    (policy : DeliveryPolicy) : b.Clear (d.route ++ [⟨i, policy⟩]) := by
  refine ⟨fun hpre => ?_, fun hpre => h.2 ((List.prefix_append _ _).trans hpre)⟩
  rcases List.prefix_concat_iff.mp hpre with heq | hpre
  · exact h.2 (heq ▸ List.prefix_append _ _)
  · exact h.1 hpre

/-- What is contained at one sink leaves the other sinks alone. -/
theorem clear_of_ne {b : Breach} {d : Delivery} {i j : Nat} {policy : DeliveryPolicy}
    (hij : i ≠ j) (h : d.route ++ [⟨i, policy⟩] <+: b.delivery.shelter) :
    b.Clear (d.route ++ [⟨j, policy⟩]) := by
  have hne : ¬ d.route ++ [(⟨i, policy⟩ : Hop)] <+: d.route ++ [⟨j, policy⟩] := by
    intro hpre
    have heq := hpre.eq_of_length (by simp)
    exact hij (by simpa using heq)
  have hne' : ¬ d.route ++ [(⟨j, policy⟩ : Hop)] <+: d.route ++ [⟨i, policy⟩] := by
    intro hpre
    have heq := hpre.eq_of_length (by simp)
    exact hij (by simpa using heq.symm)
  refine ⟨fun hpre => hne (h.trans hpre), fun hpre => ?_⟩
  rcases List.prefix_or_prefix_of_prefix h hpre with hpre | hpre
  · exact hne hpre
  · exact hne' hpre

end Breach

namespace Hub

/-! ## Going through an agenda -/

theorem undertake_cons_of_clear (behaviour : Behaviour) {d : Delivery} (ds : List Delivery)
    {bs : List Breach} (h : Hub) (hclear : ∀ b ∈ bs, b.Clear d.route) :
    undertake behaviour (d :: ds) bs h =
      match h.attempt behaviour d with
      | (h, .fault f) => undertake behaviour ds (bs ++ [⟨d, f⟩]) (h.contain ⟨d, f⟩)
      | (h, _) => undertake behaviour ds bs h := by
  rw [undertake, if_neg]
  rintro ⟨b, hb, hskips⟩
  exact (hclear b hb).1 hskips

theorem undertake_of_skips {behaviour : Behaviour} {rest : List Delivery} {bs : List Breach}
    {h : Hub} :
    ∀ {ds : List Delivery}, (∀ d ∈ ds, ∃ b ∈ bs, b.Skips d) →
      undertake behaviour (ds ++ rest) bs h = undertake behaviour rest bs h
  | [], _ => rfl
  | d :: ds, hskips => by
      rw [List.cons_append, undertake, if_pos (hskips d (List.mem_cons_self ..))]
      exact undertake_of_skips fun d' hd' => hskips d' (List.mem_cons_of_mem _ hd')

theorem explore_of_onward_nil {h : Hub} {d : Delivery} (hnil : h.onward d = []) :
    ∀ n, h.explore n d = [d]
  | 0 => rfl
  | n + 1 => by rw [explore, hnil, List.flatMap_nil]

/-- What a run that ended so did to the hub is what going through its part `own` of the agenda
does. The breaches that it adds are contained inside of the delivery, but for the one whose fault
leaves it; that one has the shelter of the delivery itself. -/
def Keeps (behaviour : Behaviour) (h : Hub) (d : Delivery) (own rest : List Delivery)
    (bs : List Breach) (h₀ : Hub) : Hub × Outcome → Prop
  | (h', .done) => h.Yields behaviour h' ∧ ∃ new, (∀ b ∈ new, b.Inside d)
      ∧ undertake behaviour (own ++ rest) bs h₀ = undertake behaviour rest (bs ++ new) h'
  | (h', .fault f) => h.Yields behaviour h' ∧ ∃ new l, (∀ b ∈ new, b.Inside d)
      ∧ l.shelter = d.shelter
      ∧ undertake behaviour (own ++ rest) bs h₀
        = undertake behaviour rest (bs ++ new ++ [⟨l, f⟩]) (h'.contain ⟨l, f⟩)
  | (_, .tooDeep) => False

/-- The part of the agenda that belongs to the sinks of a stage from place `i` on. -/
def portion (h : Hub) (n : Nat) (d : Delivery) (policy : DeliveryPolicy) (out : GatewayEvent)
    (sinks : List Sink) (i : Nat) : List Delivery :=
  (sinks.zipIdx i).flatMap fun k => h.explore n (d.hop k.2 policy k.1 out)

theorem route_prefix_of_mem_portion {h : Hub} {n : Nat} {d d' : Delivery}
    {policy : DeliveryPolicy} {out : GatewayEvent} {sinks : List Sink} {i : Nat}
    (hmem : d' ∈ h.portion n d policy out sinks i) : d.route <+: d'.route := by
  obtain ⟨k, -, hd'⟩ := List.mem_flatMap.mp hmem
  exact (List.prefix_append _ _).trans (route_prefix_of_mem_explore hd')

section

variable {behaviour : Behaviour} {h : Hub}

/-- A part of the agenda in front that adds breaches inside of the delivery changes nothing. -/
theorem Keeps.prepend {d : Delivery} {own own' rest : List Delivery} {bs new : List Breach}
    {h₀ h₁ : Hub} {r : Hub × Outcome} (hnew : ∀ b ∈ new, b.Inside d)
    (heq : undertake behaviour (own ++ (own' ++ rest)) bs h₀
      = undertake behaviour (own' ++ rest) (bs ++ new) h₁)
    (hkeeps : Keeps behaviour h d own' rest (bs ++ new) h₁ r) :
    Keeps behaviour h d (own ++ own') rest bs h₀ r := by
  have hboth : ∀ new' : List Breach, (∀ b ∈ new', b.Inside d) →
      ∀ b ∈ new ++ new', b.Inside d := fun new' hnew' b hb =>
    (List.mem_append.mp hb).elim (hnew b) (hnew' b)
  obtain ⟨h', o⟩ := r
  cases o with
  | tooDeep => exact hkeeps.elim
  | done =>
      obtain ⟨hy, new', hnew', heq'⟩ := hkeeps
      refine ⟨hy, new ++ new', hboth new' hnew', ?_⟩
      rw [List.append_assoc, heq, heq', List.append_assoc]
  | fault f =>
      obtain ⟨hy, new', l, hnew', hl, heq'⟩ := hkeeps
      refine ⟨hy, new ++ new', l, hboth new' hnew', hl, ?_⟩
      rw [List.append_assoc, heq, heq', List.append_assoc bs]

/-- An emission does what going through the agenda of its sinks does, if each delivery that it
makes does so. The induction is on the sinks that are left. -/
theorem emit_keeps {courier : Courier} {n : Nat} (d : Delivery) (policy : DeliveryPolicy)
    (out : GatewayEvent)
    (hcourier : ∀ (d' : Delivery) (rest : List Delivery) (bs : List Breach) (h₀ : Hub),
      h.Fits n d'.sink → h.Yields behaviour h₀ → (∀ b ∈ bs, b.Clear d'.route) →
      Keeps behaviour h d' (h.explore n d') rest bs h₀ (courier d'.sink d'.event h₀)) :
    ∀ (sinks : List Sink) (i : Nat) (rest : List Delivery) (bs : List Breach) (h₀ : Hub),
      (∀ sink ∈ sinks, h.Fits n sink) → h.Yields behaviour h₀ →
      (∀ b ∈ bs, ∀ j, i ≤ j → b.Clear (d.route ++ [⟨j, policy⟩])) →
      Keeps behaviour h d (h.portion n d policy out sinks i) rest bs h₀
        (emit courier policy out sinks h₀)
  | [], i, rest, bs, h₀, _, hy, _ => ⟨hy, [], by simp, by simp [portion]⟩
  | sink :: sinks, i, rest, bs, h₀, hfits, hy, hclear => by
      have hfits' : ∀ sink ∈ sinks, h.Fits n sink :=
        fun s hs => hfits s (List.mem_cons_of_mem _ hs)
      have hportion : h.portion n d policy out (sink :: sinks) i =
          h.explore n (d.hop i policy sink out) ++ h.portion n d policy out sinks (i + 1) := by
        simp [portion, List.zipIdx_cons]
      have hfirst : Keeps behaviour h (d.hop i policy sink out)
          (h.explore n (d.hop i policy sink out))
          (h.portion n d policy out sinks (i + 1) ++ rest) bs h₀ (courier sink out h₀) :=
        hcourier _ _ bs h₀ (hfits sink (List.mem_cons_self ..)) hy
          (fun b hb => hclear b hb i (Nat.le_refl i))
      -- What the first sink adds is contained at its place, so it is clear of the places behind.
      have hlater : ∀ new : List Breach,
          (∀ b ∈ new, (d.hop i policy sink out).route <+: b.delivery.shelter) →
          ∀ b ∈ bs ++ new, ∀ j, i + 1 ≤ j → b.Clear (d.route ++ [⟨j, policy⟩]) := by
        intro new hnew b hb j hj
        rcases List.mem_append.mp hb with hb | hb
        · exact hclear b hb j (by omega)
        · exact Breach.clear_of_ne (by omega) (hnew b hb)
      rw [emit, hportion]
      rcases hcall : courier sink out h₀ with ⟨h₁, o⟩
      rw [hcall] at hfirst
      cases o with
      | tooDeep => exact hfirst.elim
      | done =>
          obtain ⟨hy₁, new, hnew, heq⟩ := hfirst
          have hroute := fun b hb => (hnew b hb).1
          exact Keeps.prepend (fun b hb => .of_hop (hroute b hb)) heq
            (emit_keeps d policy out hcourier sinks (i + 1) rest (bs ++ new) h₁ hfits' hy₁
              (hlater new hroute))
      | fault f =>
          obtain ⟨hy₁, new, l, hnew, hl, heq⟩ := hfirst
          cases policy with
          | failFast =>
              rw [Delivery.shelter_hop_failFast] at hl
              refine ⟨hy₁, new, l, fun b hb => .of_hop (hnew b hb).1, hl, ?_⟩
              rw [List.append_assoc, heq]
              refine undertake_of_skips fun d' hd' =>
                ⟨⟨l, f⟩, List.mem_append_right _ (List.mem_singleton.mpr rfl), ?_⟩
              have hpre : l.shelter <+: d.route := hl ▸ d.shelter_prefix
              exact hpre.trans (route_prefix_of_mem_portion hd')
          | isolate =>
              rw [Delivery.shelter_hop_isolate] at hl
              have hroute : ∀ b ∈ new ++ [⟨l, f⟩],
                  (d.hop i .isolate sink out).route <+: b.delivery.shelter := by
                intro b hb
                rcases List.mem_append.mp hb with hb | hb
                · exact (hnew b hb).1
                · obtain rfl := List.mem_singleton.mp hb
                  exact hl ▸ List.prefix_rfl
              have hcontain : h₁.contain ⟨l, f⟩ = h₁.note (contained f) :=
                if_neg (by simp [hl, Delivery.hop])
              rw [hcontain, List.append_assoc] at heq
              exact Keeps.prepend (fun b hb => .of_hop (hroute b hb)) heq
                (emit_keeps d .isolate out hcourier sinks (i + 1) rest _ _ hfits' (.noted f hy₁)
                  (hlater _ hroute))

/-- A delivery that makes no others is one entry of the agenda. -/
theorem attempt_keeps {d : Delivery} (rest : List Delivery) {bs : List Breach} {h₀ : Hub}
    (hclear : ∀ b ∈ bs, b.Clear d.route) (hy : h.Yields behaviour (h₀.attempt behaviour d).1)
    (hends : (h₀.attempt behaviour d).2 ≠ .tooDeep) :
    Keeps behaviour h d [d] rest bs h₀ (h₀.attempt behaviour d) := by
  have hstep := undertake_cons_of_clear behaviour rest h₀ hclear
  rcases hattempt : h₀.attempt behaviour d with ⟨h₁, o⟩
  rw [hattempt] at hy hends hstep
  cases o with
  | tooDeep => exact absurd rfl hends
  | done => exact ⟨hy, [], by simp, by simpa using hstep⟩
  | fault f => exact ⟨hy, [], d, by simp, rfl, by simpa using hstep⟩

theorem consumer_keeps (hsteady : h.Steady behaviour) {depth : Nat} (hdepth : room ≤ depth)
    {d : Delivery} {c : Consumer} (hsink : d.sink = .consumer c) (hserves : h.Serves c)
    (rest : List Delivery) {bs : List Breach} {h₀ : Hub} (hy : h.Yields behaviour h₀)
    (hclear : ∀ b ∈ bs, b.Clear d.route) :
    Keeps behaviour h d [d] rest bs h₀ (deliver behaviour depth (.consumer c) d.event h₀) := by
  have hends := hsteady.ends hy hserves d.event
  have hcall : deliver behaviour depth (.consumer c) d.event h₀ = h₀.call behaviour c d.event :=
    deliver_mono behaviour hdepth _ _ _ hends
  have hattempt : h₀.attempt behaviour d = h₀.call behaviour c d.event := by
    simp only [attempt, hsink]
  rw [hcall, ← hattempt]
  exact attempt_keeps rest hclear (hattempt ▸ .called d.event hserves hy) (hattempt ▸ hends)

/-- **A delivery does what going through its part of the agenda does.** The induction is on the
depth, which suffices for the levels of stages below; `room` is what the consumers at the ends
need. -/
theorem deliver_keeps (hacyclic : h.Acyclic) (hsteady : h.Steady behaviour) :
    ∀ (n depth : Nat), n + room ≤ depth →
      ∀ (d : Delivery) (rest : List Delivery) (bs : List Breach) (h₀ : Hub),
        h.Fits n d.sink → h.Yields behaviour h₀ → (∀ b ∈ bs, b.Clear d.route) →
        Keeps behaviour h d (h.explore n d) rest bs h₀
          (deliver behaviour depth d.sink d.event h₀) := by
  intro n depth
  induction depth generalizing n with
  | zero =>
      intro hdepth
      exact absurd hdepth (by simp [room])
  | succ depth ih =>
      intro hdepth d rest bs h₀ hfits hy hclear
      have hstages := hsteady.stages_eq hy
      cases hsink : d.sink with
      | consumer c =>
          rw [hsink] at hfits
          have hnil : h.onward d = [] := by simp only [onward, hsink]
          rw [explore_of_onward_nil hnil]
          exact consumer_keeps hsteady (by omega) hsink hfits rest hy hclear
      | stage a =>
          rw [hsink] at hfits
          have hleaf : ∀ o : Outcome, o ≠ .tooDeep → h.onward d = [] →
              h₀.attempt behaviour d = (h₀, o) →
              Keeps behaviour h d (h.explore n d) rest bs h₀ (h₀, o) := by
            intro o ho hnil hattempt
            rw [explore_of_onward_nil hnil, ← hattempt]
            exact attempt_keeps rest hclear (hattempt ▸ hy) (hattempt ▸ ho)
          rw [deliver, pass, hstages]
          cases hs : h.stages[a]? with
          | none =>
              exact hleaf .done (by simp) (by simp only [onward, hsink, hs])
                (by simp only [attempt, hsink, hstages, hs])
          | some s =>
              dsimp only
              cases hout : s.operation.apply d.event with
              | error f =>
                  exact hleaf (.fault f) (by simp) (by simp only [onward, hsink, hs, hout])
                    (by simp only [attempt, hsink, hstages, hs, hout])
              | ok out? =>
                  have hattempt : h₀.attempt behaviour d = (h₀, .done) := by
                    simp only [attempt, hsink, hstages, hs, hout]
                  cases out? with
                  | none =>
                      exact hleaf .done (by simp) (by simp only [onward, hsink, hs, hout])
                        hattempt
                  | some out =>
                      cases n with
                      | zero => exact absurd hfits (not_fits_zero hs)
                      | succ n =>
                          have hexplore : h.explore (n + 1) d =
                              [d] ++ h.portion n d s.policy out s.sinks 0 := by
                            rw [explore, onward_stage hsink hs hout, List.flatMap_map]
                            rfl
                          have hstep : ∀ ds, undertake behaviour ([d] ++ (ds ++ rest)) bs h₀
                              = undertake behaviour (ds ++ rest) (bs ++ []) h₀ := by
                            intro ds
                            rw [List.singleton_append,
                              undertake_cons_of_clear behaviour _ h₀ hclear, hattempt,
                              List.append_nil]
                          rw [hexplore]
                          refine Keeps.prepend (by simp) (hstep _) (emit_keeps d s.policy out
                            (ih n (by omega)) s.sinks 0 rest _ h₀
                            (fun sink hmem => hfits.sink hacyclic hs hmem) hy ?_)
                          intro b hb j _
                          exact (hclear b (by simpa using hb)).hop j s.policy

end

/-! ## Feeding an event -/

def records (bs : List Breach) : Journal :=
  (bs.filter (·.delivery.shelter ≠ [])).map fun b => contained b.fault

/-- More receipts and more log records. -/
def extend (received : List Receipt) (journal : Journal) (h : Hub) : Hub :=
  { h with received := h.received ++ received, journal := h.journal ++ journal }

/-- Each consumer only takes note of an event and then ends as the event decides. -/
def Fated (behaviour : Behaviour) (h : Hub) (fate : Consumer → GatewayEvent → Outcome) : Prop :=
  ∀ {h' c}, h.Yields behaviour h' → h.Serves c → ∀ e,
    h'.call behaviour c e = (h'.receive c.name e, fate c e)

theorem extend_extend (rs rs' : List Receipt) (js js' : Journal) (h : Hub) :
    (h.extend rs js).extend rs' js' = h.extend (rs ++ rs') (js ++ js') := by
  simp [extend]

section

variable {behaviour : Behaviour} {h : Hub}

/-- What feeding an event does, and that the consumers stay steady. -/
theorem accept_eq_follow (hacyclic : h.Acyclic) (hsteady : h.Steady behaviour) (id : StageId)
    (e : GatewayEvent) {h₀ : Hub} (hy : h.Yields behaviour h₀) :
    h₀.accept behaviour id e = follow behaviour (h.explore h.stages.size (.entry id e)) h₀
      ∧ h.Yields behaviour (h₀.accept behaviour id e).1 := by
  have hkeeps := deliver_keeps hacyclic hsteady h.stages.size (h₀.depthLimit + 1)
    (by rw [depthLimit, hsteady.stages_eq hy]; omega) (.entry id e) [] [] h₀
    (fits_size hacyclic id) hy (by simp)
  have hinside : ∀ {new : List Breach}, (∀ b ∈ new, b.Inside (.entry id e)) →
      new.find? (·.delivery.shelter = []) = none := by
    intro new hnew
    rw [List.find?_eq_none]
    intro b hb
    simpa [Delivery.entry] using (hnew b hb).2
  change Keeps _ _ _ _ _ _ _ (h₀.accept behaviour id e) at hkeeps
  rcases haccept : h₀.accept behaviour id e with ⟨h₁, o⟩
  rw [haccept] at hkeeps
  cases o with
  | tooDeep => exact hkeeps.elim
  | done =>
      obtain ⟨hy₁, new, hnew, heq⟩ := hkeeps
      rw [List.append_nil] at heq
      refine ⟨?_, hy₁⟩
      simp only [follow, heq, undertake, List.nil_append, Breach.outcome, hinside hnew]
  | fault f =>
      obtain ⟨hy₁, new, l, hnew, hl, heq⟩ := hkeeps
      rw [List.append_nil] at heq
      have hshelter : l.shelter = [] := hl.trans (by simp [Delivery.shelter, Delivery.entry])
      refine ⟨?_, hy₁⟩
      simp only [follow, heq, undertake, List.nil_append, Breach.outcome, List.find?_append,
        hinside hnew, contain, hshelter, if_true, Option.none_or, List.find?_cons, decide_true]

/-- A consumer that a delivery comes to is a sink of the graph. -/
theorem Agenda.serves {id : StageId} {e : GatewayEvent} {ds : List Delivery}
    (hds : h.Agenda (.entry id e) ds) {d : Delivery} (hd : d ∈ ds) {c : Consumer}
    (hsink : d.sink = .consumer c) : h.Serves c := by
  rcases ((hds.complete d).mp hd).cases_tail with rfl | ⟨d₁, -, hd₁⟩
  · cases hsink
  · obtain ⟨a, s, out, i, sink, -, hs, -, hi, rfl⟩ := mem_onward.mp hd₁
    obtain rfl : sink = .consumer c := hsink
    exact ⟨a, s, hs, List.mem_of_getElem? hi⟩

theorem contain_eq_extend (b : Breach) (h : Hub) : h.contain b = h.extend [] (records [b]) := by
  by_cases hb : b.delivery.shelter = [] <;> simp [contain, records, extend, note, hb]

theorem Yields.contain {h₀ : Hub} (hy : h.Yields behaviour h₀) (b : Breach) :
    h.Yields behaviour (h₀.contain b) := by
  unfold Hub.contain
  split
  · exact hy
  · exact .noted b.fault hy

/-- If each consumer ends as the event decides, one delivery does the same in all hubs that differ
in what was received and logged. -/
theorem attempt_extend (hsteady : h.Steady behaviour) {fate : Consumer → GatewayEvent → Outcome}
    (hfated : h.Fated behaviour fate) (d : Delivery)
    (hserves : ∀ c, d.sink = .consumer c → h.Serves c) :
    ∃ rs o, ∀ {h₀}, h.Yields behaviour h₀ →
      h₀.attempt behaviour d = (h₀.extend rs [], o) ∧ h.Yields behaviour (h₀.extend rs []) := by
  cases hsink : d.sink with
  | consumer c =>
      refine ⟨[⟨c.name, d.event⟩], fate c d.event, fun {h₀} hy => ?_⟩
      have hcall := hfated hy (hserves c hsink) d.event
      have hnext := Yields.called d.event (hserves c hsink) hy
      have hreceive : h₀.receive c.name d.event = h₀.extend [⟨c.name, d.event⟩] [] := by
        simp [receive, extend]
      rw [hcall, hreceive] at hnext
      exact ⟨by simp only [attempt, hsink, hcall, hreceive], hnext⟩
  | stage a =>
      refine ⟨[], (h.attempt behaviour d).2, fun {h₀} hy => ?_⟩
      have hnone : h₀.extend [] [] = h₀ := by simp [extend]
      refine ⟨?_, hnone.symm ▸ hy⟩
      rw [hnone]
      simp only [attempt, hsink, hsteady.stages_eq hy]
      split
      · rfl
      · split <;> rfl

theorem undertake_extend (hsteady : h.Steady behaviour) {fate : Consumer → GatewayEvent → Outcome}
    (hfated : h.Fated behaviour fate) :
    ∀ (ds : List Delivery) (bs : List Breach),
      (∀ d ∈ ds, ∀ c, d.sink = .consumer c → h.Serves c) →
      ∃ rs new, ∀ {h₀}, h.Yields behaviour h₀ →
        undertake behaviour ds bs h₀ = (h₀.extend rs (records new), bs ++ new)
  | [], bs, _ => ⟨[], [], fun _ => by simp [undertake, extend, records]⟩
  | d :: ds, bs, hserves => by
      have hserves' := fun d' hd' => hserves d' (List.mem_cons_of_mem d hd')
      by_cases hskips : ∃ b ∈ bs, b.Skips d
      · obtain ⟨rs, new, hrest⟩ := undertake_extend hsteady hfated ds bs hserves'
        exact ⟨rs, new, fun hy => by rw [undertake, if_pos hskips, hrest hy]⟩
      · obtain ⟨rs, o, hattempt⟩ :=
          attempt_extend hsteady hfated d (hserves d (List.mem_cons_self ..))
        have hdone : (∀ f, o ≠ .fault f) → ∃ rs new, ∀ {h₀}, h.Yields behaviour h₀ →
            undertake behaviour (d :: ds) bs h₀ = (h₀.extend rs (records new), bs ++ new) := by
          intro ho
          obtain ⟨rs', new, hrest⟩ := undertake_extend hsteady hfated ds bs hserves'
          refine ⟨rs ++ rs', new, fun hy => ?_⟩
          obtain ⟨hstep, hy'⟩ := hattempt hy
          rw [undertake, if_neg hskips, hstep]
          cases o with
          | fault f => exact absurd rfl (ho f)
          | done => exact (hrest hy').trans (by rw [extend_extend, List.nil_append])
          | tooDeep => exact (hrest hy').trans (by rw [extend_extend, List.nil_append])
        cases o with
        | done => exact hdone nofun
        | tooDeep => exact hdone nofun
        | fault f =>
            obtain ⟨rs', new, hrest⟩ :=
              undertake_extend hsteady hfated ds (bs ++ [⟨d, f⟩]) hserves'
            refine ⟨rs ++ rs', ⟨d, f⟩ :: new, fun hy => ?_⟩
            obtain ⟨hstep, hy'⟩ := hattempt hy
            have hrecords : records [⟨d, f⟩] ++ records new = records (⟨d, f⟩ :: new) := by
              simp only [records, ← List.map_append, ← List.filter_append, List.singleton_append]
            rw [undertake, if_neg hskips, hstep]
            dsimp only
            rw [hrest (hy'.contain _), contain_eq_extend, extend_extend, extend_extend, ← hrecords]
            simp

/-! ## Containment -/

/-- **Containment of faults.** Feeding an event to a stage of a graph without cycles goes through
the agenda of the event: what a fault skips is what comes after it within its shelter, one error
with the text of the fault is logged for each fault that has a shelter, and feeding ends with the
fault that has none, if there is one. No stage changes, so whatever is fed afterwards has the agenda that it would have had; and if
each consumer ends as the event decides, it is received, logged and ended just as it would have
been before. -/
theorem accept_contains_faults (hacyclic : h.Acyclic) (hsteady : h.Steady behaviour) (id : StageId)
    (e : GatewayEvent) :
    (∀ message, contained (.text message) =
        { level := .error, message := "pipeline sink panicked, continuing with remaining sinks",
          fields := [("reason", message)] })
      ∧ contained .wordless =
        { level := .error, message := "pipeline sink panicked, continuing with remaining sinks",
          fields := [("reason", "unknown panic")] }
      ∧ ∃ ds, h.Agenda (.entry id e) ds
      ∧ h.accept behaviour id e = follow behaviour ds h
      ∧ (h.accept behaviour id e).1.stages = h.stages
      ∧ ∀ id' e', ∃ ds', h.Agenda (.entry id' e') ds'
        ∧ (h.accept behaviour id e).1.Agenda (.entry id' e') ds'
        ∧ h.accept behaviour id' e' = follow behaviour ds' h
        ∧ (h.accept behaviour id e).1.accept behaviour id' e'
          = follow behaviour ds' (h.accept behaviour id e).1
        ∧ ∀ fate, h.Fated behaviour fate → ∃ rs bs,
          h.accept behaviour id' e' = (h.extend rs (records bs), Breach.outcome bs)
          ∧ (h.accept behaviour id e).1.accept behaviour id' e'
            = ((h.accept behaviour id e).1.extend rs (records bs), Breach.outcome bs) := by
  obtain ⟨hfollow, hy⟩ := accept_eq_follow hacyclic hsteady id e .start
  have hstages := hsteady.stages_eq hy
  refine ⟨fun message => ?_, ?_, _, agenda_explore hacyclic id e, hfollow, hstages,
    fun id' e' => ?_⟩
  · rw [contained_eq, Fault.reason_text]
  · rw [contained_eq, Fault.reason_wordless]
  have hagenda := agenda_explore hacyclic id' e'
  have hbefore := (accept_eq_follow hacyclic hsteady id' e' .start).1
  have hafter := (accept_eq_follow hacyclic hsteady id' e' hy).1
  refine ⟨_, hagenda, hagenda.congr hstages, hbefore, hafter, fun fate hfated => ?_⟩
  obtain ⟨rs, bs, hsame⟩ := undertake_extend hsteady hfated _ []
    fun d hd c hsink => hagenda.serves hd hsink
  refine ⟨rs, bs, ?_, ?_⟩
  · rw [hbefore, follow, hsame .start, List.nil_append]
  · rw [hafter, follow, hsame hy, List.nil_append]

end

/-- An isolating stage over a stage that fails fast: below, `x` breaks off with a text before `y`;
above, `w` breaks off without one, after the stage of both and before `z`. -/
def shelteredHub : Hub where
  stages := #[
    { operation := .identity, policy := .isolate,
      sinks := [.stage 1, .consumer ⟨2, "w", fun _ => [.breakOff .wordless]⟩,
        .consumer ⟨3, "z", .none⟩] },
    { operation := .identity, policy := .failFast,
      sinks := [.consumer ⟨0, "x", fun _ => [.breakOff (.text "boom")]⟩,
        .consumer ⟨1, "y", .none⟩] }]

theorem acyclic_shelteredHub : shelteredHub.Acyclic := acyclic_of_ascending (by decide)

theorem steady_shelteredHub : shelteredHub.Steady Consumer.acts := by
  refine steady_of_breakOff fun c e _ hc act hact => ?_
  have hsinks : c = ⟨2, "w", fun _ => [.breakOff .wordless]⟩ ∨ c = ⟨3, "z", .none⟩
      ∨ c = ⟨0, "x", fun _ => [.breakOff (.text "boom")]⟩ ∨ c = ⟨1, "y", .none⟩ := by
    simpa [shelteredHub] using hc.mem
  rcases hsinks with rfl | rfl | rfl | rfl
  · exact ⟨_, List.mem_singleton.mp hact⟩
  · cases hact
  · exact ⟨_, List.mem_singleton.mp hact⟩
  · cases hact

/-- The fault of `x` skips `y` and is logged by the isolating stage with its text, and that of `w`
as one of which nothing is known; `z` is served. -/
theorem accept_contains_faults_shelteredHub :
    shelteredHub.Acyclic ∧ shelteredHub.Steady Consumer.acts
      ∧ ∃ ds, shelteredHub.Agenda (.entry 0 ⟨.resume, 0, .null⟩) ds
        ∧ shelteredHub.accept Consumer.acts 0 ⟨.resume, 0, .null⟩
          = follow Consumer.acts ds shelteredHub
        ∧ shelteredHub.accept Consumer.acts 0 ⟨.resume, 0, .null⟩
          = (shelteredHub.extend
              [⟨"x", .resume, 0, .null⟩, ⟨"w", .resume, 0, .null⟩, ⟨"z", .resume, 0, .null⟩]
              [{ level := .error
                 message := "pipeline sink panicked, continuing with remaining sinks"
                 fields := [("reason", "boom")] },
               { level := .error
                 message := "pipeline sink panicked, continuing with remaining sinks"
                 fields := [("reason", "unknown panic")] }], .done) := by
  obtain ⟨-, -, ds, hds, hfollow, -⟩ := accept_contains_faults acyclic_shelteredHub
    steady_shelteredHub 0 ⟨.resume, 0, .null⟩
  refine ⟨acyclic_shelteredHub, steady_shelteredHub, ds, hds, hfollow, ?_⟩
  have hdepth : 2 ≤ shelteredHub.depthLimit := by decide
  exact pass_extends (deliver_mono Consumer.acts hdepth) 0 _ _ nofun

end Hub

end GatewayClient
