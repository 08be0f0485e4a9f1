import GatewayClient.Proofs.Delivery.Paths
import GatewayClient.Proofs.Delivery.Routing

/-!
# Trees that isolate

The policy of a pipeline is that of its root, handed on from stage to stage: a stage that is derived
has the policy of its parent and keeps it, whatever is built and delivered afterwards
(`isolates_kinAfter`). A stage that is made alone and attached later has a policy of its own.

What a consumer can rely on is said of the hops that lead to it (`Delivery.Assured`): each is made
by an isolating stage, or to the first sink of a stage, where no sink comes before that could break
off. `deliver_serves` shows that such a delivery is made, whatever becomes of the others. The
induction is on the levels of stages below; an isolating stage goes on after a sink that broke off,
and of a stage that fails fast only the first sink counts.
-/

namespace GatewayClient

/-! ## Who has the policy of the root -/

/-- The stages that a step makes behind given ones. -/
def HubStep.offspring (h : Hub) (kin : List StageId) : HubStep → List StageId
  | .derive parent _ _ =>
    match h.find? parent with
    | .ok p => if p ∈ kin then [h.stages.size] else []
    | .error _ => []
  | .chain parent _ length _ =>
    match h.find? parent with
    | .ok p => if p ∈ kin then (List.range length).map (h.stages.size + ·) else []
    | .error _ => []
  | _ => []

namespace Hub

/-- Given stages and those that steps make behind them, directly or behind one another. -/
def kinAfter (behaviour : Behaviour) : List HubStep → List StageId → Hub → List StageId
  | [], kin, _ => kin
  | s :: rest, kin, h => kinAfter behaviour rest (kin ++ s.offspring h kin) (h.step behaviour s).1

def Isolates (h : Hub) (id : StageId) : Prop :=
  ∃ s, h.stages[id]? = some s ∧ s.policy = .isolate

section

variable {behaviour : Behaviour} {h h' : Hub}

theorem Isolates.grows {id : StageId} (hgrows : h.Grows h') (hid : h.Isolates id) :
    h'.Isolates id := by
  obtain ⟨s, hs, hpolicy⟩ := hid
  obtain ⟨more, hs'⟩ := hgrows id s hs
  exact ⟨_, hs', hpolicy⟩

theorem derive_isolates {parent : StageId} (operation : Operation) (hparent : h.Isolates parent) :
    (h.derive parent operation).2.Isolates h.stages.size := by
  obtain ⟨s, hs, hpolicy⟩ := hparent
  have hnew : (h.addStage operation .isolate).2.Isolates h.stages.size :=
    ⟨{ operation, policy := .isolate }, by simp [addStage], rfl⟩
  rw [derive, hs, Option.map_some, Option.getD_some, hpolicy]
  exact hnew.grows (attach_grows parent _ _)

theorem chain_isolates (operation : Operation) :
    ∀ (n : Nat) {id : StageId} {h : Hub}, h.Isolates id → ∀ k < n,
      (h.chain operation n id).2.Isolates (h.stages.size + k)
  | n + 1, id, h, hid, k, hk => by
      have hnext := derive_isolates operation hid
      have hsize : (h.derive id operation).2.stages.size = h.stages.size + 1 := by
        simp [derive, addStage, attach]
      cases k with
      | zero => exact hnext.grows (chain_grows operation n _ _)
      | succ k =>
          have hrest := chain_isolates operation n hnext k (by omega)
          rw [hsize, Nat.add_right_comm] at hrest
          exact hrest

theorem step_isolates {kin : List StageId} (hkin : ∀ p ∈ kin, h.Isolates p) (s : HubStep) :
    ∀ id ∈ s.offspring h kin, (h.step behaviour s).1.Isolates id := by
  intro id hid
  cases s with
  | derive parent name operation =>
      simp only [HubStep.offspring, step, withStage] at hid ⊢
      split at hid
      · next p hp =>
        split at hid
        · next hmem =>
          obtain rfl := List.mem_singleton.mp hid
          rw [hp]
          exact derive_isolates operation (hkin p hmem)
        · cases hid
      · cases hid
  | chain parent name length operation =>
      simp only [HubStep.offspring, step, withStage] at hid ⊢
      split at hid
      · next p hp =>
        split at hid
        · next hmem =>
          obtain ⟨k, hk, rfl⟩ := List.mem_map.mp hid
          rw [hp]
          exact chain_isolates operation length (hkin p hmem) k (List.mem_range.mp hk)
        · cases hid
      · cases hid
  | _ => cases hid

/-- Stages that are derived from isolating ones isolate, and go on to. -/
theorem isolates_kinAfter (steps : List HubStep) :
    ∀ {kin : List StageId} {h : Hub}, (∀ p ∈ kin, h.Isolates p) →
      ∀ id ∈ kinAfter behaviour steps kin h, (h.run behaviour steps).Isolates id := by
  induction steps with
  | nil => exact fun hkin => hkin
  | cons s rest ih =>
      intro kin h hkin
      refine ih fun p hp => ?_
      rcases List.mem_append.mp hp with hold | hnew
      · exact (hkin p hold).grows (step_grows behaviour h s)
      · exact step_isolates hkin s p hnew

end

end Hub

/-! ## Deliveries that nothing cuts off -/

/-- No delivery beside the way can cut this one off. -/
def Delivery.Assured (d : Delivery) : Prop :=
  ∀ hop ∈ d.route, hop.policy = .isolate ∨ hop.place = 0

instance (d : Delivery) : Decidable d.Assured :=
  inferInstanceAs (Decidable (∀ hop ∈ d.route, _ ∨ _))

theorem Delivery.assured_hop {d : Delivery} {i : Nat} {policy : DeliveryPolicy} {sink : Sink}
    {out : GatewayEvent} :
    (d.hop i policy sink out).Assured ↔ d.Assured ∧ (policy = .isolate ∨ i = 0) := by
  simp [Assured, hop, or_imp, forall_and]

theorem Delivery.Assured.of_prefix {d d' : Delivery} (hpre : d.route <+: d'.route)
    (hassured : d'.Assured) : d.Assured :=
  fun hop hmem => hassured hop (hpre.subset hmem)

namespace Hub

/-- What consumers are to receive of deliveries. -/
def dues (ds : List Delivery) : List Receipt :=
  ((ds.filter (·.Assured)).filterMap Delivery.call?).map Call.receipt

theorem dues_append (ds ds' : List Delivery) : dues (ds ++ ds') = dues ds ++ dues ds' := by
  simp [dues]

theorem mem_dues {ds : List Delivery} {d : Delivery} {k : Call} (hd : d ∈ ds)
    (hassured : d.Assured) (hcall : d.call? = some k) : k.receipt ∈ dues ds :=
  List.mem_map_of_mem (List.mem_filterMap.mpr
    ⟨d, List.mem_filter.mpr ⟨hd, decide_eq_true hassured⟩, hcall⟩)

theorem dues_eq_nil {ds : List Delivery} (hds : ∀ d ∈ ds, ¬ d.Assured) : dues ds = [] := by
  have hnone : ds.filter (·.Assured) = [] := by simpa using hds
  rw [dues, hnone]
  rfl

/-- What was received between two hubs has receipts in it, in their order. -/
def Receives (h : Hub) (rs : List Receipt) (h' : Hub) : Prop :=
  ∃ more, h'.received = h.received ++ more ∧ rs.Sublist more

section

variable {h h' h'' : Hub} {rs rs' : List Receipt}

theorem Receives.refl (h : Hub) : h.Receives [] h := ⟨[], by simp, .slnil⟩

theorem Receives.trans (hfirst : h.Receives rs h') (hsecond : h'.Receives rs' h'') :
    h.Receives (rs ++ rs') h'' := by
  obtain ⟨more, hmore, hrs⟩ := hfirst
  obtain ⟨more', hmore', hrs'⟩ := hsecond
  exact ⟨more ++ more', by rw [hmore', hmore, List.append_assoc], hrs.append hrs'⟩

theorem Receives.of_stretch {around : Nat → Prop} {t : Nat} {l : List Entry}
    (hstretch : Stretch around t h l h') : h.Receives [] h' :=
  ⟨_, hstretch.received, List.nil_sublist _⟩

theorem emit_receives (behaviour : Behaviour) (depth : Nat) (policy : DeliveryPolicy)
    (e : GatewayEvent) (sinks : List Sink) (h : Hub) :
    h.Receives [] (emit (deliver behaviour depth) policy e sinks h).1 :=
  .of_stretch (visitEntries_tells (deliver_faithful behaviour depth) policy e sinks h
    (Nat.lt_succ_self 0)).stretch

theorem deliver_receives (behaviour : Behaviour) (depth : Nat) (sink : Sink) (e : GatewayEvent)
    (h : Hub) : (h.arrive sink e).Receives [] (deliver behaviour depth sink e h).1 :=
  .of_stretch (deliver_faithful behaviour depth sink e h 0)

end

section

variable {behaviour : Behaviour} {h : Hub}

/-- A delivery to a consumer is received, whatever the consumer does then. -/
theorem consumer_serves (depth : Nat) {d : Delivery} {c : Consumer} (hsink : d.sink = .consumer c)
    (h₀ : Hub) : h₀.Receives (dues [d]) (deliver behaviour depth (.consumer c) d.event h₀).1 := by
  have harrive : h₀.Receives (dues [d]) (h₀.arrive (.consumer c) d.event) := by
    refine ⟨[⟨c.name, d.event⟩], rfl, ?_⟩
    by_cases hassured : d.Assured
    · have hcall : d.call? = some ⟨d.places, c, d.event⟩ := by simp only [Delivery.call?, hsink]
      simp [dues, hassured, hcall, Call.receipt]
    · rw [dues_eq_nil (by simpa using hassured)]
      exact List.nil_sublist _
  have hwhole := harrive.trans (deliver_receives behaviour depth (.consumer c) d.event h₀)
  rwa [List.append_nil] at hwhole

/-- A delivery to a stage is no call. -/
theorem dues_cons_stage {d : Delivery} {a : StageId} (hsink : d.sink = .stage a)
    (ds : List Delivery) : dues (d :: ds) = dues ds := by
  have hcall : d.call? = none := by simp only [Delivery.call?, hsink]
  by_cases hassured : d.Assured <;> simp [dues, hassured, hcall]

/-- Nothing is due behind the first sink of a stage that fails fast. -/
theorem dues_portion_failFast {n : Nat} {d : Delivery} {out : GatewayEvent} {sinks : List Sink}
    {i : Nat} (hi : 0 < i) : dues (h.portion n d .failFast out sinks i) = [] := by
  refine dues_eq_nil fun d' hd' hassured => ?_
  obtain ⟨⟨sink, j⟩, hj, hmem⟩ := List.mem_flatMap.mp hd'
  have hplace := (Delivery.assured_hop.mp (hassured.of_prefix (route_prefix_of_mem_explore hmem))).2
  have hle := (List.mem_zipIdx hj).1
  rcases hplace with hpolicy | hzero
  · cases hpolicy
  · omega

/-- A courier that makes a delivery and those that come of it, and leaves the consumers steady. -/
structure Delivers (behaviour : Behaviour) (h : Hub) (n : Nat) (courier : Courier) : Prop where
  serves : ∀ (d : Delivery) {h₀ : Hub}, h.Fits n d.sink → h.Yields behaviour h₀ →
    h₀.Receives (dues (h.explore n d)) (courier d.sink d.event h₀).1
  ends : ∀ (d : Delivery) {h₀ : Hub}, h.Fits n d.sink → h.Yields behaviour h₀ →
    h.Yields behaviour (courier d.sink d.event h₀).1 ∧ (courier d.sink d.event h₀).2 ≠ .tooDeep

/-- An isolating stage serves all of its sinks. The induction is on the sinks that are left. -/
theorem emit_isolate_serves {courier : Courier} {n : Nat}
    (hcourier : Delivers behaviour h n courier) (d : Delivery) (out : GatewayEvent) :
    ∀ (sinks : List Sink) (i : Nat) (h₀ : Hub),
      (∀ sink ∈ sinks, h.Fits n sink) → h.Yields behaviour h₀ →
      h₀.Receives (dues (h.portion n d .isolate out sinks i))
        (emit courier .isolate out sinks h₀).1 ∧ (emit courier .isolate out sinks h₀).2 = .done
  | [], _, h₀, _, _ => ⟨.refl h₀, rfl⟩
  | sink :: sinks, i, h₀, hfits, hy => by
      have hsink := hfits sink List.mem_cons_self
      have hfits' := fun s hs => hfits s (List.mem_cons_of_mem _ hs)
      have hserves := hcourier.serves (d.hop i .isolate sink out) hsink hy
      have hends := hcourier.ends (d.hop i .isolate sink out) hsink hy
      have hportion : h.portion n d .isolate out (sink :: sinks) i =
          h.explore n (d.hop i .isolate sink out) ++ h.portion n d .isolate out sinks (i + 1) := by
        simp [portion, List.zipIdx_cons]
      rw [emit, hportion, dues_append]
      change h₀.Receives _ (courier sink out h₀).1 at hserves
      change h.Yields behaviour (courier sink out h₀).1 ∧ (courier sink out h₀).2 ≠ _ at hends
      rcases hcall : courier sink out h₀ with ⟨h₁, o⟩
      rw [hcall] at hserves hends
      cases o with
      | tooDeep => exact absurd rfl hends.2
      | done =>
          obtain ⟨hrest, hdone⟩ :=
            emit_isolate_serves hcourier d out sinks (i + 1) h₁ hfits' hends.1
          exact ⟨hserves.trans hrest, hdone⟩
      | fault f =>
          obtain ⟨hrest, hdone⟩ := emit_isolate_serves hcourier d out sinks (i + 1) _ hfits'
            (.noted f hends.1)
          exact ⟨hserves.trans hrest, hdone⟩

/-- A stage that fails fast serves its first sink. -/
theorem emit_failFast_serves {depth n : Nat}
    (hcourier : Delivers behaviour h n (deliver behaviour depth)) (d : Delivery)
    (out : GatewayEvent) (sinks : List Sink) {h₀ : Hub}
    (hfits : ∀ sink ∈ sinks, h.Fits n sink) (hy : h.Yields behaviour h₀) :
    h₀.Receives (dues (h.portion n d .failFast out sinks 0))
      (emit (deliver behaviour depth) .failFast out sinks h₀).1 := by
  cases sinks with
  | nil => exact .refl h₀
  | cons sink sinks =>
      have hserves := hcourier.serves (d.hop 0 .failFast sink out)
        (hfits sink List.mem_cons_self) hy
      have hportion : h.portion n d .failFast out (sink :: sinks) 0 =
          h.explore n (d.hop 0 .failFast sink out) ++ h.portion n d .failFast out sinks 1 := by
        simp [portion, List.zipIdx_cons]
      rw [emit, hportion, dues_append, dues_portion_failFast Nat.one_pos]
      change h₀.Receives _ (deliver behaviour depth sink out h₀).1 at hserves
      rcases hcall : deliver behaviour depth sink out h₀ with ⟨h₁, o⟩
      rw [hcall] at hserves
      have hnothing := hserves.trans (.refl h₁)
      cases o with
      | done => exact hserves.trans (emit_receives behaviour depth .failFast out sinks h₁)
      | fault f => exact hnothing
      | tooDeep => exact hnothing

/-- **Assured deliveries are made**, whatever the consumers do. -/
theorem deliver_serves (hacyclic : h.Acyclic) (hsteady : h.Steady behaviour) :
    ∀ (n depth : Nat), n + room ≤ depth → Delivers behaviour h n (deliver behaviour depth) := by
  intro n depth
  induction depth generalizing n with
  | zero =>
      intro hdepth
      exact absurd hdepth (by simp [room])
  | succ depth ih =>
      intro hdepth
      refine ⟨fun d h₀ hfits hy => ?serves, fun d h₀ hfits hy => ?ends⟩
      case ends =>
        have hkeeps := deliver_keeps hacyclic hsteady n (depth + 1) hdepth d [] [] h₀ hfits hy
          (by simp)
        rcases hcall : deliver behaviour (depth + 1) d.sink d.event h₀ with ⟨h₁, o⟩
        rw [hcall] at hkeeps
        cases o with
        | done => exact ⟨hkeeps.1, by simp⟩
        | fault f => exact ⟨hkeeps.1, by simp⟩
        | tooDeep => exact hkeeps.elim
      case serves =>
        cases hsink : d.sink with
        | consumer c =>
            have hnil : h.onward d = [] := by simp only [onward, hsink]
            rw [explore_of_onward_nil hnil]
            exact consumer_serves (depth + 1) hsink h₀
        | stage a =>
            rw [hsink] at hfits
            have hleaf : h.onward d = [] → dues (h.explore n d) = [] := by
              intro hnil
              rw [explore_of_onward_nil hnil, dues_cons_stage hsink]
              rfl
            rw [deliver, pass, hsteady.stages_eq hy]
            cases hs : h.stages[a]? with
            | none =>
                rw [hleaf (by simp only [onward, hsink, hs])]
                exact .refl h₀
            | some s =>
                dsimp only
                cases hout : s.operation.apply d.event with
                | error f =>
                    rw [hleaf (by simp only [onward, hsink, hs, hout])]
                    exact .refl h₀
                | ok out? =>
                    cases out? with
                    | none =>
                        rw [hleaf (by simp only [onward, hsink, hs, hout])]
                        exact .refl h₀
                    | some out =>
                        cases n with
                        | zero => exact absurd hfits (not_fits_zero hs)
                        | succ n =>
                            have hexplore : h.explore (n + 1) d =
                                d :: h.portion n d s.policy out s.sinks 0 := by
                              rw [explore, onward_stage hsink hs hout, List.flatMap_map]
                              rfl
                            have hsinks : ∀ sink ∈ s.sinks, h.Fits n sink :=
                              fun sink hmem => hfits.sink hacyclic hs hmem
                            have hcourier := ih n (by omega)
                            rw [hexplore, dues_cons_stage hsink]
                            cases hpolicy : s.policy with
                            | isolate =>
                                exact (emit_isolate_serves hcourier d out s.sinks 0 h₀ hsinks hy).1
                            | failFast =>
                                exact emit_failFast_serves hcourier d out s.sinks hsinks hy

/-- One delivery comes of another by way of given stages only. -/
def ReachesBy (h : Hub) (kin : List StageId) : Delivery → Delivery → Prop :=
  Relation.ReflTransGen fun d d' => d' ∈ h.onward d ∧ ∃ a ∈ kin, d.sink = .stage a

theorem reaches_of_reachesBy {kin : List StageId} {d d' : Delivery}
    (hreach : h.ReachesBy kin d d') : h.Reaches d d' := by
  induction hreach with
  | refl => exact .refl
  | tail _ hstep ih => exact ih.tail hstep.1

theorem assured_of_reachesBy {kin : List StageId} (hkin : ∀ a ∈ kin, h.Isolates a) {id : StageId}
    {e : GatewayEvent} {d : Delivery} (hreach : h.ReachesBy kin (.entry id e) d) : d.Assured := by
  induction hreach with
  | refl => exact List.forall_mem_nil _
  | tail _ hstep ih =>
      obtain ⟨hmem, a, ha, hsink⟩ := hstep
      obtain ⟨s, hs, hpolicy⟩ := hkin a ha
      obtain ⟨a', s', out, i, sink, hsink', hs', -, -, rfl⟩ := mem_onward.mp hmem
      cases hsink.symm.trans hsink'
      cases hs.symm.trans hs'
      exact Delivery.assured_hop.mpr ⟨ih, Or.inl hpolicy⟩

/-- The stage with which a pipeline was started, later on. -/
theorem root_after (behaviour : Behaviour) (name : String) (policy : DeliveryPolicy)
    (steps : List HubStep) (h : Hub) :
    ∃ sinks, (h.run behaviour (.start name policy :: steps)).stages[h.stages.size]? =
      some { operation := .identity, policy, sinks } := by
  have hnew : (h.step behaviour (.start name policy)).1.stages[h.stages.size]? =
      some { operation := .identity, policy } := by
    simp [step, addStage, silent, bind]
  obtain ⟨more, hlater⟩ := run_grows behaviour steps _ _ _ hnew
  exact ⟨more, hlater⟩

/-- **A tree that isolates.** A pipeline is started with the policy to isolate, and any steps
follow. Feeding an event to its root comes to an end, and the consumers receive it from every
delivery of the agenda that nothing beside its way can cut off, whatever the others do: from every
one that is reached by way of stages derived from the root, and behind a stage that was attached, as
long as the way takes the first of its sinks. -/
theorem isolated_tree_serves {name : String} {steps : List HubStep} {h₀ : Hub}
    (hbuilt : h₀.run behaviour (.start name .isolate :: steps) = h) (hacyclic : h.Acyclic)
    (hsteady : h.Steady behaviour) (e : GatewayEvent) :
    ∃ ds, h.Agenda (.entry h₀.stages.size e) ds
      ∧ (h.accept behaviour h₀.stages.size e).2 = .done
      ∧ h.Receives (dues ds) (h.accept behaviour h₀.stages.size e).1
      ∧ ∀ d, h.ReachesBy (kinAfter behaviour steps [h₀.stages.size]
          (h₀.step behaviour (.start name .isolate)).1) (.entry h₀.stages.size e) d →
        d ∈ ds ∧ d.Assured := by
  obtain ⟨sinks, hroot⟩ := root_after behaviour name .isolate steps h₀
  rw [hbuilt] at hroot
  have hagenda := agenda_explore hacyclic h₀.stages.size e
  have hfits := fits_size hacyclic h₀.stages.size
  have hdepth : h.stages.size + room ≤ h.depthLimit + 1 := by rw [depthLimit]; omega
  refine ⟨_, hagenda, ?_, ?_, fun d hreach => ?_⟩
  · cases hsize : h.stages.size with
    | zero =>
        rw [Array.getElem?_eq_none (by omega)] at hroot
        cases hroot
    | succ n =>
        have hcourier := deliver_serves hacyclic hsteady n h.depthLimit (by rw [depthLimit]; omega)
        rw [hsize] at hfits
        have hdone := (emit_isolate_serves hcourier (.entry h₀.stages.size e) e sinks 0 h
          (fun sink hmem => hfits.sink hacyclic hroot hmem) .start).2
        rw [accept, pass, hroot]
        exact hdone
  · exact (deliver_serves hacyclic hsteady _ _ hdepth).serves (.entry h₀.stages.size e) hfits .start
  · have hkin : ∀ a ∈ kinAfter behaviour steps [h₀.stages.size]
        (h₀.step behaviour (.start name .isolate)).1, h.Isolates a := by
      rw [← hbuilt]
      refine isolates_kinAfter steps fun p hp => ?_
      obtain rfl := List.mem_singleton.mp hp
      exact ⟨{ operation := .identity, policy := .isolate },
        by simp [step, addStage, silent, bind], rfl⟩
    exact ⟨(hagenda.complete d).mpr (reaches_of_reachesBy hreach), assured_of_reachesBy hkin hreach⟩

end

/-! A stage that is derived goes on after a consumer that breaks off. -/

def derivedSteps : List HubStep :=
  [.derive "root" "stage" (.map .ok), .consume "stage" "bad" fun _ => [.breakOff .wordless],
   .consume "stage" "good" .none]

def derivedHub : Hub := run Consumer.acts (.start "root" .isolate :: derivedSteps) {}

theorem stages_derivedHub : derivedHub.stages = #[
    { operation := .identity, policy := .isolate, sinks := [.stage 1] },
    { operation := .map .ok, policy := .isolate,
      sinks := [.consumer ⟨0, "bad", fun _ => [.breakOff .wordless]⟩,
        .consumer ⟨1, "good", .none⟩] }] := rfl

theorem steady_derivedHub : derivedHub.Steady Consumer.acts := by
  refine steady_of_breakOff fun c e _ hc act hact => ?_
  have hmem := hc.mem
  rw [stages_derivedHub] at hmem
  rcases show c = _ ∨ c = _ by simpa using hmem with rfl | rfl
  · exact ⟨_, List.mem_singleton.mp hact⟩
  · cases hact

theorem isolated_tree_serves_derived :
    derivedHub.Acyclic ∧ derivedHub.Steady Consumer.acts
      ∧ (derivedHub.accept Consumer.acts 0 ⟨.resume, 0, .null⟩).2 = .done
      ∧ ⟨"good", .resume, 0, .null⟩
        ∈ (derivedHub.accept Consumer.acts 0 ⟨.resume, 0, .null⟩).1.received := by
  have hacyclic : derivedHub.Acyclic :=
    acyclic_of_ascending (by rw [ascending, stages_derivedHub]; decide)
  have hbuilt : run Consumer.acts (.start "root" .isolate :: derivedSteps) {} = derivedHub := rfl
  obtain ⟨ds, -, hdone, ⟨more, hmore, hdues⟩, hkin⟩ :=
    isolated_tree_serves hbuilt hacyclic steady_derivedHub ⟨.resume, 0, .null⟩
  let entry : Delivery := .entry 0 ⟨.resume, 0, .null⟩
  let between : Delivery := entry.hop 0 .isolate (.stage 1) entry.event
  let good : Delivery := between.hop 1 .isolate (.consumer ⟨1, "good", .none⟩) entry.event
  have hbetween : between ∈ derivedHub.onward entry :=
    mem_onward.mpr ⟨0, _, _, 0, _, rfl, rfl, rfl, rfl, rfl⟩
  have hgood : good ∈ derivedHub.onward between :=
    mem_onward.mpr ⟨1, _, _, 1, _, rfl, rfl, rfl, rfl, rfl⟩
  obtain ⟨hmem, hassured⟩ := hkin good <|
    (Relation.ReflTransGen.single ⟨hbetween, 0, List.mem_of_getElem? (i := 0) rfl, rfl⟩).tail
      ⟨hgood, 1, List.mem_of_getElem? (i := 1) rfl, rfl⟩
  refine ⟨hacyclic, steady_derivedHub, hdone, ?_⟩
  change (derivedHub.accept Consumer.acts 0 ⟨.resume, 0, .null⟩).1.received = _ at hmore
  rw [hmore]
  exact List.mem_append_right _ (hdues.subset (mem_dues hmem hassured rfl))

/-! A stage that is attached does not, though the root isolates. -/

def attachedSteps : List HubStep :=
  [.standalone "stage" (.map .ok), .attach "root" "stage",
   .consume "stage" "bad" fun _ => [.breakOff .wordless], .consume "stage" "good" .none]

def attachedHub : Hub := run Consumer.acts (.start "root" .isolate :: attachedSteps) {}

theorem stages_attachedHub : attachedHub.stages = #[
    { operation := .identity, policy := .isolate, sinks := [.stage 1] },
    { operation := .map .ok, policy := .failFast,
      sinks := [.consumer ⟨0, "bad", fun _ => [.breakOff .wordless]⟩,
        .consumer ⟨1, "good", .none⟩] }] := rfl

/-- The operations let the event through to `good`, and only `bad` receives it. -/
theorem attached_stage_cuts_off :
    attachedHub.Isolates 0
      ∧ (∃ d, attachedHub.Reaches (.entry 0 ⟨.resume, 0, .null⟩) d
        ∧ d.sink = .consumer ⟨1, "good", .none⟩ ∧ d.event = ⟨.resume, 0, .null⟩)
      ∧ (attachedHub.accept Consumer.acts 0 ⟨.resume, 0, .null⟩).1.received
        = [⟨"bad", .resume, 0, .null⟩] := by
  let entry : Delivery := .entry 0 ⟨.resume, 0, .null⟩
  let between : Delivery := entry.hop 0 .isolate (.stage 1) entry.event
  let good : Delivery := between.hop 1 .failFast (.consumer ⟨1, "good", .none⟩) entry.event
  have hbetween : between ∈ attachedHub.onward entry :=
    mem_onward.mpr ⟨0, _, _, 0, _, rfl, rfl, rfl, rfl, rfl⟩
  have hgood : good ∈ attachedHub.onward between :=
    mem_onward.mpr ⟨1, _, _, 1, _, rfl, rfl, rfl, rfl, rfl⟩
  refine ⟨⟨_, rfl, rfl⟩, ⟨good, .tail (.single hbetween) hgood, rfl, rfl⟩, ?_⟩
  have hshort : attachedHub.pass (deliver Consumer.acts 3) 0 ⟨.resume, 0, .null⟩
      = ((attachedHub.receive "bad" ⟨.resume, 0, .null⟩).note (contained .wordless), .done) := rfl
  have hdepth : 3 ≤ attachedHub.depthLimit := by rw [depthLimit, stages_attachedHub]; decide
  rw [accept, pass_extends (deliver_mono Consumer.acts hdepth) 0 _ _ (by rw [hshort]; simp),
    hshort]
  rfl

end Hub

end GatewayClient
