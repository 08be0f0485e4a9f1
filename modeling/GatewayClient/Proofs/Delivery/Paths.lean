import GatewayClient.Pipeline.Build
import GatewayClient.Proofs.Delivery.Containment

/-!
# One call for each path

Where nothing breaks off, feeding an event to a stage calls the consumers once for each path from
the stage to a consumer along which the operations let the event through, in the order of the
places along the paths. A stage that several others have as a sink lies on several paths, and its
consumers are called for each.

The paths (`Path`) and what comes of an event along one (`Operation.composed`) are said without
deliveries. The agenda of the event ties the two together: its deliveries are the ends of the paths
(`path_of_reaches`, `reaches_of_path`), and without breaches going through it is to make its calls
one after the other (`undertake_of_smooth`).
-/

namespace GatewayClient

/-! ## Paths -/

namespace Operation

/-- What comes of an event by operations one after the other, up to the first that lets nothing
through. -/
def composed (e : GatewayEvent) : List Operation → Except Fault (Option GatewayEvent)
  | [] => .ok (some e)
  | o :: rest =>
    match o.apply e with
    | .ok (some out) => composed out rest
    | stopped => stopped

theorem composed_concat {o : Operation} {out : GatewayEvent} :
    ∀ {os : List Operation} {e : GatewayEvent},
      composed e (os ++ [o]) = .ok (some out) ↔
        ∃ between, composed e os = .ok (some between) ∧ o.apply between = .ok (some out)
  | [], e => by
      simp only [List.nil_append, composed]
      constructor
      · intro hout
        refine ⟨e, rfl, ?_⟩
        split at hout
        · next happly => rw [happly]; exact hout
        · exact hout
      · rintro ⟨between, hbetween, hout⟩
        cases hbetween
        rw [hout]
  | o' :: os, e => by
      simp only [List.cons_append, composed]
      cases happly : o'.apply e with
      | error f => simp
      | ok out? =>
          cases out? with
          | none => simp
          | some e' => exact composed_concat

end Operation

namespace Hub

/-- A path from a stage: the places of the sinks along it, the operations of the stages along it
and the sink at its end. -/
inductive Path (h : Hub) (id : StageId) : List Nat → List Operation → Sink → Prop
  | start : Path h id [] [] (.stage id)
  | hop {places : List Nat} {operations : List Operation} {a : StageId} {s : Stage} {i : Nat}
      {sink : Sink} : Path h id places operations (.stage a) → h.stages[a]? = some s →
      s.sinks[i]? = some sink → Path h id (places ++ [i]) (operations ++ [s.operation]) sink

theorem path_of_reaches {h : Hub} {id : StageId} {e : GatewayEvent} {d : Delivery}
    (hreach : h.Reaches (.entry id e) d) :
    ∃ operations, h.Path id d.places operations d.sink
      ∧ Operation.composed e operations = .ok (some d.event) := by
  induction hreach with
  | refl => exact ⟨[], .start, rfl⟩
  | tail _ hmem ih =>
      obtain ⟨operations, hpath, hcomposed⟩ := ih
      obtain ⟨a, s, out, i, sink, hsink, hs, hout, hi, rfl⟩ := mem_onward.mp hmem
      have hplaces : ∀ d : Delivery, (d.hop i s.policy sink out).places = d.places ++ [i] :=
        fun d => by simp [Delivery.places, Delivery.hop]
      rw [hsink] at hpath
      refine ⟨operations ++ [s.operation], ?_, ?_⟩
      · rw [hplaces]
        exact hpath.hop hs hi
      · exact Operation.composed_concat.mpr ⟨_, hcomposed, hout⟩

theorem reaches_of_path {h : Hub} {id : StageId} {e : GatewayEvent} {places : List Nat}
    {operations : List Operation} {sink : Sink} (hpath : h.Path id places operations sink) :
    ∀ {out : GatewayEvent}, Operation.composed e operations = .ok (some out) →
      ∃ d, h.Reaches (.entry id e) d ∧ d.places = places ∧ d.sink = sink ∧ d.event = out := by
  induction hpath with
  | start =>
      intro out hout
      cases hout
      exact ⟨.entry id e, .refl, rfl, rfl, rfl⟩
  | @hop places operations a s i sink hpath hs hi ih =>
      intro out hout
      obtain ⟨between, hbetween, happly⟩ := Operation.composed_concat.mp hout
      obtain ⟨d, hreach, hplaces, hsink, rfl⟩ := ih hbetween
      refine ⟨d.hop i s.policy sink out, hreach.tail ?_, ?_, rfl, rfl⟩
      · exact mem_onward.mpr ⟨a, s, out, i, sink, hsink, hs, happly, hi, rfl⟩
      · simp [← hplaces, Delivery.places, Delivery.hop]

end Hub

/-! ## Calls -/

/-- One call of a consumer, with the places along the path to it. -/
structure Call where
  places : List Nat
  consumer : Consumer
  event : GatewayEvent

/-- The note that a consumer takes when it is called. -/
def Call.receipt (k : Call) : Receipt := ⟨k.consumer.name, k.event⟩

/-- The call that a delivery is, if it comes to a consumer. -/
def Delivery.call? (d : Delivery) : Option Call :=
  match d.sink with
  | .stage _ => none
  | .consumer c => some ⟨d.places, c, d.event⟩

theorem Delivery.call?_eq_some {d : Delivery} {k : Call} :
    d.call? = some k ↔ d.sink = .consumer k.consumer ∧ d.places = k.places ∧ d.event = k.event := by
  obtain ⟨places, c, out⟩ := k
  unfold call?
  split
  · next hsink => simp [hsink]
  · next hsink =>
    simp only [hsink, Option.some.injEq, Call.mk.injEq, Sink.consumer.injEq]
    constructor
    · rintro ⟨hplaces, hc, hout⟩
      exact ⟨hc, hplaces, hout⟩
    · rintro ⟨hc, hplaces, hout⟩
      exact ⟨hplaces, hc, hout⟩

namespace Hub

/-- The calls that an event asks for: one for each path to a consumer along which the operations
let it through, with what comes out, in the order of the places along the paths. -/
structure Docket (h : Hub) (id : StageId) (e : GatewayEvent) (ks : List Call) : Prop where
  ordered : ks.Pairwise fun k k' => List.Lex (· < ·) k.places k'.places
  complete : ∀ k, k ∈ ks ↔ ∃ operations, h.Path id k.places operations (.consumer k.consumer)
    ∧ Operation.composed e operations = .ok (some k.event)

theorem Agenda.docket {h : Hub} {id : StageId} {e : GatewayEvent} {ds : List Delivery}
    (hds : h.Agenda (.entry id e) ds) : h.Docket id e (ds.filterMap Delivery.call?) := by
  refine ⟨?_, fun k => ?_⟩
  · refine hds.ordered.filterMap _ fun d d' hearlier k hk k' hk' => ?_
    obtain ⟨-, hplaces, -⟩ := Delivery.call?_eq_some.mp hk
    obtain ⟨-, hplaces', -⟩ := Delivery.call?_eq_some.mp hk'
    rw [← hplaces, ← hplaces']
    exact hearlier
  · rw [List.mem_filterMap]
    constructor
    · rintro ⟨d, hd, hk⟩
      obtain ⟨hsink, hplaces, hout⟩ := Delivery.call?_eq_some.mp hk
      rw [← hsink, ← hplaces, ← hout]
      exact path_of_reaches ((hds.complete d).mp hd)
    · rintro ⟨operations, hpath, hcomposed⟩
      obtain ⟨d, hreach, hplaces, hsink, hout⟩ := reaches_of_path hpath hcomposed
      exact ⟨d, (hds.complete d).mpr hreach, Delivery.call?_eq_some.mpr ⟨hsink, hplaces, hout⟩⟩

def callAll (behaviour : Behaviour) : List Call → Hub → Hub
  | [], h => h
  | k :: ks, h => callAll behaviour ks (h.call behaviour k.consumer k.event).1

theorem callAll_append (behaviour : Behaviour) :
    ∀ (ks ks' : List Call) (h : Hub),
      h.callAll behaviour (ks ++ ks') = (h.callAll behaviour ks).callAll behaviour ks'
  | [], _, _ => rfl
  | k :: ks, ks', h => callAll_append behaviour ks ks' (h.call behaviour k.consumer k.event).1

/-- The calls of an event, read off its agenda. -/
def callsOf (h : Hub) (id : StageId) (e : GatewayEvent) : List Call :=
  (h.explore h.stages.size (.entry id e)).filterMap Delivery.call?

/-! ## Where nothing breaks off -/

/-- No function of a stage and no call of a consumer breaks off, and the consumers do not change
the graph. -/
structure Smooth (behaviour : Behaviour) (h : Hub) : Prop where
  stages_eq : ∀ {h'}, h.Yields behaviour h' → h'.stages = h.stages
  functions : ∀ {a : StageId} {s : Stage}, h.stages[a]? = some s →
    ∀ e f, s.operation.apply e ≠ .error f
  calls : ∀ {h' c}, h.Yields behaviour h' → h.Serves c → ∀ e, (h'.call behaviour c e).2 = .done

section

variable {behaviour : Behaviour} {h : Hub}

theorem Smooth.steady (hsmooth : h.Smooth behaviour) : h.Steady behaviour :=
  ⟨hsmooth.stages_eq, fun hy hc e => by rw [hsmooth.calls hy hc e]; nofun⟩

/-- Without breaches, going through an agenda is to make its calls one after the other. -/
theorem undertake_of_smooth (hsmooth : h.Smooth behaviour) :
    ∀ (ds : List Delivery) {h₀ : Hub}, h.Yields behaviour h₀ →
      (∀ d ∈ ds, ∀ c, d.sink = .consumer c → h.Serves c) →
      undertake behaviour ds [] h₀ = (h₀.callAll behaviour (ds.filterMap Delivery.call?), [])
  | [], _, _, _ => rfl
  | d :: ds, h₀, hy, hserves => by
      have hserves' := fun d' hd' => hserves d' (List.mem_cons_of_mem d hd')
      rw [undertake_cons_of_clear behaviour ds h₀ (by simp)]
      cases hsink : d.sink with
      | consumer c =>
          have hc := hserves d (List.mem_cons_self ..) c hsink
          have hattempt : h₀.attempt behaviour d = ((h₀.call behaviour c d.event).1, .done) := by
            rw [← hsmooth.calls hy hc d.event]
            simp only [attempt, hsink]
          have hcall : d.call? = some ⟨d.places, c, d.event⟩ := by simp only [Delivery.call?, hsink]
          rw [hattempt, List.filterMap_cons_some hcall]
          exact undertake_of_smooth hsmooth ds (.called d.event hc hy) hserves'
      | stage a =>
          have hattempt : h₀.attempt behaviour d = (h₀, .done) := by
            simp only [attempt, hsink, hsmooth.stages_eq hy]
            split
            · rfl
            · next s hs =>
              split
              · next f hf => exact absurd hf (hsmooth.functions hs d.event f)
              · rfl
          have hcall : d.call? = none := by simp only [Delivery.call?, hsink]
          rw [hattempt, List.filterMap_cons_none hcall]
          exact undertake_of_smooth hsmooth ds hy hserves'

/-- The hubs that calls leave behind have the graph of the first, so the calls of an event are the
same in all of them. -/
theorem accept_eq_callAll (hacyclic : h.Acyclic) (hsmooth : h.Smooth behaviour) (id : StageId)
    (e : GatewayEvent) {h₀ : Hub} (hy : h.Yields behaviour h₀) :
    h₀.accept behaviour id e = (h₀.callAll behaviour (h.callsOf id e), .done)
      ∧ h.Yields behaviour (h₀.callAll behaviour (h.callsOf id e)) := by
  have hagenda := agenda_explore hacyclic id e
  obtain ⟨hfollow, hy'⟩ := accept_eq_follow hacyclic hsmooth.steady id e hy
  rw [follow, undertake_of_smooth hsmooth _ hy fun d hd c => hagenda.serves hd] at hfollow
  rw [hfollow] at hy'
  exact ⟨hfollow, hy'⟩

theorem acceptAll_eq_callAll (hacyclic : h.Acyclic) (hsmooth : h.Smooth behaviour) (id : StageId) :
    ∀ (es : List GatewayEvent) {h₀ : Hub}, h.Yields behaviour h₀ →
      h₀.acceptAll behaviour id es = (h₀.callAll behaviour (es.flatMap (h.callsOf id)), .done)
        ∧ h.Yields behaviour (h₀.callAll behaviour (es.flatMap (h.callsOf id)))
  | [], _, hy => ⟨rfl, hy⟩
  | e :: es, h₀, hy => by
      obtain ⟨haccept, hy'⟩ := accept_eq_callAll hacyclic hsmooth id e hy
      obtain ⟨hrest, hy''⟩ := acceptAll_eq_callAll hacyclic hsmooth id es hy'
      rw [List.flatMap_cons, callAll_append]
      exact ⟨by simp only [acceptAll, haccept, hrest], hy''⟩

/-- Consumers that only take note leave their receipts behind and nothing else. -/
theorem callAll_of_fated (hfated : h.Fated behaviour fun _ _ => .done) :
    ∀ (ks : List Call) {h₀ : Hub}, h.Yields behaviour h₀ → (∀ k ∈ ks, h.Serves k.consumer) →
      h₀.callAll behaviour ks = h₀.extend (ks.map Call.receipt) []
  | [], _, _, _ => by simp [callAll, extend]
  | k :: ks, h₀, hy, hserves => by
      have hc := hserves k (List.mem_cons_self ..)
      have hcall := hfated hy hc k.event
      have hnext := Yields.called k.event hc hy
      rw [callAll, callAll_of_fated hfated ks hnext fun k' hk' =>
        hserves k' (List.mem_cons_of_mem _ hk'), hcall]
      simp [extend, receive, Call.receipt]

theorem Path.serves {id : StageId} {places : List Nat} {operations : List Operation}
    {c : Consumer} (hpath : h.Path id places operations (.consumer c)) : h.Serves c := by
  cases hpath with
  | hop _ hs hi => exact ⟨_, _, hs, List.mem_of_getElem? hi⟩

/-- **The path law.** Feeding an event to a stage makes the calls that the paths from the stage ask
for, each once and in order, and no other; feeding several makes those of the first, then those of
the second and so on. If the consumers only take note, the receipts of these calls are all that
comes of it. -/
theorem accept_serves_paths (hacyclic : h.Acyclic) (hsmooth : h.Smooth behaviour) (id : StageId) :
    ∃ calls : GatewayEvent → List Call, (∀ e, h.Docket id e (calls e))
      ∧ (∀ e, h.accept behaviour id e = (h.callAll behaviour (calls e), .done))
      ∧ (∀ es, h.acceptAll behaviour id es = (h.callAll behaviour (es.flatMap calls), .done)
        ∧ (h.acceptAll behaviour id es).1.stages = h.stages)
      ∧ (h.Fated behaviour (fun _ _ => .done) →
        ∀ es, h.acceptAll behaviour id es
          = (h.extend ((es.flatMap calls).map Call.receipt) [], .done)) := by
  have hdocket := fun e => (agenda_explore hacyclic id e).docket
  have hall := fun es => acceptAll_eq_callAll hacyclic hsmooth id es .start
  refine ⟨h.callsOf id, hdocket, fun e => ?_, fun es => ?_, fun hfated es => ?_⟩
  · exact (accept_eq_callAll hacyclic hsmooth id e .start).1
  · obtain ⟨hcalls, hy⟩ := hall es
    exact ⟨hcalls, by rw [hcalls]; exact hsmooth.stages_eq hy⟩
  · rw [(hall es).1, callAll_of_fated hfated _ .start]
    intro k hk
    obtain ⟨e, -, hk⟩ := List.mem_flatMap.mp hk
    obtain ⟨operations, hpath, -⟩ := ((hdocket e).complete k).mp hk
    exact hpath.serves

/-- A graph whose functions do not break off and whose consumers only take note is smooth. -/
theorem smooth_of_silent (hfunctions : ∀ s ∈ h.stages, ∀ e f, s.operation.apply e ≠ .error f)
    (hsilent : ∀ c e h', h.Serves c → behaviour c e h' = []) :
    h.Smooth behaviour ∧ h.Fated behaviour fun _ _ => .done := by
  have hcall : ∀ {c}, h.Serves c → ∀ e (h' : Hub),
      h'.call behaviour c e = (h'.receive c.name e, .done) := by
    intro c hc e h'
    rw [call_eq_performAll, hsilent c e _ hc]
    rfl
  refine ⟨⟨fun hy => ?_, fun hs => hfunctions _ (Array.mem_of_getElem? hs), ?_⟩, ?_⟩
  · exact (steady_of_breakOff (by simp +contextual [hsilent])).stages_eq hy
  · intro h' c _ hc e
    rw [hcall hc e h']
  · intro h' c _ hc e
    exact hcall hc e h'

end

/-- Two ways to one stage: the first raises the number of the shard, which the stage requires. -/
def diamondHub : Hub where
  stages := #[
    { operation := .identity, policy := .failFast,
      sinks := [.stage 1, .stage 2, .consumer ⟨0, "a", .none⟩] },
    { operation := .map fun e => .ok { e with shard := e.shard + 1 }, policy := .failFast,
      sinks := [.stage 2, .stage 2] },
    { operation := .filter fun e => .ok (0 < e.shard), policy := .isolate,
      sinks := [.consumer ⟨1, "b", .none⟩] }]

theorem smooth_diamondHub :
    diamondHub.Smooth Consumer.acts ∧ diamondHub.Fated Consumer.acts fun _ _ => .done := by
  refine smooth_of_silent (fun s hs e f => ?_) (fun c e _ hc => ?_)
  · rcases show s = _ ∨ s = _ ∨ s = _ by simpa [diamondHub] using hs with rfl | rfl | rfl
    · exact nofun
    · exact nofun
    · simp [Operation.apply, Except.map]
  · rcases show c = _ ∨ c = _ by simpa [diamondHub] using hc.mem with rfl | rfl
    · rfl
    · rfl

/-- The stage that is twice a sink of the raising one is reached twice with what that one makes;
directly it lets nothing through. -/
theorem accept_serves_paths_diamondHub :
    diamondHub.Acyclic ∧ diamondHub.Smooth Consumer.acts
      ∧ diamondHub.Fated Consumer.acts (fun _ _ => .done)
      ∧ ∃ ks, diamondHub.Docket 0 ⟨.resume, 0, .null⟩ ks
        ∧ diamondHub.accept Consumer.acts 0 ⟨.resume, 0, .null⟩
          = (diamondHub.callAll Consumer.acts ks, .done)
        ∧ ks.map Call.receipt
          = [⟨"b", .resume, 1, .null⟩, ⟨"b", .resume, 1, .null⟩, ⟨"a", .resume, 0, .null⟩] := by
  have hacyclic : diamondHub.Acyclic := acyclic_of_ascending (by decide)
  obtain ⟨hsmooth, hfated⟩ := smooth_diamondHub
  obtain ⟨calls, hdocket, hone, -, hall⟩ := accept_serves_paths hacyclic hsmooth 0
  have hshort : diamondHub.pass (deliver Consumer.acts 3) 0 ⟨.resume, 0, .null⟩
      = (diamondHub.extend [⟨"b", .resume, 1, .null⟩, ⟨"b", .resume, 1, .null⟩,
          ⟨"a", .resume, 0, .null⟩] [], .done) := rfl
  have hrun := pass_extends (deliver_mono Consumer.acts (show 3 ≤ diamondHub.depthLimit by decide))
    0 ⟨.resume, 0, .null⟩ diamondHub (by rw [hshort]; nofun)
  have hone' := hall hfated [⟨.resume, 0, .null⟩]
  rw [acceptAll, accept, hrun, hshort] at hone'
  refine ⟨hacyclic, hsmooth, hfated, _, hdocket _, hone _, ?_⟩
  have hreceived := congrArg (fun r => r.1.received) hone'
  simpa [acceptAll, extend, diamondHub] using hreceived.symm

end Hub

end GatewayClient
