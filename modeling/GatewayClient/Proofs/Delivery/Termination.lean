import GatewayClient.Proofs.Delivery.Ascending
import GatewayClient.Proofs.Delivery.Depth

/-!
# Deliveries come to an end

Sinks may be appended while they are served, so a delivery does not follow a fixed tree. What bounds
it are the links between stages, which consumers that only append consumers leave as they are
(`SameLinks`), and the snapshot that each emission takes. In a graph without cycles the height of a
stage falls along every link, so a delivery nests no deeper than there are stages.

How often a stage is entered is read off the chronicle (`entered`). The stages at the ends of all
paths from a stage, depth first, are its tour (`Hub.tour`), and `pass_stays` shows that the stages
that a delivery enters are a sublist of the tour: operations let less through and faults cut
emissions short, but nothing adds to it. `count_tour` counts the paths.
-/

namespace GatewayClient

/-- An act that neither links stages nor brings events to them. -/
def Act.Plain : Act → Prop
  | .breakOff _ | .addConsumer .. | .addConsumerOnce .. | .register .. => True
  | _ => False

theorem Act.Plain.not_emits {a : Act} (ha : a.Plain) : ¬ a.Emits := by
  cases a with
  | feed | dispatch => exact ha.elim
  | _ => exact id

/-- The stages that are entered in the course of a chronicle. -/
def entered (l : List Entry) : List StageId :=
  l.filterMap fun k =>
    match k.moment with
    | .visited _ sink _ => sink.stage?
    | _ => none

@[simp] theorem entered_append (l l' : List Entry) :
    entered (l ++ l') = entered l ++ entered l' := by simp [entered]

theorem entered_visit (n : Nat) (sink : Sink) (e : GatewayEvent) (h : Hub) (inside : List Entry)
    (r : Hub × Outcome) :
    entered (Hub.visit n sink e h inside r) = sink.stage?.toList ++ entered inside := by
  cases sink <;> simp [entered, Hub.visit, Sink.stage?]

namespace Hub

/-! ## Links stay -/

/-- The stages and the links between them are the same; consumers may differ. -/
structure SameLinks (h h' : Hub) : Prop where
  size : h'.stages.size = h.stages.size
  links : ∀ a, h'.links a = h.links a

theorem SameLinks.refl (h : Hub) : h.SameLinks h := ⟨rfl, fun _ => rfl⟩

theorem SameLinks.acyclic {h h' : Hub} (hsame : h.SameLinks h') (hacyclic : h.Acyclic) :
    h'.Acyclic := by
  have hlink : h'.Link = h.Link := by
    funext a b
    rw [← mem_links, hsame.links, mem_links]
  rwa [Acyclic, hlink]

/-- A plain act appends consumers only. -/
theorem stage?_of_mem_appends {c : Consumer} {h : Hub} {a : Act} (ha : a.Plain)
    {k : Source × Sink} (hk : k ∈ a.appends c h) : k.2.stage? = none := by
  have hconsumed : ∀ {id : StageId} {name : String} {reaction : Reaction},
      k ∈ h.consumed id name reaction → k.2.stage? = none := by
    intro id name reaction hk
    unfold consumed attached at hk
    split at hk
    · rw [List.mem_singleton.mp hk]
      rfl
    · cases hk
  cases a with
  | breakOff f => cases hk
  | addConsumer stage name reaction =>
      obtain ⟨id, -, hk⟩ := mem_wherever hk
      exact hconsumed hk
  | addConsumerOnce stage name reaction =>
      rw [Act.appends] at hk
      split at hk
      · cases hk
      · obtain ⟨id, -, hk⟩ := mem_wherever hk
        exact hconsumed hk
  | register category name reaction =>
      rw [List.mem_singleton.mp hk]
      rfl
  | _ => exact ha.elim

theorem size_atStage {h h' : Hub} {stage : StageRef} {next : StageId → Hub × Outcome}
    (hsame : h'.stages.size = h.stages.size)
    (hnext : ∀ id, (next id).1.stages.size = h.stages.size) :
    (h'.atStage stage next).1.stages.size = h.stages.size := by
  unfold atStage
  split
  · exact hsame
  · exact hnext _

theorem size_perform {courier : Courier} {c : Consumer} {h : Hub} {a : Act} (ha : a.Plain) :
    (h.perform courier c a).1.stages.size = h.stages.size := by
  cases a with
  | breakOff f => rfl
  | addConsumer stage name reaction =>
      exact size_atStage rfl fun id => size_consume id name reaction h
  | addConsumerOnce stage name reaction =>
      rw [perform]
      split
      · rfl
      · exact size_atStage rfl fun id => size_consume id name reaction _
  | register category name reaction => rfl
  | _ => exact ha.elim

theorem unbroken_sameLinks (h : Hub) : Unbroken Act.Plain h.SameLinks where
  receive hh _ _ := ⟨hh.size, hh.links⟩
  note hh _ := ⟨hh.size, hh.links⟩
  act {h'} hh a ha hemits courier c := by
    refine ⟨(size_perform ha).trans hh.size, fun b => ?_⟩
    have hnone : (Additions.to (.stage b) (a.appends c h')).filterMap Sink.stage? = [] := by
      refine List.filterMap_eq_nil_iff.mpr fun sink hsink => ?_
      obtain ⟨k, hk, rfl⟩ := List.mem_map.mp hsink
      exact stage?_of_mem_appends ha (List.mem_filter.mp hk).1
    rw [Hub.links, (perform_gains courier c h' hemits).sinks, List.filterMap_append, hnone,
      List.append_nil]
    exact hh.links b

/-! ## Tours -/

/-- A part of a delivery that comes to an end and enters stages of a row only, in their order. -/
structure Stays (row : List StageId) (l : List Entry) (o : Outcome) : Prop where
  ends : o ≠ .tooDeep
  sublist : (entered l).Sublist row

theorem Stays.done {row : List StageId} : Stays row [] .done :=
  ⟨Outcome.done_ne, List.nil_sublist _⟩

theorem Stays.fault {row : List StageId} (f : Fault) : Stays row [] (.fault f) :=
  ⟨Outcome.fault_ne f, List.nil_sublist _⟩

section

variable {behaviour : Behaviour} {kind : Consumer → Prop} {h : Hub}

/-- What consumers make of a hub while they only append: their kind and the links stay. -/
structure Becomes (kind : Consumer → Prop) (h h' : Hub) : Prop where
  only : h'.Only kind
  same : h.SameLinks h'

theorem deliver_becomes (hconfined : Confined behaviour Act.Plain kind) (depth : Nat) {sink : Sink}
    (hsink : sink.OfKind kind) (e : GatewayEvent) {h' : Hub} (hh : h.Becomes kind h') :
    h.Becomes kind (deliver behaviour depth sink e h').1 :=
  have hkeeps := deliver_keeps_confined hconfined (unbroken_sameLinks h) depth sink e h' hsink
    hh.only hh.same
  ⟨hkeeps.1, hkeeps.2⟩

theorem atStage_ends {stage : StageRef} {next : StageId → Hub × Outcome}
    (hnext : ∀ id, (next id).2 ≠ .tooDeep) : (h.atStage stage next).2 ≠ .tooDeep := by
  unfold atStage
  split
  · exact Outcome.fault_ne _
  · exact hnext _

/-- An act that emits nothing comes to an end. -/
theorem perform_ends {courier : Courier} {c : Consumer} {a : Act} (ha : ¬ a.Emits) :
    (h.perform courier c a).2 ≠ .tooDeep := by
  cases a with
  | feed | dispatch => exact absurd trivial ha
  | breakOff f => exact Outcome.fault_ne f
  | addConsumerOnce stage name reaction =>
      rw [perform]
      split
      · exact Outcome.done_ne
      · exact atStage_ends fun _ => Outcome.done_ne
  | attach stage child => exact atStage_ends fun _ => atStage_ends fun _ => Outcome.done_ne
  | register category name reaction => exact Outcome.done_ne
  | _ => exact atStage_ends fun _ => Outcome.done_ne

/-- A consumer that only appends comes to an end and has no stage entered. -/
theorem performAll_stays (courier : Courier) (scribe : Scribe) (c : Consumer) :
    ∀ (acts : List Act) (h : Hub) (t : Nat), (∀ a ∈ acts, a.Plain) →
      Stays [] (performAllEntries courier scribe c acts h t) (performAll courier c acts h).2
  | [], _, _, _ => .done
  | a :: rest, h, t, hacts => by
      have ha := hacts a List.mem_cons_self
      have hentries : performEntries courier scribe c h t a = [⟨.appended (a.appends c h), h⟩] := by
        cases a with
        | feed stage e => exact ha.elim
        | dispatch e => exact ha.elim
        | _ => rfl
      have hends : (h.perform courier c a).2 ≠ .tooDeep := perform_ends ha.not_emits
      rw [performAllEntries, performAll, hentries]
      rcases hact : h.perform courier c a with ⟨h₁, o⟩
      rw [hact] at hends
      cases o with
      | done =>
          have hrest := performAll_stays courier scribe c rest h₁ (t + 1)
            fun a ha => hacts a (List.mem_cons_of_mem _ ha)
          exact ⟨hrest.ends, by simpa [entered] using hrest.sublist⟩
      | fault f => exact ⟨by simp, by simp [entered]⟩
      | tooDeep => exact absurd rfl hends

/-- An emission stays within the tours of its sinks, if each delivery that it makes does. The
induction is on the sinks that are left. -/
theorem emit_stays (hconfined : Confined behaviour Act.Plain kind) {depth n : Nat}
    (policy : DeliveryPolicy) (e : GatewayEvent) {number : Nat} :
    ∀ (sinks : List Sink) (h' : Hub) (t : Nat), (∀ sink ∈ sinks, sink.OfKind kind) →
      (∀ sink ∈ sinks, ∀ h' t, h.Becomes kind h' →
        Stays (sink.stage?.toList.flatMap (h.tour n))
          (visit number sink e h' (deliverEntries behaviour depth sink e h' t)
            (deliver behaviour depth sink e h'))
          (deliver behaviour depth sink e h').2) →
      h.Becomes kind h' →
      Stays ((sinks.filterMap Sink.stage?).flatMap (h.tour n))
        (visitEntries (deliver behaviour depth) (deliverEntries behaviour depth) number policy e
          sinks h' t)
        (emit (deliver behaviour depth) policy e sinks h').2
  | [], _, _, _, _, _ => .done
  | sink :: rest, h', t, hkind, hsinks, hh => by
      have hfirst := hsinks sink List.mem_cons_self h' (t + 1) hh
      have hnext := deliver_becomes hconfined depth (hkind sink List.mem_cons_self) e hh
      have hrest : ∀ {h₁ : Hub} (t : Nat), h.Becomes kind h₁ → _ := fun t hh =>
        emit_stays hconfined policy e rest _ t (fun s hs => hkind s (List.mem_cons_of_mem _ hs))
          (fun s hs => hsinks s (List.mem_cons_of_mem _ hs)) hh
      have hrow : ((sink :: rest).filterMap Sink.stage?).flatMap (h.tour n) =
          sink.stage?.toList.flatMap (h.tour n) ++
            (rest.filterMap Sink.stage?).flatMap (h.tour n) := by
        cases sink <;> simp [List.filterMap_cons, Sink.stage?]
      rw [visitEntries, emit, hrow]
      rcases hcall : deliver behaviour depth sink e h' with ⟨h₁, o⟩
      rw [hcall] at hfirst hnext
      have hcut := hfirst.sublist.trans (List.sublist_append_left _
        ((rest.filterMap Sink.stage?).flatMap (h.tour n)))
      cases o with
      | tooDeep => exact absurd rfl hfirst.ends
      | done =>
          refine ⟨(hrest 0 hnext).ends, ?_⟩
          rw [entered_append]
          exact hfirst.sublist.append (hrest _ hnext).sublist
      | fault f =>
          cases policy with
          | failFast => exact ⟨by simp, hcut⟩
          | isolate =>
              have hnoted : h.Becomes kind (h₁.note (contained f)) :=
                ⟨hnext.only, (unbroken_sameLinks h).note hnext.same f⟩
              refine ⟨(hrest 0 hnoted).ends, ?_⟩
              rw [entered_append]
              exact hfirst.sublist.append (hrest _ hnoted).sublist

/-- What is fed to a stage over at most `n` levels of stages comes to an end, and stays within the
tour of the stage. -/
def PassStays (behaviour : Behaviour) (kind : Consumer → Prop) (h : Hub) (n depth : Nat) : Prop :=
  ∀ (a : StageId) (e : GatewayEvent) {h' : Hub} (t : Nat), h.Fits n (.stage a) →
    h.Becomes kind h' →
    (h'.pass (deliver behaviour depth) a e).2 ≠ .tooDeep
      ∧ (a :: entered (passEntries (deliver behaviour depth) (deliverEntries behaviour depth) a e
          h' t)).Sublist (h.tour n a)

theorem visit_stays (hconfined : Confined behaviour Act.Plain kind) {n depth : Nat}
    (hpass : PassStays behaviour kind h n depth) (number : Nat) {sink : Sink}
    (hkind : sink.OfKind kind) (hfits : ∀ b, sink = .stage b → h.Fits n (.stage b))
    (e : GatewayEvent) {h' : Hub} (t : Nat) (hh : h.Becomes kind h') :
    Stays (sink.stage?.toList.flatMap (h.tour n))
      (visit number sink e h' (deliverEntries behaviour (depth + 1) sink e h' t)
        (deliver behaviour (depth + 1) sink e h'))
      (deliver behaviour (depth + 1) sink e h').2 := by
  cases sink with
  | consumer c =>
      have hacts := hconfined.acts hkind e (h'.receive c.name e)
      have hcall := performAll_stays (deliver behaviour depth) (deliverEntries behaviour depth) c _
        (h'.receive c.name e) t hacts
      exact ⟨hcall.ends, by rw [entered_visit]; exact hcall.sublist⟩
  | stage b =>
      obtain ⟨hends, hsublist⟩ := hpass b e t (hfits b rfl) hh
      refine ⟨hends, ?_⟩
      rw [entered_visit]
      change List.Sublist _ (h.tour n b ++ [])
      rw [List.append_nil]
      exact hsublist

/-- **A delivery stays within the tour of its stage**, and comes to an end if it may nest as deep
as there are levels of stages below. The induction is on these levels. -/
theorem pass_stays (hacyclic : h.Acyclic) (hconfined : Confined behaviour Act.Plain kind) :
    ∀ {n depth : Nat}, n ≤ depth → PassStays behaviour kind h n depth := by
  intro n
  induction n with
  | zero =>
      intro depth _ a e h' t hfits hh
      have hnone : h'.stages[a]? = none := by
        rw [Array.getElem?_eq_none_iff, hh.same.size]
        exact Nat.not_lt.mp fun ha => Nat.not_lt_zero _ (hfits ha)
      rw [pass, passEntries, hnone]
      exact ⟨by simp, List.Sublist.refl _⟩
  | succ n ih =>
      intro depth hdepth a e h' t hfits hh
      have hstays : ∀ {l : List Entry} {o : Outcome}, Stays ((h.links a).flatMap (h.tour n)) l o →
          o ≠ .tooDeep ∧ (a :: entered l).Sublist (h.tour (n + 1) a) :=
        fun hstays => ⟨hstays.ends, hstays.sublist.cons_cons a⟩
      obtain ⟨depth, rfl⟩ : ∃ depth', depth = depth' + 1 := ⟨depth - 1, by omega⟩
      rw [pass, passEntries]
      cases hs : h'.stages[a]? with
      | none => exact hstays .done
      | some s =>
          dsimp only
          cases hout : s.operation.apply e with
          | error f => exact hstays (.fault f)
          | ok out? =>
              cases out? with
              | none => exact hstays .done
              | some out =>
                  have hlinks : s.sinks.filterMap Sink.stage? = h.links a := by
                    rw [← hh.same.links, links_of_stage hs]
                  have hkind : ∀ sink ∈ s.sinks, sink.OfKind kind := fun sink hsink =>
                    hh.only (.stage a) sink (by rwa [sinksOf, hs])
                  have hbelow : ∀ b, Sink.stage b ∈ s.sinks → h.Fits n (.stage b) := by
                    intro b hb
                    have hlink : b ∈ h.links a := by
                      rw [← hlinks]
                      exact List.mem_filterMap.mpr ⟨_, hb, rfl⟩
                    obtain ⟨s₀, hs₀, hmem⟩ := mem_links.mp hlink
                    exact hfits.sink hacyclic hs₀ hmem
                  have hpass := ih (Nat.le_of_succ_le_succ hdepth)
                  have hemission := emit_stays hconfined s.policy out s.sinks h' (t + 1) hkind
                    (fun sink hsink h'' t' => visit_stays hconfined hpass t (hkind sink hsink)
                      (fun b hb => hbelow b (hb ▸ hsink)) out t') hh
                  rw [hlinks] at hemission
                  simpa [emissionEntries, policyOf, sinksOf, hs, entered] using hstays hemission

theorem accept_comes_to_end (hacyclic : h.Acyclic) (hconfined : Confined behaviour Act.Plain kind)
    (honly : h.Only kind) (id : StageId) (e : GatewayEvent) :
    (h.accept behaviour id e).2 ≠ .tooDeep :=
  (pass_stays hacyclic hconfined (Nat.le_add_right _ _) id e 0 (fits_size hacyclic id)
    ⟨honly, .refl h⟩).1

end

theorem only_any (h : Hub) : h.Only fun _ => True := fun _ sink _ => by
  cases sink <;> trivial

theorem only_empty (kind : Consumer → Prop) : ({} : Hub).Only kind := by
  intro source sink hsink
  cases source <;> cases hsink

/-- **Feeding an event to a stage comes to an end.** What is built without attaching has no cycles.
In a graph without cycles, whatever consumers append and whichever faults they raise, a delivery
never nests deeper than there are stages, and it enters each stage at most once for each path from
the stage that is fed. -/
theorem accept_ends :
    (∀ {behaviour : Behaviour} {kind : Consumer → Prop}, Confined behaviour Act.Unattached kind →
      ∀ steps : List HubStep, (∀ s ∈ steps, s.Unattached ∧ s.OfKind kind) →
        (run behaviour steps {}).Acyclic)
      ∧ ∀ {behaviour : Behaviour} {kind : Consumer → Prop} {h : Hub}, h.Acyclic →
        Confined behaviour Act.Plain kind → h.Only kind → ∀ (id : StageId) (e : GatewayEvent),
          (h.accept behaviour id e).2 ≠ .tooDeep
            ∧ (∀ depth, h.stages.size ≤ depth →
              h.pass (deliver behaviour depth) id e = h.accept behaviour id e)
            ∧ ∀ b, ∃ paths : List (List Nat), paths.Nodup
              ∧ (∀ places, places ∈ paths ↔ ∃ operations, h.Path id places operations (.stage b))
              ∧ (id :: entered (acceptEntries behaviour id e h 0)).count b ≤ paths.length := by
  refine ⟨fun hconfined steps hsteps =>
    acyclic_run hconfined steps hsteps (only_empty _) ascends_empty, ?_⟩
  intro behaviour kind h hacyclic hconfined honly id e
  have hstays : ∀ {depth}, h.stages.size ≤ depth →
      PassStays behaviour kind h h.stages.size depth := pass_stays hacyclic hconfined
  have hfits := fits_size hacyclic id
  have hlimit : h.stages.size ≤ h.depthLimit := Nat.le_add_right _ _
  have hends : ∀ {depth}, h.stages.size ≤ depth →
      h.pass (deliver behaviour depth) id e = h.pass (deliver behaviour h.stages.size) id e :=
    fun hdepth => pass_extends (deliver_mono behaviour hdepth) id e h
      (hstays (Nat.le_refl _) id e 0 hfits ⟨honly, .refl h⟩).1
  obtain ⟨-, hsublist⟩ := hstays hlimit id e 0 hfits ⟨honly, .refl h⟩
  refine ⟨accept_comes_to_end hacyclic hconfined honly id e, fun depth hdepth => ?_, fun b => ?_⟩
  · rw [accept, hends hdepth, hends hlimit]
  · obtain ⟨paths, hnodup, hcomplete, hcount⟩ := count_tour hacyclic hfits b
    exact ⟨paths, hnodup, hcomplete, hcount ▸ hsublist.count_le b⟩

/-- Each consumer appends one like itself to the stage where the two ways meet; those named `a`
break off afterwards. -/
def spreading : Behaviour := fun c _ _ =>
  .addConsumer (.numbered 2) c.name c.reaction ::
    if c.name = "a" then [.breakOff .wordless] else []

theorem confined_spreading : Confined spreading Act.Plain fun _ => True where
  acts := by
    intro c _ e h a ha
    rcases List.mem_cons.mp ha with rfl | ha
    · trivial
    · split at ha
      · rw [List.mem_singleton.mp ha]
        trivial
      · cases ha
  newcomers _ _ _ _ _ _ _ _ _ := trivial

/-- Three paths lead to the third stage of the graph with two ways, and it is entered three times.
The pipeline that is built has a consumer that makes a branch whose consumer breaks off. -/
theorem accept_ends_spreading :
    (run Consumer.acts [.start "s" .isolate, .derive "s" "t" .identity,
      .consume "t" "a" fun _ => [.addBranch "s" .identity "b" fun _ => [.breakOff .wordless]],
      .accept "s" ⟨.resume, 0, .null⟩] {}).Acyclic
      ∧ (diamondHub.accept spreading 0 ⟨.resume, 0, .null⟩).2 ≠ .tooDeep
      ∧ entered (acceptEntries spreading 0 ⟨.resume, 0, .null⟩ diamondHub 0) = [1, 2, 2, 2]
      ∧ ∃ paths : List (List Nat),
        (∀ places, places ∈ paths ↔ ∃ operations, diamondHub.Path 0 places operations (.stage 2))
          ∧ 3 ≤ paths.length := by
  have hacyclic : diamondHub.Acyclic := acyclic_of_ascending (by decide)
  have hentered : entered (acceptEntries spreading 0 ⟨.resume, 0, .null⟩ diamondHub 0)
      = [1, 2, 2, 2] := rfl
  obtain ⟨hbuilt, hends⟩ := accept_ends
  obtain ⟨hdone, -, hcount⟩ :=
    hends hacyclic confined_spreading (only_any _) 0 ⟨.resume, 0, .null⟩
  obtain ⟨paths, -, hcomplete, hle⟩ := hcount 2
  rw [hentered] at hle
  refine ⟨hbuilt (confined_of_hereditary Act.Unattached) _ ?_, hdone, hentered, paths, hcomplete,
    hle⟩
  intro s hs
  simp only [List.mem_cons, List.not_mem_nil, or_false] at hs
  rcases hs with rfl | rfl | rfl | rfl
  · exact ⟨trivial, nofun⟩
  · exact ⟨trivial, nofun⟩
  · refine ⟨trivial, ?_⟩
    rintro _ _ ⟨⟩ id e a ha
    rw [List.mem_singleton.mp ha]
    refine .intro trivial ?_
    rintro _ _ ⟨⟩ e a ha
    rw [List.mem_singleton.mp ha]
    exact .intro trivial nofun
  · exact ⟨trivial, nofun⟩

end Hub

end GatewayClient
