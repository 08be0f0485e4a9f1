import GatewayClient.Proofs.Delivery.Chronicle

/-!
# Emissions are not disturbed by what is appended meanwhile

Consumers may append sinks anywhere while they are called, also to stages that are just emitting.
An emission still visits the sinks that its source had when it began, and what is appended waits
for the next one. `Tells` says so of the chronicle of a whole run, for every behaviour of the
consumers and every hub to begin with.

The chronicle of a part of a run is a stretch of moments (`Stretch`). Stretches that follow one
another make a stretch (`Stretch.append`), and so do the beginning of an emission and its visits
(`Stretch.began`). A stretch mentions the emissions that begin in it and besides only those that
are under way around it, so what follows adds no visit to an emission that has ended.
-/

namespace GatewayClient

/-! ## Reading a chronicle -/

/-- What a source gains in the course of a chronicle. -/
def appended (source : Source) (l : List Entry) : List Sink :=
  l.flatMap fun k =>
    match k.moment with
    | .appended more => more.to source
    | _ => []

/-- The visits of an emission: the sinks with what they were brought. -/
def visits (n : Nat) (l : List Entry) : List (Sink × GatewayEvent) :=
  l.filterMap fun k =>
    match k.moment with
    | .visited m sink e => if m = n then some (sink, e) else none
    | _ => none

def returns (n : Nat) (l : List Entry) : List Outcome :=
  l.filterMap fun k =>
    match k.moment with
    | .returned m o => if m = n then some o else none
    | _ => none

/-- What consumers received from their visits. -/
def receipts (l : List Entry) : List Receipt :=
  l.filterMap fun k =>
    match k.moment with
    | .visited _ (.consumer c) e => some ⟨c.name, e⟩
    | _ => none

/-- The emission that a moment belongs to. -/
def Moment.emission? : Moment → Option Nat
  | .visited n _ _ | .returned n _ => some n
  | _ => none

section

variable (source : Source) (n : Nat) (l l' : List Entry)

@[simp] theorem appended_append :
    appended source (l ++ l') = appended source l ++ appended source l' := by simp [appended]

@[simp] theorem visits_append : visits n (l ++ l') = visits n l ++ visits n l' := by
  simp [visits]

@[simp] theorem returns_append : returns n (l ++ l') = returns n l ++ returns n l' := by
  simp [returns]

@[simp] theorem receipts_append : receipts (l ++ l') = receipts l ++ receipts l' := by
  simp [receipts]

end

/-- A chronicle that does not mention an emission has no visits of it. -/
theorem visits_eq_nil {n : Nat} {l : List Entry}
    (hl : ∀ k ∈ l, k.moment.emission? ≠ some n) : visits n l = [] ∧ returns n l = [] := by
  constructor
  · refine List.filterMap_eq_nil_iff.mpr fun k hk => ?_
    have hne := hl k hk
    split
    · next m sink e hm => simpa [hm, Moment.emission?] using hne
    · rfl
  · refine List.filterMap_eq_nil_iff.mpr fun k hk => ?_
    have hne := hl k hk
    split
    · next m o hm => simpa [hm, Moment.emission?] using hne
    · rfl

/-! ## Emissions -/

/-- A visit that ended so cuts the emission short. -/
def Outcome.CutsShort (policy : DeliveryPolicy) : Outcome → Prop
  | .done => False
  | .fault _ => policy = .failFast
  | .tooDeep => True

/-- The last of the visits cut the emission short. -/
def CutShort (policy : DeliveryPolicy) (returns : List Outcome) : Prop :=
  ∃ o, returns.getLast? = some o ∧ o.CutsShort policy

/-- An emission visits sinks in order, all or up to one whose visit cuts it short. -/
structure Emission (policy : DeliveryPolicy) (e : GatewayEvent) (sinks : List Sink)
    (visits : List (Sink × GatewayEvent)) (returns : List Outcome) : Prop where
  visits_eq : visits = (sinks.take returns.length).map (·, e)
  within : returns.length ≤ sinks.length
  through : ∀ o ∈ returns.dropLast, ¬ o.CutsShort policy
  all_or_cut : returns.length = sinks.length ∨ CutShort policy returns

namespace Emission

variable {policy : DeliveryPolicy} {e : GatewayEvent} {sink : Sink} {sinks : List Sink}
  {o : Outcome} {visits : List (Sink × GatewayEvent)} {returns : List Outcome}

theorem nil : Emission policy e [] [] [] := ⟨rfl, Nat.le_refl 0, by simp, Or.inl rfl⟩

theorem cut (ho : o.CutsShort policy) : Emission policy e (sink :: sinks) [(sink, e)] [o] :=
  ⟨rfl, by simp, by simp, Or.inr ⟨o, rfl, ho⟩⟩

theorem cons (ho : ¬ o.CutsShort policy) (hrest : Emission policy e sinks visits returns) :
    Emission policy e (sink :: sinks) ((sink, e) :: visits) (o :: returns) := by
  refine ⟨by simp [hrest.visits_eq], by simpa using hrest.within, ?_, ?_⟩
  · cases returns with
    | nil => simp
    | cons o' os =>
        intro o'' ho''
        rcases List.mem_cons.mp ho'' with rfl | hmem
        · exact ho
        · exact hrest.through o'' hmem
  · rcases hrest.all_or_cut with hall | ⟨o', hlast, hcut⟩
    · exact Or.inl (by simp [hall])
    · refine Or.inr ⟨o', ?_, hcut⟩
      rw [List.getLast?_cons, hlast]
      rfl

/-- A visit that the emission makes is at the place of its sink. -/
theorem visits_getElem? (hem : Emission policy e sinks visits returns) {i : Nat}
    (hi : i < returns.length) : visits[i]? = sinks[i]?.map (·, e) := by
  rw [hem.visits_eq, List.getElem?_map, List.getElem?_take_of_lt hi]

theorem length_visits (hem : Emission policy e sinks visits returns) :
    visits.length = returns.length := by
  rw [hem.visits_eq, List.length_map, List.length_take, Nat.min_eq_left hem.within]

end Emission

/-! ## Stretches -/

/-- The chronicle of a part of a run that leads from one hub to another, from moment `t` on.
Emissions that began before it may be under way around it. -/
structure Stretch (around : Nat → Prop) (t : Nat) (h : Hub) (l : List Entry) (h' : Hub) :
    Prop where
  received : h'.received = h.received ++ receipts l
  grown : ∀ source, h'.sinksOf source = h.sinksOf source ++ appended source l
  during : ∀ {i k}, l[i]? = some k → ∀ source,
    k.hub.sinksOf source = h.sinksOf source ++ appended source (l.take i)
  mentions : ∀ {i k n}, l[i]? = some k → k.moment.emission? = some n →
    around n ∨ ∃ j, n = t + j ∧ j < i ∧ ∃ source e g, l[j]? = some ⟨.began source e, g⟩
  emissions : ∀ {i source e g}, l[i]? = some ⟨.began source e, g⟩ →
    Emission (g.policyOf source) e (g.sinksOf source) (visits (t + i) l) (returns (t + i) l)

namespace Stretch

variable {around around' : Nat → Prop} {t : Nat} {h h' h'' : Hub} {l l' : List Entry}

theorem nil (h : Hub) : Stretch around t h [] h where
  received := by simp [receipts]
  grown := by simp [appended]
  during := by simp
  mentions := by simp
  emissions := by simp

theorem mono (hstretch : Stretch around t h l h') (hmono : ∀ n, around n → around' n) :
    Stretch around' t h l h' :=
  { hstretch with
    mentions := fun hk hn => (hstretch.mentions hk hn).imp_left (hmono _) }

/-- An emission that a stretch mentions is under way around it or begins in it. -/
theorem bounds (hstretch : Stretch around t h l h') {k : Entry} (hk : k ∈ l) {n : Nat}
    (hn : k.moment.emission? = some n) : around n ∨ t ≤ n ∧ n < t + l.length := by
  obtain ⟨i, hi⟩ := List.mem_iff_getElem?.mp hk
  rcases hstretch.mentions hi hn with hn | ⟨j, rfl, hj, -⟩
  · exact Or.inl hn
  · have := (List.getElem?_eq_some_iff.mp hi).1
    exact Or.inr ⟨by omega, by omega⟩

/-- A stretch has no visits of an emission that neither is under way around it nor begins in it. -/
theorem visits_eq_nil (hstretch : Stretch around t h l h') {n : Nat} (haround : ¬ around n)
    (hn : n < t ∨ t + l.length ≤ n) : visits n l = [] ∧ returns n l = [] :=
  GatewayClient.visits_eq_nil fun k hk heq => by
    rcases hstretch.bounds hk heq with hin | hin
    · exact haround hin
    · omega

theorem append (haround : ∀ n, around n → n < t) (hfirst : Stretch around t h l h')
    (hsecond : Stretch around (t + l.length) h' l' h'') : Stretch around t h (l ++ l') h'' where
  received := by rw [hsecond.received, hfirst.received, receipts_append, List.append_assoc]
  grown source := by
    rw [hsecond.grown, hfirst.grown, appended_append, List.append_assoc]
  during {i k} hk source := by
    rcases Nat.lt_or_ge i l.length with hi | hi
    · rw [List.getElem?_append_left hi] at hk
      rw [hfirst.during hk, List.take_append_of_le_length (Nat.le_of_lt hi)]
    · rw [List.getElem?_append_right hi] at hk
      rw [hsecond.during hk, hfirst.grown, List.take_append, List.take_of_length_le hi,
        appended_append, List.append_assoc]
  mentions {i k n} hk hn := by
    rcases Nat.lt_or_ge i l.length with hi | hi
    · rw [List.getElem?_append_left hi] at hk
      rcases hfirst.mentions hk hn with hn | ⟨j, hj, hji, source, e, g, hbegan⟩
      · exact Or.inl hn
      · have hj' := Nat.lt_trans hji hi
        exact Or.inr ⟨j, hj, hji, source, e, g, (List.getElem?_append_left hj').trans hbegan⟩
    · rw [List.getElem?_append_right hi] at hk
      rcases hsecond.mentions hk hn with hn | ⟨j, hj, hji, hbegan⟩
      · exact Or.inl hn
      · refine Or.inr ⟨l.length + j, by omega, by omega, ?_⟩
        rwa [List.getElem?_append_right (by omega), Nat.add_sub_cancel_left]
  emissions {i source e g} hk := by
    -- The emission begins in one of the two parts, so the other one has no visits of it.
    have hnot : ¬ around (t + i) := fun hin => by
      have := haround _ hin
      omega
    rcases Nat.lt_or_ge i l.length with hi | hi
    · rw [List.getElem?_append_left hi] at hk
      obtain ⟨hvisits, hreturns⟩ := hsecond.visits_eq_nil hnot (Or.inl (by omega))
      rw [visits_append, returns_append, hvisits, hreturns, List.append_nil, List.append_nil]
      exact hfirst.emissions hk
    · rw [List.getElem?_append_right hi] at hk
      obtain ⟨hvisits, hreturns⟩ := hfirst.visits_eq_nil hnot (Or.inr (by omega))
      have hnumber : t + i = t + l.length + (i - l.length) := by omega
      rw [visits_append, returns_append, hvisits, hreturns, List.nil_append, List.nil_append,
        hnumber]
      exact hsecond.emissions hk

/-- A chronicle of one moment. -/
theorem single {k : Entry} (hsinks : ∀ source, k.hub.sinksOf source = h.sinksOf source)
    (hbegan : ∀ source e, k.moment ≠ .began source e)
    (hmentions : ∀ n, k.moment.emission? = some n → around n)
    (hreceived : h'.received = h.received ++ receipts [k])
    (hgrown : ∀ source, h'.sinksOf source = h.sinksOf source ++ appended source [k]) :
    Stretch around t h [k] h' where
  received := hreceived
  grown := hgrown
  during {i k'} hk source := by
    obtain ⟨rfl, rfl⟩ : i = 0 ∧ k = k' := by simpa [List.getElem?_singleton] using hk
    simp [hsinks, appended]
  mentions {i k' n} hk hn := by
    obtain ⟨rfl, rfl⟩ : i = 0 ∧ k = k' := by simpa [List.getElem?_singleton] using hk
    exact Or.inl (hmentions n hn)
  emissions {i source e g} hk := by
    obtain ⟨rfl, rfl⟩ : i = 0 ∧ k = ⟨.began source e, g⟩ := by
      simpa [List.getElem?_singleton] using hk
    exact absurd rfl (hbegan source e)

theorem appended {more : Additions} (hgains : h.Gains more h') :
    Stretch around t h [⟨.appended more, h⟩] h' :=
  single (fun _ => rfl) nofun nofun (by simp [hgains.received, receipts])
    fun source => by simp [hgains.sinks, GatewayClient.appended]

theorem visited (n : Nat) (sink : Sink) (e : GatewayEvent) (h : Hub) :
    Stretch (· = n) t h [⟨.visited n sink e, h⟩] (h.arrive sink e) := by
  refine single (fun _ => rfl) nofun (fun m hm => (Option.some.inj hm).symm) ?_ fun source => ?_
  · cases sink <;> simp [Hub.arrive, Hub.receive, receipts]
  · cases sink <;> cases source <;>
      simp [Hub.arrive, Hub.receive, Hub.sinksOf, GatewayClient.appended]

theorem returned (n : Nat) (o : Outcome) (hgains : h.Gains [] h') :
    Stretch (· = n) t h [⟨.returned n o, h⟩] h' :=
  single (fun _ => rfl) nofun (fun m hm => (Option.some.inj hm).symm)
    (by simp [hgains.received, receipts])
    fun source => by simp [hgains.sinks, Additions.to, GatewayClient.appended]

/-- An emission begins, and its visits follow. -/
theorem began {source : Source} {e : GatewayEvent} (hvisits : Stretch (· = t) (t + 1) h l h')
    (hemission : Emission (h.policyOf source) e (h.sinksOf source) (visits t l) (returns t l)) :
    Stretch (fun _ => False) t h (⟨.began source e, h⟩ :: l) h' where
  received := hvisits.received
  grown := hvisits.grown
  during {i k} hk source' := by
    cases i with
    | zero =>
        obtain rfl := Option.some.inj hk
        simp [GatewayClient.appended]
    | succ i => exact hvisits.during hk source'
  mentions {i k n} hk hn := by
    cases i with
    | zero =>
        obtain rfl := Option.some.inj hk
        cases hn
    | succ i =>
        rcases hvisits.mentions hk hn with rfl | ⟨j, hj, hji, hbegan⟩
        · exact Or.inr ⟨0, rfl, Nat.succ_pos i, source, e, h, rfl⟩
        · exact Or.inr ⟨j + 1, by omega, by omega, hbegan⟩
  emissions {i source' e' g} hk := by
    cases i with
    | zero =>
        cases Option.some.inj hk
        exact hemission
    | succ i =>
        have hnumber : t + (i + 1) = t + 1 + i := by omega
        rw [hnumber]
        exact hvisits.emissions hk

end Stretch

/-- The chronicle of a part of a run around which no emission is under way. -/
abbrev Whole := Stretch fun _ => False

/-! ## Visits -/

structure Visit (n : Nat) (sink : Sink) (e : GatewayEvent) (o : Outcome) (t : Nat) (h : Hub)
    (l : List Entry) (h' : Hub) : Prop where
  stretch : Stretch (· = n) t h l h'
  visits_eq : visits n l = [(sink, e)]
  returns_eq : returns n l = [o]

structure Round (n : Nat) (policy : DeliveryPolicy) (e : GatewayEvent) (sinks : List Sink) (t : Nat)
    (h : Hub) (l : List Entry) (h' : Hub) : Prop where
  stretch : Stretch (· = n) t h l h'
  emission : Emission policy e sinks (visits n l) (returns n l)

namespace Round

variable {n t : Nat} {policy : DeliveryPolicy} {sink : Sink} {sinks : List Sink} {e : GatewayEvent}
  {o : Outcome} {h h' h'' : Hub} {l l' : List Entry}

theorem cut (hvisit : Visit n sink e o t h l h') (ho : o.CutsShort policy) :
    Round n policy e (sink :: sinks) t h l h' where
  stretch := hvisit.stretch
  emission := by
    rw [hvisit.visits_eq, hvisit.returns_eq]
    exact .cut ho

theorem cons (hn : n < t) (hvisit : Visit n sink e o t h l h') (ho : ¬ o.CutsShort policy)
    (hrest : Round n policy e sinks (t + l.length) h' l' h'') :
    Round n policy e (sink :: sinks) t h (l ++ l') h'' where
  stretch := hvisit.stretch.append (fun _ hm => hm ▸ hn) hrest.stretch
  emission := by
    rw [visits_append, returns_append, hvisit.visits_eq, hvisit.returns_eq]
    exact .cons ho hrest.emission

end Round

namespace Hub

/-- What a scribe tells of bringing an event to a sink, from the arrival on, is what a courier
does. -/
def Faithful (courier : Courier) (scribe : Scribe) : Prop :=
  ∀ sink e h t, Whole t (h.arrive sink e) (scribe sink e h t) (courier sink e h).1

section

variable {courier : Courier} {scribe : Scribe} (hfaithful : Faithful courier scribe)
include hfaithful

theorem visit_tells {n t : Nat} (hn : n < t) {sink : Sink} {e : GatewayEvent} {h h₁ h' : Hub}
    {o : Outcome} (hcall : courier sink e h = (h₁, o)) (hsame : h₁.Gains [] h') :
    Visit n sink e o t h (visit n sink e h (scribe sink e h (t + 1)) (h₁, o)) h' := by
  have hinside := hfaithful sink e h (t + 1)
  rw [hcall] at hinside
  -- What happens inside belongs to emissions that begin there, not to the one that is under way.
  have hbefore : n < t + 1 ∨ t + 1 + (scribe sink e h (t + 1)).length ≤ n := Or.inl (by omega)
  obtain ⟨hvisits, hreturns⟩ := hinside.visits_eq_nil id hbefore
  have haround : ∀ {t' : Nat}, t ≤ t' → ∀ m, m = n → m < t' := by
    rintro t' ht m rfl
    omega
  have hsplit : visit n sink e h (scribe sink e h (t + 1)) (h₁, o)
      = [⟨.visited n sink e, h⟩] ++ (scribe sink e h (t + 1) ++ [⟨.returned n o, h₁⟩]) := rfl
  rw [hsplit]
  refine ⟨?_, ?_, ?_⟩
  · exact (Stretch.visited n sink e h).append (haround (Nat.le_refl t))
      ((hinside.mono fun _ => False.elim).append (haround (Nat.le_succ t))
        (Stretch.returned n o hsame))
  · rw [visits_append, visits_append, hvisits]
    simp [visits]
  · rw [returns_append, returns_append, hreturns]
    simp [returns]

/-- The visits of an emission. The induction is on the sinks that are left. -/
theorem visitEntries_tells {n : Nat} (policy : DeliveryPolicy) (e : GatewayEvent) :
    ∀ (sinks : List Sink) (h : Hub) {t : Nat}, n < t →
      Round n policy e sinks t h (visitEntries courier scribe n policy e sinks h t)
        (emit courier policy e sinks h).1
  | [], h, _, _ => ⟨.nil h, .nil⟩
  | sink :: rest, h, t, hn => by
      rcases hcall : courier sink e h with ⟨h₁, o⟩
      have hvisit : ∀ {h'}, h₁.Gains [] h' → Visit n sink e o t h _ h' :=
        visit_tells hfaithful hn hcall
      have hlater : ∀ k : Nat, n < t + k := fun k => Nat.lt_of_lt_of_le hn (Nat.le_add_right t k)
      rw [visitEntries, emit, hcall]
      cases o with
      | done =>
          have hrest := fun k => visitEntries_tells policy e rest h₁ (hlater k)
          exact .cons hn (hvisit (.of_eq rfl rfl rfl)) id (hrest _)
      | tooDeep => exact .cut (hvisit (.of_eq rfl rfl rfl)) trivial
      | fault f =>
          cases policy with
          | failFast => exact .cut (hvisit (.of_eq rfl rfl rfl)) rfl
          | isolate =>
              have hrest := fun k =>
                visitEntries_tells .isolate e rest (h₁.note (contained f)) (hlater k)
              have hnoted : h₁.Gains [] (h₁.note (contained f)) := .of_eq rfl rfl rfl
              exact .cons hn (hvisit hnoted) nofun (hrest _)

/-! ## The parts of a delivery -/

theorem emissionEntries_tells (source : Source) (e : GatewayEvent) (h : Hub) (t : Nat) :
    Whole t h (emissionEntries courier scribe source e h t)
      (emit courier (h.policyOf source) e (h.sinksOf source) h).1 := by
  have hvisits := visitEntries_tells hfaithful (h.policyOf source) e (h.sinksOf source) h
    (Nat.lt_succ_self t)
  exact .began hvisits.stretch hvisits.emission

theorem passEntries_tells (id : StageId) (e : GatewayEvent) (h : Hub) (t : Nat) :
    Whole t h (passEntries courier scribe id e h t) (h.pass courier id e).1 := by
  unfold passEntries pass
  cases hs : h.stages[id]? with
  | none => exact .nil h
  | some s =>
      dsimp only
      cases hout : s.operation.apply e with
      | error f => exact .nil h
      | ok out? =>
          cases out? with
          | none => exact .nil h
          | some out =>
              have hemission := emissionEntries_tells hfaithful (.stage id) out h t
              simp only [policyOf, sinksOf, hs] at hemission
              exact hemission

theorem performEntries_tells (c : Consumer) (h : Hub) (t : Nat) (a : Act) :
    Whole t h (performEntries courier scribe c h t a) (h.perform courier c a).1 := by
  cases a with
  | feed stage e =>
      rw [performEntries, perform, atStage]
      cases h.locate? stage with
      | error f => exact .nil h
      | ok id => exact passEntries_tells hfaithful id e h t
  | dispatch e => exact emissionEntries_tells hfaithful (.listeners e.category) e h t
  | _ => exact .appended (perform_gains courier c h id)

theorem performAllEntries_tells (c : Consumer) :
    ∀ (acts : List Act) (h : Hub) (t : Nat),
      Whole t h (performAllEntries courier scribe c acts h t) (performAll courier c acts h).1
  | [], h, _ => .nil h
  | a :: rest, h, t => by
      have hfirst := performEntries_tells hfaithful c h t a
      rw [performAllEntries, performAll]
      rcases hact : h.perform courier c a with ⟨h₁, o⟩
      rw [hact] at hfirst
      cases o with
      | done => exact hfirst.append nofun (performAllEntries_tells c rest h₁ _)
      | fault f => exact hfirst
      | tooDeep => exact hfirst

end

/-- A delivery does what its chronicle tells, however deep it nests. -/
theorem deliver_faithful (behaviour : Behaviour) :
    ∀ depth, Faithful (deliver behaviour depth) (deliverEntries behaviour depth)
  | 0 => fun sink e h _ => .nil (h.arrive sink e)
  | depth + 1 => by
      intro sink e h t
      have ih := deliver_faithful behaviour depth
      cases sink with
      | stage id => exact passEntries_tells ih id e h t
      | consumer c => exact performAllEntries_tells ih c _ _ t

/-! ## Runs -/

variable (behaviour : Behaviour)

theorem acceptEntries_tells (id : StageId) (e : GatewayEvent) (h : Hub) (t : Nat) :
    Whole t h (acceptEntries behaviour id e h t) (h.accept behaviour id e).1 :=
  passEntries_tells (deliver_faithful behaviour h.depthLimit) id e h t

theorem acceptAllEntries_tells (id : StageId) :
    ∀ (es : List GatewayEvent) (h : Hub) (t : Nat),
      Whole t h (acceptAllEntries behaviour id es h t) (h.acceptAll behaviour id es).1
  | [], h, _ => .nil h
  | e :: rest, h, t => by
      have hfirst := acceptEntries_tells behaviour id e h t
      rw [acceptAllEntries, acceptAll]
      rcases haccept : h.accept behaviour id e with ⟨h₁, o⟩
      rw [haccept] at hfirst
      cases o with
      | done => exact hfirst.append nofun (acceptAllEntries_tells id rest h₁ _)
      | fault f => exact hfirst
      | tooDeep => exact hfirst

theorem stepEntries_tells (h : Hub) (t : Nat) (s : HubStep) :
    Whole t h (h.stepEntries behaviour t s) (h.step behaviour s).1 := by
  cases s with
  | accept stage e =>
      rw [stepEntries, step, withStage]
      cases h.find? stage with
      | error f => exact .nil h
      | ok id => exact acceptEntries_tells behaviour id e h t
  | acceptAll stage es =>
      rw [stepEntries, step, withStage]
      cases h.find? stage with
      | error f => exact .nil h
      | ok id => exact acceptAllEntries_tells behaviour id es h t
  | dispatch e =>
      exact emissionEntries_tells (deliver_faithful behaviour h.depthLimit)
        (.listeners e.category) e h t
  | _ => exact .appended (step_gains behaviour h id)

theorem runEntries_tells :
    ∀ (steps : List HubStep) (h : Hub) (t : Nat),
      Whole t h (runEntries behaviour steps h t) (h.run behaviour steps)
  | [], h, _ => .nil h
  | s :: rest, h, t =>
    (stepEntries_tells behaviour h t s).append nofun (runEntries_tells rest _ _)

end Hub

/-- The hub at a moment of a run that leads to `h'`, which stands for the time after the last. -/
def hubAt (l : List Entry) (h' : Hub) (i : Nat) : Hub :=
  match l[i]? with
  | some k => k.hub
  | none => h'

/-- What the chronicle of a run from one hub to another says about emissions and sinks. -/
structure Tells (h : Hub) (l : List Entry) (h' : Hub) : Prop where
  received : h'.received = h.received ++ receipts l
  first : ∀ source, (hubAt l h' 0).sinksOf source = h.sinksOf source
  /-- At each later moment a source has the sinks that it had before, and behind them those that
  were appended in between. -/
  grown : ∀ {i j}, i ≤ j → ∀ source, (hubAt l h' j).sinksOf source
    = (hubAt l h' i).sinksOf source ++ appended source ((l.take j).drop i)
  mentions : ∀ {i n : Nat} {k : Entry}, l[i]? = some k → k.moment.emission? = some n →
    n < i ∧ ∃ source e g, l[n]? = some ⟨.began source e, g⟩
  /-- Each emission visits the sinks that its source had when it began. -/
  emissions : ∀ {n : Nat} {source e g}, l[n]? = some ⟨.began source e, g⟩ →
    Emission (g.policyOf source) e (g.sinksOf source) (visits n l) (returns n l)
  /-- An appended sink is not visited by the emissions that began before, and at its place by those
  that begin afterwards, unless they are cut short before it. -/
  fresh : ∀ {i place : Nat} {more g source sink}, l[i]? = some ⟨.appended more, g⟩ →
    (g.sinksOf source).length ≤ place → (g.sinksOf source ++ more.to source)[place]? = some sink →
    ∀ {n : Nat} {e g'}, l[n]? = some ⟨.began source e, g'⟩ →
      (n < i → (visits n l).length ≤ place)
      ∧ (i < n → (visits n l)[place]? = some (sink, e)
        ∨ (visits n l).length ≤ place ∧ CutShort (g'.policyOf source) (returns n l))

namespace Stretch

variable {h h' : Hub} {l : List Entry}

theorem sinksOf_hubAt {t : Nat} (hwhole : Whole t h l h') (i : Nat) (source : Source) :
    (hubAt l h' i).sinksOf source
      = h.sinksOf source ++ GatewayClient.appended source (l.take i) := by
  unfold hubAt
  split
  · next k hk => exact hwhole.during hk source
  · next hnone =>
    rw [List.take_of_length_le (List.getElem?_eq_none_iff.mp hnone)]
    exact hwhole.grown source

theorem sinksOf_hubAt_of_le {t : Nat} (hwhole : Whole t h l h') {i j : Nat} (hij : i ≤ j)
    (source : Source) :
    (hubAt l h' j).sinksOf source = (hubAt l h' i).sinksOf source
      ++ GatewayClient.appended source ((l.take j).drop i) := by
  have hsplit : l.take j = l.take i ++ (l.take j).drop i := by
    rw [← Nat.min_eq_left hij, ← List.take_take, Nat.min_eq_left hij, List.take_append_drop]
  rw [hwhole.sinksOf_hubAt i, List.append_assoc, ← appended_append, ← hsplit]
  exact hwhole.sinksOf_hubAt j source

/-- Right after a moment that appends sinks its source has them at the end. -/
theorem sinksOf_hubAt_succ {t : Nat} (hwhole : Whole t h l h') {i : Nat} {more : Additions}
    {g : Hub} (hi : l[i]? = some ⟨.appended more, g⟩) (source : Source) :
    (hubAt l h' (i + 1)).sinksOf source = g.sinksOf source ++ more.to source := by
  rw [hwhole.sinksOf_hubAt (i + 1), List.take_add_one, hi, appended_append, ← List.append_assoc,
    ← hwhole.during hi source]
  simp [GatewayClient.appended]

theorem tells (hwhole : Whole 0 h l h') : Tells h l h' where
  received := hwhole.received
  first source := by simp [hwhole.sinksOf_hubAt 0 source, GatewayClient.appended]
  grown hij source := hwhole.sinksOf_hubAt_of_le hij source
  mentions {i n k} hk hn := by
    obtain hfalse | ⟨j, hj, hji, hbegan⟩ := hwhole.mentions hk hn
    · exact hfalse.elim
    · obtain rfl : n = j := by omega
      exact ⟨hji, hbegan⟩
  emissions {n source e g} hn := by
    have hemission := hwhole.emissions hn
    rwa [Nat.zero_add] at hemission
  fresh {i place more g source sink} hi hplace hsink {n e g'} hn := by
    have hemission := hwhole.emissions hn
    rw [Nat.zero_add] at hemission
    have hbegan : hubAt l h' n = g' := by simp only [hubAt, hn]
    constructor
    · intro hni
      -- The emission visits no more sinks than there were when it began.
      have happended : hubAt l h' i = g := by simp only [hubAt, hi]
      have hgrown := congrArg List.length
        (hwhole.sinksOf_hubAt_of_le (Nat.le_of_lt hni) source)
      rw [hbegan, happended, List.length_append] at hgrown
      have hlength := hemission.length_visits
      have hwithin := hemission.within
      omega
    · intro hin
      -- When the emission began the sink was at its place, and what was appended since is behind.
      have hgrown := hwhole.sinksOf_hubAt_of_le (Nat.succ_le_of_lt hin) source
      rw [hbegan, hwhole.sinksOf_hubAt_succ hi] at hgrown
      have hat : (g'.sinksOf source)[place]? = some sink := by
        rw [hgrown, List.getElem?_append_left (List.getElem?_eq_some_iff.mp hsink).1]
        exact hsink
      rcases Nat.lt_or_ge place (returns n l).length with hvisited | hcut
      · left
        rw [hemission.visits_getElem? hvisited, hat]
        rfl
      · right
        have hlength := hemission.length_visits
        have hlong := (List.getElem?_eq_some_iff.mp hat).1
        refine ⟨by omega, hemission.all_or_cut.resolve_left ?_⟩
        omega

end Stretch

end GatewayClient
