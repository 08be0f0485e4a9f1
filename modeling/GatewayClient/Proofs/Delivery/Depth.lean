import GatewayClient.Pipeline.Delivery

/-!
# The depth of a delivery is only a bound

A delivery that comes to an end within some depth comes to the same end within any greater one
(`deliver_mono`). Each part of a delivery takes a courier for the parts below it, so the argument
is made once per part: a courier that agrees with another one wherever that one comes to an end
may take its place (`emit_extends` to `performAll_extends`), and `deliver` is the case in which the
courier has one level less.
-/

namespace GatewayClient

theorem Outcome.done_ne : Outcome.done ≠ .tooDeep := Outcome.noConfusion

theorem Outcome.fault_ne (f : Fault) : Outcome.fault f ≠ .tooDeep := Outcome.noConfusion

namespace Hub

/-- The second courier does what the first one does wherever that comes to an end. -/
def Extends (courier courier' : Courier) : Prop :=
  ∀ sink e h, (courier sink e h).2 ≠ .tooDeep → courier' sink e h = courier sink e h

section

variable {courier courier' : Courier} (hext : Extends courier courier')
include hext

theorem emit_extends (policy : DeliveryPolicy) (e : GatewayEvent) :
    ∀ (sinks : List Sink) (h : Hub), (emit courier policy e sinks h).2 ≠ .tooDeep →
      emit courier' policy e sinks h = emit courier policy e sinks h
  | [], _, _ => rfl
  | sink :: rest, h, hends => by
      rcases hcall : courier sink e h with ⟨h', o⟩
      have hsame := hext sink e h
      rw [hcall] at hsame
      simp only [emit, hcall] at hends ⊢
      cases o with
      | tooDeep => exact absurd rfl hends
      | done =>
          rw [hsame (by simp)]
          exact emit_extends policy e rest h' hends
      | fault f =>
          rw [hsame (by simp)]
          cases policy with
          | failFast => rfl
          | isolate => exact emit_extends .isolate e rest _ hends

theorem pass_extends (id : StageId) (e : GatewayEvent) (h : Hub)
    (hends : (h.pass courier id e).2 ≠ .tooDeep) :
    h.pass courier' id e = h.pass courier id e := by
  unfold pass at hends ⊢
  split
  · rfl
  · next s hs =>
    rw [hs] at hends
    dsimp only at hends
    split
    · rfl
    · rfl
    · next out hout =>
      rw [hout] at hends
      exact emit_extends hext s.policy out s.sinks h hends

theorem announce_extends (e : GatewayEvent) (h : Hub)
    (hends : (h.announce courier e).2 ≠ .tooDeep) :
    h.announce courier' e = h.announce courier e :=
  emit_extends hext .failFast e _ h hends

theorem perform_extends (c : Consumer) (h : Hub) (a : Act)
    (hends : (h.perform courier c a).2 ≠ .tooDeep) :
    h.perform courier' c a = h.perform courier c a := by
  cases a with
  | feed stage e =>
      simp only [perform, atStage] at hends ⊢
      split
      · rfl
      · next id hid =>
        rw [hid] at hends
        exact pass_extends hext id e h hends
  | dispatch e => exact announce_extends hext e h hends
  | _ => rfl

theorem performAll_extends (c : Consumer) :
    ∀ (acts : List Act) (h : Hub), (performAll courier c acts h).2 ≠ .tooDeep →
      performAll courier' c acts h = performAll courier c acts h
  | [], _, _ => rfl
  | a :: rest, h, hends => by
      rcases hact : h.perform courier c a with ⟨h', o⟩
      have hsame := perform_extends hext c h a
      rw [hact] at hsame
      simp only [performAll, hact] at hends ⊢
      cases o with
      | tooDeep => exact absurd rfl hends
      | done =>
          rw [hsame (by simp)]
          exact performAll_extends c rest h' hends
      | fault f => rw [hsame (by simp)]

end

/-- One level more changes nothing where a delivery comes to an end. -/
theorem deliver_extends_succ (behaviour : Behaviour) :
    ∀ depth, Extends (deliver behaviour depth) (deliver behaviour (depth + 1))
  | 0 => fun _ _ _ hends => absurd rfl hends
  | depth + 1 => by
      intro sink e h hends
      have ih := deliver_extends_succ behaviour depth
      cases sink with
      | stage id => exact pass_extends ih id e h hends
      | consumer c => exact performAll_extends ih c _ _ hends

theorem deliver_mono (behaviour : Behaviour) {depth depth' : Nat} (hle : depth ≤ depth') :
    Extends (deliver behaviour depth) (deliver behaviour depth') := by
  induction hle with
  | refl => exact fun _ _ _ _ => rfl
  | step _ ih =>
      intro sink e h hends
      have heq := ih sink e h hends
      rw [deliver_extends_succ behaviour _ sink e h (heq ▸ hends), heq]

end Hub

end GatewayClient
