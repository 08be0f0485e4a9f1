import GatewayClient.Proofs.Scenario.Application

/-!
# What a lookup keeps

A lookup goes on over any number of attempts, and what it probes with and how long it waits was
fixed when it was called: no run of it changes its request or its backoff (`Leg.step_lookup`). So in
every passage of its task the control plane sees its request or nothing, and when the task goes to
sleep after a failed attempt, it does so for the time that its backoff has for that attempt
(`History.seeks`).
-/

namespace GatewayClient

namespace Lookup

/-- A lookup with the request and the backoff of another. -/
structure Alike (l l' : Lookup) : Prop where
  request : l'.request = l.request
  backoff : l'.backoff = l.backoff

theorem Alike.trans {l l' l'' : Lookup} (h : l.Alike l') (h' : l'.Alike l'') : l.Alike l'' :=
  ⟨h'.request.trans h.request, h'.backoff.trans h.backoff⟩

theorem Upshot.alike {l l' : Lookup} {s : ProbeStep} {cancelled : Bool} {next : LookupNext}
    (hupshot : Upshot l s cancelled l' next) : l.Alike l' := by
  cases hupshot <;> exact ⟨rfl, rfl⟩

theorem Leg.step_lookup (g : Leg) : g.lookup.Alike g.step.lookup := by
  rcases g.upshot_or_stop with ⟨s, hupshot⟩ | ⟨notes, -, -, hstep⟩
  · exact hupshot.alike
  · rw [hstep]
    exact ⟨rfl, rfl⟩

/-- A run that ends in a backoff waits for as long as the backoff of the lookup says. -/
theorem Leg.backs_off {g : Leg} {n : UInt32} {ms : Nat}
    (hnext : g.step.next = .wait (.backingOff n) ms) : ms = g.lookup.backoff.delayFor n := by
  rcases g.upshot_or_stop with ⟨s, hupshot⟩ | ⟨notes, -, -, hstep⟩
  · rw [hnext] at hupshot
    generalize g.step.lookup = l at hupshot
    cases hupshot
    rfl
  · rw [hstep] at hnext
    cases hnext

end Lookup

/-- In a passage the control plane sees one request or nothing, and if a task sleeps in its backoff
afterwards, then since this passage and for as long as the backoff says. -/
structure Passage.Seeks (p : Passage) (id : TaskId) (request : ProbeRequest) (backoff : Backoff) :
    Prop where
  probes : p.after.plane.probes = p.before.plane.probes
    ∨ p.after.plane.probes = p.before.plane.probes ++ [⟨p.before.scheduler.now, request⟩]
  waits : ∀ k l n,
    p.after.scheduler.tasks[id]? = some (.live (.lookup k l (some (.backingOff n)))) →
      p.after.scheduler.sleepers = p.before.scheduler.sleepers
        ++ [⟨id, p.before.scheduler.dueIn (backoff.delayFor n), l.token⟩]

namespace World

variable {id : TaskId} {k : ClientId} {l₀ l : Lookup} {phase : Option LookupPhase} {w : World}

/-- A lookup that is like another, or the end of one, is the task. -/
inductive Seeking (k : ClientId) (id : TaskId) (l₀ : Lookup) (w : World) : Prop
  | underWay {l : Lookup} {phase : Option LookupPhase} :
      w.scheduler.tasks[id]? = some (.live (.lookup k l phase)) → l₀.Alike l → Seeking k id l₀ w
  | ended {ending : Ending} : w.scheduler.tasks[id]? = some (.ended ending) → Seeking k id l₀ w

/-- What a lookup applies does not concern the control plane. -/
theorem runLookup_plane (k : ClientId) (l : Lookup) (phase : Option LookupPhase) (wake : Wake)
    (w : World) :
    (w.runLookup k l phase wake).1.plane = (w.stepLookup l phase wake).1.plane := by
  unfold runLookup
  rcases w.stepLookup l phase wake with ⟨w₁, step⟩
  dsimp only
  split
  · rfl
  · rfl
  · rfl
  · next report _ =>
    rcases applyReport_cases k report w₁ with ⟨e, -, heq⟩ | ⟨c, -, heq⟩
    · rw [heq]
    · rw [heq]
      rfl

theorem runTask_plane {work : Work} (htask : w.scheduler.tasks[id]? = some (.live work))
    (wake : Wake) : (w.runTask id wake).plane = (w.run work wake).1.plane := by
  rw [runTask_eq htask]

theorem runTask_seeks (htask : w.scheduler.tasks[id]? = some (.live (.lookup k l phase)))
    (halike : l₀.Alike l) (wake : Wake) :
    Passage.Seeks ⟨w, .task id wake, w.runTask id wake⟩ id l₀.request l₀.backoff
      ∧ (w.runTask id wake).Seeking k id l₀ := by
  have hset : ∀ task, (w.scheduler.tasks.setIfInBounds id task)[id]? = some task := fun task =>
    Array.getElem?_setIfInBounds_self_of_lt (Array.getElem?_eq_some_iff.mp htask).1
  let g : Lookup.Leg := ⟨w, l, phase, wake⟩
  have hprobes : (w.runTask id wake).plane.probes = w.plane.probes
      ∨ (w.runTask id wake).plane.probes =
        w.plane.probes ++ [⟨w.scheduler.now, l₀.request⟩] := by
    have hafter : (w.runTask id wake).plane = g.after.plane :=
      (runTask_plane htask wake).trans (runLookup_plane k l phase wake w)
    rw [hafter, g.probes_after, ← halike.request]
    cases g.course? with
    | none => exact .inl (List.append_nil _)
    | some c => exact .inr rfl
  have hstep := halike.trans g.step_lookup
  have hrun := runTask_lookup htask wake
  generalize w.runTask id wake = w' at hrun hprobes ⊢
  cases hrun with
  | @waits phase' ms hnext hsame hscheduler =>
      have htask' : w'.scheduler.tasks[id]? =
          some (.live (.lookup k g.step.lookup (some phase'))) := by
        rw [hscheduler]
        exact hset _
      refine ⟨⟨hprobes, fun k' l' n hn => ?_⟩, .underWay htask' hstep⟩
      rw [htask'] at hn
      cases hn
      have hms := Lookup.Leg.backs_off hnext
      rw [hms, halike.backoff] at hscheduler
      rw [hscheduler]
      rfl
  | faults hnext hsame hscheduler =>
      have hended := (congrArg (·.tasks[id]?) hscheduler).trans (hset _)
      exact ⟨⟨hprobes, fun _ _ _ hn => by rw [hended] at hn; cases hn⟩, .ended hended⟩
  | fails hnext hsame hscheduler =>
      have hended := (congrArg (·.tasks[id]?) hscheduler).trans (hset _)
      exact ⟨⟨hprobes, fun _ _ _ hn => by rw [hended] at hn; cases hn⟩, .ended hended⟩
  | refused hnext happly hsame hscheduler =>
      have hended := (congrArg (·.tasks[id]?) hscheduler).trans (hset _)
      exact ⟨⟨hprobes, fun _ _ _ hn => by rw [hended] at hn; cases hn⟩, .ended hended⟩
  | applied hnext happly hcurrent hclients hscheduler =>
      have hended := (congrArg (·.tasks[id]?) hscheduler).trans (hset _)
      exact ⟨⟨hprobes, fun _ _ _ hn => by rw [hended] at hn; cases hn⟩, .ended hended⟩

/-- A passage of whomever leaves the lookup what it was, and a passage of its own task is as its
request and its backoff say. -/
theorem Seeking.passage {mover : Mover} {w' : World} (hseeking : w.Seeking k id l₀)
    (hpasses : w.Passes mover w') :
    (Passage.By ⟨w, mover, w'⟩ id → Passage.Seeks ⟨w, mover, w'⟩ id l₀.request l₀.backoff)
      ∧ w'.Seeking k id l₀ := by
  by_cases hown : ∃ wake, mover = .task id wake
  · obtain ⟨wake, rfl⟩ := hown
    obtain rfl : w' = w.runTask id wake := by cases hpasses; rfl
    cases hseeking with
    | underWay htask halike =>
        obtain ⟨hseeks, hseeking'⟩ := runTask_seeks htask halike wake
        exact ⟨fun _ => hseeks, hseeking'⟩
    | ended htask =>
        have hidle := (@runTask_idle id w wake fun work hlive => by
          rw [htask] at hlive; cases hlive).2
        rw [hidle]
        exact ⟨fun _ => ⟨.inl rfl, fun _ _ _ hn => by rw [htask] at hn; cases hn⟩, .ended htask⟩
  · refine ⟨fun hby => absurd hby hown, ?_⟩
    have hkeeps : ∀ task, w.scheduler.tasks[id]? = some task → _ :=
      fun task => hpasses.task_cases fun wake heq => hown ⟨wake, heq⟩
    cases hseeking with
    | underWay htask halike =>
        rcases hkeeps _ htask with hstays | ⟨-, haborted⟩
        · exact .underWay hstays halike
        · exact .ended haborted
    | ended htask =>
        rcases hkeeps _ htask with hstays | ⟨-, haborted⟩
        · exact .ended hstays
        · exact .ended haborted

/-- Whatever happens, a lookup probes with its request and waits by its backoff. -/
theorem History.seeks {w₁ : World} {ps : List Passage} (hhistory : w₁.History ps w)
    (htask : w₁.scheduler.tasks[id]? = some (.live (.lookup k l₀ none))) :
    (∀ p ∈ ps, p.By id → p.Seeks id l₀.request l₀.backoff) ∧ w.Seeking k id l₀ := by
  induction hhistory with
  | start => exact ⟨fun p hp => (List.not_mem_nil hp).elim, .underWay htask ⟨rfl, rfl⟩⟩
  | passage _ hpasses ih =>
      obtain ⟨hpast, hseeking⟩ := ih
      obtain ⟨hlast, hseeking'⟩ := hseeking.passage hpasses
      refine ⟨fun p hp hby => ?_, hseeking'⟩
      rcases List.mem_append.mp hp with hold | hnew
      · exact hpast p hold hby
      · obtain rfl := List.mem_singleton.mp hnew
        exact hlast hby

end World

end GatewayClient
