import GatewayClient.Scenario.Task

/-!
# Waiting

A call that waits has work of its own in the foreground. The foreground is looked at first, then
all tasks that can run, and when nothing can run the clock moves to the next time at which
something is due. The wait ends as soon as the work in the foreground is done; other tasks stay
where they are.
-/

namespace GatewayClient

inductive Foreground
  /-- The outcomes of handles. -/
  | resolve (pending : List Pending)
  | sleep (due : Nat)
  /-- A single probe; `none` before it started. -/
  | probe (request : ProbeRequest) (asleep : Option (ProbePhase × Nat))
  /-- A lookup that applies nothing; `none` before it started. -/
  | lookup (l : Lookup) (asleep : Option (LookupPhase × Nat))

inductive Attained
  | resolved
  | slept
  | probed (answer : ProbeAnswer)
  | found (retry : RetryCounter) (result : Except ClientError LookupReport)
  | faulted (retry : Option RetryCounter) (f : Fault)
  /-- Nothing is due any more, or the patience has come to an end. -/
  | stalled

namespace Foreground

/-- When the foreground is due by itself. -/
def due? : Foreground → Option Nat
  | resolve _ => none
  | sleep due => some due
  | probe _ asleep => asleep.map (·.2)
  | lookup _ asleep => asleep.map (·.2)

end Foreground

namespace World

/-- Goes on with a single probe after a step of it. -/
def followProbe (request : ProbeRequest) (s : ProbeStep) (w : World) :
    World × (Foreground ⊕ Attained) :=
  let w := { w with plane := w.plane.tally s.deeds }
  match s.next with
  | .wait phase ms =>
    if w.scheduler.running then
      (w, .inl (.probe request (some (phase, w.scheduler.dueIn ms))))
    else (w, .inr (.faulted none Scheduler.stopped))
  | .settled answer => (w, .inr (.probed answer))
  | .faulted f => (w, .inr (.faulted none f))

/-- Goes on with a lookup for a reason. -/
def followLookup (l : Lookup) (phase : Option LookupPhase) (wake : Wake) (w : World) :
    World × (Foreground ⊕ Attained) :=
  let (w, step) := w.stepLookup l phase wake
  match step.next with
  | .wait phase ms =>
    if w.scheduler.running then
      (w, .inl (.lookup step.lookup (some (phase, w.scheduler.dueIn ms))))
    else (w, .inr (.faulted (some step.lookup.retry) Scheduler.stopped))
  | .returned result => (w, .inr (.found step.lookup.retry result))
  | .faulted f => (w, .inr (.faulted (some step.lookup.retry) f))

/-- Looks at the foreground: it stays, perhaps further on, or it is done. -/
def attend (fg : Foreground) (w : World) : World × (Foreground ⊕ Attained) :=
  match fg with
  | .resolve pending =>
    if pending.all w.isFinished then (w, .inr .resolved) else (w, .inl fg)
  | .sleep due => if due ≤ w.scheduler.now then (w, .inr .slept) else (w, .inl fg)
  | .probe request none =>
    let (course, plane) := w.plane.take w.scheduler.now request
    { w with plane }.followProbe request (Probe.start course)
  | .probe request (some (phase, due)) =>
    if due ≤ w.scheduler.now then w.followProbe request (Probe.resume phase) else (w, .inl fg)
  | .lookup l none => w.followLookup l none .started
  | .lookup l (some (phase, due)) =>
    if due ≤ w.scheduler.now then w.followLookup l (some phase) .timer
    else if w.scheduler.isCancelled (tokenOf l phase) then w.followLookup l (some phase) .token
    else (w, .inl fg)

/-- The earliest time at which a task or the foreground is due. -/
def nextDue? (fg : Foreground) (w : World) : Option Nat :=
  (fg.due?.toList ++ w.scheduler.nextDue?.toList).min?

/-- Waits for the foreground, in at most `patience` rounds. A drain of the queue runs each task at
most twice: a task that is woken by a token while the queue is drained ends. -/
def await : Nat → Foreground → World → World × Attained
  | 0, _, w => (w, .stalled)
  | patience + 1, fg, w =>
    match w.attend fg with
    | (w, .inr attained) => (w, attained)
    | (w, .inl fg) =>
      if w.scheduler.queue.isEmpty then
        match w.nextDue? fg with
        | none => (w, .stalled)
        | some time => await patience fg { w with scheduler := w.scheduler.moveTo time }
      else
        await patience fg
          (w.drain (2 * w.scheduler.tasks.size + w.scheduler.queue.length))

/-- Rounds of waiting after which a wait counts as endless. -/
def patience : Nat := 1000000000000

end World

end GatewayClient
