import Mathlib.Data.Prod.Lex
import Mathlib.Order.WellFounded
import GatewayClient.Proofs.Lookup.Pace
import GatewayClient.Proofs.Scenario.Quiet

/-!
# A wait for logins comes to an end

While the foreground waits for logins, the scheduler runs what is queued and moves the clock when
nothing is. Each of these moves makes the burden of the scheduler smaller (`burden_turn`,
`burden_clock`), which has three parts, the first one weighing most:

* the turns that tasks have left, lookups left out: no such task has more than two;
* the time that these tasks still have to sleep;
* what lookups still do before their next backoffs, which take time.

So a lookup that goes on for good does not keep a login from its turns, and a wait for logins ends
(`await_logins`).
-/

namespace GatewayClient

/-! ## Sums -/

/-- The sum of a weight over a list. -/
def weigh {α : Type} (weight : α → Nat) : List α → Nat
  | [] => 0
  | a :: rest => weight a + weigh weight rest

section

variable {α β : Type} {f g : α → Nat}

theorem weigh_append (f : α → Nat) (l l' : List α) :
    weigh f (l ++ l') = weigh f l + weigh f l' := by
  induction l with
  | nil => exact (Nat.zero_add _).symm
  | cons a rest ih => rw [List.cons_append, weigh, weigh, ih, Nat.add_assoc]

theorem weigh_singleton (f : α → Nat) (a : α) : weigh f [a] = f a := rfl

theorem weigh_map (f : β → Nat) (h : α → β) (l : List α) :
    weigh f (l.map h) = weigh (fun a => f (h a)) l := by
  induction l with
  | nil => rfl
  | cons a rest ih => rw [List.map_cons, weigh, weigh, ih]

theorem weigh_filter (f : α → Nat) (p : α → Bool) (l : List α) :
    weigh f (l.filter p) = weigh (fun a => if p a then f a else 0) l := by
  induction l with
  | nil => rfl
  | cons a rest ih =>
      rw [List.filter_cons, weigh]
      split
      · rw [weigh, ih]
      · rw [ih, Nat.zero_add]

theorem weigh_le {l : List α} (hle : ∀ a ∈ l, f a ≤ g a) : weigh f l ≤ weigh g l := by
  induction l with
  | nil => exact Nat.le_refl _
  | cons a rest ih =>
      have hrest := ih fun b hb => hle b (List.mem_cons_of_mem _ hb)
      exact Nat.add_le_add (hle a List.mem_cons_self) hrest

theorem weigh_lt {l : List α} (hle : ∀ a ∈ l, f a ≤ g a) (hlt : ∃ a ∈ l, f a < g a) :
    weigh f l < weigh g l := by
  induction l with
  | nil =>
      obtain ⟨a, ha, -⟩ := hlt
      cases ha
  | cons a rest ih =>
      have hrest : ∀ b ∈ rest, f b ≤ g b := fun b hb => hle b (List.mem_cons_of_mem _ hb)
      obtain ⟨b, hb, hfb⟩ := hlt
      rcases List.mem_cons.mp hb with rfl | hb'
      · exact Nat.add_lt_add_of_lt_of_le hfb (weigh_le hrest)
      · exact Nat.add_lt_add_of_le_of_lt (hle a List.mem_cons_self) (ih hrest ⟨b, hb', hfb⟩)

theorem weigh_congr {l : List α} (heq : ∀ a ∈ l, f a = g a) : weigh f l = weigh g l :=
  Nat.le_antisymm (weigh_le fun a ha => Nat.le_of_eq (heq a ha))
    (weigh_le fun a ha => Nat.le_of_eq (heq a ha).symm)

theorem weigh_add (f g : α → Nat) (l : List α) :
    weigh f l + weigh g l = weigh (fun a => f a + g a) l := by
  induction l with
  | nil => rfl
  | cons a rest ih =>
      rw [weigh, weigh, weigh, ← ih]
      omega

theorem weigh_set (f : α → Nat) {l : List α} {i : Nat} {a b : α} (hi : l[i]? = some a) :
    weigh f (l.set i b) + f a = weigh f l + f b := by
  induction l generalizing i with
  | nil => cases hi
  | cons c rest ih =>
      cases i with
      | zero =>
          cases hi
          rw [List.set_cons_zero, weigh, weigh]
          omega
      | succ i =>
          have hrest := ih (i := i) hi
          rw [List.set_cons_succ, weigh, weigh]
          omega

end

/-! ## The burden of the scheduler -/

/-- How many runs a lookup can still have before it waits out a backoff. -/
def Lookup.runsFrom : Option LookupPhase → Nat
  | some (.probing phase) => phase.rank + 1
  | _ => 4

/-- How many turns a task has left at most, if it is not a lookup. -/
def Work.turnsLeft : Work → Nat
  | .connect _ | .cancelAfter .. => 2
  | .opening .. | .cancelNow _ => 1
  | .lookup .. => 0

def Work.runsLeft : Work → Nat
  | .lookup _ _ phase => Lookup.runsFrom phase
  | _ => 0

def Task.turnsLeft : Task → Nat
  | .live work => work.turnsLeft
  | .ended _ => 0

def Task.runsLeft : Task → Nat
  | .live work => work.runsLeft
  | .ended _ => 0

/-- What is still to do before the clock moves on after a run, of what slept. -/
def Progress.runsDue : Progress → Nat
  | .asleep work ms _ => if ms = 0 then 2 * work.runsLeft + 2 else 0
  | .ended _ => 0

theorem Work.turnsLeft_pos {work : Work} (hwork : ∀ k l phase, work ≠ .lookup k l phase) :
    0 < work.turnsLeft := by
  cases work with
  | lookup k l phase => exact absurd rfl (hwork k l phase)
  | connect | cancelAfter => exact Nat.two_pos
  | opening | cancelNow => exact Nat.one_pos

namespace Scheduler

def turnsOf (id : TaskId) (r : Scheduler) : Nat := (r.tasks[id]?).elim 0 Task.turnsLeft

def runsOf (id : TaskId) (r : Scheduler) : Nat := (r.tasks[id]?).elim 0 Task.runsLeft

/-- The turns that are left of the tasks that are not lookups. -/
def turnsLeft (r : Scheduler) : Nat := weigh Task.turnsLeft r.tasks.toList

/-- The time that a sleeper with turns left still has to sleep. -/
def timeLeft (r : Scheduler) (s : Sleeper) : Nat :=
  if r.turnsOf s.task = 0 then 0 else s.due - r.now

/-- The time that the tasks with turns left still have to sleep. -/
def gap (r : Scheduler) : Nat := weigh r.timeLeft r.sleepers

/-- What a sleeper still does before the clock moves on. A run weighs two, so that to be queued for
it, which takes one away, counts too. -/
def runsDue (r : Scheduler) (s : Sleeper) : Nat :=
  if s.due ≤ r.now then 2 * r.runsOf s.task + 2 else 0

/-- What is still done before the clock moves on. -/
def bustle (r : Scheduler) : Nat :=
  weigh (fun e => 2 * r.runsOf e.1 + 1) r.queue + weigh r.runsDue r.sleepers

def burden (r : Scheduler) : Nat ×ₗ Nat ×ₗ Nat := toLex (r.turnsLeft, toLex (r.gap, r.bustle))

variable {r r' : Scheduler}

theorem burden_lt_of_turnsLeft (hturns : r'.turnsLeft < r.turnsLeft) : r'.burden < r.burden :=
  Prod.Lex.toLex_lt_toLex.mpr (.inl hturns)

theorem burden_lt_of_gap (hturns : r'.turnsLeft = r.turnsLeft) (hgap : r'.gap < r.gap) :
    r'.burden < r.burden :=
  Prod.Lex.toLex_lt_toLex.mpr (.inr ⟨hturns, Prod.Lex.toLex_lt_toLex.mpr (.inl hgap)⟩)

theorem burden_lt_of_bustle (hturns : r'.turnsLeft = r.turnsLeft) (hgap : r'.gap ≤ r.gap)
    (hbustle : r'.bustle < r.bustle) : r'.burden < r.burden := by
  rcases Nat.lt_or_eq_of_le hgap with hless | hsame
  · exact burden_lt_of_gap hturns hless
  · exact Prod.Lex.toLex_lt_toLex.mpr
      (.inr ⟨hturns, Prod.Lex.toLex_lt_toLex.mpr (.inr ⟨hsame, hbustle⟩)⟩)

/-! ## When the clock moves -/

theorem gap_moveTo (time : Nat) (r : Scheduler) :
    (r.moveTo time).gap =
      weigh (fun s => if !decide (s.due ≤ Nat.max r.now time) then
        if r.turnsOf s.task = 0 then 0 else s.due - Nat.max r.now time else 0) r.sleepers := by
  rw [moveTo_eq]
  exact weigh_filter _ _ _

/-- A sleeper that is due weighs more than it does in the queue. -/
theorem bustle_moveTo {time : Nat} (hqueue : r.queue = []) (hnow : time ≤ r.now)
    (hdue : ∃ s ∈ r.sleepers, s.due ≤ r.now) : (r.moveTo time).bustle < r.bustle := by
  have hmax : Nat.max r.now time = r.now := Nat.max_eq_left hnow
  have hmoved : (r.moveTo time).bustle =
      weigh (fun s => (if decide (s.due ≤ r.now) then 2 * r.runsOf s.task + 1 else 0)
        + if !decide (s.due ≤ r.now) then r.runsDue s else 0) r.sleepers := by
    rw [← weigh_add, ← weigh_filter, ← weigh_filter, bustle, moveTo_eq, hmax]
    simp only [Scheduler.rouse, hqueue, List.nil_append, weigh_map]
    rfl
  have hidle : r.bustle = weigh r.runsDue r.sleepers := by
    rw [bustle, hqueue, weigh, Nat.zero_add]
  rw [hmoved, hidle]
  refine weigh_lt (fun s _ => ?_) ?_
  · by_cases hpast : s.due ≤ r.now <;> simp [runsDue, hpast]
  · obtain ⟨s, hs, hpast⟩ := hdue
    exact ⟨s, hs, by simp [runsDue, hpast]⟩

/-- The clock moves to the end of a wait while a task sleeps that has turns left. -/
theorem burden_clock {time : Nat} (hqueue : r.queue = [])
    (hfirst : ∀ s ∈ r.sleepers, time ≤ s.due) (hdue : ∃ s ∈ r.sleepers, s.due = time)
    (hwaits : ∃ s ∈ r.sleepers, 0 < r.turnsOf s.task) : (r.moveTo time).burden < r.burden := by
  have hturns : (r.moveTo time).turnsLeft = r.turnsLeft := by rw [moveTo_eq]; rfl
  rcases Nat.lt_or_ge r.now time with hlater | hnow
  · have hmax : Nat.max r.now time = time := Nat.max_eq_right (Nat.le_of_lt hlater)
    refine burden_lt_of_gap hturns ?_
    rw [gap_moveTo, hmax, gap]
    refine weigh_lt (fun s hs => ?_) ?_
    · have hle := hfirst s hs
      unfold timeLeft
      split <;> split <;> omega
    · obtain ⟨s, hs, hpos⟩ := hwaits
      have hle := hfirst s hs
      have hturns : r.turnsOf s.task ≠ 0 := by omega
      refine ⟨s, hs, ?_⟩
      rw [timeLeft, if_neg hturns, if_neg hturns]
      split <;> omega
  · have hmax : Nat.max r.now time = r.now := Nat.max_eq_left hnow
    obtain ⟨s, hs, rfl⟩ := hdue
    refine burden_lt_of_bustle hturns ?_ (bustle_moveTo hqueue hnow ⟨s, hs, hnow⟩)
    rw [gap_moveTo, hmax, gap]
    refine weigh_le fun s _ => ?_
    unfold timeLeft
    split <;> omega

end Scheduler

/-! ## When a task has a turn -/

namespace Lookup

/-- A run of a lookup that does not lead to a backoff leaves it fewer runs before one. -/
theorem Leg.runs_lt {g : Leg} {phase : LookupPhase} {ms : Nat}
    (hnext : g.step.next = .wait phase ms) :
    (∃ n, phase = .backingOff n) ∨ runsFrom (some phase) < runsFrom g.phase := by
  rcases g.step_cases with ⟨c, hbegins, -, -, hstep⟩ | ⟨p, hphase, -, hstep⟩ | ⟨_, -, -, -, hstep⟩
  · have hupshot := upshot_follow g.lookup (Probe.start c) g.cancelled
    rw [← hstep, hnext] at hupshot
    have hfull : runsFrom g.phase = 4 := by
      obtain ⟨w, l, phase, wake⟩ := g
      cases hbegins <;> rfl
    rw [hfull]
    generalize g.step.lookup = l at hupshot
    cases hupshot with
    | waits hwaits => exact .inr (Nat.succ_lt_succ (Probe.rank_start hwaits))
    | backsOff => exact .inl ⟨_, rfl⟩
  · have hupshot := upshot_follow g.lookup (Probe.resume p) g.cancelled
    rw [← hstep, hnext] at hupshot
    rw [hphase]
    generalize g.step.lookup = l at hupshot
    cases hupshot with
    | waits hwaits => exact .inr (Nat.succ_lt_succ (Probe.rank_resume hwaits))
    | backsOff => exact .inl ⟨_, rfl⟩
  · rw [hstep] at hnext
    cases hnext

end Lookup

namespace World

variable {w w' : World} {id : TaskId} {wake : Wake} {rest : List (TaskId × Wake)}

theorem run_turnsLeft {work : Work} (hwork : ∀ k l phase, work ≠ .lookup k l phase) (wake : Wake)
    (w : World) : (w.run work wake).2.task.turnsLeft < work.turnsLeft := by
  cases work with
  | lookup k l phase => exact absurd rfl (hwork k l phase)
  | cancelAfter => exact Nat.one_lt_two
  | cancelNow => exact Nat.one_pos
  | opening number q response =>
      obtain ⟨ending, hended, -⟩ := openSession_ended number q response w
      rw [run, hended]
      exact Nat.one_pos
  | connect q =>
      have hopened := (connect_opened q w).2
      rw [run]
      generalize (w.connect q).2 = progress at hopened ⊢
      cases hopened with
      | asleep => exact Nat.one_lt_two
      | ended => exact Nat.two_pos

/-- A run of a lookup leaves it less to do before the clock moves on. -/
theorem runLookup_progress {k : ClientId} {l : Lookup} {phase : Option LookupPhase}
    (hpaced : l.backoff.Paced) (wake : Wake) (w : World) :
    (w.runLookup k l phase wake).2.task.turnsLeft = 0
      ∧ (w.runLookup k l phase wake).2.runsDue ≤ 2 * Lookup.runsFrom phase := by
  have hruns := @Lookup.Leg.runs_lt ⟨w, l, phase, wake⟩
  have hbacks := @Lookup.Leg.backs_off ⟨w, l, phase, wake⟩
  unfold runLookup
  dsimp only
  split
  · next phase' ms hnext =>
    refine ⟨rfl, ?_⟩
    rw [Progress.runsDue]
    split
    · next hzero =>
      rcases hruns hnext with ⟨n, rfl⟩ | hless
      · have hpace := hpaced n
        rw [← hbacks hnext] at hpace
        omega
      · rw [Work.runsLeft]
        dsimp only at hless
        omega
    · exact Nat.zero_le _
  · exact ⟨rfl, Nat.zero_le _⟩
  · exact ⟨rfl, Nat.zero_le _⟩
  · exact ⟨rfl, Nat.zero_le _⟩

end World

namespace Scheduler

variable {r : Scheduler} {id : TaskId}

theorem turnsLeft_settle {task : Task} (htask : r.tasks[id]? = some task) (progress : Progress) :
    (r.settle id progress).turnsLeft + task.turnsLeft = r.turnsLeft + progress.task.turnsLeft := by
  have hi : r.tasks.toList[id]? = some task := by rw [Array.getElem?_toList]; exact htask
  rw [turnsLeft, tasks_settle, Array.toList_setIfInBounds]
  exact weigh_set Task.turnsLeft hi

theorem runsOf_settle {id' : TaskId} (hne : id' ≠ id) (progress : Progress) :
    (r.settle id progress).runsOf id' = r.runsOf id' := by
  rw [runsOf, tasks_settle, Array.getElem?_setIfInBounds_ne hne.symm]
  rfl

theorem turnsOf_settle (id' : TaskId) {task : Task} {progress : Progress}
    (htask : r.tasks[id]? = some task) (hsame : progress.task.turnsLeft = task.turnsLeft) :
    (r.settle id progress).turnsOf id' = r.turnsOf id' := by
  rw [turnsOf, tasks_settle]
  by_cases hown : id = id'
  · subst hown
    have hlt := (Array.getElem?_eq_some_iff.mp htask).1
    rw [Array.getElem?_setIfInBounds_self_of_lt hlt, turnsOf, htask]
    exact hsame
  · rw [Array.getElem?_setIfInBounds_ne hown]
    rfl

/-- A task that is not queued is none of those in the queue. -/
theorem ne_of_wakes_nil (hwakes : r.wakes id = []) {e : TaskId × Wake} (he : e ∈ r.queue) :
    e.1 ≠ id := by
  intro heq
  have hmem : e.2 ∈ r.wakes id :=
    List.mem_map_of_mem (List.mem_filter.mpr ⟨he, decide_eq_true heq⟩)
  rw [hwakes] at hmem
  cases hmem

theorem ne_of_waits_nil (hwaits : r.waits id = []) {s : Sleeper} (hs : s ∈ r.sleepers) :
    s.task ≠ id := by
  intro heq
  have hmem : s ∈ r.waits id := List.mem_filter.mpr ⟨hs, decide_eq_true heq⟩
  rw [hwaits] at hmem
  cases hmem

theorem gap_settle {task : Task} {progress : Progress} (htask : r.tasks[id]? = some task)
    (hbefore : task.turnsLeft = 0) (hafter : progress.task.turnsLeft = 0) :
    (r.settle id progress).gap = r.gap := by
  have hturns : ∀ id', (r.settle id progress).turnsOf id' = r.turnsOf id' :=
    fun id' => turnsOf_settle id' htask (hafter.trans hbefore.symm)
  have hown : r.turnsOf id = 0 := by
    rw [turnsOf, htask]
    exact hbefore
  cases progress with
  | ended ending =>
      refine weigh_congr fun s _ => ?_
      rw [timeLeft, timeLeft, hturns]
      rfl
  | asleep work ms token =>
      have hnew : (r.settle id (.asleep work ms token)).timeLeft ⟨id, r.dueIn ms, token⟩ = 0 := by
        rw [timeLeft, hturns, hown, if_pos rfl]
      refine (weigh_append _ r.sleepers [⟨id, r.dueIn ms, token⟩]).trans ?_
      rw [weigh_singleton, hnew, Nat.add_zero]
      refine weigh_congr fun s _ => ?_
      rw [timeLeft, timeLeft, hturns]
      rfl

/-- Only a wait that takes no time is due at once. -/
theorem dueIn_le_now {ms : Nat} : r.dueIn ms ≤ r.now ↔ ms = 0 := by
  have hlongest : 0 < longestWait := by decide
  have hmin : Nat.min ms longestWait = min ms longestWait := rfl
  rw [dueIn, hmin]
  omega

/-- What is still done, once a task that was taken out of the queue has run. -/
theorem bustle_settle (hlt : id < r.tasks.size) (hwakes : r.wakes id = [])
    (hwaits : r.waits id = []) (progress : Progress) :
    (r.settle id progress).bustle = r.bustle + progress.runsDue := by
  have hqueue : weigh (fun e => 2 * (r.settle id progress).runsOf e.1 + 1) r.queue =
      weigh (fun e => 2 * r.runsOf e.1 + 1) r.queue :=
    weigh_congr fun e he => by rw [runsOf_settle (ne_of_wakes_nil hwakes he)]
  have hsleepers :
      weigh (r.settle id progress).runsDue r.sleepers = weigh r.runsDue r.sleepers := by
    refine weigh_congr fun s hs => ?_
    rw [runsDue, runsDue, runsOf_settle (ne_of_waits_nil hwaits hs)]
    cases progress <;> rfl
  cases progress with
  | ended ending =>
      refine Eq.trans ?_ (Nat.add_zero _).symm
      exact congrArg₂ (· + ·) hqueue hsleepers
  | asleep work ms token =>
      have hown : (r.settle id (.asleep work ms token)).runsDue ⟨id, r.dueIn ms, token⟩ =
          Progress.runsDue (.asleep work ms token) := by
        rw [runsDue, runsOf, tasks_settle, Array.getElem?_setIfInBounds_self_of_lt hlt]
        exact if_congr dueIn_le_now rfl rfl
      have hnew := weigh_append (r.settle id (.asleep work ms token)).runsDue r.sleepers
        [⟨id, r.dueIn ms, token⟩]
      rw [hsleepers, weigh_singleton, hown] at hnew
      exact (congrArg₂ (· + ·) hqueue hnew).trans (Nat.add_assoc ..).symm

end Scheduler

namespace World

variable {w w' : World} {id : TaskId} {wake : Wake} {rest : List (TaskId × Wake)}

/-- The turn of a task that is not a lookup. -/
theorem burden_turn_other {work : Work} (htask : w.scheduler.tasks[id]? = some (.live work))
    (hwork : ∀ k l phase, work ≠ .lookup k l phase) :
    ((w.withQueue rest).runTask id wake).scheduler.burden < w.scheduler.burden := by
  have hless := run_turnsLeft hwork wake (w.withQueue rest)
  have htask' : ((w.withQueue rest).run work wake).1.scheduler.tasks[id]? = some (.live work) := by
    rw [run_tasks]
    exact htask
  have hsame :
      ((w.withQueue rest).run work wake).1.scheduler.turnsLeft = w.scheduler.turnsLeft := by
    rw [Scheduler.turnsLeft, run_tasks]
    rfl
  have hsum := Scheduler.turnsLeft_settle htask' ((w.withQueue rest).run work wake).2
  refine Scheduler.burden_lt_of_turnsLeft ?_
  rw [runTask_scheduler (w := w.withQueue rest) htask]
  rw [hsame] at hsum
  have hwhole : (Task.live work).turnsLeft = work.turnsLeft := rfl
  omega

/-- The turn of a lookup. -/
theorem burden_turn_lookup {k : ClientId} {l : Lookup} {phase : Option LookupPhase}
    (htask : w.scheduler.tasks[id]? = some (.live (.lookup k l phase)))
    (hpaced : l.backoff.Paced) (hqueue : w.scheduler.queue = (id, wake) :: rest)
    (hwakes : (w.withQueue rest).scheduler.wakes id = []) (hwaits : w.scheduler.waits id = []) :
    ((w.withQueue rest).runTask id wake).scheduler.burden < w.scheduler.burden := by
  have hbustle : w.scheduler.bustle =
      2 * Lookup.runsFrom phase + 1 + (w.withQueue rest).scheduler.bustle := by
    have hruns : w.scheduler.runsOf id = Lookup.runsFrom phase := by
      rw [Scheduler.runsOf, htask]
      rfl
    rw [Scheduler.bustle, hqueue, weigh, hruns, Nat.add_assoc]
    rfl
  have hscheduler := runTask_scheduler (w := w.withQueue rest) htask wake
  rw [run, runLookup_scheduler] at hscheduler
  rw [hscheduler]
  obtain ⟨hafter, hruns⟩ := @runLookup_progress k l phase hpaced wake (w.withQueue rest)
  have hlt := (Array.getElem?_eq_some_iff.mp htask).1
  generalize (runLookup k l phase wake (w.withQueue rest)).2 = progress at hafter hruns
  have hturns := Scheduler.turnsLeft_settle (r := (w.withQueue rest).scheduler) htask progress
  have hgap := Scheduler.gap_settle (r := (w.withQueue rest).scheduler) htask rfl hafter
  have hsettled := Scheduler.bustle_settle (r := (w.withQueue rest).scheduler) hlt hwakes hwaits
    progress
  refine Scheduler.burden_lt_of_bustle ?_ (Nat.le_of_eq hgap) ?_
  · rw [hafter] at hturns
    exact hturns
  · rw [hbustle, hsettled]
    omega

/-- Every turn lightens the burden. -/
theorem burden_turn (haccounted : w.scheduler.Accounted id) (hpaced : w.Paced)
    (hqueue : w.scheduler.queue = (id, wake) :: rest) :
    ((w.withQueue rest).runTask id wake).scheduler.burden < w.scheduler.burden := by
  obtain ⟨⟨work, htask⟩, hwakes, hwaits⟩ := haccounted.popped [] rest hqueue
  by_cases hwork : ∃ k l phase, work = .lookup k l phase
  · obtain ⟨k, l, phase, rfl⟩ := hwork
    exact burden_turn_lookup htask (hpaced.lookups id k l phase htask) hqueue hwakes hwaits
  · exact burden_turn_other htask fun k l phase heq => hwork ⟨k, l, phase, heq⟩

/-! ## The wait -/

/-- A pending outcome is not the one of a lookup that goes on. -/
def OfLogin (w : World) : Pending → Prop
  | .failed _ => True
  | .task id => ∃ task, w.scheduler.tasks[id]? = some task
      ∧ ∀ k l phase, task ≠ .live (.lookup k l phase)

/-- A world in which a wait for logins comes nearer to its end. -/
structure Advances (pending : List Pending) (w : World) : Prop where
  accounted : ∀ id, w.scheduler.Accounted id
  paced : w.Paced
  logins : ∀ p ∈ pending, w.OfLogin p

variable {pending : List Pending}

theorem Advances.turn (hadvances : Advances pending w)
    (hqueue : w.scheduler.queue = (id, wake) :: rest) :
    Advances pending ((w.withQueue rest).runTask id wake) where
  accounted := fun id' => (accounted_concerns id').covers.turn hqueue (hadvances.accounted id')
  paced := paced_runTask id wake ⟨hadvances.paced.clients, hadvances.paced.lookups⟩
  logins := by
    intro p hp
    have hlogin := hadvances.logins p hp
    cases p with
    | failed e => trivial
    | task id' =>
        obtain ⟨task, htask, hother⟩ := hlogin
        by_cases hown : id = id'
        · subst hown
          obtain ⟨⟨work, hlive⟩, -⟩ := (hadvances.accounted id).popped [] rest hqueue
          obtain rfl : task = .live work := Option.some.inj (htask.symm.trans hlive)
          refine ⟨_, (runTask_live (w := w.withQueue rest) htask wake).2, ?_⟩
          exact run_ne_lookup (fun k l phase heq => hother k l phase (heq ▸ rfl)) wake _
        · exact ⟨task, (runTask_other hown wake (w.withQueue rest)).trans htask, hother⟩

theorem Advances.clock (hadvances : Advances pending w) {time : Nat}
    (hqueue : w.scheduler.queue = []) (hfirst : ∀ s ∈ w.scheduler.sleepers, time ≤ s.due) :
    Advances pending { w with scheduler := w.scheduler.moveTo time } where
  accounted := fun id =>
    (accounted_concerns id).covers.clock hqueue hfirst (hadvances.accounted id)
  paced := ⟨hadvances.paced.clients, hadvances.paced.lookups⟩
  logins := hadvances.logins

theorem Advances.drain (hadvances : Advances pending w) :
    ∀ fuel, Advances pending (w.drain fuel)
      ∧ (w.drain fuel).scheduler.burden ≤ w.scheduler.burden
      ∧ (0 < fuel → w.scheduler.queue ≠ [] →
        (w.drain fuel).scheduler.burden < w.scheduler.burden) := by
  intro fuel
  induction fuel generalizing w with
  | zero => exact ⟨hadvances, le_rfl, fun hpos => absurd hpos (Nat.lt_irrefl 0)⟩
  | succ fuel ih =>
      rw [World.drain]
      split
      · next hempty => exact ⟨hadvances, le_rfl, fun _ hqueue => absurd hempty hqueue⟩
      · next id wake rest hqueue =>
        have hless := burden_turn (hadvances.accounted id) hadvances.paced hqueue
        obtain ⟨hlater, hle, -⟩ := ih (hadvances.turn hqueue)
        exact ⟨hlater, hle.trans hless.le, fun _ _ => hle.trans_lt hless⟩

/-- While a login has not come to its outcome and nothing is queued, its task sleeps. -/
theorem Advances.asleep (hadvances : Advances pending w) (hqueue : w.scheduler.queue = [])
    (hwaits : ¬ ∀ p ∈ pending, w.isFinished p) :
    ∃ s ∈ w.scheduler.sleepers, 0 < w.scheduler.turnsOf s.task := by
  obtain ⟨p, hp, hunfinished⟩ : ∃ p ∈ pending, ¬ w.isFinished p = true := by
    simpa using hwaits
  have hlogin := hadvances.logins p hp
  cases p with
  | failed e => exact absurd rfl hunfinished
  | task id =>
      obtain ⟨task, htask, hother⟩ := hlogin
      cases task with
      | ended ending =>
          rw [isFinished, result?_ended htask] at hunfinished
          exact absurd rfl hunfinished
      | live work =>
          have haccounted := hadvances.accounted id
          have hwakes : w.scheduler.wakes id = [] := by rw [Scheduler.wakes, hqueue]; rfl
          rw [Scheduler.Accounted, Scheduler.lives_of_live htask, hwakes] at haccounted
          have hlength : 0 < (w.scheduler.waits id).length := by
            rw [List.length_nil, Bool.toNat_true] at haccounted
            omega
          obtain ⟨s, hs⟩ := List.exists_mem_of_length_pos hlength
          obtain ⟨hmem, htaskOf⟩ := List.mem_filter.mp hs
          refine ⟨s, hmem, ?_⟩
          rw [of_decide_eq_true htaskOf, Scheduler.turnsOf, htask]
          exact Work.turnsLeft_pos fun k l phase heq => hother k l phase (heq ▸ rfl)

/-- While tasks sleep and only handles are waited for, the clock moves to the end of a sleep. -/
theorem nextDue?_resolve (pending : List Pending)
    (hasleep : ∃ s ∈ w.scheduler.sleepers, 0 < w.scheduler.turnsOf s.task) :
    ∃ time, w.nextDue? (.resolve pending) = some time
      ∧ ∃ s ∈ w.scheduler.sleepers, s.due = time := by
  have hnext : w.nextDue? (.resolve pending) = w.scheduler.nextDue? := by
    rw [nextDue?, Foreground.due?]
    cases w.scheduler.nextDue? <;> rfl
  obtain ⟨s, hs, -⟩ := hasleep
  cases hfirst : w.scheduler.nextDue? with
  | none =>
      have hnone := List.min?_eq_none_iff.mp hfirst
      rw [List.map_eq_nil_iff.mp hnone] at hs
      cases hs
  | some time =>
      obtain ⟨s', hs', hdue⟩ := List.mem_map.mp (List.min?_mem hfirst)
      exact ⟨time, hnext.trans hfirst, s', hs', hdue⟩

/-- A round of a wait that is not over. -/
theorem Advances.round (hadvances : Advances pending w)
    (hwaits : ¬ ∀ p ∈ pending, w.isFinished p) :
    ∃ w', Advances pending w' ∧ w'.scheduler.burden < w.scheduler.burden
      ∧ ∀ patience,
        w.await (patience + 1) (.resolve pending) = w'.await patience (.resolve pending) := by
  have hattend : w.attend (.resolve pending) = (w, .inl (.resolve pending)) := by
    rw [attend_resolve, if_neg hwaits]
  by_cases hqueue : w.scheduler.queue = []
  · have hasleep := hadvances.asleep hqueue hwaits
    obtain ⟨time, hnext, hdue⟩ := nextDue?_resolve pending hasleep
    have hfirst := (nextDue?_le hnext).2
    exact ⟨_, hadvances.clock hqueue hfirst,
      Scheduler.burden_clock hqueue hfirst hdue hasleep, await_clock hattend hqueue hnext⟩
  · have hlength := List.length_pos_iff.mpr hqueue
    obtain ⟨hlater, -, hless⟩ :=
      hadvances.drain (2 * w.scheduler.tasks.size + w.scheduler.queue.length)
    exact ⟨_, hlater, hless (by omega) hqueue, await_drain hattend hqueue⟩

/-- **A wait for logins ends.** Whatever else goes on, whoever awaits logins with patience enough is
answered. -/
theorem await_logins (hadvances : Advances pending w) :
    ∃ n, ∀ patience, n ≤ patience →
      ∃ w', w.await patience (.resolve pending) = (w', .resolved) := by
  induction hburden : w.scheduler.burden using WellFoundedLT.induction generalizing w with
  | ind burden ih =>
    subst hburden
    by_cases hfinished : ∀ p ∈ pending, w.isFinished p
    · have hattend : w.attend (.resolve pending) = (w, .inr .resolved) := by
        rw [attend_resolve, if_pos hfinished]
      refine ⟨1, fun patience hle => ⟨w, ?_⟩⟩
      obtain ⟨fuel, rfl⟩ := Nat.exists_eq_add_of_le' hle
      exact await_done hattend fuel
    · obtain ⟨w', hadvances', hless, hround⟩ := hadvances.round hfinished
      obtain ⟨n, hn⟩ := ih _ hless hadvances' rfl
      refine ⟨n + 1, fun patience hle => ?_⟩
      obtain ⟨fuel, rfl⟩ := Nat.exists_eq_add_of_le' hle
      rw [← Nat.add_assoc, hround]
      exact hn _ (Nat.le_add_left n fuel)

end World

end GatewayClient
