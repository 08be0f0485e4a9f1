import GatewayClient.Proofs.Scenario.History
import GatewayClient.Proofs.Scenario.OneTask

/-!
# Interleavings

The scheduler of a scenario runs the tasks of its queue in order. In an interleaving the order is
open: any queued task may have the next turn, calls come at any point, the collaborators and the
foreground do what they like, and while nothing is queued the clock moves, not past the end of a
wait. So an interleaving is a history that keeps to the rules of waiting and to no order beyond
them. What concerns one task goes through every interleaving (`Concerns.interleaving`), and every
scenario is one (`interleaves_play`).
-/

namespace GatewayClient

namespace World

/-- The passages of an interleaving. A turn takes a task out of the queue and runs it. -/
inductive Interleaving (w : World) : List Passage → World → Prop
  | start : Interleaving w [] w
  | call {ps : List Passage} {w' : World} {s : Step} : Interleaving w ps w' → ¬ s.Waits →
      Interleaving w (ps ++ [⟨w', .caller s, (w'.perform s).1⟩]) (w'.perform s).1
  | aside {ps : List Passage} {w' w'' : World} : Interleaving w ps w' → w'.Aside w'' →
      Interleaving w (ps ++ [⟨w', .surroundings, w''⟩]) w''
  | turn {ps : List Passage} {w' : World} {id : TaskId} {wake : Wake}
      (pre post : List (TaskId × Wake)) : Interleaving w ps w' →
      w'.scheduler.queue = pre ++ (id, wake) :: post →
      Interleaving w
        (ps ++ [⟨w', .surroundings, w'.withQueue (pre ++ post)⟩,
          ⟨w'.withQueue (pre ++ post), .task id wake,
            (w'.withQueue (pre ++ post)).runTask id wake⟩])
        ((w'.withQueue (pre ++ post)).runTask id wake)
  | clock {ps : List Passage} {w' : World} {time : Nat} : Interleaving w ps w' →
      w'.scheduler.queue = [] → (∀ s ∈ w'.scheduler.sleepers, time ≤ s.due) →
      Interleaving w
        (ps ++ [⟨w', .surroundings, { w' with scheduler := w'.scheduler.moveTo time }⟩])
        { w' with scheduler := w'.scheduler.moveTo time }

namespace Interleaving

variable {w w' w'' : World} {ps ps' : List Passage}

theorem append (h : w.Interleaving ps w') (h' : w'.Interleaving ps' w'') :
    w.Interleaving (ps ++ ps') w'' := by
  induction h' with
  | start => rw [List.append_nil]; exact h
  | call _ hwaits ih => rw [← List.append_assoc]; exact ih.call hwaits
  | aside _ haside ih => rw [← List.append_assoc]; exact ih.aside haside
  | turn pre post _ hqueue ih => rw [← List.append_assoc]; exact ih.turn pre post hqueue
  | clock _ hqueue hfirst ih => rw [← List.append_assoc]; exact ih.clock hqueue hfirst

/-- An interleaving is a history. -/
theorem history (h : w.Interleaving ps w') : w.History ps w' := by
  induction h with
  | start => exact .start
  | call _ hwaits ih => exact ih.passage (.call hwaits)
  | aside _ haside ih =>
      exact ih.passage (.aside ⟨haside.toSameClients, by rw [haside.scheduler]⟩)
  | @turn ps w' id wake pre post _ _ ih =>
      have hpop : w'.Beside (w'.withQueue (pre ++ post)) := ⟨⟨rfl, rfl⟩, rfl⟩
      have hrun := (ih.passage (.aside hpop)).passage (.task id wake)
      rw [List.append_assoc] at hrun
      exact hrun
  | @clock ps w' time _ _ _ ih =>
      have hmoved : w'.Beside { w' with scheduler := w'.scheduler.moveTo time } :=
        ⟨⟨rfl, rfl⟩, rfl⟩
      exact ih.passage (.aside hmoved)

end Interleaving

/-- What concerns a task goes through every interleaving. -/
theorem Concerns.interleaving {id : TaskId} {R : World → World → Prop} (hR : Concerns id R)
    {w w' : World} {ps : List Passage} (h : w.Interleaving ps w') : R w w' := by
  induction h with
  | start => exact hR.scheduler rfl
  | call _ hwaits ih => exact hR.trans ih (hR.call _ hwaits)
  | aside _ haside ih => exact hR.trans ih (hR.frame.aside haside)
  | @turn ps w' id' wake pre post _ hqueue ih =>
      by_cases hown : id' = id
      · subst hown
        exact hR.trans ih (hR.own pre post hqueue)
      · exact hR.trans ih (hR.turn pre post hown hqueue)
  | clock _ hqueue hfirst ih => exact hR.trans ih (hR.clock hqueue hfirst)

/-! ## Every scenario is an interleaving -/

/-- Some interleaving leads from one world to another. -/
def Interleaves (w w' : World) : Prop := ∃ ps, w.Interleaving ps w'

theorem interleaves_covers : Covers Interleaves where
  trans := fun ⟨ps, h⟩ ⟨ps', h'⟩ => ⟨ps ++ ps', h.append h'⟩
  aside := fun haside => ⟨_, Interleaving.start.aside haside⟩
  call := fun hwaits => ⟨_, Interleaving.start.call hwaits⟩
  turn := by
    intro w id wake rest hqueue
    exact ⟨_, Interleaving.start.turn [] rest hqueue⟩
  clock := fun hqueue hfirst => ⟨_, Interleaving.start.clock hqueue hfirst⟩

theorem interleaves_play (steps : List Step) (w : World) : w.Interleaves (w.play steps).1 :=
  interleaves_covers.play steps w

end World

end GatewayClient
