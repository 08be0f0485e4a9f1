import GatewayClient.Proofs.Lookup.Trail
import GatewayClient.Proofs.Scenario.OneTask
import GatewayClient.Proofs.Secrets.Veil
import GatewayClient.Scenario.Step

/-!
# Scenarios under the veil

The veil of a world lies over its clients, over the requests that its gateway and its control plane
have seen, and over the work of its tasks; the veil of a step lies over the settings in it. Every
step does with a veiled world what it does with the world (`World.perform_veil`), and so does every
turn of a task (`World.runTask_veil`): the collaborators, the clock, the handles and the hub know no
secret, and what a client makes of its secrets is veiled with them.
-/

namespace GatewayClient

/-! ## Values with secrets -/

def SeenProbe.veil (p : SeenProbe) : SeenProbe := { p with request := p.request.veil }

def Gateway.veil (g : Gateway) : Gateway :=
  { g with requests := g.requests.map ConnectionRequest.veil }

def ControlPlane.veil (p : ControlPlane) : ControlPlane :=
  { p with probes := p.probes.map SeenProbe.veil }

def Work.veil : Work → Work
  | connect request => connect request.veil
  | opening number request response => opening number request.veil response
  | lookup client l phase => lookup client l.veil phase
  | cancelAfter ms token => cancelAfter ms token
  | cancelNow token => cancelNow token

def Task.veil : Task → Task
  | live work => live work.veil
  | ended ending => ended ending

def Progress.veil : Progress → Progress
  | asleep work ms token => asleep work.veil ms token
  | ended ending => ended ending

def Scheduler.veil (r : Scheduler) : Scheduler := { r with tasks := r.tasks.map Task.veil }

def World.veil (w : World) : World :=
  { w with
    clients := w.clients.map Client.veil
    gateway := w.gateway.veil
    plane := w.plane.veil
    scheduler := w.scheduler.veil }

def Foreground.veil : Foreground → Foreground
  | probe request asleep => probe request.veil asleep
  | lookup l asleep => lookup l.veil asleep
  | resolve pending => resolve pending
  | sleep due => sleep due

def Step.veil : Step → Step
  | ofSettings s => ofSettings s.veil
  | set s => set s.veil
  | s => s

def Answer.veil : Answer → Answer
  | requests list => requests (list.map ConnectionRequest.veil)
  | probes p => probes p.veil
  | client c => client c.veil
  | a => a

/-! ## Tasks -/

namespace Scheduler

variable (r : Scheduler)

theorem getElem?_veil (id : TaskId) : r.veil.tasks[id]? = (r.tasks[id]?).map Task.veil :=
  Array.getElem?_map ..

theorem spawn_veil (work : Work) :
    r.veil.spawn work.veil = (r.spawn work).map fun s => (s.1, s.2.veil) := by
  have hrunning : r.veil.running = r.running := rfl
  unfold spawn
  rw [hrunning]
  cases r.running with
  | false => rfl
  | true =>
      simp only [veil, Array.size_map, if_true, Except.map, Array.map_push, Task.veil]

theorem sleep_veil (id : TaskId) (work : Work) (ms : Nat) (token : Option String) :
    r.veil.sleep id work.veil ms token = (r.sleep id work ms token).veil := by
  simp only [sleep, veil, Array.map_setIfInBounds, Task.veil]
  rfl

theorem finish_veil (id : TaskId) (ending : Ending) :
    r.veil.finish id ending = (r.finish id ending).veil := by
  simp only [finish, veil, Array.map_setIfInBounds, Task.veil]

theorem ending?_veil (id : TaskId) : r.veil.ending? id = r.ending? id := by
  unfold ending?
  rw [getElem?_veil]
  cases r.tasks[id]? with
  | none => rfl
  | some task => cases task <;> rfl

theorem shutDown_veil : r.veil.shutDown = r.shutDown.veil := by
  simp only [shutDown, veil, Array.map_map]
  congr 2
  funext task
  cases task <;> rfl

end Scheduler

namespace ControlPlane

theorem take_veil (p : ControlPlane) (now : Nat) (request : ProbeRequest) :
    p.veil.take now request.veil = ((p.take now request).1, (p.take now request).2.veil) := by
  obtain ⟨script, probes, opened, closed⟩ := p
  cases script <;> simp only [take, veil, List.map_append, List.map_singleton] <;> rfl

end ControlPlane

namespace World

variable (w : World)

theorem getD_veil (k : ClientId) :
    (w.veil.clients[k]?).getD {} = ((w.clients[k]?).getD {}).veil := by
  have hclient : w.veil.clients[k]? = (w.clients[k]?).map Client.veil := Array.getElem?_map ..
  rw [hclient]
  cases w.clients[k]? <;> rfl

theorem client_veil : w.veil.client = w.client.veil := w.getD_veil w.current

theorem setClient_veil (c : Client) : w.veil.setClient c.veil = (w.setClient c).veil := by
  simp only [setClient, veil, Array.map_setIfInBounds]

theorem replaceClient_veil (c : Client) :
    w.veil.replaceClient c.veil = (w.replaceClient c).veil := by
  simp only [replaceClient, veil, Array.map_push, Array.size_map]

theorem result?_veil (p : Pending) : w.veil.result? p = w.result? p := by
  cases p with
  | failed e => rfl
  | task id => exact congrArg (Option.map Ending.result) (w.scheduler.ending?_veil id)

theorem isFinished_veil (p : Pending) : w.veil.isFinished p = w.isFinished p := by
  rw [isFinished, result?_veil]
  rfl

theorem spawn_veil (work : Work) :
    w.veil.spawn work.veil = (w.spawn work).map fun s => (s.1, s.2.veil) := by
  have hspawn := w.scheduler.spawn_veil work
  unfold spawn
  rw [show w.veil.scheduler = w.scheduler.veil from rfl, hspawn]
  cases w.scheduler.spawn work <;> rfl

/-! ## Turns -/

theorem openSession_veil (number : Nat) (q : ConnectionRequest) (response : Response Unit) :
    w.veil.openSession number q.veil response =
      ((w.openSession number q response).1.veil, (w.openSession number q response).2.veil) := by
  cases response <;> rfl

theorem connect_veil (q : ConnectionRequest) :
    w.veil.connect q.veil = ((w.connect q).1.veil, (w.connect q).2.veil) := by
  have hseen :
      note handshake { w.veil with
          gateway := { w.veil.gateway with
            taken := w.gateway.taken + 1, requests := w.veil.gateway.requests ++ [q.veil] } } =
        (note handshake { w with
          gateway := { w.gateway with
            taken := w.gateway.taken + 1, requests := w.gateway.requests ++ [q] } }).veil := by
    simp only [note, veil, Gateway.veil, List.map_append, List.map_singleton]
  have hbehaviour : w.veil.gateway.behaviour q.veil.shard.index =
      w.gateway.behaviour q.shard.index := rfl
  have htaken : w.veil.gateway.taken = w.gateway.taken := rfl
  unfold connect
  dsimp only
  rw [hbehaviour, htaken, hseen]
  cases (w.gateway.behaviour q.shard.index).delay with
  | some ms => rfl
  | none => exact openSession_veil _ _ _ _

theorem book_veil (s : LookupStep) : w.veil.book s.veil = (w.book s).veil := rfl

theorem stepLookup_veil (l : Lookup) (phase : Option LookupPhase) (wake : Wake) :
    w.veil.stepLookup l.veil phase wake =
      ((w.stepLookup l phase wake).1.veil, (w.stepLookup l phase wake).2.veil) := by
  have htoken : w.veil.scheduler.isCancelled l.veil.token = w.scheduler.isCancelled l.token := rfl
  rcases Lookup.begins_or phase wake with hbegins | ⟨p, rfl⟩ | ⟨n, rfl, rfl⟩
  · cases hcancelled : w.scheduler.isCancelled l.token with
    | true =>
        rw [stepLookup_stopped hbegins (htoken.trans hcancelled),
          stepLookup_stopped hbegins hcancelled]
        rfl
    | false =>
        have htake : w.veil.plane.take w.veil.scheduler.now l.veil.request = _ :=
          w.plane.take_veil w.scheduler.now l.request
        rw [stepLookup_attempt hbegins (htoken.trans hcancelled),
          stepLookup_attempt hbegins hcancelled, htake, Lookup.attempt, Lookup.follow_veil]
        rfl
  · have hstep : (l.veil.resume p).heed (w.scheduler.isCancelled l.token) =
        ((l.resume p).heed (w.scheduler.isCancelled l.token)).veil := by
      rw [Lookup.resume, Lookup.follow_veil, Lookup.heed_veil]
      rfl
    exact Prod.ext ((congrArg (fun s => w.veil.book s) hstep).trans (w.book_veil _)) hstep
  · have hstep := Lookup.heed_veil (l.cancel [Lookup.interrupted n])
      (w.scheduler.isCancelled l.token)
    exact Prod.ext ((congrArg (fun s => w.veil.book s) hstep).trans (w.book_veil _)) hstep

theorem writeTotal_veil (k : ClientId) (r : Recommendation) :
    w.veil.writeTotal k r = (w.writeTotal k r).map veil := by
  unfold writeTotal
  rw [getD_veil, Client.setTotalShards_veil]
  cases ((w.clients[k]?).getD {}).setTotalShards r.shardCount with
  | error e => rfl
  | ok c => simp only [Except.map, veil, Array.map_setIfInBounds]

theorem writeEndpoint_veil (k : ClientId) (r : Recommendation) :
    w.veil.writeEndpoint k r = (w.writeEndpoint k r).veil := by
  unfold writeEndpoint
  rw [getD_veil]
  simp only [veil, Array.map_setIfInBounds]
  rfl

theorem applyReport_veil (k : ClientId) (report : LookupReport) :
    w.veil.applyReport k report =
      ((w.applyReport k report).1.veil, (w.applyReport k report).2) := by
  unfold applyReport
  rw [writeTotal_veil]
  cases w.writeTotal k report.recommendation with
  | error e => rfl
  | ok w₁ =>
      dsimp only [Except.map]
      rw [writeEndpoint_veil]
      rfl

theorem runLookup_veil (k : ClientId) (l : Lookup) (phase : Option LookupPhase) (wake : Wake) :
    w.veil.runLookup k l.veil phase wake =
      ((w.runLookup k l phase wake).1.veil, (w.runLookup k l phase wake).2.veil) := by
  unfold runLookup
  rw [stepLookup_veil]
  obtain ⟨w₁, l₁, deeds, notes, next⟩ := w.stepLookup l phase wake
  cases next with
  | wait phase' ms => cases phase' <;> rfl
  | faulted f => rfl
  | returned result =>
      cases result with
      | error e => rfl
      | ok report =>
          dsimp only [LookupStep.veil]
          rw [applyReport_veil]
          rfl

theorem run_veil (work : Work) (wake : Wake) :
    w.veil.run work.veil wake = ((w.run work wake).1.veil, (w.run work wake).2.veil) := by
  cases work with
  | connect q => exact w.connect_veil q
  | opening number q response => exact w.openSession_veil number q response
  | lookup k l phase => exact w.runLookup_veil k l phase wake
  | cancelAfter ms token => rfl
  | cancelNow token => rfl

/-- **A turn of a task does with a veiled world what it does with the world.** -/
theorem runTask_veil (id : TaskId) (wake : Wake) :
    w.veil.runTask id wake = (w.runTask id wake).veil := by
  have htask := w.scheduler.getElem?_veil id
  unfold runTask
  rw [show w.veil.scheduler = w.scheduler.veil from rfl, htask]
  rcases w.scheduler.tasks[id]? with _ | ⟨work⟩ | ending
  · rfl
  · dsimp only [Option.map_some, Task.veil]
    rw [run_veil]
    obtain ⟨w₁, progress⟩ := w.run work wake
    cases progress with
    | asleep work' ms token =>
        exact congrArg (fun r => { w₁.veil with scheduler := r })
          (w₁.scheduler.sleep_veil id work' ms token)
    | ended ending =>
        exact congrArg (fun r => { w₁.veil with scheduler := r })
          (w₁.scheduler.finish_veil id ending)
  · rfl

theorem drain_veil : ∀ (fuel : Nat) (w : World), w.veil.drain fuel = (w.drain fuel).veil
  | 0, _ => rfl
  | fuel + 1, w => by
      have hqueue : w.veil.scheduler.queue = w.scheduler.queue := rfl
      unfold drain
      rw [hqueue]
      split
      · rfl
      · next id wake rest _ =>
        have hturn := (w.withQueue rest).runTask_veil id wake
        rw [← drain_veil fuel]
        exact congrArg (drain fuel) hturn

/-! ## Starting and waiting -/

theorem noteAll_veil (records : Journal) : w.veil.noteAll records = (w.noteAll records).veil := rfl

theorem store_veil (h : String) (handle : Handle) :
    w.veil.store h handle = (w.store h handle).veil := rfl

theorem forget_veil (h : String) : w.veil.forget h = (w.forget h).veil := rfl

theorem finishedOf_veil (list : List (ShardAssignment × Pending)) :
    w.veil.finishedOf list = w.finishedOf list := by
  simp only [finishedOf, isFinished_veil]

theorem startLogin_veil (s : LoginStart) :
    w.veil.startLogin s.veil = ((w.startLogin s).1.veil, (w.startLogin s).2) := by
  cases s with
  | failed shard e => rfl
  | opening q =>
      have hspawn := (w.noteAll (LoginStart.opening q).notes).spawn_veil (.connect q)
      unfold startLogin
      rw [LoginStart.notes_veil, noteAll_veil]
      dsimp only [LoginStart.veil]
      rw [show Work.connect q.veil = (Work.connect q).veil from rfl, hspawn]
      cases (w.noteAll (LoginStart.opening q).notes).spawn (.connect q) <;> rfl

theorem startLogins_veil : ∀ (starts : List LoginStart) (w : World),
    startLogins (starts.map LoginStart.veil) w.veil =
      ((startLogins starts w).1.veil, (startLogins starts w).2)
  | [], _ => rfl
  | s :: rest, w => by
      rw [List.map_cons, startLogins, startLogins, startLogin_veil]
      obtain ⟨w₁, e | p⟩ := w.startLogin s
      · rfl
      · dsimp only
        rw [startLogins_veil rest w₁]

theorem startBatch_veil (h : String) (b : LoginBatch) :
    w.veil.startBatch h b.veil = ((w.startBatch h b).1.veil, (w.startBatch h b).2) := by
  have hstarts := startLogins_veil b.starts (w.noteAll b.announcement)
  unfold startBatch
  rw [show startLogins b.veil.starts (w.veil.noteAll b.veil.announcement) = _ from hstarts]
  obtain ⟨w₁, f | pending⟩ := startLogins b.starts (w.noteAll b.announcement)
  · rfl
  · dsimp only
    rw [store_veil, finishedOf_veil]

theorem answerBatch_veil (h : String) (b : LoginBatch) :
    w.veil.answerBatch h b.veil = ((w.answerBatch h b).1.veil, (w.answerBatch h b).2.veil) := by
  unfold answerBatch
  rw [startBatch_veil]
  obtain ⟨w₁, f | pending⟩ := w.startBatch h b <;> rfl

theorem startClientBatch_veil (h : String) (b : Except ClientError LoginBatch) :
    w.veil.startClientBatch h (b.map LoginBatch.veil) =
      ((w.startClientBatch h b).1.veil, (w.startClientBatch h b).2.veil) := by
  cases b with
  | error e => rfl
  | ok b => exact w.answerBatch_veil h b

theorem startLookup_veil (h : String) (token : Option String) :
    w.veil.startLookup h token =
      ((w.startLookup h token).1.veil, (w.startLookup h token).2.veil) := by
  unfold startLookup
  rw [client_veil, Client.lookup_veil]
  cases w.client.lookup token with
  | error e => rfl
  | ok l =>
      have hspawn := w.spawn_veil (.lookup w.current l none)
      dsimp only [Except.map]
      rw [show w.veil.spawn (.lookup w.veil.current l.veil none) = _ from hspawn]
      rcases w.spawn (.lookup w.current l none) with f | ⟨id, w₁⟩
      · rfl
      · dsimp only [Except.map]
        rw [store_veil, isFinished_veil]
        rfl

theorem followProbe_veil (request : ProbeRequest) (s : ProbeStep) :
    w.veil.followProbe request.veil s =
      ((w.followProbe request s).1.veil, (w.followProbe request s).2.map Foreground.veil id) := by
  have hrunning : w.veil.scheduler.running = w.scheduler.running := rfl
  obtain ⟨deeds, next⟩ := s
  cases next with
  | wait phase ms =>
      simp only [followProbe, hrunning]
      cases w.scheduler.running <;> rfl
  | _ => rfl

theorem followLookup_veil (l : Lookup) (phase : Option LookupPhase) (wake : Wake) :
    w.veil.followLookup l.veil phase wake =
      ((w.followLookup l phase wake).1.veil,
        (w.followLookup l phase wake).2.map Foreground.veil id) := by
  unfold followLookup
  rw [stepLookup_veil]
  obtain ⟨w₁, l₁, deeds, notes, next⟩ := w.stepLookup l phase wake
  have hrunning : w₁.veil.scheduler.running = w₁.scheduler.running := rfl
  cases next with
  | wait phase' ms =>
      dsimp only [LookupStep.veil]
      rw [hrunning]
      cases w₁.scheduler.running <;> rfl
  | _ => rfl

theorem attend_veil (fg : Foreground) :
    w.veil.attend fg.veil = ((w.attend fg).1.veil, (w.attend fg).2.map Foreground.veil id) := by
  have hnow : w.veil.scheduler.now = w.scheduler.now := rfl
  cases fg with
  | resolve pending =>
      have hfinished : w.veil.isFinished = w.isFinished := funext w.isFinished_veil
      simp only [attend, Foreground.veil, hfinished]
      split <;> rfl
  | sleep due =>
      simp only [attend, Foreground.veil, hnow]
      split <;> rfl
  | probe request asleep =>
      rcases asleep with _ | ⟨phase, due⟩
      · have htake := w.plane.take_veil w.scheduler.now request
        simp only [attend, Foreground.veil]
        rw [show w.veil.plane.take w.veil.scheduler.now request.veil = _ from htake]
        exact followProbe_veil
          { w with plane := (w.plane.take w.scheduler.now request).2 } request _
      · simp only [attend, Foreground.veil, hnow]
        split
        · exact w.followProbe_veil request _
        · rfl
  | lookup l asleep =>
      rcases asleep with _ | ⟨phase, due⟩
      · exact w.followLookup_veil l none .started
      · have htoken : w.veil.scheduler.isCancelled (tokenOf l.veil phase) =
            w.scheduler.isCancelled (tokenOf l phase) := by cases phase <;> rfl
        simp only [attend, Foreground.veil, hnow, htoken]
        split
        · exact w.followLookup_veil l _ .timer
        · split
          · exact w.followLookup_veil l _ .token
          · rfl

theorem await_veil : ∀ (patience : Nat) (fg : Foreground) (w : World),
    w.veil.await patience fg.veil = ((w.await patience fg).1.veil, (w.await patience fg).2)
  | 0, _, _ => rfl
  | patience + 1, fg, w => by
      unfold await
      rw [attend_veil]
      rcases w.attend fg with ⟨w₁, fg₁ | attained⟩
      · have hnext : w₁.veil.nextDue? fg₁.veil = w₁.nextDue? fg₁ := by cases fg₁ <;> rfl
        have hqueue : w₁.veil.scheduler.queue = w₁.scheduler.queue := rfl
        have hsize : w₁.veil.scheduler.tasks.size = w₁.scheduler.tasks.size := Array.size_map
        simp only [Sum.map_inl, hnext, hqueue, hsize]
        split
        · split
          · rfl
          · exact await_veil patience fg₁ { w₁ with scheduler := w₁.scheduler.moveTo _ }
        · rw [drain_veil]
          exact await_veil patience fg₁ _
      · rfl

theorem attained_veil (a : Attained) :
    w.veil.attained a = ((w.attained a).1.veil, (w.attained a).2.veil) := by
  cases a <;> rfl

theorem waitFor_veil (fg : Foreground) :
    w.veil.waitFor fg.veil = ((w.waitFor fg).1.veil, (w.waitFor fg).2.veil) := by
  unfold waitFor
  rw [await_veil]
  exact attained_veil _ _

theorem resolve_veil (pending : List Pending) (again : Bool) :
    w.veil.resolve pending again =
      ((w.resolve pending again).1.veil, (w.resolve pending again).2.veil) := by
  have hawait := await_veil patience (.resolve pending) w
  unfold resolve
  rw [show w.veil.await patience (.resolve pending) = _ from hawait]
  rcases w.await patience (.resolve pending) with ⟨w₁, a⟩
  cases a with
  | resolved =>
      have hresults : w₁.veil.result? = w₁.result? := funext w₁.result?_veil
      dsimp only
      rw [hresults]
      rfl
  | _ => rfl

/-! ## Steps -/

theorem listen_veil (category : ListenerCategory) (listener : Sink) :
    w.veil.listen category listener = (w.listen category listener).veil := by
  unfold listen
  rw [client_veil]
  exact congrArg (note (w.client.addListener category listener).2)
    (w.setClient_veil (w.client.addListener category listener).1)

theorem withHub_veil (hub : Hub) : { w.veil with hub } = { w with hub }.veil := rfl

theorem deliverTo_veil (session : String) (category : ListenerCategory) (payload : Json) :
    w.veil.deliverTo session category payload =
      ((w.deliverTo session category payload).1.veil,
        (w.deliverTo session category payload).2.veil) := by
  have hsessions : w.veil.gateway.sessions = w.gateway.sessions := rfl
  have hhub : w.veil.hub = w.hub := rfl
  unfold deliverTo
  rw [hsessions, hhub]
  cases w.gateway.sessions.find? (·.id.text = session) with
  | none => rfl
  | some s =>
      dsimp only
      rw [withHub_veil]
      rfl

theorem status_veil (handle : Handle) : w.veil.status handle = w.status handle := by
  cases handle with
  | logins list => exact congrArg HandleStatus.logins (w.finishedOf_veil list)
  | lookup p => exact congrArg HandleStatus.lookup (w.isFinished_veil p)

/-- **A step does with a veiled world what it does with the world.** -/
theorem perform_veil (s : Step) :
    w.veil.perform s.veil = ((w.perform s).1.veil, (w.perform s).2.veil) := by
  have hhandle : ∀ h, w.veil.handle? h = w.handle? h := fun _ => rfl
  have hnumbering : w.veil.numbering = w.numbering := rfl
  have hhub : w.veil.hub = w.hub := rfl
  cases s with
  | gateway | answers | requests | probes | sessions | clone | drop | failedLookup | setBackoff
  | recordFailures => rfl
  | hub s =>
      unfold perform
      dsimp only [Step.veil, hubStep]
      rw [hhub, withHub_veil]
      rfl
  | deliver session category payload => exact w.deliverTo_veil session category payload
  | advance ms =>
      have hrunning : w.veil.scheduler.running = w.scheduler.running := rfl
      unfold perform
      dsimp only [Step.veil]
      rw [hrunning]
      split
      · exact w.waitFor_veil (.sleep (w.scheduler.dueIn ms))
      · rfl
  | shutDown =>
      exact congrArg (fun r => ({ w.veil with scheduler := r }, Answer.nothing))
        w.scheduler.shutDown_veil
  | cancel token after =>
      cases after with
      | none => rfl
      | some ms =>
          have hspawn := w.spawn_veil (.cancelAfter ms token)
          unfold perform
          dsimp only [Step.veil]
          rw [show w.veil.spawn (.cancelAfter ms token) = _ from hspawn]
          cases w.spawn (.cancelAfter ms token) <;> rfl
  | ofSettings s =>
      rw [Step.veil, perform_ofSettings, perform_ofSettings, Client.ofSettings_veil]
      cases Client.ofSettings s with
      | error e => rfl
      | ok c =>
          dsimp only [Except.map]
          rw [replaceClient_veil, Client.configured_veil]
          rfl
  | set s =>
      rw [Step.veil, perform_set, perform_set, client_veil, Client.set_veil]
      cases w.client.set s with
      | error e => rfl
      | ok c => exact congrArg (·, Answer.nothing) (w.setClient_veil c)
  | client => exact congrArg (fun c => (w.veil, Answer.client c)) w.client_veil
  | addListener category consumer reaction =>
      unfold perform
      dsimp only [Step.veil]
      rw [hhub, withHub_veil, listen_veil]
      rfl
  | addPipeline category stage =>
      rw [show (Step.addPipeline category stage).veil = .addPipeline category stage from rfl,
        perform_addPipeline, perform_addPipeline, hhub]
      cases w.hub.find? stage with
      | error f => rfl
      | ok id => exact congrArg (·, Answer.nothing) (w.listen_veil category (.stage id))
  | login h =>
      have hlogin := w.answerBatch_veil h { starts := [w.client.login] }
      unfold perform
      dsimp only [Step.veil]
      rw [client_veil, Client.login_veil]
      exact hlogin
  | loginShards h shards =>
      unfold perform
      dsimp only [Step.veil]
      rw [client_veil, Client.loginShards_veil]
      exact w.startClientBatch_veil h _
  | loginAll h =>
      unfold perform
      dsimp only [Step.veil]
      rw [client_veil, Client.loginAll_veil]
      exact w.startClientBatch_veil h _
  | loginMatching h wanted =>
      unfold perform
      dsimp only [Step.veil]
      rw [client_veil, Client.loginMatching_veil]
      exact w.startClientBatch_veil h _
  | discover h token => exact w.startLookup_veil h token
  | finished h =>
      have hstatus : w.veil.status = w.status := funext w.status_veil
      unfold perform
      dsimp only [Step.veil]
      rw [hhandle, hstatus]
      rfl
  | await h again =>
      unfold perform
      dsimp only [Step.veil]
      rw [hhandle, forget_veil]
      cases w.handle? h with
      | none => rfl
      | some handle => exact (w.forget h).resolve_veil handle.pending again
  | failedLogin h e => exact w.answerBatch_veil h { starts := [.failed .unsharded e] }
  | number current total =>
      unfold perform
      dsimp only [Step.veil]
      cases ShardAssignment.ofPair current total <;> rfl
  | renumber current total =>
      unfold perform
      dsimp only [Step.veil]
      cases ShardAssignment.ofPair current total <;> rfl
  | startBatch h shards refusals =>
      have hplain : plainRequestOr refusals =
          fun a => (plainRequestOr refusals a).map ConnectionRequest.veil := by
        funext a
        unfold plainRequestOr
        split <;> rfl
      have hplan := LoginBatch.plan_veil w.numbering (plainRequestOr refusals) shards
      rw [← hplain] at hplan
      unfold perform
      dsimp only [Step.veil]
      rw [hnumbering]
      cases hbatch : LoginBatch.plan w.numbering (plainRequestOr refusals) shards with
      | error e => rfl
      | ok b =>
          rw [hbatch] at hplan
          -- The token of a plain request is the word over a secret.
          have hsame : b = b.veil := Except.ok.inj hplan
          have hstart := w.startBatch_veil h b
          rw [← hsame] at hstart
          dsimp only
          rw [hstart]
          rcases w.startBatch h b with ⟨w₁, f | pending⟩ <;> rfl
  | startShard h index total =>
      unfold perform
      dsimp only [Step.veil]
      cases ShardAssignment.ofPair index total with
      | error e => rfl
      | ok shard => exact w.answerBatch_veil h { starts := [.opening (plainRequest shard)] }
  | probeOnce => exact w.waitFor_veil (.probe plainProbe none)
  | runLookup token =>
      exact w.waitFor_veil
        (.lookup { request := plainProbe, backoff := w.backoff, token, retry := w.retry } none)

end World

end GatewayClient
