import Mathlib.Data.List.Forall2
import GatewayClient.Proofs.Secrets.Loading
import GatewayClient.Proofs.Secrets.Scenario

/-!
# Runs of an application and what is seen of them

An application loads settings, configures clients by them, makes calls and lets tasks run. At every
point of a run one sees what was logged and the inspection and display texts of all values that are
there. Applications and commands are alike if they are the same when veiled, that is, if they differ
in the text of tokens and proxy passwords only. Alike commands make alike applications of alike ones
(`Application.obey_alike`), and of alike applications one sees the same
(`Application.sight_alike`), so no run tells anything about a secret (`Application.run_alike`).
-/

namespace GatewayClient

/-! ## Texts -/

def Credential.texts (c : Credential) : List String := [c.inspect, c.display]

def ProxyConfig.texts (p : ProxyConfig) : List String :=
  p.inspect :: p.credentials.toList.map ProxyCredentials.inspect

def ClientSettings.texts (s : ClientSettings) : List String := s.inspect :: s.proxy.texts

def Client.texts (c : Client) : List String :=
  c.inspect :: c.proxy.texts ++ c.credential.toList.flatMap Credential.texts

def ConnectionRequest.texts (q : ConnectionRequest) : List String :=
  q.inspect :: q.proxy.texts ++ q.credential.texts

def ProbeRequest.texts (q : ProbeRequest) : List String :=
  q.inspect :: q.proxy.texts ++ q.credential.texts

def Task.texts : Task → List String
  | live (.connect request) => request.texts
  | live (.opening _ request _) => request.texts
  | live (.lookup _ l _) => l.request.texts
  | _ => []

/-- The texts of what a caller hands in. -/
def Step.texts : Step → List String
  | ofSettings s => s.texts
  | set (.token text) => Credential.texts ⟨text⟩
  | set (.proxy p) => p.texts
  | _ => []

/-- The texts of what a caller is handed. -/
def Answer.texts : Answer → List (List String)
  | requests list => list.map ConnectionRequest.texts
  | probes p => p.probes.map (·.request.texts)
  | client c => [c.texts]
  | _ => []

/-! ## Applications -/

/-- A world, and the settings that were loaded last. -/
structure Application where
  world : World := {}
  settings : Option ClientSettings := none

/-- What an application does next. Tasks run in calls that wait; `turn` and `clock` let them run one
by one and in any order, so that what stands between their turns is seen too. -/
inductive Command
  | load (path : String) (file : SettingsFile) (lookup : String → Option String)
  /-- Configures a client by the settings that were loaded last. -/
  | configure
  | call (s : Step)
  /-- Lets the task run that stands at a place of the queue. -/
  | turn (place : Nat)
  /-- Moves the clock. -/
  | clock (time : Nat)

/-- What is seen at a point of a run: what has been logged, and the texts of what there is. -/
structure Sight where
  journal : Journal
  /-- What the last command handed in, and what it was handed. -/
  handed : List String
  answer : List (List String)
  settings : Option (List String)
  clients : Array (List String)
  requests : List (List String)
  probes : List (List String)
  tasks : Array (List String)

/-- The task at a place of the queue runs. -/
def World.turnAt (place : Nat) (w : World) : World :=
  match w.scheduler.queue[place]? with
  | some (id, wake) => (w.withQueue (w.scheduler.queue.eraseIdx place)).runTask id wake
  | none => w

def Command.texts : Command → List String
  | call s => s.texts
  | _ => []

namespace Application

def perform (a : Application) (s : Step) : Application × Answer :=
  let (world, answer) := a.world.perform s
  ({ a with world }, answer)

def obey (a : Application) : Command → Application × Answer
  | .load path file lookup =>
    let (result, records) := ClientSettings.load path file lookup
    ({ world := a.world.noteAll records, settings := result.toOption }, .nothing)
  | .configure =>
    match a.settings with
    | some s => a.perform (.ofSettings s)
    | none => (a, .nothing)
  | .call s => a.perform s
  | .turn place => ({ a with world := a.world.turnAt place }, .nothing)
  | .clock time =>
    ({ a with world := { a.world with scheduler := a.world.scheduler.moveTo time } }, .nothing)

def sight (a : Application) (c : Command) (answer : Answer) : Sight where
  journal := a.world.hub.journal
  handed := c.texts
  answer := answer.texts
  settings := a.settings.map ClientSettings.texts
  clients := a.world.clients.map Client.texts
  requests := a.world.gateway.requests.map ConnectionRequest.texts
  probes := a.world.plane.probes.map (·.request.texts)
  tasks := a.world.scheduler.tasks.map Task.texts

/-- What is seen after each command. -/
def run (a : Application) : List Command → List Sight
  | [] => []
  | c :: rest =>
    let (a, answer) := a.obey c
    a.sight c answer :: a.run rest

def veil (a : Application) : Application :=
  { world := a.world.veil, settings := a.settings.map ClientSettings.veil }

end Application

/-- Commands that differ in the text of secrets only. How the collaborators answer is the matter of
calls, which are the same then. -/
inductive Command.Alike : Command → Command → Prop
  | load (path : String) {file file' : SettingsFile} {lookup lookup' : String → Option String} :
      file.Alike file' → veilVariables lookup = veilVariables lookup' →
      Alike (load path file lookup) (load path file' lookup')
  | configure : Alike configure configure
  | call {s s' : Step} : s.veil = s'.veil → Alike (call s) (call s')
  | turn (place : Nat) : Alike (turn place) (turn place)
  | clock (time : Nat) : Alike (clock time) (clock time)

/-! ## The veil and the texts -/

theorem ProxyConfig.texts_veil (p : ProxyConfig) : p.veil.texts = p.texts := by
  have hcredentials : p.veil.credentials.toList.map ProxyCredentials.inspect =
      p.credentials.toList.map ProxyCredentials.inspect := by
    obtain ⟨mode, url, credentials⟩ := p
    cases credentials <;> rfl
  rw [texts, p.inspect_veil, hcredentials, texts]

theorem ClientSettings.texts_veil (s : ClientSettings) : s.veil.texts = s.texts := by
  rw [texts, s.inspect_veil, texts, ← s.proxy.texts_veil]
  rfl

theorem Client.texts_veil (c : Client) : c.veil.texts = c.texts := by
  have hcredential : c.veil.credential.toList.flatMap Credential.texts =
      c.credential.toList.flatMap Credential.texts := by
    obtain ⟨credential⟩ := c
    cases credential <;> rfl
  rw [texts, c.inspect_veil, hcredential, texts, ← c.proxy.texts_veil]
  rfl

theorem ConnectionRequest.texts_veil (q : ConnectionRequest) : q.veil.texts = q.texts := by
  rw [texts, q.inspect_veil, texts, ← q.proxy.texts_veil]
  rfl

theorem ProbeRequest.texts_veil (q : ProbeRequest) : q.veil.texts = q.texts := by
  rw [texts, q.inspect_veil, texts, ← q.proxy.texts_veil]
  rfl

theorem SeenProbe.texts_veil (p : SeenProbe) : p.veil.request.texts = p.request.texts :=
  p.request.texts_veil

theorem Task.texts_veil (t : Task) : t.veil.texts = t.texts := by
  cases t with
  | ended ending => rfl
  | live work =>
      cases work with
      | connect q => exact q.texts_veil
      | opening number q response => exact q.texts_veil
      | lookup k l phase => exact l.request.texts_veil
      | _ => rfl

theorem Step.texts_veil (s : Step) : s.veil.texts = s.texts := by
  cases s with
  | ofSettings s => exact s.texts_veil
  | set s =>
      cases s with
      | proxy p => exact p.texts_veil
      | _ => rfl
  | _ => rfl

theorem Answer.texts_veil (a : Answer) : a.veil.texts = a.texts := by
  cases a with
  | requests list =>
      simp only [veil, texts, List.map_map, Function.comp_def, ConnectionRequest.texts_veil]
  | probes p =>
      simp only [veil, ControlPlane.veil, texts, List.map_map, Function.comp_def,
        SeenProbe.texts_veil]
  | client c => exact congrArg (fun texts => [texts]) c.texts_veil
  | _ => rfl

theorem World.turnAt_veil (place : Nat) (w : World) :
    w.veil.turnAt place = (w.turnAt place).veil := by
  have hqueue : w.veil.scheduler.queue = w.scheduler.queue := rfl
  unfold turnAt
  rw [hqueue]
  cases w.scheduler.queue[place]? with
  | none => rfl
  | some queued =>
      exact (w.withQueue (w.scheduler.queue.eraseIdx place)).runTask_veil queued.1 queued.2

namespace Application

variable {a a' : Application} {c c' : Command}

theorem sight_veil (a : Application) (c : Command) (answer : Answer) :
    a.veil.sight c answer.veil = a.sight c answer := by
  have hsettings : a.veil.settings.map ClientSettings.texts =
      a.settings.map ClientSettings.texts := by
    obtain ⟨world, settings⟩ := a
    cases settings with
    | none => rfl
    | some s => exact congrArg some s.texts_veil
  simp only [sight, answer.texts_veil, hsettings]
  simp only [veil, World.veil, Gateway.veil, ControlPlane.veil, Scheduler.veil, Array.map_map,
    List.map_map, Function.comp_def, Client.texts_veil, ConnectionRequest.texts_veil,
    SeenProbe.texts_veil, Task.texts_veil]

theorem sight_alike (ha : a.veil = a'.veil) (hc : c.Alike c') {answer answer' : Answer}
    (hanswer : answer.veil = answer'.veil) : a.sight c answer = a'.sight c' answer' := by
  have htexts : c.texts = c'.texts := by
    cases hc with
    | @call s s' hs =>
      show s.texts = s'.texts
      rw [← s.texts_veil, hs, s'.texts_veil]
    | _ => rfl
  have hsight : a.sight c answer = a.sight c' answer := by
    unfold sight
    rw [htexts]
  rw [hsight, ← sight_veil, ha, hanswer, sight_veil]

theorem perform_veil (a : Application) (s : Step) :
    a.veil.perform s.veil = ((a.perform s).1.veil, (a.perform s).2.veil) := by
  have hworld := a.world.perform_veil s
  unfold perform
  rw [show a.veil.world = a.world.veil from rfl, hworld]
  rfl

/-- **Alike commands make alike applications of alike ones**, with alike answers. -/
theorem obey_alike (ha : a.veil = a'.veil) (hc : c.Alike c') :
    (a.obey c).1.veil = (a'.obey c').1.veil ∧ (a.obey c).2.veil = (a'.obey c').2.veil := by
  have hworld : a.world.veil = a'.world.veil := congrArg world ha
  have performed : ∀ {s s' : Step}, s.veil = s'.veil →
      (a.perform s).1.veil = (a'.perform s').1.veil
        ∧ (a.perform s).2.veil = (a'.perform s').2.veil := by
    intro s s' hs
    have hperform := a.perform_veil s
    rw [ha, hs, a'.perform_veil s'] at hperform
    exact ⟨(congrArg Prod.fst hperform).symm, (congrArg Prod.snd hperform).symm⟩
  cases hc with
  | @load path file file' lookup lookup' hfile hlookup =>
      obtain ⟨hrecords, hsettings⟩ := ClientSettings.load_alike path hfile hlookup
      refine ⟨?_, rfl⟩
      show Application.mk (a.world.veil.noteAll (ClientSettings.load path file lookup).2)
          ((ClientSettings.load path file lookup).1.toOption.map ClientSettings.veil) =
        Application.mk (a'.world.veil.noteAll (ClientSettings.load path file' lookup').2)
          ((ClientSettings.load path file' lookup').1.toOption.map ClientSettings.veil)
      rw [hworld, hrecords, hsettings]
  | configure =>
      have hsettings : a.settings.map ClientSettings.veil =
          a'.settings.map ClientSettings.veil := congrArg settings ha
      unfold obey
      dsimp only
      generalize hs : a.settings = s, hs' : a'.settings = s' at hsettings ⊢
      rcases s with _ | s <;> rcases s' with _ | s'
      · exact ⟨ha, rfl⟩
      · cases hsettings
      · cases hsettings
      · exact performed (congrArg Step.ofSettings (Option.some.inj hsettings))
  | call hs => exact performed hs
  | turn place =>
      refine ⟨congrArg₂ Application.mk ?_ (congrArg settings ha), rfl⟩
      show (a.world.turnAt place).veil = (a'.world.turnAt place).veil
      rw [← World.turnAt_veil, hworld, World.turnAt_veil]
  | clock time =>
      refine ⟨congrArg₂ Application.mk ?_ (congrArg settings ha), rfl⟩
      exact congrArg (fun w => { w with scheduler := w.scheduler.moveTo time }) hworld

/-- **Runs that differ in the text of secrets only are not told apart**, neither by what is logged
nor by a text of anything that is there. -/
theorem run_alike {cs cs' : List Command} (ha : a.veil = a'.veil)
    (hcs : List.Forall₂ Command.Alike cs cs') : a.run cs = a'.run cs' := by
  -- The applications stay alike from command to command.
  induction hcs generalizing a a' with
  | nil => rfl
  | cons hc _ ih =>
      obtain ⟨happlication, hanswer⟩ := obey_alike ha hc
      rw [run, run]
      dsimp only
      rw [sight_alike happlication hc hanswer, ih happlication]

/-! An application that is given its secrets by a file, by the environment and by calls. -/

def secretText (token password : String) : String :=
  String.ofList
    ("\x7b\"token\":\"".toList ++ (token.toList ++
    ("\",\"proxy\":\x7b\"credentials\":[\"u\",\"".toList ++ (password.toList ++
      "\"]\x7d\x7d".toList))))

def secretJson (token password : String) : Json :=
  .obj
    [("proxy", .obj [("credentials", .arr [.str "u", .str password])]), ("token", .str token)]

def secretCommands (token password : String) : List Command :=
  [.load "settings.json" (.bytes (secretText token password).toUTF8) fun _ => none,
   .configure,
   .load "missing.json" .absent fun name => if name = "RELAY_TOKEN" then some token else none,
   .call (.set (.token password)),
   .call (.set (.proxy { credentials := some ⟨"u", password⟩ })),
   .call (.login "l"),
   .call (.discover "d" none),
   .turn 1,
   .clock 7]

theorem secretCommands_alike {token token' password password' : String}
    (hparse : Json.parse (secretText token password) = .ok (secretJson token password))
    (hparse' : Json.parse (secretText token' password') = .ok (secretJson token' password'))
    (htoken : token ≠ "") (htoken' : token' ≠ "") :
    List.Forall₂ Command.Alike (secretCommands token password)
      (secretCommands token' password') := by
  have hfile : (SettingsFile.bytes (secretText token password).toUTF8).Alike
      (.bytes (secretText token' password').toUTF8) := by
    refine .veiled ?_
    rw [SettingsFile.value?_toUTF8, SettingsFile.value?_toUTF8, hparse, hparse']
    rfl
  have hvariables :
      veilVariables (fun name => if name = "RELAY_TOKEN" then some token else none) =
        veilVariables fun name => if name = "RELAY_TOKEN" then some token' else none := by
    funext name
    by_cases hname : name = "RELAY_TOKEN"
    · simp [veilVariables, hname, htoken, htoken']
    · simp [veilVariables, hname]
  exact .cons (.load _ hfile rfl) (.cons .configure (.cons (.load _ (.same _) hvariables)
    (.cons (.call rfl) (.cons (.call rfl) (.cons (.call rfl) (.cons (.call rfl)
      (.cons (.turn 1) (.cons (.clock 7) .nil))))))))

theorem run_alike_secretCommands :
    List.Forall₂ Command.Alike (secretCommands "a" "b") (secretCommands "cd" "") ∧
      Application.run {} (secretCommands "a" "b") =
        Application.run {} (secretCommands "cd" "") := by
  have halike : List.Forall₂ Command.Alike (secretCommands "a" "b") (secretCommands "cd" "") :=
    secretCommands_alike (Json.parse_ofList (by rfl)) (Json.parse_ofList (by rfl)) (by decide)
      (by decide)
  exact ⟨halike, run_alike rfl halike⟩

end Application

end GatewayClient
