import GatewayClient.Json.Merge
import GatewayClient.Json.Reader
import GatewayClient.Settings.Override
import GatewayClient.Settings.Wire
import GatewayClient.Text.Quoted

/-!
# Loading settings

Settings come in layers: the defaults, over them the settings file if there is one, and over both
the environment. The result is validated.
-/

namespace GatewayClient

/-- What stands at the path of the settings file. -/
inductive SettingsFile
  | absent
  | directory
  | bytes (content : ByteArray)

inductive FileFault
  | directory
  | notText
deriving DecidableEq, Repr

def FileFault.message : FileFault → String
  | .directory => "Is a directory (os error 21)"
  | .notText => "stream did not contain valid UTF-8"

inductive SettingsError
  | unreadable (fault : FileFault)
  | unparsable (fault : Json.ReadError)
  | undecodable (fault : Json.DecodeError)
  | invalid (conflict : SettingsConflict)
deriving DecidableEq, Repr

/-- The text of a settings file, if there is one. -/
def SettingsFile.text? : SettingsFile → Except FileFault (Option String)
  | .absent => .ok none
  | .directory => .error .directory
  | .bytes content =>
    match String.fromUTF8? content with
    | some text => .ok (some text)
    | none => .error .notText

/-- Variables with their values as bytes. -/
abbrev Environment := List (String × ByteArray)

/-- The value of a variable. A value that is no text counts as unset. -/
def Environment.lookup (e : Environment) (name : String) : Option String :=
  (e.find? (·.1 = name)).bind fun v => String.fromUTF8? v.2

def joinPath (path part : String) : String :=
  if path.isEmpty then part
  else if path.endsWith "/" then path ++ part
  else path ++ "/" ++ part

/-- The path of the settings file in a home directory, or in `/tmp` without one. -/
def settingsPath (home : Option String) : String :=
  joinPath (joinPath (home.getD "/tmp") ".relay") "settings.json"

namespace ClientSettings

/-- The defaults with a parsed settings file laid over them. -/
def layered (file : Json) : Json.Decoded ClientSettings :=
  ofJson (Json.merge (toJson {}) file)

/-- The settings of the defaults and the text of the file, if there is one. -/
def ofFile : Option String → Except SettingsError ClientSettings
  | none =>
    match ofJson (toJson {}) with
    | .error e => .error (.undecodable e)
    | .ok s => .ok s
  | some text =>
    match Json.parse text with
    | .error e => .error (.unparsable e)
    | .ok value =>
      match layered value with
      | .error e => .error (.undecodable e)
      | .ok s => .ok s

/-- The overridden settings if they are valid, and the warnings. -/
def finish (s : ClientSettings) (lookup : String → Option String) :
    Except SettingsError ClientSettings × Journal :=
  let (final, warnings) := s.override lookup
  match final.validate with
  | .error c => (.error (.invalid c), warnings)
  | .ok _ => (.ok final, warnings)

/-- What is said before the file at a path is read. -/
def announcement (path : String) (file : SettingsFile) : LogRecord :=
  let message :=
    match file with
    | .absent => "settings file not found, using defaults"
    | _ => "loading settings from file"
  { level := .debug, message, fields := [("path", Text.quote path)] }

/-- Loads settings from what stands at a path, under a lookup of variables. -/
def load (path : String) (file : SettingsFile) (lookup : String → Option String) :
    Except SettingsError ClientSettings × Journal :=
  let note := announcement path file
  match file.text? with
  | .error f => (.error (.unreadable f), [note])
  | .ok text =>
    match ofFile text with
    | .error e => (.error e, [note])
    | .ok s =>
      let (result, warnings) := s.finish lookup
      (result, note :: warnings)

end ClientSettings

/-- What a settings error says, apart from the place of a fault in a text. -/
def SettingsError.message : SettingsError → String
  | .unreadable f => "failed to read settings file: " ++ f.message
  | .unparsable .malformed => "failed to parse settings JSON: malformed text"
  | .unparsable .unfinished => "failed to parse settings JSON: unfinished text"
  | .undecodable e => "failed to parse settings JSON: " ++ e.message
  | .invalid c => c.report

end GatewayClient
