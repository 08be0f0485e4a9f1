import GatewayClient.Log.Record
import GatewayClient.Number.Numeral
import GatewayClient.Text.Alphanumeric
import GatewayClient.Text.Blank

/-!
# Log filters

A filter is a comma list of directives. A directive lets the records of a target, or of all
targets, through from a level on. Of the directives whose target begins the target of a record,
the one with the longest target decides. A subscriber is installed once with the filter and the
format of that moment; later installations change nothing.
-/

namespace GatewayClient

/-- The least level that passes; none passes nothing. -/
abbrev Threshold := Option Level

/-- One entry of a filter. A directive without a target is for all targets. -/
structure Directive where
  target : Option String
  threshold : Threshold
deriving DecidableEq, Repr

namespace Directive

/-- The threshold that a word names, in either case or as a number from 0 for nothing to 5 for
everything. -/
def threshold? (word : List Char) : Option Threshold :=
  let byNumber : Option Threshold :=
    match word with
    | '+' :: digits => (natOfDigits? digits).bind numbered
    | _ => (natOfDigits? word).bind numbered
  match byNumber, String.ofList (word.map Char.toLower) with
  | some t, _ => some t
  | none, "error" => some (some .error)
  | none, "warn" => some (some .warn)
  | none, "info" => some (some .info)
  | none, "debug" => some (some .debug)
  | none, "trace" => some (some .trace)
  | none, "off" => some none
  | none, _ => none
where
  numbered : Nat → Option Threshold
    | 0 => some none
    | 1 => some (some .error)
    | 2 => some (some .warn)
    | 3 => some (some .info)
    | 4 => some (some .debug)
    | 5 => some (some .trace)
    | _ => none

/-- A directive begins with a letter, a number, a hyphen, a colon or an underscore. -/
def startsDirective (c : Char) : Bool :=
  Text.isAlphanumeric c || c = '-' || c = ':' || c = '_'

/-- A directive without an equals sign: a threshold, or else a target, of which everything
passes. -/
def ofWord (word : List Char) : Directive :=
  match threshold? word with
  | some t => ⟨none, t⟩
  | none => ⟨some (String.ofList word), some .trace⟩

/-- A directive: a threshold, a target, or a target, an equals sign and a threshold, which may be
left out. Blanks belong to the words: a target or a threshold with blanks around it is another
word. Blanks in front are not accepted before an equals sign, and directives on spans, which have
a bracket, are not accepted at all. -/
def parse? (text : List Char) : Option Directive :=
  match text.dropWhile Text.isBlank with
  | [] => none
  | c :: rest =>
    if startsDirective c && !rest.contains '[' then
      match text.dropWhile (· ≠ '=') with
      | [] => some (ofWord text)
      | _ :: word =>
        let target := some (String.ofList (text.takeWhile (· ≠ '=')))
        if text.head?.any Text.isBlank then none
        else if word.isEmpty then some ⟨target, some .trace⟩
        else (threshold? word).map fun t => ⟨target, t⟩
    else none

/-- Is for the records of a target. -/
def covers (d : Directive) (target : String) : Bool :=
  match d.target with
  | none => true
  | some t => t.toList.isPrefixOf target.toList

/-- How closely a directive names its target. -/
def precision (d : Directive) : Nat :=
  match d.target with
  | none => 0
  | some t => t.utf8ByteSize + 1

end Directive

/-- The directives that decide which records pass. -/
abbrev LogFilter := List Directive

namespace LogFilter

/-- The texts between the commas that are not empty. -/
def pieces (text : String) : List (List Char) :=
  (text.toList.splitOn ',').filter (!·.isEmpty)

/-- The filter of the environment: nothing passes an empty one, and one with a piece that is no
directive is none. -/
def ofEnvironment? (text : String) : Option LogFilter :=
  if text.isEmpty then some [⟨none, none⟩]
  else
    ((pieces text).mapM Directive.parse?).map fun directives =>
      if directives.isEmpty then [⟨none, none⟩] else directives

/-- The filter of the settings: pieces that are no directive do not count, and without any
directive errors pass. -/
def ofLevel (text : String) : LogFilter :=
  let directives := (pieces text).filterMap Directive.parse?
  if directives.isEmpty then [⟨none, some .error⟩] else directives

/-- The directive that decides for a target: the closest one, and of equals the last. -/
def deciding? (filter : LogFilter) (target : String) : Option Directive :=
  (filter.filter (·.covers target)).foldl
    (fun best d =>
      match best with
      | some b => if b.precision ≤ d.precision then some d else some b
      | none => some d)
    none

/-- Records of a target and a level pass. -/
def passes (filter : LogFilter) (target : String) (level : Level) : Bool :=
  match (filter.deciding? target).bind (·.threshold) with
  | some least => least.rank ≤ level.rank
  | none => false

end LogFilter

/-- How records are written. -/
inductive LogFormat
  | text
  | json
deriving DecidableEq, Repr

/-- What was installed for a process. -/
structure Subscriber where
  filter : LogFilter
  format : LogFormat
deriving DecidableEq, Repr

namespace Subscriber

/-- The subscriber for a level, given the filter text of the environment. The environment comes
first, if its text is a filter. -/
def configure (environment : Option String) (level : String) (format : LogFormat) : Subscriber :=
  match environment.bind LogFilter.ofEnvironment? with
  | some filter => ⟨filter, format⟩
  | none => ⟨.ofLevel level, format⟩

/-- Installs a subscriber unless there is one. -/
def install (installed : Option Subscriber) (next : Subscriber) : Subscriber :=
  installed.getD next

end Subscriber

end GatewayClient
