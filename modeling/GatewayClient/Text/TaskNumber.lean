/-!
# Task numbers in texts

The number of a task differs from run to run, so texts that are told to others do not show it: where
a text says that a task panicked or was cancelled, `N` stands for the number.
-/

namespace GatewayClient.Text

/-- What a text says of a task after its number. -/
def taskEndings : List String := [" panicked", " was cancelled"]

/-- How many characters the word `task`, a space and a number take at the front of a text that says
how the task ended. -/
def numberedTask? (cs : List Char) : Option Nat :=
  match cs with
  | 't' :: 'a' :: 's' :: 'k' :: ' ' :: rest =>
    let digits := rest.takeWhile Char.isDigit
    let ended := taskEndings.any fun ending => ending.toList.isPrefixOf (rest.drop digits.length)
    if !digits.isEmpty && ended then some (5 + digits.length) else none
  | _ => none

/-- Puts `task N` in the place of each numbered task, after leaving out the first `skip`
characters. -/
def hideNumbers : Nat → List Char → List Char
  | _, [] => []
  | skip + 1, _ :: cs => hideNumbers skip cs
  | 0, c :: cs =>
    match numberedTask? (c :: cs) with
    | some length => "task N".toList ++ hideNumbers (length - 1) cs
    | none => c :: hideNumbers 0 cs

/-- The text without the numbers of tasks. -/
def hideTaskNumbers (s : String) : String :=
  String.ofList (hideNumbers 0 s.toList)

end GatewayClient.Text
