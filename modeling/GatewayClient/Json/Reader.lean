import GatewayClient.Json.Numeral

/-!
# Reading JSON

A text is read from its front; each reader returns what it found and the rest. A fault is of one
of two kinds: the text ends too early, or it is malformed. Containers nest at most 127 deep. A
string holds no control characters, and an escape stands for a character: a pair of surrogates for
one, a lone surrogate for none.
-/

namespace GatewayClient.Json

/-- Drops the blanks of the format: space, line feed, carriage return and tab. -/
def skipBlanks : List Char → List Char
  | [] => []
  | c :: rest =>
    if c = ' ' ∨ c = '\n' ∨ c = '\r' ∨ c = '\t' then skipBlanks rest else c :: rest

/-- The remaining characters of a word that stands for a value. -/
def word (value : Json) : List Char → List Char → Reading Json
  | [], rest => .ok (value, rest)
  | _ :: _, [] => .error .unfinished
  | w :: ws, c :: cs => if w = c then word value ws cs else .error .malformed

/-- The value of a hexadecimal digit of either case. -/
def hexDigit? (c : Char) : Option Nat :=
  if '0' ≤ c && c ≤ '9' then some (c.toNat - '0'.toNat)
  else if 'a' ≤ c && c ≤ 'f' then some (c.toNat - 'a'.toNat + 10)
  else if 'A' ≤ c && c ≤ 'F' then some (c.toNat - 'A'.toNat + 10)
  else none

/-- Four hexadecimal digits. Fewer than four bytes before the end leave the text unfinished. -/
def fourHex : List Char → Reading Nat
  | a :: b :: c :: d :: rest =>
    match hexDigit? a, hexDigit? b, hexDigit? c, hexDigit? d with
    | some a, some b, some c, some d => .ok (((a * 16 + b) * 16 + c) * 16 + d, rest)
    | _, _, _, _ => .error .malformed
  | few =>
    if (String.ofList few).utf8ByteSize < 4 then .error .unfinished else .error .malformed

/-- What follows a leading surrogate: the escape of a trailing one. -/
def trailingSurrogate (leading : Nat) : List Char → Reading Char
  | '\\' :: 'u' :: rest =>
    match fourHex rest with
    | .error e => .error e
    | .ok (n, rest) =>
      if 0xDC00 ≤ n ∧ n ≤ 0xDFFF then
        .ok (Char.ofNat ((leading - 0xD800) * 0x400 + (n - 0xDC00) + 0x10000), rest)
      else .error .malformed
  | [] | ['\\'] => .error .unfinished
  | _ => .error .malformed

/-- What follows `\u`. -/
def codeEscape (cs : List Char) : Reading Char :=
  match fourHex cs with
  | .error e => .error e
  | .ok (n, rest) =>
    if 0xDC00 ≤ n ∧ n ≤ 0xDFFF then .error .malformed
    else if 0xD800 ≤ n ∧ n ≤ 0xDBFF then trailingSurrogate n rest
    else .ok (Char.ofNat n, rest)

/-- What follows the backslash of an escape. -/
def escape : List Char → Reading Char
  | [] => .error .unfinished
  | 'u' :: rest => codeEscape rest
  | '"' :: rest => .ok ('"', rest)
  | '\\' :: rest => .ok ('\\', rest)
  | '/' :: rest => .ok ('/', rest)
  | 'b' :: rest => .ok ('\x08', rest)
  | 'f' :: rest => .ok ('\x0c', rest)
  | 'n' :: rest => .ok ('\n', rest)
  | 'r' :: rest => .ok ('\r', rest)
  | 't' :: rest => .ok ('\t', rest)
  | _ :: _ => .error .malformed

/-- The characters of a string behind its opening quote. Each step takes at least one character,
so the length of the text is fuel enough. -/
def stringBody : Nat → List Char → Reading (List Char)
  | _, [] => .error .unfinished
  | _, '"' :: rest => .ok ([], rest)
  | 0, _ => .error .malformed
  | fuel + 1, '\\' :: rest =>
    match escape rest with
    | .error e => .error e
    | .ok (c, rest) =>
      match stringBody fuel rest with
      | .error e => .error e
      | .ok (cs, rest) => .ok (c :: cs, rest)
  | fuel + 1, c :: rest =>
    if c.toNat < 0x20 then .error .malformed
    else
      match stringBody fuel rest with
      | .error e => .error e
      | .ok (cs, rest) => .ok (c :: cs, rest)

/-- A string behind its opening quote. -/
def readString (cs : List Char) : Reading String :=
  (stringBody cs.length cs).map fun (body, rest) => (String.ofList body, rest)

/-- The members of a container behind its opening bracket, up to `close`. A comma divides two
members, and a member follows each comma. -/
def members {α : Type} (close : Char) (member : List Char → Reading α) :
    Nat → Bool → List Char → Reading (List α)
  | 0, _, _ => .error .malformed
  | fuel + 1, first, cs =>
    let more (cs : List Char) : Reading (List α) :=
      match member cs with
      | .error e => .error e
      | .ok (m, rest) =>
        match members close member fuel false rest with
        | .error e => .error e
        | .ok (ms, rest) => .ok (m :: ms, rest)
    match skipBlanks cs with
    | [] => .error .unfinished
    | c :: rest =>
      if c = close then .ok ([], rest)
      else if first then more (c :: rest)
      else if c = ',' then
        match skipBlanks rest with
        | [] => .error .unfinished
        | d :: rest => if d = close then .error .malformed else more (d :: rest)
      else .error .malformed

/-- One entry of an object: a string, a colon and a value. -/
def entry (value : List Char → Reading Json) : List Char → Reading (String × Json)
  | '"' :: rest =>
    match readString rest with
    | .error e => .error e
    | .ok (key, rest) =>
      match skipBlanks rest with
      | [] => .error .unfinished
      | ':' :: rest => (value rest).map fun (v, rest) => ((key, v), rest)
      | _ :: _ => .error .malformed
  | _ => .error .malformed

/-- A value whose containers nest at most `depth` deep. -/
def readValue (depth : Nat) (cs : List Char) : Reading Json :=
  match skipBlanks cs with
  | [] => .error .unfinished
  | 'n' :: rest => word .null ['u', 'l', 'l'] rest
  | 't' :: rest => word (.bool true) ['r', 'u', 'e'] rest
  | 'f' :: rest => word (.bool false) ['a', 'l', 's', 'e'] rest
  | '"' :: rest => (readString rest).map fun (s, rest) => (.str s, rest)
  | '-' :: rest => (readNumber true rest).map fun (n, rest) => (.num n, rest)
  | '[' :: rest =>
    match depth with
    | 0 => .error .malformed
    | depth + 1 =>
      (members ']' (readValue depth) (rest.length + 1) true rest).map fun (items, rest) =>
        (.arr items, rest)
  | '\x7b' :: rest =>
    match depth with
    | 0 => .error .malformed
    | depth + 1 =>
      (members '\x7d' (entry (readValue depth)) (rest.length + 1) true rest).map
        fun (entries, rest) => (ofEntries entries, rest)
  | c :: rest =>
    if (digit? c).isSome then
      (readNumber false (c :: rest)).map fun (n, rest) => (.num n, rest)
    else .error .malformed

/-- The value that a whole text stands for. Only blanks follow it. -/
def parse (text : String) : Except ReadError Json :=
  match readValue 127 text.toList with
  | .error e => .error e
  | .ok (value, rest) =>
    match skipBlanks rest with
    | [] => .ok value
    | _ :: _ => .error .malformed

end GatewayClient.Json
