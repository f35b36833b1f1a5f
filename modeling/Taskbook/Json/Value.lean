import Taskbook.Json.Token

/-!
# JSON Values

A JSON value is a tree; a text spells at most one. The tree is built from the tokens of the
text by a machine that keeps the unfinished arrays and objects on a stack of its own, so the
depth of nesting is not limited by anything but the length of the text.

## Writing convention

A value is written in its compact form: no white space, and of the characters of a string
only the quote, the backslash and the control characters below `U+0020` are escaped.
-/

namespace Taskbook

/-- A JSON value. The members of an object stand in the order of the text, repeated keys
included. -/
inductive Json where
  | null
  | bool (b : Bool)
  | number (n : Json.NumberText)
  | string (units : List Json.StringUnit)
  | array (items : List Json)
  | object (members : List (List Json.StringUnit × Json))

namespace Json

/-! ### Reading -/

/-- A member of an object: its key and its value. -/
abbrev Member := List StringUnit × Json

/-- An array or object whose end has not been reached, with what it holds so far (the last
part first). A `member` waits for the value of a key. -/
inductive Frame where
  | array (done : List Json)
  | object (done : List Member)
  | member (done : List Member) (key : List StringUnit)

/-- What must stand at the next token. -/
inductive Spot where
  | value
  | itemOrEnd
  | keyOrEnd
  | key
  | colon
  | after (j : Json)

/-- Builds the value that tokens spell, from what must come next and the unfinished arrays
and objects around it, the innermost first. -/
def build : Spot → List Frame → List Token → Option Json
  | .after j, [], [] => some j
  | .after j, .array done :: st, .comma :: ts => build .value (.array (j :: done) :: st) ts
  | .after j, .array done :: st, .closeBracket :: ts =>
    build (.after (.array (j :: done).reverse)) st ts
  | .after j, .member done k :: st, .comma :: ts => build .key (.object ((k, j) :: done) :: st) ts
  | .after j, .member done k :: st, .closeBrace :: ts =>
    build (.after (.object ((k, j) :: done).reverse)) st ts
  | .itemOrEnd, .array done :: st, .closeBracket :: ts =>
    build (.after (.array done.reverse)) st ts
  | .keyOrEnd, .object done :: st, .closeBrace :: ts =>
    build (.after (.object done.reverse)) st ts
  | .keyOrEnd, .object done :: st, .string k :: ts => build .colon (.member done k :: st) ts
  | .key, .object done :: st, .string k :: ts => build .colon (.member done k :: st) ts
  | .colon, st, .colon :: ts => build .value st ts
  | .value, st, t :: ts => start st t ts
  | .itemOrEnd, st, t :: ts => start st t ts
  | _, _, _ => none
where
  /-- Builds a value that starts at the given token. -/
  start (st : List Frame) : Token → List Token → Option Json
    | .null, ts => build (.after .null) st ts
    | .bool b, ts => build (.after (.bool b)) st ts
    | .number n, ts => build (.after (.number n)) st ts
    | .string u, ts => build (.after (.string u)) st ts
    | .openBracket, ts => build .itemOrEnd (.array [] :: st) ts
    | .openBrace, ts => build .keyOrEnd (.object [] :: st) ts
    | _, _ => none

/-- Reads a text as a JSON value. -/
def read (text : String) : Option Json :=
  (tokens text).bind (build .value [])

/-! ### Writing -/

/-- The hexadecimal digit of a number below sixteen, in small letters. -/
def hexDigit (n : Nat) : Char :=
  if n < 10 then Char.ofNat ('0'.toNat + n) else Char.ofNat ('a'.toNat + (n - 10))

/-- The `\u` escape of a code unit. -/
def codeEscape (n : Nat) : List Char :=
  ['\\', 'u', hexDigit (n / 0x1000), hexDigit (n / 0x100 % 16), hexDigit (n / 16 % 16),
    hexDigit (n % 16)]

/-- A character inside a string. -/
def escape (c : Char) : List Char :=
  match c with
  | '"' => ['\\', '"']
  | '\\' => ['\\', '\\']
  | '\x08' => ['\\', 'b']
  | '\x0c' => ['\\', 'f']
  | '\n' => ['\\', 'n']
  | '\r' => ['\\', 'r']
  | '\t' => ['\\', 't']
  | c => if c.toNat < 0x20 then codeEscape c.toNat else [c]

/-- A text as a JSON string. -/
def quote (s : String) : String :=
  .ofList ('"' :: s.toList.flatMap escape ++ ['"'])

end Json

end Taskbook
