import Taskbook.Table.Statement

/-!
# Lexemes: The Words and Signs of a Statement

A name that is written into the text of a statement is not always read as the one name it was
meant as. So the text is taken apart as a database does it: into words, quoted names, numbers,
variables and signs. Blanks and comments separate them and are dropped.

## Reading convention

* The text ends at the first zero character.
* A name in quotes ends at a quote that is not doubled, a name in brackets at the first
  bracket. Characters outside ASCII are letters.
* What begins no lexeme is *broken*, and so is a lexeme without its end, or a number with a
  letter right behind it.
-/

namespace Taskbook

/-- What a lexeme can be. -/
inductive LexemeKind where
  | blank
  | word
  | quoted
  | sign
  | broken
  deriving DecidableEq, Repr

/-- A piece of the text of a statement, and how many bytes stand before it. -/
structure Lexeme where
  kind : LexemeKind
  text : String
  offset : Nat
  deriving DecidableEq, Repr

namespace Lexeme

/-! ### Characters -/

/-- The blanks that separate lexemes. Inside a run of blanks there is one more. -/
def isBlank (c : Char) : Bool :=
  c = ' ' || c = '\t' || c = '\n' || c = '\x0c' || c = '\r'

/-- Whether a character may begin a word. -/
def isWordStart (c : Char) : Bool :=
  Text.isNameStart c || 0x80 ≤ c.toNat

/-- Whether a character may stand in a word. -/
def isInWord (c : Char) : Bool :=
  isWordStart c || c.isDigit || c = '$'

/-- Whether a character may stand among the digits of a number. -/
def isInDigits (c : Char) : Bool :=
  c.isDigit || c = '_'

/-- Whether a character is a hexadecimal digit. -/
def isHexDigit (c : Char) : Bool :=
  c.isDigit || ('a' ≤ c.toLower && c.toLower ≤ 'f')

/-- Whether a list begins with a character of a class. -/
def startsWith (p : Char → Bool) (cs : List Char) : Bool :=
  cs.head?.any p

/-- How many characters of a class a list begins with. -/
def run (p : Char → Bool) (cs : List Char) : Nat :=
  (cs.takeWhile p).length

/-! ### Where a lexeme ends

Each of these answers how many characters belong to a lexeme. -/

/-- How long an exponent is, if a list begins with one. -/
def exponentLength : List Char → Nat
  | e :: cs =>
    let sign := if startsWith (fun c => c = '+' || c = '-') cs then 1 else 0
    if e.toLower = 'e' ∧ startsWith Char.isDigit (cs.drop sign) then
      1 + sign + run isInDigits (cs.drop sign)
    else 0
  | [] => 0

/-- How long the number is that a list begins with. -/
def numberLength (cs : List Char) : Nat :=
  match cs with
  | '0' :: x :: rest =>
    if x.toLower = 'x' ∧ startsWith isHexDigit rest then
      2 + run (fun c => isHexDigit c || c = '_') rest
    else decimal
  | _ => decimal
where
  /-- Digits, perhaps a point and more digits, perhaps an exponent. -/
  decimal : Nat :=
    let whole := run isInDigits cs
    let point :=
      if startsWith (· = '.') (cs.drop whole) then 1 + run isInDigits (cs.drop (whole + 1)) else 0
    whole + point + exponentLength (cs.drop (whole + point))

/-- How long the rest of a quoted name is behind its first quote, if it ends. -/
def quotedLength (quote : Char) : List Char → Option Nat
  | [] => none
  | c :: cs =>
    if c = quote then
      match cs with
      | d :: ds => if d = quote then (quotedLength quote ds).map (· + 2) else some 1
      | [] => some 1
    else (quotedLength quote cs).map (· + 1)

/-- How long the rest of a comment is behind its first two characters. -/
def commentLength : List Char → Nat
  | '*' :: '/' :: _ => 2
  | _ :: cs => commentLength cs + 1
  | [] => 0

/-- How long the rest of a variable is behind its first character, and whether it is complete,
given whether it has a name yet. A name may have parts between doubled colons and an index in
parentheses. -/
def variableLength : List Char → Bool → Nat × Bool
  | ':' :: ':' :: cs, named =>
    let (n, complete) := variableLength cs named
    (n + 2, complete)
  | c :: cs, named =>
    if isInWord c then
      let (n, complete) := variableLength cs true
      (n + 1, complete)
    else if c = '(' ∧ named then
      let inside := run (fun d => !isBlank d && d ≠ '\x0b' && d ≠ ')') cs
      if startsWith (· = ')') (cs.drop inside) then (inside + 2, true) else (inside + 1, false)
    else (0, named)
  | [], named => (0, named)

/-- The signs of more than one character, the longer ones first. -/
def longSigns : List String :=
  ["->>", "->", "==", "<=", "<>", "<<", ">=", ">>", "!=", "||"]

/-- The signs of one character. -/
def signs : List Char :=
  ['(', ')', ';', '+', '-', '*', '/', '%', '=', '<', '>', '|', ',', '&', '~', '.']

/-- A quoted name, or the broken rest of the text. -/
def scanQuoted (quote : Char) (cs : List Char) : LexemeKind × Nat :=
  match quotedLength quote cs with
  | some n => (.quoted, n)
  | none => (.broken, cs.length)

/-- A number; letters behind it break it. -/
def scanNumber (cs : List Char) : LexemeKind × Nat :=
  let n := numberLength cs
  let letters := run isInWord (cs.drop n)
  (if letters = 0 then .sign else .broken, n + letters - 1)

/-- Bytes: pairs of hexadecimal digits between quotes. -/
def scanBytes (cs : List Char) : LexemeKind × Nat :=
  let digits := run isHexDigit cs
  let rest := cs.drop digits
  if startsWith (· = '\'') rest ∧ digits % 2 = 0 then (.sign, digits + 2)
  else (.broken, min (run (· ≠ '\'') cs + 2) (cs.length + 1))

/-- A sign. -/
def scanSign (c : Char) (cs : List Char) : LexemeKind × Nat :=
  match longSigns.find? fun s => s.toList.isPrefixOf (c :: cs) with
  | some s => (.sign, s.length - 1)
  | none => (if signs.contains c then .sign else .broken, 0)

/-- What the lexeme is that begins with a character, and how many more characters it has. -/
def scan (c : Char) (cs : List Char) : LexemeKind × Nat :=
  if isBlank c then (.blank, run (fun d => isBlank d || d = '\x0b') cs)
  else if c = '\ufeff' then (.blank, 0)
  else if c = '-' ∧ startsWith (· = '-') cs then (.blank, run (· ≠ '\n') cs)
  else if c = '/' ∧ startsWith (· = '*') cs ∧ 1 < cs.length then
    (.blank, 1 + commentLength (cs.drop 1))
  else if c = '\'' ∨ c = '"' ∨ c.toNat = 0x60 then scanQuoted c cs
  else if c = '[' then
    let inside := run (· ≠ ']') cs
    if inside < cs.length then (.quoted, inside + 1) else (.broken, cs.length)
  else if c.isDigit ∨ (c = '.' ∧ startsWith Char.isDigit cs) then scanNumber (c :: cs)
  else if c = '?' then (.sign, run Char.isDigit cs)
  else if c = '$' ∨ c = '@' ∨ c = ':' ∨ c = '#' then
    let (n, complete) := variableLength cs false
    (if complete then .sign else .broken, n)
  else if c.toLower = 'x' ∧ startsWith (· = '\'') cs then scanBytes (cs.drop 1)
  else if isWordStart c then (.word, run isInWord cs)
  else scanSign c cs

/-- The lexemes of the rest of a text, given how many bytes stand before it. -/
def listFrom (offset : Nat) : List Char → List Lexeme
  | [] => []
  | c :: cs =>
    let (kind, n) := scan c cs
    let text := String.ofList (c :: cs.take n)
    let rest := listFrom (offset + text.utf8ByteSize) (cs.drop n)
    if kind = .blank then rest else ⟨kind, text, offset⟩ :: rest
termination_by cs => cs.length
decreasing_by simp only [List.length_drop, List.length_cons]; omega

/-- The lexemes of the text of a statement. -/
def list (statement : String) : List Lexeme :=
  listFrom 0 (statement.toList.takeWhile (· != Char.ofNat 0))

/-! ### Names -/

/-- The words that begin an expression and are no names either. -/
def reservedOpenings : List String := ["case", "exists", "not", "null"]

/-- Whether a word can be no name. -/
def isReserved (word : String) : Bool :=
  (reservedWords ++ queryWords ++ reservedOpenings).any (Text.sameName word)

/-- A text with each doubled quote made one, up to the first quote that is alone. -/
def undouble (quote : Char) : List Char → List Char
  | [] => []
  | c :: cs =>
    if c = quote then
      match cs with
      | d :: ds => if d = quote then quote :: undouble quote ds else []
      | [] => []
    else c :: undouble quote cs

/-- The name that a lexeme is, if it can be one. -/
def name? (l : Lexeme) : Option String :=
  match l.kind, l.text.toList with
  | .word, _ => if isReserved l.text then none else some l.text
  | .quoted, q :: cs => some (.ofList (undouble (if q = '[' then ']' else q) cs))
  | _, _ => none

/-- Whether a lexeme is a sign or a word, whatever the case of its letters. -/
def isPlain (l : Lexeme) (text : String) : Bool :=
  (l.kind = .word || l.kind = .sign) && Text.sameName l.text text

end Lexeme

end Taskbook
