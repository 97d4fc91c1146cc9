import SyncForm.Number.Places
import SyncForm.Value.Datum

/-!
# Message patterns

A message pattern is a text with directives such as `%s` or `%(name)5.2f`, in which a percent sign
that means itself is doubled. `Pattern.ofText` takes it apart into pieces, `Pattern.fill` puts
arguments in, from left to right: a directive takes the next argument or, with a name, a member of
the one argument that is a table. Every argument must be used, except where there is a table.
-/

namespace SyncForm

open Json (Document codes codesOf)

/-- The arguments of a message: a row of documents, or one document that may be a table. -/
inductive Arguments where
  | row (documents : List Document)
  | single (d : Document)

namespace Pattern

/-- The name of a directive, if it has one; the parenthesis may be left open. -/
inductive Name where
  | absent
  | open
  | named (key : List Nat)

/-- A width or a precision: left out, written, or taken from the arguments. -/
inductive Amount where
  | absent
  | written (n : Nat)
  | taken

/-- A directive; the conversion is missing where the pattern ends too early. -/
structure Directive where
  name : Name
  flags : List Nat
  width : Amount
  precision : Amount
  conversion : Option Nat
  position : Nat

/-- A part of a pattern. -/
inductive Piece where
  | literal (n : Nat)
  | directive (d : Directive)

/-- What stands before the parenthesis that closes a name, and what follows it. Parentheses are
`0x28` and `0x29`. -/
def closeName : Nat → List Nat → List Nat → Option (List Nat × List Nat)
  | _, _, [] => none
  | depth, seen, n :: rest =>
    if n = 0x29 then
      if depth = 0 then some (seen.reverse, rest) else closeName (depth - 1) (n :: seen) rest
    else closeName (if n = 0x28 then depth + 1 else depth) (n :: seen) rest

/-- The name of a directive. -/
def readName : List Nat → Name × List Nat
  | 0x28 :: rest =>
    match closeName 0 [] rest with
    | some (key, rest) => (.named key, rest)
    | none => (.open, [])
  | cs => (.absent, cs)

/-- Whether a code point is a flag of a directive. -/
def isFlag (n : Nat) : Bool :=
  (codesOf "-+ #0").contains n

/-- A width or a precision; an asterisk, `0x2A`, takes it from the arguments. -/
def readAmount : List Nat → Amount × List Nat
  | 0x2A :: rest => (.taken, rest)
  | cs =>
    match Json.readDigits cs with
    | none => (.absent, cs)
    | some (digits, rest) => (.written (Text.ofDigits digits), rest)

/-- A precision, behind a point; a point alone asks for none. -/
def readPrecision : List Nat → Amount × List Nat
  | 0x2E :: rest =>
    match readAmount rest with
    | (.absent, rest) => (.written 0, rest)
    | found => found
  | cs => (.absent, cs)

/-- Drops a mark of length, which has no meaning. -/
def dropLength : List Nat → List Nat
  | [] => []
  | n :: rest => if (codesOf "hlL").contains n then rest else n :: rest

/-- The directive at the start of a text, behind its percent sign. -/
def readDirective (length : Nat) (cs : List Nat) : Directive × List Nat :=
  let (name, cs) := readName cs
  let flags := cs.takeWhile isFlag
  let (width, cs) := readAmount (cs.dropWhile isFlag)
  let (precision, cs) := readPrecision cs
  let cs := dropLength cs
  ({ name, flags, width, precision, conversion := cs.head?, position := length - cs.length },
    cs.drop 1)

/-- The pieces of a text; `fuel` bounds their number. A percent sign is `0x25`. -/
def pieces (length : Nat) : Nat → List Nat → List Piece
  | 0, _ => []
  | _, [] => []
  | fuel + 1, 0x25 :: 0x25 :: rest => .literal 0x25 :: pieces length fuel rest
  | fuel + 1, 0x25 :: rest =>
    let (d, rest) := readDirective length rest
    .directive d :: pieces length fuel rest
  | fuel + 1, n :: rest => .literal n :: pieces length fuel rest

/-- The pieces of a pattern. -/
def ofText (text : List Nat) : List Piece :=
  pieces text.length text.length text

/-- The arguments not used so far, and the table among them. -/
structure Supply where
  unused : List Document
  table : Option Document

/-- The supply of some arguments. -/
def Supply.of : Arguments → Supply
  | .row documents => { unused := documents, table := none }
  | .single d =>
    { unused := [d]
      table := match d with
        | .object _ => some d
        | .array _ => some d
        | _ => none }

/-- A fault in a pattern. -/
def flaw {α : Type} (flaw : PatternFlaw) : Except Fault α :=
  .error (.pattern flaw)

/-- The next argument. -/
def take (s : Supply) : Except Fault (Document × Supply) :=
  match s.unused with
  | [] => flaw .tooFew
  | d :: rest => .ok (d, { s with unused := rest })

/-- The supply behind the name of a directive: the member it names and nothing else. -/
def select (s : Supply) : Name → Except Fault Supply
  | .absent => .ok s
  | .open => if s.table.isSome then flaw .incompleteKey else flaw .needsMapping
  | .named key =>
    match s.table with
    | none => flaw .needsMapping
    | some (.object members) =>
      match members.lookup key with
      | some d => .ok { s with unused := [d] }
      | none => flaw (.noMember key)
    | some d => .error (.notNamed d.kind)

/-- What bounds an amount: its name, the machine type that holds it and the bits of that type. -/
structure Bound where
  name : String
  type : String
  bits : Nat

/-- The bound on widths. -/
def widthBound : Bound := ⟨"width", "ssize_t", 63⟩

/-- The bound on precisions. -/
def precisionBound : Bound := ⟨"precision", "int", 31⟩

/-- The amount that a directive asks for. -/
def amount (b : Bound) (s : Supply) : Amount → Except Fault (Option Int × Supply)
  | .absent => .ok (none, s)
  | .written n => if n < Nat.pow 2 b.bits then .ok (some n, s) else flaw (.tooBig b.name)
  | .taken => do
    let (d, s) ← take s
    match (Value.ofDocument d).whole? with
    | some i =>
      if i.natAbs < Nat.pow 2 b.bits then return (some i, s) else flaw (.starTooLarge b.type)
    | none => flaw .starNeedsWhole

/-- How a converted argument is set. -/
structure Setting where
  left : Bool
  plus : Bool
  blank : Bool
  alternate : Bool
  zero : Bool
  width : Nat
  precision : Option Nat

/-- A text in its width, filled up with blanks. -/
def setText (t : Setting) (text : List Nat) : List Nat :=
  let room := List.replicate (t.width - text.length) 0x20
  if t.left then text ++ room else room ++ text

/-- A number in its width: zeros stand between the sign and the digits, blanks outside. -/
def setNumber (t : Setting) (negative : Bool) (base digits : List Char) : List Char :=
  let sign :=
    if negative then ['-'] else if t.plus then ['+'] else if t.blank then [' '] else []
  let head := sign ++ base
  let missing := t.width - head.length - digits.length
  if t.left then head ++ digits ++ List.replicate missing ' '
  else if t.zero then head ++ List.replicate missing '0' ++ digits
  else List.replicate missing ' ' ++ head ++ digits

/-- A text cut to its precision, in its width. -/
def setCut (t : Setting) (text : List Nat) : List Nat :=
  setText t (match t.precision with
    | some n => text.take n
    | none => text)

/-- A character escaped where it is not ASCII. -/
def asciiChar (c : Char) : List Char :=
  let n := c.toNat
  if n < 0x80 then [c]
  else if n < 0x100 then '\\' :: 'x' :: Text.hex 2 n
  else if n < 0x10000 then '\\' :: 'u' :: Text.hex 4 n
  else '\\' :: 'U' :: Text.hex 8 n

/-- A document with its texts quoted, in ASCII. -/
def asciiQuoted (d : Document) : List Nat :=
  codes (d.quoted.toList.flatMap asciiChar)

/-- An integer in its base. -/
def setInteger (t : Setting) (conversion : Char) (i : Int) : List Char :=
  let digits (base : Nat) :=
    Binary64.padDigits (t.precision.getD 0) (Nat.toDigits base i.natAbs)
  let based (base : Nat) (mark : Char) (raise : Char → Char) :=
    setNumber t (i < 0) (if t.alternate then ['0', mark] else []) ((digits base).map raise)
  match conversion with
  | 'o' => based 8 'o' id
  | 'x' => based 16 'x' id
  | 'X' => based 16 'X' Char.toUpper
  | _ => setNumber t (i < 0) [] (digits 10)

/-- The integer that a directive for integers shows. -/
def integerOf (conversion : Char) (d : Document) : Except Fault Int :=
  let needsWhole := conversion == 'o' || conversion == 'x' || conversion == 'X'
  match Value.ofDocument d, (Value.ofDocument d).whole? with
  | _, some i => .ok i
  | .float x, none =>
    if needsWhole then flaw (.needsWhole conversion d.kind) else (Value.float x).toInteger
  | _, none =>
    if needsWhole then flaw (.needsWhole conversion d.kind)
    else flaw (.needsNumber conversion d.kind)

/-- The number that a directive for numbers shows. -/
def realOf (d : Document) : Except Fault Binary64 :=
  match Value.ofDocument d with
  | .float x => .ok x
  | v => if v.whole?.isSome then v.toReal else flaw (.needsReal d.kind)

/-- A number in the notation of its conversion. -/
def setReal (t : Setting) (conversion : Char) (x : Binary64) : List Char :=
  let precision := t.precision.getD 6
  let (negative, text) := x.signedText fun size =>
    match conversion.toLower with
    | 'e' => Binary64.scientificText size precision t.alternate
    | 'f' => Binary64.fixedText size precision t.alternate
    | _ => Binary64.generalText size precision t.alternate
  setNumber t negative [] (if conversion.isUpper then text.map Char.toUpper else text)

/-- The code point that a directive for characters shows. -/
def characterOf (d : Document) : Except Fault Nat :=
  match d with
  | .text [n] => .ok n
  | d =>
    match (Value.ofDocument d).whole? with
    | some i => if 0 ≤ i ∧ i < 0x110000 then .ok i.toNat else flaw .characterRange
    | none => flaw .needsCharacter

/-- An argument converted and set. -/
def convert (t : Setting) (conversion : Nat) (position : Nat) (d : Document) :
    Except Fault (List Nat) :=
  let letter := Char.ofNat conversion
  if letter == 's' then .ok (setCut t d.plain)
  else if letter == 'r' then .ok (setCut t (codesOf d.quoted))
  else if letter == 'a' then .ok (setCut t (asciiQuoted d))
  else if "diuoxX".toList.contains letter then
    (integerOf letter d).map fun i => codes (setInteger t letter i)
  else if "eEfFgG".toList.contains letter then
    (realOf d).map fun x => codes (setReal t letter x)
  else if letter == 'c' then (characterOf d).map fun n => setText t [n]
  else flaw (.unsupported conversion position)

/-- A directive filled in. -/
def fillDirective (d : Directive) (s : Supply) : Except Fault (List Nat × Supply) := do
  let s ← select s d.name
  let (width, s) ← amount widthBound s d.width
  let (precision, s) ← amount precisionBound s d.precision
  match d.conversion with
  | none => flaw .incomplete
  | some conversion =>
    let (argument, s) ← take s
    let width := width.getD 0
    let flag (c : Char) : Bool := d.flags.contains c.toNat
    let t : Setting := {
      left := flag '-' || width < 0
      plus := flag '+'
      blank := flag ' '
      alternate := flag '#'
      zero := flag '0'
      width := width.natAbs
      precision := precision.map Int.toNat }
    return (← convert t conversion d.position argument, s)

/-- Some pieces filled in; in the end no argument may be left. -/
def fillPieces (s : Supply) : List Piece → Except Fault (List Nat)
  | [] => if s.table.isNone && !s.unused.isEmpty then flaw .tooMany else .ok []
  | .literal n :: rest => return n :: (← fillPieces s rest)
  | .directive d :: rest => do
    let (text, s) ← fillDirective d s
    return text ++ (← fillPieces s rest)

/-- A pattern with its arguments filled in. -/
def fill (pattern : List Nat) (arguments : Arguments) : Except Fault (List Nat) :=
  fillPieces (Supply.of arguments) (ofText pattern)

end Pattern

end SyncForm
