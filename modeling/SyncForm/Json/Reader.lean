import SyncForm.Json.Document
import SyncForm.Text.Digit
import SyncForm.Text.Hex

/-!
# Reading JSON text

`readCodes` accepts the JSON grammar with three additions, the words `NaN`, `Infinity` and
`-Infinity`. White space is space, tab, line feed and carriage return; a leading byte order mark and
a raw control character in a text are refused. A name that occurs twice in an object keeps its first
place and its last value, and two escapes that spell a surrogate pair are one code point; a half of
a pair that stands in a text as itself is joined with nothing. A whole number of more than 4300
digits is refused with a reason of its own. Documents may be nested to any depth: that an
interpreter runs out of stack is left out.

What is read is a list of code points, and the marks are those of the written form.
-/

namespace SyncForm.Json

/-- Why a text is not read. -/
inductive Flaw where
  | malformed
  | tooManyDigits (count : Nat)
  deriving DecidableEq

/-- The most digits that a whole number may have. -/
def digitLimit : Nat := 4300

/-- The four code points that may stand between tokens: space, tab, line feed and carriage
return. -/
def isSpace (n : Nat) : Bool :=
  n == 0x20 || n == 0x9 || n == 0xA || n == 0xD

/-- Drops the white space in front of a token. -/
def skipSpace (cs : List Nat) : List Nat :=
  cs.dropWhile isSpace

/-- Four hexadecimal digits. -/
def readHex4 : List Nat → Option (Nat × List Nat)
  | a :: b :: c :: d :: rest => do
    let a ← Text.hexValue? (Char.ofNat a)
    let b ← Text.hexValue? (Char.ofNat b)
    let c ← Text.hexValue? (Char.ofNat c)
    let d ← Text.hexValue? (Char.ofNat d)
    some (((a * 16 + b) * 16 + c) * 16 + d, rest)
  | _ => none

/-- Whether a code is the first half of a surrogate pair. -/
def isHighSurrogate (n : Nat) : Bool := 0xD800 ≤ n && n ≤ 0xDBFF

/-- Whether a code is the second half of a surrogate pair. -/
def isLowSurrogate (n : Nat) : Bool := 0xDC00 ≤ n && n ≤ 0xDFFF

/-- The code point that a surrogate pair stands for. -/
def joinSurrogates (high low : Nat) : Nat :=
  0x10000 + (high - 0xD800) * 0x400 + (low - 0xDC00)

/-- The code point that an escape of one letter stands for: a quote, a backslash or a slash itself,
and the letters `b`, `f`, `n`, `r` and `t`. -/
def escaped? : Nat → Option Nat
  | 0x22 => some 0x22
  | 0x5C => some 0x5C
  | 0x2F => some 0x2F
  | 0x62 => some 0x8
  | 0x66 => some 0xC
  | 0x6E => some 0xA
  | 0x72 => some 0xD
  | 0x74 => some 0x9
  | _ => none

/-- One code point of a text, after a backslash and the letter that follows it. The first half of a
surrogate pair takes the second half with it when that follows at once as an escape, too; a
malformed escape behind it is refused here already. -/
def readEscape (letter : Nat) (cs : List Nat) : Option (Nat × List Nat) :=
  if letter = 0x75 then
    match readHex4 cs with
    | none => none
    | some (high, rest) =>
      match rest with
      | 0x5C :: 0x75 :: more =>
        if isHighSurrogate high then
          match readHex4 more with
          | none => none
          | some (low, after) =>
            if isLowSurrogate low then some (joinSurrogates high low, after) else some (high, rest)
        else some (high, rest)
      | _ => some (high, rest)
  else (escaped? letter).map fun code => (code, cs)

/-- The rest of a text behind its opening quote; `fuel` bounds the number of its code points. -/
def readText : Nat → List Nat → Option (List Nat × List Nat)
  | 0, _ => none
  | _, [] => none
  | _ + 1, 0x22 :: rest => some ([], rest)
  | fuel + 1, 0x5C :: letter :: rest =>
    match readEscape letter rest with
    | none => none
    | some (code, more) => (readText fuel more).map fun (text, after) => (code :: text, after)
  | fuel + 1, n :: rest =>
    if n < 0x20 || n == 0x5C then none
    else (readText fuel rest).map fun (text, after) => (n :: text, after)

/-- Whether a code point is an ASCII digit. -/
def isDigit (n : Nat) : Bool := 0x30 ≤ n && n ≤ 0x39

/-- A run of digits: at least one, then the rest. -/
def readDigits (cs : List Nat) : Option (List Char × List Nat) :=
  match cs.takeWhile isDigit with
  | [] => none
  | digits => some (digits.map Char.ofNat, cs.dropWhile isDigit)

/-- The fraction of a number, if digits follow its point. -/
def readFraction (cs : List Nat) : List Char × List Nat :=
  match cs with
  | 0x2E :: rest => (readDigits rest).getD ([], cs)
  | _ => ([], cs)

/-- The exponent of a number, if digits follow its letter, of either case, and its sign. -/
def readExponent (cs : List Nat) : Option Int × List Nat :=
  match cs with
  | n :: rest =>
    if n == 0x65 || n == 0x45 then
      let (negative, digits) :=
        match rest with
        | 0x2D :: more => (true, more)
        | 0x2B :: more => (false, more)
        | more => (false, more)
      match readDigits digits with
      | some (ds, after) =>
        let size : Int := Text.ofDigits ds
        (some (if negative then -size else size), after)
      | none => (none, cs)
    else (none, cs)
  | [] => (none, cs)

/-- A number, its sign already taken. A whole part of several digits starts with none that is zero;
a fraction or an exponent makes the number a floating-point one. -/
def readNumber (negative : Bool) (cs : List Nat) : Except Flaw (Document × List Nat) :=
  let whole :=
    match cs with
    | 0x30 :: rest => some (['0'], rest)
    | _ => readDigits cs
  match whole with
  | none => .error .malformed
  | some (digits, rest) =>
    let (fraction, rest) := readFraction rest
    let (exponent, rest) := readExponent rest
    if fraction.isEmpty && exponent.isNone then
      if digitLimit < digits.length then .error (.tooManyDigits digits.length)
      else
        let size : Int := Text.ofDigits digits
        .ok (.int (if negative then -size else size), rest)
    else
      let power := exponent.getD 0 - fraction.length
      .ok (.float (Binary64.ofDecimal negative (Text.ofDigits (digits ++ fraction)) power), rest)

/-- Takes a word off the front of a text. -/
def dropWord : List Nat → List Nat → Option (List Nat)
  | [], cs => some cs
  | w :: word, c :: cs => if w == c then dropWord word cs else none
  | _ :: _, [] => none

/-- The words that stand for documents. -/
def words : List (List Nat × Document) := [
  (codesOf "null", .null), (codesOf "true", .bool true), (codesOf "false", .bool false),
  (codesOf "NaN", .float .nan), (codesOf "Infinity", .float (.infinity false)),
  (codesOf "-Infinity", .float (.infinity true))]

/-- The document that a word at the front of a text stands for. -/
def readWord (cs : List Nat) : Option (Document × List Nat) :=
  words.findSome? fun (word, d) => (dropWord word cs).map fun rest => (d, rest)

mutual

/-- A document at the front of a text without leading white space; `fuel` bounds the depth and the
number of items. -/
def readValue : Nat → List Nat → Except Flaw (Document × List Nat)
  | 0, _ => .error .malformed
  | fuel + 1, cs =>
    match cs with
    | 0x22 :: rest =>
      match readText (rest.length + 1) rest with
      | some (text, after) => .ok (.text text, after)
      | none => .error .malformed
    | 0x5B :: rest =>
      match skipSpace rest with
      | 0x5D :: after => .ok (.array [], after)
      | more => (readItems fuel more).map fun (items, after) => (.array items, after)
    | 0x7B :: rest =>
      match skipSpace rest with
      | 0x7D :: after => .ok (.object [], after)
      | more => (readMembers fuel [] more).map fun (members, after) => (.object members, after)
    | _ =>
      match readWord cs with
      | some found => .ok found
      | none =>
        match cs with
        | 0x2D :: rest => readNumber true rest
        | _ => readNumber false cs

/-- The items of an array up to its closing bracket. -/
def readItems : Nat → List Nat → Except Flaw (List Document × List Nat)
  | 0, _ => .error .malformed
  | fuel + 1, cs =>
    match readValue fuel cs with
    | .error flaw => .error flaw
    | .ok (item, rest) =>
      match skipSpace rest with
      | 0x5D :: after => .ok ([item], after)
      | 0x2C :: more =>
        (readItems fuel (skipSpace more)).map fun (items, after) => (item :: items, after)
      | _ => .error .malformed

/-- The members of an object up to its closing brace, written to those read before. -/
def readMembers : Nat → List (List Nat × Document) → List Nat →
    Except Flaw (List (List Nat × Document) × List Nat)
  | 0, _, _ => .error .malformed
  | fuel + 1, members, cs =>
    match cs with
    | 0x22 :: rest =>
      match readText (rest.length + 1) rest with
      | none => .error .malformed
      | some (name, rest) =>
        match skipSpace rest with
        | 0x3A :: rest =>
          match readValue fuel (skipSpace rest) with
          | .error flaw => .error flaw
          | .ok (value, rest) =>
            match skipSpace rest with
            | 0x7D :: after => .ok (putMember members name value, after)
            | 0x2C :: more => readMembers fuel (putMember members name value) (skipSpace more)
            | _ => .error .malformed
        | _ => .error .malformed
    | _ => .error .malformed

end

/-- The document that a list of code points spells. -/
def readCodes (cs : List Nat) : Except Flaw Document :=
  match readValue (cs.length + 1) (skipSpace cs) with
  | .error flaw => .error flaw
  | .ok (document, rest) => if (skipSpace rest).isEmpty then .ok document else .error .malformed

/-- The document that a text of characters spells. -/
def read (cs : List Char) : Except Flaw Document :=
  readCodes (codes cs)

end SyncForm.Json
