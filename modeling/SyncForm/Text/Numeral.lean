import SyncForm.Json.Reader
import SyncForm.Text.Blank
import SyncForm.Text.Digit

/-!
# Numerals in free text

A whole number in free text may have blanks around it, a sign, single underscores between its digits
and digits of any script. A number with a fraction or an exponent, or one of the words for the
infinities and for `nan`, is read in two manners: `readReal` admits the same liberties,
`readPlainReal` ASCII digits only.
-/

namespace SyncForm.Text

/-- A digit of any script as an ASCII digit; other characters stay. -/
def plainDigit (c : Char) : Char :=
  match digitValue? c with
  | some n => Char.ofNat ('0'.toNat + n)
  | none => c

/-- A sign at the front of a text: whether it is a minus, and the rest. -/
def takeSign : List Char → Bool × List Char
  | '-' :: rest => (true, rest)
  | '+' :: rest => (false, rest)
  | rest => (false, rest)

/-- Whether every underscore of a text stands between two digits. -/
def underscoresSeparate : List Char → Bool
  | [] => true
  | '_' :: _ => false
  | c :: '_' :: d :: rest => c.isDigit && d.isDigit && underscoresSeparate (d :: rest)
  | [_, '_'] => false
  | _ :: rest => underscoresSeparate rest

/-- What a text says about a whole number. -/
inductive Whole where
  | value (i : Int)
  | invalid
  | tooLong (digits : Nat)

/-- The whole number that a text spells. The length of its run of digits is judged before what
follows the run. -/
def readWhole (s : String) : Whole :=
  let cs := (s.toList.dropWhile isMargin).map plainDigit
  let (negative, cs) := takeSign cs
  let run := cs.takeWhile fun c => c.isDigit || c == '_'
  let rest := cs.dropWhile fun c => c.isDigit || c == '_'
  let digits := run.filter Char.isDigit
  if digits.isEmpty || !underscoresSeparate run then .invalid
  else if Json.digitLimit < digits.length then .tooLong digits.length
  else if !rest.all isMargin then .invalid
  else
    let size : Int := ofDigits digits
    .value (if negative then -size else size)

/-- A number with an optional fraction, at least one digit around its point, and an optional
exponent. -/
def readUnsigned (negative : Bool) (cs : List Char) : Option Binary64 :=
  let whole := cs.takeWhile Char.isDigit
  let rest := cs.dropWhile Char.isDigit
  let (fraction, rest) :=
    match rest with
    | '.' :: more => (more.takeWhile Char.isDigit, more.dropWhile Char.isDigit)
    | _ => ([], rest)
  let (exponent, rest) := Json.readExponent (Json.codes rest)
  if (whole.isEmpty && fraction.isEmpty) || !rest.isEmpty then none
  else
    some (Binary64.ofDecimal negative (ofDigits (whole ++ fraction))
      (exponent.getD 0 - fraction.length))

/-- A number or one of the words `inf`, `infinity` and `nan`, in any case, with an optional sign. -/
def readSigned (cs : List Char) : Option Binary64 :=
  let (negative, body) := takeSign cs
  let word := String.ofList (body.map Char.toLower)
  if word = "inf" || word = "infinity" then some (.infinity negative)
  else if word = "nan" then some .nan
  else readUnsigned negative body

/-- A number in free text: blanks around it, digits of any script, underscores between digits. -/
def readReal (s : String) : Option Binary64 :=
  let cs := (trim isMargin s.toList).map plainDigit
  if underscoresSeparate cs then readSigned (cs.filter (· != '_')) else none

/-- Whether an underscore stands first, last or beside another one. -/
def underscoresStray (cs : List Char) : Bool :=
  cs.head? == some '_' || cs.getLast? == some '_' || (cs.zip cs.tail).contains ('_', '_')

/-- A number in ASCII digits with blanks around it; where that fails, underscores are dropped. -/
def readPlainReal (s : String) : Option Binary64 :=
  let cs := s.toList
  match readSigned (trim isMargin cs) with
  | some x => some x
  | none =>
    if underscoresStray cs then none
    else readSigned (trim isMargin (cs.filter (· != '_')))

end SyncForm.Text
