import SyncForm.Assoc
import SyncForm.Text.Digit

/-!
# Options on a command line

A `Grammar` lists the options of a command. `Grammar.tokens` tells options from words: an option
starts with a dash, may carry its argument behind an equals sign, and a long one may be cut short as
long as only one option begins that way; short options without an argument may be joined. A negative
number is a word, and behind a double dash everything is. `Grammar.scan` then goes through the
tokens from left to right.
-/

namespace SyncForm.CommandLine

/-- Why reading a command line stops: help is asked for, or it is not understood. -/
inductive Halt where
  | help
  | refused
  deriving DecidableEq

/-- What an option does: it asks for help, sets a mark or stores its argument. -/
inductive Effect where
  | help
  | mark (name : String)
  | store (name : String)
  deriving DecidableEq

/-- Whether an option takes an argument. -/
def Effect.takesArgument : Effect → Bool
  | store _ => true
  | _ => false

/-- The options of a command by their spellings, and how many words belong to it. The first word of
a command with subcommands names one of them and leaves it the rest. -/
structure Grammar where
  options : List (String × Effect)
  words : Nat
  subcommands : Bool := false

/-- What an argument is. An option may have something attached to it, with or without an equals sign
between them. -/
inductive Token where
  | word
  | dashes
  | option (spelling : String) (effect : Effect) (equals : Bool) (attached : Option String)
  | unknown

/-- What was read so far. -/
structure Reading where
  stored : Assoc String := []
  words : List String := []
  strays : List String := []
  rest : List String := []

/-- What an option token comes to: effects, each with its argument if that is attached, and the end
of joined short options from the first unknown one on. -/
structure Unfolded where
  effects : List (Effect × Option String)
  stray : Option String := none

/-- Puts an effect before those of the options joined to it. -/
def Unfolded.cons (effect : Effect) (u : Unfolded) : Unfolded :=
  { u with effects := (effect, none) :: u.effects }

/-- A text cut at its first equals sign. -/
def cutEquals (text : String) : String × Option String :=
  let cs := text.toList
  match cs.dropWhile (· != '=') with
  | [] => (text, none)
  | _ :: rest => (String.ofList (cs.takeWhile (· != '=')), some (String.ofList rest))

/-- Whether a text is a negative number. -/
def isNegativeNumber (text : String) : Bool :=
  let digits (cs : List Char) := cs.all fun c => (Text.digitValue? c).isSome
  match text.toList with
  | '-' :: rest =>
    let whole := rest.takeWhile (· != '.')
    match rest.dropWhile (· != '.') with
    | [] => !rest.isEmpty && digits rest
    | _ :: fraction => digits whole && !fraction.isEmpty && digits fraction
  | _ => false

namespace Grammar

/-- The effect of a spelling. -/
def effect? (g : Grammar) (spelling : String) : Option Effect :=
  Assoc.valueOf? g.options spelling

/-- The options that a text may mean: those that begin with it, or a short one with the rest of the
text as its argument. -/
def candidates (g : Grammar) (text : String) : List Token :=
  let begun (start : String) (attached : Option String) :=
    (g.options.filter fun (spelling, _) => start.toList.isPrefixOf spelling.toList).map
      fun (spelling, effect) => Token.option spelling effect attached.isSome attached
  match text.toList with
  | '-' :: '-' :: _ =>
    let (start, attached) := cutEquals text
    begun start attached
  | a :: b :: rest =>
    let short := String.ofList [a, b]
    let joined :=
      match g.effect? short with
      | some effect => [Token.option short effect false (some (String.ofList rest))]
      | none => []
    joined ++ begun text none
  | _ => []

/-- The token of an argument. -/
def token (g : Grammar) (text : String) : Except Halt Token :=
  match text.toList with
  | '-' :: _ :: _ =>
    match g.effect? text with
    | some effect => .ok (.option text effect false none)
    | none =>
      let (spelling, attached) := cutEquals text
      match attached.bind fun _ => g.effect? spelling with
      | some effect => .ok (.option spelling effect true attached)
      | none =>
        match g.candidates text with
        | [token] => .ok token
        | _ :: _ => .error .refused
        | [] => .ok (if isNegativeNumber text || text.contains ' ' then .word else .unknown)
  | _ => .ok .word

/-- The tokens of a command line, each with the argument it was made of. -/
def tokens (g : Grammar) : List String → Except Halt (List (String × Token))
  | [] => .ok []
  | "--" :: rest => .ok (("--", .dashes) :: rest.map fun text => (text, .word))
  | text :: rest => do
    let token ← g.token text
    return (text, token) :: (← g.tokens rest)

/-- The effects of a short option with what is attached to it: an argument, or more options. An
argument set off by an equals sign is refused by an option that takes none. -/
def unfold (g : Grammar) (effect : Effect) (equals : Bool) (attached : List Char) :
    Except Halt Unfolded :=
  if effect.takesArgument then .ok { effects := [(effect, some (String.ofList attached))] }
  else
    match attached with
    | [] => .error .refused
    | [c] =>
      if equals || c == '-' then .error .refused
      else
        match g.effect? (String.ofList ['-', c]) with
        | none => .ok { effects := [(effect, none)], stray := some (String.ofList ['-', c]) }
        | some next => .ok { effects := [(effect, none), (next, none)] }
    | c :: d :: more =>
      if equals || c == '-' then .error .refused
      else
        match g.effect? (String.ofList ['-', c]) with
        | none =>
          .ok { effects := [(effect, none)], stray := some (String.ofList ('-' :: c :: d :: more)) }
        | some next =>
          (if d == '=' then g.unfold next true more else g.unfold next false (d :: more)).map
            (Unfolded.cons effect)

/-- What an option token comes to. -/
def unfoldToken (g : Grammar) (spelling : String) (effect : Effect) (equals : Bool)
    (attached : Option String) : Except Halt Unfolded :=
  match attached, effect with
  | none, _ => .ok { effects := [(effect, none)] }
  | some text, .store _ => .ok { effects := [(effect, some text)] }
  | some text, _ =>
    if spelling.toList.take 2 == ['-', '-'] then .error .refused
    else g.unfold effect equals text.toList

/-- Runs the effects of an option. The last one may take the next argument, if that is a word. -/
def run (r : Reading) (rest : List (String × Token)) :
    List (Effect × Option String) → Except Halt (Reading × List (String × Token))
  | [] => .ok (r, rest)
  | (.help, _) :: _ => .error .help
  | (.mark name, _) :: more => run { r with stored := Assoc.put r.stored name "" } rest more
  | (.store name, some text) :: more =>
    run { r with stored := Assoc.put r.stored name text } rest more
  | (.store name, none) :: more =>
    match rest with
    | (text, .word) :: rest => run { r with stored := Assoc.put r.stored name text } rest more
    | _ => .error .refused

/-- Whether an effect lacks its argument. The argument must be there before any effect is run. -/
def lacksArgument (effects : List (Effect × Option String)) (rest : List (String × Token)) : Bool :=
  let needed := effects.any fun e =>
    match e with
    | (.store _, none) => true
    | _ => false
  let there :=
    match rest with
    | (_, .word) :: _ => true
    | _ => false
  needed && !there

/-- Drops a double dash, which may directly follow a word that belongs to the command. -/
def skipDashes : List (String × Token) → List (String × Token)
  | (_, .dashes) :: rest => rest
  | tokens => tokens

/-- Goes through tokens; `fuel` bounds their number. -/
def scanFrom (g : Grammar) : Nat → List (String × Token) → Reading → Except Halt Reading
  | 0, _, r => .ok r
  | _, [], r => .ok r
  | fuel + 1, (text, token) :: rest, r =>
    match token with
    | .option spelling effect equals attached => do
      let unfolded ← g.unfoldToken spelling effect equals attached
      if lacksArgument unfolded.effects rest then throw .refused
      let r := { r with strays := r.strays ++ unfolded.stray.toList }
      let (r, rest) ← run r rest unfolded.effects
      g.scanFrom fuel rest r
    | .unknown => g.scanFrom fuel rest { r with strays := r.strays ++ [text] }
    | .dashes =>
      if g.subcommands then
        if rest.isEmpty then .ok { r with strays := r.strays ++ [text] } else .error .refused
      else if r.words.length < g.words then g.scanFrom fuel rest r
      else g.scanFrom fuel rest { r with strays := r.strays ++ [text] }
    | .word =>
      if g.subcommands then
        .ok { r with words := [text], rest := rest.map (·.1) }
      else if r.words.length < g.words then
        g.scanFrom fuel (skipDashes rest) { r with words := r.words ++ [text] }
      else g.scanFrom fuel rest { r with strays := r.strays ++ [text] }

/-- Reads a command line. -/
def scan (g : Grammar) (arguments : List String) : Except Halt Reading := do
  let tokens ← g.tokens arguments
  g.scanFrom tokens.length tokens {}

end Grammar

end SyncForm.CommandLine
