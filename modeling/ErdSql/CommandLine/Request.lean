import ErdSql.CommandLine.Suggestion

/-!
# Requests

What a command line asks for: a command with its settings and arguments, a help text, or the version.
Words that start with a dash are flags, wherever they stand; a flag takes its value from behind an equals
sign or from the next word. Two dashes alone end the flags.
-/

namespace ErdSql.CommandLine

/-- What is wrong with a command line. -/
inductive UsageError where
  | unknownCommand (word : String) (command : Command)
  | badFlag (word : String)
  | unknownFlag (name : String)
  | unknownLetter (letter : Char) (letters : String)
  | noValue (name : String)
  | noLetterValue (letter : Char) (letters : String)
  /-- A value that a flag does not accept. -/
  | badValue (flag value reason : String)
  | tooFew (least given : Nat)
  | wrongCount (wanted given : Nat)
  deriving DecidableEq, Inhabited

/-- The wording of an error. Only the program itself makes suggestions. -/
def UsageError.message : UsageError → String
  | unknownCommand word command =>
    "unknown command " ++ Text.quoted word ++ " for " ++ Text.quoted command.path ++
      (if command == .program then suggestionText word else "")
  | badFlag word => "bad flag syntax: " ++ word
  | unknownFlag name => "unknown flag: --" ++ name
  | unknownLetter letter letters =>
    "unknown shorthand flag: " ++ Text.quotedSingle letter ++ " in -" ++ letters
  | noValue name => "flag needs an argument: --" ++ name
  | noLetterValue letter letters =>
    "flag needs an argument: " ++ Text.quotedSingle letter ++ " in -" ++ letters
  | badValue flag value reason =>
    "invalid argument " ++ Text.quoted value ++ " for " ++ Text.quoted flag ++ " flag: " ++ reason
  | tooFew least given =>
    "requires at least " ++ toString least ++ " arg(s), only received " ++ toString given
  | wrongCount wanted given =>
    "accepts " ++ toString wanted ++ " arg(s), received " ++ toString given

/-- What a command line asks for. -/
inductive Request where
  | help (command : Command)
  | version
  | run (command : Command) (settings : Settings) (arguments : List String)
  deriving DecidableEq, Inhabited

/-! ## Looking for the command -/

/-- Whether the next word is the value of a word, as far as can be told before the command is known: a
flag without equals sign that is not known to be a switch. -/
def takesNext (flags : List Flag) (word : String) : Bool :=
  if Text.contains word '=' then false
  else
    let needsValue (known : Flag → Bool) : Bool :=
      ((flags.find? known).bind (·.implied)).isNone
    match word.toList with
    | '-' :: '-' :: name => needsValue fun f => f.name == String.ofList name
    | ['-', c] => c.toNat < 0x80 && needsValue fun f => f.letter == some c
    | _ => false

/-- Whether a word is a flag, or a dash. -/
def isDashed (word : String) : Bool := Text.startsWith "-" word

/-- The words that are neither flags nor values of flags. A flag that is followed by its value alone ends
the search. -/
def plainWords (flags : List Flag) : List String → List String
  | [] => []
  | word :: rest =>
    if word == "--" then []
    else if takesNext flags word then
      match rest with
      | _ :: next :: rest => plainWords flags (next :: rest)
      | _ => []
    else if word == "" || isDashed word then plainWords flags rest
    else word :: plainWords flags rest

/-- The words without the first one that names a command. -/
def withoutWord (flags : List Flag) (name : String) : List String → List String
  | [] => []
  | word :: rest =>
    if word == "--" then word :: rest
    else if takesNext flags word then
      match rest with
      | [] => [word]
      | value :: rest => word :: value :: withoutWord flags name rest
    else if word == name then rest
    else word :: withoutWord flags name rest

/-- The command below a command that the first plain word names, with the words that are left. -/
def descend (c : Command) (words : List String) : Command × List String :=
  match (plainWords c.flags words).head? with
  | none => (c, words)
  | some word =>
    match c.children.find? fun d => d.name == word with
    | none => (c, words)
    | some child => (child, withoutWord c.flags word words)

/-- The command that a command line names, with the words that are left. -/
def findCommand (words : List String) : Except UsageError (Command × List String) :=
  let (c, rest) := descend .program words
  let (c, rest) := descend c rest
  match c, plainWords c.flags rest with
  | .program, word :: _ => .error (.unknownCommand word .program)
  | _, _ => .ok (c, rest)

/-! ## Reading flags -/

/-- Sets a flag to a value. -/
def setFlag (f : Flag) (value : String) (s : Settings) : Except UsageError Settings :=
  (f.set value s).mapError fun reason => .badValue f.shown value reason

/-- Sets the flag of a name. The value stands behind the equals sign, is implied, or is the next word;
the result tells whether the next word was used. -/
def readName (flags : List Flag) (word : String) (next : Option String) (s : Settings) :
    Except UsageError (Bool × Settings) := do
  let text := String.ofList (word.toList.drop 2)
  if text == "" || isDashed text || Text.startsWith "=" text then throw (.badFlag word)
  let (name, value) := match Text.cut? '=' text with
    | some (name, value) => (name, some value)
    | none => (text, none)
  match flags.find? fun f => f.name == name with
  | none => throw (.unknownFlag name)
  | some f =>
    match value <|> f.implied, next with
    | some value, _ => return (false, ← setFlag f value s)
    | none, some value => return (true, ← setFlag f value s)
    | none, none => throw (.noValue name)

/-- The character with the number of the first byte of a character. -/
def leadChar (c : Char) : Char :=
  Char.ofNat (((String.utf8EncodeChar c).head?.map UInt8.toNat).getD 0)

/-- Sets the flags of letters. Switches may be followed by further letters; the value of another flag
is what follows its letter, or the next word. Letters that start with `test.` mean nothing. -/
def readLetters (flags : List Flag) (next : Option String) :
    List Char → Settings → Except UsageError (Bool × Settings)
  | [], s => .ok (false, s)
  | c :: rest, s =>
    if "test.".toList.isPrefixOf (c :: rest) then .ok (false, s)
    else match flags.find? fun f => f.letter == some c with
      | none => .error (.unknownLetter (leadChar c) (String.ofList (c :: rest)))
      | some f => do
        match rest, f.implied, next with
        | '=' :: v :: value, _, _ => return (false, ← setFlag f (String.ofList (v :: value)) s)
        | rest, some value, _ => readLetters flags next rest (← setFlag f value s)
        | v :: value, none, _ => return (false, ← setFlag f (String.ofList (v :: value)) s)
        | [], none, some value => return (true, ← setFlag f value s)
        | [], none, none => throw (.noLetterValue c (String.singleton c))

/-- Sets the flags of a word that starts with a dash. -/
def readFlag (flags : List Flag) (word : String) (next : Option String) (s : Settings) :
    Except UsageError (Bool × Settings) :=
  if Text.startsWith "--" word then readName flags word next s
  else readLetters flags next (word.toList.drop 1) s

/-- Reads all words: the settings and the arguments. -/
def readWords (flags : List Flag) :
    List String → Settings → Except UsageError (Settings × List String)
  | [], s => .ok (s, [])
  | word :: rest, s =>
    if word == "-" || !isDashed word then do
      let (s, arguments) ← readWords flags rest s
      return (s, word :: arguments)
    else if word == "--" then .ok (s, rest)
    else do
      let (usedNext, s) ← readFlag flags word rest.head? s
      match usedNext, rest with
      | true, _ :: rest => readWords flags rest s
      | _, rest => readWords flags rest s

/-- What is wrong with the number of arguments. -/
def arityError? (c : Command) (arguments : List String) : Option UsageError :=
  match c.arity, arguments with
  | .none, word :: _ => some (.unknownCommand word c)
  | .atLeast n, _ => if arguments.length < n then some (.tooFew n arguments.length) else none
  | .exactly n, _ => if arguments.length != n then some (.wrongCount n arguments.length) else none
  | _, _ => none

/-- What a command line asks for. Help comes before the version, and both before the arguments are
counted. -/
def Request.ofWords (words : List String) : Except UsageError Request := do
  let (c, rest) ← findCommand words
  let (settings, arguments) ← readWords (c.flags ++ c.builtinFlags) rest {}
  if settings.help then return .help c
  if settings.version then return .version
  if !c.isRunnable then return .help c
  match arityError? c arguments with
  | some e => throw e
  | none => return .run c settings arguments

end ErdSql.CommandLine
