namespace ClusterFence.CommandLine

/-- Asks for a text instead of work. -/
inductive Flag where
  | help
  | version
deriving DecidableEq, Repr, Inhabited

/-- An option that takes a value, and the values that it takes. -/
structure ValueOption where
  name : String
  letter : Option Char := none
  accepts : String → Bool := fun _ => true

/-- What may be given at one level of the command line. An option has a name after two dashes or a
    letter after one, and its value in the same argument or in the next. A flag has no value, and
    ends the reading. -/
structure Level where
  options : List ValueOption := []
  flags : List Flag := [.help]

/-- The values of options by the options' names. -/
abbrev Values := List (String × String)

/-- What an argument is, before the arguments after it are looked at. -/
inductive Argument where
  | word
  | dashes
  | flag (f : Flag)
  | option (o : ValueOption) (value? : Option String)

/-- What ends a level: the arguments do, a flag, or the first word, with the arguments after it. -/
inductive Stop where
  | over
  | flag (f : Flag)
  | word (text : String) (rest : List String)
deriving DecidableEq, Repr, Inhabited

def Flag.name : Flag → String
  | .help => "help"
  | .version => "version"

def Flag.letter : Flag → Char
  | .help => 'h'
  | .version => 'V'

namespace Level

/-- An argument that starts with two dashes. A value follows the first equals sign. -/
def long? (level : Level) (cs : List Char) : Option Argument :=
  let name := String.ofList (cs.takeWhile (· != '='))
  let value? := match cs.dropWhile (· != '=') with
    | [] => none
    | _ :: value => some (String.ofList value)
  match level.options.find? (·.name == name), value? with
  | some o, value? => some (.option o value?)
  | none, none => (level.flags.find? (·.name == name)).map .flag
  | none, some _ => none

/-- An argument that starts with one dash. A value may follow straight or after an equals sign. -/
def short? (level : Level) (letter : Char) (cs : List Char) : Option Argument :=
  match level.options.find? (·.letter == some letter) with
  | some o =>
    some (.option o (match cs with
      | [] => none
      | '=' :: value => some (String.ofList value)
      | value => some (String.ofList value)))
  | none => (level.flags.find? (·.letter == letter)).map .flag

/-- What an argument is, if the level has a place for it. -/
def argument? (level : Level) (arg : String) : Option Argument :=
  match arg.toList with
  | ['-', '-'] => some .dashes
  | '-' :: '-' :: cs => level.long? cs
  | '-' :: letter :: cs => level.short? letter cs
  | _ => some .word

end Level

/-- Whether an argument can be the value of the option before it. -/
def isValue (arg : String) : Bool := arg == "-" || arg.toList.head? != some '-'

/-- Gives an option its value. It takes only one. -/
def Values.add? (values : Values) (o : ValueOption) (value : String) : Option Values :=
  if (values.lookup o.name).isSome || !o.accepts value then none
  else some (values ++ [(o.name, value)])

/-- The values that the arguments of a level give, and what ends it. Two dashes alone end the
    options. -/
def Level.read? (level : Level) (values : Values) : List String → Option (Values × Stop)
  | [] => some (values, .over)
  | arg :: rest =>
    match level.argument? arg, rest with
    | some .word, rest => some (values, .word arg rest)
    | some .dashes, [] => some (values, .over)
    | some (.flag f), _ => some (values, .flag f)
    | some (.option o (some value)), rest =>
      match values.add? o value with
      | some values => level.read? values rest
      | none => none
    | some (.option o none), value :: rest =>
      match if isValue value then values.add? o value else none with
      | some values => level.read? values rest
      | none => none
    | _, _ => none

end ClusterFence.CommandLine
