/-!
# The command line

    apply STYLE [-d DATE] [-o PATH] [-c PATH]
    range DATE [-c PATH]

Options may be spelled `--date DATE`, `--date=DATE`, `-d DATE`, `-dDATE` and `-d=DATE`, and stand on
either side of the operand.  After `--` everything is an operand.
-/

namespace Chronomap

/-- Whether a character has the Unicode property White_Space. -/
def isBlankChar (c : Char) : Bool :=
  let n := c.toNat
  (9 ≤ n && n ≤ 13) || n == 0x20 || n == 0x85 || n == 0xA0 || n == 0x1680 ||
    (0x2000 ≤ n && n ≤ 0x200A) || n == 0x2028 || n == 0x2029 || n == 0x202F || n == 0x205F ||
    n == 0x3000

def isBlankText (s : String) : Bool := s.toList.all isBlankChar

inductive Command where
  /-- Guard the layers of a style by a date, by default today's. -/
  | apply (style : String) (date output config : Option String)
  /-- Show the period that a date stands for. -/
  | range (date : String) (config : Option String)
deriving DecidableEq

namespace Command

/-! ## Options -/

/-- An option; every one takes a value. -/
inductive Flag where
  | date
  | output
  | config
deriving DecidableEq

/-- What a command accepts. -/
structure Grammar where
  flags : List Flag
  /-- Whether the operand may begin with a hyphen. -/
  hyphenOperand : Bool

def Flag.long : Flag → List Char
  | date => "date".toList
  | output => "output".toList
  | config => "config".toList

def Flag.short : Flag → Char
  | date => 'd'
  | output => 'o'
  | config => 'c'

/-- What an argument is, by itself. -/
inductive Argument where
  | operand
  /-- From here on every argument is an operand. -/
  | escape
  /-- An option and the value attached to it. -/
  | option (flag : Flag) (attached : Option String)
  | unknown
deriving DecidableEq

/-- The value attached to a short option, of which one sign of equality is left out. -/
def attachedValue : List Char → Option String
  | [] => none
  | '=' :: cs => some (String.ofList cs)
  | cs => some (String.ofList cs)

/-- A long option without its two hyphens.  An unknown one is an operand if `mayBeOperand`, but
the request for help is not. -/
def longOption (g : Grammar) (mayBeOperand : Bool) (cs : List Char) : Argument :=
  let name := cs.takeWhile (· != '=')
  match g.flags.find? (·.long == name) with
  | some flag =>
    .option flag <|
      match cs.dropWhile (· != '=') with
      | [] => none
      | _ :: value => some (String.ofList value)
  | none => if mayBeOperand ∧ name ≠ "help".toList then .operand else .unknown

/-- Whether a character is the short name of an option or of the request for help. -/
def isShortName (g : Grammar) (c : Char) : Bool := c == 'h' || g.flags.any (·.short == c)

/-- A short option without its hyphen.  If `mayBeOperand`, it is an operand unless all of its
characters are short names. -/
def shortOption (g : Grammar) (mayBeOperand : Bool) (c : Char) (cs : List Char) : Argument :=
  if mayBeOperand && !(c :: cs).all (isShortName g) then .operand
  else
    match g.flags.find? (·.short == c) with
    | some flag => .option flag (attachedValue cs)
    | none => .unknown

/-- What an argument is; `isOpen` says whether the operand is still to come. -/
def Argument.of (g : Grammar) (isOpen : Bool) (arg : String) : Argument :=
  match arg.toList with
  | ['-', '-'] => .escape
  | '-' :: '-' :: cs => longOption g (g.hyphenOperand && isOpen) cs
  | '-' :: c :: cs => shortOption g (g.hyphenOperand && isOpen) c cs
  | _ => .operand

/-! ## Reading -/

structure Given where
  operand : Option String := none
  values : List (Flag × String) := []

def Given.value? (given : Given) (flag : Flag) : Option String := given.values.lookup flag

/-- Takes the operand; there is only one. -/
def Given.addOperand? (given : Given) (arg : String) : Option Given :=
  if given.operand.isSome then none else some { given with operand := some arg }

/-- Takes an option, which may be given once. -/
def Given.addValue? (given : Given) (flag : Flag) (value : String) : Option Given :=
  if (given.value? flag).isSome then none
  else some { given with values := (flag, value) :: given.values }

/-- Whether an argument may be the value of the option before it: that of a date may be any, and
others must be able to be operands. -/
def mayBeValue (g : Grammar) (isOpen : Bool) (flag : Flag) (arg : String) : Bool :=
  flag == .date || Argument.of g isOpen arg == .operand

/-- Reads arguments from left to right; `escaped` says whether all are operands. -/
def readArguments? (g : Grammar) : (escaped : Bool) → Given → List String → Option Given
  | _, given, [] => some given
  | true, given, arg :: args =>
    (given.addOperand? arg).bind fun given => readArguments? g true given args
  | false, given, arg :: args =>
    match Argument.of g given.operand.isNone arg with
    | .escape => readArguments? g true given args
    | .operand => (given.addOperand? arg).bind fun given => readArguments? g false given args
    | .option flag (some value) =>
      (given.addValue? flag value).bind fun given => readArguments? g false given args
    | .option flag none =>
      match args with
      | [] => none
      | value :: args =>
        if mayBeValue g given.operand.isNone flag value then
          (given.addValue? flag value).bind fun given => readArguments? g false given args
        else none
    | .unknown => none

/-! ## Commands -/

/-- A path that is given must not be empty. -/
def Given.pathOk (given : Given) (flag : Flag) : Bool := given.value? flag != some ""

/-- A date that is given must not be blank. -/
def Given.dateOk (given : Given) : Bool := !(given.value? .date).any isBlankText

def parse? : List String → Option Command
  | "apply" :: args =>
    (readArguments? ⟨[.date, .output, .config], false⟩ false {} args).bind fun given =>
      given.operand.bind fun style =>
        if !isBlankText style && given.dateOk && given.pathOk .output && given.pathOk .config then
          some (apply style (given.value? .date) (given.value? .output) (given.value? .config))
        else none
  | "range" :: args =>
    (readArguments? ⟨[.config], true⟩ false {} args).bind fun given =>
      given.operand.bind fun date =>
        if given.pathOk .config then some (range date (given.value? .config)) else none
  | _ => none

end Command

end Chronomap
