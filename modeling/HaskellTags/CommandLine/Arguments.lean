import HaskellTags.CommandLine.Word
import HaskellTags.Text.Quoted

/-!
# Arguments of the command line

Words are read from left to right.  The first run of arguments gives the paths,
an option that takes a value takes the argument after it, and what is left over
is an error at the end.
-/

namespace HaskellTags
namespace CommandLine

/-- The value of an option.  The divider in its place is struck out, and then
nothing is left of it. -/
inductive Argument
  | text (s : String)
  | struck
  deriving DecidableEq, Repr

/-- What a command line says. -/
structure Arguments where
  paths : List String := []
  output : Argument := .text "tags"
  format : Option Format := none
  noSort : Bool := false
  noHeader : Bool := false
  config : Option Argument := none
  strict : Bool := false
  /-- The level of the log, unless it is struck out. -/
  logLevel : Option Log.Level := some .warning
  deriving DecidableEq, Repr

/-- What is wrong with a command line. -/
inductive Mistake
  | ambiguous (word : Ambiguity)
  | missingValue (o : Opt)
  | idleValue (o : Opt) (attached : String)
  | invalidValue (o : Opt) (value : String)
  | missingPaths
  | unrecognized (words : List String)
  deriving DecidableEq, Repr

/-- The wording of a mistake about an option. -/
def aboutOption (o : Opt) (message : String) : String :=
  "argument " ++ o.title ++ ": " ++ message

/-- The wording of a mistake. -/
def Mistake.message : Mistake → String
  | .ambiguous word =>
    "ambiguous option: " ++ word.text ++ " could match " ++ ", ".intercalate word.spellings
  | .missingValue o => aboutOption o "expected one argument"
  | .idleValue o attached =>
    aboutOption o ("ignored explicit argument " ++ Text.quoted attached)
  | .invalidValue o value =>
    aboutOption o ("invalid choice: " ++ Text.quoted value ++ " (choose from " ++
      ", ".intercalate ((o.values.getD []).map Text.quoted) ++ ")")
  | .missingPaths => "the following arguments are required: paths"
  | .unrecognized words => "unrecognized arguments: " ++ " ".intercalate words

/-- Why the reading of a command line ends early. -/
inductive Stop
  | help
  | mistake (m : Mistake)
  deriving DecidableEq, Repr

/-- What has been read of a command line. -/
structure Progress where
  arguments : Arguments := {}
  /-- Whether the paths are known. -/
  hasPaths : Bool := false
  /-- The words that nothing takes. -/
  left : List String := []

namespace Progress

/-- A run of arguments: the paths, if they are not known yet. -/
def take (run : List Word) (p : Progress) : Progress :=
  let texts := run.map Word.text
  if !p.hasPaths && run.any fun w => w ≠ .divider then
    { p with
      arguments := { p.arguments with paths := texts.erase dividerText }
      hasPaths := true }
  else { p with left := p.left ++ texts }

/-- An option without a value. -/
def switch (o : Opt) (p : Progress) : Except Stop Progress :=
  let a := p.arguments
  match o with
  | .help => .error .help
  | .noSort => .ok { p with arguments := { a with noSort := true } }
  | .noHeader => .ok { p with arguments := { a with noHeader := true } }
  | .strict => .ok { p with arguments := { a with strict := true } }
  | _ => .error (.mistake (.missingValue o))

/-- The value that a text is. -/
def valueOf (o : Opt) (text : String) : Except Stop Argument :=
  if text = dividerText then .ok .struck
  else
    match o.values with
    | none => .ok (.text text)
    | some accepted =>
      if accepted.contains text then .ok (.text text)
      else .error (.mistake (.invalidValue o text))

/-- An option with a value. -/
def set (o : Opt) (text : String) (p : Progress) : Except Stop Progress := do
  let value ← valueOf o text
  let a := p.arguments
  let a := match o, value with
    | .output, v => { a with output := v }
    | .config, v => { a with config := some v }
    | .format, .text s => { a with format := Format.ofName? s }
    | .format, .struck => { a with format := some .unnamed }
    | .logLevel, .text s => { a with logLevel := Log.Level.ofName? s }
    | .logLevel, .struck => { a with logLevel := none }
    | _, _ => a
  return { p with arguments := a }

end Progress

/-- A written option: the switches before it in the same word, and what is
attached to it. -/
structure Cluster where
  switches : List Opt
  last : Opt
  attached : Option String

/-- The options of a word with something attached: a short one without a value
is followed by more letters. -/
def clusterOf : Opt → (isShort : Bool) → List Char → Except Mistake Cluster
  | o, isShort, attached =>
    if o.takesValue then .ok ⟨[], o, some (String.ofList attached)⟩
    else
      match attached with
      | [] => .error (.idleValue o "")
      | letter :: rest =>
        match isShort, Opt.ofSpelling? (String.ofList ['-', letter]), rest with
        | true, some next, [] => .ok ⟨[o], next, none⟩
        | true, some next, _ :: _ => do
          let cluster ← clusterOf next true rest
          return { cluster with switches := o :: cluster.switches }
        | _, _, _ => .error (.idleValue o (String.ofList attached))

/-- The options of a word. -/
def cluster (o : Opt) (isShort : Bool) : Option (List Char) → Except Mistake Cluster
  | none => .ok ⟨[], o, none⟩
  | some attached => clusterOf o isShort attached

/-- What is read of the words after what was read before. -/
def readWords (p : Progress) : List Word → Except Stop Progress
  | [] => .ok p
  | .unknown text :: rest => readWords { p with left := p.left ++ [text] } rest
  | .option o isShort attached :: rest => do
    let c ← (cluster o isShort attached).mapError Stop.mistake
    let switched := c.switches.foldlM (fun p o => p.switch o) p
    match c.attached, c.last.takesValue with
    | some text, _ => readWords (← (← switched).set c.last text) rest
    | none, false => readWords (← (← switched).switch c.last) rest
    | none, true =>
      match rest with
      | .argument text :: rest => readWords (← (← switched).set c.last text) rest
      | _ => .error (.mistake (.missingValue c.last))
  | word :: rest =>
    have : (rest.dropWhile Word.isArgument).length ≤ rest.length :=
      (List.dropWhile_sublist Word.isArgument).length_le
    readWords (p.take (word :: rest.takeWhile Word.isArgument)) (rest.dropWhile Word.isArgument)
termination_by words => words.length
decreasing_by all_goals simp only [List.length_cons]; omega

/-- What a command line says. -/
def parse (texts : List String) : Except Stop Arguments := do
  let words ← (Word.ofTexts texts).mapError fun word => .mistake (.ambiguous word)
  let p ← readWords {} words
  if !p.hasPaths then .error (.mistake .missingPaths)
  else if !p.left.isEmpty then .error (.mistake (.unrecognized p.left))
  else .ok p.arguments

end CommandLine
end HaskellTags
