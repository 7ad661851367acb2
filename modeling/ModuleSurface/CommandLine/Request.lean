import ModuleSurface.CommandLine.Argument

/-! # What an argument list asks for

Arguments are taken from left to right. The first word that is no option is the graph; options may
stand on both sides of it, and behind two dashes nothing is an option. The help and the version are
asked for as soon as their option is met, so what stands behind it does not matter unless it cannot
be told what it is. -/

namespace ModuleSurface

/-- **The settings of one conversion.** -/
structure Settings where
  /-- The path of the graph. -/
  graph : String := ""
  /-- The dialect to write; two dashes as its name leave none. -/
  dialect? : Option Dialect := some .typescript
  /-- The path to write to; the empty one stands for the standard output. -/
  output : String := ""
  is64Bit : Bool := false
  verbose : Bool := false
deriving DecidableEq, Repr

/-- **What is asked for.** -/
inductive Request
  | help
  | version
  | convert (settings : Settings)
deriving DecidableEq, Repr

/-- **What has been taken from the arguments** so far. -/
structure Intake where
  settings : Settings := {}
  graph? : Option String := none
  /-- Whether the last argument was the graph. -/
  atGraph : Bool := false
  /-- The arguments that mean nothing. -/
  extras : List String := []

/-- Why taking arguments stops: they are not accepted, or the rest does not matter. -/
inductive Stop
  | fault (cause : UsageError)
  | answer (request : Request)

/-- Stops at arguments that are not accepted. -/
def Stop.at {α : Type} (cause : UsageError) : Except Stop α := .error (.fault cause)

namespace Intake

/-- A word that is no option: the graph, or one too many. -/
def takeOperand (intake : Intake) (text : String) : Intake :=
  match intake.graph? with
  | none => { intake with graph? := some text, atGraph := true }
  | some _ => { intake with extras := intake.extras ++ [text], atGraph := false }

/-- The first operand names the graph. -/
@[simp] theorem takeOperand_of_none {intake : Intake} (h : intake.graph? = none) (text : String) :
    intake.takeOperand text = { intake with graph? := some text, atGraph := true } := by
  simp [takeOperand, h]

/-- Every operand behind the first one goes to `extras`. -/
@[simp] theorem takeOperand_of_some {intake : Intake} {graph : String}
    (h : intake.graph? = some graph) (text : String) :
    intake.takeOperand text =
      { intake with extras := intake.extras ++ [text], atGraph := false } := by
  simp [takeOperand, h]

/-- An option without a value. -/
def takePlain (intake : Intake) (switch : Switch) : Except Stop Intake :=
  let { settings, .. } := intake
  let intake := { intake with atGraph := false }
  match switch with
  | .help => .error (.answer .help)
  | .version => .error (.answer .version)
  | .wide => .ok { intake with settings := { settings with is64Bit := true } }
  | .verbose => .ok { intake with settings := { settings with verbose := true } }
  | .format | .output => .ok intake

/-- An option with its value. Two dashes are no value: they leave no dialect and no path. -/
def takeValued (intake : Intake) (switch : Switch) (value : String) : Except Stop Intake :=
  let { settings, .. } := intake
  let intake := { intake with atGraph := false }
  match switch with
  | .output =>
    .ok { intake with settings := { settings with output := if value = "--" then "" else value } }
  | .format =>
    if value = "--" then .ok { intake with settings := { settings with dialect? := none } }
    else
      match Dialect.ofName? value with
      | none => Stop.at (.unknownDialect value)
      | some dialect => .ok { intake with settings := { settings with dialect? := some dialect } }
  | _ => .ok intake

/-- What means nothing. -/
def takeExtra (intake : Intake) (text : String) : Intake :=
  { intake with extras := intake.extras ++ [text], atGraph := false }

/-- The options of an argument, apart from a value that follows. -/
def takeCluster (intake : Intake) (cluster : Cluster) : Except Stop Intake := do
  let intake ← cluster.plain.foldlM takePlain intake
  match cluster.valued with
  | some (switch, value) => intake.takeValued switch value
  | none => return intake

/-- Takes the arguments in front of the two dashes. The value of an option may be the word behind
it. -/
def takeAll : List Argument → Intake → Except Stop Intake
  | [], intake => .ok intake
  | .operand text :: rest, intake => takeAll rest (intake.takeOperand text)
  | .unknown text :: rest, intake => takeAll rest (intake.takeExtra text)
  | .options (.error cause) :: _, _ => Stop.at cause
  | .options (.ok cluster) :: rest, intake =>
    match cluster.pending, rest with
    | none, rest => do takeAll rest (← intake.takeCluster cluster)
    -- only a word that is no option can be the value of the option before it
    | some switch, .operand value :: rest => do
      takeAll rest (← (← intake.takeCluster cluster).takeValued switch value)
    | some switch, _ => Stop.at (.missingValue switch)

/-- Takes the words behind the two dashes. The dashes mean nothing where the graph stands neither
right before nor behind them. -/
def takeTail (intake : Intake) (words : List String) : Intake :=
  match intake.graph?, words with
  | none, text :: rest => { intake with graph? := some text, extras := intake.extras ++ rest }
  | none, [] => intake
  | some _, words =>
    { intake with extras := intake.extras ++ (if intake.atGraph then words else "--" :: words) }

/-- What is asked for when all arguments are taken. -/
def request (intake : Intake) : Except UsageError Request :=
  match intake.graph?, intake.extras with
  | none, _ => .error .missingGraph
  | some graph, [] => .ok (.convert { intake.settings with graph })
  | some _, extras => .error (.unrecognized extras)

end Intake

namespace Request

/-- **What an argument list asks for.** -/
def ofArguments (texts : List String) : Except UsageError Request := do
  let arguments ← (texts.takeWhile (· ≠ "--")).mapM Argument.ofText
  -- all arguments are classified first: one that cannot be told stops even the help
  match Intake.takeAll arguments {} with
  | .error (.fault cause) => .error cause
  | .error (.answer request) => .ok request
  | .ok intake =>
    match texts.dropWhile (· ≠ "--") with
    | [] => intake.request
    | _ :: words => (intake.takeTail words).request

end Request

end ModuleSurface
