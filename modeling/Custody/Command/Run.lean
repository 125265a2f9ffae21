/-
  Custody.Command.Run — the tasks of the command line, on a store of their own.
-/
import Custody.Command.Help
import Custody.Header

namespace Custody.Command

/-- Why a task fails. -/
inductive TaskError where
  /-- The sum of so many values is no longer a 64-bit number. -/
  | sumOverflow (count : Nat)
  /-- No vectors of a type with this name exist. -/
  | noVectorType (name : String) (cause : BoundaryError)
  deriving DecidableEq, Repr

namespace TaskError

def message : TaskError → String
  | .sumOverflow n => "sum of " ++ toString n ++ " values overflows i64"
  | .noVectorType name _ => "no vector ABI for type '" ++ name ++ "'"

def cause? : TaskError → Option BoundaryError
  | .sumOverflow _ => none
  | .noVectorType _ cause => some cause

/-- Each line of a text, moved four places to the right. -/
def indented (text : String) : String :=
  String.ofList (("    ").toList ++ text.toList.flatMap fun c => if c = '\n' then "\n    ".toList else [c])

/-- The error and, after an empty line, its cause. -/
def report (e : TaskError) : String :=
  line ("Error: " ++ e.message) ++
    match e.cause? with
    | none => ""
    | some cause => "\n" ++ line "Caused by:" ++ line (indented cause.message)

end TaskError

/-! ## Tasks -/

/-- Pops until nothing comes, at most `n` times; each text is read and its owner dropped. -/
def popAll (v : VectorOwner .text) : Nat → Call (List String)
  | 0 => pure []
  | n + 1 => do
    match ← v.pop with
    | none => pure []
    | some o => do
      let t ← (Place.whole o.handle).text
      TextOwner.drop o
      return t :: (← popAll v n)

/-- Pushes the values into a vector and pops them all again: the length that the vector had, and
    the values in the order in which they came back. -/
def lifo (values : List String) : Call (UInt64 × List String) := do
  let v ← VectorOwner.collect .text (values.map Element.text.make)
  let len ← v.len
  let popped ← popAll v (values.length + 1)
  v.drop
  pure (len, popped)

/-- The values without the blanks around them, read back from a vector. -/
def trim (values : List String) : Call (List String) := do
  let v ← VectorOwner.collect .text (values.map Element.text.make)
  let texts ← (← v.cursor).toList v.get Place.trimmed
  v.drop
  pure texts

/-- The sum of the numbers after `sum`, if it stays a 64-bit number all the way. -/
def sumFrom (sum : Int) : List Primitive.i64.Value → Option Int
  | [] => some sum
  | x :: rest =>
    let next := sum + x.toInt
    if -(2 ^ 63) ≤ next && next < 2 ^ 63 then sumFrom next rest else none

/-- The numbers as a vector shows them, and their sum. -/
def numbers (values : List Primitive.i64.Value) :
    Call (Except TaskError (List Primitive.i64.Value × Int)) := do
  let v ← VectorOwner.collect (.scalar .i64) (values.map (Element.scalar .i64).make)
  let slice ← v.storage
  v.drop
  match sumFrom 0 slice with
  | some sum => pure (.ok (slice, sum))
  | none => pure (.error (.sumOverflow slice.length))

/-- The header of a type's vectors. -/
def declarations (type : String) : Except TaskError String :=
  if type = Element.textName then .ok (Header.render (Header.opaqueLines type))
  else
    match Primitive.ofName? type with
    | some p => .ok (Header.render (Header.primitiveLines p))
    | none => .error (.noVectorType type (.unknownPrimitive type))

/-- What a task prints, and whether the ledger comes after it. -/
def Task.run : Task → Call (Except TaskError (String × Bool))
  | .lifo values => do
    let (len, popped) ← Command.lifo values
    pure (.ok (lifoReport len popped, true))
  | .trim values => do
    let texts ← Command.trim values
    pure (.ok (trimReport texts, true))
  | .numbers values => do
    match ← Command.numbers values with
    | .ok (slice, sum) => pure (.ok (numbersReport slice sum, true))
    | .error e => pure (.error e)
  | .abi type => pure ((declarations type).map (·, false))

/-! ## The program -/

/-- What a run of the program leaves behind. -/
structure Outcome where
  exit : UInt32
  output : String
  /-- The report of a failure; empty where there was none. -/
  failure : String
  deriving DecidableEq, Repr

def ledgerText (json : Bool) (l : Ledger) : String := if json then line l.json else ledgerReport l

/-- A store with the settings that the options ask for. -/
def Options.store (o : Options) : Store :=
  { Store.initial with settings := ⟨o.trace, o.capacity⟩ }

def Invocation.run (i : Invocation) : Except Fault Outcome := do
  let (result, store) ← (i.task.run).run i.options.store
  match result with
  | .error e => .ok ⟨1, "", e.report⟩
  | .ok (report, false) => .ok ⟨0, report, ""⟩
  | .ok (report, true) => .ok ⟨0, report ++ ledgerText i.options.json store.ledger, ""⟩

/-- What is printed instead of a task's report. -/
def Stop.outcome : Stop → Outcome
  | .usage => ⟨2, "", line "error: the arguments make no sense" ++ "\n" ++ usageLine "[OPTIONS] <COMMAND>"⟩
  | .help none => ⟨0, generalHelp, ""⟩
  | .help (some task) => ⟨0, task.help, ""⟩
  | .helpOnHelp => ⟨0, Command.helpOnHelp, ""⟩
  | .version => ⟨0, versionText, ""⟩

/-- The program: what its arguments ask for, done. -/
def execute (args : List String) : Except Fault Outcome :=
  match Invocation.ofArguments args with
  | .ok i => i.run
  | .error stop => .ok stop.outcome

end Custody.Command
