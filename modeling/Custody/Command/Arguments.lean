/-
  Custody.Command.Arguments — the words of a command line, and what they ask for.

  Options may stand before the task's name and after it, but each only once on either side; where
  both sides set a capacity, the later one holds. A word that begins with a dash is an option, apart
  from the single dash, from negative numbers where numbers are wanted, and from every word after
  `--`. Help is given as soon as it is asked for, unless something before it is wrong.
-/
import Custody.Primitive

namespace Custody.Command

/-- What to do. -/
inductive Task where
  | lifo (values : List String)
  | trim (values : List String)
  | numbers (values : List Primitive.i64.Value)
  | abi (type : String)
  deriving DecidableEq, Repr

inductive TaskName where
  | lifo | trim | numbers | abi
  deriving DecidableEq, Repr

def TaskName.ofWord? : String → Option TaskName
  | "lifo" => some .lifo
  | "trim" => some .trim
  | "numbers" => some .numbers
  | "abi" => some .abi
  | _ => none

structure Options where
  trace : Bool
  json : Bool
  capacity : UInt64
  deriving DecidableEq, Repr

structure Invocation where
  options : Options
  task : Task
  deriving DecidableEq, Repr

/-- Why a command line asks for no task. -/
inductive Stop where
  /-- It makes no sense. -/
  | usage
  /-- It asks for help, with a task or in general. -/
  | help (task : Option TaskName)
  /-- It asks for help with asking for help. -/
  | helpOnHelp
  | version
  deriving DecidableEq, Repr

/-! ## Words -/

inductive Word where
  /-- The word after which nothing is an option. -/
  | separator
  | long (name : String) (value : Option String)
  | short (letters : List Char)
  | plain (text : String)
  deriving DecidableEq, Repr

/-- An option's name, and the value after the first equals sign if there is one. -/
def splitLong (cs : List Char) : Word :=
  let name := cs.takeWhile (· != '=')
  match cs.dropWhile (· != '=') with
  | _ :: value => .long (String.ofList name) (some (String.ofList value))
  | [] => .long (String.ofList name) none

def Word.of (arg : String) : Word :=
  match arg.toList with
  | ['-', '-'] => .separator
  | '-' :: '-' :: cs => splitLong cs
  | '-' :: c :: cs => .short (c :: cs)
  | _ => .plain arg

/-- Whether the letters after a dash make it a negative number: digits, with at most one point
    before an exponent, and digits after the exponent's mark. Neither comes first. -/
def looksNumeric : (first dot mark : Bool) → List Char → Bool
  | _, _, _, [] => true
  | first, dot, mark, c :: cs =>
    if Decimal.isDigit c then looksNumeric false dot mark cs
    else if c = '.' && !first && !dot && !mark then looksNumeric false true mark cs
    else if c = 'e' && !first && !mark then !cs.isEmpty && looksNumeric false dot true cs
    else false

/-! ## Options -/

/-- The options seen on one side of the task's name. -/
structure Seen where
  trace : Bool
  json : Bool
  capacity : Option UInt64

def Seen.nothing : Seen := ⟨false, false, none⟩

def capacity? (text : String) : Except Stop UInt64 :=
  match Decimal.nat? (UInt64.size - 1) text with
  | some n => .ok (UInt64.ofNat n)
  | none => .error .usage

/-- Takes a long option in, and gives the words after it. Only a plain word can be a value. -/
def Seen.long (s : Seen) (name : String) (value : Option String) (rest : List String) :
    Except Stop (Seen × List String) :=
  match name, value with
  | "trace", none => if s.trace then .error .usage else .ok ({ s with trace := true }, rest)
  | "json", none => if s.json then .error .usage else .ok ({ s with json := true }, rest)
  | "capacity", value =>
    if s.capacity.isSome then .error .usage
    else
      match value, rest with
      | some text, _ => do .ok ({ s with capacity := some (← capacity? text) }, rest)
      | none, arg :: rest =>
        match Word.of arg with
        | .plain text => do .ok ({ s with capacity := some (← capacity? text) }, rest)
        | _ => .error .usage
      | none, [] => .error .usage
  | _, _ => .error .usage

theorem Seen.length_long {s s' : Seen} {name : String} {value : Option String}
    {rest rest' : List String} (h : s.long name value rest = .ok (s', rest')) :
    rest'.length ≤ rest.length := by
  have drop : ∀ {c : Except Stop UInt64} {r : List String},
      (do Except.ok ({ s with capacity := some (← c) }, r)) = Except.ok (s', rest') → rest' = r := by
    intro c r h
    cases c with
    | error e => cases h
    | ok n => cases h; rfl
  unfold Seen.long at h
  split at h
  · split at h <;> cases h; exact Nat.le_refl _
  · split at h <;> cases h; exact Nat.le_refl _
  · split at h
    · cases h
    · split at h
      · exact Nat.le_of_eq (congrArg List.length (drop h))
      · split at h
        · exact drop h ▸ Nat.le_succ _
        · cases h
      · cases h
  · cases h

/-! ## Tasks -/

/-- The value of a word in the place of a number. -/
def number? (text : String) : Except Stop Primitive.i64.Value :=
  match (Decimal.int? text).bind Primitive.i64.ofInt? with
  | some x => .ok x
  | none => .error .usage

/-- The task with the given words, if it can have them. -/
def TaskName.withWords : TaskName → List String → Except Stop Task
  | .lifo, v :: vs => .ok (.lifo (v :: vs))
  | .trim, v :: vs => .ok (.trim (v :: vs))
  | .numbers, v :: vs => do .ok (.numbers (← (v :: vs).mapM number?))
  | .abi, [type] => .ok (.abi type)
  | _, _ => .error .usage

/-- Whether the task can have these words before it has them all. -/
def TaskName.accepts : TaskName → List String → Bool
  | .numbers, vs => vs.all fun v => (number? v).isOk
  | .abi, vs => vs.length ≤ 1
  | _, _ => true

/-- Reads the words after a task's name, of which `values` were read already. -/
def readTask (task : TaskName) (s : Seen) (values : List String) (args : List String) :
    Except Stop (Seen × Task) :=
  match args with
  | [] => do .ok (s, ← task.withWords values)
  | arg :: rest =>
    if !task.accepts values then .error .usage
    else
      match Word.of arg with
      | .separator => do .ok (s, ← task.withWords (values ++ rest))
      | .plain text => readTask task s (values ++ [text]) rest
      | .short letters =>
        if task = .numbers && looksNumeric true false false letters then
          readTask task s (values ++ [arg]) rest
        else if letters.head? = some 'h' then .error (.help (some task))
        else .error .usage
      | .long "help" none => .error (.help (some task))
      | .long name value =>
        match _h : s.long name value rest with
        | .error stop => .error stop
        | .ok (s, rest') => readTask task s values rest'
termination_by args.length
decreasing_by
  all_goals simp only [List.length_cons]
  · omega
  · omega
  · have := Seen.length_long _h; omega

/-- The words after `help`: nothing, or the name of what help is wanted with. -/
def readHelp : List String → Stop
  | [] => .help none
  | ["help"] => .helpOnHelp
  | [word] =>
    match TaskName.ofWord? word with
    | some task => .help (some task)
    | none => .usage
  | _ => .usage

/-- Both sides of the task's name together. -/
def Options.ofSeen (before after : Seen) : Options :=
  ⟨before.trace || after.trace, before.json || after.json,
    (after.capacity.or before.capacity).getD 0⟩

/-- Reads all words of a command line. -/
def read (before : Seen) (args : List String) : Except Stop Invocation :=
  match args with
  | [] => .error .usage
  | arg :: rest =>
    match TaskName.ofWord? arg with
    | some task => do
      let (after, task) ← readTask task .nothing [] rest
      .ok ⟨.ofSeen before after, task⟩
    | none =>
      match Word.of arg with
      | .plain text => .error (if text = "help" then readHelp rest else .usage)
      | .long "help" none => .error (.help none)
      | .long "version" none => .error .version
      | .short ('h' :: _) => .error (.help none)
      | .short ('V' :: _) => .error .version
      | .long name value =>
        match _h : before.long name value rest with
        | .error stop => .error stop
        | .ok (before, rest') => read before rest'
      | _ => .error .usage
termination_by args.length
decreasing_by
  simp only [List.length_cons]
  have := Seen.length_long _h
  omega

/-- What a command line asks for. -/
def Invocation.ofArguments (args : List String) : Except Stop Invocation := read .nothing args

end Custody.Command
