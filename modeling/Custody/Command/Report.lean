/-
  Custody.Command.Report — what the tasks print.
-/
import Custody.Ledger
import Custody.Owner.Vector

namespace Custody.Command

/-- One line. -/
def line (text : String) : String := text ++ "\n"

/-- The length of a vector, the values in the order in which they were popped, and its end. -/
def lifoReport (len : UInt64) (popped : List String) : String :=
  line ("len: " ++ toString len) ++ String.join (popped.map fun v => line ("pop: " ++ v)) ++
    line "pop: <empty>"

/-- One numbered line. -/
def numbered (index : Nat) (text : String) : String :=
  line ("[" ++ toString index ++ "] " ++ Text.quote text)

/-- The texts, quoted, each on a line with its index. -/
def trimReport (texts : List String) : String :=
  String.join (texts.zipIdx.map fun t => numbered t.2 t.1)

/-- The numbers of a vector and their sum. -/
def numbersReport (slice : List Primitive.i64.Value) (sum : Int) : String :=
  line ("slice: " ++ VectorOwner.listing (.scalar .i64) slice) ++ line ("sum: " ++ toString sum)

/-- A text with blanks after it up to the given width. -/
def padded (width : Nat) (text : String) : String :=
  text ++ String.ofList (List.replicate (width - text.length) ' ')

def ledgerLabels : List String :=
  ["string allocs", "string frees", "string transfers", "vec allocs", "vec frees",
    "elements dropped", "live strings", "live vecs"]

/-- The ledger's figures under their labels, in one column. -/
def ledgerReport (l : Ledger) : String :=
  line "ledger:" ++ String.join ((ledgerLabels.zip l.figures).map fun f =>
    line ("  " ++ padded 17 f.1 ++ toString f.2))

end Custody.Command
