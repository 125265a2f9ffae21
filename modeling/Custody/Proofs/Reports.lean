/-
  Custody.Proofs.Reports — what the tasks on texts print, said of their values alone.

  Here nothing is pushed or popped: the reports are made of the values themselves, last one first or each
  without the blanks around it (`Text.Stripped`), and the ledger's figures of how many there are. The
  program prints just that, and exits with success (`prints_plain_reports`), provided that the size of each
  value is a word and that there are fewer than 2^63 of them, so that no counter wraps.
-/
import Custody.Proofs.LogAgreement
import Custody.Proofs.Tasks
import Custody.Proofs.Trimming

namespace Custody

/-! ## Plain reports -/

namespace Command

/-- The lines as a text, each with its end. -/
def unlines (lines : List String) : String := String.join (lines.map (· ++ "\n"))

/-- The length, the values from the last one on, and the end. -/
def lifoLines (values : List String) : List String :=
  ("len: " ++ toString values.length) :: values.reverse.map ("pop: " ++ ·) ++ ["pop: <empty>"]

/-- Each text, as a listing shows it, behind its index. -/
def trimLines (texts : List String) : List String :=
  texts.zipIdx.map fun t => "[" ++ toString t.2 ++ "] " ++ Text.quote t.1

/-- What a ledger says in print. -/
structure Figures where
  textAllocs : Nat
  textFrees : Nat
  textTransfers : Nat
  vectorAllocs : Nat
  vectorFrees : Nat
  elementsDropped : Nat
  liveTexts : Nat
  liveVectors : Nat

namespace Figures

def table (f : Figures) : List String :=
  ["ledger:",
    "  string allocs    " ++ toString f.textAllocs,
    "  string frees     " ++ toString f.textFrees,
    "  string transfers " ++ toString f.textTransfers,
    "  vec allocs       " ++ toString f.vectorAllocs,
    "  vec frees        " ++ toString f.vectorFrees,
    "  elements dropped " ++ toString f.elementsDropped,
    "  live strings     " ++ toString f.liveTexts,
    "  live vecs        " ++ toString f.liveVectors]

/-- The six counters as one object. -/
def object (f : Figures) : String :=
  "\x7b" ++ ",".intercalate (
    [("string_allocs", f.textAllocs), ("string_frees", f.textFrees), ("string_transfers", f.textTransfers),
      ("vec_allocs", f.vectorAllocs), ("vec_frees", f.vectorFrees), ("elements_dropped", f.elementsDropped)].map
        fun member => "\"" ++ member.1 ++ "\":" ++ toString member.2) ++ "\x7d"

def lines (json : Bool) (f : Figures) : List String := if json then [f.object] else f.table

end Figures

/-- The figures of a ledger. -/
def Figures.ofLedger (l : Ledger) : Figures :=
  ⟨l.textAllocs.toNat, l.textFrees.toNat, l.textTransfers.toNat, l.vectorAllocs.toNat, l.vectorFrees.toNat,
    l.elementsDropped.toNat, l.liveTexts.toNat, l.liveVectors.toNat⟩

theorem unlines_append (xs ys : List String) : unlines (xs ++ ys) = unlines xs ++ unlines ys := by
  simp [unlines, String.join_append]

/-- The tasks end their lines so. -/
theorem unlines_eq (lines : List String) : unlines lines = String.join (lines.map line) := rfl

theorem lifoReport_eq {values : List String} (few : values.length < 2 ^ 64) :
    lifoReport (UInt64.ofNat values.length) values.reverse = unlines (lifoLines values) := by
  have len : toString (UInt64.ofNat values.length) = toString values.length :=
    congrArg toString (UInt64.toNat_ofNat_of_lt few)
  simp [lifoReport, lifoLines, unlines_eq, len, String.join_append, Function.comp_def, String.append_assoc]

theorem trimReport_eq (texts : List String) : trimReport texts = unlines (trimLines texts) := by
  simp [trimReport, trimLines, unlines_eq, numbered, Function.comp_def]

theorem padded_labels : ledgerLabels.map (fun label => "  " ++ padded 17 label) =
    ["  string allocs    ", "  string frees     ", "  string transfers ", "  vec allocs       ",
      "  vec frees        ", "  elements dropped ", "  live strings     ", "  live vecs        "] := by decide

theorem toString_word (n : UInt64) : toString n = toString n.toNat := rfl

theorem ledgerReport_eq (l : Ledger) : ledgerReport l = unlines (Figures.ofLedger l).table := by
  have rows (labels : List String) (figures : List UInt64) :
      (labels.zip figures).map (fun f => line ("  " ++ padded 17 f.1 ++ toString f.2)) =
        (List.zipWith (fun column n => column ++ toString n) (labels.map fun label => "  " ++ padded 17 label)
          figures).map line := by
    simp [List.map_zipWith, List.zipWith_map_left, List.zip]
  rw [ledgerReport, rows, padded_labels]
  simp only [Ledger.figures, Ledger.counters, List.map_cons, List.map_nil, List.cons_append, List.nil_append,
    List.zipWith_cons_cons, List.zipWith_nil_left, Figures.table, Figures.ofLedger, unlines_eq, toString_word,
    String.join_cons]

theorem ledgerText_eq (json : Bool) (l : Ledger) : ledgerText json l = unlines ((Figures.ofLedger l).lines json) := by
  cases json with
  | true =>
    simp only [ledgerText, Figures.lines, if_true, unlines_eq, Ledger.json, Ledger.counters, Figures.object,
      Figures.ofLedger, List.map_cons, List.map_nil, toString_word]
    simp
  | false => simpa [ledgerText, Figures.lines] using ledgerReport_eq l

/-! ## Ledgers -/

/-- Counters below 2^64 are shown as they are, and the live counts are their differences. -/
theorem Figures.ofLedger_ofNat {a f t va vf d : Nat} (ha : a < 2 ^ 64) (hf : f < 2 ^ 64) (ht : t < 2 ^ 64)
    (hva : va < 2 ^ 64) (hvf : vf < 2 ^ 64) (hd : d < 2 ^ 64) :
    ofLedger ⟨.ofNat a, .ofNat f, .ofNat t, .ofNat va, .ofNat vf, .ofNat d⟩ =
      ⟨a, f, t, va, vf, d, a - f - t, va - vf⟩ := by
  simp only [ofLedger, Ledger.liveTexts, Ledger.liveVectors, toNat_monus, UInt64.toNat_ofNat_of_lt' ha,
    UInt64.toNat_ofNat_of_lt' hf, UInt64.toNat_ofNat_of_lt' ht, UInt64.toNat_ofNat_of_lt' hva,
    UInt64.toNat_ofNat_of_lt' hvf, UInt64.toNat_ofNat_of_lt' hd]

section
variable (F : Figure) (values : List String) (es : List Event)

theorem events_cons (e : Event) : F.events (e :: es) = F.ofEvent e + F.events es := rfl

/-- The same events for each value. -/
theorem events_rounds : F.events (values.flatMap fun _ => es) = values.length * F.events es := by
  induction values with
  | nil => simp [Figure.events]
  | cons value values ih => rw [List.flatMap_cons, F.events_append, ih, List.length_cons, Nat.succ_mul, Nat.add_comm]

/-- A push makes a text and moves it, a pop makes another and gives that back. -/
theorem events_lifo : F.events (Task.lifo values).events = F.ofEvent .vectorAlloc +
    values.length * (F.ofEvent .textAlloc + F.ofEvent .textTransfer) +
      values.length * (F.ofEvent .textAlloc + F.ofEvent .textFree) + F.ofEvent (.vectorFree 0) := by
  simp only [Task.events, Figure.events_append, events_cons, events_rounds, Element.pushEvents, List.length_reverse]
  rfl

/-- The vector takes its texts with it. -/
theorem events_trim : F.events (Task.trim values).events = F.ofEvent .vectorAlloc +
    values.length * (F.ofEvent .textAlloc + F.ofEvent .textTransfer) +
      F.ofEvent (.vectorFree (UInt64.ofNat values.length)) := by
  simp only [Task.events, Figure.events_append, events_cons, events_rounds, Element.pushEvents]
  rfl

end

section
variable {values : List String} (few : values.length < 2 ^ 63)

include few

theorem figures_lifo : Figures.ofLedger ((Task.lifo values).events.foldl .record .empty) =
    ⟨2 * values.length, values.length, values.length, 1, 1, 0, 0, 0⟩ := by
  simp only [Ledger.record_events, events_lifo, Figure.ofEvent]
  rw [Figures.ofLedger_ofNat] <;> simp <;> omega

theorem figures_trim : Figures.ofLedger ((Task.trim values).events.foldl .record .empty) =
    ⟨values.length, 0, values.length, 1, 1, values.length, 0, 0⟩ := by
  have len : (UInt64.ofNat values.length).toNat = values.length := Wire.words_count (by omega)
  simp only [Ledger.record_events, events_trim, Figure.ofEvent, len]
  rw [Figures.ofLedger_ofNat] <;> simp <;> omega

end

/-! ## What is printed -/

section
variable {args : List String} {options : Options} {values : List String}

/-- Every list with a value in it can be given to a task, whatever its words look like: behind `--`. -/
theorem ofArguments_separated (ne : values ≠ []) :
    Invocation.ofArguments ("lifo" :: "--" :: values) = .ok ⟨⟨false, false, 0⟩, .lifo values⟩ ∧
      Invocation.ofArguments ("trim" :: "--" :: values) = .ok ⟨⟨false, false, 0⟩, .trim values⟩ := by
  obtain ⟨value, rest, rfl⟩ := List.exists_cons_of_ne_nil ne
  have separator : Word.of "--" = .separator := by decide
  constructor <;>
    simp [Invocation.ofArguments, read, readTask, TaskName.ofWord?, TaskName.accepts, separator, TaskName.withWords,
      bind, Except.bind, Options.ofSeen, Seen.nothing]

theorem execute_of_asked {task : Task} (asked : Invocation.ofArguments args = .ok ⟨options, task⟩) :
    execute args = .ok (Invocation.outcome ⟨options, task⟩ .words) := by
  simp only [execute, asked, Invocation.run_eq]

/-- Values that fit arrive as they are. -/
theorem map_words (fits : ∀ v ∈ values, Wire.Fits v) : values.map Wire.words.text = values :=
  (List.map_congr_left fun v mem => Wire.words_text (fits v mem)).trans (List.map_id values)

theorem report_lifo (few : values.length < 2 ^ 64) (fits : ∀ v ∈ values, Wire.Fits v) :
    (Task.lifo values).report .words = .ok (unlines (lifoLines values), true) := by
  have popped : values.reverse.map Wire.words.text = values.reverse := by rw [List.map_reverse, map_words fits]
  rw [Task.report, map_words fits, popped, lifoReport_eq few]

theorem report_trim (few : values.length < 2 ^ 64) (fits : ∀ v ∈ values, Wire.Fits v) :
    (Task.trim values).report .words = .ok (unlines (trimLines (values.map Text.trim)), true) := by
  have all : (values.map Wire.words.text).take (Wire.words.count values.length) = values := by
    rw [map_words fits, Wire.words_count few, List.take_length]
  have trimmed : (values.map fun t => Wire.words.text (Text.trim t)) = values.map Text.trim :=
    List.map_congr_left fun v mem => Wire.words_text (Wire.fits_trim (fits v mem))
  simp only [Task.report, all, trimmed, trimReport_eq]

/-- `lifo` prints the values in reverse and `trim` prints them stripped, with the figures of so many values,
    whatever the options. -/
theorem prints_plain_reports (few : values.length < 2 ^ 63) (fits : ∀ v ∈ values, Wire.Fits v) :
    (Invocation.ofArguments args = .ok ⟨options, .lifo values⟩ →
      execute args = .ok ⟨0, unlines (lifoLines values ++
        Figures.lines options.json ⟨2 * values.length, values.length, values.length, 1, 1, 0, 0, 0⟩), ""⟩) ∧
    (Invocation.ofArguments args = .ok ⟨options, .trim values⟩ →
      ∃ stripped, List.Forall₂ Text.Stripped values stripped ∧
        execute args = .ok ⟨0, unlines (trimLines stripped ++
          Figures.lines options.json ⟨values.length, 0, values.length, 1, 1, values.length, 0, 0⟩), ""⟩) := by
  have counted : values.length < 2 ^ 64 := by omega
  constructor
  · intro asked
    rw [execute_of_asked asked, Invocation.outcome, report_lifo counted fits]
    simp only [ledgerText_eq, figures_lifo few, unlines_append]
  · intro asked
    refine ⟨values.map Text.trim, List.forall₂_map_right_iff.mpr (List.forall₂_same.mpr fun v _ =>
      Text.stripped_trim v), ?_⟩
    rw [execute_of_asked asked, Invocation.outcome, report_trim counted fits]
    simp only [ledgerText_eq, figures_trim few, unlines_append]

/-- For example, flags may stand between the values, among which are an empty one and two that are the same. -/
theorem prints_plain_reports_flags :
    execute ["lifo", "--capacity", "3", "b", "", "--trace", "b"] = .ok ⟨0,
        "len: 3\npop: b\npop: \npop: b\npop: <empty>\nledger:\n" ++
          "  string allocs    6\n  string frees     3\n  string transfers 3\n  vec allocs       1\n" ++
          "  vec frees        1\n  elements dropped 0\n  live strings     0\n  live vecs        0\n", ""⟩ ∧
      execute ["--json", "trim", "--", "\u00a0a b\n", "--"] = .ok ⟨0,
        "[0] \"a b\"\n[1] \"--\"\n" ++
          "\x7b\"string_allocs\":2,\"string_frees\":0,\"string_transfers\":2," ++
          "\"vec_allocs\":1,\"vec_frees\":1,\"elements_dropped\":2\x7d\n", ""⟩ := by
  constructor
  · have printed := (@prints_plain_reports ["lifo", "--capacity", "3", "b", "", "--trace", "b"] ⟨true, false, 3⟩
      ["b", "", "b"] (by decide) (by simp [Wire.Fits]; decide)).1 (by decide +kernel)
    rw [printed]
    decide +kernel
  · obtain ⟨stripped, rests, printed⟩ := (@prints_plain_reports ["--json", "trim", "--", "\u00a0a b\n", "--"]
      ⟨false, true, 0⟩ ["\u00a0a b\n", "--"] (by decide) (by simp [Wire.Fits]; decide)).2 (by decide +kernel)
    obtain ⟨first, rest, one, two, rfl⟩ := List.forall₂_cons_left_iff.mp rests
    obtain ⟨second, none, last, done, rfl⟩ := List.forall₂_cons_left_iff.mp two
    obtain rfl := List.forall₂_nil_left_iff.mp done
    rw [printed, one.eq_trim, last.eq_trim]
    decide +kernel

end

end Command

end Custody
