/-
  Custody.Proofs.Declarations — link names can be told apart, and a header declares each of its functions once.

  A link name is read from its end: the operation follows the last separator, and what stands before that,
  behind the realm, is the owner, whatever it is made of (`Symbol.read_linkName`). So symbols that differ have
  different link names. A header is read line by line, the name of a function being the last word before the
  parenthesis (`Header.functions`): what is found are the functions that the header is for. Word for word the
  lines are those of `Header.Kind.spelled`.
-/
import Mathlib.Data.List.DropRight
import Mathlib.Data.List.Nodup
import Custody.Header

namespace Custody

/-! ## The last part of a list -/

section
variable {α : Type} {p : α → Bool} {x : α} (stop : ¬ p x) (as : List α) {bs : List α} (go : ∀ b ∈ bs, p b)

include stop go

theorem rtakeWhile_behind : (as ++ x :: bs).rtakeWhile p = bs := by
  have go : ∀ b ∈ bs.reverse, p b := fun b mem => go b (List.mem_reverse.mp mem)
  rw [List.rtakeWhile, List.reverse_append, List.reverse_cons, List.append_assoc,
    List.takeWhile_append_of_pos go, List.singleton_append, List.takeWhile_cons_of_neg stop, List.append_nil,
    List.reverse_reverse]

theorem rdropWhile_behind : (as ++ x :: bs).rdropWhile p = as ++ [x] := by
  have go : ∀ b ∈ bs.reverse, p b := fun b mem => go b (List.mem_reverse.mp mem)
  rw [List.rdropWhile, List.reverse_append, List.reverse_cons, List.append_assoc,
    List.dropWhile_append_of_pos go, List.singleton_append, List.dropWhile_cons_of_neg stop, List.reverse_cons,
    List.reverse_reverse]

end

/-! ## Link names -/

namespace Symbol

/-- The symbol that has this link name. -/
def read (name : String) : Symbol :=
  let call := name.toList.drop (realm.length + 1)
  ⟨.ofList (call.rdropWhile (· ≠ '$')).dropLast, .ofList (call.rtakeWhile (· ≠ '$'))⟩

theorem toList_linkName (s : Symbol) :
    s.linkName.toList = realm.toList ++ '$' :: (s.owner.toList ++ '$' :: s.op.toList) := by
  simp [linkName, call]

theorem read_linkName {s : Symbol} (simple : '$' ∉ s.op.toList) : read s.linkName = s := by
  have call : s.linkName.toList.drop (realm.length + 1) = s.owner.toList ++ '$' :: s.op.toList := by
    rw [toList_linkName]
    rfl
  have stop : ¬ decide ('$' ≠ '$') = true := by decide
  have go : ∀ c ∈ s.op.toList, decide (c ≠ '$') = true := fun c mem => decide_eq_true fun e => simple (e ▸ mem)
  simp only [read, call, rtakeWhile_behind (p := (· ≠ '$')) stop _ go, rdropWhile_behind (p := (· ≠ '$')) stop _ go,
    List.dropLast_concat, String.ofList_toList]

theorem linkName_injective {s s' : Symbol} (simple : '$' ∉ s.op.toList) (simple' : '$' ∉ s'.op.toList)
    (same : s.linkName = s'.linkName) : s = s' := by
  rw [← read_linkName simple, same, read_linkName simple']

end Symbol

theorem VectorOp.name_simple (op : VectorOp) : '$' ∉ op.name.toList := by cases op <;> decide

theorem TextOp.name_simple (op : TextOp) : '$' ∉ op.name.toList := by cases op <;> decide

theorem VectorOp.name_injective {op op' : VectorOp} (same : op.name = op'.name) : op = op' := by
  cases op <;> cases op' <;> first | rfl | exact absurd same (by decide)

theorem Symbol.vector_linkName (e e' : String) (op op' : VectorOp) :
    (vector e op).linkName = (vector e' op').linkName ↔ e = e' ∧ op = op' := by
  constructor
  · intro same
    have same := linkName_injective op.name_simple op'.name_simple same
    have owner : ("Vec_" ++ e).toList = ("Vec_" ++ e').toList := congrArg (String.toList ∘ Symbol.owner) same
    have name : op.name = op'.name := congrArg Symbol.op same
    rw [String.toList_append, String.toList_append] at owner
    exact ⟨String.toList_inj.mp (List.append_cancel_left owner), VectorOp.name_injective name⟩
  · rintro ⟨rfl, rfl⟩
    rfl

/-! ## Reading a header -/

namespace Header

/-- The lines of a text, without their ends. -/
def cut : List Char → List (List Char)
  | [] => []
  | c :: cs =>
    if c = '\n' then [] :: cut cs
    else
      match cut cs with
      | [] => [[c]]
      | l :: ls => (c :: l) :: ls

def linesOf (text : String) : List String := (cut text.toList).map .ofList

/-- The name that stands before the parenthesis, if the line has one. -/
def declared? (line : String) : Option String :=
  if '(' ∈ line.toList then some (.ofList ((line.toList.takeWhile (· ≠ '(')).rtakeWhile (· ≠ ' '))) else none

/-- The functions that a header declares, in order. -/
def functions (text : String) : List String := (linesOf text).filterMap declared?

theorem cut_line {l : List Char} (inside : '\n' ∉ l) (rest : List Char) : cut (l ++ '\n' :: rest) = l :: cut rest := by
  induction l with
  | nil => simp [cut]
  | cons c l ih =>
    rw [List.mem_cons, not_or] at inside
    rw [List.cons_append, cut, if_neg (Ne.symm inside.1), ih inside.2]

theorem linesOf_render {lines : List String} (inside : ∀ l ∈ lines, '\n' ∉ l.toList) :
    linesOf (render lines) = lines := by
  induction lines with
  | nil => rfl
  | cons l lines ih =>
    have first : (render (l :: lines)).toList = l.toList ++ '\n' :: (render lines).toList := by
      simp [render, String.join_cons]
    rw [linesOf, first, cut_line (inside l List.mem_cons_self), List.map_cons, String.ofList_toList]
    exact congrArg _ (ih fun l mem => inside l (List.mem_cons_of_mem _ mem))

theorem declared?_declaration {result parameters : String} {s : Symbol} (plain : '(' ∉ result.toList)
    (simple : '(' ∉ s.linkName.toList) (word : ' ' ∉ s.linkName.toList) :
    declared? (declaration result s parameters) = some s.linkName := by
  have parts : (declaration result s parameters).toList =
      (result.toList ++ ' ' :: s.linkName.toList) ++ '(' :: (parameters.toList ++ [')', ';']) := by
    simp [declaration]
  have before : ∀ c ∈ result.toList ++ ' ' :: s.linkName.toList, decide (c ≠ '(') = true := by
    intro c mem
    refine decide_eq_true ?_
    rintro rfl
    rcases List.mem_append.mp mem with mem | mem
    · exact plain mem
    · rcases List.mem_cons.mp mem with e | mem
      · exact absurd e (by decide)
      · exact simple mem
  have go : ∀ c ∈ s.linkName.toList, decide (c ≠ ' ') = true := fun c mem => decide_eq_true fun e => word (e ▸ mem)
  have there : '(' ∈ (declaration result s parameters).toList := by
    rw [parts]
    exact List.mem_append_right _ List.mem_cons_self
  rw [declared?, if_pos there, parts, List.takeWhile_append_of_pos before,
    List.takeWhile_cons_of_neg (by decide), List.append_nil, rtakeWhile_behind (by decide) _ go, String.ofList_toList]

/-! ## Headers of elements -/

/-- What a header is for. -/
inductive Kind where
  /-- A type of this name that is reached by handle. -/
  | named (type : String)
  | primitive (p : Primitive)

namespace Kind

/-- The name of the elements. -/
def element : Kind → String
  | named type => type
  | primitive p => p.name

def lines : Kind → List String
  | named type => opaqueLines type
  | primitive p => primitiveLines p

def text (k : Kind) : String := render k.lines

/-- The lines of the header, word for word. -/
def spelled : Kind → List String
  | named type =>
    ["typedef struct " ++ type ++ " " ++ type ++ ";",
      "void __bridge__$" ++ type ++ "$_free(void* self);",
      "void* __bridge__$Vec_" ++ type ++ "$new(void);",
      "void __bridge__$Vec_" ++ type ++ "$drop(void* vec_ptr);",
      "void __bridge__$Vec_" ++ type ++ "$push(void* vec_ptr, void* item_ptr);",
      "void* __bridge__$Vec_" ++ type ++ "$pop(void* vec_ptr);",
      "void* __bridge__$Vec_" ++ type ++ "$get(void* vec_ptr, uintptr_t index);",
      "void* __bridge__$Vec_" ++ type ++ "$get_mut(void* vec_ptr, uintptr_t index);",
      "uintptr_t __bridge__$Vec_" ++ type ++ "$len(void* vec_ptr);",
      "void* __bridge__$Vec_" ++ type ++ "$as_ptr(void* vec_ptr);"]
  | primitive p =>
    ["typedef struct __bridge__$Option$" ++ p.name ++ " \x7b bool is_some; " ++ p.cType ++
        " val; \x7d __bridge__$Option$" ++ p.name ++ ";",
      "void* __bridge__$Vec_" ++ p.name ++ "$new(void);",
      "void __bridge__$Vec_" ++ p.name ++ "$drop(void* vec_ptr);",
      "void __bridge__$Vec_" ++ p.name ++ "$push(void* vec_ptr, " ++ p.cType ++ " item);",
      "__bridge__$Option$" ++ p.name ++ " __bridge__$Vec_" ++ p.name ++ "$pop(void* vec_ptr);",
      "__bridge__$Option$" ++ p.name ++ " __bridge__$Vec_" ++ p.name ++ "$get(void* vec_ptr, uintptr_t index);",
      "__bridge__$Option$" ++ p.name ++ " __bridge__$Vec_" ++ p.name ++ "$get_mut(void* vec_ptr, uintptr_t index);",
      "uintptr_t __bridge__$Vec_" ++ p.name ++ "$len(void* vec_ptr);",
      "const " ++ p.cType ++ "* __bridge__$Vec_" ++ p.name ++ "$as_ptr(void* vec_ptr);"]

/-- The functions that the header is for. -/
def symbols : Kind → List Symbol
  | named type => .method type TextOp.free.name :: VectorOp.all.map (.vector type)
  | primitive p => VectorOp.all.map (.vector p.name)

end Kind

/-- The name is made of characters that C identifiers are made of. -/
def Identifier (name : String) : Prop := ∀ c ∈ name.toList, c.isAlphanum ∨ c = '_'

instance (name : String) : Decidable (Identifier name) := List.decidableBAll _ name.toList

theorem Identifier.append {name name' : String} (ok : Identifier name) (ok' : Identifier name') :
    Identifier (name ++ name') := by
  intro c mem
  rw [String.toList_append, List.mem_append] at mem
  exact mem.elim (ok c) (ok' c)

theorem identifier_primitive (p : Primitive) : Identifier p.name := by cases p <;> decide

theorem identifier_vectorOp (op : VectorOp) : Identifier op.name := by cases op <;> decide

/-- The text has neither a parenthesis nor a line end. -/
def Unbroken (text : String) : Prop := ∀ c ∈ text.toList, c ≠ '(' ∧ c ≠ '\n'

instance (text : String) : Decidable (Unbroken text) := List.decidableBAll _ text.toList

theorem Unbroken.append {text text' : String} (ok : Unbroken text) (ok' : Unbroken text') :
    Unbroken (text ++ text') := by
  intro c mem
  rw [String.toList_append, List.mem_append] at mem
  exact mem.elim (ok c) (ok' c)

theorem Identifier.unbroken {name : String} (ok : Identifier name) : Unbroken name := by
  intro c mem
  have ok := ok c mem
  constructor <;> rintro rfl <;> exact absurd ok (by decide)

theorem Identifier.word {name : String} (ok : Identifier name) : ' ' ∉ name.toList :=
  fun mem => absurd (ok ' ' mem) (by decide)

section
variable {s : Symbol} (owner : Identifier s.owner) (op : Identifier s.op)

include owner op

theorem unbroken_linkName : Unbroken s.linkName := by
  have call : Unbroken s.call := (owner.unbroken.append (by decide)).append op.unbroken
  exact Unbroken.append (by decide) call

theorem word_linkName : ' ' ∉ s.linkName.toList := by
  have realm : ' ' ∉ Symbol.realm.toList := by decide
  rw [Symbol.toList_linkName]
  simp [realm, owner.word, op.word]

end

theorem unbroken_cType (p : Primitive) : Unbroken p.cType := by cases p <;> decide

theorem unbroken_cOptionType (p : Primitive) : Unbroken p.cOptionType :=
  .append (by decide) (identifier_primitive p).unbroken

theorem unbroken_result (op : VectorOp) (passing : Passing) : Unbroken (result op passing) := by
  have handle (op : VectorOp) : Unbroken (result op .handle) := by cases op <;> decide
  cases passing with
  | handle => exact handle op
  | value p =>
    have option := unbroken_cOptionType p
    cases op with
    | new => exact handle .new
    | drop => exact handle .drop
    | push => exact handle .push
    | len => exact handle .len
    | pop | get | getMut => exact option
    | start => exact .append (.append (by decide) (unbroken_cType p)) (by decide)

theorem unbroken_parameters (op : VectorOp) (passing : Passing) : Unbroken (parameters op passing) := by
  have handle (op : VectorOp) : Unbroken (parameters op .handle) := by cases op <;> decide
  cases passing with
  | handle => exact handle op
  | value p =>
    cases op with
    | push => exact .append (.append (by decide) (unbroken_cType p)) (by decide)
    | new => exact handle .new
    | get | getMut => exact handle .get
    | drop | len | pop | start => exact handle .drop

/-! ## What a header declares -/

section
variable {s : Symbol} (owner : Identifier s.owner) (op : Identifier s.op) {r ps : String} (hr : Unbroken r)
  (hps : Unbroken ps)

include owner op hr

theorem declared?_of_identifiers : declared? (declaration r s ps) = some s.linkName :=
  declared?_declaration (fun mem => (hr _ mem).1 rfl) (fun mem => (unbroken_linkName owner op _ mem).1 rfl)
    (word_linkName owner op)

include hps

theorem declaration_line : '\n' ∉ (declaration r s ps).toList := by
  intro mem
  simp only [declaration, String.toList_append, List.mem_append] at mem
  have name := unbroken_linkName owner op
  rcases mem with (((((mem | mem) | mem) | mem) | mem) | mem)
  · exact (hr _ mem).2 rfl
  · revert mem; decide
  · exact (name _ mem).2 rfl
  · revert mem; decide
  · exact (hps _ mem).2 rfl
  · revert mem; decide

end

theorem identifier_vector {element : String} (ok : Identifier element) (op : VectorOp) :
    Identifier (Symbol.vector element op).owner :=
  .append (by decide) ok

theorem vectorLines_declared {element : String} (ok : Identifier element) (passing : Passing) :
    (vectorLines element passing).map declared? =
      VectorOp.all.map fun op => some (Symbol.vector element op).linkName := by
  rw [vectorLines, List.map_map]
  refine List.map_congr_left fun op _ => ?_
  exact declared?_of_identifiers (identifier_vector ok op) (identifier_vectorOp op) (unbroken_result op passing)

theorem vectorLines_handle (e : String) : vectorLines e .handle =
    [declaration "void*" (.vector e .new) "void", declaration "void" (.vector e .drop) "void* vec_ptr",
      declaration "void" (.vector e .push) "void* vec_ptr, void* item_ptr",
      declaration "void*" (.vector e .pop) "void* vec_ptr",
      declaration "void*" (.vector e .get) "void* vec_ptr, uintptr_t index",
      declaration "void*" (.vector e .getMut) "void* vec_ptr, uintptr_t index",
      declaration "uintptr_t" (.vector e .len) "void* vec_ptr",
      declaration "void*" (.vector e .start) "void* vec_ptr"] := rfl

theorem vectorLines_value (e : String) (p : Primitive) : vectorLines e (.value p) =
    [declaration "void*" (.vector e .new) "void", declaration "void" (.vector e .drop) "void* vec_ptr",
      declaration "void" (.vector e .push) ("void* vec_ptr, " ++ p.cType ++ " item"),
      declaration p.cOptionType (.vector e .pop) "void* vec_ptr",
      declaration p.cOptionType (.vector e .get) "void* vec_ptr, uintptr_t index",
      declaration p.cOptionType (.vector e .getMut) "void* vec_ptr, uintptr_t index",
      declaration "uintptr_t" (.vector e .len) "void* vec_ptr",
      declaration ("const " ++ p.cType ++ "*") (.vector e .start) "void* vec_ptr"] := rfl

theorem vectorLines_inside {element : String} (ok : Identifier element) (passing : Passing) :
    ∀ l ∈ vectorLines element passing, '\n' ∉ l.toList := by
  intro l mem
  obtain ⟨op, -, rfl⟩ := List.mem_map.mp mem
  exact declaration_line (identifier_vector ok op) (identifier_vectorOp op) (unbroken_result op passing)
    (unbroken_parameters op passing)

namespace Kind

theorem lines_eq_spelled (k : Kind) : k.lines = k.spelled := by
  -- what is fixed grows together from the left, then from the right
  cases k with
  | named type =>
    simp only [lines, spelled, opaqueLines, vectorLines_handle, declaration, Symbol.linkName, Symbol.call, Symbol.realm,
      Symbol.method, Symbol.vector, VectorOp.name, TextOp.name, ← String.append_assoc, String.reduceAppend]
    simp only [String.append_assoc, String.reduceAppend]
  | primitive p =>
    simp only [lines, spelled, primitiveLines, vectorLines_value, declaration, Primitive.cOptionType, Symbol.linkName,
      Symbol.call, Symbol.realm, Symbol.vector, VectorOp.name, ← String.append_assoc, String.reduceAppend]
    simp only [String.append_assoc, String.reduceAppend]

/-- How many functions there are. -/
def count : Kind → Nat
  | named _ => 9
  | primitive _ => 8

/-- The header has one line for a type, and then one for each function that it is for, word for word. -/
structure Declares (k : Kind) : Prop where
  spelled : linesOf k.text = k.spelled
  lines : ∃ typedef declarations, linesOf k.text = typedef :: declarations ∧
    "typedef ".toList <+: typedef.toList ∧ declared? typedef = none ∧
    declarations.map declared? = k.symbols.map fun s => some s.linkName
  count : k.symbols.length = k.count
  functions : functions k.text = k.symbols.map Symbol.linkName
  distinct : (Header.functions k.text).Nodup

variable {k k' : Kind} {s : Symbol}

theorem mem_symbols (mem : s ∈ k.symbols) :
    s = .method k.element TextOp.free.name ∨ ∃ op, s = .vector k.element op := by
  cases k with
  | named type =>
    rcases List.mem_cons.mp mem with rfl | mem
    · exact .inl rfl
    · obtain ⟨op, -, rfl⟩ := List.mem_map.mp mem
      exact .inr ⟨op, rfl⟩
  | primitive p =>
    obtain ⟨op, -, rfl⟩ := List.mem_map.mp mem
    exact .inr ⟨op, rfl⟩

theorem symbols_simple (mem : s ∈ k.symbols) : '$' ∉ s.op.toList := by
  rcases mem_symbols mem with rfl | ⟨op, rfl⟩
  · exact TextOp.free.name_simple
  · exact op.name_simple

theorem method_ne_vector (e e' : String) (op : VectorOp) : Symbol.method e TextOp.free.name ≠ .vector e' op := by
  intro same
  have name : TextOp.free.name = op.name := congrArg Symbol.op same
  revert name
  cases op <;> decide

theorem vector_eq {e e' : String} {op op' : VectorOp} (same : Symbol.vector e op = .vector e' op') :
    e = e' ∧ op = op' :=
  (Symbol.vector_linkName e e' op op').mp (congrArg Symbol.linkName same)

/-- A function is for elements of one name. -/
theorem element_eq (mem : s ∈ k.symbols) (mem' : s ∈ k'.symbols) : k.element = k'.element := by
  rcases mem_symbols mem with rfl | ⟨op, rfl⟩
  · rcases mem_symbols mem' with same | ⟨op', same⟩
    · exact congrArg Symbol.owner same
    · exact absurd same (method_ne_vector _ _ _)
  · rcases mem_symbols mem' with same | ⟨op', same⟩
    · exact absurd same.symm (method_ne_vector _ _ _)
    · exact (vector_eq same).1

theorem nodup_linkNames (k : Kind) : (k.symbols.map Symbol.linkName).Nodup := by
  have vectors (e : String) : (VectorOp.all.map (Symbol.vector e)).Nodup :=
    List.Nodup.map (fun _ _ same => (vector_eq same).2) (by decide)
  have symbols : k.symbols.Nodup := by
    cases k with
    | named type =>
      refine List.nodup_cons.mpr ⟨fun mem => ?_, vectors type⟩
      obtain ⟨op, -, same⟩ := List.mem_map.mp mem
      exact method_ne_vector _ _ _ same.symm
    | primitive p => exact vectors p.name
  exact symbols.map_on fun s mem s' mem' same =>
    Symbol.linkName_injective (symbols_simple mem) (symbols_simple mem') same

/-- What the lines of a header tell, if the first one is for a type and each of the others for a function. -/
theorem Declares.of_lines {typedef : String} {declarations : List String} (shape : k.lines = typedef :: declarations)
    (type : "typedef ".toList <+: typedef.toList) (plain : Unbroken typedef)
    (inside : ∀ l ∈ declarations, '\n' ∉ l.toList)
    (all : declarations.map declared? = k.symbols.map fun s => some s.linkName) (count : k.symbols.length = k.count) :
    k.Declares := by
  have nothing : declared? typedef = none := if_neg fun mem => (plain _ mem).1 rfl
  have read : linesOf k.text = typedef :: declarations := by
    rw [text, shape, linesOf_render]
    exact List.forall_mem_cons.mpr ⟨fun mem => (plain _ mem).2 rfl, inside⟩
  have functions : Header.functions k.text = k.symbols.map Symbol.linkName := by
    calc Header.functions k.text = declarations.filterMap declared? := by
          rw [Header.functions, read, List.filterMap_cons_none nothing]
      _ = (declarations.map declared?).filterMap id := by
          rw [List.filterMap_map]
          rfl
      _ = (k.symbols.map fun s => some s.linkName).filterMap id := by rw [all]
      _ = k.symbols.map Symbol.linkName := by
          rw [List.filterMap_map]
          exact congrFun List.filterMap_eq_map k.symbols
  have spelled : linesOf k.text = k.spelled := by rw [read, ← shape, lines_eq_spelled]
  refine ⟨spelled, ⟨typedef, declarations, read, type, nothing, all⟩, count, functions, ?_⟩
  rw [functions]
  exact nodup_linkNames k

theorem declares (ok : Identifier k.element) : k.Declares := by
  cases k with
  | named type =>
    have ok : Identifier type := ok
    have method : Identifier (Symbol.method type TextOp.free.name).op := by
      show Identifier TextOp.free.name
      decide
    refine .of_lines (k := .named type) rfl ?_ ?_ ?_ ?_ rfl
    · simp
    · have name := ok.unbroken
      have first : Unbroken ("typedef struct " ++ type) := .append (by decide) name
      exact ((first.append (by decide)).append name).append (by decide)
    · refine List.forall_mem_cons.mpr ⟨?_, vectorLines_inside ok .handle⟩
      exact declaration_line (s := .method type TextOp.free.name) ok method (by decide) (by decide)
    · rw [List.map_cons, vectorLines_declared ok .handle,
        declared?_of_identifiers (s := .method type TextOp.free.name) ok method (by decide)]
      rfl
  | primitive p =>
    have ok : Identifier p.name := ok
    refine .of_lines (k := .primitive p) rfl ?_ ?_ (vectorLines_inside ok (.value p)) ?_ rfl
    · simp
    · have option := unbroken_cOptionType p
      have first : Unbroken ("typedef struct " ++ p.cOptionType) := .append (by decide) option
      have fields : Unbroken ("typedef struct " ++ p.cOptionType ++ " \x7b bool is_some; " ++ p.cType) :=
        (first.append (by decide)).append (unbroken_cType p)
      exact ((fields.append (by decide)).append option).append (by decide)
    · rw [vectorLines_declared ok (.value p)]
      rfl

end Kind

end Header

/-- Link names tell symbols apart, as long as their operations are free of separators, and a header of a type or
    a primitive declares each function that it is for, once, and none that another header declares. -/
theorem boundary_names_unique :
    (∀ s s' : Symbol, '$' ∉ s.op.toList → '$' ∉ s'.op.toList → s.linkName = s'.linkName →
      s.owner = s'.owner ∧ s.op = s'.op) ∧
    (∀ op : VectorOp, '$' ∉ op.name.toList) ∧ (∀ op : TextOp, '$' ∉ op.name.toList) ∧
    (∀ e e' op op', (Symbol.vector e op).linkName = (Symbol.vector e' op').linkName ↔ e = e' ∧ op = op') ∧
    (∀ k : Header.Kind, Header.Identifier k.element → k.Declares) ∧
    ∀ k k' : Header.Kind, Header.Identifier k.element → Header.Identifier k'.element → k.element ≠ k'.element →
      (Header.functions k.text).Disjoint (Header.functions k'.text) := by
  refine ⟨fun s s' simple simple' same => ?_, VectorOp.name_simple, TextOp.name_simple, Symbol.vector_linkName,
    fun k ok => Header.Kind.declares ok, fun k k' ok ok' other => ?_⟩
  · obtain rfl := Symbol.linkName_injective simple simple' same
    exact ⟨rfl, rfl⟩
  · rw [(Header.Kind.declares ok).functions, (Header.Kind.declares ok').functions]
    intro name mem mem'
    obtain ⟨s, hs, rfl⟩ := List.mem_map.mp mem
    obtain ⟨s', hs', same⟩ := List.mem_map.mp mem'
    have same := Symbol.linkName_injective (Header.Kind.symbols_simple hs') (Header.Kind.symbols_simple hs) same
    rw [same] at hs'
    exact other (Header.Kind.element_eq hs hs')

/-- For example, the type `Vec_u8` has a name that is an owner of vectors' functions too. -/
theorem boundary_names_unique_vec_u8 :
    (Header.functions (Header.Kind.named "Vec_u8").text).length = 9 ∧
      (Header.functions (Header.Kind.named "Vec_u8").text).Disjoint
        (Header.functions (Header.Kind.primitive .u8).text) ∧
      (Symbol.method "a$b" "c").linkName ≠ (Symbol.method "a" "c").linkName := by
  obtain ⟨names, -, -, -, declares, disjoint⟩ := boundary_names_unique
  have ok : Header.Identifier (Header.Kind.named "Vec_u8").element := show Header.Identifier "Vec_u8" by decide
  refine ⟨?_, disjoint _ _ ok (Header.identifier_primitive .u8) (by decide), fun same => ?_⟩
  · rw [(declares _ ok).functions]
    rfl
  · have owner := (names (.method "a$b" "c") (.method "a" "c") (by decide) (by decide) same).1
    revert owner
    decide

end Custody
