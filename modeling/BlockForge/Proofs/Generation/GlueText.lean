import BlockForge.Proofs.Generation.Agreement
import BlockForge.Proofs.Generation.Naming

/-!
# Reading glue code

The body of glue code is read back line by line: each line assigns an expression
to a local variable, and the last one builds the call.  The declaration is read
back at the wrapper function.  `assignments_body`, `callArguments?_body` and
`wrapperParameters?_declaration` say what the readers find in the texts of named
variables: no name can end a line, an expression or a list too early.

`run_glue_body` says what the body of a block is.  `run_parameters_line_up` says
when the parameters of the wrapper function go with the arguments of the call:
always but for a block whose only variable has no name.
-/

namespace BlockForge

theorem Text.IsName.notMem {text : String} (isName : Text.IsName text)
    (char : Char) (other : Text.isNameChar char = false) : char ∉ text.toList := by
  intro member
  rw [isName char member] at other
  cases other

/-- An expression that reads an argument is a text on one line around its
name. -/
theorem Role.exists_accessor_eq (role : Role) :
    ∃ opening closing : String,
      (∀ parameter, role.accessor parameter = opening ++ parameter ++ closing) ∧
        '\n' ∉ opening.toList ∧ '\n' ∉ closing.toList := by
  cases role <;> refine ⟨_, _, fun _ => rfl, ?_, ?_⟩ <;> decide +kernel

namespace Glue

/-! ## Readers -/

/-- What a line assigns: a local variable and an expression. -/
def assignment? : List Char → Option (String × String)
  | 'v' :: 'a' :: 'r' :: ' ' :: line =>
    (splitOnce " = ".toList line).map fun sides =>
      (String.ofList sides.1, String.ofList sides.2)
  | _ => none

/-- The assignments of a text, line by line. -/
def assignments (text : List Char) : List (String × String) :=
  (text.splitOn '\n').filterMap assignment?

/-- The list that follows an opening text, up to the next closing parenthesis,
split at the commas. -/
def listAfter? (opening text : List Char) : Option (List String) := do
  let (_, inside) ← splitOnce opening text
  let (list, _) ← splitOnce [')'] inside
  return (list.splitOn ',').map String.ofList

/-- The parameters of the function that a declaration assigns. -/
def wrapperParameters? (declaration : String) : Option (List String) :=
  listAfter? "= async function(".toList declaration.toList

/-- The arguments of the call that the last assignment of a body builds.  Empty
parentheses hold no argument. -/
def callArguments? (body : String) : Option (List String) := do
  let (_, expression) ← (assignments body.toList).getLast?
  let list ← listAfter? ['('] expression.toList
  return if list = [""] then [] else list

/-! ## Lists in parentheses -/

theorem notMem_intercalate {char : Char} {separator : String}
    (notSeparator : char ∉ separator.toList) {pieces : List String}
    (absent : ∀ piece ∈ pieces, char ∉ piece.toList) :
    char ∉ (separator.intercalate pieces).toList := by
  induction pieces with
  | nil => exact List.not_mem_nil
  | cons piece pieces pieces_ih =>
      rw [List.forall_mem_cons] at absent
      by_cases last : pieces = []
      · rw [last, String.intercalate_singleton]
        exact absent.1
      · rw [String.intercalate_cons_of_ne_nil last, String.toList_append,
          String.toList_append, List.mem_append, List.mem_append, not_or, not_or]
        exact ⟨⟨absent.1, notSeparator⟩, pieces_ih absent.2⟩

theorem listAfter?_append {mark : Char} {before : List Char}
    (absent : mark ∉ before) (rest after : List Char) {pieces : List String}
    (sealed : ∀ piece ∈ pieces, ')' ∉ piece.toList)
    (single : ∀ piece ∈ pieces, ',' ∉ piece.toList) :
    listAfter? (mark :: rest)
        (before ++ mark :: (rest ++ ((",".intercalate pieces).toList ++
          ')' :: after))) =
      some (if pieces = [] then [""] else pieces) := by
  have unclosed : ')' ∉ (",".intercalate pieces).toList :=
    notMem_intercalate (by decide) sealed
  have closes := splitOnce_append unclosed [] after
  rw [List.nil_append] at closes
  have list : (",".intercalate pieces).toList.splitOn ',' =
      if pieces = [] then [[]] else pieces.map String.toList := by
    split_ifs with none
    · rw [none]
      rfl
    · rw [String.toList_intercalate]
      exact List.splitOn_intercalate ',' (by simpa using single)
        (by simpa using none)
  rw [listAfter?, splitOnce_append absent]
  simp only [Option.bind_eq_bind, Option.bind_some, closes, list,
    Option.pure_def]
  split_ifs <;> simp [Function.comp_def]

/-! ## The body -/

/-- The expression that builds the call. -/
def callExpression (name : String) (arguments : List Variable)
    (connections : Connections) : String :=
  "'" ++ name ++ "(" ++ ",".intercalate (arguments.map Variable.argument) ++ ")"
    ++ (if connections = .left then "';" else ";\\n';")

/-- What a body does with the call. -/
def returnLines (connections : Connections) : String :=
  if connections = .left then
    "return [code, Blockly.JavaScript.ORDER_NONE];\n"
  else "return code;"

theorem toList_callText (name : String) (arguments : List Variable)
    (connections : Connections) :
    (callText name arguments connections).toList =
      ("var " ++ "code" ++ " = " ++
          callExpression name arguments connections).toList ++
        '\n' :: (returnLines connections).toList := by
  have opening : "var code = '" = "var " ++ "code" ++ " = " ++ "'" := by
    decide +kernel
  have closing : (returnText connections).toList =
      (if connections = .left then "';" else ";\\n';").toList ++
        '\n' :: (returnLines connections).toList := by
    cases connections <;> decide +kernel
  -- Stated for any texts: the pieces need not be looked at to regroup them.
  have regroup : ∀ {opens first second closes third : String}
      {rest : List Char}, opens = first ++ second →
      closes.toList = third.toList ++ '\n' :: rest → ∀ a b c d,
        (opens ++ a ++ b ++ c ++ d ++ closes).toList =
          (first ++ (second ++ a ++ b ++ c ++ d ++ third)).toList ++
            '\n' :: rest := by
    rintro _ first second closes third rest rfl ends a b c d
    simp only [String.toList_append, ends, List.append_assoc]
  exact regroup opening closing name "(" _ ")"

theorem assignment?_eq {target : String} (isName : Text.IsName target)
    (expression : String) :
    assignment? ("var " ++ target ++ " = " ++ expression).toList =
      some (target, expression) := by
  have found := splitOnce_append (isName.notMem ' ' (by decide))
    ['=', ' '] expression.toList
  rw [List.cons_append, List.singleton_append] at found
  simp [assignment?, found]

theorem assignments_append {target expression : String}
    (isName : Text.IsName target) (single : '\n' ∉ expression.toList)
    (rest : List Char) :
    assignments (("var " ++ target ++ " = " ++ expression).toList ++
        '\n' :: rest) =
      (target, expression) :: assignments rest := by
  have line : '\n' ∉ ("var " ++ target ++ " = " ++ expression).toList := by
    simp [single, isName.notMem '\n' (by decide)]
  rw [assignments, List.splitOn_append_cons_self_of_not_mem line,
    List.filterMap_cons, assignment?_eq isName]
  rfl

theorem statement_eq (declared : Variable) :
    declared.statement.toList =
      ("var " ++ declared.localName ++ " = " ++
          (declared.role.accessor declared.parameter ++ ";")).toList ++
        ['\n'] := by
  simp [Variable.statement]

theorem lineFeed_notMem_accessor {declared : Variable}
    (isName : Text.IsName declared.parameter) :
    '\n' ∉ (declared.role.accessor declared.parameter ++ ";").toList := by
  rcases declared.role.exists_accessor_eq with
    ⟨opening, closing, accessor, opens, closes⟩
  have absent := isName.notMem '\n' (by decide)
  simp [accessor, absent, opens, closes]

theorem assignments_statements {arguments : List Variable}
    (named : AllNamed arguments) (rest : List Char) :
    assignments ((String.join (arguments.map Variable.statement)).toList ++
        rest) =
      arguments.map (fun declared => (declared.localName,
        declared.role.accessor declared.parameter ++ ";")) ++
        assignments rest := by
  induction arguments with
  | nil => rfl
  | cons declared arguments arguments_ih =>
      rw [AllNamed, List.forall_mem_cons] at named
      rw [List.map_cons, String.join_cons, String.toList_append, statement_eq,
        List.append_assoc, List.append_assoc, List.singleton_append,
        assignments_append (Variable.isName_localName named.1)
          (lineFeed_notMem_accessor named.1),
        arguments_ih named.2, List.map_cons, List.cons_append]

theorem notMem_argument (char : Char) (other : Text.isNameChar char = false)
    (unquoted : char ∉ "\"' +".toList) {arguments : List Variable}
    (named : AllNamed arguments) :
    ∀ piece ∈ arguments.map Variable.argument, char ∉ piece.toList := by
  intro piece member
  rcases List.mem_map.mp member with ⟨declared, inArguments, rfl⟩
  have absent :=
    (Variable.isName_localName (named declared inArguments)).notMem char other
  simp at unquoted
  simp [Variable.argument, absent, unquoted]

theorem lineFeed_notMem_callExpression {arguments : List Variable}
    (named : AllNamed arguments) {name : String} (isName : Text.IsName name)
    (connections : Connections) :
    '\n' ∉ (callExpression name arguments connections).toList := by
  have list : '\n' ∉
      (",".intercalate (arguments.map Variable.argument)).toList :=
    notMem_intercalate (by decide)
      (notMem_argument '\n' (by decide) (by decide) named)
  have inName := isName.notMem '\n' (by decide)
  unfold callExpression
  simp only [String.toList_append, List.mem_append, inName, list, or_false]
  split_ifs <;> decide

/-- What the body of named variables assigns, in order: each variable, then the
call. -/
theorem assignments_body {arguments : List Variable} (named : AllNamed arguments)
    {name : String} (isName : Text.IsName name) (connections : Connections) :
    assignments (String.join (arguments.map Variable.statement) ++
        callText name arguments connections).toList =
      arguments.map (fun declared => (declared.localName,
        declared.role.accessor declared.parameter ++ ";")) ++
        [("code", callExpression name arguments connections)] := by
  have ends : assignments (returnLines connections).toList = [] := by
    unfold returnLines
    split_ifs <;> decide +kernel
  rw [String.toList_append, assignments_statements named, toList_callText,
    assignments_append (by decide)
      (lineFeed_notMem_callExpression named isName connections), ends]

/-- The arguments of the call are read back from a body. -/
theorem callArguments?_body {arguments : List Variable}
    (named : AllNamed arguments) {name : String} (isName : Text.IsName name)
    (connections : Connections) :
    callArguments? (String.join (arguments.map Variable.statement) ++
        callText name arguments connections) =
      some (arguments.map Variable.argument) := by
  have absent : '(' ∉ '\'' :: name.toList := by
    simp [isName.notMem '(' (by decide)]
  have list := listAfter?_append absent []
    (if connections = .left then "';" else ";\\n';").toList
    (notMem_argument ')' (by decide) (by decide) named)
    (notMem_argument ',' (by decide) (by decide) named)
  have expression : (callExpression name arguments connections).toList =
      '\'' :: name.toList ++ '(' :: ([] ++
        ((",".intercalate (arguments.map Variable.argument)).toList ++
          ')' :: (if connections = .left then "';" else ";\\n';").toList)) := by
    simp [callExpression]
  rw [callArguments?, assignments_body named isName, List.getLast?_concat]
  simp only [Option.bind_eq_bind, Option.bind_some, expression]
  rw [list]
  cases arguments with
  | nil => rfl
  | cons declared arguments =>
      have quoted : declared.argument ≠ "" := by simp [Variable.argument]
      simp [quoted]

/-! ## The wrapper function -/

/-- The parameters that stand before the callback: all, unless there is a single
one without name. -/
def shownParameters (arguments : List Variable) : List String :=
  if arguments.map Variable.parameter = [""] then []
  else arguments.map Variable.parameter

theorem intercalate_eq_empty_iff {separator : String} (visible : separator ≠ "")
    (pieces : List String) :
    separator.intercalate pieces = "" ↔ pieces = [] ∨ pieces = [""] := by
  cases pieces with
  | nil => simp
  | cons piece pieces =>
      by_cases last : pieces = []
      · simp [last]
      · simp [String.intercalate_cons_of_ne_nil last, visible, last]

theorem parameterText_append (arguments : List Variable) :
    parameterText arguments ++ "callback" =
      ",".intercalate (shownParameters arguments ++ ["callback"]) := by
  unfold parameterText shownParameters
  generalize arguments.map Variable.parameter = parameters
  have empty : ",".intercalate parameters = "" ↔
      parameters = [] ∨ parameters = [""] :=
    intercalate_eq_empty_iff (by decide) parameters
  by_cases none : parameters = []
  · simp [none]
  · by_cases nameless : parameters = [""]
    · simp [nameless]
    · rw [if_neg nameless, if_neg (by simp [empty, none, nameless]),
        String.intercalate_append_of_ne_nil none (by simp),
        String.intercalate_singleton]

/-- The wrapper function in a declaration: before it comes no equals sign but
its own. -/
theorem exists_toList_declarationText (name : String)
    (arguments : List Variable) :
    ∃ after, (declarationText name arguments).toList =
      ("\nfunction init" ++ name ++ "(interpreter, globalObject)\n\x7b\n" ++
          "  var wrapper ").toList ++
        '=' :: (" async function(".toList ++
          ((parameterText arguments ++ "callback").toList ++ ')' :: after)) := by
  have opening : "  var wrapper = async function(".toList =
      "  var wrapper ".toList ++ '=' :: " async function(".toList := by
    decide +kernel
  have closing : "callback)\n  \x7b\x7d;\n\n".toList =
      "callback".toList ++ ')' :: "\n  \x7b\x7d;\n\n".toList := by
    decide +kernel
  -- Again for any texts, with a variable for each piece of the declaration.
  have regroup : ∀ {opens closes first third : String}
      {second fourth : List Char}, opens.toList = first.toList ++ '=' :: second →
      closes.toList = third.toList ++ ')' :: fourth →
      ∀ a b c d e f g h i j k l m,
        (a ++ b ++ c ++ opens ++ d ++ closes ++ e ++ f ++ g ++ h ++ i ++ j ++
            k ++ l ++ m).toList =
          (a ++ b ++ c ++ first).toList ++ '=' :: (second ++
            ((d ++ third).toList ++ ')' :: (fourth ++
              (e ++ f ++ g ++ h ++ i ++ j ++ k ++ l ++ m).toList))) := by
    intro opens closes first third second fourth starts ends
    intros
    simp only [String.toList_append, starts, ends, List.append_assoc,
      List.cons_append]
  exact ⟨_, regroup opening closing _ _ _ _ _ _ _ _ _ _ _ _ _⟩

theorem wrapperParameters?_declaration {arguments : List Variable}
    (named : AllNamed arguments) {name : String} (isName : Text.IsName name) :
    wrapperParameters? (declarationText name arguments) =
      some (shownParameters arguments ++ ["callback"]) := by
  have shown : ∀ piece ∈ shownParameters arguments ++ ["callback"],
      Text.IsName piece := by
    intro piece member
    rcases List.mem_append.mp member with inParameters | callback
    · unfold shownParameters at inParameters
      split_ifs at inParameters
      · cases inParameters
      · rcases List.mem_map.mp inParameters with ⟨declared, inArguments, rfl⟩
        exact named declared inArguments
    · rw [List.mem_singleton.mp callback]
      decide
  have absent : '=' ∉ ("\nfunction init" ++ name ++
      "(interpreter, globalObject)\n\x7b\n" ++ "  var wrapper ").toList := by
    simp [isName.notMem '=' (by decide)]
  rcases exists_toList_declarationText name arguments with ⟨after, text⟩
  have list := listAfter?_append absent " async function(".toList after
    (fun piece member => (shown piece member).notMem ')' (by decide))
    (fun piece member => (shown piece member).notMem ',' (by decide))
  rw [if_neg (by simp)] at list
  rw [wrapperParameters?, text, parameterText_append]
  exact list

/-! ## The glue code of a block -/

/-- The parameter and the local variable that a node is declared with, if its
kind has a variable. -/
def declaredNames? (tree : BlockTree) (node : NodeId) :
    Option (String × String) := do
  let role ← (tree.kind node).bind Role.ofKind?
  let parameter := Text.cleanName (tree.text node role.nameKey)
  return (parameter, role.word ++ "_" ++ Text.lowerVisible parameter)

theorem declaredNames?_eq (tree : BlockTree) (node : NodeId) :
    declaredNames? tree node = (variableOf? tree node).map fun declared =>
      (declared.parameter, declared.localName) := by
  unfold declaredNames? variableOf?
  cases (tree.kind node).bind Role.ofKind? <;> rfl

/-- The body of the glue code of a block reads the arguments of the block one
after the other and then calls the block with them. -/
structure ReadsArguments (tree : BlockTree) (root : NodeId) (glue : Glue) :
    Prop where
  /-- Item by item, first the item is declared and then each of its fields. -/
  arguments_eq : glue.arguments =
    ((tree.chain root Slot.inputs).flatMap fun item =>
      item :: tree.chain item Slot.fields).filterMap (variableOf? tree)
  /-- The parameter is the cleaned name; the local variable is its lower-case
  form behind a word for the kind. -/
  names_eq : (glue.arguments.map fun declared =>
      (declared.parameter, declared.localName)) =
    ((tree.chain root Slot.inputs).flatMap fun item =>
      item :: tree.chain item Slot.fields).filterMap (declaredNames? tree)
  /-- The body is made of one statement for each variable and of the call. -/
  body_eq : glue.body =
    String.join (glue.arguments.map fun declared =>
        "var " ++ declared.localName ++ " = " ++
          declared.role.accessor declared.parameter ++ ";\n") ++
      ("var code = '" ++ Text.cleanName (tree.text root FieldKey.blockName) ++
        "(" ++ ",".intercalate (glue.arguments.map fun declared =>
          "\" ' + " ++ declared.localName ++ " + ' \"") ++ ")" ++
        returnText
          (Connections.ofOption (tree.text root FieldKey.connections)))
  /-- Read line by line, the call comes after the last variable. -/
  assignments_eq : ∃ expression,
    assignments glue.body.toList =
      glue.arguments.map (fun declared => (declared.localName,
        declared.role.accessor declared.parameter ++ ";")) ++
        [("code", expression)]
  /-- The call has one argument for each variable. -/
  callArguments_eq : callArguments? glue.body =
    some (glue.arguments.map Variable.argument)

theorem readsArguments {tree : BlockTree} {rank : NodeId → Nat}
    (coherent : tree.Coherent rank) {root : NodeId}
    (creator : tree.kind root = some .blockCreator) :
    ∃ glue, generate? tree root = some glue ∧ ReadsArguments tree root glue := by
  have generates := generate?_eq coherent creator
  have named := generate?_named generates
  refine ⟨_, generates, ?_⟩
  exact
    { arguments_eq := rfl
      names_eq := by
        rw [funext (declaredNames?_eq tree)]
        exact List.map_filterMap
      body_eq := rfl
      assignments_eq := ⟨_, assignments_body named.arguments named.name _⟩
      callArguments_eq := callArguments?_body named.arguments named.name _ }

theorem wrapperParameters?_eq_iff {glue : Glue} (named : glue.Named) :
    wrapperParameters? glue.declaration =
        some (glue.arguments.map Variable.parameter ++ ["callback"]) ↔
      glue.arguments.map Variable.parameter ≠ [""] := by
  rw [named.declaration_eq, wrapperParameters?_declaration named.arguments
    named.name, shownParameters]
  split_ifs with nameless <;> simp [nameless]

theorem wrapperParameters?_of_nameless {glue : Glue} (named : glue.Named)
    (nameless : glue.arguments.map Variable.parameter = [""]) :
    wrapperParameters? glue.declaration = some ["callback"] := by
  rw [named.declaration_eq, wrapperParameters?_declaration named.arguments
    named.name, shownParameters, if_pos nameless, List.nil_append]

end Glue

namespace Workspace

theorem exists_glue_run (edits : List Edit) {root : NodeId}
    (creator : (run edits).kind? root = some .blockCreator) :
    ∃ glue, Glue.generate? (run edits).tree root = some glue ∧
      glue.Named ∧ Glue.ReadsArguments (run edits).tree root glue := by
  rcases exists_coherent_run edits with ⟨rank, coherent⟩
  rcases Glue.readsArguments coherent creator with ⟨glue, generates, reads⟩
  exact ⟨glue, generates, Glue.generate?_named generates, reads⟩

/-- Whatever edits build a workspace, the body of the glue code of a block reads
its arguments in order, and nothing else, before it builds the call. -/
theorem run_glue_body (edits : List Edit) {root : NodeId}
    (creator : (run edits).kind? root = some .blockCreator) :
    ∃ glue, Glue.generate? (run edits).tree root = some glue ∧
      Glue.ReadsArguments (run edits).tree root glue := by
  rcases exists_glue_run edits creator with ⟨glue, generates, _, reads⟩
  exact ⟨glue, generates, reads⟩

theorem run_glue_body_sample :
    (run sampleEdits).kind? 0 = some .blockCreator ∧
      ∃ glue, Glue.generate? (run sampleEdits).tree 0 = some glue ∧
        Glue.ReadsArguments (run sampleEdits).tree 0 glue :=
  ⟨kind?_run_sampleEdits, run_glue_body sampleEdits kind?_run_sampleEdits⟩

/-- Whatever edits build a workspace, the call of a block has one argument for
each variable.  The parameters of the wrapper function are the names of the
variables in the same order, and the callback after them, unless there is a
single variable and it has no name: then there is the callback only. -/
theorem run_parameters_line_up (edits : List Edit) {root : NodeId}
    (creator : (run edits).kind? root = some .blockCreator) :
    ∃ glue, Glue.generate? (run edits).tree root = some glue ∧
      Glue.callArguments? glue.body =
        some (glue.arguments.map Variable.argument) ∧
      (Glue.wrapperParameters? glue.declaration =
          some (glue.arguments.map Variable.parameter ++ ["callback"]) ↔
        glue.arguments.map Variable.parameter ≠ [""]) ∧
      (glue.arguments.map Variable.parameter = [""] →
        Glue.wrapperParameters? glue.declaration = some ["callback"]) := by
  rcases exists_glue_run edits creator with ⟨glue, generates, named, reads⟩
  exact ⟨glue, generates, reads.callArguments_eq,
    Glue.wrapperParameters?_eq_iff named,
    Glue.wrapperParameters?_of_nameless named⟩

theorem run_parameters_line_up_sample :
    (run sampleEdits).kind? 0 = some .blockCreator ∧
      ∃ glue, Glue.generate? (run sampleEdits).tree 0 = some glue ∧
        Glue.callArguments? glue.body =
          some (glue.arguments.map Variable.argument) ∧
        (Glue.wrapperParameters? glue.declaration =
            some (glue.arguments.map Variable.parameter ++ ["callback"]) ↔
          glue.arguments.map Variable.parameter ≠ [""]) ∧
        (glue.arguments.map Variable.parameter = [""] →
          Glue.wrapperParameters? glue.declaration = some ["callback"]) :=
  ⟨kind?_run_sampleEdits,
    run_parameters_line_up sampleEdits kind?_run_sampleEdits⟩

/-- A block whose only field has no name. -/
def namelessEdits : List Edit :=
  [.addNode .blockCreator, .addNode .textInput,
    .setField 1 FieldKey.fieldName (.text ""), .attach 0 "INPUTS" 1]

/-- The wrapper function of a block whose only variable has no name lacks the
parameter for the argument of the call. -/
theorem run_parameters_misaligned :
    (run namelessEdits).kind? 0 = some .blockCreator ∧
      ∃ glue, Glue.generate? (run namelessEdits).tree 0 = some glue ∧
        glue.arguments.map Variable.parameter = [""] ∧
        Glue.callArguments? glue.body = some ["\" ' + text_ + ' \""] ∧
        Glue.wrapperParameters? glue.declaration = some ["callback"] ∧
        Glue.wrapperParameters? glue.declaration ≠
          some (glue.arguments.map Variable.parameter ++ ["callback"]) := by
  have creator : (run namelessEdits).kind? 0 = some .blockCreator := by
    decide +kernel
  rcases exists_glue_run namelessEdits creator with
    ⟨glue, generates, named, reads⟩
  have declared : glue.arguments = [⟨.text, ""⟩] := by
    rw [reads.arguments_eq]
    decide +kernel
  have nameless : glue.arguments.map Variable.parameter = [""] := by
    rw [declared]
    rfl
  refine ⟨creator, glue, generates, nameless, ?_,
    Glue.wrapperParameters?_of_nameless named nameless, ?_⟩
  · rw [reads.callArguments_eq, declared]
    decide +kernel
  · rw [Ne, Glue.wrapperParameters?_eq_iff named, not_not]
    exact nameless

end Workspace

end BlockForge
