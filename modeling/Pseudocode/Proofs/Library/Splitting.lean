import Pseudocode.Proofs.CallEffect
import Pseudocode.Proofs.Inversion
import Pseudocode.Proofs.Library.Factorial

set_option autoImplicit false

namespace Pseudocode

namespace Library

section Trees

def setTo (target : String) (value : Node) : Node :=
  .named .assign (some target) [value]

def literal (text : String) : Node :=
  .named .string (some text) []

def lengthOf (text : String) : Node :=
  .named .call (some "sizeof") [name text]

def emptyList : Node :=
  setTo "l" (.of .list [])

def takeCharacter : Node :=
  .arithmetic .power (name "str") (name "i")

def overText (body : List Node) : Node :=
  .named .forLoop (some "i") [numeral 0.0, lengthOf "str", numeral 1.0, .block body]

def leftStep : Node :=
  .sign .plus (numeral 1.0)

def addPiece : Node :=
  setTo "l" (.arithmetic .add (name "l") (name "tmp"))

def clearPiece : Node :=
  setTo "tmp" (literal "")

def refuseLong : Node :=
  .of .ifThen [.comparison .greater (lengthOf "sep") (numeral 1.0), .block [.of .return [numeral 0.0]]]

def readCharacter : List Node :=
  [setTo "c" takeCharacter,
    .of .ifElse [.comparison .equal (name "c") (name "sep"), .block [addPiece, clearPiece],
      .block [setTo "tmp" (.arithmetic .add (name "tmp") (name "c"))]]]

def listMaker (function : String) (parameters : List String) (body : List Node) (serial : Nat) : Function :=
  ⟨serial, some function, .of .parameters (parameters.map fun name => .named .parameter (some name) []),
    .block body, name "l"⟩

def toListFunction : Nat → Function :=
  listMaker "toList" ["str"]
    [emptyList, overText [setTo "l" (.arithmetic .add (name "l") takeCharacter)], leftStep]

def splitBody : List Node :=
  [refuseLong, emptyList, clearPiece, overText readCharacter, leftStep, addPiece]

def splitFunction : Nat → Function :=
  listMaker "split" ["str", "sep"] splitBody

def definition (f : Function) : Node :=
  .named .define f.name [f.parameters, f.body, f.result]

theorem program_file {parts : List String} {texts : List (List Char)} (spelled : Spelled parts texts)
    (clean : ∀ text ∈ texts, clean text = true) :
    Eval.program (file parts) = (Node.ofTokens (texts.map tokensOf).flatten).mapError .parse := by
  rw [Eval.program, scan_file (scanned_of_spelled spelled clean)]

set_option maxRecDepth 4000 in
theorem spelled_strings : ∃ texts, Spelled Strings.parts texts ∧
    Node.ofTokens (texts.map tokensOf).flatten =
      .ok (.block [definition (toListFunction 0), definition (splitFunction 0)]) ∧
    ∀ text ∈ texts, clean text = true ∧ text.all (decide <| Json.IsPlain ·) = true := by
  refine ⟨_, .cons rfl (.cons rfl .nil), rfl, ?_⟩
  decide +kernel

theorem program_strings :
    Eval.program strings = .ok (.block [definition (toListFunction 0), definition (splitFunction 0)]) := by
  obtain ⟨_, spelled, parsed, all⟩ := spelled_strings
  rw [strings, program_file spelled fun text member => (all text member).1, parsed]
  rfl

theorem readText_strings : (disk ["home"]).readText (Path.join folder "_string_") = .ok strings := by
  obtain ⟨_, spelled, _, all⟩ := spelled_strings
  exact readText_library (by decide)
    (plain_file (plain_of_spelled spelled fun text member => (all text member).2)) rfl

end Trees

section Body

open Eval Exec

variable {around : Surroundings} {m after : Machine} {value : Value} {str : String} {k : Nat}

theorem eval_lengthOf_eq_ok {text : String} (ran : eval around (k + 2) (lengthOf text) m = .ok (value, after)) :
    after.scopes = m.scopes ∧ after.returned = m.returned := by
  have ran : call (eval around (k + 1)) around.limit (lengthOf text) m = .ok (value, after) := ran
  obtain ⟨_, _, middle, _, evaluated, applied⟩ := call_eq_ok ran
  -- The argument is a name, which is looked up on the caller's machine.
  obtain ⟨_, _, looked, rest⟩ := bind_eq_ok.mp evaluated
  cases rest
  obtain ⟨_, rfl⟩ := lookup_eq_ok looked
  exact (apply_effect applied).2

theorem eval_refuseLong_eq_ok (ran : eval around (k + 5) refuseLong m = .ok (value, after)) :
    after.returned = some (.number 0.0) ∨ after.scopes = m.scopes ∧ after.returned = m.returned := by
  obtain ⟨_, _, condition, ran⟩ := ifThen_eq_ok ran
  obtain ⟨⟨_, _⟩, _, evaluated, compared⟩ := bind_eq_ok.mp condition
  obtain ⟨_, _, rfl⟩ := onStore_eq_ok compared
  obtain ⟨_, length, one⟩ := operands_eq_ok evaluated
  rcases ran with returned | rfl
  · cases returned
    exact .inl rfl
  · cases one
    obtain ⟨scopes, kept⟩ := eval_lengthOf_eq_ok length
    exact .inr ⟨scopes, kept⟩

theorem takeCharacter_fails (isText : m.scopes.find? (some "str") = some (.text str)) :
    eval around (k + 2) takeCharacter m ≠ .ok (value, after) := by
  intro ran
  obtain ⟨⟨v, w⟩, _, evaluated, raised⟩ := bind_eq_ok.mp ran
  obtain ⟨_, left, _⟩ := operands_eq_ok evaluated
  obtain ⟨found, _⟩ := lookup_eq_ok left
  obtain rfl : v = .text str := Option.some.inj (found.symm.trans isText)
  -- Only a number is raised to a power.
  cases raised

theorem readCharacter_fails (isText : m.scopes.find? (some "str") = some (.text str)) (found : Value × Machine) :
    eval around (k + 4) (.block readCharacter) m ≠ .ok found := by
  intro ran
  have ran : block (eval around (k + 3)) readCharacter .empty m = .ok (found.1, found.2) := ran
  obtain ⟨_, _, assigned, _⟩ := block_cons_eq_ok ran
  obtain ⟨_, taken, _⟩ := assignment_eq_ok assigned
  exact takeCharacter_fails isText taken

theorem eval_overText_eq_ok (isText : m.scopes.find? (some "str") = some (.text str))
    (ran : eval around (k + 5) (overText readCharacter) m = .ok (value, after)) :
    after.scopes = m.scopes.set (some "i") (.number 0.0) ∧ after.returned = m.returned := by
  obtain ⟨_, _, _, second, _, _, _, startRan, finalRan, incrementRan, rounds⟩ := forLoop_eq_ok ran
  cases startRan
  cases incrementRan
  obtain ⟨scopes, returned⟩ := eval_lengthOf_eq_ok finalRan
  have kept : (second.scopes.set (some "i") (.number 0.0)).find? (some "str") = some (.text str) := by
    rw [scopes, Scopes.find?_set, if_neg (by decide), isText]
  rw [forRounds_of_failing (readCharacter_fails kept) rounds]
  exact ⟨by rw [scopes], returned⟩

theorem eval_addPiece_eq_ok {reference : Nat} {piece : String}
    (isList : m.scopes.find? (some "l") = some (.list reference))
    (isPiece : m.scopes.find? (some "tmp") = some (.text piece))
    (ran : eval around (k + 3) addPiece m = .ok (value, after)) :
    (∃ text, after.scopes.find? (some "l") = some (.text text)) ∧ after.returned = m.returned := by
  obtain ⟨_, evaluated, rfl⟩ := assignment_eq_ok ran
  obtain ⟨⟨v, w⟩, _, operandsRan, added⟩ := bind_eq_ok.mp evaluated
  obtain ⟨_, sum, rfl⟩ := onStore_eq_ok added
  obtain ⟨_, left, right⟩ := operands_eq_ok operandsRan
  obtain ⟨foundList, rfl⟩ := lookup_eq_ok left
  obtain ⟨foundPiece, rfl⟩ := lookup_eq_ok right
  obtain rfl : v = .list reference := Option.some.inj (foundList.symm.trans isList)
  obtain rfl : w = .text piece := Option.some.inj (foundPiece.symm.trans isPiece)
  -- A list and a text have no sum but that of what is shown of them.
  obtain ⟨shownList, _, sum⟩ := Outcome.bind_eq_ok.mp sum
  obtain ⟨shownPiece, _, sum⟩ := Outcome.bind_eq_ok.mp sum
  cases sum
  refine ⟨⟨shownList ++ shownPiece, ?_⟩, rfl⟩
  rw [Scopes.find?_set, if_pos rfl]

theorem block_overText_eq_ok {reference : Nat} {piece : String} {last : Value}
    (isText : m.scopes.find? (some "str") = some (.text str))
    (isList : m.scopes.find? (some "l") = some (.list reference))
    (isPiece : m.scopes.find? (some "tmp") = some (.text piece)) (clear : m.returned = none)
    (ran : block (eval around (k + 5)) [overText readCharacter, leftStep, addPiece] last m = .ok (value, after)) :
    after.returned = none ∧ ∃ text, after.scopes.find? (some "l") = some (.text text) := by
  obtain ⟨_, walked, walk, rest⟩ := block_cons_eq_ok ran
  obtain ⟨scopes, kept⟩ := eval_overText_eq_ok isText walk
  have clear : walked.returned = none := kept.trans clear
  have stepped : eval around (k + 5) leftStep walked = .ok (.number 1.0, walked) := rfl
  -- The loop has set its variable, which is neither the list nor the piece.
  have isList : walked.scopes.find? (some "l") = some (.list reference) := by
    rw [scopes, Scopes.find?_set, if_neg (by decide), isList]
  have isPiece : walked.scopes.find? (some "tmp") = some (.text piece) := by
    rw [scopes, Scopes.find?_set, if_neg (by decide), isPiece]
  rcases rest with ⟨returns, _⟩ | ⟨_, rest⟩
  · exact absurd clear returns
  rw [block_cons_ok stepped clear] at rest
  obtain ⟨_, added, addition, rest⟩ := block_cons_eq_ok rest
  obtain ⟨text, kept⟩ := eval_addPiece_eq_ok isList isPiece addition
  rcases rest with ⟨_, rfl⟩ | ⟨_, rest⟩
  · exact ⟨kept.trans clear, text⟩
  · cases rest
    exact ⟨kept.trans clear, text⟩

theorem eval_splitBody_eq_ok (isText : m.scopes.find? (some "str") = some (.text str))
    (clear : m.returned = none) (ran : eval around (k + 6) (.block splitBody) m = .ok (value, after)) :
    after.returned = some (.number 0.0) ∨
      after.returned = none ∧ ∃ text, after.scopes.find? (some "l") = some (.text text) := by
  have ran : block (eval around (k + 5)) splitBody .empty m = .ok (value, after) := ran
  obtain ⟨_, measured, refused, rest⟩ := block_cons_eq_ok ran
  rcases eval_refuseLong_eq_ok refused with zero | ⟨scopes, kept⟩
  · rcases rest with ⟨_, rfl⟩ | ⟨goesOn, _⟩
    · exact .inl zero
    · cases goesOn.symm.trans zero
  have clear : measured.returned = none := kept.trans clear
  rcases rest with ⟨returns, _⟩ | ⟨_, rest⟩
  · exact absurd clear returns
  let fresh : Nat := measured.store.lists.size
  let listed : Machine := { measured with
    store := (measured.store.make #[]).2, scopes := measured.scopes.set (some "l") (.list fresh) }
  let cleared : Machine := { listed with scopes := listed.scopes.set (some "tmp") (.text "") }
  have lists : eval around (k + 5) emptyList measured = .ok (.list fresh, listed) := rfl
  have clears : eval around (k + 5) clearPiece listed = .ok (.text "", cleared) := rfl
  rw [block_cons_ok lists clear, block_cons_ok clears clear] at rest
  have isText : cleared.scopes.find? (some "str") = some (.text str) := by
    rw [Scopes.find?_set, if_neg (by decide), Scopes.find?_set, if_neg (by decide), scopes, isText]
  have isList : cleared.scopes.find? (some "l") = some (.list fresh) := by
    rw [Scopes.find?_set, if_neg (by decide), Scopes.find?_set, if_pos rfl]
  have isPiece : cleared.scopes.find? (some "tmp") = some (.text "") := by
    rw [Scopes.find?_set, if_pos rfl]
  exact .inr (block_overText_eq_ok isText isList isPiece clear rest)

end Body

section Call

open Eval Exec

variable {around : Surroundings} {m after : Machine} {value : Value} {str sep : String} {serial k : Nat}

def callSplit (str sep : String) : Node :=
  .named .call (some "split") [literal str, literal sep]

def inSplit (m : Machine) (serial : Nat) (str sep : String) : Machine :=
  m.opened m.store
    [(some "split", .function (splitFunction serial)), (some "str", .text str), (some "sep", .text sep)]

theorem inCall_split (rec : Node → Exec Value) :
    inCall (apply rec (some "split") (splitFunction serial) [.text str, .text sep]) m =
      match bodyValue rec (splitFunction serial) (inSplit m serial str sep) with
      | .ok (value, after) => .ok (value, m.closed after)
      | .error (cause, after) => .error (cause, { after with calls := after.calls - 1 })
      | .unfinished => .unfinished := by
  have bound : bindArguments (splitFunction serial).parameters.children [.text str, .text sep]
      [(some "split", .function (splitFunction serial))] m =
        .ok ([(some "split", .function (splitFunction serial)), (some "str", .text str),
          (some "sep", .text sep)], m) := rfl
  have fits : (splitFunction serial).parameters.children.length = [Value.text str, Value.text sep].length := rfl
  rw [inCall_apply, if_neg (not_not_intro fits), bound]
  rfl

theorem eval_callSplit_undefined (room : (m.calls : Int) + 1 < around.limit)
    (found : m.scopes.find? (some "split") = some (.function (splitFunction serial)))
    (missing : m.scopes.find? (some "sizeof") = none) :
    eval around (k + 6) (callSplit str sep) m =
      .error (.undefined .function (some "sizeof"), { inSplit m serial str sep with calls := m.calls }) := by
  let inside : Machine := inSplit m serial str sep
  let fault : Fault := .undefined .function (some "sizeof")
  have evaluated : values (eval around (k + 5)) (callSplit str sep).children m =
      .ok ([.text str, .text sep], m) := rfl
  have unknown : eval around (k + 2) (lengthOf "sep") inside = .error (fault, inside) :=
    eval_call_undefined room missing
  have measured : operands (eval around (k + 2)) (.comparison .greater (lengthOf "sep") (numeral 1.0)) inside =
      .error (fault, inside) :=
    (child_bind rfl).trans (bind_of_error unknown)
  have refused : ifThen (eval around (k + 3)) refuseLong inside = .error (fault, inside) :=
    (child_bind rfl).trans (bind_of_error (bind_of_error measured))
  have ended : bodyValue (eval around (k + 5)) (splitFunction serial) inside = .error (fault, inside) :=
    bind_of_error (bind_of_error refused)
  refine (call_apply (by omega) found evaluated).trans ((inCall_split _).trans ?_)
  rw [ended]
  rfl

theorem eval_callSplit_eq_ok
    (found : m.scopes.find? (some "split") = some (.function (splitFunction serial)))
    (ran : eval around (k + 7) (callSplit str sep) m = .ok (value, after)) :
    value = .number 0.0 ∨ ∃ text, value = .text text := by
  have ran : call (eval around (k + 6)) around.limit (callSplit str sep) m = .ok (value, after) := ran
  obtain ⟨f, arguments, middle, bound, evaluated, applied⟩ := call_eq_ok ran
  cases evaluated
  obtain rfl : f = splitFunction serial := by
    cases bound.symm.trans found
    rfl
  have applied := (inCall_split _).symm.trans applied
  split at applied
  next result last ended =>
    cases applied
    obtain ⟨_, middle, body, outcome⟩ := bodyValue_eq_ok ended
    rcases eval_splitBody_eq_ok rfl rfl body with zero | ⟨clear, text, isText⟩
    · rcases outcome with returned | ⟨clear, _⟩
      · cases returned.symm.trans zero
        exact .inl rfl
      · cases clear.symm.trans zero
    · rcases outcome with returned | ⟨_, looked⟩
      · cases clear.symm.trans returned
      · obtain ⟨found, _⟩ := lookup_eq_ok looked
        exact .inr ⟨text, Option.some.inj (found.symm.trans isText)⟩
  next => cases applied
  next => cases applied

end Call

section Runs

open Eval

variable {around : Surroundings} {m : Machine} {cause : FileError} {str sep : String} {k : Nat}

def withStrings (m : Machine) : Machine :=
  { m with
    store := { m.store with functions := m.store.functions + 2 }
    scopes := (m.scopes.set (some "toList") (.function (toListFunction m.store.functions))).set (some "split")
      (.function (splitFunction (m.store.functions + 1))) }

theorem find?_withStrings (m : Machine) (name : Option String) :
    (withStrings m).scopes.find? name =
      if some "split" = name then some (.function (splitFunction (m.store.functions + 1)))
      else if some "toList" = name then some (.function (toListFunction m.store.functions))
      else m.scopes.find? name := by
  rw [withStrings, Scopes.find?_set, Scopes.find?_set]

theorem eval_callSplit_withStrings (room : (m.calls : Int) + 1 < around.limit)
    (unmeasured : m.scopes.find? (some "sizeof") = none) :
    eval around (k + 6) (callSplit str sep) (withStrings m) = .error (.undefined .function (some "sizeof"),
      { inSplit (withStrings m) (m.store.functions + 1) str sep with calls := m.calls }) := by
  refine eval_callSplit_undefined room ?_ ?_
  · rw [find?_withStrings, if_pos rfl]
  · rw [find?_withStrings, if_neg (by decide), if_neg (by decide), unmeasured]

def includeStrings : Node :=
  .named .includeFile (some "_string_") []

theorem program_includeStrings : Eval.program "INCLUDE \"_string_\"" = .ok includeStrings := by
  have scanned : Token.scan "INCLUDE \"_string_\"" = .ok [.keyword "INCLUDE", .string "_string_"] :=
    (Token.scan_ofList _).trans rfl
  rw [Eval.program, scanned]
  rfl

theorem eval_includeStrings (unshadowed : around.disk.readText (Path.join around.folder "_string_") = .error cause)
    (installed : around.disk.readText (Path.join folder "_string_") = .ok strings) (clear : m.returned = none) :
    eval around (k + 3) includeStrings m =
      .ok (.function (splitFunction (m.store.functions + 1)), withStrings m) := by
  have found : included around "_string_" = .ok strings := included_library (by decide) unshadowed installed
  let first : Machine := { m with
    store := { m.store with functions := m.store.functions + 1 }
    scopes := m.scopes.set (some "toList") (.function (toListFunction m.store.functions)) }
  have toList : eval around (k + 1) (definition (toListFunction 0)) m =
      .ok (.function (toListFunction m.store.functions), first) := rfl
  have split : eval around (k + 1) (definition (splitFunction 0)) first =
      .ok (.function (splitFunction (m.store.functions + 1)), withStrings m) := rfl
  refine (eval_includeFile found program_strings _).trans ?_
  change block (eval around (k + 1)) [definition (toListFunction 0), definition (splitFunction 0)] .empty m = _
  rw [block_cons_ok toList clear, block_cons_ok split clear]
  rfl

def isValue : Outcome Fault Value → Bool
  | .ok _ => true
  | .error _ | .unfinished => false

theorem exists_of_isValue {found : Outcome Fault Value} (isValue : isValue found = true) :
    ∃ value, found = .ok value := by
  cases found with
  | ok value => exact ⟨value, rfl⟩
  | error _ | unfinished => cases isValue

end Runs

end Library

open Library in
/-- The file of texts can be included, but no new machine has the function by which it measures a text: then
every call of `split` fails, whatever the text and the separator. With some function of that name it does not
take a text apart either. If the call returns at all, it returns zero or a text, and no list. -/
theorem library_split {around : Surroundings} {cause : FileError}
    (unshadowed : around.disk.readText (Path.join around.folder "_string_") = .error cause)
    (installed : around.disk.readText (Path.join Library.folder "_string_") = .ok Library.strings)
    (room : 1 < around.limit) :
    (∀ platform, ∃ value defined,
      Run.source around "INCLUDE \"_string_\"" (Machine.start platform []) = ⟨.ok value, defined⟩ ∧
        ∀ str sep, (Run.tree around (callSplit str sep) defined).result =
          .error (.undefined .function (some "sizeof"))) ∧
    ∀ (m : Machine) (serial : Nat), m.scopes.find? (some "split") = some (.function (splitFunction serial)) →
      ∀ str sep value, (Run.tree around (callSplit str sep) m).result = .ok value →
        value = .number 0.0 ∨ ∃ text, value = .text text := by
  refine ⟨fun platform => ?_, fun m serial found str sep value ran => ?_⟩
  · obtain ⟨scopes, start, missing⟩ := start_scopes platform
    let fresh : Machine := { Machine.initial with scopes }
    have unmeasured : fresh.scopes.find? (some "sizeof") = none := missing "sizeof" (by decide)
    refine ⟨.function (splitFunction 1), withStrings fresh, ?_, fun str sep => ?_⟩
    · rw [start, Run.source, program_includeStrings]
      exact tree_ok (by decide) fun k => eval_includeStrings unshadowed installed rfl
    · exact congrArg Ending.result <| tree_error (by decide) fun k =>
        eval_callSplit_withStrings (m := fresh) room unmeasured
  · obtain ⟨k, after, ran⟩ := tree_eq_ok (n := 7) (by decide) ran
    exact eval_callSplit_eq_ok (m := { m with output := "" }) found ran

open Library in
theorem two_pieces_not_split :
    let around : Surroundings := ⟨Library.disk ["home"], "", 1000⟩
    let negative : Function := ⟨2, some "sizeof", .of .parameters [.named .parameter (some "x") []], .block [],
      .sign .minus (numeral 1.0)⟩
    (∃ value defined,
      Run.source around "INCLUDE \"_string_\"" (Machine.start .linux []) = ⟨.ok value, defined⟩ ∧
        (Run.tree around (callSplit "a,b" ",") defined).result = .error (.undefined .function (some "sizeof"))) ∧
    ∃ value, (Run.tree around (callSplit "a,b" ",")
      ((withStrings Machine.initial).set "sizeof" (.function negative))).result = .ok value ∧
        (value = .number 0.0 ∨ ∃ text, value = .text text) := by
  intro around negative
  let measuring : Machine := (withStrings Machine.initial).set "sizeof" (.function negative)
  obtain ⟨fresh, always⟩ := @library_split around _ (readText_home (by decide)) readText_strings (by decide)
  refine ⟨?_, ?_⟩
  · obtain ⟨value, defined, included, fails⟩ := fresh .linux
    exact ⟨value, defined, included, fails "a,b" ","⟩
  · have returns : isValue (Run.tree around (callSplit "a,b" ",") measuring).result = true := by decide +kernel
    obtain ⟨value, ran⟩ := exists_of_isValue returns
    exact ⟨value, ran, always measuring 1 rfl "a,b" "," value ran⟩

open Library in
/-- A program that includes the file and prints the pieces of a text prints nothing. -/
theorem pieces_not_printed :
    let around : Surroundings := ⟨Library.disk ["home"], "", 1000⟩
    let ending := Run.source around "INCLUDE \"_string_\"; PRINT split(\"a,b\", \",\")" (Machine.start .linux [])
    ending.result = .error (.undefined .function (some "sizeof")) ∧ ending.machine.output = "" := by
  intro around
  have scanned : Token.scan "INCLUDE \"_string_\"; PRINT split(\"a,b\", \",\")" = .ok [.keyword "INCLUDE",
      .string "_string_", .mark .sep, .keyword "PRINT", .identifier "split", .mark .lparen, .string "a,b",
      .mark .comma, .string ",", .mark .rparen] :=
    (Token.scan_ofList _).trans rfl
  have parsed : Eval.program "INCLUDE \"_string_\"; PRINT split(\"a,b\", \",\")" =
      .ok (.block [includeStrings, .named .print none [callSplit "a,b" ","]]) := by
    rw [Eval.program, scanned]
    rfl
  obtain ⟨scopes, start, missing⟩ := start_scopes .linux
  let fresh : Machine := { Machine.initial with scopes }
  let left : Machine := { inSplit (withStrings fresh) 1 "a,b" "," with calls := 0 }
  have included (k : Nat) : Eval.eval around (k + 7) includeStrings fresh =
      .ok (.function (splitFunction 1), withStrings fresh) :=
    eval_includeStrings (k := k + 4) (readText_home (by decide)) readText_strings rfl
  have called (k : Nat) : Eval.eval around (k + 6) (callSplit "a,b" ",") (withStrings fresh) =
      .error (.undefined .function (some "sizeof"), left) :=
    eval_callSplit_withStrings (show (0 : Int) + 1 < 1000 by decide) (missing "sizeof" (by decide))
  have printed (k : Nat) : Eval.eval around (k + 7) (.named .print none [callSplit "a,b" ","])
      (withStrings fresh) = .error (.undefined .function (some "sizeof"), left) :=
    Exec.bind_of_error (Exec.bind_of_error (called k))
  have ended : Run.tree around (.block [includeStrings, .named .print none [callSplit "a,b" ","]]) fresh =
      ⟨.error (.undefined .function (some "sizeof")), left⟩ := by
    refine tree_error (n := 8) (by decide) fun k => ?_
    change Eval.block (Eval.eval around (k + 7)) [includeStrings, _] .empty fresh = _
    rw [block_cons_ok (included k) rfl]
    exact Exec.bind_of_error (printed k)
  rw [start, Run.source, parsed]
  exact ⟨congrArg Ending.result ended, congrArg (·.machine.output) ended⟩

end Pseudocode
