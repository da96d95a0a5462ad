import Pseudocode.Proofs.CountedLoop
import Pseudocode.Proofs.Library.Mathematics
import Pseudocode.Proofs.Nesting.Arguments
import Pseudocode.Proofs.Number.Whole

set_option autoImplicit false

namespace Pseudocode

namespace Library

def product : Nat → Float
  | 0 => 1.0
  | k + 1 => product k * Float.ofNat (k + 1)

section Trees

def numeral (x : Float) : Node :=
  .number (some (.number x))

def name (text : String) : Node :=
  .named .access (some text) []

def multiplyIn : Node :=
  .block [.named .assign (some "b") [.arithmetic .multiply (name "b") (name "i")]]

def multiplyAll : Node :=
  .named .forLoop (some "i") [numeral 1.0, .arithmetic .add (name "a") (numeral 1.0), numeral 1.0, multiplyIn]

def factorialBody : Node :=
  .block [.named .assign (some "b") [numeral 1.0], multiplyAll, .sign .plus (numeral 1.0)]

def factorialTree : Node :=
  .named .define (some "factorial")
    [.of .parameters [.named .parameter (some "a") []], factorialBody, name "b"]

set_option maxRecDepth 4000 in
theorem program_factorial : Eval.program Mathematics.factorial = .ok factorialTree := by
  have scanned : Token.scan Mathematics.factorial = .ok
      [.keyword "DEF", .identifier "factorial", .mark .lparen, .identifier "a", .mark .rparen,
        .keyword "DO", .identifier "b", .mark .assign, .number 1.0, .keyword "FOR", .identifier "i",
        .mark .assign, .number 1.0, .keyword "TO", .identifier "a", .mark .plus, .number 1.0,
        .identifier "b", .mark .assign, .identifier "b", .mark .multiply, .identifier "i",
        .keyword "NEXT", .identifier "i", .mark .plus, .number 1.0, .keyword "RETURN",
        .identifier "b", .keyword "ENDEF"] :=
    (Token.scan_ofList _).trans rfl
  rw [Eval.program, scanned]
  rfl

end Trees

section Loop

open Eval Exec

variable {around : Surroundings} {m : Machine} {f : Function} {x y b i : Float} {last : Value} {k r : Nat}

def inside (m : Machine) (f : Function) (x b i : Float) : Machine :=
  m.opened m.store [(some "factorial", .function f), (some "a", .number x), (some "b", .number b),
    (some "i", .number i)]

theorem eval_multiplyIn :
    eval around (k + 4) multiplyIn (inside m f x b i) = .ok (.number (b * i), inside m f x (b * i) i) :=
  rfl

theorem forRounds_step (goes : continues 1.0 i y = true) :
    forRounds (eval around (k + 4)) (some "i") (.number y) 1.0 multiplyIn (r + 1) last (inside m f x b i) =
      forRounds (eval around (k + 4)) (some "i") (.number y) 1.0 multiplyIn r (.number (b * i))
        (inside m f x (b * i) (i + 1.0)) := by
  have counter (b : Float) : counter (some "i") (inside m f x b i) = .ok (i, inside m f x b i) := rfl
  have returned : read (·.returned) (inside m f x (b * i) i) = .ok (none, inside m f x (b * i) i) := rfl
  have assigned : assign (some "i") (.number (i + 1.0)) (inside m f x (b * i) i) =
      .ok ((), inside m f x (b * i) (i + 1.0)) := rfl
  have bound : (Value.number y).toNumber = .ok y := rfl
  rw [forRounds, bind_of_ok (counter b), bind_of_ok (ofExcept_ok bound), if_pos goes,
    bind_of_ok eval_multiplyIn, bind_of_ok returned]
  exact (bind_of_ok (counter _)).trans (bind_of_ok assigned)

theorem forRounds_stop (stops : continues 1.0 i y = false) :
    forRounds (eval around (k + 4)) (some "i") (.number y) 1.0 multiplyIn (r + 1) last (inside m f x b i) =
      .ok (last, inside m f x b i) := by
  have counter : counter (some "i") (inside m f x b i) = .ok (i, inside m f x b i) := rfl
  have bound : (Value.number y).toNumber = .ok y := rfl
  rw [forRounds, bind_of_ok counter, bind_of_ok (ofExcept_ok bound), if_neg (by simp [stops])]
  rfl

theorem continues_ofNat {j n : Nat} (left : 0 < j) (right : 0 < n) (small : j ≤ 2 ^ 53) (small' : n ≤ 2 ^ 53) :
    continues 1.0 (Float.ofNat j) (Float.ofNat n) = decide (j ≤ n) := by
  have up : (1.0 : Float) ≥ 0.0 := by decide
  rw [continues, if_pos up, decide_eq_decide]
  exact Number.ofNat_le_iff left right small small'

theorem continues_past {n : Nat} (some : 0 < n) (small : n < 2 ^ 53) :
    continues 1.0 (Float.ofNat (n + 1)) (Float.ofNat n) = false := by
  rw [continues_ofNat (Nat.succ_pos n) some small (by omega), decide_eq_false_iff_not]
  omega

theorem forRounds_product {n j : Nat} (some : 0 < n) (small : n < 2 ^ 53) (before : j ≤ n)
    (enough : n ≤ j + r) :
    ∃ last', forRounds (eval around (k + 4)) (.some "i") (.number (Float.ofNat n)) 1.0 multiplyIn (r + 1) last
      (inside m f x (product j) (Float.ofNat (j + 1))) =
        .ok (last', inside m f x (product n) (Float.ofNat (n + 1))) := by
  -- On the rounds that may follow; after the last number the counter is past the end.
  induction r generalizing j last with
  | zero =>
    obtain rfl : j = n := by omega
    exact ⟨last, forRounds_stop (continues_past some small)⟩
  | succ r ih =>
    by_cases ended : j = n
    · subst ended
      exact ⟨last, forRounds_stop (continues_past some small)⟩
    · have goes : continues 1.0 (Float.ofNat (j + 1)) (Float.ofNat n) = true := by
        rw [continues_ofNat (Nat.succ_pos j) some (by omega) (by omega), decide_eq_true_iff]
        omega
      rw [forRounds_step goes, Number.ofNat_add_one (by omega)]
      exact ih (j := j + 1) (by omega) (by omega)

end Loop

section Call

open Eval Exec

variable {around : Surroundings} {m : Machine} {f : Function} {x : Float} {n k : Nat}

def factorialFunction (serial : Nat) : Function :=
  ⟨serial, some "factorial", .of .parameters [.named .parameter (some "a") []], factorialBody, name "b"⟩

def withFactorial (m : Machine) : Machine :=
  { m with
    store := { m.store with functions := m.store.functions + 1 }
    scopes := m.scopes.set (some "factorial") (.function (factorialFunction m.store.functions)) }

theorem eval_factorialTree :
    eval around (k + 1) factorialTree m =
      .ok (.function (factorialFunction m.store.functions), withFactorial m) :=
  rfl

theorem eval_multiplyAll (small : n + 1 < 2 ^ 53) :
    ∃ last, eval around (k + n + 5) multiplyAll
      (m.opened m.store [(some "factorial", .function f), (some "a", .number (Float.ofNat n)),
        (some "b", .number 1.0)]) =
        .ok (last, inside m f (Float.ofNat n) (product (n + 1)) (Float.ofNat (n + 2))) := by
  let opened : Machine := m.opened m.store [(some "factorial", .function f),
    (some "a", .number (Float.ofNat n)), (some "b", .number 1.0)]
  have one (j : Nat) : eval around (j + 1) (numeral 1.0) opened = .ok (.number 1.0, opened) := rfl
  have final : eval around (k + n + 4) (.arithmetic .add (name "a") (numeral 1.0)) opened =
      .ok (.number (Float.ofNat (n + 1)), opened) := by
    rw [← Number.ofNat_add_one (by omega)]
    rfl
  obtain ⟨last, ran⟩ : ∃ last, forRounds (eval around (k + n + 4)) (some "i")
      (.number (Float.ofNat (n + 1))) 1.0 multiplyIn (k + n + 3 + 1) .empty
      (inside m f (Float.ofNat n) (product 0) (Float.ofNat (0 + 1))) =
        .ok (last, inside m f (Float.ofNat n) (product (n + 1)) (Float.ofNat (n + 2))) :=
    forRounds_product (Nat.succ_pos n) small (Nat.zero_le _) (by omega)
  exact ⟨last, (forLoop_apply (one _) final (one _) rfl rfl rfl).trans ran⟩

theorem block_cons_ok {rec : Node → Exec Value} {statement : Node} {rest : List Node} {last value : Value}
    {after : Machine} (ran : rec statement m = .ok (value, after)) (clear : after.returned = none) :
    block rec (statement :: rest) last m = block rec rest value after := by
  rw [block, bind_of_ok ran, bind_of_ok (read_returned clear)]

theorem eval_factorialBody (small : n + 1 < 2 ^ 53) :
    ∃ value, eval around (k + n + 6) factorialBody
      (m.opened m.store [(some "factorial", .function f), (some "a", .number (Float.ofNat n))]) =
        .ok (value, inside m f (Float.ofNat n) (product (n + 1)) (Float.ofNat (n + 2))) := by
  let opened (b : Table) : Machine := m.opened m.store ([(some "factorial", .function f),
    (some "a", .number (Float.ofNat n))] ++ b)
  let ended : Machine := inside m f (Float.ofNat n) (product (n + 1)) (Float.ofNat (n + 2))
  have assigned : eval around (k + n + 5) (.named .assign (some "b") [numeral 1.0]) (opened []) =
      .ok (.number 1.0, opened [(some "b", .number 1.0)]) := rfl
  obtain ⟨last, looped⟩ : ∃ last, eval around (k + n + 5) multiplyAll (opened [(some "b", .number 1.0)]) =
      .ok (last, ended) := eval_multiplyAll small
  have signed : eval around (k + n + 5) (.sign .plus (numeral 1.0)) ended = .ok (.number 1.0, ended) := rfl
  refine ⟨.number 1.0, ?_⟩
  change block (eval around (k + n + 5)) [_, multiplyAll, _] .empty (opened []) = _
  rw [block_cons_ok assigned rfl, block_cons_ok looped rfl, block_cons_ok signed rfl]
  rfl

def callFactorial (n : Nat) : Node :=
  .named .call (some "factorial") [numeral (Float.ofNat n)]

theorem bodyValue_factorial (serial : Nat) (small : n + 1 < 2 ^ 53) :
    bodyValue (eval around (k + n + 6)) (factorialFunction serial)
      (m.opened m.store [(some "factorial", .function f), (some "a", .number (Float.ofNat n))]) =
        .ok (.number (product (n + 1)),
          inside m f (Float.ofNat n) (product (n + 1)) (Float.ofNat (n + 2))) := by
  have ⟨_, ran⟩ := @eval_factorialBody around m f n k small
  exact (bind_of_ok ran).trans (bind_of_ok (read_returned rfl))

theorem eval_callFactorial {serial : Nat} (room : (m.calls : Int) < around.limit)
    (found : m.scopes.find? (some "factorial") = some (.function (factorialFunction serial)))
    (small : n + 1 < 2 ^ 53) :
    eval around (k + n + 7) (callFactorial n) m = .ok (.number (product (n + 1)), m) := by
  have evaluated : values (eval around (k + n + 6)) (callFactorial n).children m =
      .ok ([.number (Float.ofNat n)], m) := rfl
  have bound : bindArguments (factorialFunction serial).parameters.children [.number (Float.ofNat n)]
      [(some "factorial", .function (factorialFunction serial))] m =
        .ok ([(some "factorial", .function (factorialFunction serial)), (some "a", .number (Float.ofNat n))], m) :=
    rfl
  have fits : (factorialFunction serial).parameters.children.length = [Value.number (Float.ofNat n)].length := rfl
  have applied : inCall (apply (eval around (k + n + 6)) (some "factorial") (factorialFunction serial)
      [.number (Float.ofNat n)]) m = .ok (.number (product (n + 1)), m) := by
    rw [inCall_apply, if_neg (not_not_intro fits), bound]
    dsimp only
    rw [bodyValue_factorial serial small]
    rfl
  exact (call_apply room found evaluated).trans applied

theorem eval_call_undefined {name : Option String} {arguments : List Node}
    (room : (m.calls : Int) < around.limit) (missing : m.scopes.find? name = none) :
    eval around (k + 1) (.named .call name arguments) m = .error (.undefined .function name, m) := by
  have looked : lookup .function name m = .error (.undefined .function name, m) := by
    rw [lookup, missing]
  have counted : read (·.calls) m = .ok (m.calls, m) := rfl
  change call (eval around k) around.limit (.named .call name arguments) m = _
  rw [call, bind_of_ok counted, if_neg (Int.not_le.mpr room)]
  exact bind_of_error looked

end Call

section Product

variable {k n : Nat}

def productOfForms : Nat → Float
  | 0 => 1.0
  | k + 1 => productOfForms k * .ofModel (.pack (Number.wholeForm (k + 1) (Nat.succ_pos k)))

theorem product_eq_ofForms (small : k ≤ 2 ^ 53) : product k = productOfForms k := by
  induction k with
  | zero => rfl
  | succ k ih => rw [product, productOfForms, ih (by omega), Number.ofNat_eq_whole (Nat.succ_pos k) small]

theorem productOfForms_small :
    (∀ n < 171, productOfForms (n + 1) = productOfForms n ↔ n = 0) ∧ productOfForms 171 = 1.0 / 0.0 := by
  decide +kernel

theorem infinite_mul (pos : 0 < k) (small : k ≤ 2 ^ 53) : (1.0 / 0.0 : Float) * Float.ofNat k = 1.0 / 0.0 := by
  have infinite : (1.0 / 0.0 : Float).toModel.unpack = .infinity .positive := rfl
  have product : Float.Model.UnpackedFloat.mul .binary64 (.infinity .positive) (Number.wholeForm k pos) =
      .infinity .positive := rfl
  have packed : Float.ofModel (.pack (.infinity .positive)) = 1.0 / 0.0 := rfl
  rw [Number.ofNat_eq_whole pos small]
  change Float.ofModel (.pack (Float.Model.UnpackedFloat.mul .binary64 (1.0 / 0.0 : Float).toModel.unpack
    (Float.Model.pack (Number.wholeForm k pos)).unpack)) = _
  rw [infinite, Number.unpack_whole pos small, product, packed]

theorem product_infinite (large : 171 ≤ n) (small : n ≤ 2 ^ 53) : product n = 1.0 / 0.0 := by
  induction n, large using Nat.le_induction with
  | base => rw [product_eq_ofForms (by omega), productOfForms_small.2]
  | succ n _ ih => rw [product, ih (by omega), infinite_mul (Nat.succ_pos n) small]

theorem product_succ_eq_iff (small : n + 1 ≤ 2 ^ 53) : product (n + 1) = product n ↔ n = 0 ∨ 171 ≤ n := by
  by_cases large : 171 ≤ n
  · simp [product_infinite large (by omega), product_infinite (Nat.le_succ_of_le large) small, large]
  · rw [product_eq_ofForms small, product_eq_ofForms (by omega), productOfForms_small.1 n (by omega)]
    simp [large]

end Product

section Runs

open Eval

variable {around : Surroundings} {m : Machine} {node : Node} {n : Nat}

def inclusion : Node :=
  .named .includeFile (some "_math_") []

theorem program_inclusion : Eval.program "INCLUDE \"_math_\"" = .ok inclusion := by
  have scanned : Token.scan "INCLUDE \"_math_\"" = .ok [.keyword "INCLUDE", .string "_math_"] :=
    (Token.scan_ofList _).trans rfl
  rw [Eval.program, scanned]
  rfl

def counting : List String :=
  ["factorial", "permutations", "combinations"]

theorem start_scopes (platform : Platform) : ∃ scopes,
    Machine.start platform [] = { Machine.initial with scopes } ∧
      ∀ name ∉ ["TRUE", "FALSE", "OS"], scopes.find? (some name) = none := by
  let shared : Scopes := ((Scopes.initial.set (some "TRUE") (.number 1.0)).set (some "FALSE") (.number 0.0))
  have missing : ∀ name ∉ ["TRUE", "FALSE", "OS"], shared.find? (some name) = none := by
    intro name other
    simp only [List.mem_cons, List.not_mem_nil, or_false, not_or] at other
    have notTrue : some "TRUE" ≠ some name := by simpa using Ne.symm other.1
    have notFalse : some "FALSE" ≠ some name := by simpa using Ne.symm other.2.1
    rw [Scopes.find?_set, if_neg notFalse, Scopes.find?_set, if_neg notTrue]
    rfl
  rw [Machine.start, List.foldl_nil, Machine.withConstants]
  cases platform.code? with
  | none => exact ⟨shared, rfl, missing⟩
  | some code =>
    refine ⟨shared.set (some "OS") (.number code), rfl, fun name other => ?_⟩
    rw [Scopes.find?_set, if_neg (by rintro ⟨⟩; simp at other), missing name other]

theorem start_eq (platform : Platform) : ∃ scopes, Machine.start platform [] = { Machine.initial with scopes } ∧
    ∀ name ∈ counting, scopes.find? (some name) = none := by
  have other : ∀ name ∈ counting, name ∉ ["TRUE", "FALSE", "OS"] := by decide
  obtain ⟨scopes, start, missing⟩ := start_scopes platform
  exact ⟨scopes, start, fun name listed => missing name (other name listed)⟩

theorem tree_ok {value : Value} {after : Machine} (small : n ≤ Nat.pow 10 18)
    (ran : ∀ k, eval around (k + n) node { m with output := "" } = .ok (value, after)) :
    Run.tree around node m = ⟨.ok value, after⟩ := by
  have bound : Run.bound = Run.bound - n + n := (Nat.sub_add_cancel small).symm
  rw [Run.tree, bound, ran]
  rfl

theorem tree_error {fault : Fault} {after : Machine} (small : n ≤ Nat.pow 10 18)
    (failed : ∀ k, eval around (k + n) node { m with output := "" } = .error (fault, after)) :
    Run.tree around node m = ⟨.error fault, after⟩ := by
  have bound : Run.bound = Run.bound - n + n := (Nat.sub_add_cancel small).symm
  rw [Run.tree, bound, failed]
  rfl

theorem tree_eq_ok {node : Node} {value : Value} {n : Nat} (small : n ≤ Nat.pow 10 18)
    (ran : (Run.tree around node m).result = .ok value) :
    ∃ k after, eval around (k + n) node { m with output := "" } = .ok (value, after) := by
  have bound : Run.bound = Run.bound - n + n := (Nat.sub_add_cancel small).symm
  refine ⟨Run.bound - n, ?_⟩
  rw [← bound]
  rw [Run.tree] at ran
  cases ended : eval around Run.bound node { m with output := "" } with
  | ok found =>
    rw [ended] at ran
    cases ran
    exact ⟨found.2, rfl⟩
  | error found =>
    rw [ended] at ran
    cases ran
  | unfinished =>
    rw [ended] at ran
    cases ran

theorem tree_inclusion {cause : FileError}
    (unshadowed : around.disk.readText (Path.join around.folder "_math_") = .error cause)
    (installed : around.disk.readText (Path.join folder "_math_") = .ok mathematics) (others : List Node) :
    Run.tree around (.program (inclusion :: others)) m = ⟨.error (.parse .defineName), { m with output := "" }⟩ :=
  tree_error (by decide) (eval_program_refused (eval_includeFile_refused
    (included_library (by decide) unshadowed installed) program_mathematics) others)

end Runs

end Library

open Library in
/-- No program goes on after it has included the file of mathematics, and a new machine can then count no
arrangements: neither the factorial nor what is built on it is there. The definition of the factorial that
stands in the file, run on its own, returns for every whole number that a double can count up to the product
up to the number after it. That is the factorial only for zero, and where both are infinite. -/
theorem library_factorial {around : Surroundings} {cause : FileError}
    (unshadowed : around.disk.readText (Path.join around.folder "_math_") = .error cause)
    (installed : around.disk.readText (Path.join Library.folder "_math_") = .ok Library.mathematics) :
    (∀ (others : List Node) (m : Machine), Run.tree around (.program (inclusion :: others)) m =
      ⟨.error (.parse .defineName), { m with output := "" }⟩) ∧
    (∀ (platform : Platform), ∀ name ∈ counting, ∀ arguments : List Node, 0 < around.limit →
      Run.tree around (.named .call (some name) arguments)
          (Run.source around "INCLUDE \"_math_\"" (Machine.start platform [])).machine =
        ⟨.error (.undefined .function (some name)), Machine.start platform []⟩) ∧
    ∀ m : Machine, m.calls < around.limit →
      ∃ value defined, Run.source around Mathematics.factorial m = ⟨.ok value, defined⟩ ∧
        ∀ n, n + 1 < 2 ^ 53 →
          Run.tree around (callFactorial n) defined = ⟨.ok (.number (product (n + 1))), defined⟩ ∧
          (product (n + 1) = product n ↔ n = 0 ∨ 171 ≤ n) := by
  refine ⟨fun others m => tree_inclusion unshadowed installed others,
    fun platform name listed arguments room => ?_, fun m room => ?_⟩
  · have left : Run.source around "INCLUDE \"_math_\"" (Machine.start platform []) =
        ⟨.error (.parse .defineName), { Machine.start platform [] with output := "" }⟩ := by
      rw [Run.source, program_inclusion]
      exact tree_inclusion unshadowed installed []
    obtain ⟨scopes, start, missing⟩ := start_eq platform
    rw [left, start]
    exact tree_error (n := 1) (by decide) fun k => eval_call_undefined room (missing name listed)
  · refine ⟨.function (factorialFunction m.store.functions), withFactorial { m with output := "" }, ?_, ?_⟩
    · rw [Run.source, program_factorial]
      exact tree_ok (by decide) fun k => eval_factorialTree
    · intro n small
      refine ⟨tree_ok (n := n + 7) ?_ fun k => ?_, product_succ_eq_iff (Nat.le_of_lt small)⟩
      · have enough : 2 ^ 53 + 7 ≤ Nat.pow 10 18 := by decide
        omega
      · have found : (withFactorial { m with output := "" }).scopes.find? (some "factorial") =
            some (.function (factorialFunction m.store.functions)) := by
          rw [withFactorial, Scopes.find?_set, if_pos rfl]
        exact eval_callFactorial room found small

open Library in
theorem factorial_of_three :
    let around : Surroundings := ⟨Library.disk ["home"], "", 1000⟩
    ∃ value defined, Run.source around Mathematics.factorial (Machine.start .linux []) = ⟨.ok value, defined⟩ ∧
      Run.tree around (callFactorial 3) defined = ⟨.ok (.number 24.0), defined⟩ ∧ product 3 = 6.0 := by
  intro around
  have four : product 4 = 24.0 := (product_eq_ofForms (by decide)).trans (by decide +kernel)
  have three : product 3 = 6.0 := (product_eq_ofForms (by decide)).trans (by decide +kernel)
  obtain ⟨_, _, alone⟩ := @library_factorial around _ readText_missing readText_installed
  obtain ⟨value, defined, ran, calls⟩ := alone (Machine.start .linux []) (by decide +kernel)
  have called := (calls 3 (by decide)).1
  rw [four] at called
  exact ⟨value, defined, ran, called, three⟩

open Library in
/-- A program that includes the file and prints the factorial of three prints nothing. -/
theorem factorial_not_printed :
    let around : Surroundings := ⟨Library.disk ["home"], "", 1000⟩
    let start := Machine.start .linux []
    Run.source around "INCLUDE \"_math_\"; PRINT factorial(3)" start = ⟨.error (.parse .defineName), start⟩ ∧
      start.output = "" := by
  intro around start
  have scanned : Token.scan "INCLUDE \"_math_\"; PRINT factorial(3)" = .ok [.keyword "INCLUDE", .string "_math_",
      .mark .sep, .keyword "PRINT", .identifier "factorial", .mark .lparen, .number 3.0, .mark .rparen] :=
    (Token.scan_ofList _).trans rfl
  have parsed : Eval.program "INCLUDE \"_math_\"; PRINT factorial(3)" =
      .ok (.program [inclusion, .named .print none [callFactorial 3]]) := by
    rw [Eval.program, scanned]
    rfl
  have ended := @tree_inclusion around start _ readText_missing readText_installed
    [.named .print none [callFactorial 3]]
  obtain ⟨scopes, begins, _⟩ := start_eq .linux
  have silent : start.output = "" := congrArg Machine.output begins
  rw [Run.source, parsed]
  refine ⟨ended.trans ?_, silent⟩
  rw [← silent]

end Pseudocode
