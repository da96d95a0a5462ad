import Pseudocode.Proofs.Disk
import Pseudocode.Proofs.Library.Parts
import Pseudocode.Proofs.Sequence

set_option autoImplicit false

namespace Pseudocode

namespace Library

section Spelled

variable {part : String} {parts : List String} {text : List Char} {texts : List (List Char)}

def tokensOf (text : List Char) : List Token :=
  match Token.scanWithin text.length text with
  | .ok ts => ts
  | .error _ => []

def clean (text : List Char) : Bool :=
  (Token.scanWithin text.length text).isOk && !Token.openWithin text.length text

def Spelled : List String → List (List Char) → Prop :=
  List.Forall₂ fun part text => part = String.ofList text

theorem scanned_of_clean (clean : clean text = true) : Scanned (String.ofList text) (tokensOf text) := by
  obtain ⟨scanned, closed⟩ := Bool.and_eq_true_iff.mp clean
  refine ⟨?_, ?_⟩
  · rw [Token.scan_ofList, tokensOf]
    cases ran : Token.scanWithin text.length text with
    | ok ts => rfl
    | error cause =>
      rw [ran] at scanned
      cases scanned
  · rw [Token.endsInLiteral, String.toList_ofList]
    simpa using closed

theorem scanned_of_spelled (spelled : Spelled parts texts) (clean : ∀ text ∈ texts, clean text = true) :
    List.Forall₂ Scanned parts (texts.map tokensOf) := by
  induction spelled with
  | nil => exact .nil
  | cons same _ ih =>
    rw [List.forall_mem_cons] at clean
    exact .cons (same ▸ scanned_of_clean clean.1) (ih clean.2)

end Spelled

section File

set_option maxRecDepth 4000

open Mathematics Node Parse
open Json (IsPlain)

theorem spelled_parts : ∃ before refused after,
    Spelled [inclusions, constants, sqrt, factorial, sin, cos, tan, deg, rad, abs, floor, ceil] before ∧
    mod = String.ofList refused ∧
    Spelled [hcf, lHcf, gcd, lGcd, lLcm, lcm, permutations, combinations] after ∧
    (∃ rest, tokensOf refused = .keyword "DEF" :: .keyword "MOD" :: rest) ∧
    (∀ text ∈ before, Sound (tokensOf text)) ∧
      ∀ text ∈ before ++ refused :: after, clean text = true ∧ text.all (decide <| IsPlain ·) = true := by
  refine ⟨_, _, _, .cons rfl (.cons rfl (.cons rfl (.cons rfl (.cons rfl (.cons rfl (.cons rfl (.cons rfl (.cons rfl
    (.cons rfl (.cons rfl (.cons rfl .nil))))))))))), rfl, .cons rfl (.cons rfl (.cons rfl (.cons rfl (.cons rfl
    (.cons rfl (.cons rfl (.cons rfl .nil))))))), ⟨_, rfl⟩, ?_⟩
  decide +kernel

theorem program_mathematics : Eval.program mathematics = .error (.parse .defineName) := by
  -- The file has a definition without a name, since the name it gives is a word of the language.
  obtain ⟨before, refused, after, spelled, same, spelledAfter, ⟨rest, begun⟩, sound, all⟩ := spelled_parts
  have clean : ∀ text ∈ before ++ refused :: after, clean text = true := fun text member => (all text member).1
  simp only [List.forall_mem_append, List.forall_mem_cons] at clean
  have sound : ∀ ts ∈ before.map tokensOf, Sound ts := by simpa using sound
  have scanned : Scanned mod (tokensOf refused) := same ▸ scanned_of_clean clean.2.1
  have nameless (us : List Token) : listing (tokensOf refused ++ us) = .error .defineName := by
    have isWord : Token.Kind.keyword ≠ .identifier := by decide
    rw [begun]
    exact listing_nameless rfl isWord
  have refused := program_refused (scanned_of_spelled spelled clean.1) sound scanned
    (scanned_of_spelled spelledAfter clean.2.2) (by rw [begun]; rfl) nameless
  rw [mathematics]
  exact refused

end File

section Installed

set_option maxRecDepth 4000

open Json (IsPlain)

theorem plain_file {parts : List String} (plain : ∀ part ∈ parts, ∀ c ∈ part.toList, IsPlain c) :
    ∀ c ∈ (file parts).toList, IsPlain c := by
  induction parts with
  | nil => simp [file]
  | cons part parts ih =>
    rw [List.forall_mem_cons] at plain
    cases parts with
    | nil =>
      rw [file, String.intercalate_singleton]
      exact plain.1
    | cons second parts =>
      have later := ih plain.2
      rw [file, String.intercalate_cons_cons, String.toList_append, String.toList_append]
      simp only [List.mem_append]
      rintro c ((own | between) | further)
      · exact plain.1 c own
      · obtain rfl : c = '\n' := by simpa using between
        decide
      · exact later c further

theorem plain_of_spelled {parts : List String} {texts : List (List Char)} (spelled : Spelled parts texts)
    (plain : ∀ text ∈ texts, text.all (fun c => decide (IsPlain c)) = true) :
    ∀ part ∈ parts, ∀ c ∈ part.toList, IsPlain c := by
  induction spelled with
  | nil => simp
  | cons same _ ih =>
    rw [List.forall_mem_cons] at plain ⊢
    rw [same, String.toList_ofList]
    exact ⟨Json.isPlain_of_all plain.1, ih plain.2⟩

variable {name text : String}

def fileNames : List String :=
  ["_math_", "_string_"]

theorem computed_paths : ∀ name ∈ fileNames, Path.isAbsolute name = false ∧ Path.join "" name = name ∧
    (∀ path ∈ [name, Path.join folder name], path.isEmpty = false ∧ path.utf8ByteSize ≤ Disk.longestPath ∧
      Disk.hasNull path = false) ∧
    Path.parts name = [name] ∧ Path.isAbsolute (Path.join folder name) = true ∧
    Path.parts (Path.join folder name) = ["", "usr", "lib", "pseudocode", "stdlib", name] := by
  simp only [Path.parts_eq, Disk.hasNull_eq_false_iff]
  decide +kernel

theorem locate_installed (listed : name ∈ fileNames) :
    (disk ["home"]).locate (Path.join folder name) = .ok (place ++ [name]) := by
  have leads : ∀ name ∈ fileNames, (disk ["home"]).follow [] ["", "usr", "lib", "pseudocode", "stdlib", name] =
      .ok (place ++ [name]) := by
    simp only [fileNames, List.forall_mem_cons]
    exact ⟨rfl, rfl, List.forall_mem_nil _⟩
  obtain ⟨_, _, fits, _, absolute, parts⟩ := computed_paths name listed
  obtain ⟨named, short, _⟩ := fits (Path.join folder name) (by simp)
  rw [Disk.locate, if_neg (by simp [named]), if_neg (Nat.not_lt.mpr short), if_pos absolute, parts,
    leads name listed]

theorem locate_home (listed : name ∈ fileNames) :
    (disk ["home"]).locate name = .ok ["home", name] := by
  have leads : ∀ name ∈ fileNames, (disk ["home"]).follow ["home"] [name] = .ok ["home", name] := by
    simp only [fileNames, List.forall_mem_cons]
    exact ⟨rfl, rfl, List.forall_mem_nil _⟩
  obtain ⟨relative, _, fits, parts, _⟩ := computed_paths name listed
  obtain ⟨named, short, _⟩ := fits name (by simp)
  rw [Disk.locate, if_neg (by simp [named]), if_neg (Nat.not_lt.mpr short), if_neg (by simp [relative]), parts]
  exact leads name listed

theorem readText_library (listed : name ∈ fileNames) (plain : ∀ c ∈ text.toList, IsPlain c)
    (found : (disk ["home"]).find? (place ++ [name]) = some (.file (Text.encode text))) :
    (disk ["home"]).readText (Path.join folder name) = .ok text := by
  obtain ⟨_, _, fits, _⟩ := computed_paths name listed
  obtain ⟨_, _, noNull⟩ := fits (Path.join folder name) (by simp)
  exact Disk.readText_of_readBytes plain
    (Disk.readBytes_of_find? noNull (locate_installed listed) found)

theorem readText_home (listed : name ∈ fileNames) :
    (disk ["home"]).readText (Path.join "" name) = .error (.system .missing name) := by
  have absent : ∀ name ∈ fileNames, (disk ["home"]).find? ["home", name] = none := by
    simp only [fileNames, List.forall_mem_cons]
    exact ⟨rfl, rfl, List.forall_mem_nil _⟩
  obtain ⟨_, same, fits, _⟩ := computed_paths name listed
  obtain ⟨_, _, noNull⟩ := fits name (by simp)
  simp only [same, Disk.readText, Disk.readExact, Disk.readBytes, noNull, locate_home listed, absent name listed]
  rfl

theorem readText_installed : (disk ["home"]).readText (Path.join folder "_math_") = .ok mathematics := by
  obtain ⟨_, _, _, spelled, same, spelledAfter, _, _, all⟩ := spelled_parts
  have spelled : Spelled Mathematics.parts _ := List.rel_append spelled (.cons same spelledAfter)
  exact readText_library (by decide)
    (plain_file (plain_of_spelled spelled fun text member => (all text member).2)) rfl

theorem readText_missing : (disk ["home"]).readText (Path.join "" "_math_") =
    .error (.system .missing "_math_") :=
  readText_home (by decide)

end Installed

end Library

namespace Eval

open Exec Library

variable {around : Surroundings} {m : Machine} {fault : Fault} {cause : FileError}

theorem eval_includeFile_refused {name content : String} (found : included around name = .ok content)
    (refused : program content = .error fault) (n : Nat) :
    eval around (n + 1) (Node.named .includeFile (some name) []) m = .error (fault, m) := by
  have read : ofExcept (included around name) m = .ok (content, m) := by rw [found]; rfl
  have failed : ofOutcome (program content) m = .error (fault, m) := by rw [refused]; rfl
  exact (bind_of_ok read).trans (bind_of_error failed)

theorem eval_program_refused {first : Node} (refused : ∀ n, eval around (n + 1) first m = .error (fault, m))
    (others : List Node) (n : Nat) :
    eval around (n + 2) (Node.program (first :: others)) m = .error (fault, m) := by
  cases others with
  | nil => exact refused (n + 1)
  | cons second others => exact bind_of_error (refused n)

theorem included_library {name content : String} (listed : name ∈ fileNames)
    (unshadowed : around.disk.readText (Path.join around.folder name) = .error cause)
    (installed : around.disk.readText (Path.join folder name) = .ok content) :
    included around name = .ok content := by
  have relative := (computed_paths name listed).1
  simp only [included, relative, unshadowed, installed]
  rfl

end Eval

end Pseudocode
