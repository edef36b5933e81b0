/-
# Proofs.Report.ReceiverName -- the type that a reported method belongs to

The name of a method joins the path of its package, the name of its receiver's
type and its own name by dots.  A report takes what follows the first dot of the
last element for the name of the type.  Where the last element of the path has a
dot itself, as in `gopkg.in/yaml.v3`, the rest of the path behind that dot is
taken along (`receiverName?_qualified`).  So the type is read back, and methods of
ignored types are left out, exactly if the last element of the path has no dot
(`receiver_readBack_iff`).
-/
import ComposeStability.Program.Function
import ComposeStability.Proofs.Report.Selection
import ComposeStability.Proofs.Text.Identifier
import ComposeStability.Proofs.Text.Occurrence
import ComposeStability.Proofs.Text.Separated

namespace ComposeStability.Report

set_option autoImplicit false

open Stability (Summary)
open Program (Packages)
open Source (FuncDecl)

/-! ## Elements of a path -/

/-- The last element of the path of a package. -/
def lastElement (path : String) : String := ((Text.cutLastString path "/").map (·.2)).getD path

/-- What follows the first dot of the last element of a path, with a dot behind it; nothing if there
is no such dot. -/
def dottedRest (path : String) : String :=
  match Text.cutString (lastElement path) "." with
  | some (_, rest) => rest ++ "."
  | none => ""

theorem slash_infix_iff (text : List Char) : "/".toList <:+: text ↔ '/' ∈ text :=
  List.singleton_infix_iff _ _

theorem dot_infix_iff (text : List Char) : ".".toList <:+: text ↔ '.' ∈ text :=
  List.singleton_infix_iff _ _

/-- Text without a slash at the end of a path belongs to its last element. -/
theorem lastElement_append (path : String) {rest : String} (plain : '/' ∉ rest.toList) :
    lastElement (path ++ rest) = lastElement path ++ rest := by
  unfold lastElement Text.cutLastString
  rw [String.toList_append]
  cases found : Text.cutLast "/".toList path.toList with
  | none =>
      rw [Text.cutLast_eq_none_iff, slash_infix_iff] at found
      have nowhere : Text.cutLast "/".toList (path.toList ++ rest.toList) = none := by
        rw [Text.cutLast_eq_none_iff, slash_infix_iff, List.mem_append]
        exact fun either => either.elim found plain
      rw [nowhere]
      rfl
  | some parts =>
      obtain ⟨before, last⟩ := parts
      have behind := Text.cutLast_after (by decide) found
      have same : Text.cutLast "/".toList (path.toList ++ rest.toList) =
          some (before, last ++ rest.toList) := by
        have joined : path.toList ++ rest.toList =
            before ++ ("/".toList ++ (last ++ rest.toList)) := by
          rw [Text.cutLast_eq_append found]
          simp
        rw [joined]
        refine Text.cutLast_append List.not_mem_nil ?_ before
        rw [slash_infix_iff] at behind
        exact fun slash => (List.mem_append.1 ((slash_infix_iff _).1 slash)).elim behind plain
      rw [same]
      simp

/-- The part behind the first dot of the last element, when a name follows it. -/
theorem cut_lastElement (path : String) (name : String) :
    (Text.cutString (lastElement path ++ "." ++ name) ".").map (·.2) =
      some (dottedRest path ++ name) := by
  unfold dottedRest Text.cutString
  rw [String.toList_append, String.toList_append]
  cases found : Text.cut ".".toList (lastElement path).toList with
  | none =>
      rw [Text.cut_eq_none_iff, dot_infix_iff] at found
      have here : Text.cut ".".toList ((lastElement path).toList ++ ".".toList ++ name.toList) =
          some ((lastElement path).toList, name.toList) := by
        rw [List.append_assoc]
        exact Text.cut_append found [] name.toList
      rw [here]
      simp
  | some parts =>
      obtain ⟨before, after⟩ := parts
      have first := Text.firstAt_of_cut found
      have here := Text.cut_eq_some_iff.2 (first.withAfter (after ++ ".".toList ++ name.toList))
      have joined : (lastElement path).toList ++ ".".toList ++ name.toList =
          before ++ ".".toList ++ (after ++ ".".toList ++ name.toList) := by
        rw [first.whole]
        simp
      rw [joined, here]
      simp [String.append_assoc]

/-! ## Names of methods -/

/-- What a report takes for the receiver's type of a method. -/
theorem receiverName?_qualified {path type : String} {s : Summary}
    (identifier : Text.isIdentifier type = true)
    (qualified : s.qualifiedName = path ++ "." ++ (type ++ ".") ++ s.name)
    (method : s.receivers ≠ []) : receiverName? s = some (dottedRest path ++ type) := by
  have plain : '/' ∉ ("." ++ type).toList := by
    rw [String.toList_append, List.mem_append, not_or]
    exact ⟨by decide, Text.not_mem_identifier identifier (by decide)⟩
  have owner : Text.stripEnd? ("." ++ s.name) s.qualifiedName = some (path ++ ("." ++ type)) := by
    rw [Text.stripEnd?_eq_some_iff, qualified]
    simp only [String.append_assoc]
  have last : ((Text.cutLastString (path ++ ("." ++ type)) "/").map (·.2)).getD
      (path ++ ("." ++ type)) = lastElement path ++ "." ++ type := by
    have appended := lastElement_append path plain
    rw [lastElement] at appended
    rw [appended, String.append_assoc]
  rw [receiverName?, if_neg (by simpa using method)]
  dsimp only
  rw [owner, Option.getD_some, last, cut_lastElement]

theorem dottedRest_eq_empty_iff (path : String) :
    dottedRest path = "" ↔ '.' ∉ (lastElement path).toList := by
  unfold dottedRest Text.cutString
  cases found : Text.cut ".".toList (lastElement path).toList with
  | none =>
      rw [Text.cut_eq_none_iff, dot_infix_iff] at found
      simpa using found
  | some parts =>
      have whole := (Text.firstAt_of_cut found).whole
      simp [whole]

/-- Methods of one type are left out exactly if what is taken for the name of the type is listed. -/
theorem keeps_eq_false_iff {s : Summary} {receiver : String} (named : receiver ≠ "")
    (taken : receiverName? s = some receiver) (types : List String) :
    ({ types } : Filter).keeps s = false ↔ receiver ∈ types := by
  rw [Bool.eq_false_iff, ne_eq, Filter.keeps_iff]
  constructor
  · intro out
    by_contra unlisted
    refine out ⟨List.not_mem_nil, fun start listed => absurd listed List.not_mem_nil, ?_⟩
    rintro type listed - same
    cases taken.symm.trans same
    exact unlisted listed
  · rintro listed ⟨-, -, other⟩
    exact other receiver listed named taken

/-- A report takes what follows the first dot of the last element for the type that a method belongs
to.  It is the name of the type, and the methods of listed types are left out, exactly if the last
element of the package's path has no dot. -/
theorem receiver_readBack_iff {ps : Packages} {path type : String} {f : FuncDecl} {s : Summary}
    (identifier : Text.isIdentifier type = true) (owner : ps.receiverTypeName? f = some type)
    (name : s.name = f.name.name) (qualified : s.qualifiedName = ps.qualifiedName path f)
    (method : s.receivers ≠ []) :
    receiverName? s = some (dottedRest path ++ type) ∧
      (receiverName? s = some type ↔ '.' ∉ (lastElement path).toList) ∧
      ((∀ types, ({ types } : Filter).keeps s = false ↔ type ∈ types) ↔
        '.' ∉ (lastElement path).toList) := by
  rw [Packages.qualifiedName, owner, ← name] at qualified
  have taken := receiverName?_qualified identifier qualified method
  have named : dottedRest path ++ type ≠ "" := by
    intro empty
    have letters := congrArg String.toList empty
    rw [String.toList_append] at letters
    exact (Text.identifier_chars identifier).1 (List.append_eq_nil_iff.1 letters).2
  have right : dottedRest path ++ type = type ↔ '.' ∉ (lastElement path).toList := by
    rw [← dottedRest_eq_empty_iff, ← String.toList_inj, String.toList_append,
      List.append_left_eq_self, String.toList_eq_nil_iff]
  refine ⟨taken, by rw [taken, Option.some_inj, right], ?_⟩
  rw [← right]
  constructor
  · intro leftOut
    have listed := (keeps_eq_false_iff named taken [type]).1
      ((leftOut [type]).2 (List.mem_singleton.2 rfl))
    exact List.mem_singleton.1 listed
  · intro same types
    rw [keeps_eq_false_iff named taken, same]

/-! ## Two paths -/

namespace Demo

/-- The method `Draw` of a type `Card`, declared in a package with a given path. -/
def drawCard (path : String) : FuncDecl where
  name := ⟨0, "Draw"⟩
  receiver := some [⟨[⟨0, "c"⟩], .pointer (.named path "Card" []), ⟨0, "*Card"⟩⟩]
  body := some []

/-- The summary of the method, under its qualified name. -/
def drawSummary (qualifiedName : String) : Summary where
  name := "Draw"
  qualifiedName
  visibility := "exported"
  returnType := "()"
  restartable := true
  skippable := true
  receivers := [⟨"*Card", .stable, "", .dispatch⟩]

/-- The only dot stands in an element before the last one. -/
theorem card_readBack :
    Packages.qualifiedName [] "example.com/ui" (drawCard "example.com/ui") =
        "example.com/ui.Card.Draw" ∧
      receiverName? (drawSummary "example.com/ui.Card.Draw") = some "Card" ∧
      ∀ types, ({ types } : Filter).keeps (drawSummary "example.com/ui.Card.Draw") = false ↔
        "Card" ∈ types := by
  have qualified : "example.com/ui.Card.Draw" =
      Packages.qualifiedName [] "example.com/ui" (drawCard "example.com/ui") := by rfl
  have undotted : '.' ∉ (lastElement "example.com/ui").toList := by decide
  obtain ⟨-, taken, leftOut⟩ := @receiver_readBack_iff [] "example.com/ui" "Card"
    (drawCard "example.com/ui") (drawSummary "example.com/ui.Card.Draw") (by decide) rfl rfl
    qualified (by decide)
  exact ⟨qualified.symm, taken.2 undotted, leftOut.2 undotted⟩

/-- The version at the end of a path is taken for a part of the type's name. -/
theorem versioned_card_misread :
    Packages.qualifiedName [] "gopkg.in/ui.v3" (drawCard "gopkg.in/ui.v3") =
        "gopkg.in/ui.v3.Card.Draw" ∧
      receiverName? (drawSummary "gopkg.in/ui.v3.Card.Draw") = some "v3.Card" ∧
      ({ types := ["Card"] } : Filter).keeps (drawSummary "gopkg.in/ui.v3.Card.Draw") = true := by
  refine ⟨rfl, by decide, by decide⟩

end Demo

end ComposeStability.Report
