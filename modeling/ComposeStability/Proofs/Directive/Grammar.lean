/-
# Proofs.Directive.Grammar -- how directives are spelled

After the prefix, a directive has a name and, behind a space, arguments; a
comment behind it starts at the first ` //` (`Spelled`).  Every comment with the
prefix spells one directive, and that is what is read (`nameAndArguments?_iff`).
The arguments of a trace are words of the form `tag=` or `threshold=` and a
value; of several of a kind the last counts (`traceOf_iff`).
-/
import ComposeStability.Directive
import ComposeStability.Proofs.Outcome
import ComposeStability.Proofs.Text.Occurrence
import ComposeStability.Proofs.Text.Separated

namespace ComposeStability.Directive

set_option autoImplicit false

open Source (Pos)
open Text (FirstAt)

/-! ## Names and arguments -/

/-- What a comment behind a directive starts with. -/
def commentStart : List Char := [' ', '/', '/']

/-- `body` is the text without the comment behind it. -/
inductive Uncommented (text : List Char) : List Char → Prop where
  | whole (absent : ¬ commentStart <:+: text) : Uncommented text text
  | before {body comment : List Char} (first : FirstAt commentStart text body comment) :
      Uncommented text body

/-- A name, or a name with arguments; white space around the arguments does not count. -/
inductive Divided : List Char → List Char → List Char → Prop where
  | bare {name : List Char} (whole : ' ' ∉ name) : Divided name name []
  | call {name : List Char} (whole : ' ' ∉ name) (rest : List Char) :
      Divided (name ++ ' ' :: rest) name (Text.trimBlanks rest)

/-- A comment is the directive with this name and these arguments. -/
def Spelled (text name arguments : String) : Prop :=
  ∃ rest body, text.toList = start.toList ++ rest ∧ Uncommented rest body ∧
    Divided body name.toList arguments.toList

/-! ## Reading them -/

/-- The text up to the first ` //`. -/
def bodyOf (rest : List Char) : List Char :=
  match Text.cut commentStart rest with
  | some (before, _) => before
  | none => rest

/-- The name and the arguments in a body. -/
def partsOf (body : List Char) : List Char × List Char :=
  match Text.cut [' '] body with
  | some (before, after) => (before, Text.trimBlanks after)
  | none => (body, [])

theorem cutString_ofList (sep : String) (cs : List Char) :
    Text.cutString (String.ofList cs) sep =
      (Text.cut sep.toList cs).map fun parts => (String.ofList parts.1, String.ofList parts.2) := by
  rw [Text.cutString, String.toList_ofList (l := cs)]

theorem nameAndArguments?_eq (text : String) :
    nameAndArguments? text = (Text.afterStart? start.toList text.toList).map fun rest =>
      (String.ofList (partsOf (bodyOf rest)).1, String.ofList (partsOf (bodyOf rest)).2) := by
  unfold nameAndArguments? Text.stripStart?
  rw [Option.map_map]
  refine congrArg (Option.map · _) (funext fun rest => ?_)
  have comment : " //".toList = commentStart := rfl
  have space : " ".toList = [' '] := rfl
  rw [Function.comp_apply, cutString_ofList, comment, bodyOf]
  cases Text.cut commentStart rest with
  | none =>
      dsimp only [Option.map]
      rw [cutString_ofList, space, partsOf]
      cases Text.cut [' '] rest with
      | none => rfl
      | some parts => simp [Text.trim]
  | some cut =>
      dsimp only [Option.map]
      rw [cutString_ofList, space, partsOf]
      cases Text.cut [' '] cut.1 with
      | none => rfl
      | some parts => simp [Text.trim]

theorem uncommented_iff {text body : List Char} : Uncommented text body ↔ body = bodyOf text := by
  unfold bodyOf
  cases found : Text.cut commentStart text with
  | none =>
      have absent := Text.cut_eq_none_iff.1 found
      constructor
      · rintro (_ | ⟨first⟩)
        · rfl
        · exact absurd ⟨_, _, first.whole.symm⟩ absent
      · rintro rfl
        exact .whole absent
  | some parts =>
      have here := Text.firstAt_of_cut found
      constructor
      · rintro (⟨absent⟩ | ⟨first⟩)
        · exact absurd ⟨_, _, here.whole.symm⟩ absent
        · exact (first.unique here).1
      · rintro rfl
        exact .before here

/-- The character that a text is cut at does not occur before. -/
theorem not_mem_before {a : Char} {text before after : List Char}
    (first : FirstAt [a] text before after) : a ∉ before := by
  intro inside
  obtain ⟨left, right, rfl⟩ := List.append_of_mem inside
  have no_later := first.first left (right ++ a :: after) (by simp [first.whole])
  rw [List.length_append, List.length_cons] at no_later
  omega

theorem divided_iff {body name arguments : List Char} :
    Divided body name arguments ↔ (name, arguments) = partsOf body := by
  unfold partsOf
  constructor
  · rintro (⟨whole⟩ | ⟨whole, rest⟩)
    · rw [Text.cut_absent whole]
    · have found := Text.cut_append whole [] rest
      rw [List.singleton_append] at found
      rw [found]
  · cases found : Text.cut [' '] body with
    | none =>
        rintro same
        obtain ⟨rfl, rfl⟩ := Prod.mk.inj same
        exact .bare fun inside =>
          Text.cut_eq_none_iff.1 found ((List.singleton_infix_iff ' ' _).2 inside)
    | some parts =>
        rintro same
        obtain ⟨rfl, rfl⟩ := Prod.mk.inj same
        have first := Text.firstAt_of_cut found
        rw [first.whole, List.append_assoc, List.singleton_append]
        exact .call (not_mem_before first) parts.2

/-- What is read of a comment is what it spells. -/
theorem nameAndArguments?_iff {text name arguments : String} :
    nameAndArguments? text = some (name, arguments) ↔ Spelled text name arguments := by
  rw [nameAndArguments?_eq, Option.map_eq_some_iff]
  constructor
  · rintro ⟨rest, starts, read⟩
    obtain ⟨rfl, rfl⟩ := Prod.mk.inj read
    refine ⟨rest, bodyOf rest, Text.afterStart?_eq_some_iff.1 starts, uncommented_iff.2 rfl, ?_⟩
    exact divided_iff.2 (by simp)
  · rintro ⟨rest, body, whole, uncommented, divided⟩
    refine ⟨rest, Text.afterStart?_eq_some_iff.2 whole, ?_⟩
    rw [← uncommented_iff.1 uncommented, ← divided_iff.1 divided]
    simp

theorem startsWith_iff {text : String} :
    Text.startsWith start text = true ↔ ∃ rest, text.toList = start.toList ++ rest := by
  rw [Text.startsWith, List.isPrefixOf_iff_prefix]
  exact ⟨fun ⟨rest, whole⟩ => ⟨rest, whole.symm⟩, fun ⟨rest, whole⟩ => ⟨rest, whole.symm⟩⟩

/-- Every comment that starts with the prefix is a directive of some name. -/
theorem spelled_of_start {text : String} (starts : Text.startsWith start text = true) :
    ∃ name arguments, Spelled text name arguments := by
  obtain ⟨rest, whole⟩ := startsWith_iff.1 starts
  have read := nameAndArguments?_eq text
  rw [Text.afterStart?_eq_some_iff.2 whole, Option.map_some] at read
  exact ⟨_, _, nameAndArguments?_iff.1 read⟩

theorem Spelled.starts {text name arguments : String} (spelled : Spelled text name arguments) :
    Text.startsWith start text = true := by
  obtain ⟨rest, -, whole, -⟩ := spelled
  exact startsWith_iff.2 ⟨rest, whole⟩

theorem nameAndArguments?_eq_none {text : String} (other : Text.startsWith start text = false) :
    nameAndArguments? text = none := by
  cases read : nameAndArguments? text with
  | none => rfl
  | some parts =>
      have starts := (nameAndArguments?_iff.1 read).starts
      rw [other] at starts
      cases starts

/-! ## Arguments of a trace -/

/-- What one argument of a trace says. -/
inductive Argument where
  | tag (bytes : List UInt8)
  | threshold (value : Int)

/-- A value is a tag: its literal if it starts with a quotation mark, else its text. -/
def TagSpelled (value : String) (bytes : List UInt8) : Prop :=
  if Text.startsWith "\"" value then Text.unquoteBytes? value = some bytes
  else Text.toBytes value = bytes

namespace Argument

/-- A word is an argument: `tag=` and a tag, or `threshold=` and an integer of at least one. -/
def Spelled (word : String) (a : Argument) : Prop :=
  match a with
  | tag bytes => ∃ value, word = "tag=" ++ value ∧ TagSpelled value bytes
  | threshold n => ∃ value, word = "threshold=" ++ value ∧ Text.integer? value = some n ∧ 1 ≤ n

def tag? (a : Argument) : Option (List UInt8) :=
  match a with
  | tag bytes => some bytes
  | threshold _ => none

def threshold? (a : Argument) : Option Int :=
  match a with
  | tag _ => none
  | threshold n => some n

/-- A trace with one more argument. -/
def addTo (t : Trace) (a : Argument) : Trace :=
  match a with
  | tag bytes => { t with tag := bytes }
  | threshold n => { t with threshold := n }

end Argument

/-- A trace with more arguments: of several tags or thresholds the last counts. -/
def Trace.withArguments (t : Trace) (given : List Argument) : Trace :=
  { t with
    tag := (given.filterMap Argument.tag?).getLast?.getD t.tag
    threshold := (given.filterMap Argument.threshold?).getLast?.getD t.threshold }

theorem tagOf_iff {value : String} {bytes : List UInt8} :
    tagOf value = .ok bytes ↔ TagSpelled value bytes := by
  unfold tagOf TagSpelled
  split
  · cases Text.unquoteBytes? value <;> simp
  · simp

theorem thresholdOf_iff {value : String} {n : Int} :
    thresholdOf value = .ok n ↔ Text.integer? value = some n ∧ 1 ≤ n := by
  unfold thresholdOf
  cases Text.integer? value with
  | none => simp
  | some m =>
      dsimp only
      split
      · next positive =>
        constructor
        · rintro same
          obtain rfl := Except.ok.inj same
          exact ⟨rfl, positive⟩
        · rintro ⟨same, -⟩
          rw [Option.some.inj same]
      · next small =>
        constructor
        · nofun
        · rintro ⟨same, positive⟩
          exact absurd (Option.some.inj same ▸ positive) small

/-- A word is cut at its first equals sign. -/
theorem cutString_eq_iff {word key value : String} (plain : '=' ∉ key.toList) :
    Text.cutString word "=" = some (key, value) ↔ word = key ++ "=" ++ value := by
  have cut (rest : String) :
      Text.cutString (key ++ "=" ++ rest) "=" = some (key, rest) := by
    have found := Text.cut_append plain [] rest.toList
    have text : (key ++ "=" ++ rest).toList = key.toList ++ (['='] ++ rest.toList) := by simp
    rw [Text.cutString, text, show "=".toList = ['='] from rfl, found]
    simp
  constructor
  · intro found
    obtain ⟨parts, cutThere, same⟩ := Option.map_eq_some_iff.1 found
    obtain ⟨rfl, rfl⟩ := Prod.mk.inj same
    rw [← String.toList_inj, Text.cut_eq_append cutThere]
    simp
  · rintro rfl
    exact cut value

theorem addArgument_iff {t t' : Trace} {word : String} :
    addArgument t word = .ok t' ↔ ∃ a, Argument.Spelled word a ∧ t' = a.addTo t := by
  have tagCut (value : String) :
      Text.cutString word "=" = some ("tag", value) ↔ word = "tag=" ++ value :=
    cutString_eq_iff (by decide)
  have thresholdCut (value : String) :
      Text.cutString word "=" = some ("threshold", value) ↔ word = "threshold=" ++ value :=
    cutString_eq_iff (by decide)
  constructor
  · intro added
    unfold addArgument at added
    split at added
    · cases added
    · next value found =>
      cases read : tagOf value with
      | error fault => simp [read, Except.map] at added
      | ok bytes =>
          rw [read] at added
          exact ⟨.tag bytes, ⟨value, (tagCut value).1 found, tagOf_iff.1 read⟩,
            (Except.ok.inj added).symm⟩
    · next value found =>
      cases read : thresholdOf value with
      | error fault => simp [read, Except.map] at added
      | ok n =>
          rw [read] at added
          exact ⟨.threshold n, ⟨value, (thresholdCut value).1 found, thresholdOf_iff.1 read⟩,
            (Except.ok.inj added).symm⟩
    · cases added
  · rintro ⟨a, spelled, rfl⟩
    unfold addArgument
    cases a with
    | tag bytes =>
        obtain ⟨value, shape, tag⟩ := spelled
        rw [(tagCut value).2 shape]
        simp [tagOf_iff.2 tag, Except.map, Argument.addTo]
    | threshold n =>
        obtain ⟨value, shape, number⟩ := spelled
        rw [(thresholdCut value).2 shape]
        simp [thresholdOf_iff.2 number, Except.map, Argument.addTo]

theorem withArguments_cons (t : Trace) (a : Argument) (given : List Argument) :
    t.withArguments (a :: given) = (a.addTo t).withArguments given := by
  cases a with
  | tag bytes =>
      simp [Trace.withArguments, Argument.addTo, Argument.tag?, Argument.threshold?,
        List.getLast?_cons]
  | threshold n =>
      simp [Trace.withArguments, Argument.addTo, Argument.tag?, Argument.threshold?,
        List.getLast?_cons]

/-- Words are added to a trace exactly if each of them is an argument. -/
theorem foldlM_addArgument_iff {words : List String} {t t' : Trace} :
    words.foldlM addArgument t = .ok t' ↔
      ∃ given, List.Forall₂ Argument.Spelled words given ∧ t' = t.withArguments given := by
  induction words generalizing t with
  | nil =>
      constructor
      · rintro same
        obtain rfl := Except.ok.inj same
        exact ⟨[], .nil, rfl⟩
      · rintro ⟨given, each, rfl⟩
        cases each
        rfl
  | cons word words ih =>
      rw [List.foldlM_cons, bind_eq_ok]
      constructor
      · rintro ⟨between, added, later⟩
        obtain ⟨a, spelled, rfl⟩ := addArgument_iff.1 added
        obtain ⟨given, each, rfl⟩ := ih.1 later
        exact ⟨a :: given, .cons spelled each, (withArguments_cons t a given).symm⟩
      · rintro ⟨given, each, rfl⟩
        cases each with
        | @cons _ a _ given spelled each =>
            refine ⟨a.addTo t, addArgument_iff.2 ⟨a, spelled, rfl⟩, ih.2 ⟨given, each, ?_⟩⟩
            exact withArguments_cons t a given

/-- The arguments of a trace are read exactly if each word is an argument. -/
theorem traceOf_iff {arguments : String} {t : Trace} :
    traceOf arguments = .ok t ↔ ∃ given,
      List.Forall₂ Argument.Spelled (Text.fields arguments) given ∧
        t = ({} : Trace).withArguments given :=
  foldlM_addArgument_iff

end ComposeStability.Directive
