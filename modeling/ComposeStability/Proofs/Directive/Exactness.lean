/-
# Proofs.Directive.Exactness -- doc comments are read exactly

What is found in a doc comment is what its comments spell, one by one: valid
directives take effect, and every other comment with the prefix is one mistake
(`ReadOnFunction`, `ReadOnType`).  So the directives of two groups are those of
one after the other.  Functions and types refuse each other's directives, and
both refuse what neither knows (`reading_exact`).
-/
import ComposeStability.Proofs.Directive.Effect
import ComposeStability.Proofs.Directive.Grammar
import ComposeStability.Proofs.Directive.Reading

namespace ComposeStability.Directive

set_option autoImplicit false

open Source (Pos Comment)
open TypeGraph (Marker Markers)

/-! ## Valid directives -/

/-- The name of a switch. -/
def FunctionFlag.name : FunctionFlag → String
  | .composable => "composable"
  | .nonRestartable => "nonrestartable"
  | .readonly => "readonly"
  | .ignore => "ignore"

/-- A comment is the directive for a switch, without arguments. -/
def Switches (c : Comment) (flag : FunctionFlag) : Prop := Spelled c.text flag.name ""

/-- A comment asks for a trace: each word of its arguments is an argument of a trace. -/
def Traces (c : Comment) (t : Trace) : Prop :=
  ∃ arguments given, Spelled c.text "trace" arguments ∧
    List.Forall₂ Argument.Spelled (Text.fields arguments) given ∧
    t = ({ pos := c.pos } : Trace).withArguments given

/-- A comment is the directive for a marker, without arguments. -/
def Marks (c : Comment) (m : Marker) : Prop := Spelled c.text m.name ""

/-- A comment is a valid directive of a function. -/
def ValidOnFunction (c : Comment) : Prop := (∃ flag, Switches c flag) ∨ ∃ t, Traces c t

/-- A comment is a valid directive of a type. -/
def ValidOnType (c : Comment) : Prop := ∃ m, Marks c m

/-- The names of the directives of functions. -/
def functionNames : List String := ["composable", "nonrestartable", "readonly", "trace", "ignore"]

/-- The names of the directives of types. -/
def typeNames : List String := ["stable", "immutable", "serializable", "runtime", "skip"]

/-- The directive belongs on the other kind of declaration. -/
def Fault.isMisplaced : Fault → Bool
  | .appliesToTypes _ | .appliesToFunctions _ => true
  | _ => false

/-- The directive, or an argument of it, is unknown. -/
def Fault.isUnknown : Fault → Bool
  | .unknownName | .unexpectedArguments _ | .argumentWithoutValue _ | .unknownArgument _ => true
  | _ => false

/-! ## Names -/

theorem FunctionFlag.ofName?_iff {name : String} {flag : FunctionFlag} :
    FunctionFlag.ofName? name = some flag ↔ name = flag.name := by
  constructor
  · intro found
    unfold FunctionFlag.ofName? at found
    split at found <;> first
      | (obtain rfl := Option.some.inj found; rfl)
      | cases found
  · rintro rfl
    cases flag <;> rfl

theorem ofName?_iff {name : String} {m : Marker} :
    Marker.ofName? name = some m ↔ name = m.name := by
  constructor
  · intro found
    have same := List.find?_some found
    exact (beq_iff_eq.1 same).symm
  · rintro rfl
    cases m <;> decide

theorem mem_functionNames {name : String} :
    name ∈ functionNames ↔ name = "trace" ∨ (FunctionFlag.ofName? name).isSome = true := by
  rw [Option.isSome_iff_exists]
  constructor
  · intro listed
    simp only [functionNames, List.mem_cons, List.not_mem_nil, or_false] at listed
    rcases listed with rfl | rfl | rfl | rfl | rfl
    · exact .inr ⟨.composable, rfl⟩
    · exact .inr ⟨.nonRestartable, rfl⟩
    · exact .inr ⟨.readonly, rfl⟩
    · exact .inl rfl
    · exact .inr ⟨.ignore, rfl⟩
  · rintro (rfl | ⟨flag, found⟩)
    · decide
    · rw [FunctionFlag.ofName?_iff.1 found]
      cases flag <;> decide

theorem mem_typeNames {name : String} :
    name ∈ typeNames ↔ (Marker.ofName? name).isSome = true := by
  rw [Option.isSome_iff_exists]
  constructor
  · intro listed
    simp only [typeNames, List.mem_cons, List.not_mem_nil, or_false] at listed
    rcases listed with rfl | rfl | rfl | rfl | rfl
    · exact ⟨.stable, by decide⟩
    · exact ⟨.immutable, by decide⟩
    · exact ⟨.serializable, by decide⟩
    · exact ⟨.runtime, by decide⟩
    · exact ⟨.skip, by decide⟩
  · rintro ⟨m, found⟩
    rw [ofName?_iff.1 found]
    cases m <;> decide

/-! ## One comment -/

theorem isSetBy_iff {c : Comment} {flag : FunctionFlag} :
    flag.isSetBy c = true ↔ Switches c flag := by
  unfold FunctionFlag.isSetBy Switches
  rw [← nameAndArguments?_iff]
  cases nameAndArguments? c.text with
  | none => simp
  | some parts => simp [FunctionFlag.ofName?_iff, Prod.ext_iff]

theorem trace?_iff {c : Comment} {t : Trace} : trace? c = some t ↔ Traces c t := by
  unfold trace? Traces
  constructor
  · intro found
    split at found
    · next name arguments read =>
      split at found
      · next named =>
        obtain ⟨t', traced, rfl⟩ := Option.map_eq_some_iff.1 found
        cases made : traceOf arguments with
        | error fault => simp [made, Except.toOption] at traced
        | ok given =>
            rw [made] at traced
            obtain rfl := Option.some.inj traced
            obtain ⟨list, each, rfl⟩ := traceOf_iff.1 made
            exact ⟨arguments, list, nameAndArguments?_iff.1 (named ▸ read), each, rfl⟩
      · cases found
    · cases found
  · rintro ⟨arguments, given, spelled, each, rfl⟩
    rw [nameAndArguments?_iff.2 spelled]
    dsimp only
    rw [if_pos rfl, traceOf_iff.2 ⟨given, each, rfl⟩]
    rfl

/-- The threshold of a trace is at least one. -/
theorem Traces.threshold {c : Comment} {t : Trace} (asks : Traces c t) : 1 ≤ t.threshold := by
  obtain ⟨arguments, given, -, each, rfl⟩ := asks
  show 1 ≤ (given.filterMap Argument.threshold?).getLast?.getD 1
  cases last : (given.filterMap Argument.threshold?).getLast? with
  | none => exact Int.le_refl 1
  | some n =>
      obtain ⟨a, member, found⟩ := List.mem_filterMap.1 (List.mem_of_getLast? last)
      obtain ⟨word, -, spelled⟩ := exists_of_forall₂ (List.Forall₂.flip each) member
      cases a with
      | tag bytes => cases found
      | threshold m =>
          obtain rfl := Option.some.inj found
          obtain ⟨value, -, -, positive⟩ := spelled
          exact positive

/-- The marker that a comment puts on a type. -/
def marker? (c : Comment) : Option Marker :=
  (nameAndArguments? c.text).bind fun (name, arguments) => (typeMarker name arguments).toOption

theorem marker?_iff {c : Comment} {m : Marker} : marker? c = some m ↔ Marks c m := by
  unfold marker? Marks
  rw [← nameAndArguments?_iff, Option.bind_eq_some_iff]
  constructor
  · rintro ⟨⟨name, arguments⟩, read, found⟩
    rw [read]
    dsimp only at found
    unfold typeMarker at found
    split at found
    · next marker named =>
      split at found
      · next bare =>
        obtain rfl := Option.some.inj found
        rw [ofName?_iff.1 named, String.isEmpty_iff.1 bare]
      · cases found
    · split at found <;> cases found
  · intro read
    refine ⟨_, read, ?_⟩
    simp [typeMarker, ofName?_iff.2 rfl, Except.toOption]

/-! ## Mistakes -/

theorem validOnFunction_iff {c : Comment} :
    ValidOnFunction c ↔ (∃ flag : FunctionFlag, flag.isSetBy c = true) ∨ (trace? c).isSome = true := by
  simp only [ValidOnFunction, isSetBy_iff, Option.isSome_iff_exists, trace?_iff]

theorem validOnType_iff {c : Comment} : ValidOnType c ↔ (marker? c).isSome = true := by
  simp only [ValidOnType, Option.isSome_iff_exists, marker?_iff]

instance (c : Comment) : Decidable (ValidOnFunction c) :=
  decidable_of_iff (([.composable, .nonRestartable, .readonly, .ignore] : List FunctionFlag).any
      (·.isSetBy c) = true ∨ (trace? c).isSome = true) (by
    rw [validOnFunction_iff, List.any_eq_true]
    refine or_congr_left ⟨fun ⟨flag, _, set⟩ => ⟨flag, set⟩, fun ⟨flag, set⟩ => ⟨flag, ?_, set⟩⟩
    cases flag <;> simp)

instance (c : Comment) : Decidable (ValidOnType c) :=
  decidable_of_iff ((marker? c).isSome = true) validOnType_iff.symm

/-- What is found in the doc comment of a function: its valid directives, and one mistake for each
other comment with the prefix, in order. -/
structure ReadOnFunction (doc : List Comment) (found : OnFunction × List Mistake) : Prop where
  switches : ∀ flag, found.1.has flag = true ↔ ∃ c ∈ doc, Switches c flag
  /-- Of several valid traces the last counts. -/
  trace : ∀ t, found.1.trace = some t ↔
    ∃ before c after, doc = before ++ c :: after ∧ Traces c t ∧ ∀ d ∈ after, ∀ t', ¬ Traces d t'
  threshold : ∀ t, found.1.trace = some t → 1 ≤ t.threshold
  mistakes : found.2.map (·.comment) = (comments doc).filter fun c => ¬ ValidOnFunction c

/-- What is found in the doc comment of a type: its markers, and one mistake for each other comment
with the prefix, in order. -/
structure ReadOnType (doc : List Comment) (found : Markers × List Mistake) : Prop where
  markers : ∀ m, found.1.has m = true ↔ ∃ c ∈ doc, Marks c m
  onlyMarkers : ∃ given : List Marker, found.1 = Markers.ofList given
  mistakes : found.2.map (·.comment) = (comments doc).filter fun c => ¬ ValidOnType c

/-- A directive takes effect on a function exactly if it is valid there. -/
theorem functionEffect_isOk_iff {c : Comment} {name arguments : String}
    (spelled : Spelled c.text name arguments) :
    (functionEffect c.pos name arguments).isOk = true ↔ ValidOnFunction c := by
  rw [validOnFunction_iff]
  unfold FunctionFlag.isSetBy trace? functionEffect
  rw [nameAndArguments?_iff.2 spelled]
  dsimp only
  cases named : FunctionFlag.ofName? name with
  | some flag =>
      have other : name ≠ "trace" := by
        rintro rfl
        cases named
      cases bare : arguments.isEmpty <;> simp [other, Except.isOk, Except.toBool]
  | none =>
      by_cases traced : name = "trace"
      · cases traceOf arguments <;>
          simp [traced, Except.map, Except.isOk, Except.toBool, Except.toOption]
      · cases (Marker.ofName? name).isSome <;> simp [traced, Except.isOk, Except.toBool]

/-- A directive marks a type exactly if it is valid there. -/
theorem typeMarker_isOk_iff {c : Comment} {name arguments : String}
    (spelled : Spelled c.text name arguments) :
    (typeMarker name arguments).isOk = true ↔ ValidOnType c := by
  rw [validOnType_iff, marker?, nameAndArguments?_iff.2 spelled, Option.bind_some]
  dsimp only
  cases typeMarker name arguments <;> simp [Except.isOk, Except.toBool, Except.toOption]

section
variable {α : Type} {read : String → String → Except Fault α} {c : Comment} {m : Mistake}

theorem comment_of_mistake (found : mistake? read c = some m) : m.comment = c := by
  obtain ⟨⟨name, arguments⟩, -, refused⟩ := Option.bind_eq_some_iff.1 found
  dsimp only at refused
  split at refused
  · cases refused
  · exact congrArg Mistake.comment (Option.some.inj refused).symm

/-- A comment is a mistake if it has the prefix and is not read. -/
theorem mistake?_isSome {Valid : Prop} [Decidable Valid]
    (decides : ∀ name arguments, Spelled c.text name arguments →
      ((read name arguments).isOk = true ↔ Valid)) :
    (mistake? read c).isSome = (Text.startsWith start c.text && !decide Valid) := by
  cases starts : Text.startsWith start c.text with
  | false => simp [mistake?, nameAndArguments?_eq_none starts]
  | true =>
      obtain ⟨name, arguments, spelled⟩ := spelled_of_start starts
      have agree := decides name arguments spelled
      rw [mistake?, nameAndArguments?_iff.2 spelled, Option.bind_some, Bool.true_and]
      cases outcome : read name arguments <;> simp_all [Except.isOk, Except.toBool]

end

/-- Mistakes that name their comments, one for each comment that makes one. -/
theorem map_comment_filterMap {found? : Comment → Option Mistake}
    (names : ∀ c m, found? c = some m → m.comment = c) (doc : List Comment) :
    (doc.filterMap found?).map (·.comment) = doc.filter fun c => (found? c).isSome := by
  induction doc with
  | nil => rfl
  | cons c doc ih =>
      rw [List.filterMap_cons, List.filter_cons]
      cases found : found? c with
      | none => simpa using ih
      | some m => simpa [names c m found] using ih

theorem ofFunction_comments (doc : List Comment) :
    (ofFunction doc).2.map (·.comment) = (comments doc).filter fun c => ¬ ValidOnFunction c := by
  have names (c m) (found : mistakeOnFunction? c = some m) : m.comment = c := comment_of_mistake found
  rw [ofFunction_mistakes, map_comment_filterMap names, comments, List.filter_filter]
  refine List.filter_congr fun c _ => ?_
  rw [mistakeOnFunction?, mistake?_isSome fun _ _ => functionEffect_isOk_iff, Bool.and_comm,
    decide_not]

theorem ofType_comments (doc : List Comment) :
    (ofType doc).2.map (·.comment) = (comments doc).filter fun c => ¬ ValidOnType c := by
  have names (c m) (found : mistakeOnType? c = some m) : m.comment = c := comment_of_mistake found
  rw [ofType_mistakes, map_comment_filterMap names, comments, List.filter_filter]
  refine List.filter_congr fun c _ => ?_
  rw [mistakeOnType?, mistake?_isSome fun _ _ => typeMarker_isOk_iff, Bool.and_comm, decide_not]

/-! ## Markers -/

/-- Flags enabled one after the other are enabled at once. -/
theorem foldl_enable {width : Nat} (given : List (BitVec width)) (flags : Flags width) :
    given.foldl Flags.enable flags = flags.enable (Flags.ofList given).bits := by
  induction given generalizing flags with
  | nil => simp [Flags.ofList, Flags.enable, Flags.empty]
  | cons flag given ih =>
      have all : Flags.ofList (flag :: given) =
          (Flags.empty.enable flag).enable (Flags.ofList given).bits := ih _
      rw [List.foldl_cons, ih, all]
      simp [Flags.enable, Flags.empty, BitVec.or_assoc]

theorem ofList_append (first later : List Marker) :
    Markers.ofList (first ++ later) =
      (Markers.ofList first).enable (Markers.ofList later).bits := by
  rw [Markers.ofList, List.map_append, Flags.ofList, List.foldl_append, foldl_enable]
  rfl

theorem has_enable (ms others : Markers) (m : Marker) :
    Markers.has (ms.enable others.bits) m = (ms.has m || others.has m) := by
  have apart : (ms.bits ||| others.bits) &&& m.bit = ms.bits &&& m.bit ||| others.bits &&& m.bit :=
    BitVec.and_or_distrib_right
  have zero : ms.bits &&& m.bit ||| others.bits &&& m.bit = 0 ↔
      ms.bits &&& m.bit = 0 ∧ others.bits &&& m.bit = 0 := BitVec.or_eq_zero_iff
  rw [Bool.eq_iff_iff, Bool.or_eq_true]
  simp only [Markers.has, Flags.enabled, Flags.enable, bne_iff_ne, apart, ne_eq, zero]
  exact Decidable.not_and_iff_not_or_not

theorem has_ofList {given : List Marker} {m : Marker} :
    (Markers.ofList given).has m = true ↔ m ∈ given := by
  induction given with
  | nil => cases m <;> simp [Markers.ofList, Flags.ofList, Flags.empty, Markers.has, Flags.enabled]
  | cons set given ih =>
      have one : (Markers.ofList [set]).has m = true ↔ m = set := by
        cases set <;> cases m <;> decide
      rw [← List.singleton_append, ofList_append, has_enable, Bool.or_eq_true, one, ih,
        List.singleton_append, List.mem_cons]

theorem readOnType_markers (acc : Markers × List Mistake) (c : Comment) :
    (readOnType acc c).1 = (marker? c).elim acc.1 (acc.1.enable ·.bit) := by
  unfold readOnType marker?
  cases nameAndArguments? c.text with
  | none => rfl
  | some parts =>
      dsimp only [Option.bind_some]
      cases typeMarker parts.1 parts.2 <;> simp [Except.toOption]

theorem foldl_readOnType (doc : List Comment) (acc : Markers × List Mistake) :
    (doc.foldl readOnType acc).1 =
      ((doc.filterMap marker?).map Marker.bit).foldl Flags.enable acc.1 := by
  induction doc generalizing acc with
  | nil => rfl
  | cons c doc ih =>
      rw [List.foldl_cons, ih, readOnType_markers, List.filterMap_cons]
      cases marker? c <;> rfl

theorem ofType_markers (doc : List Comment) :
    (ofType doc).1 = Markers.ofList (doc.filterMap marker?) :=
  foldl_readOnType doc _

/-! ## Causes -/

/-- The fault is one of an argument of a trace. -/
def Fault.ofArgument : Fault → Bool
  | .argumentWithoutValue _ | .unknownArgument _ | .malformedTag _ | .invalidThreshold _ => true
  | _ => false

theorem addArgument_fault {t : Trace} {word : String} {fault : Fault}
    (failed : addArgument t word = .error fault) : fault.ofArgument = true := by
  unfold addArgument tagOf thresholdOf at failed
  split at failed
  · cases failed
    rfl
  · split at failed
    · split at failed <;> cases failed
      rfl
    · cases failed
  · split at failed
    · split at failed <;> cases failed
      rfl
    · cases failed
      rfl
  · cases failed
    rfl

theorem traceOf_fault {arguments : String} {fault : Fault}
    (failed : traceOf arguments = .error fault) : fault.ofArgument = true := by
  unfold traceOf at failed
  generalize Text.fields arguments = words at failed
  generalize ({} : Trace) = t at failed
  induction words generalizing t with
  | nil => cases failed
  | cons word words ih =>
      rw [List.foldlM_cons] at failed
      cases added : addArgument t word with
      | error first =>
          rw [added] at failed
          obtain rfl := Except.error.inj failed
          exact addArgument_fault added
      | ok t' =>
          rw [added] at failed
          exact ih t' failed

/-- The fault that a reader finds lies in what a directive is given, not in its name. -/
def Fault.ofArguments (fault : Fault) : Prop :=
  fault.isMisplaced = false ∧ fault ≠ .unknownName

theorem ofArguments_of_ofArgument {fault : Fault} (argument : fault.ofArgument = true) :
    fault.ofArguments := by
  cases fault <;> simp_all [Fault.ofArguments, Fault.ofArgument, Fault.isMisplaced]

theorem not_mem_typeNames {name : String} (listed : name ∈ functionNames) : name ∉ typeNames := by
  have apart : ∀ n ∈ functionNames, n ∉ typeNames := by decide
  exact apart name listed

/-- A function refuses a directive of its own only for its arguments. -/
theorem functionEffect_own {pos : Pos} {name arguments : String} {fault : Fault}
    (own : name ∈ functionNames) (failed : functionEffect pos name arguments = .error fault) :
    fault.ofArguments := by
  unfold functionEffect at failed
  split at failed
  · split at failed <;> cases failed
    exact ⟨rfl, nofun⟩
  · next unnamed =>
    have traced : name = "trace" := by
      rcases mem_functionNames.1 own with traced | found
      · exact traced
      · rw [unnamed] at found
        cases found
    rw [if_pos (by simpa using traced)] at failed
    cases made : traceOf arguments with
    | ok t => simp [made, Except.map] at failed
    | error first =>
        rw [made] at failed
        obtain rfl := Except.error.inj failed
        exact ofArguments_of_ofArgument (traceOf_fault made)

/-- A function has no directive of another name. -/
theorem functionEffect_other {pos : Pos} {name arguments : String} (other : name ∉ functionNames) :
    functionEffect pos name arguments =
      .error (if name ∈ typeNames then .appliesToTypes name else .unknownName) := by
  rw [mem_functionNames, not_or] at other
  have unnamed : FunctionFlag.ofName? name = none := by simpa using other.2
  unfold functionEffect
  rw [unnamed]
  dsimp only
  rw [if_neg (by simpa using other.1)]
  by_cases onTypes : name ∈ typeNames
  · rw [if_pos (mem_typeNames.1 onTypes), if_pos onTypes]
  · rw [if_neg (mt mem_typeNames.2 onTypes), if_neg onTypes]

/-- A type refuses a directive of its own only for its arguments. -/
theorem typeMarker_own {name arguments : String} {fault : Fault} (own : name ∈ typeNames)
    (failed : typeMarker name arguments = .error fault) : fault.ofArguments := by
  obtain ⟨m, named⟩ := Option.isSome_iff_exists.1 (mem_typeNames.1 own)
  unfold typeMarker at failed
  rw [named] at failed
  dsimp only at failed
  split at failed <;> cases failed
  exact ⟨rfl, nofun⟩

/-- A type has no directive of another name. -/
theorem typeMarker_other {name arguments : String} (other : name ∉ typeNames) :
    typeMarker name arguments =
      .error (if name ∈ functionNames then .appliesToFunctions name else .unknownName) := by
  have unnamed : Marker.ofName? name = none := by simpa using mt mem_typeNames.2 other
  unfold typeMarker
  rw [unnamed]
  dsimp only
  by_cases onFunctions : name ∈ functionNames
  · rw [if_pos (by simpa using mem_functionNames.1 onFunctions), if_pos onFunctions]
  · rw [if_neg (by simpa using mt mem_functionNames.2 onFunctions), if_neg onFunctions]

/-! ## A single comment -/

/-- How a directive of a name is refused: as misplaced where it belongs on the other kind of
declaration, and on both kinds as unknown where it belongs on none. -/
structure RefusedByName (c : Comment) (name : String) : Prop where
  misplacedOnType :
    (ofType [c]).2.any (·.fault.isMisplaced) = true ↔ name ∈ functionNames
  misplacedOnFunction :
    (ofFunction [c]).2.any (·.fault.isMisplaced) = true ↔ name ∈ typeNames
  unknown :
    (ofFunction [c]).2.any (·.fault.isUnknown) = true ∧
        (ofType [c]).2.any (·.fault.isUnknown) = true ↔
      name ∉ functionNames ∧ name ∉ typeNames
  unknownOnFunction :
    (ofFunction [c]).2 = [⟨c, .unknownName⟩] ↔ name ∉ functionNames ∧ name ∉ typeNames
  unknownOnType :
    (ofType [c]).2 = [⟨c, .unknownName⟩] ↔ name ∉ functionNames ∧ name ∉ typeNames

/-- The mistake of a comment that a reader refuses, if it does. -/
def refusal {α : Type} (c : Comment) (outcome : Except Fault α) : List Mistake :=
  match outcome with
  | .ok _ => []
  | .error fault => [⟨c, fault⟩]

theorem mistakes_one {α : Type} {read : String → String → Except Fault α} {c : Comment}
    {name arguments : String} (spelled : Spelled c.text name arguments) :
    [c].filterMap (fun c => mistake? read c) = refusal c (read name arguments) := by
  rw [List.filterMap_cons, mistake?, nameAndArguments?_iff.2 spelled, Option.bind_some]
  dsimp only
  cases read name arguments <;> rfl

theorem ofFunction_one {c : Comment} {name arguments : String}
    (spelled : Spelled c.text name arguments) :
    (ofFunction [c]).2 = refusal c (functionEffect c.pos name arguments) := by
  rw [ofFunction_mistakes, ← mistakes_one spelled]
  rfl

theorem ofType_one {c : Comment} {name arguments : String}
    (spelled : Spelled c.text name arguments) :
    (ofType [c]).2 = refusal c (typeMarker name arguments) := by
  rw [ofType_mistakes, ← mistakes_one spelled]
  rfl

/-- What is refused for its arguments is not refused for its name. -/
theorem refusal_ofArguments {α : Type} {c : Comment} {outcome : Except Fault α}
    (own : ∀ {fault}, outcome = .error fault → fault.ofArguments) :
    (refusal c outcome).any (·.fault.isMisplaced) = false ∧
      refusal c outcome ≠ [⟨c, .unknownName⟩] := by
  cases outcome with
  | ok value => exact ⟨rfl, nofun⟩
  | error fault =>
      obtain ⟨placed, known⟩ := own rfl
      exact ⟨by simp [refusal, placed], by simp [refusal, known]⟩

theorem refusedByName {c : Comment} {name arguments : String}
    (spelled : Spelled c.text name arguments) : RefusedByName c name := by
  have onFunction := ofFunction_one spelled
  have onType := ofType_one spelled
  by_cases own : name ∈ functionNames
  · have other := not_mem_typeNames own
    obtain ⟨placed, known⟩ := refusal_ofArguments (c := c) (functionEffect_own own)
    rw [← onFunction] at placed known
    rw [typeMarker_other other, if_pos own, refusal] at onType
    constructor
    · simp [onType, own, Fault.isMisplaced]
    · simp [placed, other]
    · simp [onType, own, Fault.isUnknown]
    · simp [known, own]
    · simp [onType, own]
  · rw [functionEffect_other own] at onFunction
    by_cases named : name ∈ typeNames
    · obtain ⟨placed, known⟩ := refusal_ofArguments (c := c) (typeMarker_own named)
      rw [← onType] at placed known
      rw [if_pos named, refusal] at onFunction
      constructor
      · simp [placed, own]
      · simp [onFunction, named, Fault.isMisplaced]
      · simp [onFunction, named, Fault.isUnknown]
      · simp [onFunction, named]
      · simp [known, named]
    · rw [typeMarker_other named, if_neg own, refusal] at onType
      rw [if_neg named, refusal] at onFunction
      constructor
      · simp [onType, own, Fault.isMisplaced]
      · simp [onFunction, named, Fault.isMisplaced]
      · simp [onFunction, onType, own, named, Fault.isUnknown]
      · simp [onFunction, own, named]
      · simp [onType, own, named]

/-! ## Doc comments -/

/-- The directives of a function in two groups of comments. -/
def OnFunction.merge (first later : OnFunction) : OnFunction where
  composable := first.composable || later.composable
  nonRestartable := first.nonRestartable || later.nonRestartable
  readonly := first.readonly || later.readonly
  ignore := first.ignore || later.ignore
  trace := later.trace.or first.trace

theorem OnFunction.ext_has {d d' : OnFunction} (has : ∀ flag, d.has flag = d'.has flag)
    (trace : d.trace = d'.trace) : d = d' := by
  obtain ⟨_, _, _, _, _⟩ := d
  obtain ⟨_, _, _, _, _⟩ := d'
  obtain rfl := has .composable
  obtain rfl := has .nonRestartable
  obtain rfl := has .readonly
  obtain rfl := has .ignore
  obtain rfl := trace
  rfl

theorem OnFunction.merge_has (first later : OnFunction) (flag : FunctionFlag) :
    (first.merge later).has flag = (first.has flag || later.has flag) := by
  cases flag <;> rfl

theorem ofFunction_append (first later : List Comment) :
    ofFunction (first ++ later) =
      ((ofFunction first).1.merge (ofFunction later).1,
        (ofFunction first).2 ++ (ofFunction later).2) := by
  refine Prod.ext (OnFunction.ext_has (fun flag => ?_) ?_) ?_
  · simp [ofFunction_has, OnFunction.merge_has]
  · simp [ofFunction_trace, OnFunction.merge, List.getLast?_append]
  · simp [ofFunction_mistakes]

theorem ofType_append (first later : List Comment) :
    ofType (first ++ later) =
      ((ofType first).1.enable (ofType later).1.bits, (ofType first).2 ++ (ofType later).2) := by
  refine Prod.ext ?_ ?_
  · simp [ofType_markers, ofList_append]
  · simp [ofType_mistakes]

theorem readOnFunction_exact (doc : List Comment) : ReadOnFunction doc (ofFunction doc) := by
  have last (t : Trace) : (ofFunction doc).1.trace = some t ↔
      ∃ before c after, doc = before ++ c :: after ∧ Traces c t ∧
        ∀ d ∈ after, ∀ t', ¬ Traces d t' := by
    have none_iff (d : Comment) : trace? d = none ↔ ∀ t', ¬ Traces d t' := by
      simp only [Option.eq_none_iff_forall_not_mem, Option.mem_def, trace?_iff]
    rw [ofFunction_trace, List.getLast?_filterMap, List.findSome?_eq_some_iff]
    constructor
    · rintro ⟨after, c, before, whole, asks, nothing⟩
      refine ⟨before.reverse, c, after.reverse, ?_, trace?_iff.1 asks, fun d later =>
        (none_iff d).1 (nothing d (List.mem_reverse.1 later))⟩
      rw [← List.reverse_reverse doc, whole]
      simp
    · rintro ⟨before, c, after, rfl, asks, nothing⟩
      exact ⟨after.reverse, c, before.reverse, by simp, trace?_iff.2 asks, fun d later =>
        (none_iff d).2 (nothing d (List.mem_reverse.1 later))⟩
  constructor
  · intro flag
    simp only [ofFunction_has, List.any_eq_true, isSetBy_iff]
  · exact last
  · intro t traced
    obtain ⟨-, c, -, -, asks, -⟩ := (last t).1 traced
    exact asks.threshold
  · exact ofFunction_comments doc

theorem readOnType_exact (doc : List Comment) : ReadOnType doc (ofType doc) := by
  constructor
  · intro m
    simp only [ofType_markers, has_ofList, List.mem_filterMap, marker?_iff]
  · exact ⟨_, ofType_markers doc⟩
  · exact ofType_comments doc

/-- A reader that passes over all but directives finds in them all that it finds. -/
theorem foldl_comments {β : Type} {read : β → Comment → β}
    (passes : ∀ acc c, nameAndArguments? c.text = none → read acc c = acc) (doc : List Comment)
    (acc : β) : (comments doc).foldl read acc = doc.foldl read acc := by
  rw [comments, List.foldl_filter]
  refine congrFun (congrFun (congrArg _ (funext fun acc => funext fun c => ?_)) acc) doc
  split
  · rfl
  · next other =>
    exact (passes acc c (nameAndArguments?_eq_none (Bool.eq_false_iff.2 other))).symm

/-- Doc comments are read exactly and comment by comment.  Functions and types tell a directive of
the other kind, by its name, from one that does not exist. -/
theorem reading_exact :
    (∀ doc, ReadOnFunction doc (ofFunction doc) ∧ ofFunction doc = ofFunction (comments doc)) ∧
    (∀ doc, ReadOnType doc (ofType doc) ∧ ofType doc = ofType (comments doc)) ∧
    (∀ first later, ofFunction (first ++ later) =
      ((ofFunction first).1.merge (ofFunction later).1,
        (ofFunction first).2 ++ (ofFunction later).2)) ∧
    (∀ first later, ofType (first ++ later) =
      ((ofType first).1.enable (ofType later).1.bits, (ofType first).2 ++ (ofType later).2)) ∧
    ∀ c : Comment, Text.startsWith start c.text = true → ∃ name arguments,
      (∀ name' arguments', Spelled c.text name' arguments' ↔ name' = name ∧ arguments' = arguments) ∧
        RefusedByName c name := by
  refine ⟨fun doc => ⟨readOnFunction_exact doc, ?_⟩, fun doc => ⟨readOnType_exact doc, ?_⟩,
    ofFunction_append, ofType_append, fun c starts => ?_⟩
  · exact (foldl_comments (fun acc c other => by rw [readOnFunction, other]) doc _).symm
  · exact (foldl_comments (fun acc c other => by rw [readOnType, other]) doc _).symm
  · obtain ⟨name, arguments, spelled⟩ := spelled_of_start starts
    refine ⟨name, arguments, fun name' arguments' => ?_, refusedByName spelled⟩
    rw [← nameAndArguments?_iff, nameAndArguments?_iff.2 spelled, Option.some.injEq,
      Prod.mk.injEq, eq_comm (a := name), eq_comm (a := arguments)]

/-- A directive of functions with a comment behind it is refused on a type as misplaced. -/
theorem readonly_refused_on_types :
    Text.startsWith start "//stableguard:readonly // no writes" = true ∧
    ∃ name arguments,
      (∀ name' arguments', Spelled "//stableguard:readonly // no writes" name' arguments' ↔
        name' = name ∧ arguments' = arguments) ∧
      RefusedByName ⟨7, "//stableguard:readonly // no writes"⟩ name :=
  ⟨by decide, reading_exact.2.2.2.2 ⟨7, "//stableguard:readonly // no writes"⟩ (by decide)⟩

end ComposeStability.Directive
