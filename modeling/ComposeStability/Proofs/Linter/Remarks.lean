/-
# Proofs.Linter.Remarks -- where the remarks on a function stand

A function that cannot be skipped is reported with a remark on each receiver and
each parameter that is not stable, in the order of the signature
(`messages_related`).  The identifier of a parameter is looked up by its name, and
of several with one name the last is found (`parameterIdent?_eq_lastNamed?`).  So
a remark stands at the identifier of its parameter unless another parameter of the
same name comes later.  In a declaration that type-checks this happens to blank
parameters alone (`related_expected_iff`).
-/
import ComposeStability.Linter.Diagnostic
import ComposeStability.Proofs.Program.FreshReport

namespace ComposeStability.Linter

set_option autoImplicit false

open Source (Pos Ident FieldGroup FuncDecl)
open Stability (Summary Parameter Receiver)

/-! ## Declarations -/

/-- The identifiers that declare parameters, in order. -/
def identifiers (f : FuncDecl) : List Ident := f.params.flatMap (·.names)

/-- What declares each parameter of the signature, in its order; nothing does for one without a
name. -/
def declarers (f : FuncDecl) : List (Option Ident) :=
  f.params.flatMap fun group => if group.names.isEmpty then [none] else group.names.map some

/-- The name that an identifier gives a parameter. -/
def declaredName (declarer : Option Ident) : String := (declarer.map (·.name)).getD ""

/-- A summary lists the parameters of a declaration one by one, and receivers of a method alone; the
identifiers of the declaration have names. -/
structure Lists (f : FuncDecl) (s : Summary) : Prop where
  parameters : s.parameters.map (·.name) = f.signature.params.map (·.name)
  receivers : s.receivers ≠ [] → f.receiver.getD [] ≠ []
  named : ∀ id ∈ identifiers f, id.name ≠ ""

theorem names_declarers (f : FuncDecl) :
    (declarers f).map declaredName = f.signature.params.map (·.name) := by
  have each (group : FieldGroup) :
      (if group.names.isEmpty then [none] else group.names.map some).map declaredName =
        group.toVariables.map (·.name) := by
    rw [FieldGroup.toVariables]
    split
    · rfl
    · rw [List.map_map, List.map_map]
      rfl
  rw [declarers, FuncDecl.signature, List.map_flatMap, List.map_flatMap]
  exact congrArg (List.flatMap · f.params) (funext each)

theorem mem_identifiers {f : FuncDecl} {id : Ident} (declares : some id ∈ declarers f) :
    id ∈ identifiers f := by
  obtain ⟨group, listed, member⟩ := List.mem_flatMap.1 declares
  refine List.mem_flatMap.2 ⟨group, listed, ?_⟩
  split at member
  · cases List.mem_singleton.1 member
  · obtain ⟨other, named, same⟩ := List.mem_map.1 member
    exact Option.some.inj same ▸ named

/-- A parameter and what declares it have the same name. -/
theorem name_of_mem_zip {f : FuncDecl} {s : Summary} (lists : Lists f s) {p : Parameter}
    {declarer : Option Ident} (member : (p, declarer) ∈ s.parameters.zip (declarers f)) :
    p.name = declaredName declarer := by
  have names : s.parameters.map (·.name) = (declarers f).map declaredName :=
    lists.parameters.trans (names_declarers f).symm
  have each := forall₂_of_map_eq (P := fun p declarer => p.name = declaredName declarer) names
    fun _ _ _ _ same => same
  exact (List.forall₂_iff_zip.1 each).2 member

/-! ## Looking up a name -/

/-- The last identifier of a name among those that declare parameters. -/
def lastNamed? (f : FuncDecl) (name : String) : Option Ident :=
  ((identifiers f).filter fun id => id.name == name).getLast?

theorem parameterIdent?_eq_lastNamed? (f : FuncDecl) (name : String) :
    parameterIdent? f name = lastNamed? f name := by
  rw [parameterIdent?, lastNamed?, List.getLast?_eq_head?_reverse, ← List.filter_reverse,
    List.head?_filter]
  rfl

theorem lastNamed?_eq_some {f : FuncDecl} {name : String} {last : Ident}
    (found : lastNamed? f name = some last) : last ∈ identifiers f ∧ last.name = name := by
  have member := List.mem_of_getLast? found
  simpa using member

theorem exists_lastNamed? {f : FuncDecl} {id : Ident} (declares : id ∈ identifiers f) :
    ∃ last, lastNamed? f id.name = some last := by
  rw [← Option.isSome_iff_exists, lastNamed?, List.getLast?_isSome]
  exact List.ne_nil_of_mem (List.mem_filter.2 ⟨declares, beq_self_eq_true id.name⟩)

/-! ## Remarks -/

/-- What is said of a receiver. -/
def receiverMessage (r : Receiver) : String :=
  "Receiver of type " ++ r.type ++ " is " ++ describe r.stability ++ ": " ++ r.reason

/-- What is said of a parameter. -/
def parameterMessage (p : Parameter) : String :=
  "Parameter '" ++ p.name ++ "' of type " ++ p.type ++ " is " ++ describe p.stability ++ ": " ++
    p.reason

/-- The remark on a receiver, at its declaration. -/
def remarkOnReceiver (f : FuncDecl) (r : Receiver) : Remark :=
  let group := (f.receiver.getD []).head?
  ⟨(group.map (·.pos)).getD 0, (group.map (·.stop)).getD 0, receiverMessage r⟩

/-- The remark on a parameter, at an identifier. -/
def remarkAt (id : Ident) (p : Parameter) : Remark := ⟨id.pos, id.stop, parameterMessage p⟩

/-- The receivers that are not stable. -/
def unsettledReceivers (s : Summary) : List Receiver :=
  s.receivers.filter fun r => r.stability != .stable

/-- The parameters that are not stable, each with what declares it. -/
def unsettled (f : FuncDecl) (s : Summary) : List (Parameter × Option Ident) :=
  (s.parameters.zip (declarers f)).filter fun entry => entry.1.stability != .stable

/-- The remarks on receivers and parameters, each at its own declaration; parameters without a name
are remarked on at the name of the function. -/
def expectedRemarks (f : FuncDecl) (s : Summary) : List Remark :=
  (unsettledReceivers s).map (remarkOnReceiver f) ++
    (unsettled f s).map fun entry => remarkAt (entry.2.getD f.name) entry.1

/-! ## The remarks that are made -/

theorem receiverRemarks_eq {f : FuncDecl} {s : Summary} (lists : Lists f s) :
    receiverRemarks f s = (unsettledReceivers s).map (remarkOnReceiver f) := by
  have method := lists.receivers
  unfold receiverRemarks remarkOnReceiver
  split
  · next group rest shape =>
    rw [shape]
    rfl
  · next other =>
    have alone : s.receivers = [] := by
      by_contra some_receiver
      obtain ⟨group, rest, shape⟩ := List.exists_cons_of_ne_nil (method some_receiver)
      cases given : f.receiver with
      | none => simp [given] at shape
      | some groups =>
          rw [given, Option.getD_some] at shape
          exact other group rest (by rw [given, shape])
    simp [unsettledReceivers, alone]

/-- A remark on a parameter stands at the last identifier of its name, or at the name of the
function. -/
theorem parameterRemarks_eq {f : FuncDecl} {s : Summary} (lists : Lists f s) :
    parameterRemarks f s =
      (unsettled f s).map fun entry =>
        remarkAt ((lastNamed? f entry.1.name).getD f.name) entry.1 := by
  have same := congrArg List.length (lists.parameters.trans (names_declarers f).symm)
  rw [List.length_map, List.length_map] at same
  have firsts : (s.parameters.zip (declarers f)).map Prod.fst = s.parameters :=
    List.map_fst_zip (Nat.le_of_eq same)
  rw [parameterRemarks, unsettled]
  conv_lhs => rw [← firsts]
  rw [List.filter_map, List.map_map]
  refine List.map_congr_left fun entry _ => ?_
  simp only [Function.comp_apply, parameterIdent?_eq_lastNamed?]
  rfl

/-- There is one remark on each receiver and one on each parameter that is not stable, in order. -/
theorem messages_related {f : FuncDecl} {s : Summary} (lists : Lists f s) :
    (notSkippable f s).related.map (·.message) =
      (unsettledReceivers s).map receiverMessage ++
        (s.parameters.filter fun p => p.stability != .stable).map parameterMessage := by
  show (receiverRemarks f s ++ parameterRemarks f s).map (·.message) = _
  rw [receiverRemarks_eq lists, parameterRemarks, List.map_append, List.map_map, List.map_map]
  rfl

/-- The place of a parameter: the last identifier of its name stands where its own does. -/
def AtOwnPlace (f : FuncDecl) (id : Ident) : Prop :=
  (lastNamed? f id.name).map (·.pos) = some id.pos

/-- A remark stands where it should exactly if the last identifier of the parameter's name does. -/
theorem remark_eq_iff {f : FuncDecl} {s : Summary} (lists : Lists f s) {p : Parameter}
    {declarer : Option Ident} (member : (p, declarer) ∈ s.parameters.zip (declarers f)) :
    remarkAt ((lastNamed? f p.name).getD f.name) p = remarkAt (declarer.getD f.name) p ↔
      ∀ id, declarer = some id → AtOwnPlace f id := by
  have name := name_of_mem_zip lists member
  cases declarer with
  | none =>
      have unnamed : lastNamed? f p.name = none := by
        rw [Option.eq_none_iff_forall_ne_some]
        intro last found
        obtain ⟨declares, same⟩ := lastNamed?_eq_some found
        exact lists.named last declares (same.trans name)
      simp [unnamed]
  | some id =>
      have declares := mem_identifiers (List.of_mem_zip member).2
      obtain ⟨last, found⟩ := exists_lastNamed? declares
      have same := (lastNamed?_eq_some found).2
      have here : p.name = id.name := name
      simp only [here, found, Option.getD_some, remarkAt, Ident.stop, same, Option.some.injEq,
        forall_eq', AtOwnPlace, Option.map_some, Remark.mk.injEq, and_true]
      exact ⟨And.left, fun place => ⟨place, by rw [place]⟩⟩

/-- All remarks stand where they should exactly if those on parameters with an identifier do. -/
theorem related_eq_expected_iff {f : FuncDecl} {s : Summary} (lists : Lists f s) :
    (notSkippable f s).related = expectedRemarks f s ↔
      ∀ p id, (p, some id) ∈ unsettled f s → AtOwnPlace f id := by
  show receiverRemarks f s ++ parameterRemarks f s = _ ↔ _
  rw [receiverRemarks_eq lists, parameterRemarks_eq lists, expectedRemarks,
    List.append_right_inj, List.map_inj_left]
  constructor
  · intro same p id member
    have listed := (List.mem_filter.1 member).1
    exact (remark_eq_iff lists listed).1 (same _ member) id rfl
  · rintro places ⟨p, declarer⟩ member
    have listed := (List.mem_filter.1 member).1
    refine (remark_eq_iff lists listed).2 fun id declares => ?_
    subst declares
    exact places p id member

/-! ## Declarations that type-check -/

/-- Parameters stand in different places and have different names, but for those that are blank. -/
structure Distinct (f : FuncDecl) : Prop where
  places : ((identifiers f).map (·.pos)).Nodup
  names : ∀ id ∈ identifiers f, ∀ other ∈ identifiers f, id.name = other.name →
    id.name = "_" ∨ id = other

theorem Distinct.atOwnPlace_iff {f : FuncDecl} (distinct : Distinct f) {id : Ident}
    (declares : id ∈ identifiers f) :
    AtOwnPlace f id ↔ (id.name = "_" → lastNamed? f "_" = some id) := by
  obtain ⟨last, found⟩ := exists_lastNamed? declares
  obtain ⟨declares', name⟩ := lastNamed?_eq_some found
  rw [AtOwnPlace, found, Option.map_some, Option.some_inj]
  constructor
  · intro place blank
    rw [← blank, found, List.inj_on_of_nodup_map distinct.places declares' declares place]
  · intro onlyLast
    by_cases blank : id.name = "_"
    · rw [blank, onlyLast blank] at found
      rw [Option.some.inj found]
    · rw [(distinct.names id declares last declares' name.symm).resolve_left blank]

/-! ## Summaries -/

/-- What analysis says about a function lists its parameters and its receiver. -/
theorem lists_of_summaryOf {ps : Program.Packages} {source : Program.MarkerSource}
    {patterns : List TypeGraph.Pattern} {strong : Bool} {f : Program.Declared} {s : Summary}
    (named : ∀ id ∈ identifiers f.decl, id.name ≠ "")
    (analyzed : ps.SummaryOf source patterns strong f s) : Lists f.decl s := by
  obtain ⟨test, found⟩ := analyzed
  refine ⟨?_, ?_, named⟩
  · have params := (Program.Packages.parameters_of_analyze found).flip
    have names := params.imp (S := fun p v => p.name = v.name) fun p v ⟨_, _, same⟩ => by rw [same]
    have same : List.Forall₂ Eq (s.parameters.map (·.name))
        (f.decl.signature.params.map (·.name)) := by
      rw [List.forall₂_map_left_iff, List.forall₂_map_right_iff]
      exact names
    rwa [List.forall₂_eq_eq_eq] at same
  · obtain ⟨receivers, findings, -, -, rfl⟩ := Composable.analyze_plain_iff.1 found
    intro some_receiver none_declared
    refine some_receiver ?_
    simp [Composable.summarize, Program.Packages.describe, FuncDecl.receiverType?, none_declared]

/-! ## All remarks -/

/-- A function that cannot be skipped is reported with a remark on each receiver and then one on
each parameter that is not stable, in order.  All of them stand at their own declarations, or at the
name of the function for parameters without one, exactly if the last identifier of a remarked
parameter's name stands where its own does.  In a declaration that type-checks, that is if each
blank parameter that is remarked on is the last blank one. -/
theorem related_expected_iff {f : FuncDecl} {s : Summary} (lists : Lists f s) :
    (notSkippable f s).related.map (·.message) =
        (unsettledReceivers s).map receiverMessage ++
          (s.parameters.filter fun p => p.stability != .stable).map parameterMessage ∧
      ((notSkippable f s).related = expectedRemarks f s ↔
        ∀ p id, (p, some id) ∈ unsettled f s → AtOwnPlace f id) ∧
      (Distinct f → ((notSkippable f s).related = expectedRemarks f s ↔
        ∀ p id, (p, some id) ∈ unsettled f s → id.name = "_" → lastNamed? f "_" = some id)) := by
  refine ⟨messages_related lists, related_eq_expected_iff lists, fun distinct => ?_⟩
  rw [related_eq_expected_iff lists]
  refine forall₂_congr fun p id => forall_congr' fun member => ?_
  have declares := (List.of_mem_zip (List.mem_filter.1 member).1).2
  exact distinct.atOwnPlace_iff (mem_identifiers declares)

namespace Demo

/-- A function `Screen` with the parameters of the given groups. -/
def screenOf (params : List FieldGroup) : FuncDecl where
  keyword := 38
  name := ⟨43, "Screen"⟩
  params
  body := some []

/-- The summary of a function `Screen` with the given parameters, none of which is stable. -/
def unstableSummary (parameters : List (String × String)) : Summary where
  name := "Screen"
  qualifiedName := "ex/ui.Screen"
  visibility := "exported"
  returnType := "()"
  restartable := true
  skippable := false
  parameters := parameters.map fun (name, type) => ⟨name, type, .unstable, "mutable collection"⟩

/-- `Screen(rows, columns []int, _ []string)`: two parameters in one group, and a blank one. -/
def grid : FuncDecl := screenOf [
  ⟨[⟨50, "rows"⟩, ⟨56, "columns"⟩], .slice (.basic "int"), ⟨64, "[]int"⟩⟩,
  ⟨[⟨71, "_"⟩], .slice (.basic "string"), ⟨73, "[]string"⟩⟩]

def gridSummary : Summary :=
  unstableSummary [("rows", "[]int"), ("columns", "[]int"), ("_", "[]string")]

/-- Each remark stands at its own parameter, also those on parameters of one group. -/
theorem grid_remarked :
    Lists grid gridSummary ∧ Distinct grid ∧
      (notSkippable grid gridSummary).related = expectedRemarks grid gridSummary := by
  have lists : Lists grid gridSummary :=
    ⟨rfl, fun some_receiver => absurd rfl some_receiver, by decide⟩
  have distinct : Distinct grid := ⟨by decide, by decide⟩
  obtain ⟨-, -, each⟩ := related_expected_iff lists
  have only : ∀ id ∈ identifiers grid, id.name = "_" → lastNamed? grid "_" = some id := by decide
  refine ⟨lists, distinct, (each distinct).2 fun p id member isBlank => ?_⟩
  have declares := (List.of_mem_zip (List.mem_filter.1 member).1).2
  exact only id (mem_identifiers declares) isBlank

/-- `Screen(_ []int, _ []string)`. -/
def blank : FuncDecl := screenOf [
  ⟨[⟨50, "_"⟩], .slice (.basic "int"), ⟨52, "[]int"⟩⟩,
  ⟨[⟨59, "_"⟩], .slice (.basic "string"), ⟨61, "[]string"⟩⟩]

def blankSummary : Summary := unstableSummary [("_", "[]int"), ("_", "[]string")]

/-- The remark on the first of two blank parameters stands at the second. -/
theorem blank_misplaced :
    Lists blank blankSummary ∧ Distinct blank ∧
      ¬ (notSkippable blank blankSummary).related = expectedRemarks blank blankSummary := by
  refine ⟨⟨rfl, fun some_receiver => absurd rfl some_receiver, by decide⟩,
    ⟨by decide, by decide⟩, by decide⟩

end Demo

end ComposeStability.Linter
