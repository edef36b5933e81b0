/-
# Proofs.Report.Grammar -- the form of reports

The form of reports is stated without their reader: lines without comments are a
report if they are blank lines and entries (`IsReport`), and an entry is a heading,
a signature and notes (`IsEntry`).  Of each part of a line the reader takes what
this form says it is: of a signature (`signatureOf_eq_ok_iff`), an item
(`itemOf_eq_ok_iff_hear`) and a property (`propertyOf_eq_ok_iff_hear`).
-/
import ComposeStability.Proofs.Report.RoundTrip

namespace ComposeStability.Report

set_option autoImplicit false

open Stability (Summary Parameter Value)
open Text (FirstAt LastAt)

/-! ## The grammar -/

/-- The lines of a text that are no comments. -/
def contentLines (text : String) : List String :=
  ((rawLines text.toList).map fun raw => String.ofList (withoutReturn raw)).filter
    (!Text.startsWith "//" ·)

/-- A line of nothing but white space. -/
def Blank (line : String) : Prop :=
  ∀ c ∈ line.toList, Text.isBlank c = true

/-- A text lists names and types: commas outside brackets divide it into parts, and in each of
these the first colon with a space divides a name from a type. -/
inductive ListsParameters : String → List (String × String) → Prop where
  | none : ListsParameters "" []
  | some {parts : List String} {params : List (String × String)} (filled : parts ≠ [])
      (divided : Divided 0 (parts.map String.toList))
      (each : List.Forall₂ (fun part param =>
        FirstAt ": ".toList (Text.trim part).toList param.1.toList param.2.toList) parts params) :
      ListsParameters (",".intercalate parts) params

/-- A line `<visibility> func <name>(<params>): <result>`, divided at its first ` func `, the
first parenthesis after that and the last `): `. -/
inductive IsSignature : String → String → String → String → List (String × String) → Prop where
  | intro {line visibility rest name inner list result : String} {params : List (String × String)}
      (visibility_filled : visibility ≠ "") (name_filled : name ≠ "")
      (func : FirstAt " func ".toList line.toList visibility.toList rest.toList)
      (opens : FirstAt "(".toList rest.toList name.toList inner.toList)
      (closes : LastAt "): ".toList inner.toList list.toList result.toList)
      (lists : ListsParameters list params) : IsSignature line visibility name result params

/-- What an entry says about one parameter. -/
structure Item where
  name : String
  stability : Value
  reason : String
deriving DecidableEq, Repr

/-- The two properties of entries. -/
inductive Property where
  | skippable
  | restartable
deriving DecidableEq, Repr

def Property.key : Property → String
  | .skippable => "skippable"
  | .restartable => "restartable"

/-- What a line after the signature says. -/
inductive Note where
  | property (property : Property) (value : Bool)
  /-- The parameters follow. -/
  | params
  | item (item : Item)
deriving DecidableEq, Repr

/-- What may follow the stability of a parameter: a reason in parentheses, or none. -/
inductive Explains : String → String → Prop where
  | nothing : Explains "" ""
  | space : Explains " " ""
  | reason (reason : String) : Explains (" (" ++ reason ++ ")") reason

/-- How a note is written. -/
inductive Says : String → Note → Prop where
  | property {property : Property} {text : String} {value : Bool}
      (truth : Text.truth? text = some value) :
      Says ("  " ++ property.key ++ ": " ++ text) (.property property value)
  | params : Says "  params:" .params
  | item {item : Item} {tail : String}
      (named : item.stability ∈ [Value.stable, Value.unstable, Value.runtime])
      (explained : Explains tail item.reason) :
      Says ("    - " ++ item.name ++ ": " ++ item.stability.text ++ tail) (.item item)

/-- What a note says of a property. -/
def Note.value? (property : Property) : Note → Option Bool
  | .property other value => if other = property then some value else none
  | _ => none

def Note.item? : Note → Option Item
  | .item said => some said
  | _ => none

/-- The name after the last dot of a qualified one. -/
def IsLastName (qualifiedName name : String) : Prop :=
  '.' ∉ name.toList ∧
    (qualifiedName = name ∨ ∃ qualifier, qualifiedName = qualifier ++ "." ++ name)

/-- A parameter of the signature with what an item says about it. -/
def described (param : String × String) (item : Item) : Parameter :=
  ⟨param.1, param.2, item.stability, item.reason⟩

/-- Lines that are an entry about a function: a heading, a signature and notes.  Items come after
a line that opens their list, one for each parameter and in their order; of repeated properties
the last one counts. -/
structure IsEntry (entry : List String) (s : Summary) : Prop where
  written : ∃ signature body params notes,
    entry = "@Composable" :: signature :: body ∧
    IsSignature signature s.visibility s.qualifiedName s.returnType params ∧
    List.Forall₂ Says body notes ∧
    (∀ before item after, notes = before ++ .item item :: after → .params ∈ before) ∧
    (notes.filterMap Note.item?).map (·.name) = params.map (·.1) ∧
    s.parameters = List.zipWith described params (notes.filterMap Note.item?) ∧
    s.skippable = (notes.filterMap (Note.value? .skippable)).getLast?.getD false ∧
    s.restartable = (notes.filterMap (Note.value? .restartable)).getLast?.getD false
  name : IsLastName s.qualifiedName s.name
  unsaid : s.readonly = false ∧ s.strongSkipping = false ∧ s.receivers = []

/-- Lines without comments that are a report on functions. -/
inductive IsReport : List String → List Summary → Prop where
  | nil : IsReport [] []
  | blank {line : String} {rest : List String} {summaries : List Summary} (blank : Blank line)
      (more : IsReport rest summaries) : IsReport (line :: rest) summaries
  | entry {entry rest : List String} {s : Summary} {summaries : List Summary}
      (here : IsEntry entry s) (more : IsReport rest summaries) :
      IsReport (entry ++ rest) (s :: summaries)

/-! ## Parameters -/

theorem divided_cons_iff {depth : Int} {part : List Char} {parts : List (List Char)}
    (more : parts ≠ []) :
    Divided depth (part :: parts) ↔ CommasInside depth part ∧ depth + bracketDepth part ≤ 0 ∧
      Divided (depth + bracketDepth part) parts := by
  cases parts with
  | nil => exact absurd rfl more
  | cons next parts => rfl

theorem elementsFrom_intercalate {parts : List (List Char)} (filled : parts ≠ []) {depth : Int}
    (divided : Divided depth parts) : elementsFrom depth [] ([','].intercalate parts) = parts := by
  induction parts generalizing depth with
  | nil => exact absurd rfl filled
  | cons part parts ih =>
      by_cases more : parts = []
      · subst more
        have passed := elementsFrom_over (divided : CommasInside depth part) [] []
        simpa [elementsFrom] using passed
      · obtain ⟨inside, outside, later⟩ := (divided_cons_iff more).1 divided
        have comma (rest : List Char) :
            elementsFrom (depth + bracketDepth part) part.reverse (',' :: rest) =
              part :: elementsFrom (depth + bracketDepth part) [] rest := by
          simp [elementsFrom, outside]
        rw [List.intercalate_cons_of_ne_nil more, List.append_assoc, List.singleton_append,
          elementsFrom_over inside, List.append_nil, comma, ih more later]

/-- Every text is divided at its commas outside brackets. -/
theorem exists_divided (depth : Int) (cs : List Char) :
    ∃ parts, parts ≠ [] ∧ cs = [','].intercalate parts ∧ Divided depth parts := by
  induction length : cs.length using Nat.strongRecOn generalizing depth cs with
  | ind n ih =>
      rcases elementsFrom_first depth [] cs with
        ⟨inside, -⟩ | ⟨first, rest, rfl, inside, outside, -⟩
      · exact ⟨[cs], by simp, by simp, inside⟩
      · have shorter : rest.length < n := by rw [← length]; simp; omega
        obtain ⟨parts, filled, rfl, later⟩ := ih _ shorter (depth + bracketDepth first) rest rfl
        exact ⟨first :: parts, by simp, by simp [List.intercalate_cons_of_ne_nil filled],
          (divided_cons_iff filled).2 ⟨inside, outside, later⟩⟩

theorem elementsFrom_eq_iff {depth : Int} {cs : List Char} {parts : List (List Char)} :
    elementsFrom depth [] cs = parts ↔
      parts ≠ [] ∧ cs = [','].intercalate parts ∧ Divided depth parts := by
  constructor
  · rintro rfl
    obtain ⟨parts, filled, rfl, divided⟩ := exists_divided depth cs
    rw [elementsFrom_intercalate filled divided]
    exact ⟨filled, rfl, divided⟩
  · rintro ⟨filled, rfl, divided⟩
    exact elementsFrom_intercalate filled divided

/-- Whether a part of a list is read as this name and type. -/
theorem parameterOf_eq_ok_iff {part : List Char} {param : String × String} :
    parameterOf part = .ok param ↔ FirstAt ": ".toList part param.1.toList param.2.toList := by
  rw [← Text.cut_eq_some_iff, parameterOf]
  cases found : Text.cut ": ".toList part with
  | none => simp
  | some parts => simp [Prod.ext_iff, ← String.toList_inj]

/-- The parts of a text that lists parameters, as the reader divides them. -/
theorem listsParameters_iff {cs : List Char} {params : List (String × String)} :
    ListsParameters (String.ofList cs) params ↔
      (cs = [] ∧ params = []) ∨ List.Forall₂ (fun part param =>
        FirstAt ": ".toList (Text.trimBlanks part) param.1.toList param.2.toList)
          (elementsFrom 0 [] cs) params := by
  constructor
  · intro lists
    generalize text : String.ofList cs = list at lists
    cases lists with
    | none => exact .inl ⟨by simpa [← String.toList_inj] using text, rfl⟩
    | @some parts params filled divided each =>
        obtain rfl : cs = [','].intercalate (parts.map String.toList) := by
          simpa [← String.toList_inj] using text
        rw [elementsFrom_intercalate (by simpa using filled) divided, List.forall₂_map_left_iff]
        exact .inr (by simpa [Text.trim] using each)
  · rintro (⟨rfl, rfl⟩ | each)
    · exact .none
    · obtain ⟨filled, joined, divided⟩ := elementsFrom_eq_iff.1 (rfl : elementsFrom 0 [] cs = _)
      generalize elementsFrom 0 [] cs = parts at filled joined divided each
      have chars : (parts.map String.ofList).map String.toList = parts := by simp
      have text : String.ofList cs = ",".intercalate (parts.map String.ofList) := by
        rw [← String.toList_inj, String.toList_intercalate, chars, joined]
        simp
      rw [text]
      refine .some (by simpa using filled) (by rwa [chars]) ?_
      rw [List.forall₂_map_left_iff]
      simpa [Text.trim] using each

/-- A list of parameters is read exactly if the text lists them. -/
theorem elements_eq_ok_iff {cs : List Char} {params : List (String × String)} :
    (elements cs).mapM parameterOf = .ok params ↔ ListsParameters (String.ofList cs) params := by
  rw [mapM_eq_ok_iff, listsParameters_iff, elements]
  simp only [parameterOf_eq_ok_iff]
  by_cases empty : cs = []
  · subst empty
    have no_colon (params : List (String × String)) :
        ¬ List.Forall₂ (fun part param => FirstAt ": ".toList (Text.trimBlanks part)
          param.1.toList param.2.toList) [[]] params := by
      rintro (_ | ⟨here, -⟩)
      exact Text.not_firstAt_nil (by decide) here
    simp only [List.isEmpty_nil, if_true, true_and, elementsFrom, List.reverse_nil, no_colon,
      or_false, List.forall₂_nil_left_iff]
  · simp [empty]

/-! ## Signatures -/

theorem IsSignature.of_chars {line visibility name result : String} {rest inner list : List Char}
    {params : List (String × String)} (visibility_filled : visibility ≠ "")
    (name_filled : name ≠ "")
    (func : FirstAt " func ".toList line.toList visibility.toList rest)
    (opens : FirstAt "(".toList rest name.toList inner)
    (closes : LastAt "): ".toList inner list result.toList)
    (lists : ListsParameters (.ofList list) params) :
    IsSignature line visibility name result params :=
  @IsSignature.intro _ _ (.ofList rest) _ (.ofList inner) (.ofList list) _ _
    visibility_filled name_filled (by simpa using func) (by simpa using opens)
    (by simpa using closes) lists

/-- A signature opens an entry of which nothing else is known yet. -/
theorem signatureOf_eq_ok_iff {line : List Char} {e : Entry} :
    signatureOf line = .ok e ↔ ∃ visibility name result params,
      IsSignature (String.ofList line) visibility name result params ∧
        e = { visibility, qualifiedName := name, returnType := result, pending := params } := by
  constructor
  · intro read
    rw [signatureOf] at read
    split at read
    · cases read
    · cases read
    · next visibility rest some_visibility func =>
      split at read
      · cases read
      · cases read
      · next name inner some_name opens =>
        split at read
        · cases read
        · next list result closes =>
          obtain ⟨params, lists, read⟩ := bind_eq_ok.1 read
          refine ⟨_, _, _, params, @IsSignature.of_chars _ _ _ _ rest inner list params
            ?_ ?_ ?_ ?_ ?_ (elements_eq_ok_iff.1 lists), (Except.ok.inj read).symm⟩
          · simpa [← String.toList_inj] using some_visibility
          · simpa [← String.toList_inj] using some_name
          · simpa using Text.cut_eq_some_iff.1 func
          · simpa using Text.cut_eq_some_iff.1 opens
          · simpa using Text.cutLast_eq_some_iff.1 closes
  · rintro ⟨visibility, name, result, params, signature, rfl⟩
    generalize text : String.ofList line = whole at signature
    obtain ⟨some_visibility, some_name, func, opens, closes, lists⟩ := signature
    next rest inner list =>
    obtain rfl : line = whole.toList := by simp [← text]
    obtain ⟨v, visibility', visibility_eq⟩ :=
      List.exists_cons_of_ne_nil (l := visibility.toList) (by simpa using some_visibility)
    obtain ⟨n, name', name_eq⟩ :=
      List.exists_cons_of_ne_nil (l := name.toList) (by simpa using some_name)
    have read : (elements list.toList).mapM parameterOf = .ok params :=
      elements_eq_ok_iff.2 (by simpa using lists)
    have paren : Text.cut ['('] rest.toList = some (name.toList, inner.toList) :=
      Text.cut_eq_some_iff.2 opens
    rw [signatureOf, Text.cut_eq_some_iff.2 func, visibility_eq]
    simp only
    rw [paren, name_eq]
    simp only [Text.cutLast_eq_some_iff.2 closes, read]
    simp [← visibility_eq, ← name_eq, bind, Except.bind, pure, Except.pure]

/-! ## Items -/

theorem reasonOf_eq_ok_iff {text reason : List Char} :
    reasonOf text = .ok reason ↔
      (text = [] ∧ reason = []) ∨ text = '(' :: (reason ++ [')']) := by
  cases text with
  | nil => simp [reasonOf]
  | cons c rest =>
      by_cases opens : c = '('
      · subst opens
        cases found : [')'].isSuffixOf? rest with
        | none =>
            have open_end : rest ≠ reason ++ [')'] := fun same => by
              rw [List.isSuffixOf?_eq_some_iff_append_eq.2 same.symm] at found
              cases found
            simp [reasonOf, found, open_end]
        | some inner =>
            obtain rfl := List.isSuffixOf?_eq_some_iff_append_eq.1 found
            simp [reasonOf, found]
      · simp [reasonOf, opens]

theorem ofText?_eq_some_iff {value : String} {v : Value} :
    Value.ofText? value = some v ↔
      v ∈ [Value.stable, Value.unstable, Value.runtime] ∧ value = v.text := by
  constructor
  · intro read
    unfold Value.ofText? at read
    split at read
    · obtain rfl := Option.some.inj read
      decide
    · obtain rfl := Option.some.inj read
      decide
    · obtain rfl := Option.some.inj read
      decide
    · cases read
  · rintro ⟨named, rfl⟩
    simp only [List.mem_cons, List.not_mem_nil, or_false] at named
    rcases named with rfl | rfl | rfl <;> rfl

theorem value_parse_iff {value : List Char} {v : Value} :
    Value.parse (String.ofList value) = .ok v ↔
      v ∈ [Value.stable, Value.unstable, Value.runtime] ∧ value = v.text.toList := by
  have same : value = v.text.toList ↔ String.ofList value = v.text := by
    simp [← String.toList_inj]
  rw [same, ← ofText?_eq_some_iff, Value.parse]
  cases Value.ofText? (String.ofList value) <;> simp

/-- What follows the name of an item is a stability, up to the first space, and its reason. -/
theorem stability_read_iff {rest : List Char} {v : Value} {reason : List Char} :
    (Value.parse (String.ofList ((Text.cut [' '] rest).getD (rest, [])).1) = .ok v ∧
        reasonOf ((Text.cut [' '] rest).getD (rest, [])).2 = .ok reason) ↔
      v ∈ [Value.stable, Value.unstable, Value.runtime] ∧
        ∃ tail, Explains tail (String.ofList reason) ∧ rest = v.text.toList ++ tail.toList := by
  rw [value_parse_iff, reasonOf_eq_ok_iff, and_assoc]
  refine and_congr_right fun named => ?_
  constructor
  · rintro ⟨value, explained⟩
    cases found : Text.cut [' '] rest with
    | none =>
        rw [found] at value explained
        obtain rfl : reason = [] := by simpa using explained
        exact ⟨"", .nothing, by simpa using value⟩
    | some parts =>
        rw [found] at value explained
        obtain ⟨stability, text⟩ := parts
        simp only [Option.getD_some] at value explained
        rw [Text.cut_eq_append found, value]
        rcases explained with ⟨rfl, rfl⟩ | rfl
        · exact ⟨" ", .space, by simp⟩
        · exact ⟨_, .reason (String.ofList reason), by simp⟩
  · rintro ⟨tail, explained, rfl⟩
    have no_space := (parse_text named).2
    generalize text : String.ofList reason = because at explained
    obtain rfl : reason = because.toList := by simp [← text]
    cases explained with
    | nothing => simp [Text.cut_absent no_space]
    | space =>
        have found := Text.cut_append no_space [] []
        simp only [List.append_nil] at found
        simp [found]
    | reason =>
        have found := Text.cut_append no_space [] ('(' :: (because.toList ++ [')']))
        simp only [List.singleton_append] at found
        simp [found]

/-- An item is read if it is one of the next parameter. -/
theorem itemOf_eq_ok_iff {e next : Entry} {text : List Char} :
    itemOf e text = .ok next ↔ ∃ name v reason tail type pending,
      FirstAt ": ".toList text name.toList (v.text ++ tail).toList ∧
        v ∈ [Value.stable, Value.unstable, Value.runtime] ∧ Explains tail reason ∧
        e.pending = (name, type) :: pending ∧
        next = { e with listed := e.listed ++ [⟨name, type, v, reason⟩], pending } := by
  constructor
  · intro read
    rw [itemOf] at read
    split at read
    · cases read
    · next name rest found =>
      simp only at read
      split at read
      · cases read
      · next v value =>
        obtain ⟨reason, explained, matched⟩ := bind_eq_ok.1 read
        obtain ⟨named, tail, explains, shape⟩ := stability_read_iff.1 ⟨value, explained⟩
        split at matched
        · cases matched
        · next expected type pending next_param =>
          split at matched
          · next same =>
            subst same
            refine ⟨_, v, _, tail, type, pending, ?_, named, explains, next_param,
              (Except.ok.inj matched).symm⟩
            simpa [shape] using Text.cut_eq_some_iff.1 found
          · cases matched
  · rintro ⟨name, v, reason, tail, type, pending, here, named, explains, next_param, rfl⟩
    have explains' : Explains tail (String.ofList reason.toList) := by
      rwa [String.ofList_toList]
    obtain ⟨value, explained⟩ := stability_read_iff.2 ⟨named, tail, explains', rfl⟩
    rw [itemOf, Text.cut_eq_some_iff.2 here]
    simp only [String.toList_append, value, explained, next_param]
    simp [bind, Except.bind, pure, Except.pure]

/-! ## Notes -/

/-- An entry after one more note; an item has to be that of the next parameter of an open list. -/
def Entry.hear? (e : Entry) : Note → Option Entry
  | .property .skippable value => some { e with skippable := value }
  | .property .restartable value => some { e with restartable := value }
  | .params => some { e with listing := true }
  | .item said =>
      match e.pending with
      | [] => none
      | param :: pending =>
          if e.listing = true ∧ param.1 = said.name then
            some { e with listed := e.listed ++ [described param said], pending }
          else none

/-- The first colon with a space ends the name of each parameter that is still to come. -/
def Entry.Labelled (e : Entry) : Prop :=
  ∀ param ∈ e.pending, ∀ rest, FirstAt ": ".toList (param.1.toList ++ ": ".toList ++ rest)
    param.1.toList rest

theorem says_item_iff {line : String} {said : Item} :
    Says line (.item said) ↔ said.stability ∈ [Value.stable, Value.unstable, Value.runtime] ∧
      ∃ tail, Explains tail said.reason ∧
        line = "    - " ++ (said.name ++ ": " ++ (said.stability.text ++ tail)) := by
  constructor
  · rintro ⟨⟩
    next tail named explained => exact ⟨named, tail, explained, by simp [String.append_assoc]⟩
  · rintro ⟨named, tail, explained, rfl⟩
    simpa [String.append_assoc] using Says.item named explained

theorem hear?_item_iff {e next : Entry} {said : Item} :
    e.hear? (.item said) = some next ↔ e.listing = true ∧ ∃ type pending,
      e.pending = (said.name, type) :: pending ∧
        next = { e with
          listed := e.listed ++ [⟨said.name, type, said.stability, said.reason⟩], pending } := by
  rw [Entry.hear?]
  rcases e.pending with _ | ⟨⟨name, type⟩, pending⟩
  · simp
  · by_cases same : name = said.name
    · subst same
      simp [described, @eq_comm _ next]
    · simp [same]

/-- In an open list, the text of an item is read as the reader hears it. -/
theorem itemOf_eq_ok_iff_hear {e next : Entry} (labelled : e.Labelled) (listing : e.listing = true)
    {text : String} :
    itemOf e text.toList = .ok next ↔
      ∃ said, Says ("    - " ++ text) (.item said) ∧ e.hear? (.item said) = some next := by
  simp only [itemOf_eq_ok_iff, says_item_iff, hear?_item_iff, String.append_right_inj]
  constructor
  · rintro ⟨name, v, reason, tail, type, pending, here, named, explains, next_param, rfl⟩
    refine ⟨⟨name, v, reason⟩, ⟨named, tail, explains, ?_⟩, listing, type, pending, next_param, rfl⟩
    simpa [← String.toList_inj] using here.whole
  · rintro ⟨said, ⟨named, tail, explains, rfl⟩, -, type, pending, next_param, rfl⟩
    have here := labelled _ (next_param ▸ List.mem_cons_self) (said.stability.text ++ tail).toList
    exact ⟨said.name, said.stability, said.reason, tail, type, pending, by simpa using here, named,
      explains, next_param, rfl⟩

theorem cut_key {key : String} (plain : ':' ∉ key.toList) (value : String) :
    Text.cut ": ".toList (key ++ ": " ++ value).toList = some (key.toList, value.toList) := by
  have found := Text.cut_append plain [' '] value.toList
  simpa using found

theorem says_property_iff {text : String} {property : Property} {b : Bool} :
    Says ("  " ++ text) (.property property b) ↔
      ∃ value, Text.truth? value = some b ∧ text = property.key ++ ": " ++ value := by
  have joined (value : String) :
      "  " ++ property.key ++ ": " ++ value = "  " ++ (property.key ++ ": " ++ value) := by
    simp only [String.append_assoc]
  constructor
  · intro written
    generalize line : "  " ++ text = whole at written
    cases written with
    | property truth => exact ⟨_, truth, (String.append_right_inj _).1 (line.trans (joined _))⟩
  · rintro ⟨value, truth, rfl⟩
    exact joined value ▸ .property truth

theorem says_params_iff {text : String} : Says ("  " ++ text) .params ↔ text = "params:" := by
  have lead : "  params:" = "  " ++ "params:" := by decide
  constructor
  · intro written
    generalize line : "  " ++ text = whole at written
    cases written with
    | params => exact (String.append_right_inj _).1 (line.trans lead)
  · rintro rfl
    exact lead ▸ .params

/-- The text of a property is read by its key. -/
theorem propertyOf_key (e : Entry) {property : Property} {value : String} {b : Bool}
    (truth : Text.truth? value = some b) :
    propertyOf e (property.key ++ ": " ++ value).toList =
      .ok (match property with
        | .skippable => { e with skippable := b }
        | .restartable => { e with restartable := b }) := by
  have plain : ':' ∉ property.key.toList := by cases property <;> decide
  have found := cut_key plain value
  have no_params : (property.key ++ ": " ++ value).toList ≠ "params:".toList := by
    intro same
    have uncut : Text.cut ": ".toList "params:".toList = none := by decide
    rw [same, uncut] at found
    cases found
  rw [propertyOf, if_neg no_params, found]
  simp only [String.ofList_toList, truth]
  cases property with
  | skippable => rfl
  | restartable => rfl

/-- The text of a property is read as the reader hears it. -/
theorem propertyOf_eq_ok_iff_hear {e next : Entry} {text : String} :
    propertyOf e text.toList = .ok next ↔
      ∃ note, Says ("  " ++ text) note ∧ note.item? = none ∧ e.hear? note = some next := by
  constructor
  · intro read
    rw [propertyOf] at read
    split at read
    · next params =>
      exact ⟨.params, says_params_iff.2 (String.toList_inj.1 params), rfl,
        congrArg some (Except.ok.inj read)⟩
    · split at read
      · cases read
      · next key value found =>
        split at read
        · cases read
        · next b truth =>
          have whole : text = String.ofList key ++ ": " ++ String.ofList value := by
            simpa [← String.toList_inj] using Text.cut_eq_append found
          split at read
          · next skippable =>
            rw [skippable, String.ofList_toList] at whole
            exact ⟨.property .skippable b, says_property_iff.2 ⟨_, truth, whole⟩, rfl,
              congrArg some (Except.ok.inj read)⟩
          · split at read
            · next restartable =>
              rw [restartable, String.ofList_toList] at whole
              exact ⟨.property .restartable b, says_property_iff.2 ⟨_, truth, whole⟩, rfl,
                congrArg some (Except.ok.inj read)⟩
            · cases read
  · rintro ⟨note, written, no_item, heard⟩
    cases note with
    | params =>
        obtain rfl := says_params_iff.1 written
        exact congrArg Except.ok (Option.some.inj heard)
    | property property b =>
        obtain ⟨value, truth, rfl⟩ := says_property_iff.1 written
        rw [propertyOf_key e truth]
        cases property with
        | skippable => exact congrArg Except.ok (Option.some.inj heard)
        | restartable => exact congrArg Except.ok (Option.some.inj heard)
    | item => cases no_item

end ComposeStability.Report
