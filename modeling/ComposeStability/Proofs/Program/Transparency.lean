/-
# Proofs.Program.Transparency -- aliases do not change what is stable

Two programs with the same declarations present the same types, though one may
say by way of aliases what the other says directly.  Keys and texts show the
aliases, everything else that classification asks about looks behind them: the
same types have the same markers, the same shape and the same neighbours, and so
the two type graphs are alike (`bisimulation`).  The walks through them cut their
cycles at different places and reach the same outcome (`aliases_transparent`).

Which constants a package has is not part of a type, so an enumeration in one
program may be a wrapper of a basic value in the other.  Both are stable.
-/
import ComposeStability.Proofs.Program.SameType
import ComposeStability.Proofs.Program.Survey
import ComposeStability.Proofs.TypeGraph.Bisimulation

namespace ComposeStability.Program

set_option autoImplicit false

open TypeGraph

/-! ## Declared types of basic values -/

namespace Packages

variable {ps : Packages} {source : MarkerSource} {test : EnumTest}

/-- A declared type of basic values is an enumeration or a wrapper. -/
structure DeclaresBasic (ps : Packages) (source : MarkerSource) (test : EnumTest)
    (path name : String) (args : List Ty) : Prop where
  kind : ps.namedKind source test path name args = .ok .enum ∨
    ps.namedKind source test path name args = .ok .value
  shape : ∃ basic ∈ basicNames, ps.underlying (.named path name args) = .basic basic

theorem declaresBasic_of_shape (tested : test.Answers) {path name basic : String} {args : List Ty}
    {markers : Markers} (marked : source path name = .ok markers)
    (inspected : ¬ markers.has .runtime = true) (own : ¬ isSyncPackage path = true)
    (listed : basic ∈ basicNames) (shape : ps.underlying (.named path name args) = .basic basic) :
    ps.DeclaresBasic source test path name args where
  kind := by
    obtain ⟨enum, decided⟩ := tested path name args
    simp only [namedKind, marked, decided, shape, bind, Except.bind]
    rw [if_neg inspected, if_neg own]
    cases enum
    · exact .inr rfl
    · exact .inl rfl
  shape := ⟨basic, listed, shape⟩

/-- A type is an enumeration or a wrapper, either way of basic values. -/
structure OfBasic (ps : Packages) (source : MarkerSource) (test : EnumTest) (t : Ty) : Prop where
  kind : ps.kindOf source test t = .ok .enum ∨ ps.kindOf source test t = .ok .value
  elem : ∃ basic ∈ basicNames, ps.elemOf t = some (.basic basic)

theorem DeclaresBasic.ofBasic {t : Ty} {path name : String} {args : List Ty}
    (declares : ps.DeclaresBasic source test path name args)
    (shown : ps.unalias t = .named path name args) : ps.OfBasic source test t where
  kind := by
    rw [kindOf, shown]
    exact declares.kind
  elem := by
    obtain ⟨basic, listed, shape⟩ := declares.shape
    refine ⟨basic, listed, ?_⟩
    rw [elemOf, shown]
    simp only [shape]

end Packages

/-! ## The same types in two programs -/

namespace SameType

open Packages

variable {declared : String → String → Prop} {ps ps' : Packages} {source : MarkerSource}
  {test test' : EnumTest} {depth depth' : Nat} {t t' : Ty}

theorem isMutableField (declarations : SameDeclarations declared ps ps') {x x' : Field Ty}
    (tag : x.tag = x'.tag) (same : SameType declared ps ps' x.type x'.type) :
    ps.isMutableField x = ps'.isMutableField x' := by
  have written := same.unalias declarations
  unfold Packages.isMutableField
  rw [tag]
  generalize ps.unalias x.type = u at written ⊢
  generalize ps'.unalias x'.type = u' at written ⊢
  cases written.shape with
  | interface shown shown' => cases shown <;> cases shown' <;> rfl
  | _ => rfl

theorem markersOf (same : SameType declared ps ps' t t')
    (declarations : SameDeclarations declared ps ps') :
    ps.markersOf source t = ps'.markersOf source t' := by
  have written := same.unalias declarations
  unfold Packages.markersOf
  generalize ps.unalias t = u at written ⊢
  generalize ps'.unalias t' = u' at written ⊢
  cases written.shape with
  | interface shown shown' => cases shown <;> cases shown' <;> rfl
  | _ => rfl

theorem supertypesOf (same : SameType declared ps ps' t t')
    (declarations : SameDeclarations declared ps ps') :
    List.Forall₂ (Option.Rel (SameType declared ps ps')) (ps.supertypesOf t)
      (ps'.supertypesOf t') := by
  have written := same.underlying declarations
  unfold Packages.supertypesOf
  generalize ps.underlying t = u at written ⊢
  generalize ps'.underlying t' = u' at written ⊢
  cases written.shape with
  | interface shown shown' each =>
      have listed : List.Forall₂ (Option.Rel (SameType declared ps ps'))
          (List.map some _) (List.map some _) :=
        List.rel_map (fun _ _ related => Option.Rel.some related) each
      cases shown <;> cases shown' <;> exact listed
  | _ => exact .nil

theorem membersOf (same : SameType declared ps ps' t t')
    (declarations : SameDeclarations declared ps ps') :
    List.Forall₂ (fun m m' => m.mutable = m'.mutable ∧
        Option.Rel (SameType declared ps ps') m.type m'.type)
      (ps.membersOf t) (ps'.membersOf t') := by
  have written := same.underlying declarations
  unfold Packages.membersOf
  generalize ps.underlying t = u at written ⊢
  generalize ps'.underlying t' = u' at written ⊢
  cases written.shape with
  | struct each =>
      rw [List.forall₂_map_left_iff, List.forall₂_map_right_iff]
      exact each.imp fun x x' ⟨tag, type⟩ => ⟨isMutableField declarations tag type, .some type⟩
  | interface shown shown' => cases shown <;> cases shown' <;> exact .nil
  | _ => exact .nil

theorem elemOf (same : SameType declared ps ps' t t')
    (declarations : SameDeclarations declared ps ps') :
    Option.Rel (SameType declared ps ps') (ps.elemOf t) (ps'.elemOf t') := by
  have written := same.unalias declarations
  unfold Packages.elemOf
  generalize ps.unalias t = u at written ⊢
  generalize ps'.unalias t' = u' at written ⊢
  cases written.shape with
  | pointer inner => exact .some inner
  | array _ inner => exact .some inner
  | named path name _ each =>
      have shape := written.same.underlying declarations
      simp only
      generalize ps.underlying _ = u at shape ⊢
      generalize ps'.underlying _ = u' at shape ⊢
      cases shape.shape with
      | struct each =>
          cases each with
          | nil => exact .none
          | cons here rest =>
              cases rest with
              | nil => exact .some here.2
              | cons => exact .none
      | interface shown shown' => cases shown <;> cases shown' <;> exact .some shape.same
      | _ => exact .some shape.same
  | interface shown shown' => cases shown <;> cases shown' <;> exact .none
  | _ => exact .none

/-- Only predeclared types may have different names. -/
theorem nameOf (same : SameType declared ps ps' t t')
    (declarations : SameDeclarations declared ps ps') :
    ps.nameOf t = ps'.nameOf t' ∨
      (∃ name ∈ basicNames, ps.unalias t = .basic name) ∧
        ∃ name ∈ basicNames, ps'.unalias t' = .basic name := by
  have written := same.unalias declarations
  unfold Packages.nameOf
  generalize ps.unalias t = u at written ⊢
  generalize ps'.unalias t' = u' at written ⊢
  cases written.shape with
  | basic listed listed' => exact .inr ⟨⟨_, listed, rfl⟩, _, listed', rfl⟩
  | interface shown shown' => cases shown <;> cases shown' <;> exact .inl rfl
  | _ => exact .inl rfl

section
variable (declarations : SameDeclarations declared ps ps') (answers : source.Answers)
  (tested : test.Answers) (tested' : test'.Answers)
include declarations answers tested tested'

theorem namedKind {path name : String} {args args' : List Ty}
    (same : SameType declared ps ps' (.named path name args) (.named path name args')) :
    ps.namedKind source test path name args = ps'.namedKind source test' path name args' ∨
      ps.DeclaresBasic source test path name args ∧
        ps'.DeclaresBasic source test' path name args' := by
  obtain ⟨markers, marked⟩ := answers path name
  have written := same.underlying declarations
  by_cases inspected : markers.has .runtime = true
  · left
    simp only [Packages.namedKind, marked, bind, Except.bind]
    rw [if_pos inspected, if_pos inspected]
  by_cases own : isSyncPackage path = true
  · left
    simp only [Packages.namedKind, marked, bind, Except.bind]
    rw [if_neg inspected, if_neg inspected, if_pos own, if_pos own]
  generalize first : ps.underlying _ = u at written
  generalize second : ps'.underlying _ = u' at written
  cases written.shape with
  | basic listed listed' =>
      exact .inr ⟨declaresBasic_of_shape tested marked inspected own listed first,
        declaresBasic_of_shape tested' marked inspected own listed' second⟩
  | struct each =>
      left
      simp only [Packages.namedKind, marked, first, second, bind, Except.bind]
      cases each with
      | nil => rfl
      | cons here rest =>
          cases rest with
          | nil => simp only [isMutableField declarations here.1 here.2]
          | cons => rfl
  | interface shown shown' =>
      left
      simp only [Packages.namedKind, marked, first, second, bind, Except.bind]
      cases shown <;> cases shown' <;> rfl
  | _ =>
      left
      simp only [Packages.namedKind, marked, first, second, bind, Except.bind]

/-- Types are of the same kind, unless both are declared as basic types. -/
theorem kindOf (same : SameType declared ps ps' t t') :
    ps.kindOf source test t = ps'.kindOf source test' t' ∨
      ps.OfBasic source test t ∧ ps'.OfBasic source test' t' := by
  have written := same.unalias declarations
  generalize first : ps.unalias t = u at written
  generalize second : ps'.unalias t' = u' at written
  cases written.shape with
  | named path name known each =>
      rcases namedKind declarations answers tested tested' written.same with equal | ⟨here, there⟩
      · left
        rw [Packages.kindOf, Packages.kindOf, first, second]
        exact equal
      · exact .inr ⟨here.ofBasic first, there.ofBasic second⟩
  | struct each =>
      left
      rw [Packages.kindOf, Packages.kindOf, first, second]
      cases each <;> rfl
  | interface shown shown' =>
      left
      rw [Packages.kindOf, Packages.kindOf, first, second]
      cases shown <;> cases shown' <;> rfl
  | _ =>
      left
      rw [Packages.kindOf, Packages.kindOf, first, second]

end

end SameType

/-! ## The two type graphs -/

namespace Packages

variable {declared : String → String → Prop} {ps ps' : Packages} {source : MarkerSource}
  {test test' : EnumTest} {patterns : List Pattern} {depth depth' : Nat} {t t' : Ty}

theorem role_of_basic {basic : String} (shown : ps.unalias t = .basic basic)
    (listed : basic ∈ basicNames) : (ps.graphTo source test depth).role patterns t = .stable := by
  have kind : ps.kindOf source test t = .ok .primitive := by
    rw [kindOf, shown]
  have name : (ps.graphTo source test depth).nameOf t = basic := by
    show ps.nameOf t = basic
    rw [nameOf, shown]
  exact role_primitive (kindOf_eq kind) (name ▸ basic_not_mutable listed)

/-- The basic values in an enumeration or a wrapper are stable. -/
theorem OfBasic.inside (wraps : ps.OfBasic source test t) (u : Option Ty)
    (behind : (ps.graphTo source test depth).Unwraps ((ps.graphTo source test depth).elemOf t) u) :
    (ps.graphTo source test depth).Settled patterns u := by
  obtain ⟨basic, listed, elem⟩ := wraps.elem
  have elem : (ps.graphTo source test depth).elemOf t = some (.basic basic) := elem
  rw [elem] at behind
  cases behind with
  | bare => exact .leaf (role_of_basic rfl listed)
  | wrapper kind => cases kind

theorem sameMarkers (declarations : SameDeclarations declared ps ps') :
    SameMarkers (ps.graphTo source test depth) (ps'.graphTo source test' depth')
      (SameType declared ps ps') where
  markers same := markersOf_congr (same.markersOf declarations)
  supertypes same := same.supertypesOf declarations

section
variable (declarations : SameDeclarations declared ps ps') (answers : source.Answers)
  (tested : test.Answers) (tested' : test'.Answers)
include declarations answers tested tested'

theorem kinds (same : SameType declared ps ps' t t') :
    (ps.graphTo source test depth).kindOf t = (ps'.graphTo source test' depth').kindOf t' ∨
      ps.OfBasic source test t ∧ ps'.OfBasic source test' t' :=
  (same.kindOf declarations answers tested tested').imp_left kindOf_congr

/-- The same types look alike in both programs, whatever is asked about enumerations. -/
theorem bisimulation :
    Bisimulation (ps.graphTo source test depth) (ps'.graphTo source test' depth') patterns
      (SameType declared ps ps') where
  nullable same := by
    rcases kinds declarations answers tested tested' same with equal | ⟨wraps, wraps'⟩
    · rw [equal]
    · rcases wraps.kind.imp kindOf_eq kindOf_eq with kind | kind <;>
        rcases wraps'.kind.imp kindOf_eq kindOf_eq with kind' | kind' <;>
        rw [kind, kind'] <;> simp
  elem same _ := same.elemOf declarations
  role same _ := by
    rcases same.nameOf declarations with name | ⟨⟨_, listed, shown⟩, _, listed', shown'⟩
    · rcases kinds declarations answers tested tested' same with equal | ⟨wraps, wraps'⟩
      · have looks : Resembles (ps.graphTo source test depth) (ps'.graphTo source test' depth')
            (SameType declared ps ps') _ _ :=
          ⟨equal, name, same.elemOf declarations, same.membersOf declarations⟩
        exact .inr (looks.role (sameMarkers declarations) same)
      · exact roles_of_enum_or_value (sameMarkers declarations) same name
          (wraps.kind.imp kindOf_eq kindOf_eq) (wraps'.kind.imp kindOf_eq kindOf_eq)
          wraps.inside wraps'.inside
    · rw [role_of_basic shown listed, role_of_basic shown' listed']
      exact .inr .stable

end

/-! ## Outcomes -/

/-- Aliases are transparent: a type and the same type written with other aliases, in programs whose
declarations are the same up to aliases, have the same outcome. -/
theorem aliases_transparent {nodes nodes' : List Ty}
    (declarations : SameDeclarations declared ps ps') (same : SameType declared ps ps' t t')
    (ends : ps.PointersEnd) (ends' : ps'.PointersEnd) (surveyed : ps.Surveyed nodes)
    (surveyed' : ps'.Surveyed nodes') (member : t ∈ nodes) (member' : t' ∈ nodes')
    (source : MarkerSource) (patterns : List Pattern) :
    (∀ test test' depth depth' verdict verdict',
      classify (ps.graphTo source test depth) patterns (some t) = .ok verdict →
      classify (ps'.graphTo source test' depth') patterns (some t') = .ok verdict' →
      verdict.value = verdict'.value) ∧
    (source.Answers → ∀ test test' depth depth', test.Answers → test'.Answers →
      nodes.length ≤ depth → nodes'.length ≤ depth' → ∃ verdict verdict',
        classify (ps.graphTo source test depth) patterns (some t) = .ok verdict ∧
        classify (ps'.graphTo source test' depth') patterns (some t') = .ok verdict') := by
  constructor
  · intro test test' depth depth' verdict verdict' found found'
    obtain ⟨start, behind, answered⟩ := surveyed.answered ends member found
    obtain ⟨start', behind', answered'⟩ := surveyed'.answered ends' member' found'
    have alike : Bisimulation
        (ps.graphTo source.steady test.steady (max depth nodes.length))
        (ps'.graphTo source.steady test'.steady (max depth' nodes'.length)) patterns
        (SameType declared ps ps') :=
      bisimulation declarations source.steady_answers test.steady_answers test'.steady_answers
    obtain ⟨u', inside, related⟩ := alike.unwraps (.some same) behind
    obtain rfl := inside.unique behind'
    exact alike.value_eq (Bisimulation.met_of_unwraps behind related) answered answered'
  · intro answers test test' depth depth' tested tested' enough enough'
    obtain ⟨verdict, found⟩ : ∃ verdict,
        classify (ps.graphTo source test depth) patterns (some t) = .ok verdict :=
      surveyed.returns ends answers tested enough member
    obtain ⟨verdict', found'⟩ : ∃ verdict',
        classify (ps'.graphTo source test' depth') patterns (some t') = .ok verdict' :=
      surveyed'.returns ends' answers tested' enough' member'
    exact ⟨verdict, verdict', found, found'⟩

/-! ## A list, with and without aliases -/

/-- A generic list that refers to itself. -/
def plainLists : Packages :=
  [{ path := "p", name := "p", types :=
      [⟨"List", .defined ["T"] (.struct
        [⟨"Head", .typeParam "T", "", false⟩, ⟨"Size", .basic "int", "", false⟩,
         ⟨"Tail", .pointer (.named "p" "List" [.typeParam "T"]), "", false⟩]) []⟩] }]

/-- The list with aliases in its declaration, one of them of a pointer to a list of any type, and
aliases of an instance of that for lists of text. -/
def aliasedLists : Packages :=
  [{ path := "p", name := "p", types :=
      [⟨"Label", .alias [] (.basic "string")⟩, ⟨"Count", .alias [] (.basic "int")⟩,
       ⟨"Link", .alias ["U"] (.pointer (.named "p" "List" [.typeParam "U"]))⟩,
       ⟨"Words", .alias [] (.named "p" "Link" [.named "p" "Label" []])⟩,
       ⟨"Book", .alias [] (.named "p" "Words" [])⟩,
       ⟨"List", .defined ["T"] (.struct
        [⟨"Head", .typeParam "T", "", false⟩, ⟨"Size", .named "p" "Count" [], "", false⟩,
         ⟨"Tail", .named "p" "Link" [.typeParam "T"], "", false⟩]) []⟩] }]

/-- A list of text, as a pointer. -/
def plainWords : Ty := .pointer (.named "p" "List" [.basic "string"])

/-- The types that a list of text leads to. -/
def plainTypes : List Ty :=
  [plainWords, .named "p" "List" [.basic "string"], .basic "string", .basic "int"]

/-- The types that a book leads to. -/
def aliasedTypes : List Ty :=
  [.named "p" "Book" [], .named "p" "List" [.named "p" "Label" []], .named "p" "Label" [],
   .named "p" "Count" [], .named "p" "Link" [.named "p" "Label" []]]

theorem plainLists_surveyed : plainLists.Surveyed plainTypes where
  closed t mem := by
    simp only [plainTypes, List.mem_cons, List.not_mem_nil, or_false] at mem
    rcases mem with rfl | rfl | rfl | rfl
    · show [.named "p" "List" [.basic "string"]] ⊆ plainTypes
      simp [plainTypes]
    · show [.basic "string", .basic "int", plainWords] ⊆ plainTypes
      simp [plainTypes]
    · exact List.nil_subset _
    · exact List.nil_subset _
  keys := keys_of_nodup (by decide)

theorem aliasedLists_surveyed : aliasedLists.Surveyed aliasedTypes where
  closed t mem := by
    simp only [aliasedTypes, List.mem_cons, List.not_mem_nil, or_false] at mem
    rcases mem with rfl | rfl | rfl | rfl | rfl
    · show [.named "p" "List" [.named "p" "Label" []]] ⊆ aliasedTypes
      simp [aliasedTypes]
    · show [.named "p" "Label" [], .named "p" "Count" [],
        .named "p" "Link" [.named "p" "Label" []]] ⊆ aliasedTypes
      simp [aliasedTypes]
    · exact List.nil_subset _
    · exact List.nil_subset _
    · show [.named "p" "List" [.named "p" "Label" []]] ⊆ aliasedTypes
      simp [aliasedTypes]
  keys := keys_of_nodup (by decide)

/-- Only the list is declared as a type of its own. -/
def ListOnly (path name : String) : Prop := path = "p" ∧ name = "List"

theorem label_named : aliasedLists.AliasOf "p" "Label" [] (.basic "string") := ⟨rfl, nofun⟩

theorem count_named : aliasedLists.AliasOf "p" "Count" [] (.basic "int") := ⟨rfl, nofun⟩

theorem link_named :
    aliasedLists.AliasOf "p" "Link" ["U"] (.pointer (.named "p" "List" [.typeParam "U"])) :=
  ⟨rfl, nofun⟩

theorem words_named :
    aliasedLists.AliasOf "p" "Words" [] (.named "p" "Link" [.named "p" "Label" []]) :=
  ⟨rfl, nofun⟩

theorem book_named : aliasedLists.AliasOf "p" "Book" [] (.named "p" "Words" []) := ⟨rfl, nofun⟩

theorem over_basic (params : List String) (name : String) : (Ty.basic name).Over params :=
  .of nofun (by simp [Ty.children])

theorem over_named {params : List String} {args : List Ty} (each : ∀ arg ∈ args, arg.Over params)
    (path name : String) : (Ty.named path name args).Over params :=
  .of nofun each

theorem link_over :
    (Ty.pointer (.named "p" "List" [.typeParam "U"])).Over ["U"] := by
  have list : (Ty.named "p" "List" [.typeParam "U"]).Over ["U"] :=
    over_named (by simpa using .param List.mem_cons_self) "p" "List"
  exact .of nofun (by simpa [Ty.children] using list)

theorem labels_same : SameType ListOnly plainLists aliasedLists (.basic "string")
    (.named "p" "Label" []) :=
  .aliasRight label_named (over_basic _ _) rfl (.basic (by decide))

/-- A pointer to a list is a link, for any type of elements. -/
theorem links_same {elem elem' : Ty} (same : SameType ListOnly plainLists aliasedLists elem elem') :
    SameType ListOnly plainLists aliasedLists (.pointer (.named "p" "List" [elem]))
      (.named "p" "Link" [elem']) :=
  .aliasRight link_named link_over rfl (.pointer (.named ⟨rfl, rfl⟩ (.cons same .nil)))

theorem lists_declared : SameDeclarations ListOnly plainLists aliasedLists := by
  rintro path name ⟨rfl, rfl⟩
  refine .defined (.written rfl trivial trivial fun c c' paired => ?_) ?own
  case own =>
    intro name same
    cases same
  obtain ⟨rfl, rfl⟩ | ⟨rfl, rfl⟩ | ⟨rfl, rfl⟩ :
      (c = .typeParam "T" ∧ c' = .typeParam "T") ∨
      (c = .basic "int" ∧ c' = .named "p" "Count" []) ∨
      (c = .pointer (.named "p" "List" [.typeParam "T"]) ∧
        c' = .named "p" "Link" [.typeParam "T"]) := by
    simpa [Ty.children] using paired
  · exact .typeParam "T"
  · exact .aliasRight count_named (over_basic _ _) rfl (.basic (by decide))
  · exact links_same (.typeParam "T")

theorem book_same :
    SameType ListOnly plainLists aliasedLists plainWords (.named "p" "Book" []) := by
  have words : (Ty.named "p" "Words" []).Over [] := over_named (by simp) "p" "Words"
  have label : (Ty.named "p" "Label" []).Over [] := over_named (by simp) "p" "Label"
  have link : (Ty.named "p" "Link" [.named "p" "Label" []]).Over [] :=
    over_named (by simpa using label) "p" "Link"
  exact .aliasRight book_named words rfl (.aliasRight words_named link rfl (links_same labels_same))

theorem plainLists_pointersEnd : plainLists.PointersEnd := by
  refine pointersEnd_of_declared (fun _ => 0) fun entry declared args u points => ?_
  obtain rfl : entry = ("p", "List") := by simpa [declaredNames, plainLists] using declared
  cases points

/-- A book, the words in it and a link are pointers to lists, which are none. -/
theorem aliasedLists_pointersEnd : aliasedLists.PointersEnd := by
  refine pointersEnd_of_declared (fun entry => if entry.2 ∈ ["Link", "Words", "Book"] then 1 else 0)
    fun entry declared args u points => ?_
  obtain rfl | rfl | rfl | rfl | rfl | rfl :
      entry = ("p", "Label") ∨ entry = ("p", "Count") ∨ entry = ("p", "Link") ∨
      entry = ("p", "Words") ∨ entry = ("p", "Book") ∨ entry = ("p", "List") := by
    simpa [declaredNames, aliasedLists] using declared
  all_goals cases points
  all_goals exact Nat.one_pos

/-- A book is a list of text, though the keys that guard the recursion are others. -/
theorem aliases_transparent_book :
    SameDeclarations ListOnly plainLists aliasedLists ∧
    SameType ListOnly plainLists aliasedLists plainWords (.named "p" "Book" []) ∧
    plainLists.PointersEnd ∧ aliasedLists.PointersEnd ∧
    plainLists.Surveyed plainTypes ∧ aliasedLists.Surveyed aliasedTypes ∧
    plainLists.key plainWords ≠ aliasedLists.key (.named "p" "Book" []) ∧
    ∃ verdict verdict',
      classify (plainLists.graph .none) [] (some plainWords) = .ok verdict ∧
      classify (aliasedLists.graph .none) [] (some (.named "p" "Book" [])) = .ok verdict' ∧
      verdict.value = verdict'.value := by
  obtain ⟨alike, returns⟩ := aliases_transparent lists_declared book_same
    plainLists_pointersEnd aliasedLists_pointersEnd plainLists_surveyed aliasedLists_surveyed
    List.mem_cons_self List.mem_cons_self .none []
  obtain ⟨verdict, verdict', found, found'⟩ :=
    returns (fun path name => ⟨_, rfl⟩)
      (fun path name args => .ok (plainLists.isEnum path name args))
      (fun path name args => .ok (aliasedLists.isEnum path name args)) nestingLimit nestingLimit
      (fun path name args => ⟨_, rfl⟩) (fun path name args => ⟨_, rfl⟩) (by decide) (by decide)
  exact ⟨lists_declared, book_same, plainLists_pointersEnd, aliasedLists_pointersEnd,
    plainLists_surveyed, aliasedLists_surveyed, by decide, verdict, verdict', found, found',
    alike _ _ _ _ _ _ found found'⟩

end Packages

end ComposeStability.Program
