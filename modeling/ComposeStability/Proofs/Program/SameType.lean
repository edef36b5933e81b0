/-
# Proofs.Program.SameType -- types that differ in aliases only

A type is a frame around the types it is written with (`frame`, `children`).
Two types are the same if they are written in the same way with the same types,
or if one of them is an alias and what it stands for, with its type arguments put
in, is the same as the other (`SameType`).  So any occurrence may be replaced by
an alias of what stands there, on both sides, and by an alias of an alias; inside
a generic declaration also by an instance of an alias at the type parameters.

Declarations may refer to each other in a circle.  `SameType` follows the
occurrences within a type and the aliases, and stops at the names of declared
types; that these stand for the same types is asked of the declarations
(`SameDeclarations`).  Then what is behind all aliases is written in the same way
(`SameType.unalias`), with type arguments put in as well (`SameType.underlying`).
-/
import ComposeStability.Proofs.Outcome
import ComposeStability.Proofs.Program.Aliases
import ComposeStability.Proofs.Program.Legible
import ComposeStability.Program.Identity

namespace ComposeStability.Program

set_option autoImplicit false

/-! ## Frames -/

namespace Ty

/-- A signature with other types. -/
def mapSignature (f : Ty → Ty) (s : Signature Ty) : Signature Ty :=
  ⟨s.params.map fun v => ⟨v.name, f v.type⟩, s.results.map fun v => ⟨v.name, f v.type⟩, s.variadic⟩

/-- A type with others in place of those it is written with. -/
def mapChildren (f : Ty → Ty) : Ty → Ty
  | .named path name args => .named path name (args.map f)
  | .pointer elem => .pointer (f elem)
  | .slice elem => .slice (f elem)
  | .map key value => .map (f key) (f value)
  | .array length elem => .array length (f elem)
  | .chan direction elem => .chan direction (f elem)
  | .func signature => .func (mapSignature f signature)
  | .struct fields => .struct (fields.map fun x => ⟨x.name, f x.type, x.tag, x.embedded⟩)
  | .interface methods embeds =>
      .interface (methods.map fun m => ⟨m.name, mapSignature f m.signature⟩) (embeds.map f)
  | .union terms => .union (terms.map fun x => ⟨x.tilde, f x.type⟩)
  | t => t

/-- A type without those it is written with.  Predeclared types have one spelling, and an embedded
field, which is named by its type, has no name. -/
def frame : Ty → Ty
  | .basic name => .basic (plainName name)
  | .any => .interface [] []
  | .struct fields =>
      .struct (fields.map fun x =>
        ⟨if x.embedded then "" else x.name, .invalid, x.tag, x.embedded⟩)
  | t => t.mapChildren fun _ => .invalid

theorem frame_mapChildren (f : Ty → Ty) (t : Ty) : (t.mapChildren f).frame = t.frame := by
  cases t <;> simp [mapChildren, frame, mapSignature, Function.comp_def]

theorem children_mapChildren (f : Ty → Ty) (t : Ty) :
    (t.mapChildren f).children = t.children.map f := by
  cases t <;>
    simp [mapChildren, children, mapSignature, Function.comp_def, List.map_flatMap,
      List.flatMap_map]

theorem mapSignature_congr {f g : Ty → Ty} {s : Signature Ty}
    (same : ∀ v ∈ s.params ++ s.results, f v.type = g v.type) :
    mapSignature f s = mapSignature g s := by
  rw [List.forall_mem_append] at same
  simp only [mapSignature, Signature.mk.injEq, and_true]
  exact ⟨List.map_congr_left fun v member => by rw [same.1 v member],
    List.map_congr_left fun v member => by rw [same.2 v member]⟩

theorem mapChildren_congr {f g : Ty → Ty} {t : Ty} (same : ∀ c ∈ t.children, f c = g c) :
    t.mapChildren f = t.mapChildren g := by
  cases t with
  | named path name args => exact congrArg (Ty.named path name) (List.map_congr_left same)
  | pointer elem => rw [mapChildren, mapChildren, same elem List.mem_cons_self]
  | slice elem => rw [mapChildren, mapChildren, same elem List.mem_cons_self]
  | map key value =>
      rw [mapChildren, mapChildren, same key List.mem_cons_self,
        same value (List.mem_cons_of_mem _ List.mem_cons_self)]
  | array length elem => rw [mapChildren, mapChildren, same elem List.mem_cons_self]
  | chan direction elem => rw [mapChildren, mapChildren, same elem List.mem_cons_self]
  | func signature =>
      rw [mapChildren, mapChildren,
        mapSignature_congr fun v member => same _ (List.mem_map_of_mem member)]
  | struct fields =>
      exact congrArg Ty.struct
        (List.map_congr_left fun x member => by rw [same _ (List.mem_map_of_mem member)])
  | interface methods embeds =>
      rw [children, List.forall_mem_append, List.forall_mem_flatMap] at same
      obtain ⟨inMethods, above⟩ := same
      rw [mapChildren, mapChildren, List.map_congr_left above]
      refine congrArg (Ty.interface · _) (List.map_congr_left fun m member => ?_)
      rw [mapSignature_congr fun v listed => inMethods m member _ (List.mem_map_of_mem listed)]
  | union terms =>
      exact congrArg Ty.union
        (List.map_congr_left fun x member => by rw [same _ (List.mem_map_of_mem member)])
  | _ => rfl

theorem mapChildren_mapChildren (f g : Ty → Ty) (t : Ty) :
    (t.mapChildren f).mapChildren g = t.mapChildren fun c => g (f c) := by
  cases t <;> simp [mapChildren, mapSignature, Function.comp_def]

theorem mapChildren_ne_typeParam {f : Ty → Ty} {t : Ty} (own : ∀ name, t ≠ .typeParam name)
    (name : String) : t.mapChildren f ≠ .typeParam name := by
  cases t with
  | typeParam name => exact absurd rfl (own name)
  | _ => exact Ty.noConfusion

/-! ## Type arguments -/

theorem replaceAll_eq_map (r : Replacement) (types : List Ty) :
    replaceAll r types = types.map (replace r) := by
  induction types with
  | nil => rfl
  | cons t types ih => rw [replaceAll, ih, List.map_cons]

theorem replaceVariables_eq_map (r : Replacement) (vars : List (Variable Ty)) :
    replaceVariables r vars = vars.map fun v => ⟨v.name, v.type.replace r⟩ := by
  induction vars with
  | nil => rfl
  | cons v vars ih => rw [replaceVariables, ih, List.map_cons]

theorem replaceSignature_eq (r : Replacement) (s : Signature Ty) :
    replaceSignature r s = mapSignature (replace r) s := by
  obtain ⟨params, results, variadic⟩ := s
  rw [replaceSignature, replaceVariables_eq_map, replaceVariables_eq_map]
  rfl

theorem replaceFields_eq_map (r : Replacement) (fields : List (Field Ty)) :
    replaceFields r fields = fields.map fun x => ⟨x.name, x.type.replace r, x.tag, x.embedded⟩ := by
  induction fields with
  | nil => rfl
  | cons x fields ih => rw [replaceFields, ih, List.map_cons]

theorem replaceMethods_eq_map (r : Replacement) (methods : List (Method Ty)) :
    replaceMethods r methods =
      methods.map fun m => ⟨m.name, mapSignature (replace r) m.signature⟩ := by
  induction methods with
  | nil => rfl
  | cons m methods ih => rw [replaceMethods, ih, replaceSignature_eq, List.map_cons]

theorem replaceTerms_eq_map (r : Replacement) (terms : List (Term Ty)) :
    replaceTerms r terms = terms.map fun x => ⟨x.tilde, x.type.replace r⟩ := by
  induction terms with
  | nil => rfl
  | cons x terms ih => rw [replaceTerms, ih, List.map_cons]

variable {params : List String} {args : List Ty}

theorem instantiate_named (params : List String) (given : List Ty) (path name : String) :
    (Ty.named path name args).instantiate params given =
      .named path name (args.map (instantiate params given)) := by
  rw [instantiate, replace, replaceAll_eq_map]
  rfl

/-- Type arguments are put into the types that a type is written with. -/
theorem instantiate_eq_mapChildren {t : Ty} (inner : ∀ name, t ≠ .typeParam name) :
    t.instantiate params args = t.mapChildren (instantiate params args) := by
  unfold instantiate
  cases t with
  | typeParam name => exact absurd rfl (inner name)
  | named path name args => exact instantiate_named params _ path name
  | func signature => rw [replace, replaceSignature_eq]; rfl
  | struct fields => rw [replace, replaceFields_eq_map]; rfl
  | interface methods embeds => rw [replace, replaceMethods_eq_map, replaceAll_eq_map]; rfl
  | union terms => rw [replace, replaceTerms_eq_map]; rfl
  | _ => rfl

/-- The type parameters in a type are among those given. -/
inductive Over (params : List String) : Ty → Prop where
  | param {name : String} (member : name ∈ params) : Over params (.typeParam name)
  | of {t : Ty} (own : ∀ name, t ≠ .typeParam name) (below : ∀ c ∈ t.children, Over params c) :
      Over params t

/-- An argument that is given for a type parameter. -/
theorem exists_argument {name : String} (member : name ∈ params)
    (count : args.length = params.length) :
    ∃ arg, (params.zip args).find? (fun pair => pair.1 == name) = some (name, arg) := by
  obtain ⟨pair, listed, rfl⟩ : ∃ pair ∈ params.zip args, pair.1 = name := by
    rw [← List.mem_map, List.map_fst_zip count.ge]
    exact member
  have given : ((params.zip args).find? fun other => other.1 == pair.1).isSome := by
    rw [List.find?_isSome]
    exact ⟨pair, listed, beq_self_eq_true pair.1⟩
  obtain ⟨⟨name, arg⟩, found⟩ := Option.isSome_iff_exists.1 given
  obtain rfl : name = pair.1 := by simpa using List.find?_some found
  exact ⟨arg, found⟩

/-- What is put into an instance is put into its type arguments. -/
theorem Over.instantiate_instantiate {t : Ty} (inside : t.Over params)
    (count : args.length = params.length) (outer : List String) (given : List Ty) :
    (t.instantiate params args).instantiate outer given =
      t.instantiate params (args.map (instantiate outer given)) := by
  induction inside with
  | @param name member =>
      obtain ⟨arg, found⟩ := exists_argument member count
      have later : (params.zip (args.map (instantiate outer given))).find?
          (fun pair => pair.1 == name) = some (name, arg.instantiate outer given) := by
        rw [List.zip_map_right, List.find?_map]
        exact congrArg (Option.map _) found
      rw [instantiate_typeParam, instantiate_typeParam, found, later]
      rfl
  | @of t own _ ih =>
      rw [instantiate_eq_mapChildren own, instantiate_eq_mapChildren own,
        instantiate_eq_mapChildren (mapChildren_ne_typeParam own), mapChildren_mapChildren]
      exact mapChildren_congr ih

/-- A predeclared type is one of the language, and a declared one is among those known. -/
def Known (declared : String → String → Prop) : Ty → Prop
  | .basic name => name ∈ basicNames
  | .named path name _ => declared path name
  | _ => True

theorem known_mapChildren {declared : String → String → Prop} {f : Ty → Ty} {t : Ty} :
    (t.mapChildren f).Known declared ↔ t.Known declared := by
  cases t <;> rfl

end Ty

/-! ## Types up to aliases -/

section
variable (declared : String → String → Prop) (ps ps' : Packages)

/-- The same type, in one program and in the other.  The declared types that are met, apart from
aliases, are among those given. -/
inductive SameType : Ty → Ty → Prop where
  /-- Written in the same way with the same types. -/
  | written {t t' : Ty} (frame : t.frame = t'.frame) (known : t.Known declared)
      (known' : t'.Known declared)
      (below : ∀ c c', (c, c') ∈ t.children.zip t'.children → SameType c c') : SameType t t'
  /-- On the left an instance of an alias, in which nothing but its type parameters is left open. -/
  | aliasLeft {path name : String} {params : List String} {target : Ty} {args : List Ty} {t' : Ty}
      (named : ps.AliasOf path name params target) (inside : target.Over params)
      (count : args.length = params.length) (same : SameType (target.instantiate params args) t') :
      SameType (.named path name args) t'
  /-- On the right an instance of an alias. -/
  | aliasRight {path name : String} {params : List String} {target : Ty} {args : List Ty} {t : Ty}
      (named : ps'.AliasOf path name params target) (inside : target.Over params)
      (count : args.length = params.length) (same : SameType t (target.instantiate params args)) :
      SameType t (.named path name args)

/-- Types that are written in the same way with the same types. -/
structure SameWritten (t t' : Ty) : Prop where
  frame : t.frame = t'.frame
  known : t.Known declared
  known' : t'.Known declared
  below : ∀ c c', (c, c') ∈ t.children.zip t'.children → SameType declared ps ps' c c'

/-- A name is declared in neither program, or as the same type with the same type parameters.  No
type is declared as a type parameter. -/
inductive SameMeaning : Option Meaning → Option Meaning → Prop where
  | undeclared : SameMeaning none none
  | defined {params : List String} {shape shape' : Ty} {methods methods' : List DeclaredMethod}
      (same : SameType declared ps ps' shape shape')
      (own : ∀ name, ps.unalias shape ≠ .typeParam name) :
      SameMeaning (some (.defined params shape methods)) (some (.defined params shape' methods'))

/-- The declarations that are known are the same in both programs. -/
def SameDeclarations : Prop :=
  ∀ path name, declared path name →
    SameMeaning declared ps ps' (ps.meaning? path name) (ps'.meaning? path name)

end

variable {declared : String → String → Prop} {ps ps' : Packages} {t t' : Ty}

theorem SameWritten.same (written : SameWritten declared ps ps' t t') :
    SameType declared ps ps' t t' :=
  .written written.frame written.known written.known' written.below

namespace SameType

theorem basic {name : String} (listed : name ∈ basicNames) :
    SameType declared ps ps' (.basic name) (.basic name) :=
  .written rfl listed listed fun _ _ none => nomatch none

theorem typeParam (name : String) : SameType declared ps ps' (.typeParam name) (.typeParam name) :=
  .written rfl trivial trivial fun _ _ none => nomatch none

theorem pointer (same : SameType declared ps ps' t t') :
    SameType declared ps ps' (.pointer t) (.pointer t') := by
  refine .written rfl trivial trivial fun c c' paired => ?_
  cases List.mem_singleton.1 paired
  exact same

theorem named {path name : String} (known : declared path name) {args args' : List Ty}
    (each : List.Forall₂ (SameType declared ps ps') args args') :
    SameType declared ps ps' (.named path name args) (.named path name args') := by
  obtain ⟨length, below⟩ := List.forall₂_iff_zip.1 each
  refine .written ?_ known known fun c c' paired => below paired
  have frames : args.map (fun _ => Ty.invalid) = args'.map fun _ => Ty.invalid := by
    rw [List.map_const', List.map_const', length]
  exact congrArg (Ty.named path name) frames

end SameType

theorem SameDeclarations.not_alias (same : SameDeclarations declared ps ps') {path name : String}
    (known : declared path name) (params : List String) (target : Ty) :
    ps.meaning? path name ≠ some (.alias params target) ∧
      ps'.meaning? path name ≠ some (.alias params target) := by
  have meaning := same path name known
  generalize ps.meaning? path name = first at meaning
  generalize ps'.meaning? path name = second at meaning
  cases meaning with
  | undeclared => simp
  | defined => simp

/-- Behind their aliases, the same types are written in the same way. -/
theorem SameType.standFor (declarations : SameDeclarations declared ps ps')
    (same : SameType declared ps ps' t t') :
    ∃ u u', ps.StandsFor t u ∧ ps'.StandsFor t' u' ∧ SameWritten declared ps ps' u u' := by
  induction same with
  | @written t t' frame known known' below =>
      refine ⟨t, t', ⟨[], .done ?_⟩, ⟨[], .done ?_⟩, frame, known, known', below⟩
      · rintro path name args params target rfl
        exact (declarations.not_alias known params target).1
      · rintro path name args params target rfl
        exact (declarations.not_alias known' params target).2
  | aliasLeft named _ _ _ ih =>
      obtain ⟨u, u', ⟨passed, chain⟩, stands', written⟩ := ih
      exact ⟨u, u', ⟨_, .pass named chain⟩, stands', written⟩
  | aliasRight named _ _ _ ih =>
      obtain ⟨u, u', stands, ⟨passed, chain⟩, written⟩ := ih
      exact ⟨u, u', stands, ⟨_, .pass named chain⟩, written⟩

theorem SameType.unalias (same : SameType declared ps ps' t t')
    (declarations : SameDeclarations declared ps ps') :
    SameWritten declared ps ps' (ps.unalias t) (ps'.unalias t') := by
  obtain ⟨u, u', stands, stands', written⟩ := same.standFor declarations
  rwa [stands.unalias_eq, stands'.unalias_eq]

/-! ## Shapes -/

/-- An interface, in either way of writing it, by what it embeds. -/
inductive Ty.Embeds : Ty → List Ty → Prop where
  | any : Embeds .any []
  | interface (methods : List (Method Ty)) (embeds : List Ty) :
      Embeds (.interface methods embeds) embeds

/-- Two types of one shape, with related types in them. -/
inductive SameShape (declared : String → String → Prop) (R : Ty → Ty → Prop) : Ty → Ty → Prop where
  | invalid : SameShape declared R .invalid .invalid
  | unsafePointer : SameShape declared R .unsafePointer .unsafePointer
  | comparability : SameShape declared R .comparability .comparability
  | typeParam (name : String) : SameShape declared R (.typeParam name) (.typeParam name)
  | basic {name name' : String} (listed : name ∈ basicNames) (listed' : name' ∈ basicNames) :
      SameShape declared R (.basic name) (.basic name')
  | named (path name : String) {args args' : List Ty} (known : declared path name)
      (each : List.Forall₂ R args args') :
      SameShape declared R (.named path name args) (.named path name args')
  | pointer {elem elem' : Ty} (inner : R elem elem') :
      SameShape declared R (.pointer elem) (.pointer elem')
  | array (length : Nat) {elem elem' : Ty} (inner : R elem elem') :
      SameShape declared R (.array length elem) (.array length elem')
  | slice (elem elem' : Ty) : SameShape declared R (.slice elem) (.slice elem')
  | map (key value key' value' : Ty) : SameShape declared R (.map key value) (.map key' value')
  | chan (direction : Direction) (elem elem' : Ty) :
      SameShape declared R (.chan direction elem) (.chan direction elem')
  | func (signature signature' : Signature Ty) :
      SameShape declared R (.func signature) (.func signature')
  | struct {fields fields' : List (Field Ty)}
      (each : List.Forall₂ (fun x x' => x.tag = x'.tag ∧ R x.type x'.type) fields fields') :
      SameShape declared R (.struct fields) (.struct fields')
  | interface {u u' : Ty} {embeds embeds' : List Ty} (written : u.Embeds embeds)
      (written' : u'.Embeds embeds') (each : List.Forall₂ R embeds embeds') :
      SameShape declared R u u'
  | union (terms terms' : List (Term Ty)) : SameShape declared R (.union terms) (.union terms')

/-- The types that the methods of an interface are written with are as many on both sides. -/
theorem length_methodTypes {methods methods' : List (Method Ty)}
    (same : methods.map (fun m => ⟨m.name, Ty.mapSignature (fun _ => .invalid) m.signature⟩) =
      methods'.map fun m => Method.mk m.name (Ty.mapSignature (fun _ => .invalid) m.signature)) :
    (methods.flatMap fun m => (m.signature.params ++ m.signature.results).map (·.type)).length =
      (methods'.flatMap fun m =>
        (m.signature.params ++ m.signature.results).map (·.type)).length := by
  have lengths := congrArg
    (List.map fun m => m.signature.params.length + m.signature.results.length) same
  simp only [List.map_map, Function.comp_def, Ty.mapSignature, List.length_map] at lengths
  simp only [List.length_flatMap, List.length_map, List.length_append, lengths]

theorem SameWritten.shape (written : SameWritten declared ps ps' t t') :
    SameShape declared (SameType declared ps ps') t t' := by
  obtain ⟨frame, known, known', below⟩ := written
  -- frames of other constructors differ, except that `any` is an interface
  cases t <;> cases t' <;> try (cases frame; done)
  case invalid.invalid => exact .invalid
  case unsafePointer.unsafePointer => exact .unsafePointer
  case comparability.comparability => exact .comparability
  case basic.basic => exact .basic known known'
  case typeParam.typeParam =>
      obtain rfl := Ty.typeParam.inj frame
      exact .typeParam _
  case named.named =>
      obtain ⟨rfl, rfl, args⟩ := Ty.named.inj frame
      exact .named _ _ known
        (List.forall₂_iff_zip.2 ⟨by simpa using congrArg List.length args, below _ _⟩)
  case pointer.pointer => exact .pointer (below _ _ List.mem_cons_self)
  case array.array =>
      obtain ⟨rfl, -⟩ := Ty.array.inj frame
      exact .array _ (below _ _ List.mem_cons_self)
  case slice.slice => exact .slice _ _
  case map.map => exact .map _ _ _ _
  case chan.chan =>
      obtain ⟨rfl, -⟩ := Ty.chan.inj frame
      exact .chan _ _ _
  case func.func => exact .func _ _
  case union.union => exact .union _ _
  case struct.struct fields fields' =>
      have marked := forall₂_of_map_eq (Ty.struct.inj frame) fun _ _ _ _ same => same
      obtain ⟨length, tags⟩ := List.forall₂_iff_zip.1 marked
      refine .struct (List.forall₂_iff_zip.2 ⟨length, fun {x x'} paired => ⟨?_, below _ _ ?_⟩⟩)
      · exact (Field.mk.inj (tags paired)).2.2.1
      · rw [Ty.children, Ty.children, List.zip_map]
        exact List.mem_map_of_mem (f := Prod.map _ _) paired
  case any.any => exact .interface .any .any .nil
  case any.interface methods embeds =>
      have none : [] = embeds.map _ := (Ty.interface.inj frame).2
      obtain rfl := List.map_eq_nil_iff.1 none.symm
      exact .interface .any (.interface _ _) .nil
  case interface.any methods embeds =>
      have none : embeds.map _ = [] := (Ty.interface.inj frame).2
      obtain rfl := List.map_eq_nil_iff.1 none
      exact .interface (.interface _ _) .any .nil
  case interface.interface methods embeds methods' embeds' =>
      obtain ⟨inMethods, above⟩ := Ty.interface.inj frame
      have front := length_methodTypes inMethods
      refine .interface (.interface _ _) (.interface _ _)
        (List.forall₂_iff_zip.2 ⟨by simpa using congrArg List.length above, ?_⟩)
      intro e e' paired
      refine below _ _ ?_
      rw [Ty.children, Ty.children, List.zip_append front]
      exact List.mem_append_right _ paired

/-! ## Type arguments -/

theorem Ty.eq_typeParam_of_frame {name : String} (frame : t.frame = (Ty.typeParam name).frame) :
    t = .typeParam name := by
  cases t <;> try (cases frame; done)
  exact frame

theorem SameWritten.mapChildren (written : SameWritten declared ps ps' t t') {f f' : Ty → Ty}
    (each : ∀ c c', (c, c') ∈ t.children.zip t'.children →
      SameType declared ps ps' (f c) (f' c')) :
    SameWritten declared ps ps' (t.mapChildren f) (t'.mapChildren f') where
  frame := by rw [Ty.frame_mapChildren, Ty.frame_mapChildren, written.frame]
  known := Ty.known_mapChildren.2 written.known
  known' := Ty.known_mapChildren.2 written.known'
  below c c' paired := by
    rw [Ty.children_mapChildren, Ty.children_mapChildren, List.zip_map, List.mem_map] at paired
    obtain ⟨⟨d, d'⟩, listed, here⟩ := paired
    obtain ⟨rfl, rfl⟩ := Prod.mk.inj here
    exact each d d' listed

/-- A type parameter stands for the same type on both sides. -/
theorem SameType.argument (params : List String) {args args' : List Ty}
    (each : List.Forall₂ (SameType declared ps ps') args args') (name : String) :
    SameType declared ps ps' ((Ty.typeParam name).instantiate params args)
      ((Ty.typeParam name).instantiate params args') := by
  have free : SameType declared ps ps' (.typeParam name) (.typeParam name) := .typeParam name
  rw [Ty.instantiate_typeParam, Ty.instantiate_typeParam]
  induction each generalizing params with
  | nil =>
      rw [List.zip_nil_right]
      exact free
  | cons here _ ih =>
      cases params with
      | nil => exact free
      | cons param params =>
          rw [List.zip_cons_cons, List.zip_cons_cons, List.find?_cons, List.find?_cons]
          cases param == name with
          | true => exact here
          | false => exact ih params

section
variable {params : List String} {args args' : List Ty}

/-- Type arguments go into types that are written in the same way at the same places. -/
theorem SameWritten.instantiate_of (written : SameWritten declared ps ps' t t')
    (own : ∀ name, t ≠ .typeParam name)
    (below : ∀ c c', (c, c') ∈ t.children.zip t'.children →
      SameType declared ps ps' (c.instantiate params args) (c'.instantiate params args')) :
    SameWritten declared ps ps' (t.instantiate params args) (t'.instantiate params args') := by
  have own' : ∀ name, t' ≠ .typeParam name := by
    rintro name rfl
    exact own name (Ty.eq_typeParam_of_frame written.frame)
  rw [Ty.instantiate_eq_mapChildren own, Ty.instantiate_eq_mapChildren own']
  exact written.mapChildren below

/-- With type arguments put in, a type is the same if the type and the arguments are. -/
theorem SameType.instantiate (same : SameType declared ps ps' t t')
    (each : List.Forall₂ (SameType declared ps ps') args args') :
    SameType declared ps ps' (t.instantiate params args) (t'.instantiate params args') := by
  induction same with
  | @written t t' frame known known' below ih =>
      by_cases own : ∃ name, t = .typeParam name
      · obtain ⟨name, rfl⟩ := own
        obtain rfl := Ty.eq_typeParam_of_frame frame.symm
        exact .argument params each name
      · have written : SameWritten declared ps ps' t t' := ⟨frame, known, known', below⟩
        exact (written.instantiate_of (fun name here => own ⟨name, here⟩) ih).same
  | aliasLeft named inside count _ ih =>
      rw [inside.instantiate_instantiate count] at ih
      rw [Ty.instantiate_named]
      exact .aliasLeft named inside (by rwa [List.length_map]) ih
  | aliasRight named inside count _ ih =>
      rw [inside.instantiate_instantiate count] at ih
      rw [Ty.instantiate_named]
      exact .aliasRight named inside (by rwa [List.length_map]) ih

end

/-- The same types have the same structure. -/
theorem SameType.underlying (same : SameType declared ps ps' t t')
    (declarations : SameDeclarations declared ps ps') :
    SameWritten declared ps ps' (ps.underlying t) (ps'.underlying t') := by
  have written := same.unalias declarations
  unfold Packages.underlying
  generalize ps.unalias t = u at written ⊢
  generalize ps'.unalias t' = u' at written ⊢
  cases written.shape with
  | named path name known each =>
      have meaning := declarations path name known
      simp only
      generalize ps.meaning? path name = first at meaning ⊢
      generalize ps'.meaning? path name = second at meaning ⊢
      cases meaning with
      | undeclared => exact ⟨rfl, trivial, trivial, fun c c' none => nomatch none⟩
      | defined shape own =>
          have shown := shape.unalias declarations
          cases each with
          | nil => exact shown
          | cons first rest =>
              exact shown.instantiate_of own fun c c' paired =>
                (shown.below c c' paired).instantiate (.cons first rest)
  | interface shown shown' => cases shown <;> cases shown' <;> exact written
  | _ => exact written

end ComposeStability.Program
