/-
# Proofs.Program.TypeKeys -- keys of types can be read in one way only

The spelling of a legible type determines the type and where it ends
(`Ty.Legible.told`).  The proof goes by the types that a type is written with: the
beginning of the spelling tells the constructor, and the parts are read one after
the other.

So keys tell legible types apart (`key_inj`).  A type parameter may have the name
of a predeclared type: the mark behind it tells the two apart.
-/
import ComposeStability.Proofs.Program.Readable

namespace ComposeStability.Program

set_option autoImplicit false

/-- Type parameters of declared types have identifiers for names. -/
def Packages.ParamsNamed (ps : Packages) : Prop :=
  ∀ path name, ∀ param ∈ ps.typeParams path name, Text.isIdentifier param = true

theorem Packages.WellNamed.params {ps : Packages} (named : ps.WellNamed) : ps.ParamsNamed :=
  fun path name param => named.byName.typeParams path name param

section
variable {ps : Packages} {t u : Ty}

open Packages Ty

/-! ## Type arguments -/

/-- Type parameters, of which the last has a constraint, are not spelled like type arguments. -/
theorem params_ne_args (ps : Packages) {params : List String}
    (filled : params ≠ []) (identifiers : ∀ param ∈ params, Text.isIdentifier param = true)
    {args : List Ty} (filled' : args ≠ []) (standalone : ∀ arg ∈ args, arg.Standalone)
    (rest rest' : List Char) :
    [',', ' '].intercalate (params.map fun param => (typeParamText param).toList) ++
        (" any]".toList ++ rest) ≠
      [',', ' '].intercalate (args.map ps.spell) ++ ']' :: rest' := by
  induction params generalizing args with
  | nil => exact absurd rfl filled
  | cons param params ih =>
      cases args with
      | nil => exact absurd rfl filled'
      | cons arg args =>
          have identifier := identifiers param List.mem_cons_self
          have here := standalone arg List.mem_cons_self
          -- what follows the first argument
          obtain ⟨behind, spelled, ends, shape⟩ : ∃ behind,
              [',', ' '].intercalate ((arg :: args).map ps.spell) ++ ']' :: rest' =
                ps.spell arg ++ behind ∧ Ends behind ∧
              (args = [] ∧ behind = ']' :: rest' ∨ args ≠ [] ∧
                behind = ',' :: ' ' :: ([',', ' '].intercalate (args.map ps.spell) ++
                  ']' :: rest')) := by
            cases args with
            | nil => exact ⟨_, by simp, by simp [Ends], .inl ⟨rfl, rfl⟩⟩
            | cons next args => exact ⟨_, by simp, by simp [Ends], .inr ⟨by simp, rfl⟩⟩
          rw [spelled]
          intro same
          cases params with
          | nil =>
              simp only [List.map_cons, List.map_nil, List.intercalate_singleton] at same
              rcases param_gap here identifier ends same.symm with blank | second
              · rcases shape with ⟨-, rfl⟩ | ⟨-, rfl⟩ <;> simp at blank
              · exact absurd (List.cons.inj second).1 (by decide)
          | cons next params =>
              simp only [List.map_cons, List.intercalate_cons_cons, List.append_assoc,
                List.cons_append, List.nil_append] at same
              have comma := param_cut here identifier ends (by decide) (by decide) same.symm
              rcases shape with ⟨-, rfl⟩ | ⟨more, rfl⟩
              · simp at comma
              · refine ih (List.cons_ne_nil _ _)
                  (fun param member => identifiers param (List.mem_cons_of_mem _ member)) more
                  (fun arg member => standalone arg (List.mem_cons_of_mem _ member)) ?_
                simpa using comma.symm

/-- What stands behind the word of a declared type determines its arguments. -/
theorem suffix_inj {path name : String}
    (params : ∀ param ∈ ps.typeParams path name, Text.isIdentifier param = true)
    {args args' : List Ty} (standalone : ∀ arg ∈ args, arg.Standalone)
    (readable : ∀ arg ∈ args, arg.Readable ps)
    (standalone' : ∀ arg ∈ args', arg.Standalone) {rest rest' : List Char}
    (ends : Ends rest) (ends' : Ends rest')
    (same : ps.suffix (.named path name args) ++ rest =
      ps.suffix (.named path name args') ++ rest') : args = args' ∧ rest = rest' := by
  -- a type without arguments is not spelled like one with arguments
  have mixed {arg : Ty} {args : List Ty} (standalone : ∀ arg' ∈ arg :: args, arg'.Standalone)
      {rest : List Char} (ends : Ends rest) (rest' : List Char) :
      ps.suffix (.named path name []) ++ rest ≠
        ps.suffix (.named path name (arg :: args)) ++ rest' := by
    intro same
    simp only [suffix, typeParamsText] at same
    split at same
    · exact ends.no_bracket _ same
    · next filled =>
        simp only [String.toList_append, String.toList_intercalate, List.append_assoc,
          List.cons_append] at same
        refine params_ne_args ps (by simpa using filled) params (List.cons_ne_nil _ _)
          standalone rest rest' ?_
        simpa [Function.comp_def] using (List.cons.inj same).2
  cases args with
  | nil =>
      cases args' with
      | nil => exact ⟨rfl, List.append_cancel_left same⟩
      | cons arg' args' => exact absurd same (mixed standalone' ends _)
  | cons arg args =>
      cases args' with
      | nil => exact absurd same.symm (mixed standalone ends' _)
      | cons arg' args' =>
          simp only [suffix, List.cons_append, List.append_assoc, List.nil_append,
            List.cons.injEq, true_and] at same
          exact join_closed_inj (P := Ends)
            (fun a member b member' rest rest' => readable a member b rest rest'
              (standalone' b member'))
            (fun _ => by simp [Ends]) (fun _ => by simp [Ends]) (by decide)
            (fun a member rest cs => by
              have here : a.Standalone := member.elim (standalone a) (standalone' a)
              exact spell_ne_cons here.legible here.single (by decide) rest cs)
            same

/-! ## Types by their constructors -/

theorem repr_inj {m n : Nat} (same : m.repr.toList = n.repr.toList) : m = n := by
  rw [Nat.toList_repr, Nat.toList_repr] at same
  have value := Nat.ofDigitChars_toDigits (b := 10) (n := m) (by decide) (by decide)
  rwa [same, Nat.ofDigitChars_toDigits (by decide) (by decide), eq_comm] at value

theorem bracket_not_mem_repr (n : Nat) : ']' ∉ n.repr.toList := by
  intro member
  rw [Nat.toList_repr] at member
  exact absurd (Nat.isDigit_of_mem_toDigits (by decide) (by decide) member) (by decide)

/-- The element type of a channel for both directions stands in parentheses if it is a channel to
receive from. -/
theorem both_inj (standalone : t.Standalone)
    (readable : t.Readable ps) (standalone' : u.Standalone) {rest rest' : List Char}
    (ends : Ends rest) (ends' : Ends rest')
    (same : ps.spell (.chan .both t) ++ rest = ps.spell (.chan .both u) ++ rest') :
    t = u ∧ rest = rest' := by
  -- no other type begins with a parenthesis
  have mixed {t : Ty} (standalone : t.Standalone) (plain : ∀ elem, t ≠ .chan .receive elem)
      (elem : Ty) (rest rest' : List Char) : ps.spell (.chan .both t) ++ rest ≠
        ps.spell (.chan .both (.chan .receive elem)) ++ rest' := by
    intro same
    rw [spell_both plain, spell_both_receive] at same
    have behind : "chan ".toList ++ (ps.spell t ++ rest) =
        "chan ".toList ++ '(' :: (ps.spell (.chan .receive elem) ++ ')' :: rest') := by
      simpa using same
    exact spell_ne_cons standalone.legible standalone.single (by decide) _ _
      (List.append_cancel_left behind)
  by_cases received : ∃ elem, t = .chan .receive elem <;>
    by_cases received' : ∃ elem, u = .chan .receive elem
  · obtain ⟨elem, rfl⟩ := received
    obtain ⟨elem', rfl⟩ := received'
    simp only [spell_both_receive, List.append_assoc, List.append_cancel_left_eq] at same
    obtain ⟨same, rest⟩ := readable _ _ _ standalone' (by simp [Ends]) (by simp [Ends]) same
    exact ⟨same, (List.cons.inj rest).2⟩
  · obtain ⟨elem, rfl⟩ := received
    exact absurd same.symm (mixed standalone' (not_exists.1 received') elem _ _)
  · obtain ⟨elem', rfl⟩ := received'
    exact absurd same (mixed standalone (not_exists.1 received) elem' _ _)
  · rw [spell_both (not_exists.1 received), spell_both (not_exists.1 received'),
      List.append_assoc, List.append_assoc, List.append_cancel_left_eq] at same
    exact readable u rest rest' standalone' ends ends' same

theorem signature_standalone {s : Signature Ty} (clear : s.Clear)
    (legible : ∀ v ∈ s.params ++ s.results, v.type.Legible) : s.Standalone := by
  have each (v : Variable Ty) (member : v ∈ s.params ++ s.results) : v.Standalone :=
    ⟨clear.named v member, legible v member, clear.single v member⟩
  exact ⟨fun v member => each v (List.mem_append_left _ member),
    fun v member => each v (List.mem_append_right _ member), clear.variadic⟩

theorem func_inj {s s' : Signature Ty}
    (legible : (Ty.func s).Legible) (told : ∀ c ∈ (Ty.func s).children, c.Told ps)
    (legible' : (Ty.func s').Legible) {rest rest' : List Char} (ends : Ends rest)
    (ends' : Ends rest') (same : ps.spell (.func s) ++ rest = ps.spell (.func s') ++ rest') :
    s = s' ∧ rest = rest' := by
  rw [spell_func legible.clear, spell_func legible'.clear, List.append_assoc,
    List.append_assoc] at same
  exact spellSignature_inj
    (signature_standalone legible.clear fun v member => legible.child (List.mem_map_of_mem member))
    (fun v member =>
      (told _ (List.mem_map_of_mem member)).readable (legible.clear.single v member))
    (signature_standalone legible'.clear
      fun v member => legible'.child (List.mem_map_of_mem member))
    ends ends' (List.append_cancel_left same)

theorem field_standalone {fields : List (Field Ty)} (legible : (Ty.struct fields).Legible) :
    ∀ f ∈ fields, f.Standalone := fun f member =>
  ⟨legible.clear f member, legible.child (List.mem_map_of_mem member),
    (legible.clear f member).single⟩

theorem field_ne_close {f : Field Ty} (standalone : f.Standalone)
    (rest cs : List Char) :
    ps.spellField f ++ rest ≠ '\x7d' :: cs := by
  obtain ⟨name, t, tag, embedded⟩ := f
  cases embedded with
  | false =>
      simp only [spellField, Bool.false_eq_true, if_false, List.append_assoc]
      exact identifier_ne_cons standalone.clear.named (by decide) _ _
  | true =>
      simp only [spellField, if_true, List.nil_append, List.append_assoc]
      exact spell_ne_cons standalone.type.legible standalone.type.single (by decide) _ _

theorem struct_inj {fields fields' : List (Field Ty)}
    (legible : (Ty.struct fields).Legible)
    (told : ∀ c ∈ (Ty.struct fields).children, c.Told ps)
    (legible' : (Ty.struct fields').Legible) {rest rest' : List Char}
    (same : ps.spell (.struct fields) ++ rest = ps.spell (.struct fields') ++ rest') :
    fields = fields' ∧ rest = rest' := by
  simp only [spell_struct, List.append_assoc, List.append_cancel_left_eq, List.cons_append,
    List.nil_append] at same
  exact join_closed_inj (P := Separated)
    (fun f member f' member' rest rest' => spellField_inj (field_standalone legible f member)
      ((told _ (List.mem_map_of_mem member)).readable (legible.clear f member).single)
      (field_standalone legible' f' member'))
    (fun _ => ⟨_, .inl rfl⟩) (fun _ => ⟨_, .inr rfl⟩) (by decide)
    (fun f member =>
      field_ne_close (member.elim (field_standalone legible f) (field_standalone legible' f)))
    same

theorem element_ne_close {e : Method Ty ⊕ Ty}
    (legible : LegibleElement e) (rest cs : List Char) :
    spellElement ps e ++ rest ≠ '\x7d' :: cs := by
  cases e with
  | inl m =>
      simp only [spellElement, Sum.elim_inl, spellMethod, List.append_assoc]
      exact identifier_ne_cons legible.1 (by decide) _ _
  | inr t =>
      have single {t : Ty} (standalone : t.Standalone) (rest : List Char) :
          ps.spell t ++ rest ≠ '\x7d' :: cs :=
        spell_ne_cons standalone.legible standalone.single (by decide) rest cs
      simp only [spellElement, Sum.elim_inr]
      cases union : t.isUnion with
      | false => exact single ⟨legible, union⟩ rest
      | true =>
          obtain ⟨terms, rfl⟩ := eq_union union
          rcases union_cases ps legible rest with ⟨ds, tilde⟩ | ⟨term, member, ds, shape⟩
          · simp [tilde]
          · rw [shape]
            exact single (term_standalone legible member) _

/-- What an interface lists. -/
def elements (methods : List (Method Ty)) (embeds : List Ty) : List (Method Ty ⊕ Ty) :=
  methods.map .inl ++ embeds.map .inr

theorem elements_inj {methods methods' : List (Method Ty)} {embeds embeds' : List Ty}
    (same : elements methods embeds = elements methods' embeds') :
    methods = methods' ∧ embeds = embeds' := by
  have left := congrArg (List.filterMap Sum.getLeft?) same
  have right := congrArg (List.filterMap Sum.getRight?) same
  simp [elements, Function.comp_def] at left right
  exact ⟨left, right⟩

theorem spell_elements {methods : List (Method Ty)} {embeds : List Ty}
    (legible : (Ty.interface methods embeds).Legible) :
    ps.spell (.interface methods embeds) = "interface\x7b".toList ++
      ([';', ' '].intercalate ((elements methods embeds).map (spellElement ps)) ++ ['\x7d']) := by
  rw [spell_interface fun m member => (legible.clear m member).2]
  simp [elements, spellElement, Function.comp_def]

theorem legible_elements {methods : List (Method Ty)} {embeds : List Ty}
    (legible : (Ty.interface methods embeds).Legible) :
    ∀ e ∈ elements methods embeds, LegibleElement e := by
  intro e member
  rcases List.mem_append.1 member with isMethod | isEmbedded
  · obtain ⟨m, listed, rfl⟩ := List.mem_map.1 isMethod
    obtain ⟨identifier, clear⟩ := legible.clear m listed
    refine ⟨identifier, signature_standalone clear fun v member => legible.child ?_⟩
    exact List.mem_append_left _ (List.mem_flatMap.2 ⟨m, listed, List.mem_map_of_mem member⟩)
  · obtain ⟨t, listed, rfl⟩ := List.mem_map.1 isEmbedded
    exact legible.child (List.mem_append_right _ listed)

theorem told_elements {methods : List (Method Ty)} {embeds : List Ty}
    (legible : (Ty.interface methods embeds).Legible)
    (told : ∀ c ∈ (Ty.interface methods embeds).children, c.Told ps) :
    ∀ e ∈ elements methods embeds, ToldElement ps e := by
  intro e member
  rcases List.mem_append.1 member with isMethod | isEmbedded
  · obtain ⟨m, listed, rfl⟩ := List.mem_map.1 isMethod
    refine fun v member => (told v.type ?_).readable ((legible.clear m listed).2.single v member)
    exact List.mem_append_left _ (List.mem_flatMap.2 ⟨m, listed, List.mem_map_of_mem member⟩)
  · obtain ⟨t, listed, rfl⟩ := List.mem_map.1 isEmbedded
    exact told t (List.mem_append_right _ listed)

theorem interface_inj {methods methods' : List (Method Ty)}
    {embeds embeds' : List Ty} (legible : (Ty.interface methods embeds).Legible)
    (told : ∀ c ∈ (Ty.interface methods embeds).children, c.Told ps)
    (legible' : (Ty.interface methods' embeds').Legible) {rest rest' : List Char}
    (same : ps.spell (.interface methods embeds) ++ rest =
      ps.spell (.interface methods' embeds') ++ rest') :
    methods = methods' ∧ embeds = embeds' ∧ rest = rest' := by
  rw [spell_elements legible, spell_elements legible'] at same
  simp only [List.append_assoc, List.append_cancel_left_eq, List.cons_append,
    List.nil_append] at same
  have legibles := legible_elements legible
  have legibles' := legible_elements legible'
  obtain ⟨same, rest⟩ := join_closed_inj (P := Separated)
    (fun e member e' member' rest rest' => spellElement_inj (legibles e member)
      (told_elements legible told e member) (legibles' e' member'))
    (fun _ => ⟨_, .inl rfl⟩) (fun _ => ⟨_, .inr rfl⟩) (by decide)
    (fun e member => element_ne_close (member.elim (legibles e) (legibles' e)))
    same
  obtain ⟨rfl, rfl⟩ := elements_inj same
  exact ⟨rfl, rfl, rest⟩

/-! ## All types -/

theorem args_standalone {path name : String} {args : List Ty}
    (legible : (Ty.named path name args).Legible) : ∀ arg ∈ args, arg.Standalone := by
  intro arg member
  refine ⟨legible.child member, ?_⟩
  have clear := legible.clear
  rw [Clear] at clear
  split at clear
  · simp [clear.2] at member
  · exact clear.2.2.2 arg member

/-- A declared type of a package, or a predeclared one, is determined by its spelling, if its
arguments are. -/
theorem readable_word (params : ps.ParamsNamed) (legible : t.Legible) (single : t.isUnion = false)
    (head : t.head = .word)
    (args : ∀ path name args, t = .named path name args → ∀ arg ∈ args, arg.Readable ps) :
    t.Readable ps := by
  intro u rest rest' standalone ends ends' same
  have head' : u.head = .word := by
    rw [← headOf_spell ps standalone.legible standalone.single ends', ← same,
      headOf_spell ps legible single ends, head]
  obtain ⟨plain, spelled, -⟩ := word_cases ps legible single head
  obtain ⟨plain', spelled', -⟩ :=
    word_cases ps standalone.legible standalone.single head'
  rw [spelled, spelled', List.append_assoc, List.append_assoc] at same
  obtain ⟨words, behind⟩ := word_append_inj plain.chars plain'.chars (suffix_cut ends).1
    (suffix_cut ends').1 same
  rcases word_inj legible standalone.legible single standalone.single head head'
    (String.toList_inj.1 words) with rfl | ⟨path, name, mine, theirs, rfl, rfl⟩
  · exact ⟨rfl, List.append_cancel_left behind⟩
  · obtain ⟨rfl, rest⟩ := suffix_inj (params path name) (args_standalone legible)
      (args path name mine rfl) (args_standalone standalone.legible) ends ends' behind
    exact ⟨rfl, rest⟩

/-- A type is readable if the types that it is written with are told from their spelling. -/
theorem readable_of_children (params : ps.ParamsNamed) (legible : t.Legible) (single : t.isUnion = false)
    (told : ∀ c ∈ t.children, c.Told ps) : t.Readable ps := by
  by_cases head : t.head = .word
  · refine readable_word params legible single head ?_
    rintro path name args rfl arg member
    exact (told arg member).readable (args_standalone legible arg member).single
  intro u rest rest' standalone ends ends' same
  have shape := u.head_cases
  rw [← headOf_spell ps standalone.legible standalone.single ends', ← same,
    headOf_spell ps legible single ends] at shape
  have clear := legible.clear
  have clear' := standalone.legible.clear
  -- a type that `t` is written with is read
  have read {c c' : Ty} {cs cs' : List Char} (member : c ∈ t.children) (single : c.isUnion = false)
      (member' : c' ∈ u.children) (single' : c'.isUnion = false) (ends : Ends cs)
      (ends' : Ends cs') (same : ps.spell c ++ cs = ps.spell c' ++ cs') : c = c' ∧ cs = cs' :=
    (told c member).readable single c' cs cs' ⟨standalone.legible.child member', single'⟩ ends ends'
      same
  cases t with
  | invalid =>
      obtain rfl : u = .invalid := shape
      exact ⟨rfl, List.append_cancel_left same⟩
  | pointer elem =>
      obtain ⟨elem', rfl⟩ := shape
      rw [spell_pointer, spell_pointer] at same
      obtain ⟨rfl, rest⟩ := read List.mem_cons_self clear List.mem_cons_self clear' ends ends'
        (List.cons.inj same).2
      exact ⟨rfl, rest⟩
  | slice elem =>
      obtain ⟨elem', rfl⟩ := shape
      rw [spell_slice, spell_slice] at same
      obtain ⟨rfl, rest⟩ := read List.mem_cons_self clear List.mem_cons_self clear' ends ends'
        (List.cons.inj (List.cons.inj same).2).2
      exact ⟨rfl, rest⟩
  | array n elem =>
      obtain ⟨n', elem', rfl⟩ := shape
      simp only [spell_array, List.cons_append, List.append_assoc, List.cons.injEq,
        true_and] at same
      obtain ⟨digits, behind⟩ :=
        append_cons_inj (bracket_not_mem_repr n) (bracket_not_mem_repr n') same
      obtain rfl := repr_inj digits
      obtain ⟨rfl, rest⟩ := read List.mem_cons_self clear List.mem_cons_self clear' ends ends'
        behind
      exact ⟨rfl, rest⟩
  | map key value =>
      obtain ⟨key', value', rfl⟩ := shape
      simp only [spell_map, List.append_assoc, List.cons_append,
        List.append_cancel_left_eq] at same
      obtain ⟨rfl, behind⟩ := read (by simp [children]) clear.1 (by simp [children]) clear'.1
        (by simp [Ends]) (by simp [Ends]) same
      obtain ⟨rfl, rest⟩ := read (by simp [children]) clear.2 (by simp [children]) clear'.2 ends
        ends' (List.cons.inj behind).2
      exact ⟨rfl, rest⟩
  | chan direction elem =>
      cases direction with
      | both =>
          obtain ⟨elem', rfl⟩ := shape
          obtain ⟨rfl, rest⟩ := both_inj ⟨legible.child List.mem_cons_self, clear⟩
            ((told elem List.mem_cons_self).readable clear)
            ⟨standalone.legible.child List.mem_cons_self, clear'⟩ ends ends' same
          exact ⟨rfl, rest⟩
      | send =>
          obtain ⟨elem', rfl⟩ := shape
          simp only [spell_send, List.append_assoc, List.append_cancel_left_eq] at same
          obtain ⟨rfl, rest⟩ :=
            read List.mem_cons_self clear List.mem_cons_self clear' ends ends' same
          exact ⟨rfl, rest⟩
      | receive =>
          obtain ⟨elem', rfl⟩ := shape
          simp only [spell_receive, List.append_assoc, List.append_cancel_left_eq] at same
          obtain ⟨rfl, rest⟩ :=
            read List.mem_cons_self clear List.mem_cons_self clear' ends ends' same
          exact ⟨rfl, rest⟩
  | func signature =>
      obtain ⟨signature', rfl⟩ := shape
      obtain ⟨rfl, rest⟩ := func_inj legible told standalone.legible ends ends' same
      exact ⟨rfl, rest⟩
  | struct fields =>
      obtain ⟨fields', rfl⟩ := shape
      obtain ⟨rfl, rest⟩ := struct_inj legible told standalone.legible same
      exact ⟨rfl, rest⟩
  | interface methods embeds =>
      obtain ⟨methods', embeds', rfl⟩ := shape
      obtain ⟨rfl, rfl, rest⟩ := interface_inj legible told standalone.legible same
      exact ⟨rfl, rest⟩
  | _ => exact absurd rfl head

/-- The spelling of a legible type, or of the terms of a union, determines the type. -/
theorem Ty.Legible.told (params : ps.ParamsNamed) (legible : t.Legible) : t.Told ps := by
  induction legible with
  | @of t clear below ih =>
      cases single : t.isUnion with
      | false =>
          have readable := readable_of_children params (.of clear below) single ih
          cases t with
          | union => simp [isUnion] at single
          | _ => exact readable
      | true =>
          obtain ⟨terms, rfl⟩ := eq_union single
          intro term member
          exact (ih _ (List.mem_map_of_mem member)).readable (clear.1 term member)

/-- Keys tell legible types apart. -/
theorem key_inj (params : ps.ParamsNamed) (legible : t.Legible)
    (legible' : u.Legible) (same : ps.key t = ps.key u) : t = u := by
  have stops : Stops [] := ⟨trivial, by decide⟩
  have chars : ps.spell t ++ [] = ps.spell u ++ [] := by rw [spell, spell, same]
  exact (told_inj legible (legible.told params) legible' stops stops chars).1

end

end ComposeStability.Program
