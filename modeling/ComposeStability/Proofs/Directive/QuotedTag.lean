/-
# Proofs.Directive.QuotedTag -- a quoted tag of a trace reads back

The literal of a tag passes the cut at a comment, the division into words and the
cut at an equals sign whole if it holds no space, and then denotes the tag.  With
a space the first word of the arguments ends inside the literal, which denotes
nothing (`quotedTrace_read`).
-/
import ComposeStability.Proofs.Directive.Grammar
import ComposeStability.Proofs.Text.ReadBack
import ComposeStability.Proofs.Text.Words

namespace ComposeStability.Directive

set_option autoImplicit false

open Source (Pos Comment)

/-- The directive for a trace with the literal of a tag and a threshold. -/
def quotedTrace (tag : String) (threshold : Int) : String :=
  start ++ "trace tag=" ++ Text.quote tag ++ " threshold=" ++ toString threshold

/-! ## Spaces -/

/-- A space that no slashes follow starts no comment. -/
theorem cut_space {word rest : List Char} (spaceless : ' ' ∉ word) (other : ¬ ['/', '/'] <+: rest) :
    Text.cut commentStart (word ++ ' ' :: rest) =
      (Text.cut commentStart rest).map fun parts => (word ++ ' ' :: parts.1, parts.2) := by
  induction word with
  | nil =>
      have none_here : Text.afterStart? commentStart (' ' :: rest) = none := by
        cases found : Text.afterStart? ['/', '/'] rest with
        | none => exact found
        | some after => exact absurd ⟨after, (Text.afterStart?_eq_some_iff.1 found).symm⟩ other
      rw [List.nil_append, Text.cut, none_here]
      rfl
  | cons c word ih =>
      have differ : ' ' ≠ c := fun same => spaceless (same ▸ List.mem_cons_self)
      have later : ' ' ∉ word := fun member => spaceless (List.mem_cons_of_mem c member)
      rw [List.cons_append, Text.cut, commentStart, Text.afterStart?_ne differ, ← commentStart,
        ih later, Option.map_map]
      rfl

/-- A comment starts at the first space if slashes follow it, or else behind it. -/
theorem bodyOf_space {word : List Char} (spaceless : ' ' ∉ word) (rest : List Char) :
    bodyOf (word ++ ' ' :: rest) =
      if ['/', '/'] <+: rest then word else word ++ ' ' :: bodyOf rest := by
  split
  · next slashes =>
    obtain ⟨after, rfl⟩ := slashes
    have found := Text.cut_append spaceless ['/', '/'] after
    rw [bodyOf, commentStart]
    exact found ▸ rfl
  · next other =>
    rw [bodyOf, cut_space spaceless other, bodyOf]
    cases Text.cut commentStart rest <;> rfl

theorem bodyOf_word {word : List Char} (spaceless : ' ' ∉ word) : bodyOf word = word := by
  rw [bodyOf, commentStart, Text.cut_absent spaceless]

/-- A literal that is not closed denotes nothing. -/
theorem piecesWithin_open (cs : List Char) (fuel : Nat) :
    Text.piecesWithin '"' fuel (cs.flatMap Text.escapeChar) = none := by
  induction cs generalizing fuel with
  | nil => cases fuel <;> rfl
  | cons c cs ih =>
      cases fuel with
      | zero => rfl
      | succ fuel =>
          have read := Text.piecesWithin_escaped (cs.flatMap Text.escapeChar) fuel
            (show (Text.Piece.char c).Proper from trivial)
          rw [List.flatMap_cons]
          exact read.trans (by rw [ih, Option.map_none])

theorem unquoteBytes?_open (cs : List Char) :
    Text.unquoteBytes? (String.ofList ('"' :: cs.flatMap Text.escapeChar)) = none := by
  rw [Text.unquoteBytes?, Text.unquotePieces?, String.toList_ofList]
  exact congrArg (Option.map _) (piecesWithin_open cs _)

/-! ## Arguments -/

theorem toString_toList {n : Int} (positive : 1 ≤ n) :
    (toString n).toList = Nat.toDigits 10 n.toNat := by
  obtain ⟨k, rfl⟩ := Int.eq_ofNat_of_zero_le (show 0 ≤ n by omega)
  show (Int.repr (Int.ofNat k)).toList = _
  simp [Int.repr]

theorem integer?_toString {n : Int} (positive : 1 ≤ n) (fits : n ≤ Text.maxWord) :
    Text.integer? (toString n) = some n := by
  obtain ⟨first, more, digits, -⟩ := Text.exists_toDigits_cons (show 0 < n.toNat by omega)
  have unsigned : Text.sign (toString n).toList = (false, Nat.toDigits 10 n.toNat) := by
    have digit : first.isDigit = true :=
      Nat.isDigit_of_mem_toDigits (b := 10) (by decide) (n := n.toNat) (by decide) (digits ▸ List.mem_cons_self)
    rw [toString_toList positive, digits, Text.sign]
    · rintro rest same
      obtain ⟨rfl, -⟩ := List.cons.inj same
      exact absurd digit (by decide)
    · rintro rest same
      obtain ⟨rfl, -⟩ := List.cons.inj same
      exact absurd digit (by decide)
  have value : Text.natural? (Nat.toDigits 10 n.toNat) = some n.toNat := by
    rw [Text.natural?, if_neg (by simp [digits]),
      Text.digitsValue?_toDigits (by decide) (by decide)]
  have whole : (n.toNat : Int) = n := Int.toNat_of_nonneg (by omega)
  have word : Text.word? false n.toNat = some n := by
    rw [Text.word?, if_neg Bool.false_ne_true, whole,
      if_pos ⟨Int.le_trans (by decide) positive, fits⟩]
  rw [Text.integer?, unsigned]
  exact (congrArg (Option.bind · _) value).trans word

/-- The argument with the literal of a tag, without the closing mark. -/
def openTag (cs : List Char) : List Char := "tag=".toList ++ '"' :: cs.flatMap Text.escapeChar

theorem openTag_append (cs ds : List Char) :
    openTag (cs ++ ds) = openTag cs ++ ds.flatMap Text.escapeChar := by
  simp [openTag]

theorem openTag_visible {cs : List Char} (spaceless : ' ' ∉ cs) : Text.Visible (openTag cs) := by
  have lead : Text.Visible ("tag=".toList ++ ['"']) := by decide
  have whole : openTag cs = ("tag=".toList ++ ['"']) ++ cs.flatMap Text.escapeChar := by
    simp [openTag]
  rw [whole, Text.visible_append]
  exact ⟨lead, Text.escaped_visible spaceless⟩

theorem space_not_mem {word : List Char} (visible : Text.Visible word) : ' ' ∉ word :=
  fun member => absurd (visible ' ' member) (by decide)

/-- What a comment with a word for the tag and more words is read as. -/
theorem nameAndArguments?_trace {text : String} {rest : List Char}
    (whole : text.toList = start.toList ++ ("trace".toList ++ ' ' :: rest))
    (words : ¬ ['/', '/'] <+: rest) :
    ∃ arguments, nameAndArguments? text = some ("trace", arguments) ∧
      Text.fields arguments = Text.fields (String.ofList (bodyOf rest)) := by
  have spaceless : ' ' ∉ "trace".toList := by decide
  have body := bodyOf_space spaceless rest
  rw [if_neg words] at body
  refine ⟨Text.trim (String.ofList (bodyOf rest)), ?_, Text.fields_trim _⟩
  refine nameAndArguments?_iff.2 ⟨_, _, whole, uncommented_iff.2 rfl, ?_⟩
  rw [body, Text.trim, String.toList_ofList (l := bodyOf rest),
    String.toList_ofList (l := Text.trimBlanks (bodyOf rest))]
  exact .call spaceless _

theorem thresholdWord_toList (threshold : Int) :
    ("threshold=" ++ toString threshold).toList =
      't' :: ("hreshold=".toList ++ (toString threshold).toList) := by
  rw [String.toList_append]
  rfl

theorem thresholdWord_visible {threshold : Int} (positive : 1 ≤ threshold) :
    Text.Visible ("threshold=" ++ toString threshold).toList := by
  have lead : Text.Visible "threshold=".toList := by decide
  rw [String.toList_append, Text.visible_append, toString_toList positive]
  exact ⟨lead, Text.visible_toDigits (by decide) (by decide) _⟩

theorem quotedTrace_toList (tag : String) (threshold : Int) :
    (quotedTrace tag threshold).toList = start.toList ++ ("trace".toList ++ ' ' ::
      (openTag tag.toList ++ '"' :: ' ' :: ("threshold=" ++ toString threshold).toList)) := by
  have space : " threshold=".toList = ' ' :: "threshold=".toList := rfl
  have name : "trace tag=".toList = "trace".toList ++ ' ' :: "tag=".toList := rfl
  simp [quotedTrace, Text.quote, openTag, name, space]

/-! ## Reading the directive -/

/-- A word whose first character is no slash starts no comment. -/
theorem not_slashes {c : Char} {word : List Char} (other : c ≠ '/') :
    ¬ ['/', '/'] <+: c :: word := by
  rintro ⟨after, same⟩
  exact other (List.cons.inj same).1.symm

theorem not_slashes_tag {cs rest : List Char} : ¬ ['/', '/'] <+: openTag cs ++ rest :=
  not_slashes (show 't' ≠ '/' by decide)

theorem not_slashes_threshold {threshold : Int} :
    ¬ ['/', '/'] <+: ("threshold=" ++ toString threshold).toList := by
  rw [thresholdWord_toList]
  exact not_slashes (by decide)

/-- Without spaces in the tag, the arguments are two words. -/
theorem quotedTrace_words {tag : String} (spaceless : ' ' ∉ tag.toList) {threshold : Int}
    (positive : 1 ≤ threshold) :
    ∃ arguments, nameAndArguments? (quotedTrace tag threshold) = some ("trace", arguments) ∧
      Text.fields arguments =
        [String.ofList (openTag tag.toList ++ ['"']), "threshold=" ++ toString threshold] := by
  have first : Text.Visible (openTag tag.toList ++ ['"']) :=
    Text.visible_append.2 ⟨openTag_visible spaceless, by decide⟩
  have second := thresholdWord_visible positive
  have filled : ("threshold=" ++ toString threshold).toList ≠ [] := by
    simp
  obtain ⟨arguments, read, words⟩ :=
    nameAndArguments?_trace (quotedTrace_toList tag threshold) not_slashes_tag
  refine ⟨arguments, read, words.trans ?_⟩
  have body := bodyOf_space (space_not_mem first) ("threshold=" ++ toString threshold).toList
  rw [if_neg not_slashes_threshold, bodyOf_word (space_not_mem second), List.append_assoc,
    List.singleton_append] at body
  rw [body, ← List.singleton_append, ← List.append_assoc,
    Text.fields_cons first (by simp) (by decide), Text.fields_word second filled, String.ofList_toList]

/-- With a space in the tag, the first word ends inside its literal. -/
theorem quotedTrace_first_word {tag : String} {word rest : List Char}
    (space : tag.toList = word ++ ' ' :: rest) (spaceless : ' ' ∉ word) (threshold : Int) :
    ∃ arguments more, nameAndArguments? (quotedTrace tag threshold) = some ("trace", arguments) ∧
      Text.fields arguments = String.ofList (openTag word) :: more := by
  have visible := openTag_visible spaceless
  have filled : openTag word ≠ [] := by simp [openTag]
  obtain ⟨arguments, read, words⟩ :=
    nameAndArguments?_trace (quotedTrace_toList tag threshold) not_slashes_tag
  have escaped : openTag tag.toList = openTag word ++ ' ' :: rest.flatMap Text.escapeChar := by
    rw [space, openTag_append]
    rfl
  rw [escaped, List.append_assoc, List.cons_append, bodyOf_space (space_not_mem visible)] at words
  split at words
  · exact ⟨arguments, [], read, words.trans (Text.fields_word visible filled)⟩
  · exact ⟨arguments, _, read, words.trans (Text.fields_cons visible filled (by decide) _)⟩

/-- One trace directive is taken, or is one mistake. -/
theorem ofFunction_trace_one (pos : Pos) {text arguments : String}
    (read : nameAndArguments? text = some ("trace", arguments)) :
    ofFunction [⟨pos, text⟩] = match traceOf arguments with
      | .ok t => ({ trace := some { t with pos } }, [])
      | .error fault => ({}, [⟨⟨pos, text⟩, fault⟩]) := by
  have effect : functionEffect pos "trace" arguments =
      (traceOf arguments).map fun t d => { d with trace := some { t with pos } } := rfl
  rw [ofFunction, List.foldl_cons, List.foldl_nil, readOnFunction, read]
  dsimp only
  rw [effect]
  cases traceOf arguments <;> rfl

theorem traceOf_two_words {arguments tag : String} {threshold : Int} (positive : 1 ≤ threshold)
    (fits : threshold ≤ Text.maxWord)
    (words : Text.fields arguments =
      [String.ofList (openTag tag.toList ++ ['"']), "threshold=" ++ toString threshold]) :
    traceOf arguments = .ok { tag := Text.toBytes tag, threshold := threshold } := by
  have literal : Argument.Spelled (String.ofList (openTag tag.toList ++ ['"']))
      (.tag (Text.toBytes tag)) := by
    refine ⟨Text.quote tag, ?_, ?_⟩
    · rw [← String.toList_inj]
      simp [openTag, Text.quote]
    · have marked : Text.startsWith "\"" (Text.quote tag) = true := by
        simp [Text.startsWith, Text.quote]
      rw [TagSpelled, if_pos marked, Text.unquoteBytes?_quote]
  have number : Argument.Spelled ("threshold=" ++ toString threshold) (.threshold threshold) :=
    ⟨toString threshold, rfl, integer?_toString positive fits, positive⟩
  refine traceOf_iff.2 ⟨[.tag (Text.toBytes tag), .threshold threshold], ?_, rfl⟩
  rw [words]
  exact .cons literal (.cons number .nil)

theorem traceOf_open_word {arguments : String} {word : List Char} {more : List String}
    (words : Text.fields arguments = String.ofList (openTag word) :: more) :
    traceOf arguments =
      .error (.malformedTag (String.ofList ('"' :: word.flatMap Text.escapeChar))) := by
  have key : '=' ∉ "tag".toList := by decide
  have divided : Text.cutString (String.ofList (openTag word)) "=" =
      some ("tag", String.ofList ('"' :: word.flatMap Text.escapeChar)) := by
    refine (cutString_eq_iff key).2 ?_
    rw [← String.toList_inj]
    simp [openTag]
  have unclosed : tagOf (String.ofList ('"' :: word.flatMap Text.escapeChar)) =
      .error (.malformedTag (String.ofList ('"' :: word.flatMap Text.escapeChar))) := by
    rw [tagOf, if_pos (by simp [Text.startsWith]), unquoteBytes?_open]
  have refused : addArgument {} (String.ofList (openTag word)) =
      .error (.malformedTag (String.ofList ('"' :: word.flatMap Text.escapeChar))) := by
    rw [addArgument, divided]
    exact congrArg (Except.map _) unclosed
  rw [traceOf, words, List.foldlM_cons, refused]
  rfl

/-- The literal of a tag reads back in a trace directive if the tag holds no space, and else the
directive is refused. -/
theorem quotedTrace_read (pos : Pos) (tag : String) (threshold : Int) (positive : 1 ≤ threshold)
    (fits : threshold ≤ Text.maxWord) :
    (' ' ∉ tag.toList → ofFunction [⟨pos, quotedTrace tag threshold⟩] =
      ({ trace := some ⟨pos, Text.toBytes tag, threshold⟩ }, [])) ∧
    (' ' ∈ tag.toList → ∃ literal, ofFunction [⟨pos, quotedTrace tag threshold⟩] =
      ({}, [⟨⟨pos, quotedTrace tag threshold⟩, .malformedTag literal⟩])) ∧
    ∀ t, (ofFunction [⟨pos, quotedTrace tag threshold⟩]).1.trace = some t →
      t = ⟨pos, Text.toBytes tag, threshold⟩ := by
  have taken (spaceless : ' ' ∉ tag.toList) : ofFunction [⟨pos, quotedTrace tag threshold⟩] =
      ({ trace := some ⟨pos, Text.toBytes tag, threshold⟩ }, []) := by
    obtain ⟨arguments, read, words⟩ := quotedTrace_words spaceless positive
    rw [ofFunction_trace_one pos read, traceOf_two_words positive fits words]
  have refused (space : ' ' ∈ tag.toList) : ∃ literal,
      ofFunction [⟨pos, quotedTrace tag threshold⟩] =
        ({}, [⟨⟨pos, quotedTrace tag threshold⟩, .malformedTag literal⟩]) := by
    obtain ⟨word, rest, whole, spaceless⟩ := List.eq_append_cons_of_mem space
    obtain ⟨arguments, more, read, words⟩ := quotedTrace_first_word whole spaceless threshold
    refine ⟨String.ofList ('"' :: word.flatMap Text.escapeChar), ?_⟩
    rw [ofFunction_trace_one pos read, traceOf_open_word words]
  refine ⟨taken, refused, fun t traced => ?_⟩
  by_cases space : ' ' ∈ tag.toList
  · obtain ⟨literal, found⟩ := refused space
    rw [found] at traced
    cases traced
  · rw [taken space] at traced
    exact (Option.some.inj traced).symm

/-- Slashes, an equals sign and a quotation mark are read back. -/
theorem quotedTrace_of_marks :
    (1 : Int) ≤ 3 ∧ (3 : Int) ≤ Text.maxWord ∧ ' ' ∉ "a=\"//\"".toList ∧
      ofFunction [⟨7, quotedTrace "a=\"//\"" 3⟩] =
        ({ trace := some ⟨7, Text.toBytes "a=\"//\"", 3⟩ }, []) :=
  ⟨by decide, by decide, by decide,
    (quotedTrace_read 7 "a=\"//\"" 3 (by decide) (by decide)).1 (by decide)⟩

end ComposeStability.Directive
