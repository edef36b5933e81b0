/-
# Proofs.Cache.Entry -- stored results are read back

An entry whose texts and lists can be counted in a header is read back
(`Entry.decode_encode`), with empty lists of receivers absent.  Fields that are
left out keep the value they have in an empty structure.
-/
import ComposeStability.Cache.Entry
import ComposeStability.Proofs.Cache.MessagePack

namespace ComposeStability.Cache

set_option autoImplicit false

open Stability (Summary Parameter Receiver Value ReceiverKind)
open MessagePack

/-! ## What can be written -/

/-- The texts of a parameter can be counted. -/
structure ParameterFits (p : Parameter) : Prop where
  name : Countable p.name
  type : Countable p.type
  reason : Countable p.reason

/-- The texts of a receiver can be counted. -/
structure ReceiverFits (r : Receiver) : Prop where
  type : Countable r.type
  reason : Countable r.reason

/-- The texts and lists of a record can be counted. -/
structure RecordFits (r : Record) : Prop where
  name : Countable r.name
  qualifiedName : Countable r.qualifiedName
  visibility : Countable r.visibility
  returnType : Countable r.returnType
  few_parameters : ∀ ps ∈ r.parameters, ps.length < countLimit
  parameters : ∀ ps ∈ r.parameters, ∀ p ∈ ps, ParameterFits p
  few_receivers : ∀ rs ∈ r.receivers, rs.length < countLimit
  receivers : ∀ rs ∈ r.receivers, ∀ receiver ∈ rs, ReceiverFits receiver

/-- The texts and lists of an entry can be counted. -/
structure Entry.Fits (e : Entry) : Prop where
  schema : e.schema < 65536
  path : Countable e.path
  few_functions : ∀ records ∈ e.functions, records.length < countLimit
  functions : ∀ records ∈ e.functions, ∀ r ∈ records, RecordFits r
  few_ignored : ∀ names ∈ e.ignored, names.length < countLimit
  ignored : ∀ names ∈ e.ignored, ∀ name ∈ names, Countable name

instance (p : Parameter) : Decidable (ParameterFits p) :=
  decidable_of_iff (Countable p.name ∧ Countable p.type ∧ Countable p.reason)
    ⟨fun ⟨name, type, reason⟩ => ⟨name, type, reason⟩, fun fits => ⟨fits.1, fits.2, fits.3⟩⟩

instance (r : Receiver) : Decidable (ReceiverFits r) :=
  decidable_of_iff (Countable r.type ∧ Countable r.reason)
    ⟨fun ⟨type, reason⟩ => ⟨type, reason⟩, fun fits => ⟨fits.1, fits.2⟩⟩

instance (r : Record) : Decidable (RecordFits r) :=
  decidable_of_iff
    ((Countable r.name ∧ Countable r.qualifiedName ∧ Countable r.visibility ∧
        Countable r.returnType) ∧
      ((∀ ps ∈ r.parameters, ps.length < countLimit) ∧
        ∀ ps ∈ r.parameters, ∀ p ∈ ps, ParameterFits p) ∧
      (∀ rs ∈ r.receivers, rs.length < countLimit) ∧
        ∀ rs ∈ r.receivers, ∀ receiver ∈ rs, ReceiverFits receiver)
    ⟨fun ⟨⟨name, qualified, visibility, result⟩, ⟨few, parameters⟩, few', receivers⟩ =>
        ⟨name, qualified, visibility, result, few, parameters, few', receivers⟩,
      fun fits => ⟨⟨fits.1, fits.2, fits.3, fits.4⟩, ⟨fits.5, fits.6⟩, fits.7, fits.8⟩⟩

instance (e : Entry) : Decidable e.Fits :=
  decidable_of_iff
    ((e.schema < 65536 ∧ Countable e.path) ∧
      ((∀ records ∈ e.functions, records.length < countLimit) ∧
        ∀ records ∈ e.functions, ∀ r ∈ records, RecordFits r) ∧
      (∀ names ∈ e.ignored, names.length < countLimit) ∧
      ∀ names ∈ e.ignored, ∀ name ∈ names, Countable name)
    ⟨fun ⟨⟨schema, path⟩, ⟨few, functions⟩, few', ignored⟩ =>
        ⟨schema, path, few, functions, few', ignored⟩,
      fun fits => ⟨⟨fits.1, fits.2⟩, ⟨fits.3, fits.4⟩, fits.5, fits.6⟩⟩

/-! ## What is read back -/

/-- A list that is written only if it has elements. -/
def unlessBare {α : Type} : Option (List α) → Option (List α)
  | some (x :: xs) => some (x :: xs)
  | _ => none

/-- A record as it is read back: receivers that are empty are absent. -/
def Record.readBack (r : Record) : Record := { r with receivers := unlessBare r.receivers }

/-- An entry as it is read back. -/
def Entry.readBack (e : Entry) : Entry :=
  { e with functions := e.functions.map (·.map Record.readBack) }

@[simp] theorem unlessBare_unlessEmpty {α : Type} (xs : List α) :
    unlessBare (unlessEmpty xs) = unlessEmpty xs := by
  cases xs <;> rfl

@[simp] theorem getD_unlessEmpty {α : Type} (xs : List α) : (unlessEmpty xs).getD [] = xs := by
  cases xs <;> rfl

@[simp] theorem Record.summary_ofSummary (s : Summary) : (Record.ofSummary s).summary = s := by
  simp [Record.summary, Record.ofSummary]

@[simp] theorem Record.readBack_ofSummary (s : Summary) :
    (Record.ofSummary s).readBack = .ofSummary s := by
  simp [Record.readBack, Record.ofSummary]

/-! ## Fields -/

theorem field_takesBack {σ α : Type} {read : σ → Reader α} {set : σ → α → σ} {s : σ}
    {bytes : List UInt8} {x : α} (taken : TakesBack (read s) bytes x) :
    TakesBack (field read set s) bytes (set s x) := by
  intro rest
  simp [field, taken rest]

theorem readCode_writeByte (code : UInt8) : TakesBack readCode (writeByte code) code := by
  intro rest
  simp [readCode, readNumber_byte code rest]

/-- A text that is left out when empty is read back into a structure in which it is empty. -/
theorem fills_optionalText {σ : Type} {fields : FieldReaders σ} {name text : String} {old new : σ}
    {set : σ → String → σ} (short_name : Countable name) (short : Countable text)
    (known : (fields.find? fun f => f.1 == name) = some (name, field (fun _ => readText) set))
    (filled : set old text = new) (unfilled : text = "" → old = new) :
    Fills fields old (optionalText name text) new := by
  unfold optionalText
  split
  · next unwritten =>
    rw [unfilled (by simpa using unwritten)]
    exact .nil _
  · have taken : TakesBack (field (fun _ => readText) set old) (writeText text) (set old text) :=
      field_takesBack (readText_writeText short)
    rw [filled] at taken
    exact .cons short_name known taken (.nil _)

theorem optionalText_length (name text : String) : (optionalText name text).length ≤ 1 := by
  unfold optionalText
  split <;> simp

/-! ## Parts of records -/

theorem decodeParameter_encode {p : Parameter} (fits : ParameterFits p) :
    TakesBack (decodeParameter blankParameter) (encodeParameter p) p := by
  have start : Fills parameterFields blankParameter
      [("name", writeText p.name), ("type", writeText p.type),
        ("stability", writeByte p.stability.code)]
      ⟨p.name, p.type, .ofCode p.stability.code, ""⟩ :=
    .cons (by decide) rfl (field_takesBack (readText_writeText fits.name)) <|
      .cons (by decide) rfl (field_takesBack (readText_writeText fits.type)) <|
        .cons (by decide) rfl (field_takesBack (readCode_writeByte _)) <| .nil _
  rw [Value.ofCode_code] at start
  have reason : Fills parameterFields ⟨p.name, p.type, p.stability, ""⟩
      (optionalText "reason" p.reason) p :=
    fills_optionalText (by decide) fits.reason rfl rfl fun none => by rw [← none]
  refine (start.append reason).readStructure ?_
  have few := optionalText_length "reason" p.reason
  simp only [List.length_append, List.length_cons, List.length_nil]
  omega

theorem decodeReceiver_encode {r : Receiver} (fits : ReceiverFits r) :
    TakesBack (decodeReceiver blankReceiver) (encodeReceiver r) r := by
  have start : Fills receiverFields blankReceiver
      [("type", writeText r.type), ("stability", writeByte r.stability.code)]
      ⟨r.type, .ofCode r.stability.code, "", .extension⟩ :=
    .cons (by decide) rfl (field_takesBack (readText_writeText fits.type)) <|
      .cons (by decide) rfl (field_takesBack (readCode_writeByte _)) <| .nil _
  rw [Value.ofCode_code] at start
  have reason : Fills receiverFields ⟨r.type, r.stability, "", .extension⟩
      (optionalText "reason" r.reason) ⟨r.type, r.stability, r.reason, .extension⟩ :=
    fills_optionalText (by decide) fits.reason rfl rfl fun none => by rw [← none]
  have kind : Fills receiverFields ⟨r.type, r.stability, r.reason, .extension⟩
      [("kind", writeByte r.kind.code)]
      ⟨r.type, r.stability, r.reason, .ofCode r.kind.code⟩ :=
    .cons (by decide) rfl (field_takesBack (readCode_writeByte _)) (.nil _)
  rw [ReceiverKind.ofCode_code] at kind
  refine ((start.append reason).append kind).readStructure ?_
  have few := optionalText_length "reason" r.reason
  simp only [List.length_append, List.length_cons, List.length_nil]
  omega

/-! ## Records -/

/-- The draft that a record is read back as. -/
def draftOf (r : Record) : RecordDraft where
  name := r.name
  qualifiedName := r.qualifiedName
  visibility := r.visibility
  returnType := r.returnType
  restartable := r.restartable
  skippable := r.skippable
  readonly := r.readonly
  parameters := { items := r.parameters }
  strongSkipping := r.strongSkipping
  receivers := { items := unlessBare r.receivers }

@[simp] theorem record_draftOf (r : Record) : (draftOf r).record = r.readBack := rfl

theorem map_map_id {α : Type} (listed : Option (List α)) : listed.map (·.map id) = listed := by
  cases listed <;> simp

theorem decodeRecord_encode {r : Record} (fits : RecordFits r) :
    TakesBack (decodeRecord {}) (encodeRecord r) (draftOf r) := by
  have params : TakesBack (readSlots decodeParameter blankParameter {})
      (writeOptional encodeParameter r.parameters) { items := r.parameters.map (·.map id) } :=
    readSlots_writeOptional fits.few_parameters
      fun ps listed p member => decodeParameter_encode (fits.parameters ps listed p member)
  rw [map_map_id] at params
  have start : Fills recordFields {}
      [("name", writeText r.name), ("qualified_name", writeText r.qualifiedName),
        ("visibility", writeText r.visibility), ("return_type", writeText r.returnType),
        ("restartable", writeBool r.restartable), ("skippable", writeBool r.skippable),
        ("readonly", writeBool r.readonly),
        ("parameters", writeOptional encodeParameter r.parameters),
        ("strong_skipping", writeBool r.strongSkipping)]
      { draftOf r with receivers := {} } :=
    .cons (by decide) rfl (field_takesBack (readText_writeText fits.name)) <|
      .cons (by decide) rfl (field_takesBack (readText_writeText fits.qualifiedName)) <|
      .cons (by decide) rfl (field_takesBack (readText_writeText fits.visibility)) <|
      .cons (by decide) rfl (field_takesBack (readText_writeText fits.returnType)) <|
      .cons (by decide) rfl (field_takesBack (readBool_writeBool r.restartable)) <|
      .cons (by decide) rfl (field_takesBack (readBool_writeBool r.skippable)) <|
      .cons (by decide) rfl (field_takesBack (readBool_writeBool r.readonly)) <|
      .cons (by decide) rfl (field_takesBack params) <|
      .cons (by decide) rfl (field_takesBack (readBool_writeBool r.strongSkipping)) <| .nil _
  have receivers : TakesBack (readSlots decodeReceiver blankReceiver {})
      (writeOptional encodeReceiver r.receivers) { items := r.receivers.map (·.map id) } :=
    readSlots_writeOptional fits.few_receivers
      fun rs listed receiver member =>
        decodeReceiver_encode (fits.receivers rs listed receiver member)
  rw [map_map_id] at receivers
  unfold encodeRecord
  split
  · next unwritten =>
    -- the field keeps the value of an empty draft
    have none : unlessBare r.receivers = none := by
      cases listed : r.receivers with
      | none => rfl
      | some rs =>
          obtain rfl : rs = [] := by simpa [listed] using unwritten
          rfl
    have same : { draftOf r with receivers := {} } = draftOf r := by simp [draftOf, none]
    rw [same] at start
    exact (start.append (.nil _)).readStructure (by simp)
  · next written =>
    have kept : unlessBare r.receivers = r.receivers := by
      cases listed : r.receivers with
      | none => rfl
      | some rs =>
          cases rs with
          | nil => simp [listed] at written
          | cons receiver rs => rfl
    have last : Fills recordFields { draftOf r with receivers := {} }
        [("receivers", writeOptional encodeReceiver r.receivers)] (draftOf r) := by
      refine .cons (by decide) rfl (field_takesBack receivers) ?_
      rw [draftOf, kept]
      exact .nil _
    exact (start.append last).readStructure (by simp)

/-! ## Entries -/

theorem readNames_write {e : Entry} (fits : e.Fits) :
    TakesBack (readNames none) (writeOptional writeText e.ignored) e.ignored := by
  intro rest
  cases listed : e.ignored with
  | none => rfl
  | some names =>
      have few := fits.few_ignored names (by simp [listed])
      have each : ∀ name ∈ names, TakesBack readText (writeText name) (id name) :=
        fun name member => readText_writeText (fits.ignored names (by simp [listed]) name member)
      have header := readListHeader_write few (names.flatMap writeText ++ rest)
      have body : readElements (fun _ => readText) "" names.length []
          (names.flatMap writeText ++ rest) =
          some (names.map id, rest) :=
        readElements_flatMap each rest
      simp [readNames, writeOptional, writeList, header, body]

/-- An entry is read back from its bytes, whatever follows them. -/
theorem Entry.decode_encode {e : Entry} (fits : e.Fits) (rest : List UInt8) :
    Entry.decode (e.encode ++ rest) = some e.readBack := by
  have functions : TakesBack (readSlots decodeRecord {} {})
      (writeOptional encodeRecord e.functions) { items := e.functions.map (·.map draftOf) } :=
    readSlots_writeOptional fits.few_functions
      fun records listed r member => decodeRecord_encode (fits.functions records listed r member)
  have fills : Fills entryFields {}
      [("Schema", writeWord e.schema), ("PkgPath", writeText e.path),
        ("Functions", writeOptional encodeRecord e.functions),
        ("Ignored", writeOptional writeText e.ignored)]
      ⟨e.schema % 65536, e.path, { items := e.functions.map (·.map draftOf) }, e.ignored⟩ :=
    .cons (by decide) rfl (field_takesBack (readNumber_word fits.schema)) <|
      .cons (by decide) rfl (field_takesBack (readText_writeText fits.path)) <|
      .cons (by decide) rfl (field_takesBack functions) <|
      .cons (by decide) rfl (field_takesBack (readNames_write fits)) <| .nil _
  have read : readStructure entryFields {} {} (e.encode ++ rest) = some _ :=
    fills.readStructure (by simp) rest
  rw [Entry.decode, read]
  simp [EntryDraft.entry, Entry.readBack, Nat.mod_eq_of_lt fits.schema, Function.comp_def]

end ComposeStability.Cache
