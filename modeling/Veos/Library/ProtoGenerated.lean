import Veos.Library.ProtoMessage

/-!
# Generated message classes

The protocol compiler generates, for every message type, a parser, a serializer, a
merge and a size computation.  The generated functions of different types differ in
their fields only, so the loop of the parser and the cases of its switch are defined
once.

`Generated` is a message type with its generated functions and with what ties each of
them to the contents of a message.  For such a type the parser computes the meaning of a
stream of records and accepts nothing else (`parse_eq_some_iff`), parsing what was
written behind an accepted input merges (`parse_append_serialize`), and an accepted
message survives being written and parsed again (`parse_serialize_of_parse`).
-/

namespace ProtoWire

open Base128 LastWrite

/-! ## The generated parser -/

/-- What one tag leads to: the message goes on, or it ends at this tag. -/
inductive Outcome (M : Type)
  | next (m : M) (rest : Bytes)
  | messageDone (lastTag : Tag)

/-- The switch of a parser: what it makes of a tag. -/
abbrev Switch (M : Type) := Tag → M → Bytes → Option (Outcome M)

section Switch

variable {M : Type} (keep : M → UnknownField → M)

/-- The code behind the switch: the end of the message, or a record to be kept. -/
def unusual : Switch M := fun tag m input =>
  if EndTag tag then some (.messageDone tag)
  else (unknownFieldParse tag input).map fun (record, rest) => .next (keep m record) rest

/-- A case of the switch: a field with the expected tag is read.  Only the low byte of
the tag is compared. -/
def fieldCase {α : Type} (expected : Tag) (read : Bytes → Option (α × Bytes)) (set : M → α → M) :
    Switch M := fun tag m input =>
  if tag % 256 = expected then (read input).map fun (value, rest) => .next (set m value) rest
  else unusual keep tag m input

/-- The loop of a parser: the message and the tag that ended it early, if one did.
`fuel` bounds the number of tags. -/
def parseLoop (switch : Switch M) : (fuel : Nat) → M → Bytes → Option (M × Option Tag)
  | 0, _, _ => none
  | _ + 1, m, [] => some (m, none)
  | fuel + 1, m, byte :: input =>
      match readTag (byte :: input) with
      | none => none
      | some (tag, rest) =>
          match switch tag m rest with
          | none => none
          | some (.messageDone lastTag) => some (m, some lastTag)
          | some (.next m rest) => parseLoop switch fuel m rest

variable {σ : Schema} {content : M → Content}

/-- For this tag the switch does what `absorb` does with the record behind the tag. -/
def Absorbs (σ : Schema) (content : M → Content) (tag : Tag) (m : M) (input : Bytes)
    (result : Option (Outcome M)) : Prop :=
  if EndTag tag then result = some (.messageDone tag)
  else
    match unknownFieldParse tag input with
    | none => result = none
    | some (record, rest) =>
        ∃ m', result = some (.next m' rest) ∧ content m' = absorb σ (content m) record

/-- A record of a known field comes from a tag with the wire type of varints. -/
theorem knows_of_unknownFieldParse {tag : Tag} {input rest : Bytes} {record : UnknownField}
    (h : unknownFieldParse tag input = some (record, rest)) (hknows : σ.knows record = true) :
    wireType tag = 0 ∧ (σ.scalar (fieldNumber tag)).isSome = true := by
  obtain ⟨-, hread⟩ := readUnknown_eq_some_iff.1 h
  rcases hread with ⟨hwire, value, -, rfl⟩ | ⟨-, payload, -, rfl⟩ | ⟨-, payload, -, rfl⟩ |
    ⟨-, fields, -, rfl⟩ | ⟨-, payload, -, rfl⟩
  · exact ⟨hwire, hknows⟩
  all_goals cases hknows

theorem absorbs_unusual {tag : Tag} {m : M}
    (hkeep : ∀ record, content (keep m record) =
      { content m with unknown := (content m).unknown ++ [record] })
    (hforeign : ¬ (wireType tag = 0 ∧ (σ.scalar (fieldNumber tag)).isSome = true))
    (input : Bytes) : Absorbs σ content tag m input (unusual keep tag m input) := by
  unfold Absorbs unusual
  split
  · rfl
  · cases hparse : unknownFieldParse tag input with
    | none => rfl
    | some p =>
        obtain ⟨record, rest⟩ := p
        refine ⟨keep m record, rfl, ?_⟩
        have hknows : σ.knows record = false := by
          rw [← Bool.not_eq_true]
          exact fun hknows => hforeign (knows_of_unknownFieldParse hparse hknows)
        rw [hkeep, absorb_of_not_knows hknows]

/-- The payload of a known field is read as a varint of 64 bits. -/
theorem unknownFieldParse_varint {tag : Tag} (hnumber : fieldNumber tag ≠ 0)
    (hwire : wireType tag = 0) (input : Bytes) :
    unknownFieldParse tag input =
      (readVarint64 input).map fun (raw, rest) => (.varint (fieldNumber tag) raw, rest) := by
  simp only [unknownFieldParse, readUnknown, hnumber, if_false, hwire]

/-- A one-byte tag with the wire type of varints is recognized by its low byte. -/
theorem lowByte_eq_iff {tag number : Nat} (htag : fieldNumber tag = number) (hsmall : number < 16) :
    tag % 256 = 8 * number ↔ wireType tag = 0 := by
  unfold fieldNumber at htag
  unfold wireType
  omega

/-- A case of the switch absorbs the records of its field, and keeps others. -/
theorem absorbs_fieldCase {α : Type} {number : Nat} {type : Scalar} {tag : Tag} {m : M}
    {read : Bytes → Option (α × Bytes)} {set : M → α → M} (convert : UInt64 → α)
    (htag : fieldNumber tag = number) (hbounds : 0 < number ∧ number < 16)
    (hscalar : σ.scalar number = some type)
    (hkeep : ∀ record, content (keep m record) =
      { content m with unknown := (content m).unknown ++ [record] })
    (hread : ∀ input, read input =
      (readVarint64 input).map fun (raw, rest) => (convert raw, rest))
    (hset : ∀ raw, content (set m (convert raw)) =
      { content m with value := Function.update (content m).value number (type.truncate raw) })
    (input : Bytes) :
    Absorbs σ content tag m input (fieldCase keep (8 * number) read set tag m input) := by
  unfold fieldCase
  by_cases hwire : wireType tag = 0
  · have hend : ¬ EndTag tag := by
      rintro (hzero | hfour)
      · rw [hzero] at htag
        exact hbounds.1.ne htag
      · omega
    rw [if_pos ((lowByte_eq_iff htag hbounds.2).2 hwire), Absorbs, if_neg hend,
      unknownFieldParse_varint (by omega) hwire, hread]
    cases readVarint64 input with
    | none => rfl
    | some p =>
        refine ⟨set m (convert p.1), rfl, ?_⟩
        rw [hset, htag, absorb_of_knows hscalar]
  · rw [if_neg fun hexpected => hwire ((lowByte_eq_iff htag hbounds.2).1 hexpected)]
    exact absorbs_unusual keep hkeep (fun h => hwire h.1) input

end Switch

section Cases

variable {M : Type} {keep : M → UnknownField → M} {σ : Schema} {content : M → Content}
  {number : Nat} {tag : Tag} {m : M}
  (hkeep : ∀ record, content (keep m record) =
    { content m with unknown := (content m).unknown ++ [record] })
  (htag : fieldNumber tag = number) (hbounds : 0 < number ∧ number < 16)

include hkeep htag hbounds

theorem absorbs_uint32 {set : M → UInt32 → M} (hscalar : σ.scalar number = some .uint32)
    (hset : ∀ value, content (set m value) =
      { content m with value := Function.update (content m).value number (ofUInt32 value) })
    (input : Bytes) :
    Absorbs σ content tag m input (fieldCase keep (8 * number) readVarint32 set tag m input) :=
  absorbs_fieldCase keep UInt64.toUInt32 htag hbounds hscalar hkeep readVarint32_eq
    (fun _ => hset _) input

theorem absorbs_int32 {set : M → Int32 → M} (hscalar : σ.scalar number = some .int32)
    (hset : ∀ value, content (set m value) =
      { content m with value := Function.update (content m).value number (ofInt32 value) })
    (input : Bytes) :
    Absorbs σ content tag m input (fieldCase keep (8 * number) readInt32 set tag m input) :=
  absorbs_fieldCase keep (fun raw => raw.toUInt32.toInt32) htag hbounds hscalar hkeep readInt32_eq
    (fun _ => hset _) input

theorem absorbs_enum {set : M → Int32 → M} (hscalar : σ.scalar number = some .int32)
    (hset : ∀ value, content (set m value) =
      { content m with value := Function.update (content m).value number (ofInt32 value) })
    (input : Bytes) :
    Absorbs σ content tag m input (fieldCase keep (8 * number) readEnum set tag m input) :=
  absorbs_fieldCase keep (fun raw => raw.toUInt32.toInt32) htag hbounds hscalar hkeep
    (fun _ => rfl) (fun _ => hset _) input

theorem absorbs_bool {set : M → Bool → M} (hscalar : σ.scalar number = some .bool)
    (hset : ∀ value, content (set m value) =
      { content m with value := Function.update (content m).value number (ofBool value) })
    (input : Bytes) :
    Absorbs σ content tag m input (fieldCase keep (8 * number) readBool set tag m input) :=
  absorbs_fieldCase keep (fun raw => decide (raw ≠ 0)) htag hbounds hscalar hkeep
    (fun _ => rfl) (fun _ => hset _) input

end Cases

/-! ## The loop -/

section Loop

variable {M : Type} {σ : Schema} {content : M → Content} {switch : Switch M}

/-- One turn of the loop: a record, absorbed, and the rest of the input. -/
theorem parseLoop_record
    (habsorbs : ∀ tag m input, Absorbs σ content tag m input (switch tag m input))
    {input rest : Bytes} {record : UnknownField} (h : readRecord input = some (record, rest))
    (m : M) :
    ∃ m', content m' = absorb σ (content m) record ∧
      ∀ fuel, parseLoop switch (fuel + 1) m input = parseLoop switch fuel m' rest := by
  obtain ⟨tag, tail, htag, hend, hparse⟩ := readRecord_eq_some_iff.1 h
  have hturn := habsorbs tag m tail
  rw [Absorbs, if_neg hend, hparse] at hturn
  obtain ⟨m', hswitch, hcontent⟩ := hturn
  refine ⟨m', hcontent, fun fuel => ?_⟩
  cases input with
  | nil => cases htag
  | cons byte input => simp only [parseLoop, htag, hswitch]

/-- A stream is read to its end. -/
theorem parseLoop_of_stream
    (habsorbs : ∀ tag m input, Absorbs σ content tag m input (switch tag m input))
    {input : Bytes} {records : List UnknownField} (h : Stream input records) (m : M) {fuel : Nat}
    (hfuel : input.length < fuel) :
    ∃ m', parseLoop switch fuel m input = some (m', none) ∧
      content m' = absorbAll σ (content m) records := by
  induction h generalizing m fuel with
  | nil =>
      obtain ⟨fuel, rfl⟩ : ∃ k, fuel = k + 1 := ⟨fuel - 1, by omega⟩
      exact ⟨m, rfl, rfl⟩
  | cons hread htail ih =>
      obtain ⟨fuel, rfl⟩ : ∃ k, fuel = k + 1 := ⟨fuel - 1, by omega⟩
      have hshort := readRecord_shortens hread
      obtain ⟨m', hcontent, hloop⟩ := parseLoop_record habsorbs hread m
      obtain ⟨final, hfinal, hmeaning⟩ := @ih m' fuel (by omega)
      refine ⟨final, (hloop fuel).trans hfinal, ?_⟩
      rw [hmeaning, hcontent]
      rfl

/-- Nothing but a stream is read to its end. -/
theorem stream_of_parseLoop
    (habsorbs : ∀ tag m input, Absorbs σ content tag m input (switch tag m input))
    {fuel : Nat} {m final : M} {input : Bytes}
    (h : parseLoop switch fuel m input = some (final, none)) :
    ∃ records, Stream input records := by
  induction fuel generalizing m input with
  | zero => cases h
  | succ fuel ih =>
      cases input with
      | nil => exact ⟨[], .nil⟩
      | cons byte input =>
          simp only [parseLoop] at h
          cases htag : readTag (byte :: input) with
          | none => simp [htag] at h
          | some p =>
              obtain ⟨tag, tail⟩ := p
              have hturn := habsorbs tag m tail
              simp only [htag] at h
              unfold Absorbs at hturn
              split at hturn
              -- a tag that ends the message is not the end of the input
              · simp [hturn] at h
              · rename_i hend
                cases hparse : unknownFieldParse tag tail with
                | none =>
                    rw [hparse] at hturn
                    simp [hturn] at h
                | some q =>
                    obtain ⟨record, rest⟩ := q
                    rw [hparse] at hturn
                    obtain ⟨m', hswitch, -⟩ := hturn
                    simp only [hswitch] at h
                    obtain ⟨records, hrecords⟩ := ih h
                    exact ⟨record :: records, .cons
                      (readRecord_eq_some_iff.2 ⟨tag, tail, htag, hend, hparse⟩) hrecords⟩

/-- Any fuel above the length of the input gives the same result. -/
theorem parseLoop_fuel
    (habsorbs : ∀ tag m input, Absorbs σ content tag m input (switch tag m input))
    {fuel fuel' : Nat} {m : M} {input : Bytes} (hfuel : input.length < fuel)
    (hfuel' : input.length < fuel') :
    parseLoop switch fuel m input = parseLoop switch fuel' m input := by
  induction fuel generalizing fuel' m input with
  | zero => omega
  | succ fuel ih =>
      obtain ⟨fuel', rfl⟩ : ∃ k, fuel' = k + 1 := ⟨fuel' - 1, by omega⟩
      cases input with
      | nil => rfl
      | cons byte input =>
          simp only [parseLoop]
          cases htag : readTag (byte :: input) with
          | none => rfl
          | some p =>
              obtain ⟨tag, tail⟩ := p
              have hshort := readTag_shortens htag
              have hturn := habsorbs tag m tail
              unfold Absorbs at hturn
              split at hturn
              · simp only [hturn]
              · cases hparse : unknownFieldParse tag tail with
                | none =>
                    rw [hparse] at hturn
                    simp only [hturn]
                | some q =>
                    obtain ⟨record, rest⟩ := q
                    rw [hparse] at hturn
                    obtain ⟨m', hswitch, -⟩ := hturn
                    have hle := readUnknown_length_le
                      (fun _ _ hgroup => readGroup_length_le hgroup) hparse
                    simp only [List.length_cons] at hfuel hfuel' hshort
                    simp only [hswitch]
                    exact ih (by omega) (by omega)

end Loop

/-! ## Merging -/

/-- `MergeImpl` copies a field of the other message unless it has the default value. -/
def mergeField {α : Type} [DecidableEq α] (default this other : α) : α :=
  if other ≠ default then other else this

/-- Merging a field merges what it is written as, if only the default is written as
zero. -/
theorem of_mergeField {α : Type} [DecidableEq α] {of : α → UInt64} (hof : Function.Injective of)
    {default : α} (hdefault : of default = 0) (this other : α) :
    of (mergeField default this other) = if of other ≠ 0 then of other else of this := by
  by_cases hother : other = default
  · simp [mergeField, hother, hdefault]
  · have hne : of other ≠ 0 := fun h => hother (hof (h.trans hdefault.symm))
    simp [mergeField, hother, hne]

/-! ## Message classes -/

/-- A message type with its generated functions.  `content` is what a message holds. -/
structure Generated (M : Type) where
  schema : Schema
  content : M → Content
  content_injective : Function.Injective content
  content_fits : ∀ m, (content m).Fits schema
  /-- A new message. -/
  new : M
  content_new : content new = .empty
  /-- The switch of `_InternalParse`. -/
  switch : Switch M
  absorbs : ∀ tag m input, Absorbs schema content tag m input (switch tag m input)
  internalSerialize : M → Bytes
  internalSerialize_eq : ∀ m, internalSerialize m = (content m).serialize schema
  mergeFrom : M → M → M
  content_mergeFrom : ∀ m m', content (mergeFrom m m') = (content m).merge (content m')

namespace Generated

variable {M : Type} (g : Generated M)

/-- `ParseFromString` on a new message. -/
def parse (data : Bytes) : Option M :=
  match parseLoop g.switch (data.length + 1) g.new data with
  | some (m, none) => some m
  -- an end tag or a zero tag at the top level is refused
  | _ => none

/-- The parser is what its unbounded loop computes: every fuel above the length of the
input gives its answer. -/
theorem parse_of_fuel {fuel : Nat} (data : Bytes) (hfuel : data.length < fuel) :
    g.parse data =
      match parseLoop g.switch fuel g.new data with
      | some (m, none) => some m
      | _ => none := by
  rw [parse, parseLoop_fuel g.absorbs (Nat.lt_succ_self data.length) hfuel]

/-- The unknown records of the message are such that a parser keeps them. -/
def Kept (m : M) : Prop := (g.content m).Kept g.schema

/-- **What is accepted, and as what.**  The parser accepts exactly the streams of
records, and returns the message that holds the meaning of the stream. -/
theorem parse_eq_some_iff (data : Bytes) (m : M) :
    g.parse data = some m ↔
      ∃ records, Stream data records ∧ g.content m = absorbAll g.schema .empty records := by
  constructor
  · intro h
    unfold parse at h
    split at h
    · rename_i final hloop
      obtain rfl := Option.some.inj h
      obtain ⟨records, hrecords⟩ := stream_of_parseLoop g.absorbs hloop
      obtain ⟨m', hm', hcontent⟩ :=
        parseLoop_of_stream g.absorbs hrecords g.new (Nat.lt_succ_self data.length)
      obtain rfl : final = m' := congrArg Prod.fst (Option.some.inj (hloop.symm.trans hm'))
      exact ⟨records, hrecords, by rw [hcontent, g.content_new]⟩
    · cases h
  · rintro ⟨records, hrecords, hcontent⟩
    obtain ⟨m', hm', hcontent'⟩ :=
      parseLoop_of_stream g.absorbs hrecords g.new (Nat.lt_succ_self data.length)
    obtain rfl : m = m' := g.content_injective (by rw [hcontent, hcontent', g.content_new])
    simp only [parse, hm']

theorem parse_isSome_iff (data : Bytes) :
    (g.parse data).isSome = true ↔ ∃ records, Stream data records := by
  constructor
  · intro h
    obtain ⟨m, hm⟩ := Option.isSome_iff_exists.1 h
    obtain ⟨records, hrecords, -⟩ := (g.parse_eq_some_iff data m).1 hm
    exact ⟨records, hrecords⟩
  · rintro ⟨records, hrecords⟩
    obtain ⟨m, hm, -⟩ :=
      parseLoop_of_stream g.absorbs hrecords g.new (Nat.lt_succ_self data.length)
    simp only [parse, hm, Option.isSome_some]

/-- The unknown records of a parsed message are kept when it is parsed again. -/
theorem kept_of_parse {data : Bytes} {m : M} (h : g.parse data = some m) : g.Kept m := by
  obtain ⟨records, hrecords, hcontent⟩ := (g.parse_eq_some_iff data m).1 h
  rw [Kept, hcontent]
  exact absorbAll_kept hrecords.allValid ⟨trivial, by simp [Content.empty]⟩

/-- **Parsing what was written merges.** -/
theorem parse_append_serialize {data : Bytes} {m m' : M} (h : g.parse data = some m)
    (hkept : g.Kept m') :
    g.parse (data ++ g.internalSerialize m') = some (g.mergeFrom m m') := by
  obtain ⟨records, hrecords, hcontent⟩ := (g.parse_eq_some_iff data m).1 h
  rw [g.parse_eq_some_iff, g.internalSerialize_eq]
  refine ⟨_, hrecords.append (stream_serialize hkept), ?_⟩
  rw [absorbAll_append, ← hcontent, absorbAll_records (g.content_fits m') hkept,
    g.content_mergeFrom]

theorem parse_nil : g.parse [] = some g.new := by
  rw [g.parse_eq_some_iff]
  exact ⟨[], .nil, g.content_new⟩

theorem mergeFrom_new (m : M) : g.mergeFrom g.new m = m := by
  apply g.content_injective
  rw [g.content_mergeFrom, g.content_new, Content.empty_merge]

theorem mergeFrom_assoc (m m' m'' : M) :
    g.mergeFrom (g.mergeFrom m m') m'' = g.mergeFrom m (g.mergeFrom m' m'') := by
  apply g.content_injective
  simp only [g.content_mergeFrom, Content.merge_assoc]

/-- The parser undoes the serializer, unknown records included. -/
theorem parse_serialize {m : M} (hkept : g.Kept m) : g.parse (g.internalSerialize m) = some m := by
  have hmerge := g.parse_append_serialize g.parse_nil hkept
  rwa [List.nil_append, g.mergeFrom_new] at hmerge

/-- **An accepted message survives being written and parsed again.** -/
theorem parse_serialize_of_parse {data : Bytes} {m : M} (h : g.parse data = some m) :
    g.parse (g.internalSerialize m) = some m :=
  g.parse_serialize (g.kept_of_parse h)

/-- Behind an accepted input exactly the accepted inputs are accepted. -/
theorem parse_append_isSome {data : Bytes} (h : (g.parse data).isSome = true) (more : Bytes) :
    (g.parse (data ++ more)).isSome = (g.parse more).isSome := by
  obtain ⟨records, hrecords⟩ := (g.parse_isSome_iff data).1 h
  rw [Bool.eq_iff_iff, g.parse_isSome_iff, g.parse_isSome_iff]
  constructor
  · rintro ⟨all, hall⟩
    obtain ⟨records', hrecords', -⟩ := hrecords.cut hall
    exact ⟨records', hrecords'⟩
  · rintro ⟨records', hrecords'⟩
    exact ⟨records ++ records', hrecords.append hrecords'⟩

end Generated

end ProtoWire
