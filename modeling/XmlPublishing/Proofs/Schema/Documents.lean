import XmlPublishing.Proofs.Json.Reading
import XmlPublishing.Proofs.Json.Written
import XmlPublishing.Schema.Document

/-!
What schema documents say.

`SchemaDecl` lists relations, fields and keys as a document declares them, and `IsDocument` says
which texts write that down. Every declaration has such a text, and each of its texts gives the
schema of the declared relations and keys, or the error for them (`Schema.parse_eq_schema`).
-/

namespace XmlPublishing

open Json

/-- A field as a document declares it. -/
structure FieldDecl where
  name : String
  dbType : Option String
  nullable : Bool
  keyPart : Option UInt32

/-- The declared field. It is nullable if it is declared so and takes no part in the primary key. -/
def FieldDecl.field (d : FieldDecl) : Field where
  name := d.name
  dbType := d.dbType
  nullable := d.nullable && d.keyPart.isNone
  keyPart := d.keyPart.map UInt32.toNat

structure RelationDecl where
  id : RelationId
  kind : RelationKind
  fields : List FieldDecl

def RelationDecl.relation (d : RelationDecl) : Relation where
  id := d.id
  kind := d.kind
  fields := d.fields.map FieldDecl.field

structure SchemaDecl where
  caseSensitivity : CaseSensitivity
  relations : List RelationDecl
  foreignKeys : List ForeignKey

/-- The schema with the declared relations and keys, in the order of declaration. -/
def SchemaDecl.schema (d : SchemaDecl) : Except SchemaError Schema :=
  Schema.ofLists d.caseSensitivity (d.relations.map RelationDecl.relation) d.foreignKeys

/-- What a document with this declaration says. -/
def SchemaDecl.document (d : SchemaDecl) : SchemaDocument where
  caseSensitivity := d.caseSensitivity
  relations := d.relations.map RelationDecl.relation
  foreignKeys := d.foreignKeys

/-! ## The form of documents -/

def CaseSensitivity.word : CaseSensitivity → String
  | .upper => "upper"
  | .lower => "lower"
  | .preserve => "preserve"

def RelationKind.word : RelationKind → String
  | .table => "table"
  | .view => "view"

/-- A text that may be missing, or `null` for the same. -/
abbrev IsOptionalText : Option String → Option Json → Prop := IsOptional none (IsNullable IsText)

inductive RelationId.IsJson (r : RelationId) (j : Json) : Prop where
  | intro {schema name : Option Json} (hrecord : IsRecord [("schema", schema), ("name", name)] j)
      (hschema : IsOptionalText r.schema schema) (hname : IsRequired IsText r.name name)

/-- A position in a primary key. -/
def IsKeyPart (part : UInt32) : Json → Prop := IsNumeral part.toNat

inductive FieldDecl.IsJson (d : FieldDecl) (j : Json) : Prop where
  | intro {name dbType nullable keyPart : Option Json}
      (hrecord : IsRecord
        [("name", name), ("type", dbType), ("nullable", nullable), ("pkPart", keyPart)] j)
      (hname : IsRequired IsText d.name name)
      (hdbType : IsOptionalText d.dbType dbType)
      (hnullable : IsOptional true IsBool d.nullable nullable)
      (hkeyPart : IsOptional none (IsNullable IsKeyPart) d.keyPart keyPart)

inductive RelationDecl.IsJson (d : RelationDecl) (j : Json) : Prop where
  | intro {schema name kind fields : Option Json}
      (hrecord : IsRecord
        [("schema", schema), ("name", name), ("kind", kind), ("fields", fields)] j)
      (hschema : IsOptionalText d.id.schema schema)
      (hname : IsRequired IsText d.id.name name)
      (hkind : IsOptional .table (fun kind => IsText kind.word) d.kind kind)
      (hfields : IsOptional [] (IsList FieldDecl.IsJson) d.fields fields)

/-- A pair of a source field and a target field. -/
inductive ForeignKey.IsPairJson (pair : String × String) (j : Json) : Prop where
  | intro {source target : Option Json}
      (hrecord : IsRecord [("source", source), ("target", target)] j)
      (hsource : IsRequired IsText pair.1 source) (htarget : IsRequired IsText pair.2 target)

inductive ForeignKey.IsJson (k : ForeignKey) (j : Json) : Prop where
  | intro {source target fields : Option Json}
      (hrecord : IsRecord [("source", source), ("target", target), ("fields", fields)] j)
      (hsource : IsRequired RelationId.IsJson k.source source)
      (htarget : IsRequired RelationId.IsJson k.target target)
      (hfields : IsRequired (IsList ForeignKey.IsPairJson) k.pairs fields)

inductive SchemaDecl.IsJson (d : SchemaDecl) (j : Json) : Prop where
  | intro {caseSensitivity relations foreignKeys : Option Json}
      (hrecord : IsRecord [("caseSensitivity", caseSensitivity), ("relations", relations),
        ("foreignKeys", foreignKeys)] j)
      (hcase : IsOptional .lower (fun c => IsText c.word) d.caseSensitivity caseSensitivity)
      (hrelations : IsOptional [] (IsList RelationDecl.IsJson) d.relations relations)
      (hforeignKeys : IsOptional [] (IsList ForeignKey.IsJson) d.foreignKeys foreignKeys)

/-- The text is a document that declares just this. -/
def SchemaDecl.IsDocument (d : SchemaDecl) (text : String) : Prop :=
  ∃ j, d.IsJson j ∧ SpellsPadded j text.toList

/-! ## Reading -/

theorem recovers_optionalText :
    Recovers (optional none (nullable? string?)) IsOptionalText id := by
  have h := recovers_optional (recovers_nullable? recovers_string? rfl) none
  rwa [Option.map_id] at h

theorem recovers_text : Recovers (required string?) (IsRequired IsText) id :=
  recovers_required recovers_string?

theorem recovers_relationId : Recovers RelationId.ofJson? RelationId.IsJson id := by
  rintro r j @⟨schema, name, hrecord, hschema, hname⟩
  have hmembers : j.members? ["schema", "name"] = some [schema, name] :=
    members?_of_isRecord (by simp) hrecord
  simp [RelationId.ofJson?, hmembers, recovers_optionalText hschema, recovers_text hname]

theorem recovers_keyPart : Recovers (nat? maxKeyPart) IsKeyPart UInt32.toNat := by
  intro part j h
  have hlt := part.toNat_lt
  exact nat?_of_isNumeral h (by rw [maxKeyPart]; omega)

theorem recovers_field : Recovers Field.ofJson? FieldDecl.IsJson FieldDecl.field := by
  rintro d j @⟨name, dbType, nullable, keyPart, hrecord, hname, hdbType, hnullable, hkeyPart⟩
  have hmembers : j.members? ["name", "type", "nullable", "pkPart"] =
      some [name, dbType, nullable, keyPart] := members?_of_isRecord (by simp) hrecord
  have hnullable : optional true bool? nullable = some d.nullable :=
    recovers_optional recovers_bool? true hnullable
  have hkeyPart : optional none (nullable? (nat? maxKeyPart)) keyPart =
      some (d.keyPart.map UInt32.toNat) :=
    recovers_optional (recovers_nullable? recovers_keyPart rfl) none hkeyPart
  simp [Field.ofJson?, FieldDecl.field, hmembers, recovers_text hname,
    recovers_optionalText hdbType, hnullable, hkeyPart]

theorem recovers_relation :
    Recovers Relation.ofJson? RelationDecl.IsJson RelationDecl.relation := by
  rintro d j @⟨schema, name, kind, fields, hrecord, hschema, hname, hkind, hfields⟩
  have hmembers : j.members? ["schema", "name", "kind", "fields"] =
      some [schema, name, kind, fields] := members?_of_isRecord (by simp) hrecord
  have hword : ∀ kind : RelationKind, RelationKind.words.lookup kind.word = some kind := by
    rintro ⟨⟩ <;> rfl
  have hkind : optional .table (choice? RelationKind.words) kind = some d.kind :=
    recovers_optional (recovers_choice? hword) .table hkind
  have hfields : optional [] (list? Field.ofJson?) fields = some (d.fields.map FieldDecl.field) :=
    recovers_optional (recovers_list? recovers_field) [] hfields
  simp [Relation.ofJson?, RelationDecl.relation, hmembers, recovers_optionalText hschema,
    recovers_text hname, hkind, hfields]

theorem recovers_pair : Recovers ForeignKey.pairOfJson? ForeignKey.IsPairJson id := by
  rintro pair j @⟨source, target, hrecord, hsource, htarget⟩
  have hmembers : j.members? ["source", "target"] = some [source, target] :=
    members?_of_isRecord (by simp) hrecord
  simp [ForeignKey.pairOfJson?, hmembers, recovers_text hsource, recovers_text htarget]

theorem recovers_foreignKey : Recovers ForeignKey.ofJson? ForeignKey.IsJson id := by
  rintro k j @⟨source, target, fields, hrecord, hsource, htarget, hfields⟩
  have hmembers : j.members? ["source", "target", "fields"] = some [source, target, fields] :=
    members?_of_isRecord (by simp) hrecord
  have hsource := recovers_required recovers_relationId hsource
  have htarget := recovers_required recovers_relationId htarget
  have hfields := recovers_required (recovers_list? recovers_pair) hfields
  simp [ForeignKey.ofJson?, hmembers, hsource, htarget, hfields]

theorem recovers_document :
    Recovers SchemaDocument.ofJson? SchemaDecl.IsJson SchemaDecl.document := by
  rintro d j @⟨caseSensitivity, relations, keys, hrecord, hcase, hrelations, hkeys⟩
  have hmembers : j.members? ["caseSensitivity", "relations", "foreignKeys"] =
      some [caseSensitivity, relations, keys] := members?_of_isRecord (by simp) hrecord
  have hword : ∀ c : CaseSensitivity, CaseSensitivity.words.lookup c.word = some c := by
    rintro ⟨⟩ <;> rfl
  have hcase : optional .lower (choice? CaseSensitivity.words) caseSensitivity =
      some d.caseSensitivity := recovers_optional (recovers_choice? hword) .lower hcase
  have hrelations : optional [] (list? Relation.ofJson?) relations =
      some (d.relations.map RelationDecl.relation) :=
    recovers_optional (recovers_list? recovers_relation) [] hrelations
  have hkeys : optional [] (list? ForeignKey.ofJson?) keys = some (d.foreignKeys.map id) :=
    recovers_optional (recovers_list? recovers_foreignKey) [] hkeys
  simp [SchemaDocument.ofJson?, SchemaDecl.document, hmembers, hcase, hrelations, hkeys]

/-! ## Writing -/

theorem writable_relationId : Writable RelationId.IsJson := by
  intro r
  obtain ⟨schema, hschema, hschemaSpelling⟩ := writable_isText.nullable r.schema
  obtain ⟨name, hname, hnameSpelling⟩ := writable_isText r.name
  obtain ⟨j, hj, hspelling⟩ := exists_isRecord [("schema", some schema), ("name", some name)]
    (by simp [hschemaSpelling, hnameSpelling])
  exact ⟨j, .intro hj hschema hname, hspelling⟩

theorem writable_field : Writable FieldDecl.IsJson := by
  intro d
  obtain ⟨name, hname, hnameSpelling⟩ := writable_isText d.name
  obtain ⟨dbType, hdbType, hdbTypeSpelling⟩ := writable_isText.nullable d.dbType
  obtain ⟨nullable, hnullable, hnullableSpelling⟩ := writable_isBool d.nullable
  have hkeyPart : Writable IsKeyPart := fun part => writable_isNumeral part.toNat
  obtain ⟨keyPart, hkeyPart, hkeyPartSpelling⟩ := hkeyPart.nullable d.keyPart
  obtain ⟨j, hj, hspelling⟩ := exists_isRecord
    [("name", some name), ("type", some dbType), ("nullable", some nullable),
      ("pkPart", some keyPart)]
    (by simp [hnameSpelling, hdbTypeSpelling, hnullableSpelling, hkeyPartSpelling])
  exact ⟨j, .intro hj hname hdbType hnullable hkeyPart, hspelling⟩

theorem writable_relation : Writable RelationDecl.IsJson := by
  intro d
  obtain ⟨schema, hschema, hschemaSpelling⟩ := writable_isText.nullable d.id.schema
  obtain ⟨name, hname, hnameSpelling⟩ := writable_isText d.id.name
  obtain ⟨kind, hkind, hkindSpelling⟩ := writable_isText d.kind.word
  obtain ⟨fields, hfields, hfieldsSpelling⟩ := writable_field.list d.fields
  obtain ⟨j, hj, hspelling⟩ := exists_isRecord
    [("schema", some schema), ("name", some name), ("kind", some kind), ("fields", some fields)]
    (by simp [hschemaSpelling, hnameSpelling, hkindSpelling, hfieldsSpelling])
  exact ⟨j, .intro hj hschema hname hkind hfields, hspelling⟩

theorem writable_pair : Writable ForeignKey.IsPairJson := by
  intro pair
  obtain ⟨source, hsource, hsourceSpelling⟩ := writable_isText pair.1
  obtain ⟨target, htarget, htargetSpelling⟩ := writable_isText pair.2
  obtain ⟨j, hj, hspelling⟩ := exists_isRecord
    [("source", some source), ("target", some target)]
    (by simp [hsourceSpelling, htargetSpelling])
  exact ⟨j, .intro hj hsource htarget, hspelling⟩

theorem writable_foreignKey : Writable ForeignKey.IsJson := by
  intro k
  obtain ⟨source, hsource, hsourceSpelling⟩ := writable_relationId k.source
  obtain ⟨target, htarget, htargetSpelling⟩ := writable_relationId k.target
  obtain ⟨pairs, hpairs, hpairsSpelling⟩ := writable_pair.list k.pairs
  obtain ⟨j, hj, hspelling⟩ := exists_isRecord
    [("source", some source), ("target", some target), ("fields", some pairs)]
    (by simp [hsourceSpelling, htargetSpelling, hpairsSpelling])
  exact ⟨j, .intro hj hsource htarget hpairs, hspelling⟩

theorem writable_schema : Writable SchemaDecl.IsJson := by
  intro d
  obtain ⟨case, hcase, hcaseSpelling⟩ := writable_isText d.caseSensitivity.word
  obtain ⟨relations, hrelations, hrelationsSpelling⟩ := writable_relation.list d.relations
  obtain ⟨keys, hkeys, hkeysSpelling⟩ := writable_foreignKey.list d.foreignKeys
  obtain ⟨j, hj, hspelling⟩ := exists_isRecord
    [("caseSensitivity", some case), ("relations", some relations), ("foreignKeys", some keys)]
    (by simp [hcaseSpelling, hrelationsSpelling, hkeysSpelling])
  exact ⟨j, .intro hj hcase hrelations hkeys, hspelling⟩

theorem exists_isDocument (d : SchemaDecl) : ∃ text, d.IsDocument text := by
  obtain ⟨j, hj, cs, hcs⟩ := writable_schema d
  refine ⟨String.ofList ([] ++ (cs ++ [])), j, hj, ?_⟩
  rw [String.toList_ofList]
  exact .intro isBlanks_nil hcs isBlanks_nil

/-- Every declaration can be written down as a document, and each of its documents is read as the
schema with the declared relations and keys, or fails like it. -/
theorem Schema.parse_eq_schema (d : SchemaDecl) :
    (∃ text, d.IsDocument text) ∧
      ∀ text, d.IsDocument text → Schema.parse text = d.schema.mapError .invalid := by
  refine ⟨exists_isDocument d, ?_⟩
  rintro text ⟨j, hj, htext⟩
  rw [parse, parse?_eq_some htext]
  simp only [ofJson, recovers_document hj]
  rfl

namespace Staff

/-- Two relations whose names differ in case only. -/
def namesakes : SchemaDecl := ⟨.lower, [⟨⟨none, "e"⟩, .table, []⟩, ⟨⟨none, "E"⟩, .table, []⟩], []⟩

/-- A document for them, with a member that no relation has, and one name as a code. -/
def namesakesText : String :=
  "\x7b\"relations\": [\x7b\"x\": null, \"name\": \"e\"\x7d,\x7b\"name\": \"\\u0045\"\x7d]\x7d"

def plain (s : String) : Literal := s.toList.map .char

def firstJson : Json := .object [(plain "x", .null), (plain "name", .string (plain "e"))]

def secondJson : Json := .object [(plain "name", .string [.code 0x45])]

theorem writes_plain (s : String) : (plain s).Writes s.toList := by
  rw [plain]
  induction s.toList with
  | nil => exact .nil
  | cons c cs ih => exact .char c ih

theorem firstJson_isJson : RelationDecl.IsJson ⟨⟨none, "e"⟩, .table, []⟩ firstJson := by
  have hrecord : IsRecord [("schema", none), ("name", some (.string (plain "e"))), ("kind", none),
      ("fields", none)] firstJson :=
    @IsRecord.intro _ _ [("x", .null), ("name", .string (plain "e"))] [("x", .null)]
      (.cons ⟨writes_plain "x", rfl⟩ (.cons ⟨writes_plain "name", rfl⟩ .nil)) (.swap ..) (by simp)
  exact .intro hrecord rfl ⟨_, rfl, writes_plain "e"⟩ rfl rfl

theorem secondJson_isJson : RelationDecl.IsJson ⟨⟨none, "E"⟩, .table, []⟩ secondJson := by
  have hrecord : IsRecord [("schema", none), ("name", some (.string [.code 0x45])), ("kind", none),
      ("fields", none)] secondJson :=
    @IsRecord.intro _ _ [("name", .string [.code 0x45])] []
      (.cons ⟨writes_plain "name", rfl⟩ .nil) (.refl _) (by simp)
  exact .intro hrecord rfl ⟨_, rfl, .code 'E' (by decide) .nil⟩ rfl rfl

theorem spells_plain {s : String} (h : ∀ c ∈ s.toList, c ≠ '"' ∧ c ≠ '\\' ∧ 32 ≤ c.toNat) :
    SpellsLiteral (plain s) ('"' :: (s.toList ++ ['"'])) := by
  refine .intro ?_
  rw [plain]
  generalize s.toList = cs at h
  induction cs with
  | nil => exact .nil
  | cons c cs ih =>
    obtain ⟨hquote, hbackslash, hcontrol⟩ := h c (by simp)
    exact .cons (.plain hquote hbackslash hcontrol) (ih fun d hd => h d (by simp [hd]))

theorem isBlanks_space : IsBlanks [' '] := by
  simp [IsBlanks, blankChars]

theorem spells_firstJson :
    Spells firstJson "\x7b\"x\": null, \"name\": \"e\"\x7d".toList :=
  .object (.more (.intro isBlanks_nil (spells_plain (by simp)) isBlanks_nil)
    (.intro isBlanks_space .null isBlanks_nil)
    (.one (.intro isBlanks_space (spells_plain (by simp)) isBlanks_nil)
      (.intro isBlanks_space (.string (spells_plain (by simp))) isBlanks_nil)))

theorem spells_secondJson : Spells secondJson "\x7b\"name\": \"\\u0045\"\x7d".toList := by
  have hcode : SpellsUnit (.code 0x45) ['\\', 'u', '0', '0', '4', '5'] :=
    @SpellsUnit.code _ _ _ _ 0 0 4 5 (.inl rfl) (.inl rfl) (.inl rfl) (.inl rfl)
  exact .object (.one (.intro isBlanks_nil (spells_plain (by simp)) isBlanks_nil)
    (.intro isBlanks_space (.string (.intro (.cons hcode .nil))) isBlanks_nil))

theorem namesakes_isDocument : namesakes.IsDocument namesakesText := by
  have hrecord : IsRecord [("caseSensitivity", none),
      ("relations", some (.array [firstJson, secondJson])), ("foreignKeys", none)]
      (.object [(plain "relations", .array [firstJson, secondJson])]) :=
    @IsRecord.intro _ _ [("relations", .array [firstJson, secondJson])] []
      (.cons ⟨writes_plain "relations", rfl⟩ .nil) (.refl _) (by simp)
  have hjson := SchemaDecl.IsJson.intro (d := namesakes) hrecord rfl
    ⟨_, rfl, .cons firstJson_isJson (.cons secondJson_isJson .nil)⟩ rfl
  have hitems : SpellsItems [firstJson, secondJson] _ :=
    .more (.intro isBlanks_nil spells_firstJson isBlanks_nil)
      (.one (.intro isBlanks_nil spells_secondJson isBlanks_nil))
  exact ⟨_, hjson, .intro isBlanks_nil (.object (.one
    (.intro isBlanks_nil (spells_plain (by simp)) isBlanks_nil)
    (.intro isBlanks_space (.array hitems) isBlanks_nil))) isBlanks_nil⟩

theorem namesakes_parse_eq : namesakes.IsDocument namesakesText ∧
    Schema.parse namesakesText = .error (.invalid (.duplicateRelation ⟨none, "E"⟩)) :=
  ⟨namesakes_isDocument, (Schema.parse_eq_schema namesakes).2 _ namesakes_isDocument⟩

end Staff

end XmlPublishing
