import ItemStore.Command.TableFlags
import ItemStore.Proofs.Literals
import ItemStore.Proofs.ValidLayouts

/-!
# Tables that flags describe

A flag says a field by a name and a spelling of its type, or by a name alone for a string
(`SaysField`). A key is declared by its own flag unless a field flag has its name, and then it is of
the type that the field flag says (`effective`). Main statement: flags describe a table if and only
if the table has a name, every flag says a field, no two field flags have one name, the keys have
different ones, and both are of types that keys can be of. The table is then the one that they
say, and otherwise the error is one that the flags have (`TableFlags.schema_exactly`).

What is built of a layout is known (`Schema.build_spec`), so most of this is about when the layout
of the flags is valid (`valid_layoutOf_iff`).
-/

namespace ItemStore

/-- How a type can be spelled in small letters. -/
def FieldType.spellings : FieldType → List String
  | string => ["s", "string"]
  | number => ["n", "number"]
  | binary => ["b", "binary"]
  | bool => ["bool", "boolean"]
  | list => ["l", "list"]
  | map => ["m", "map"]

/-- A type is known by its spellings, in any case of letters. -/
theorem FieldType.ofName?_eq_some_iff {name : String} {type : FieldType} :
    ofName? name = some type ↔
      String.ofList (name.toList.map Char.toLower) ∈ type.spellings := by
  unfold ofName?
  split <;> cases type <;> simp_all [spellings]

namespace Command

/-! ## Fields -/

/-- The text says the field: a name for a string, or a name, a colon and a spelling of the type in
any case of its letters. -/
inductive SaysField : String → Field → Prop where
  | bare {name : String} (hname : name ≠ "") (hcolon : ':' ∉ name.toList) :
    SaysField name ⟨name, .string⟩
  | typed {name spelling : String} {type : FieldType} (hname : name ≠ "")
    (hcolon : ':' ∉ name.toList)
    (htype : String.ofList (spelling.toList.map Char.toLower) ∈ type.spellings) :
    SaysField (name ++ ":" ++ spelling) ⟨name, type⟩

section Field

variable {text : String} {f : Field} {e : CommandError}

/-- A refused field is named in its error. -/
theorem parseField_eq_error (h : parseField text = .error e) : e = .invalidField text := by
  unfold parseField at h
  dsimp only at h
  split at h
  · split at h
    · exact (Except.error.inj h).symm
    · cases h
  · exact (Except.error.inj h).symm

/-- A text that says a field is read as it. -/
theorem parseField_of_saysField (h : SaysField text f) : parseField text = .ok f := by
  cases h with
  | bare hname hcolon =>
    have hsplit := splitAtFirst?_eq_none_iff.2 hcolon
    simp only [parseField, hsplit, if_neg hname]
  | typed hname hcolon htype =>
    have htype := FieldType.ofName?_eq_some_iff.2 htype
    simp only [parseField, splitAtFirst?_colon hcolon, htype, Option.map_some, if_neg hname]

/-- What a text is read as, it says. -/
theorem saysField_of_parseField (h : parseField text = .ok f) : SaysField text f := by
  unfold parseField at h
  dsimp only at h
  split at h
  · rename_i field hfield
    split at h
    · cases h
    · rename_i hname
      obtain rfl := Except.ok.inj h
      split at hfield
      · rename_i name kind hsplit
        obtain ⟨type, htype, rfl⟩ := Option.map_eq_some_iff.1 hfield
        obtain ⟨htext, hcolon⟩ := splitAtFirst?_eq_some_iff.1 hsplit
        obtain rfl : text = name ++ ":" ++ kind := String.toList_inj.1 (by simpa using htext)
        exact .typed hname hcolon (FieldType.ofName?_eq_some_iff.1 htype)
      · rename_i hsplit
        obtain rfl := Option.some.inj hfield
        exact .bare hname (splitAtFirst?_eq_none_iff.1 hsplit)
  · cases h

/-- A text says a field and gives it, or says none and is refused. -/
theorem parseField_spec (text : String) : (∃ f, SaysField text f ∧ parseField text = .ok f) ∨
    (¬∃ f, SaysField text f) ∧ parseField text = .error (.invalidField text) := by
  cases h : parseField text with
  | ok f => exact .inl ⟨f, saysField_of_parseField h, rfl⟩
  | error e =>
    obtain rfl := parseField_eq_error h
    refine .inr ⟨?_, rfl⟩
    rintro ⟨f, hf⟩
    rw [parseField_of_saysField hf] at h
    cases h

theorem mapM_parseField_of_forall₂ {texts : List String} {fields : List Field}
    (h : List.Forall₂ SaysField texts fields) : texts.mapM parseField = .ok fields := by
  induction h with
  | nil => rfl
  | cons hf _ ih =>
    rw [List.mapM_cons, parseField_of_saysField hf, ih]
    rfl

/-- Every one of the texts says a field, or the first that says none is refused. -/
theorem forall₂_says_or (texts : List String) :
    (∃ fields, List.Forall₂ SaysField texts fields) ∨ ∃ text ∈ texts,
      (¬∃ f, SaysField text f) ∧ texts.mapM parseField = .error (.invalidField text) := by
  induction texts with
  | nil => exact .inl ⟨[], .nil⟩
  | cons text texts ih =>
    rw [List.mapM_cons]
    obtain ⟨f, hf, hparse⟩ | ⟨hnone, hparse⟩ := parseField_spec text
    · obtain ⟨fields, hfields⟩ | ⟨bad, hmem, hnone, herror⟩ := ih
      · exact .inl ⟨f :: fields, .cons hf hfields⟩
      · rw [hparse, herror]
        exact .inr ⟨bad, .tail _ hmem, hnone, rfl⟩
    · rw [hparse]
      exact .inr ⟨text, .head _, hnone, rfl⟩

theorem mapM_parseField_of_rel {text? : Option String} {f? : Option Field}
    (h : Option.Rel SaysField text? f?) : text?.mapM parseField = .ok f? := by
  cases h with
  | none => rfl
  | some hf =>
    rw [Option.mapM_some, parseField_of_saysField hf]
    rfl

/-- An optional text says a field or nothing, or it is refused. -/
theorem rel_says_or (text? : Option String) :
    (∃ f?, Option.Rel SaysField text? f?) ∨ ∃ text ∈ text?,
      (¬∃ f, SaysField text f) ∧ text?.mapM parseField = .error (.invalidField text) := by
  cases text? with
  | none => exact .inl ⟨none, .none⟩
  | some text =>
    obtain ⟨f, hf, -⟩ | ⟨hnone, hparse⟩ := parseField_spec text
    · exact .inl ⟨some f, .some hf⟩
    · rw [Option.mapM_some, hparse]
      exact .inr ⟨text, rfl, hnone, rfl⟩

end Field

/-! ## Flags -/

namespace TableFlags

variable {flags : TableFlags} {partition : Field} {sort : Option Field} {fields : List Field}

/-- The flags that say fields. -/
def texts (flags : TableFlags) : List String :=
  flags.partitionKey :: flags.sortKey.toList ++ flags.fields

/-- The flags say the keys and the fields. -/
structure Says (flags : TableFlags) (partition : Field) (sort : Option Field)
    (fields : List Field) : Prop where
  partition : SaysField flags.partitionKey partition
  sort : Option.Rel SaysField flags.sortKey sort
  fields : List.Forall₂ SaysField flags.fields fields

/-- What the flags of a named table say is built. -/
theorem Says.schema_eq (h : flags.Says partition sort fields) (htable : flags.table ≠ "") :
    flags.schema = (Schema.build (layoutOf flags.table partition sort fields)).mapError
      fun fault => .failure (.schema fault) := by
  rw [schema, if_neg htable, parseField_of_saysField h.partition, mapM_parseField_of_rel h.sort,
    mapM_parseField_of_forall₂ h.fields]
  rfl

/-- The flags of a named table say something, or one of them that says no field is refused. -/
theorem says_or (htable : flags.table ≠ "") :
    (∃ partition sort fields, flags.Says partition sort fields) ∨ ∃ text ∈ flags.texts,
      (¬∃ f, SaysField text f) ∧ flags.schema = .error (.invalidField text) := by
  rw [schema, if_neg htable]
  obtain ⟨partition, hpartition, hparse⟩ | ⟨hnone, hparse⟩ := parseField_spec flags.partitionKey
  · obtain ⟨sort, hsort⟩ | ⟨text, hmem, hnone, herror⟩ := rel_says_or flags.sortKey
    · obtain ⟨fields, hfields⟩ | ⟨text, hmem, hnone, herror⟩ := forall₂_says_or flags.fields
      · exact .inl ⟨partition, sort, fields, hpartition, hsort, hfields⟩
      · rw [hparse, mapM_parseField_of_rel hsort, herror]
        exact .inr ⟨text, List.mem_append_right _ hmem, hnone, rfl⟩
    · rw [hparse, herror]
      exact .inr ⟨text, List.mem_append_left _ (.tail _ (Option.mem_toList.2 hmem)), hnone, rfl⟩
  · rw [hparse]
    exact .inr ⟨_, .head _, hnone, rfl⟩

end TableFlags

/-! ## Layouts -/

/-- The fields after the keys that none of them has the name of. -/
def withKeys (keys fields : List Field) : List Field :=
  keys.filter (fun key => key.name ∉ fields.map Field.name) ++ fields

/-- What a key is in a table: the field of its name, or itself if there is none. -/
def effective (fields : List Field) (key : Field) : Field :=
  (fields.find? fun f => f.name == key.name).getD key

section Layout

variable {keys fields : List Field} {key f partition : Field} {sort : Option Field} {table : String}

/-- A key field is added unless its name is declared. -/
theorem undeclared_eq (fields : List Field) (key : Field) :
    undeclared fields key = [key].filter fun key => key.name ∉ fields.map Field.name := by
  have hany : (fields.any fun f => f.name == key.name) =
      decide (key.name ∈ fields.map Field.name) := by
    rw [Bool.eq_iff_iff]
    simp
  rw [undeclared, hany, List.filter_singleton]
  by_cases h : key.name ∈ fields.map Field.name
  · rw [decide_eq_true h, decide_eq_false (not_not.2 h)]
    rfl
  · rw [decide_eq_false h, decide_eq_true h]
    rfl

/-- The fields of the layout are the declared ones, after the keys that are not. -/
theorem layoutOf_fields :
    (layoutOf table partition sort fields).fields = withKeys (partition :: sort.toList) fields := by
  have hundeclared : undeclared fields =
      fun key => [key].filter fun key => key.name ∉ fields.map Field.name :=
    funext (undeclared_eq fields)
  rw [withKeys, layoutOf, hundeclared, ← List.singleton_append, List.filter_append]
  cases sort <;> simp

/-- The field that a key is has the name of the key. -/
theorem effective_name (fields : List Field) (key : Field) :
    (effective fields key).name = key.name := by
  rw [effective]
  cases hfind : fields.find? fun f => f.name == key.name with
  | none => rfl
  | some f => simpa using List.find?_some hfind

/-- The field that counts for a key is a field of the table. -/
theorem effective_mem (hkey : key ∈ keys) : effective fields key ∈ withKeys keys fields := by
  rw [effective]
  cases hfind : fields.find? fun f => f.name == key.name with
  | none =>
    have hnot : key.name ∉ fields.map Field.name := by
      simpa using List.find?_eq_none.1 hfind
    exact List.mem_append_left _ (List.mem_filter.2 ⟨hkey, decide_eq_true hnot⟩)
  | some f => exact List.mem_append_right _ (List.mem_of_find?_eq_some hfind)

/-- The names of the fields and the keys differ if those of the fields do and those of the keys
do. -/
theorem nodup_withKeys (hfields : (fields.map Field.name).Nodup)
    (hkeys : (keys.map Field.name).Nodup) : ((withKeys keys fields).map Field.name).Nodup := by
  rw [withKeys, List.map_append]
  refine List.Nodup.append (hkeys.sublist (List.filter_sublist.map _)) hfields ?_
  intro name hname hmem
  obtain ⟨key, hkey, rfl⟩ := List.mem_map.1 hname
  exact of_decide_eq_true (List.mem_filter.1 hkey).2 hmem

/-- The one declared field of a key's name is what the key is. -/
theorem eq_effective (h : ((withKeys keys fields).map Field.name).Nodup) (hkey : key ∈ keys)
    (hf : f ∈ withKeys keys fields) (hname : f.name = key.name) : f = effective fields key :=
  List.inj_on_of_nodup_map h hf (effective_mem hkey) (hname.trans (effective_name fields key).symm)

/-- Such flags describe a table: it has a name, no two fields have one name and neither have the
keys, and each key is of a type that keys can be of. -/
structure Describable (table : String) (partition : Field) (sort : Option Field)
    (fields : List Field) : Prop where
  table_ne : table ≠ ""
  names_nodup : (fields.map Field.name).Nodup
  keys_ne : ∀ key ∈ sort, key.name ≠ partition.name
  keyTypes : ∀ key ∈ partition :: sort.toList,
    (effective fields key).type ∈ [FieldType.string, .number, .binary]

/-- The layout designates its keys. -/
theorem designates_of_mem (hkey : key ∈ partition :: sort.toList) :
    (layoutOf table partition sort fields).Designates key.name := by
  obtain rfl | hsort := List.mem_cons.1 hkey
  · exact .inl rfl
  · exact .inr (Option.map_eq_some_iff.2 ⟨key, Option.mem_toList.1 hsort, rfl⟩)

/-- A key can be one if the type that counts for it is usable. -/
theorem hasKeyField_iff
    (h : ((withKeys (partition :: sort.toList) fields).map Field.name).Nodup)
    (hkey : key ∈ partition :: sort.toList) :
    (layoutOf table partition sort fields).HasKeyField key.name ↔
      (effective fields key).type ∈ [FieldType.string, .number, .binary] := by
  rw [Layout.HasKeyField, layoutOf_fields]
  constructor
  · rintro ⟨f, hf, hname, htype⟩
    rw [← eq_effective h hkey hf hname]
    simpa using htype
  · intro htype
    exact ⟨_, effective_mem hkey, effective_name fields key, by simpa using htype⟩

/-- The layout of the flags is valid just if they describe a table. -/
theorem valid_layoutOf_iff : (layoutOf table partition sort fields).Valid ↔
    Describable table partition sort fields := by
  constructor
  · intro h
    have hnodup := h.names_nodup
    rw [layoutOf_fields] at hnodup
    refine ⟨h.entity_ne, ?_, fun key hkey hname => ?_, fun key hkey => ?_⟩
    · exact hnodup.sublist ((List.sublist_append_right _ _).map _)
    · have hdesignated : (layoutOf table partition sort fields).sortKey = some key.name :=
        Option.map_eq_some_iff.2 ⟨key, hkey, rfl⟩
      exact (h.sort key.name hdesignated).1 (congrArg some hname.symm)
    · exact (hasKeyField_iff hnodup hkey).1 (h.hasKeyField (designates_of_mem hkey))
  · intro h
    have hkeys : ((partition :: sort.toList).map Field.name).Nodup := by
      cases hsort : sort with
      | none => simp
      | some key => simpa using (h.keys_ne key hsort).symm
    have hnodup := nodup_withKeys h.names_nodup hkeys
    refine ⟨h.table_ne, layoutOf_fields ▸ hnodup, ⟨_, rfl, ?_⟩, fun name hname => ?_⟩
    · exact (hasKeyField_iff hnodup (.head _)).2 (h.keyTypes _ (.head _))
    · obtain ⟨key, hkey, rfl⟩ := Option.map_eq_some_iff.1 hname
      have hmem : key ∈ partition :: sort.toList := .tail _ (Option.mem_toList.2 hkey)
      exact ⟨fun hsame => h.keys_ne key hkey (Option.some.inj hsame).symm,
        (hasKeyField_iff hnodup hmem).2 (h.keyTypes key hmem)⟩

/-- The schema is the table that the flags describe. -/
structure Described (s : Schema) (table : String) (partition : Field) (sort : Option Field)
    (fields : List Field) : Prop where
  entity_eq : s.entity = table
  table_eq : s.table = table
  /-- The keys that no field flag declares come first. -/
  fields_eq : s.fields = withKeys (partition :: sort.toList) fields
  partition_eq : s.partitionKey.name = partition.name
  sort_eq : s.sortName? = sort.map Field.name
  partitionType_eq : s.partitionType = (effective fields partition).type
  sortType_eq : s.sortType? = sort.map fun key => (effective fields key).type

/-- A schema of the layout describes what the options say. -/
theorem described_of_isOf {s : Schema} (h : s.IsOf (layoutOf table partition sort fields)) :
    Described s table partition sort fields := by
  have hfields := h.fields.trans layoutOf_fields
  have heffective {key f : Field} (hkey : key ∈ partition :: sort.toList) (hf : f ∈ s.fields)
      (hname : f.name = key.name) : f = effective fields key :=
    eq_effective (hfields ▸ s.names_nodup) hkey (hfields ▸ hf) hname
  have hpartition : s.partitionKey.name = partition.name := (Option.some.inj h.partition).symm
  refine ⟨h.entity, h.table, hfields, hpartition, h.sort.symm, ?_, ?_⟩
  · rw [Schema.partitionType_eq, heffective (.head _) s.partition_mem hpartition]
  · have hsort : sort.map Field.name = s.sortKey.map Field.name := h.sort
    rw [Schema.sortType?_eq]
    cases hf : s.sortKey with
    | none =>
      rw [hf] at hsort
      rw [Option.map_eq_none_iff.1 hsort]
      rfl
    | some f =>
      rw [hf] at hsort
      obtain ⟨key, rfl, hname⟩ := Option.map_eq_some_iff.1 hsort
      rw [Option.map_some, Option.map_some,
        heffective (.tail _ (.head _)) (s.sort_mem f hf) hname.symm]

end Layout

/-! ## Tables -/

namespace TableFlags

variable {flags : TableFlags} {partition : Field} {sort : Option Field} {fields : List Field}

/-- The flags have what the error says. -/
def Has (flags : TableFlags) : CommandError → Prop
  | .missingTable => flags.table = ""
  | .invalidField text => text ∈ flags.texts ∧ ¬∃ f, SaysField text f
  | .failure (.schema fault) => ∃ partition sort fields, flags.Says partition sort fields ∧
    (layoutOf flags.table partition sort fields).Has fault
  | _ => False

/-- What is built of flags that say fields is the table that they describe, or they have a fault. -/
theorem Says.schema_spec (h : flags.Says partition sort fields) (htable : flags.table ≠ "") :
    (∃ s, flags.schema = .ok s ∧ Describable flags.table partition sort fields ∧
      Described s flags.table partition sort fields) ∨
    ∃ fault, flags.schema = .error (.failure (.schema fault)) ∧
      (layoutOf flags.table partition sort fields).Has fault := by
  rw [h.schema_eq htable]
  obtain ⟨s, hs, hof⟩ | ⟨fault, hfault, hhas⟩ :=
    Schema.build_spec (layoutOf flags.table partition sort fields)
  · rw [hs]
    exact .inl ⟨s, rfl, valid_layoutOf_iff.1 hof.valid, described_of_isOf hof⟩
  · rw [hfault]
    exact .inr ⟨fault, rfl, hhas⟩

/-- Flags describe a table, or they have what the error says. -/
theorem schema_spec (flags : TableFlags) :
    (∃ s partition sort fields, flags.schema = .ok s ∧ flags.Says partition sort fields ∧
      Describable flags.table partition sort fields) ∨
    ∃ e, flags.schema = .error e ∧ flags.Has e := by
  by_cases htable : flags.table = ""
  · refine .inr ⟨.missingTable, ?_, htable⟩
    rw [schema, if_pos htable]
    rfl
  obtain ⟨partition, sort, fields, h⟩ | ⟨text, hmem, hnone, herror⟩ := says_or htable
  · obtain ⟨s, hs, hdescribable, -⟩ | ⟨fault, hfault, hhas⟩ := h.schema_spec htable
    · exact .inl ⟨s, partition, sort, fields, hs, h, hdescribable⟩
    · exact .inr ⟨_, hfault, partition, sort, fields, h, hhas⟩
  · exact .inr ⟨_, herror, hmem, hnone⟩

/-- Flags describe a table if and only if the table has a name, all of them say fields, no two field
flags have one name, the keys have different ones, and both keys are of types that keys can be of.
The table has the name of the flag, the fields are the keys that no field flag declares and then
those of the field flags in their order, and a key's type is that of its field flag, if there is
one. Otherwise the error says something that is wrong with the flags. -/
theorem schema_exactly (flags : TableFlags) :
    ((∃ s, flags.schema = .ok s) ↔ ∃ partition sort fields,
      flags.Says partition sort fields ∧ Describable flags.table partition sort fields) ∧
    (∀ s partition sort fields, flags.schema = .ok s → flags.Says partition sort fields →
      Described s flags.table partition sort fields) ∧
    ∀ e, flags.schema = .error e → flags.Has e := by
  refine ⟨⟨?_, ?_⟩, fun s partition sort fields hs h => ?_, fun e he => ?_⟩
  · rintro ⟨s, hs⟩
    obtain ⟨s', partition, sort, fields, -, h, hdescribable⟩ | ⟨e, he, -⟩ := flags.schema_spec
    · exact ⟨partition, sort, fields, h, hdescribable⟩
    · rw [hs] at he
      cases he
  · rintro ⟨partition, sort, fields, h, hdescribable⟩
    obtain ⟨s, hs, -⟩ | ⟨fault, -, hhas⟩ := h.schema_spec hdescribable.table_ne
    · exact ⟨s, hs⟩
    · exact absurd (valid_layoutOf_iff.2 hdescribable) hhas.not_valid
  · have htable : flags.table ≠ "" := by
      intro htable
      rw [schema, if_pos htable] at hs
      cases hs
    obtain ⟨s', hs', -, hdescribed⟩ | ⟨fault, hfault, -⟩ := h.schema_spec htable
    · obtain rfl := Except.ok.inj (hs.symm.trans hs')
      exact hdescribed
    · rw [hs] at hfault
      cases hfault
  · obtain ⟨s, _, _, _, hs, -⟩ | ⟨e', he', hhas⟩ := flags.schema_spec
    · rw [hs] at he
      cases he
    · obtain rfl := Except.error.inj (he.symm.trans he')
      exact hhas

end TableFlags

end Command

namespace Sample

open Command

/-- The flags of a table of readings. The sensors are numbers by their key flag and strings by their
field flag. -/
def readingFlags : TableFlags where
  table := "readings"
  partitionKey := "sensor:n"
  sortKey := some "at:Number"
  fields := ["value:N", "sensor:s", "note"]

/-- The same with lists as the sort key. -/
def listFlags : TableFlags :=
  { readingFlags with sortKey := some "words:l" }

/-- The field flag counts, and lists are no key. -/
theorem schema_exactly_readings :
    (∃ s, readingFlags.schema = .ok s ∧ s.table = "readings" ∧
      s.fields = [⟨"at", .number⟩, ⟨"value", .number⟩, ⟨"sensor", .string⟩, ⟨"note", .string⟩] ∧
      s.partitionType = .string ∧ s.sortType? = some .number) ∧
    ∃ e, listFlags.schema = .error e ∧ listFlags.Has e := by
  have hsays : readingFlags.Says ⟨"sensor", .number⟩ (some ⟨"at", .number⟩)
      [⟨"value", .number⟩, ⟨"sensor", .string⟩, ⟨"note", .string⟩] :=
    { partition := saysField_of_parseField (by decide +kernel)
      sort := .some (saysField_of_parseField (by decide +kernel))
      fields := .cons (saysField_of_parseField (by decide +kernel))
        (.cons (saysField_of_parseField (by decide +kernel))
          (.cons (saysField_of_parseField (by decide +kernel)) .nil)) }
  have hdescribable : Describable "readings" ⟨"sensor", .number⟩ (some ⟨"at", .number⟩)
      [⟨"value", .number⟩, ⟨"sensor", .string⟩, ⟨"note", .string⟩] :=
    { table_ne := by decide
      names_nodup := by decide
      keys_ne := by decide
      keyTypes := by decide }
  obtain ⟨hiff, hdescribed, -⟩ := TableFlags.schema_exactly readingFlags
  obtain ⟨s, hs⟩ := hiff.2 ⟨_, _, _, hsays, hdescribable⟩
  have h := hdescribed s _ _ _ hs hsays
  obtain ⟨-, -, hrefused⟩ := TableFlags.schema_exactly listFlags
  have hlist : listFlags.schema =
      .error (.failure (.schema (.unusableKey "readings" "words" .list))) :=
    rfl
  exact ⟨⟨s, hs, h.table_eq, h.fields_eq, h.partitionType_eq, h.sortType_eq⟩,
    _, hlist, hrefused _ hlist⟩

end Sample

end ItemStore
