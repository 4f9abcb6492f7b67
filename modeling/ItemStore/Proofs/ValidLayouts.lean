import Mathlib.Data.List.Induction
import Mathlib.Data.List.Nodup
import ItemStore.Proofs.Keys
import ItemStore.Proofs.RenderedUpdates

/-!
# Valid layouts

Main statement: whatever was declared of a table and in which order, a schema is built if and only
if the layout that results is valid, and a fault names something that is wrong with it. A schema
that was built finds its key fields among the declared ones, keeps every key through the item of
that key, and creates its remote table by one request (`Schema.built_iff_valid`).

`Schema.build` is taken apart once (`Schema.build_spec`): what it gives is a schema of the layout or
a fault that the layout has. A schema's layout is valid, since a schema carries the proofs, and one
with a fault is not.
-/

namespace ItemStore

/-! ## Declarations -/

namespace Declaration

/-- The table name that a declaration gives. -/
def table? : Declaration → Option String
  | table name => some name
  | _ => none

/-- The field that a declaration adds. -/
def field? : Declaration → Option Field
  | field f => some f
  | _ => none

/-- The partition key that a declaration names. -/
def partitionKey? : Declaration → Option String
  | partitionKey name => some name
  | _ => none

/-- The sort key that a declaration names. -/
def sortKey? : Declaration → Option String
  | sortKey name => some name
  | _ => none

end Declaration

namespace Layout

/-- A field is declared under the name, of a type that keys can be of. -/
def HasKeyField (l : Layout) (name : String) : Prop :=
  ∃ f ∈ l.fields, f.name = name ∧ (f.type = .string ∨ f.type = .number ∨ f.type = .binary)

/-- The layout says what a table looks like. -/
structure Valid (l : Layout) : Prop where
  entity_ne : l.entity ≠ ""
  names_nodup : (l.fields.map Field.name).Nodup
  partition : ∃ name, l.partitionKey = some name ∧ l.HasKeyField name
  sort : ∀ name, l.sortKey = some name → l.partitionKey ≠ some name ∧ l.HasKeyField name

/-- The layout designates the name as a key. -/
def Designates (l : Layout) (name : String) : Prop :=
  l.partitionKey = some name ∨ l.sortKey = some name

/-- The layout has the fault. -/
def Has (l : Layout) : SchemaFault → Prop
  | .emptyEntity => l.entity = ""
  | .repeatedField entity field =>
    entity = l.entity ∧ 2 ≤ (l.fields.map Field.name).count field
  | .noPartitionKey entity => entity = l.entity ∧ l.partitionKey = none
  | .sameKeys entity field =>
    entity = l.entity ∧ l.partitionKey = some field ∧ l.sortKey = some field
  | .undeclaredKey entity field =>
    entity = l.entity ∧ l.Designates field ∧ field ∉ l.fields.map Field.name
  | .unusableKey entity field type =>
    entity = l.entity ∧ l.Designates field ∧ ⟨field, type⟩ ∈ l.fields ∧ type.isKeyType = false
  | .noScalar _ => False

/-- The last declaration of each kind counts, and all of the fields in their order. -/
theorem ofDeclarations_eq (entity : String) (ds : List Declaration) :
    ofDeclarations entity ds = {
      entity
      table := (ds.filterMap Declaration.table?).getLast?
      fields := ds.filterMap Declaration.field?
      partitionKey := (ds.filterMap Declaration.partitionKey?).getLast?
      sortKey := (ds.filterMap Declaration.sortKey?).getLast? } := by
  induction ds using List.reverseRecOn with
  | nil => rfl
  | append_singleton ds d ih =>
    rw [ofDeclarations, List.foldl_append] at *
    rw [ih]
    cases d <;>
      simp [declare, Declaration.table?, Declaration.field?, Declaration.partitionKey?,
        Declaration.sortKey?]

end Layout

theorem FieldType.isKeyType_iff {t : FieldType} :
    t.isKeyType = true ↔ t = .string ∨ t = .number ∨ t = .binary := by
  cases t <;> simp [isKeyType]

namespace Schema

variable {l : Layout} {s : Schema}

/-! ## What is built -/

/-- The schema is that of the layout. -/
structure IsOf (s : Schema) (l : Layout) : Prop where
  entity : s.entity = l.entity
  table : s.table = l.table.getD l.entity
  fields : s.fields = l.fields
  partition : l.partitionKey = some s.partitionKey.name
  sort : l.sortKey = s.sortName?

/-- The layout of a schema is valid. -/
theorem IsOf.valid (h : s.IsOf l) : l.Valid where
  entity_ne := h.entity ▸ s.entity_ne
  names_nodup := h.fields ▸ s.names_nodup
  partition := by
    have hmem := h.fields ▸ s.partition_mem
    exact ⟨_, h.partition, _, hmem, rfl, FieldType.isKeyType_iff.1 s.partition_isKeyType⟩
  sort := by
    intro name hname
    rw [h.sort] at hname
    obtain ⟨f, hf, rfl⟩ := Option.map_eq_some_iff.1 hname
    refine ⟨fun hsame => ?_, f, h.fields ▸ s.sort_mem f hf, rfl,
      FieldType.isKeyType_iff.1 (s.sort_isKeyType f hf)⟩
    rw [h.partition] at hsame
    exact s.sort_ne f hf (Option.some.inj hsame).symm

end Schema

namespace Layout

variable {l : Layout} {fault : SchemaFault} {name : String}

/-! ## Faults -/

/-- What is designated as a key in a valid layout is declared. -/
theorem Valid.hasKeyField (h : l.Valid) (hname : l.Designates name) : l.HasKeyField name := by
  rcases hname with hname | hname
  · obtain ⟨name', hname', hfield⟩ := h.partition
    obtain rfl := Option.some.inj (hname'.symm.trans hname)
    exact hfield
  · exact (h.sort name hname).2

/-- A layout that has a fault is not valid. -/
theorem Has.not_valid (h : l.Has fault) : ¬l.Valid := by
  intro hvalid
  cases fault with
  | emptyEntity => exact hvalid.entity_ne h
  | repeatedField entity field =>
    have hcount := List.nodup_iff_count_le_one.1 hvalid.names_nodup field
    exact absurd h.2 (by omega)
  | noPartitionKey entity =>
    obtain ⟨name, hname, -⟩ := hvalid.partition
    rw [h.2] at hname
    exact nomatch hname
  | sameKeys entity field => exact (hvalid.sort field h.2.2).1 h.2.1
  | undeclaredKey entity field =>
    obtain ⟨-, hname, hnot⟩ := h
    obtain ⟨f, hf, rfl, -⟩ := hvalid.hasKeyField hname
    exact hnot (List.mem_map_of_mem hf)
  | unusableKey entity field type =>
    obtain ⟨-, hname, hmem, htype⟩ := h
    obtain ⟨f, hf, hfname, hkey⟩ := hvalid.hasKeyField hname
    obtain rfl := List.inj_on_of_nodup_map hvalid.names_nodup hf hmem hfname
    rw [FieldType.isKeyType_iff.2 hkey] at htype
    exact nomatch htype
  | noScalar type => exact h

end Layout

namespace Schema

variable {l : Layout} {s : Schema} {name : String} {f : Field}

/-! ## Building -/

/-- A name that stands for the second time stands twice. -/
theorem count_of_firstRepeated {names seen : List String}
    (h : firstRepeated seen names = some name) : 2 ≤ (seen ++ names).count name := by
  induction names generalizing seen with
  | nil => exact nomatch h
  | cons other rest ih =>
    unfold firstRepeated at h
    split at h
    · rename_i hseen
      obtain rfl := Option.some.inj h
      have hpos := List.count_pos_iff.2 hseen
      rw [List.count_append, List.count_cons_self]
      omega
    · rw [List.perm_middle.count_eq]
      exact ih h

/-- What is found under a designated name, or a fault that says why it can be no key. -/
theorem keyField_spec (l : Layout) (hname : l.Designates name) :
    (∃ key, keyField l.entity l.fields name = .ok key) ∨
      ∃ fault, keyField l.entity l.fields name = .error fault ∧ l.Has fault := by
  unfold keyField
  split
  · rename_i hfind
    refine .inr ⟨_, rfl, rfl, hname, fun hmem => ?_⟩
    obtain ⟨f, hf, rfl⟩ := List.mem_map.1 hmem
    simpa using List.find?_eq_none.1 hfind f hf
  · rename_i f hfind
    obtain rfl : f.name = name := by simpa using List.find?_some hfind
    split
    · exact .inl ⟨_, rfl⟩
    · rename_i htype
      exact .inr ⟨_, rfl, rfl, hname, List.mem_of_find?_eq_some hfind, by simpa using htype⟩

/-- Building gives a schema of the layout, or a fault that the layout has. -/
theorem build_spec (l : Layout) :
    (∃ s, build l = .ok s ∧ s.IsOf l) ∨ ∃ fault, build l = .error fault ∧ l.Has fault := by
  unfold build
  split
  · rename_i hentity
    exact .inr ⟨_, rfl, hentity⟩
  split
  · rename_i name hrepeated
    exact .inr ⟨_, rfl, rfl, count_of_firstRepeated hrepeated⟩
  split
  · rename_i hpartition
    exact .inr ⟨_, rfl, rfl, hpartition⟩
  rename_i partitionName hpartition
  rcases keyField_spec l (.inl hpartition) with ⟨key, hkey⟩ | ⟨fault, hkey, hfault⟩
  · rw [hkey]
    simp only [bind, Except.bind, pure, Except.pure]
    have hname : l.partitionKey = some key.field.name := by rw [hpartition, key.name_eq]
    split
    · rename_i hsort
      exact .inl ⟨_, rfl, rfl, rfl, rfl, hname, hsort⟩
    rename_i sortName hsort
    split
    · rename_i hsame
      exact .inr ⟨_, rfl, rfl, hsame ▸ hpartition, hsort⟩
    rcases keyField_spec l (.inr hsort) with ⟨sort, hkey⟩ | ⟨fault, hkey, hfault⟩
    · rw [hkey]
      exact .inl ⟨_, rfl, rfl, rfl, rfl, hname, hsort.trans (congrArg some sort.name_eq.symm)⟩
    · rw [hkey]
      exact .inr ⟨fault, rfl, hfault⟩
  · rw [hkey]
    exact .inr ⟨fault, rfl, hfault⟩

/-! ## What rests on a schema -/

open Store Remote Step

/-- The schema says what the declarations say, and what rests on it holds. -/
structure BuiltFrom (s : Schema) (name : String) (ds : List Declaration) : Prop where
  entity : s.entity = name
  table : s.table = ((ds.filterMap Declaration.table?).getLast?).getD name
  fields : s.fields = ds.filterMap Declaration.field?
  partition : (ds.filterMap Declaration.partitionKey?).getLast? = some s.partitionKey.name
  sort : (ds.filterMap Declaration.sortKey?).getLast? = s.sortName?
  /-- The type of the partition key is the declared one. -/
  partitionType : s.field? s.partitionKey.name = some ⟨s.partitionKey.name, s.partitionType⟩
  sortType_isSome : s.sortType?.isSome = s.sortName?.isSome
  sortType : ∀ name ∈ s.sortName?, ∀ type ∈ s.sortType?, s.field? name = some ⟨name, type⟩
  /-- A key with a sort value just where there is a sort key is the key of its item. -/
  keyOf_keyItem : ∀ key : Key, key.sort.isSome = s.sortName?.isSome →
    s.keyOf (s.keyItem key) = .ok key
  /-- Both key types are ones that a remote store has, so creating the table is one request. -/
  creates : ∃ partition sort, KeyDefinition.of s.partitionKey.name s.partitionType = .ok partition ∧
    s.sortKey.mapM (fun f => KeyDefinition.of f.name f.type) = .ok sort ∧
    ∀ name t,
      outcome (createTable name s) t =
        outcome (call (.createTable name partition sort) acknowledged) t ∧
      (outcome (createTable name s) t).2.sent = .createTable name partition sort :: t.sent

/-- A declared field is found under its name. -/
theorem field?_of_mem (hf : f ∈ s.fields) : s.field? f.name = some f := by
  cases hfind : s.field? f.name with
  | none => simpa using List.find?_eq_none.1 hfind f hf
  | some g =>
    have hname : g.name = f.name := by simpa using List.find?_some hfind
    rw [List.inj_on_of_nodup_map s.names_nodup (List.mem_of_find?_eq_some hfind) hf hname]

theorem partitionType_eq (s : Schema) : s.partitionType = s.partitionKey.type := by
  rw [partitionType, field?_of_mem s.partition_mem, Option.map_some, Option.getD_some]

/-- The type of the sort key is the declared one. -/
theorem sortType?_eq (s : Schema) : s.sortType? = s.sortKey.map Field.type := by
  rw [sortType?, sortName?]
  cases hf : s.sortKey with
  | none => rfl
  | some f => rw [Option.map_some, Option.bind_some, field?_of_mem (s.sort_mem f hf)]

/-- A remote store has every type that keys can be of. -/
theorem keyDefinition_of_isKeyType (name : String) {t : FieldType} (h : t.isKeyType = true) :
    ∃ definition, KeyDefinition.of name t = .ok definition := by
  rcases FieldType.isKeyType_iff.1 h with rfl | rfl | rfl <;> exact ⟨_, rfl⟩

/-- The keys of a schema have definitions, and creating its table is the request with them. -/
theorem createTable_eq (s : Schema) : ∃ partition sort,
      KeyDefinition.of s.partitionKey.name s.partitionType = .ok partition ∧
      s.sortKey.mapM (fun f => KeyDefinition.of f.name f.type) = .ok sort ∧
      ∀ name, createTable name s = call (.createTable name partition sort) acknowledged := by
  obtain ⟨partition, hpartition⟩ :=
    keyDefinition_of_isKeyType s.partitionKey.name s.partition_isKeyType
  rw [← partitionType_eq] at hpartition
  have hdefined {field : String} {type : FieldType} {definition : KeyDefinition}
      (h : KeyDefinition.of field type = .ok definition) :
      defined field type = pure definition := by
    rw [defined, h]
    rfl
  cases hf : s.sortKey with
  | none =>
    refine ⟨partition, none, hpartition, rfl, fun name => ?_⟩
    rw [createTable, hdefined hpartition, pure_bind, sortName?, hf]
    rfl
  | some f =>
    obtain ⟨sort, hsort⟩ := keyDefinition_of_isKeyType f.name (s.sort_isKeyType f hf)
    refine ⟨partition, some sort, hpartition, ?_, fun name => ?_⟩
    · rw [Option.mapM_some, hsort]
      rfl
    · rw [createTable, hdefined hpartition, pure_bind, sortType?_eq, sortName?, hf]
      dsimp only [Option.map_some]
      rw [hdefined hsort]
      rfl

/-- A schema of the layout after some declarations is built from them. -/
theorem IsOf.builtFrom {entity : String} {ds : List Declaration}
    (h : s.IsOf (Layout.ofDeclarations entity ds)) : s.BuiltFrom entity ds := by
  rw [Layout.ofDeclarations_eq] at h
  obtain ⟨partition, sort, hpartition, hsort, hcreate⟩ := s.createTable_eq
  refine ⟨h.entity, h.table, h.fields, h.partition, h.sort, ?_, ?_, ?_, ?_,
    partition, sort, hpartition, hsort, fun name t => ?_⟩
  · rw [partitionType_eq]
    exact field?_of_mem s.partition_mem
  · rw [sortType?_eq, sortName?, Option.isSome_map, Option.isSome_map]
  · intro name hname type htype
    rw [sortType?_eq] at htype
    obtain ⟨f, hf, rfl⟩ := Option.map_eq_some_iff.1 hname
    obtain ⟨f', hf', rfl⟩ := Option.map_eq_some_iff.1 htype
    obtain rfl := Option.some.inj (hf.symm.trans hf')
    exact field?_of_mem (s.sort_mem f hf)
  · intro key hkey
    rw [sortName?, Option.isSome_map] at hkey
    exact keyOf_keyItem_of_sort hkey
  · rw [hcreate]
    exact ⟨rfl, sent_call _ _ t⟩

/-- After any declarations, a schema is built if and only if the layout is valid. The schema has the
fields in the order of their declaration, and its keys can be relied on. Otherwise the error is a
fault of the configuration, which the layout has. -/
theorem built_iff_valid (entity : String) (ds : List Declaration) :
    let l := Layout.ofDeclarations entity ds
    ((∃ s, build l = .ok s) ↔ l.Valid) ∧
      (∀ s, build l = .ok s → s.BuiltFrom entity ds) ∧
      ∀ e, (build l).mapError Error.schema = .error e → ∃ fault, e = .schema fault ∧
        e.message = "Configuration error: " ++ fault.message ∧ l.Has fault := by
  intro l
  rcases build_spec l with ⟨s, hs, hof⟩ | ⟨fault, hfault, hhas⟩
  · rw [hs]
    refine ⟨⟨fun _ => hof.valid, fun _ => ⟨s, rfl⟩⟩, ?_, nofun⟩
    rintro _ ⟨⟩
    exact hof.builtFrom
  · rw [hfault]
    refine ⟨⟨nofun, fun hvalid => absurd hvalid hhas.not_valid⟩, nofun, ?_⟩
    rintro _ ⟨⟩
    exact ⟨fault, rfl, rfl, hhas⟩

end Schema

namespace Sample

/-- A log whose keys are designated before they are declared, the sort key twice. -/
def declaredLog : List Declaration :=
  [.sortKey "host", .partitionKey "host", .table "old", .field ⟨"line", .number⟩,
    .field ⟨"host", .string⟩, .sortKey "line", .field ⟨"words", .list⟩, .table "log"]

/-- The same, with a list as its sort key in the end. -/
def declaredWords : List Declaration :=
  declaredLog ++ [.sortKey "words"]

/-- Declarations with a repeated setting, and some with a list for a key. -/
theorem built_iff_valid_log :
    (∃ s, Schema.build (Layout.ofDeclarations "Line" declaredLog) = .ok s ∧
      s.BuiltFrom "Line" declaredLog ∧ s.table = "log" ∧
      s.fields = [⟨"line", .number⟩, ⟨"host", .string⟩, ⟨"words", .list⟩]) ∧
    ∃ fault, Schema.build (Layout.ofDeclarations "Line" declaredWords) = .error fault ∧
      fault = .unusableKey "Line" "words" .list ∧
      (Layout.ofDeclarations "Line" declaredWords).Has fault ∧
      ¬(Layout.ofDeclarations "Line" declaredWords).Valid := by
  have hvalid : (Layout.ofDeclarations "Line" declaredLog).Valid :=
    { entity_ne := by decide
      names_nodup := by decide
      partition := ⟨"host", rfl, ⟨"host", .string⟩, by decide, rfl, .inl rfl⟩
      sort := by
        rintro _ ⟨⟩
        exact ⟨by decide, ⟨"line", .number⟩, by decide, rfl, .inr (.inl rfl)⟩ }
  obtain ⟨hiff, hbuilt, -⟩ := Schema.built_iff_valid "Line" declaredLog
  obtain ⟨s, hs⟩ := hiff.2 hvalid
  have hof := hbuilt s hs
  have hfault : Schema.build (Layout.ofDeclarations "Line" declaredWords) =
      .error (.unusableKey "Line" "words" .list) := rfl
  obtain ⟨hiff, -, hhas⟩ := Schema.built_iff_valid "Line" declaredWords
  obtain ⟨fault, heq, -, hfaulty⟩ := hhas (.schema (.unusableKey "Line" "words" .list))
    (by rw [hfault]; rfl)
  obtain rfl := Error.schema.inj heq
  refine ⟨⟨s, hs, hof, hof.table, hof.fields⟩, _, hfault, rfl, hfaulty, fun h => ?_⟩
  obtain ⟨s, hs⟩ := hiff.2 h
  rw [hfault] at hs
  exact nomatch hs

end Sample

end ItemStore
