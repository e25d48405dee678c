import PackageConfig.Manifest.Data

/-!
A manifest that is written as data and read again is the same manifest.

Each table is opened by its keys, so what is read of it depends on what its record holds under
each key (`exists_record`). A field that is always written is there; one that may be missing is
there exactly if it is set, and an empty list of names is left out. Reading puts back what was
left out, so that every row, and from the rows every manifest, is read as it was
(`ReadsBack`). None of this depends on the dialect.
-/

namespace PackageConfig

namespace Data

variable {α : Type} {dialect : Dialect} {key other : String} {keys : List String}
  {write : α → Data} {read : Data → Option α} {fields front back : List (String × Data)}

/-! ## Values and lists -/

/-- What is written is read as it was. -/
def ReadsBack (write : α → Data) (read : Data → Option α) : Prop :=
  ∀ value, read (write value) = some value

theorem text_readsBack : ReadsBack .text text? := fun _ => rfl

theorem switch_readsBack : ReadsBack .switch switch? := fun _ => rfl

theorem list_readsBack (item : ReadsBack write read) :
    ReadsBack (fun items => .list (items.map write)) (list? read) := by
  intro items
  have each : (items.map write).mapM read = some items := by
    induction items with
    | nil => rfl
    | cons first rest ih => simp [item first, ih]
  exact each

theorem texts_readsBack : ReadsBack texts texts? :=
  list_readsBack text_readsBack

/-! ## The fields of a table -/

/-- Every field has one of the keys. -/
def Within (keys : List String) (fields : List (String × Data)) : Prop :=
  ∀ field ∈ fields, field.1 ∈ keys

@[simp]
theorem within_nil : Within keys [] :=
  fun _ mem => absurd mem List.not_mem_nil

@[simp]
theorem within_cons {value : Data} :
    Within keys ((key, value) :: fields) ↔ key ∈ keys ∧ Within keys fields :=
  List.forall_mem_cons

@[simp]
theorem within_append : Within keys (front ++ back) ↔ Within keys front ∧ Within keys back :=
  List.forall_mem_append

@[simp]
theorem within_optionalField (mem : key ∈ keys) (value : Option α) :
    Within keys (optionalField key write value) := by
  cases value with
  | none => exact within_nil
  | some value => exact within_cons.2 ⟨mem, within_nil⟩

@[simp]
theorem within_textsField (mem : key ∈ keys) (items : List String) :
    Within keys (textsField key items) := by
  cases items with
  | nil => exact within_nil
  | cons first rest => exact within_cons.2 ⟨mem, within_nil⟩

@[simp]
theorem field?_nil (key : String) : field? [] key = none := rfl

@[simp]
theorem field?_cons (key other : String) (value : Data) (fields : List (String × Data)) :
    field? ((other, value) :: fields) key =
      if other = key then some value else field? fields key := by
  unfold field?
  by_cases same : other = key
  · rw [List.find?_cons_of_pos (by simpa using same), if_pos same]
    rfl
  · rw [List.find?_cons_of_neg (by simpa using same), if_neg same]

@[simp]
theorem field?_append (front back : List (String × Data)) (key : String) :
    field? (front ++ back) key = (field? front key).or (field? back key) := by
  unfold field?
  rw [List.find?_append]
  cases front.find? fun field => field.1 == key <;> rfl

/-- A field that may be missing is found exactly if it is set. -/
@[simp]
theorem field?_optionalField (value : Option α) :
    field? (optionalField other write value) key =
      if other = key then value.map write else none := by
  cases value with
  | none => simp [optionalField]
  | some value => simp [optionalField]

/-- A list of texts is found exactly if it is not empty. -/
@[simp]
theorem field?_textsField (items : List String) :
    field? (textsField other items) key =
      if other = key then (if items = [] then none else some (texts items)) else none := by
  cases items with
  | nil => simp [textsField]
  | cons first rest => simp [textsField]

/-- A table with no key beside the expected ones is opened by looking up its fields. -/
theorem record?_table (within : Within keys fields) :
    (Data.table fields).record? dialect keys = some (field? fields) := by
  have known : (fields.all fun field => keys.contains field.1) = true := by
    simpa [Within] using within
  exact if_pos known

/-! ## Reading one field -/

namespace Record

variable {r : Record} {value : α} {items : List α}

theorem required_written (written : r key = some (write value)) (back : ReadsBack write read) :
    r.required key read = some value := by
  unfold required
  rw [written]
  exact back value

theorem optional_written {value : Option α} (written : r key = value.map write)
    (back : ReadsBack write read) (visible : ∀ value, write value ≠ .null) :
    r.optional key read = some value := by
  unfold optional
  rw [written]
  cases value with
  | none => rfl
  | some value =>
    have given := back value
    have shown := visible value
    cases form : write value <;> simp_all

theorem orElse_written {default : α} (written : r key = some (write value))
    (back : ReadsBack write read) : r.orElse key default read = some value := by
  unfold orElse
  rw [written]
  exact back value

theorem orElse_list (written : r key = some (.list (items.map write)))
    (back : ReadsBack write read) : r.orElse key [] (·.list? read) = some items := by
  unfold orElse
  rw [written]
  exact list_readsBack back items

/-- A list that was left out because it is empty is read as empty. -/
theorem orElse_texts {name : α → String}
    (written : r key = if items.map name = [] then none else some (texts (items.map name)))
    (back : ReadsBack (fun item => .text (name item)) read) :
    r.orElse key [] (·.list? read) = some items := by
  cases items with
  | nil =>
    unfold orElse
    rw [written]
    rfl
  | cons first rest =>
    refine orElse_list ?_ back
    rw [written, if_neg (by simp), texts, List.map_map]
    rfl

end Record

end Data

open Data

variable {dialect : Dialect}

/-! ## Names and values -/

theorem Os.readsBack (dialect : Dialect) :
    ReadsBack (fun os => .text (Os.name os)) (Data.named? dialect Os.named?) := by
  intro os
  cases os <;> rfl

theorem Compiler.readsBack (dialect : Dialect) :
    ReadsBack (fun compiler => .text (Compiler.name compiler))
      (Data.named? dialect Compiler.named?) := by
  intro compiler
  cases compiler <;> rfl

theorem Arch.readsBack (dialect : Dialect) :
    ReadsBack (fun arch => .text (Arch.name arch)) (Data.named? dialect Arch.named?) := by
  intro arch
  cases arch <;> rfl

theorem Value.readsBack : ReadsBack Value.toData Value.ofData? := Value.ofData?_toData

theorem Value.toData_ne_null (value : Value) : value.toData ≠ .null := by
  cases value <;> nofun

theorem Assignment.exists_record (dialect : Dialect) (a : Assignment) : ∃ r,
    a.toData.record? dialect ["option", "value"] = some r ∧
      r "option" = some (.text a.option) ∧ r "value" = some a.value.toData := by
  refine ⟨_, record?_table ?_, ?_, ?_⟩ <;> simp

theorem Assignment.readsBack (dialect : Dialect) :
    ReadsBack Assignment.toData (Assignment.ofData? dialect) := by
  intro a
  obtain ⟨r, opened, option, value⟩ := a.exists_record dialect
  have option := Record.required_written option text_readsBack
  have value := Record.required_written value Value.readsBack
  simp [ofData?, opened, option, value]

/-! ## Rows -/

namespace OptionRow

theorem exists_record (dialect : Dialect) (row : OptionRow) : ∃ r,
    row.toData.record? dialect keys = some r ∧
      r "name" = some (.text row.name) ∧ r "default" = some row.default.toData ∧
      r "values" = row.values.map texts ∧ r "parent" = row.parent.map .text := by
  refine ⟨_, record?_table ?_, ?_, ?_, ?_, ?_⟩ <;>
    simp [keys]

theorem readsBack (dialect : Dialect) : ReadsBack toData (ofData? dialect) := by
  intro row
  obtain ⟨r, opened, name, default, values, parent⟩ := row.exists_record dialect
  have name := Record.required_written name text_readsBack
  have default := Record.required_written default Value.readsBack
  have values := Record.optional_written values texts_readsBack nofun
  have parent := Record.optional_written parent text_readsBack nofun
  simp [ofData?, opened, name, default, values, parent]

end OptionRow

namespace PruneRow

theorem exists_record (dialect : Dialect) (row : PruneRow) : ∃ r,
    row.toData.record? dialect keys = some r ∧
      r "when" = row.condition.map Assignment.toData ∧
      r "os" = (if row.target.os.map Os.name = [] then none
        else some (texts (row.target.os.map Os.name))) ∧
      r "compiler" = (if row.target.compiler.map Compiler.name = [] then none
        else some (texts (row.target.compiler.map Compiler.name))) ∧
      r "arch" = (if row.target.arch.map Arch.name = [] then none
        else some (texts (row.target.arch.map Arch.name))) ∧
      r "remove" = row.remove.map .text ∧ r "force" = row.force.map Assignment.toData := by
  refine ⟨_, record?_table ?_, ?_, ?_, ?_, ?_, ?_, ?_⟩ <;>
    simp [keys]

theorem readsBack (dialect : Dialect) : ReadsBack toData (ofData? dialect) := by
  intro row
  obtain ⟨r, opened, condition, os, compiler, arch, remove, force⟩ := row.exists_record dialect
  have condition := Record.optional_written condition (Assignment.readsBack dialect) nofun
  have os := Record.orElse_texts os (Os.readsBack dialect)
  have compiler := Record.orElse_texts compiler (Compiler.readsBack dialect)
  have arch := Record.orElse_texts arch (Arch.readsBack dialect)
  have remove := Record.optional_written remove text_readsBack nofun
  have force := Record.optional_written force (Assignment.readsBack dialect) nofun
  simp [ofData?, opened, condition, os, compiler, arch, remove, force]

end PruneRow

namespace PinRow

theorem exists_record (dialect : Dialect) (row : PinRow) : ∃ r,
    row.toData.record? dialect ["when", "requires"] = some r ∧
      r "when" = some (texts row.options) ∧ r "requires" = some (texts row.pins) := by
  refine ⟨_, record?_table ?_, ?_, ?_⟩ <;> simp

theorem readsBack (dialect : Dialect) : ReadsBack toData (ofData? dialect) := by
  intro row
  obtain ⟨r, opened, options, pins⟩ := row.exists_record dialect
  have options := Record.required_written options texts_readsBack
  have pins := Record.required_written pins texts_readsBack
  simp [ofData?, opened, options, pins]

end PinRow

namespace VariableRow

theorem exists_record (dialect : Dialect) (row : VariableRow) : ∃ r,
    row.toData.record? dialect keys = some r ∧
      r "name" = some (.text row.name) ∧ r "option" = row.option.map .text ∧
      r "value" = row.value.map Value.toData ∧
      r "any_of" = (if row.anyOf = [] then none else some (texts row.anyOf)) ∧
      r "or_shared" = some (.switch row.orShared) ∧ r "driver" = row.driver.map .text := by
  refine ⟨_, record?_table ?_, ?_, ?_, ?_, ?_, ?_, ?_⟩ <;>
    simp [keys]

theorem readsBack (dialect : Dialect) : ReadsBack toData (ofData? dialect) := by
  intro row
  obtain ⟨r, opened, name, option, value, anyOf, orShared, driver⟩ := row.exists_record dialect
  have name := Record.required_written name text_readsBack
  have option := Record.optional_written option text_readsBack nofun
  have value := Record.optional_written value Value.readsBack Value.toData_ne_null
  have anyOf : r.orElse "any_of" [] texts? = some row.anyOf :=
    Record.orElse_texts (by simpa using anyOf) text_readsBack
  have orShared : r.orElse "or_shared" false switch? = some row.orShared :=
    Record.orElse_written orShared switch_readsBack
  have driver := Record.optional_written driver text_readsBack nofun
  simp [ofData?, opened, name, option, value, anyOf, orShared, driver]

end VariableRow

/-! ## Manifests -/

namespace Manifest

theorem exists_record (dialect : Dialect) (m : Manifest) : ∃ r,
    m.toData.record? dialect keys = some r ∧
      r "build_mode_option" = some (.text m.linkageOption) ∧
      r "variable_prefix" = some (.text m.lead) ∧
      r "option" = some (.list (m.options.map OptionRow.toData)) ∧
      r "prune" = some (.list (m.prune.map PruneRow.toData)) ∧
      r "requirement" = some (.list (m.pins.map PinRow.toData)) ∧
      r "variable" = some (.list (m.variableRows.map VariableRow.toData)) := by
  refine ⟨_, record?_table ?_, ?_, ?_, ?_, ?_, ?_, ?_⟩ <;>
    simp [keys]

theorem readsBack (dialect : Dialect) : ReadsBack toData (ofData? dialect) := by
  intro m
  obtain ⟨r, opened, linkageOption, lead, options, prune, pins, rows⟩ := m.exists_record dialect
  have linkageOption : r.orElse "build_mode_option" Recipe.BuiltIn.linkageOption text? =
      some m.linkageOption := Record.orElse_written linkageOption text_readsBack
  have lead : r.orElse "variable_prefix" "" text? = some m.lead :=
    Record.orElse_written lead text_readsBack
  have options := Record.orElse_list options (OptionRow.readsBack dialect)
  have prune := Record.orElse_list prune (PruneRow.readsBack dialect)
  have pins := Record.orElse_list pins (PinRow.readsBack dialect)
  have rows := Record.orElse_list rows (VariableRow.readsBack dialect)
  simp [ofData?, opened, linkageOption, lead, options, prune, pins, rows]

/-- Every manifest is read as it was written; so data from which a manifest is read can be written
anew, in the form that writing gives it, and neither the manifest nor the recipe that it makes, or
the fault for which it makes none, changes by that. -/
theorem read_written_manifest (dialect : Dialect) :
    (∀ m : Manifest, ofData? dialect m.toData = some m) ∧
      ∀ (d : Data) (m : Manifest), ofData? dialect d = some m →
        ∃ again, ofData? dialect m.toData = some again ∧ again = m ∧
          again.toRecipe = m.toRecipe :=
  ⟨readsBack dialect, fun _ m _ => ⟨m, readsBack dialect m, rfl, rfl⟩⟩

/-- A manifest as people may write it: a row without its keys, a parent that is null, and most
fields left out. -/
def terse : Data :=
  .table [("variable", .list [.table [("any_of", texts ["fPIC"]), ("name", .text "pic")]]),
    ("option", .list [.list [.text "shared", .switch false],
      .table [("name", .text "fPIC"), ("parent", .null), ("default", .text "True")]])]

theorem read_written_manifest_terse :
    let m : Manifest :=
      { options := [⟨"shared", .flag false, none, none⟩, ⟨"fPIC", .text "True", none, none⟩]
        variableRows := [⟨"pic", none, none, ["fPIC"], false, none⟩] }
    ofData? .json terse = some m ∧
      ∃ again, ofData? .json m.toData = some again ∧ again = m ∧ again.toRecipe = m.toRecipe := by
  intro m
  have read : ofData? .json terse = some m := rfl
  exact ⟨read, (read_written_manifest .json).2 terse m read⟩

end Manifest

end PackageConfig
