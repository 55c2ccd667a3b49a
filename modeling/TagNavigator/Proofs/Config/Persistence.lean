import TagNavigator.Config
import TagNavigator.Proofs.Files.Writing
import TagNavigator.Proofs.Json.Plain
import TagNavigator.Proofs.Json.Soundness
import TagNavigator.Proofs.Outcome
import TagNavigator.Proofs.Text.Blank
import TagNavigator.Proofs.Text.Utf8

/-!
# Saved options

Whatever the configuration file holds, the options in it are admissible, and their strings hold no
surrogate pair in halves.  Such options that are saved are the options that are then loaded, and the
fields of the file that are no options keep their values and their order
(`loadOptions_saveOptions`).
-/

namespace TagNavigator

/-- Options within their bounds. -/
structure Options.Admissible (o : Options) : Prop where
  indexes : Text.TrimmedBy Text.isBlankPoint o.indexes
  significant : 0 ≤ o.significant
  historySize : 1 ≤ o.historySize
  expandLimit : 1 ≤ o.expandLimit
  style : Text.TrimmedBy Text.isBlankPoint o.style

/-- The strings among the options are joined: reading never gives the two halves of a surrogate pair
one after the other, but the character that they stand for. -/
structure Options.Joined (o : Options) : Prop where
  indexes : Json.Joined o.indexes
  style : Json.Joined o.style

/-- The integers among the options can be written. -/
structure Options.Short (o : Options) : Prop where
  significant : IsShort o.significant
  historySize : IsShort o.historySize
  expandLimit : IsShort o.expandLimit

namespace Config

/-- The names of the options. -/
def optionNames : List JsonString := (fieldsOfOptions {}).map Prod.fst

variable {w : World} {o : Options} {fields given : Fields} {name : JsonString} {value : Json}

/-! ### The options in some fields -/

theorem trimmedBy_stringOr {default : JsonString} (h : Text.TrimmedBy Text.isBlankPoint default)
    (value : Option Json) :
  Text.TrimmedBy Text.isBlankPoint (stringOr default value)
  := by
  rw [stringOr.eq_def]
  split
  · split
    · exact h
    · rename_i t hne
      exact Text.trimmedBy_trimBy hne
  · exact h

theorem joined_stringOr {default : JsonString} (h : Json.Joined default) {value : Option Json}
    (hvalue : ∀ s, value = some (.string s) → Json.Joined s) :
  Json.Joined (stringOr default value)
  := by
  rw [stringOr.eq_def]
  split
  · rename_i s
    split
    · exact h
    · exact (hvalue s rfl).of_isInfix (Text.trimBy_isInfix _ s)
  · exact h

theorem le_intOr {default least : Int} (h : least ≤ default) (value : Option Json) :
  least ≤ intOr default least value
  := by
  rw [intOr.eq_def]
  split
  · exact Int.le_max_left _ _
  · exact h

theorem admissible_default :
  Options.Admissible {}
  := ⟨by decide, by decide, by decide, by decide, by decide⟩

/-- The options in any fields are admissible. -/
theorem admissible_optionsOf (fields : Fields) :
  (optionsOf fields).Admissible
  := ⟨trimmedBy_stringOr admissible_default.indexes _, le_intOr admissible_default.significant _,
    le_intOr admissible_default.historySize _, le_intOr admissible_default.expandLimit _,
    trimmedBy_stringOr admissible_default.style _⟩

/-- The strings of the options in some fields are joined if those of the fields are. -/
theorem joined_optionsOf {room : Nat} (h : Json.FieldsSound room fields) :
  (optionsOf fields).Joined
  := by
  have hvalue (name) : ∀ s, Json.field? fields name = some (.string s) → Json.Joined s := by
    intro s hs
    cases h.values _ (mem_of_lookup hs) with
    | string hjoined => exact hjoined
  exact ⟨joined_stringOr (Json.joined_ofText _) (hvalue _),
    joined_stringOr (Json.joined_ofText _) (hvalue _)⟩

theorem stringOr_string {default s : JsonString} (h : Text.TrimmedBy Text.isBlankPoint s) :
  stringOr default (some (.string s)) = s
  := by
  have htrim := h.trimBy_eq
  obtain ⟨n, rest, rfl⟩ := List.exists_cons_of_ne_nil h.ne_nil
  rw [stringOr, htrim]

theorem intOr_int {default least n : Int} (h : least ≤ n) :
  intOr default least (some (.int n)) = n
  := Int.max_eq_right h

theorem optionsOf_eq (ho : o.Admissible)
    (h : ∀ f ∈ fieldsOfOptions o, Json.field? fields f.1 = some f.2) :
  optionsOf fields = o
  := by
  simp only [fieldsOfOptions, List.forall_mem_cons] at h
  obtain ⟨hindexes, hsignificant, hignoreCase, hmagic, hbeside, hhistory, hexpand, hstyle, -⟩ := h
  simp only [optionsOf, hindexes, hsignificant, hignoreCase, hmagic, hbeside, hhistory, hexpand,
    hstyle, stringOr_string ho.indexes, stringOr_string ho.style, intOr_int ho.significant,
    intOr_int ho.historySize, intOr_int ho.expandLimit, boolOr]

/-! ### Setting the fields of options -/

theorem setAll_cons (fields : Fields) (f : JsonString × Json) (given : Fields) :
  setAll fields (f :: given) = setAll (Json.setField f.1 f.2 fields) given
  := rfl

theorem field?_setAll_of_notMem (h : name ∉ given.map Prod.fst) :
  Json.field? (setAll fields given) name = Json.field? fields name
  := by
  induction given generalizing fields with
  | nil => rfl
  | cons f given ih =>
      rw [List.map_cons, List.mem_cons, not_or] at h
      rw [setAll_cons, ih h.2, Json.field?_setField_of_ne h.1]

theorem field?_setAll_of_mem (hnames : (given.map Prod.fst).Nodup) {f : JsonString × Json}
    (h : f ∈ given) :
  Json.field? (setAll fields given) f.1 = some f.2
  := by
  induction given generalizing fields with
  | nil => exact absurd h List.not_mem_nil
  | cons g given ih =>
      obtain ⟨hnotMem, hnames⟩ := List.nodup_cons.mp hnames
      rw [setAll_cons]
      rcases List.mem_cons.mp h with rfl | hmem
      · rw [field?_setAll_of_notMem hnotMem, Json.field?_setField_self]
      · exact ih hnames hmem

theorem map_fst_prefix_setAll :
  fields.map Prod.fst <+: (setAll fields given).map Prod.fst
  := by
  induction given generalizing fields with
  | nil => exact List.prefix_rfl
  | cons f given ih => exact Json.map_fst_prefix_setField.trans ih

theorem fieldsSound_setAll {room : Nat} (h : Json.FieldsSound room fields)
    (hgiven : ∀ f ∈ given, Json.Joined f.1 ∧ Json.Sound room f.2) :
  Json.FieldsSound room (setAll fields given)
  := by
  induction given generalizing fields with
  | nil => exact h
  | cons f given ih =>
      obtain ⟨⟨hname, hvalue⟩, hgiven⟩ := List.forall_mem_cons.mp hgiven
      exact ih (h.setField hname hvalue) hgiven

theorem nodup_optionNames :
  optionNames.Nodup
  := by
  decide

theorem map_fst_fieldsOfOptions :
  (fieldsOfOptions o).map Prod.fst = optionNames
  := rfl

/-- The values of options are read back as they are. -/
theorem readBack_of_mem_fieldsOfOptions {f : JsonString × Json} (h : f ∈ fieldsOfOptions o) :
  Json.readBack f.2 = f.2
  := by
  have hall : ∀ f ∈ fieldsOfOptions o, Json.readBack f.2 = f.2 := by
    simp [fieldsOfOptions, Json.readBack]
  exact hall f h

theorem sound_fieldsOfOptions {room : Nat} (hjoined : o.Joined) (h : o.Short) :
  ∀ f ∈ fieldsOfOptions o, Json.Joined f.1 ∧ Json.Sound room f.2
  := by
  intro f hf
  simp only [fieldsOfOptions, List.mem_cons, List.not_mem_nil, or_false] at hf
  rcases hf with rfl | rfl | rfl | rfl | rfl | rfl | rfl | rfl
  · exact ⟨Json.joined_ofText _, .string hjoined.indexes⟩
  · exact ⟨Json.joined_ofText _, .int h.significant⟩
  · exact ⟨Json.joined_ofText _, .bool _⟩
  · exact ⟨Json.joined_ofText _, .bool _⟩
  · exact ⟨Json.joined_ofText _, .bool _⟩
  · exact ⟨Json.joined_ofText _, .int h.historySize⟩
  · exact ⟨Json.joined_ofText _, .int h.expandLimit⟩
  · exact ⟨Json.joined_ofText _, .string hjoined.style⟩

/-! ### Saving and loading -/

theorem field?_readBackFields :
  Json.field? (Json.readBackFields fields) name = (Json.field? fields name).map Json.readBack
  := by
  induction fields with
  | nil => rfl
  | cons f fields ih =>
      obtain ⟨other, value⟩ := f
      rw [Json.field?, Json.field?] at ih
      rw [Json.readBackFields, Json.field?, Json.field?, List.lookup_cons, List.lookup_cons]
      split
      · rfl
      · exact ih

/-- The fields that a file of printed fields holds. -/
theorem fieldsOf_printIndented (h : Json.Sound Json.nestingLimit (.object fields)) :
  fieldsOf (Utf8.encode (Json.printIndented 0 (.object fields) ++ ['\n']))
    = Json.readBackFields fields
  := by
  have hplain := plain_append_iff.mpr ⟨Json.plain_printIndented h 0, (by decide : Plain ['\n'])⟩
  rw [fieldsOf, Utf8.decode?_encode, Option.bind_some, unifyLineEnds_of_plain hplain,
    Json.parse?_printIndented h]
  rfl

theorem sound_object_nestingLimit_iff :
  Json.Sound Json.nestingLimit (.object fields) ↔ Json.FieldsSound (Json.nestingLimit - 1) fields
  := Json.sound_object_iff

theorem fieldsSound_fieldsOf (content : Bytes) :
  Json.FieldsSound (Json.nestingLimit - 1) (fieldsOf content)
  := by
  rw [fieldsOf]
  split
  · rename_i hparse
    obtain ⟨t, -, hparse⟩ := Option.bind_eq_some_iff.mp hparse
    exact sound_object_nestingLimit_iff.mp (Json.sound_of_parse? hparse)
  · exact Json.fieldsSound_nil

theorem fieldsSound_load (w : World) :
  Json.FieldsSound (Json.nestingLimit - 1) (load w)
  := by
  rw [load]
  split
  · exact fieldsSound_fieldsOf _
  · exact Json.fieldsSound_nil

/-- The fields that are saved are loaded, with their floating-point numbers read back. -/
theorem load_save (hwrite : w.canWrite w.configFile = true)
    (h : Json.FieldsSound (Json.nestingLimit - 1) fields) :
  load (save w fields) = Json.readBackFields fields
  := by
  have hsound := sound_object_nestingLimit_iff.mpr h
  rw [save, if_pos hwrite, if_pos (Json.isPrintable_of_sound hsound), load]
  have hread {content : Bytes} : (w.write w.configFile content).readBytes
      (w.write w.configFile content).configFile = .ok content := World.readBytes_write hwrite
  rw [hread]
  exact fieldsOf_printIndented hsound

theorem load_saveOptions (hwrite : w.canWrite w.configFile = true) (hjoined : o.Joined)
    (hshort : o.Short) :
  load (saveOptions w o) = Json.readBackFields (setAll (load w) (fieldsOfOptions o))
  :=
  load_save hwrite
    (fieldsSound_setAll (fieldsSound_load w) (sound_fieldsOfOptions hjoined hshort))

theorem map_fst_readBackFields :
  (Json.readBackFields fields).map Prod.fst = fields.map Prod.fst
  := by
  rw [Json.readBackFields_eq_map, List.map_map]
  rfl

theorem optionsOf_saved (ho : o.Admissible) :
  optionsOf (Json.readBackFields (setAll fields (fieldsOfOptions o))) = o
  := by
  apply optionsOf_eq ho
  intro f hf
  have hnames : ((fieldsOfOptions o).map Prod.fst).Nodup := by
    rw [map_fst_fieldsOfOptions]
    exact nodup_optionNames
  rw [field?_readBackFields, field?_setAll_of_mem hnames hf, Option.map_some,
    readBack_of_mem_fieldsOfOptions hf]

/-- The options that are loaded are admissible, whatever the configuration file holds, and their
strings are joined.  Let such options be saved whose integers do not have too many digits, where a
file can be written.  Then they are the options that are loaded.  Each field that is no option has
the value that it had, if it had none or one without floating-point numbers.  The names that were
there are still there, before the others and in their order. -/
theorem loadOptions_saveOptions (w : World) :
  (loadOptions w).Admissible ∧ (loadOptions w).Joined
    ∧ ∀ o : Options, o.Admissible → o.Joined → o.Short → w.canWrite w.configFile = true →
      loadOptions (saveOptions w o) = o
      ∧ (∀ name ∉ optionNames,
        (∀ value, Json.field? (load w) name = some value → Json.hasFloat value = false) →
        Json.field? (load (saveOptions w o)) name = Json.field? (load w) name)
      ∧ (load w).map Prod.fst <+: (load (saveOptions w o)).map Prod.fst
  := by
  refine ⟨admissible_optionsOf _, joined_optionsOf (fieldsSound_load w), ?_⟩
  intro o ho hjoined hshort hwrite
  rw [loadOptions, load_saveOptions hwrite hjoined hshort]
  refine ⟨optionsOf_saved ho, ?_, ?_⟩
  · intro name hname hfloat
    rw [← map_fst_fieldsOfOptions (o := o)] at hname
    rw [field?_readBackFields, field?_setAll_of_notMem hname]
    cases hvalue : Json.field? (load w) name with
    | none => rfl
    | some value =>
        rw [Option.map_some, Json.readBack_of_not_hasFloat value (hfloat value hvalue)]
  · rw [map_fst_readBackFields]
    exact map_fst_prefix_setAll

/-- Options with half of a surrogate pair, saved where one of them is stored as something else,
beside a field with a nested array and a field with a floating-point number. -/
theorem loadOptions_saveOptions_nested :
  let text : Json := .array [.array [.bool true, .string [0x1F600, 0xDC00]]]
  let fields : Fields := [(key "tags", .int 3), (key "x", .float (.finite false 1 (-1))),
    (key "k", text)]
  let w := save ⟨FileTree.empty, [], [], ⟨.slash, ["d".toList, "c".toList]⟩, {}⟩ fields
  let o : Options := { indexes := [0xD800, 0x20, 0xDC00], historySize := 3, style := [0xD800] }
  o.Admissible ∧ o.Joined ∧ o.Short ∧ w.canWrite w.configFile = true ∧ key "k" ∉ optionNames
    ∧ Json.field? (load w) (key "k") = some text ∧ Json.hasFloat text = false
    ∧ (loadOptions w).Admissible ∧ (loadOptions w).Joined
    ∧ loadOptions (saveOptions w o) = o
    ∧ Json.field? (load (saveOptions w o)) (key "k") = some text
    ∧ (load w).map Prod.fst <+: (load (saveOptions w o)).map Prod.fst
  := by
  intro text fields w o
  have ho : o.Admissible := ⟨by decide, by decide, by decide, by decide, by decide⟩
  have hpairless : o.Joined :=
    ⟨⟨by decide, by simp [o, Json.IsFirstHalf, Json.IsSecondHalf]⟩, ⟨by decide, by simp [o]⟩⟩
  have hshort : o.Short := ⟨by decide, by decide, by decide⟩
  have hwrite : w.canWrite w.configFile = true := by decide
  have hname : key "k" ∉ optionNames := by decide
  have hjoined : Json.Joined [0x1F600, 0xDC00] :=
    ⟨by decide, by simp [Json.IsFirstHalf]⟩
  have htext (room : Nat) : Json.Sound (room + 2) text :=
    .array (List.forall_mem_singleton.mpr (.array (List.forall_mem_cons.mpr
      ⟨.bool true, List.forall_mem_singleton.mpr (.string hjoined)⟩)))
  have hsound : Json.FieldsSound (Json.nestingLimit - 1) fields := by
    refine ⟨by decide, ?_, ?_⟩
    · simp [fields, key, Json.joined_ofText]
    · exact List.forall_mem_cons.mpr ⟨.int (by decide), List.forall_mem_cons.mpr
        ⟨.float _, List.forall_mem_singleton.mpr (htext 967)⟩⟩
  have hload : load w = Json.readBackFields fields := load_save (by decide) hsound
  have hvalue : Json.field? (load w) (key "k") = some text := by
    rw [hload]
    rfl
  obtain ⟨hadmissible, hloaded, hsaved⟩ := loadOptions_saveOptions w
  obtain ⟨hoptions, hfields, hnames⟩ := hsaved o ho hpairless hshort hwrite
  refine ⟨ho, hpairless, hshort, hwrite, hname, hvalue, rfl, hadmissible, hloaded, hoptions, ?_,
    hnames⟩
  rw [hfields _ hname, hvalue]
  intro other hother
  obtain rfl := Option.some.inj (hvalue.symm.trans hother)
  rfl

/-- The two halves of a surrogate pair, one after the other, are read back as its character.  So
admissible options with such a string are never loaded. -/
theorem loadOptions_saveOptions_halves :
  let w : World := ⟨FileTree.empty, [], [], ⟨.slash, ["c".toList]⟩, {}⟩
  let o : Options := { indexes := [0xD800, 0xDC00] }
  o.Admissible ∧ ¬ o.Joined ∧ o.Short ∧ w.canWrite w.configFile = true
    ∧ loadOptions (saveOptions w o) = { o with indexes := [0x10000] }
  := by
  intro w o
  have ho : o.Admissible := ⟨by decide, by decide, by decide, by decide, by decide⟩
  refine ⟨ho, ?_, ⟨by decide, by decide, by decide⟩, by decide, by decide +kernel⟩
  intro h
  have hnot := List.isChain_pair.mp h.indexes.chain
  exact hnot ⟨⟨by decide, by decide⟩, by decide, by decide⟩

end Config

end TagNavigator
