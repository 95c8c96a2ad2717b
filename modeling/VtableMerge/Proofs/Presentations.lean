import VtableMerge.Proofs.ReadingBack

/-!
The presentations of an observation document. Its classes and the fields of its objects may stand
in any order, two fields have a second name, absent information may be left out, the objects of
observations and parameters may have further fields, and the text may be laid out and escaped in
any way. All of them are read as the same document.
-/
namespace VtableMerge

open Json

namespace Json

def entry (name : String) (raw : Raw) : Raw × Raw := (.string (some name), raw)

/-- Entries with other names than the known ones and with any values. -/
def AreFurther (known : List String) (entries : List (Raw × Raw)) : Prop :=
  ∀ e ∈ entries, ∃ name raw, e = entry name raw ∧ name ∉ known

theorem AreFurther.skips {αs : List Type} {fs : Fields αs} {known : List String}
    {further entries : List (Raw × Raw)} (h : AreFurther known further) (hnames : fs.names = known)
    (hwhole : (Raw.object entries true).isWhole = true) (hsub : further ⊆ entries) :
    ∀ e ∈ further, fs.Skips e := by
  rw [Raw.isWhole, Bool.and_true, Raw.entriesAreWhole_iff] at hwhole
  intro e he
  obtain ⟨name, raw, rfl, hname⟩ := h e he
  exact ⟨name, rfl, hnames ▸ hname, (hwhole _ (hsub he)).2⟩

/-- What lies in a whole object is whole. -/
theorem isWhole_of_entry_mem {name : String} {raw : Raw} {entries : List (Raw × Raw)}
    (hwhole : (Raw.object entries true).isWhole = true) (hmem : entry name raw ∈ entries) :
    raw.isWhole = true := by
  rw [Raw.isWhole, Bool.and_true, Raw.entriesAreWhole_iff] at hwhole
  exact (hwhole _ hmem).2

section Lists
variable {α β : Type} {shows : α → β → Prop} {values : List α} {items : List β}

/-- What holds of all members of two lists may be used to turn their relation around. -/
theorem forall₂_flip_of_mem {reads : β → α → Prop} (h : List.Forall₂ shows values items)
    (himp : ∀ a ∈ values, ∀ b ∈ items, shows a b → reads b a) :
    List.Forall₂ reads items values := by
  have hleft : List.Forall₂ (fun a b => a ∈ values ∧ shows a b) values items :=
    (List.forall₂_and_left _ _).mpr ⟨fun _ ha => ha, h⟩
  have hboth : List.Forall₂ (fun b a => b ∈ items ∧ a ∈ values ∧ shows a b) items values :=
    (List.forall₂_and_left _ _).mpr ⟨fun _ hb => hb, hleft.flip⟩
  exact hboth.imp fun b a ⟨hb, ha, hshows⟩ => himp a ha b hb hshows

end Lists

/-- The items of a whole array are read one by one. -/
theorem list_eq_ok {α : Type} {read : Reader α} {depth : Nat} {shows : α → Raw → Prop}
    {values : List α} {items : List Raw} (h : List.Forall₂ shows values items)
    (hwhole : (Raw.array items true).isWhole = true)
    (hread : ∀ a ∈ values, ∀ raw, shows a raw → raw.isWhole = true →
      read (depth + 1) raw = .ok a) :
    Reader.list read depth (.array items true) = .ok values := by
  rw [Raw.isWhole, Bool.and_true, Raw.areWhole_iff] at hwhole
  rw [Reader.list, each_eq_ok (forall₂_flip_of_mem h fun a ha raw hraw hshows =>
    hread a ha raw hshows (hwhole raw hraw))]
  rfl

end Json

namespace Param

/-- The ways to give a parameter's name. An absent one is null or left out. -/
inductive NameShownBy : Option String → List (Raw × Raw) → Prop
  | present (name : String) : NameShownBy (some name) [entry "name" (.string (some name))]
  | null : NameShownBy none [entry "name" .null]
  | leftOut : NameShownBy none []

inductive ShownBy (p : Param) : Raw → Prop
  | mk {name further entries : List (Raw × Raw)} (hname : NameShownBy p.name name)
      (hfurther : AreFurther ["type", "name"] further)
      (hentries : entries.Perm (entry "type" (.string (some p.type)) :: name ++ further)) :
      ShownBy p (.object entries true)

variable {depth : Nat}

theorem NameShownBy.fills {name : Option String} {shown : List (Raw × Raw)}
    (h : NameShownBy name shown) : (Fields.cons
      (.defaulted "name" Reader.string.optional none) .nil).Fills depth shown (name, ()) := by
  cases h with
  | present name => exact .cons rfl rfl .nil
  | null => exact .cons rfl rfl .nil
  | leftOut => exact .omitted rfl .nil

theorem reader_of_shownBy {p : Param} {raw : Raw} (h : p.ShownBy raw)
    (hwhole : raw.isWhole = true) : Param.reader depth raw = .ok p := by
  obtain @⟨name, further, entries, hname, hfurther, hentries⟩ := h
  have hfills : Param.fields.Fills (depth + 1) (entry "type" (.string (some p.type)) :: name)
      (p.type, p.name, ()) := .cons rfl rfl hname.fills
  have hskips : ∀ e ∈ further, Param.fields.Skips e := hfurther.skips rfl hwhole fun e he =>
    hentries.mem_iff.mpr (List.mem_append_right _ he)
  exact Fields.record_of_fills (by decide) hfills hskips hentries

end Param

namespace Observation

def fieldNames : List String :=
  ["vtable_index", "slot_index", "name", "mangled_name", "return_type", "parameters",
    "is_pure_virtual", "is_implemented_by_current_class", "implemented_here"]

/-- The ways to give a symbol. An empty one may be left out. -/
inductive SymbolShownBy : String → List (Raw × Raw) → Prop
  | present (symbol : String) :
      SymbolShownBy symbol [entry "mangled_name" (.string (some symbol))]
  | leftOut : SymbolShownBy "" []

def fieldEntries (o : Observation) (slotName flagName : String) (items : List Raw)
    (symbol : List (Raw × Raw)) : List (Raw × Raw) :=
  entry slotName (.number (Numeral.ofInt o.slotIndex)) :: entry "name" (.string (some o.name)) ::
    (symbol ++
      [entry "return_type" (.string (some o.returnType)), entry "parameters" (.array items true),
        entry "is_pure_virtual" (.bool o.isPureVirtual),
        entry flagName (.bool o.isImplementedHere)])

inductive ShownBy (o : Observation) : Raw → Prop
  | mk {slotName flagName : String} {items : List Raw} {symbol further entries : List (Raw × Raw)}
      (hslot : slotName = "vtable_index" ∨ slotName = "slot_index")
      (hflag : flagName = "is_implemented_by_current_class" ∨ flagName = "implemented_here")
      (hsymbol : SymbolShownBy o.mangledName symbol)
      (hitems : List.Forall₂ Param.ShownBy o.parameters items)
      (hfurther : AreFurther fieldNames further)
      (hentries : entries.Perm (o.fieldEntries slotName flagName items symbol ++ further)) :
      ShownBy o (.object entries true)

variable {depth : Nat}

theorem SymbolShownBy.fills {symbol : String} {shown entries : List (Raw × Raw)}
    {αs : List Type} {fs : Fields αs} {row : Row αs} (h : SymbolShownBy symbol shown)
    (hrest : fs.Fills depth entries row) :
    (Fields.cons (.defaulted "mangled_name" Reader.string "") fs).Fills depth (shown ++ entries)
      (symbol, row) := by
  cases h with
  | present symbol => exact .cons rfl rfl hrest
  | leftOut => exact .omitted rfl hrest

theorem reader_of_shownBy {o : Observation} {raw : Raw} (h : o.ShownBy raw)
    (hslotIndex : o.slotIndex < UInt64.size) (hwhole : raw.isWhole = true) :
    Observation.reader depth raw = .ok o := by
  obtain @⟨slotName, flagName, items, symbol, further, entries, hslot, hflag, hsymbol, hitems,
    hfurther, hentries⟩ := h
  have hparameters : Params.reader (depth + 1) (.array items true) = .ok o.parameters := by
    have hmem : entry "parameters" (.array items true) ∈ entries :=
      hentries.mem_iff.mpr (by simp [fieldEntries])
    exact list_eq_ok hitems (isWhole_of_entry_mem hwhole hmem) fun p _ raw hp hraw =>
      Param.reader_of_shownBy hp hraw
  have hslotRead : Reader.size (depth + 1) (.number (Numeral.ofInt o.slotIndex)) =
      .ok o.slotIndex := (restores_size hslotIndex).read
  have hslotAnswers :
      ((Field.required "vtable_index" Reader.size).alsoNamed "slot_index").answersTo slotName =
        true := by
    rcases hslot with rfl | rfl <;> rfl
  have hflagAnswers : ((Field.required "is_implemented_by_current_class" Reader.bool).alsoNamed
      "implemented_here").answersTo flagName = true := by
    rcases hflag with rfl | rfl <;> rfl
  have hfills : Observation.fields.Fills (depth + 1)
      (o.fieldEntries slotName flagName items symbol)
      (o.slotIndex, o.name, o.mangledName, o.returnType, o.parameters, o.isPureVirtual,
        o.isImplementedHere, ()) :=
    .cons hslotAnswers hslotRead <| .cons rfl rfl <| hsymbol.fills <|
      .cons rfl rfl <| .cons rfl hparameters <| .cons rfl rfl <| .cons hflagAnswers rfl .nil
  have hskips : ∀ e ∈ further, Observation.fields.Skips e := hfurther.skips rfl hwhole fun e he =>
    hentries.mem_iff.mpr (List.mem_append_right _ he)
  exact Fields.record_of_fills (by decide) hfills hskips hentries

end Observation

namespace ObservationDocument

/-- The objects that show a document: its classes, each once and in any order. -/
inductive ShownBy (d : ObservationDocument) : Raw → Prop
  | mk {classes : ObservationDocument} {entries : List (Raw × Raw)} (hclasses : classes.Perm d)
      (hentries : List.Forall₂ (fun c e => ∃ items, e = entry c.1 (.array items true) ∧
        List.Forall₂ Observation.ShownBy c.2 items) classes entries) :
      ShownBy d (.object entries true)

theorem reader_of_shownBy {d : ObservationDocument} {raw : Raw} {depth : Nat}
    (hd : Keyed.Ascending d) (hslots : ∀ c ∈ d, ∀ o ∈ c.2, o.slotIndex < UInt64.size)
    (h : d.ShownBy raw) (hwhole : raw.isWhole = true) :
    ObservationDocument.reader depth raw = .ok d := by
  obtain @⟨classes, entries, hclasses, hentries⟩ := h
  have hread : List.Forall₂ (fun e c => e.1 = .string (some c.1) ∧
      Observation.reader.list (depth + 1) e.2 = .ok c.2) entries classes := by
    refine forall₂_flip_of_mem hentries ?_
    rintro c hc _ he ⟨items, rfl, hitems⟩
    refine ⟨rfl, list_eq_ok hitems (isWhole_of_entry_mem hwhole he) fun o ho raw hshown hraw => ?_⟩
    exact Observation.reader_of_shownBy hshown (hslots c (hclasses.mem_iff.mp hc) o ho) hraw
  rw [reader, Reader.keyed, entries_eq_ok hread]
  exact congrArg Except.ok (Keyed.ofEntries_of_perm hclasses hd)

end ObservationDocument

namespace Load
variable {d : ObservationDocument} {raw : Raw} {before text behind : List Char}

/-- A text that shows a document is read as the document, however it is laid out and escaped. -/
theorem observations_of_shownBy (path : String) (hd : Keyed.Ascending d)
    (hslots : ∀ c ∈ d, ∀ o ∈ c.2, o.slotIndex < UInt64.size)
    (hshown : ObservationDocument.ShownBy d raw) (htext : Spells text raw)
    (hbefore : Blank before) (hbehind : Blank behind) :
    observations path (Utf8.encode (before ++ (text ++ behind))) = .ok d := by
  have hread : ObservationDocument.reader 0 raw = .ok d :=
    ObservationDocument.reader_of_shownBy hd hslots hshown (isWhole_of_spells htext)
  have hbytes : Raw.ofBytes (Utf8.encode (before ++ (text ++ behind))) = ⟨raw, true⟩ := by
    rw [Raw.ofBytes, Utf8.symbols_encode]
    exact Raw.parse_of_spells hbefore htext hbehind
  simp only [observations, document, Reader.ofBytes, hbytes, hread, bind, Except.bind, if_true]
  rfl

/-- An observation without a symbol, of a method with one unnamed parameter. -/
def readObservation : Observation :=
  { Observation.concrete 3 "read" with
    returnType := "int", parameters := [⟨"char", none⟩], isImplementedHere := true }

def charValue : Value := .object [("name", .null), ("type", .string "char")]

def notesValue : Value := .array [.object [("name", .null)], .nat 1]

/-- An object that shows the observation backwards and under the second names. -/
def readValue : Value :=
  .object
    [("notes", notesValue), ("implemented_here", .bool true), ("is_pure_virtual", .bool false),
      ("parameters", .array [charValue]), ("return_type", .string "int"),
      ("name", .string "read"), ("slot_index", .nat 3)]

theorem integral_readValue : readValue.Integral := by
  have hchar : charValue.Integral :=
    .object (List.forall_mem_cons.mpr ⟨.null, List.forall_mem_singleton.mpr (.string "char")⟩)
  have hparameters : (Value.array [charValue]).Integral :=
    .array (List.forall_mem_singleton.mpr hchar)
  have hnotes : notesValue.Integral :=
    .array (List.forall_mem_cons.mpr ⟨.object (List.forall_mem_singleton.mpr .null),
      List.forall_mem_singleton.mpr (.int 1)⟩)
  have hslot : (Value.nat 3).Integral := .int 3
  refine .object ?_
  simp [hnotes, hparameters, hslot, Value.Integral.bool, Value.Integral.string]

theorem shownBy_readValue : readObservation.ShownBy readValue.raw := by
  have hparam : Param.ShownBy ⟨"char", none⟩ charValue.raw :=
    .mk .null (List.forall_mem_nil _) (.swap _ _ [])
  have hentries := List.reverse_perm
    (readObservation.fieldEntries "slot_index" "implemented_here" [charValue.raw] [] ++
      [entry "notes" notesValue.raw])
  exact .mk (.inr rfl) (.inr rfl) .leftOut (.cons hparam .nil)
    (List.forall_mem_singleton.mpr ⟨"notes", _, rfl, by decide⟩) hentries

def observedValue : Value := .object [("Disk", .array [readValue]), ("Card", .array [])]

theorem observations_of_shownBy_sample :
    Keyed.Ascending [("Card", []), ("Disk", [readObservation])] ∧
      ObservationDocument.ShownBy [("Card", []), ("Disk", [readObservation])] observedValue.raw ∧
      Spells (render .pretty 0 observedValue) observedValue.raw ∧ Blank [' '] ∧ Blank ['\n'] ∧
      observations "obs/a.json"
        (Utf8.encode ([' '] ++ (render .pretty 0 observedValue ++ ['\n']))) =
        .ok [("Card", []), ("Disk", [readObservation])] := by
  have hd : Keyed.Ascending [("Card", []), ("Disk", [readObservation])] :=
    List.pairwise_pair.mpr (String.lt_iff_toList_lt.mpr (by decide))
  have hshown : ObservationDocument.ShownBy [("Card", []), ("Disk", [readObservation])]
      observedValue.raw :=
    .mk (.swap _ _ []) (.cons ⟨_, rfl, .cons shownBy_readValue .nil⟩ (.cons ⟨_, rfl, .nil⟩ .nil))
  have hintegral : observedValue.Integral :=
    .object (List.forall_mem_cons.mpr ⟨.array (List.forall_mem_singleton.mpr integral_readValue),
      List.forall_mem_singleton.mpr (.array (List.forall_mem_nil _))⟩)
  have htext := spells_render .pretty hintegral 0
  have hspace : Blank [' '] := by simp [Blank, blanks]
  have hline : Blank ['\n'] := by simp [Blank, blanks]
  have hslots : ∀ c ∈ [("Card", []), ("Disk", [readObservation])], ∀ o ∈ c.2,
      o.slotIndex < UInt64.size := by decide
  exact ⟨hd, hshown, htext, hspace, hline,
    observations_of_shownBy "obs/a.json" hd hslots hshown htext hspace hline⟩

end Load

end VtableMerge
