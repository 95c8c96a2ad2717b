import VtableMerge.Proofs.ExportedDocuments
import VtableMerge.Proofs.SameLinks

/-!
Every type of document is read back from its text, compact or pretty: the types of the inputs, of
the exported documents and of the report. Strings are arbitrary and numbers have the size of their
type. Fields that are left out when they have no value read as no value, so nothing is lost; only
the vtable of a hierarchy node is no part of its text.
-/
namespace VtableMerge

open Json

variable {depth : Nat}

section Inputs

/-- A class is read back without its vtable. -/
theorem ClassNode.restores (c : ClassNode) : Restores ClassNode.reader depth c.toJson c.bare :=
  restores_record (by decide) <|
    .cons (restores_string c.name) <| .cons (restores_optional_string c.parent) <|
    .cons (restores_bool c.isAbstract) .nil

theorem ClassNode.bare_eq_self {c : ClassNode} (hplain : c.slots = none) : c.bare = c := by
  rw [ClassNode.bare, ← hplain]

theorem ClassNode.restores_nodes (nodes : List ClassNode) :
    Restores ClassNode.reader.list depth (.list ClassNode.toJson nodes)
      (nodes.map ClassNode.bare) := by
  -- What is written of a class does not show its vtable.
  have hwritten : Value.list ClassNode.toJson nodes =
      .list ClassNode.toJson (nodes.map ClassNode.bare) := by
    rw [Value.list, Value.list, List.map_map]
    rfl
  rw [hwritten]
  refine restores_list fun c hc => ?_
  obtain ⟨d, -, rfl⟩ := List.mem_map.mp hc
  exact d.restores

theorem Observation.restores {o : Observation} (ho : o.slotIndex < UInt64.size) :
    Restores Observation.reader depth o.toJson o :=
  restores_record (by decide) <|
    .cons (restores_size ho) <| .cons (restores_string o.name) <|
    .cons (restores_string o.mangledName) <| .cons (restores_string o.returnType) <|
    .cons (Params.restores o.parameters) <| .cons (restores_bool o.isPureVirtual) <|
    .cons (restores_bool o.isImplementedHere) .nil

theorem ObservationDocument.restores {d : ObservationDocument} (hd : Keyed.Ascending d)
    (hslots : ∀ e ∈ d, ∀ o ∈ e.2, o.slotIndex < UInt64.size) :
    Restores ObservationDocument.reader depth (ObservationDocument.toJson d) d :=
  restores_keyed hd fun e he => restores_list fun o ho => Observation.restores (hslots e he o ho)

end Inputs

section Tables

/-- A record of the table. -/
theorem Prototype.restores_toJson {p : Prototype} (hp : p.slotIndex < UInt64.size) :
    Restores Prototype.reader depth p.toJson p :=
  restores_record (by decide) <|
    .cons p.id.restores <| .cons (restores_string p.name) <|
    .cons (restores_string p.mangledName) <| .cons (restores_string p.returnType) <|
    .cons (Params.restores p.parameters) <| .cons (restores_size hp) <|
    .cons (restores_string p.declaringClass) .nil

/-- A slot of the table of vtables. Its symbol is always written, as null where there is none. -/
theorem VtableSlot.restores_toJson (s : VtableSlot) :
    Restores VtableSlot.reader depth s.toJson s :=
  restores_record (by decide) <|
    .cons s.id.restores <| .cons (restores_bool s.isOverridden) <|
    .cons (restores_bool s.isPureVirtual) <| .cons (restores_optional_string s.mangledName) .nil

end Tables

section Reports

theorem DiagnosticKind.restores (k : DiagnosticKind) :
    Restores DiagnosticKind.reader depth k.toJson k :=
  restores_choice (by cases k <;> decide)

theorem DiagnosticCategory.restores (c : DiagnosticCategory) :
    Restores DiagnosticCategory.reader depth c.toJson c :=
  restores_choice (by cases c <;> decide)

/-- A diagnostic about a whole class has no slot in its text either. -/
theorem Diagnostic.restores {d : Diagnostic}
    (hd : ∀ slotIndex, d.slotIndex = some slotIndex → slotIndex < UInt64.size) :
    Restores Diagnostic.reader depth d.toJson d :=
  restores_record (by decide) <|
    .cons (restores_string d.className) <|
    .present (fun slotIndex h => ⟨restores_size (hd slotIndex h), nofun⟩) <|
    .cons d.kind.restores <| .cons d.category.restores <| .cons (restores_string d.detail) .nil

def ReportCounts.all (c : ReportCounts) : List Nat :=
  [c.classes, c.classesResolved, c.classesUnobserved, c.classesFailed, c.classesDropped,
    c.prototypes, c.placeholdersSynthesized, c.gettersFixed, c.diagnostics]

theorem ReportCounts.restores {c : ReportCounts} (hc : ∀ n ∈ c.all, n < UInt64.size) :
    Restores ReportCounts.reader depth c.toJson c := by
  simp only [ReportCounts.all, List.forall_mem_cons] at hc
  obtain ⟨hclasses, hresolved, hunobserved, hfailed, hdropped, hprototypes, hplaceholders,
    hgetters, hdiagnostics, -⟩ := hc
  exact restores_record (by decide) <|
    .cons (restores_size hclasses) <| .cons (restores_size hresolved) <|
    .cons (restores_size hunobserved) <| .cons (restores_size hfailed) <|
    .cons (restores_size hdropped) <| .cons (restores_size hprototypes) <|
    .cons (restores_size hplaceholders) <| .cons (restores_size hgetters) <|
    .cons (restores_size hdiagnostics) .nil

theorem WrittenOutputs.restores (o : WrittenOutputs) :
    Restores WrittenOutputs.reader depth o.toJson o := by
  have hfields : Presents (depth + 1) WrittenOutputs.fields
      ([("classes", .string o.classes), ("prototypes", .string o.prototypes)]
        ++ (Value.present "report" .string o.report ++ []))
      (o.classes, o.prototypes, o.report, ()) :=
    .cons (restores_string o.classes) <| .cons (restores_string o.prototypes) <|
      .present (fun report _ => ⟨restores_string report, nofun⟩) .nil
  rw [List.append_nil] at hfields
  exact restores_record (by decide) hfields

end Reports

def textBytes (layout : Layout) (v : Value) : List UInt8 := Utf8.encodeString (v.text layout)

def ReadsBack {α : Type} (read : Reader α) (write : α → Value) (a : α) : Prop :=
  ∀ layout, read.ofBytes (textBytes layout (write a)) = .ok a

theorem Json.Restores.readsBack {α : Type} {read : Reader α} {write : α → Value} {a : α}
    (h : Restores read 0 (write a) a) : ReadsBack read write a := h.ofText

section Loading

/-- Loading the text of a list of classes gives their hierarchy or a name that is repeated. -/
theorem Load.hierarchy_text (path : String) (layout : Layout) (nodes : List ClassNode) :
    Load.hierarchy path (textBytes layout (.list ClassNode.toJson nodes)) =
      (Hierarchy.ofNodes (nodes.map ClassNode.bare)).mapError (.duplicateClass path) := by
  have hnodes : ClassNode.reader.list.ofBytes
      (textBytes layout (.list ClassNode.toJson nodes)) = .ok (nodes.map ClassNode.bare) :=
    (ClassNode.restores_nodes nodes).ofText layout
  rw [Load.hierarchy, Load.document, hnodes]
  simp only [bind, Except.bind]
  cases Hierarchy.ofNodes (nodes.map ClassNode.bare) <;> rfl

theorem Load.hierarchy_of_nodup (path : String) (layout : Layout) {nodes : List ClassNode}
    (hplain : ∀ c ∈ nodes, c.slots = none) (hdistinct : (nodes.map ClassNode.name).Nodup) :
    Load.hierarchy path (textBytes layout (.list ClassNode.toJson nodes)) =
      .ok ⟨nodes, hdistinct⟩ := by
  have hbare : nodes.map ClassNode.bare = nodes :=
    (List.map_congr_left fun c hc => ClassNode.bare_eq_self (hplain c hc)).trans
      (List.map_id nodes)
  rw [Load.hierarchy_text]
  simp only [hbare, Hierarchy.ofNodes_of_nodup hdistinct]
  rfl

theorem Load.hierarchy_of_not_nodup (path : String) (layout : Layout) {nodes : List ClassNode}
    (hrepeated : ¬ (nodes.map ClassNode.name).Nodup) : ∃ before name after,
      nodes.map ClassNode.name = before ++ name :: after ∧ before.Nodup ∧ name ∈ before ∧
        Load.hierarchy path (textBytes layout (.list ClassNode.toJson nodes)) =
          .error (.duplicateClass path name) := by
  have hnames := ClassNode.map_name_of_bare_eq (f := ClassNode.bare) (fun _ => rfl) nodes
  rw [← hnames] at hrepeated ⊢
  obtain ⟨before, name, after, hsplit, hnodup, hagain, herror⟩ :=
    Hierarchy.ofNodes_of_not_nodup hrepeated
  exact ⟨before, name, after, hsplit, hnodup, hagain, by rw [Load.hierarchy_text, herror]; rfl⟩

theorem Load.observations_text (path : String) (layout : Layout) {d : ObservationDocument}
    (hd : Keyed.Ascending d) (hslots : ∀ e ∈ d, ∀ o ∈ e.2, o.slotIndex < UInt64.size) :
    Load.observations path (textBytes layout (ObservationDocument.toJson d)) = .ok d := by
  rw [Load.observations, Load.document, textBytes,
    (ObservationDocument.restores hd hslots).ofText layout]

end Loading

/-- What is written as one of the types of documents is read back as it was. -/
structure DocumentsSurvive : Prop where
  params : ∀ p : Param, ReadsBack Param.reader Param.toJson p
  nodes : ∀ c : ClassNode, c.slots = none → ReadsBack ClassNode.reader ClassNode.toJson c
  observations : ∀ o : Observation, o.slotIndex < UInt64.size →
    ReadsBack Observation.reader Observation.toJson o
  records : ∀ p : Prototype, p.slotIndex < UInt64.size →
    ReadsBack Prototype.reader Prototype.toJson p
  slots : ∀ s : VtableSlot, ReadsBack VtableSlot.reader VtableSlot.toJson s
  diagnostics : ∀ d : Diagnostic, (∀ i, d.slotIndex = some i → i < UInt64.size) →
    ReadsBack Diagnostic.reader Diagnostic.toJson d
  entries : ∀ p : Prototype, p.slotIndex < UInt64.size →
    ReadsBack Prototype.entryReader Prototype.toEntryJson p
  encodedSlots : ∀ e : EncodedSlot, ReadsBack EncodedSlot.reader EncodedSlot.toJson e
  classes : ∀ c : ClassEntry, ReadsBack ClassEntry.reader ClassEntry.toJson c
  counts : ∀ c : ReportCounts, (∀ n ∈ c.all, n < UInt64.size) →
    ReadsBack ReportCounts.reader ReportCounts.toJson c
  outputs : ∀ o : WrittenOutputs, ReadsBack WrittenOutputs.reader WrittenOutputs.toJson o
  /-- Classes of distinct names are loaded as the hierarchy of just these, in their order. -/
  hierarchies : ∀ path layout (nodes : List ClassNode), (∀ c ∈ nodes, c.slots = none) →
    (nodes.map ClassNode.name).Nodup →
    ∃ h, Load.hierarchy path (textBytes layout (.list ClassNode.toJson nodes)) = .ok h ∧
      h.nodes = nodes
  /-- Otherwise the first name is told that the names before it hold already. -/
  repetitions : ∀ path layout (nodes : List ClassNode), ¬ (nodes.map ClassNode.name).Nodup →
    ∃ before name after, nodes.map ClassNode.name = before ++ name :: after ∧ before.Nodup ∧
      name ∈ before ∧ Load.hierarchy path (textBytes layout (.list ClassNode.toJson nodes)) =
        .error (.duplicateClass path name)
  /-- A map, which holds its keys in their order, is loaded as it is. -/
  maps : ∀ path layout (d : ObservationDocument), Keyed.Ascending d →
    (∀ e ∈ d, ∀ o ∈ e.2, o.slotIndex < UInt64.size) →
    Load.observations path (textBytes layout (ObservationDocument.toJson d)) = .ok d

theorem documentsSurvive : DocumentsSurvive where
  params p := p.restores.readsBack
  nodes c hplain := by
    have h := @ClassNode.restores 0 c
    rw [ClassNode.bare_eq_self hplain] at h
    exact h.readsBack
  observations _ ho := (Observation.restores ho).readsBack
  records _ hp := (Prototype.restores_toJson hp).readsBack
  slots s := s.restores_toJson.readsBack
  diagnostics _ hd := (Diagnostic.restores hd).readsBack
  entries _ hp := (Prototype.restores hp).readsBack
  encodedSlots e := (e.restores (by decide)).readsBack
  classes c := (c.restores (by decide)).readsBack
  counts _ hc := (ReportCounts.restores hc).readsBack
  outputs o := o.restores.readsBack
  hierarchies path layout nodes hplain hdistinct :=
    ⟨⟨nodes, hdistinct⟩, Load.hierarchy_of_nodup path layout hplain hdistinct, rfl⟩
  repetitions path layout _ hrepeated := Load.hierarchy_of_not_nodup path layout hrepeated
  maps path layout _ hd hslots := Load.observations_text path layout hd hslots

/-- The last slot index, a name with quotes, a control character and one beyond 16 bits, a
diagnostic without a slot, two classes, and a map of two keys. -/
theorem documentsSurvive_sample :
    ReadsBack Observation.reader Observation.toJson
        (.concrete (UInt64.size - 1) "say \"\u0007\\ 🂡\"") ∧
      ReadsBack Diagnostic.reader Diagnostic.toJson
        (.ofClass "Stray" .missingParent "parent Lost is not in the hierarchy") ∧
      (∃ h, Load.hierarchy "h.json" (textBytes .pretty
          (.list ClassNode.toJson [.root "Shape", .root "Äther"])) = .ok h ∧
        h.nodes = [.root "Shape", .root "Äther"]) ∧
      Load.observations "o.json" (textBytes .compact (ObservationDocument.toJson
          [("Shape", [.pureVirtual 0]), ("Äther", [])])) =
        .ok [("Shape", [.pureVirtual 0]), ("Äther", [])] := by
  refine ⟨documentsSurvive.observations _ (by decide), documentsSurvive.diagnostics _ nofun,
    documentsSurvive.hierarchies _ _ _ (by decide) (by decide), documentsSurvive.maps _ _ _ ?_ ?_⟩
  · unfold Keyed.Ascending
    decide
  · decide

end VtableMerge
