import VtableMerge.Proofs.MergeRuns

/-!
The hierarchy document in a merge. The class and the prototype document never replace it, under
whatever paths. The report does where its path leads to it, since it is not compared with the
input.
-/
namespace VtableMerge.Run

open FileTree

variable {t t₁ : FileTree} {current : Location} {settings : Settings}
  {classesPath observationsDir generatedAt : String} {writeReport : Bool}

/-- The hierarchy document is where it was after directories are made. -/
theorem Prepares.exists_located {a : Artifacts} (hbuilds : Builds t t₁)
    (h : Prepares t current settings classesPath observationsDir generatedAt a) :
    ∃ c content, t.locate current classesPath = .ok c ∧
      t.readFile current classesPath = .ok content ∧ t₁.locate current classesPath = .ok c ∧
      t₁.entry? c = some (.file content) := by
  obtain ⟨hierarchy, loaded, hload, -⟩ := h.loaded
  obtain ⟨content, hread, -⟩ := (ends_hierarchyFile hload).2 hierarchy rfl
  obtain ⟨c, hlocated, hc⟩ := readFile_eq_ok_iff.mp hread
  exact ⟨c, content, hlocated, hread, locate_mono hbuilds.toKeeps hlocated,
    (hbuilds.sameFiles c content).mpr hc⟩

section Report
variable {a : Artifacts} {outDir : String} {pretty : Bool} {failure : Option (String × OsError)}
  {c : Location} {content : List UInt8}

structure OverwritesWithReport (current : Location) (a : Artifacts) (outDir : String)
    (pretty writeReport : Bool) (failure : Option (String × OsError)) (c : Location)
    (t : FileTree) : Prop where
  asked : writeReport = true
  complete : failure = none
  located : t.locate current (Path.join outDir reportFile) = .ok c
  entry : t.entry? c =
    some (.file ((writtenReport a outDir writeReport).toJson.documentBytes (layout pretty)))

/-- Writing the report leaves a file as it is or puts the report there. -/
theorem report_spares_or_replaces (ht : t.WellFormed) (hc : t.entry? c = some (.file content))
    (h : Attempts current t (reportDocuments a outDir pretty writeReport) failure t₁) :
    t₁.entry? c = some (.file content) ∨
      OverwritesWithReport current a outDir pretty writeReport failure c t₁ := by
  cases writeReport with
  | false =>
    cases h
    exact .inl hc
  | true =>
    cases h with
    | failed => exact .inl hc
    | wrote hwrite hrest =>
      cases hrest
      obtain ⟨x, hx⟩ := writes_of_writeFile ht hwrite
      by_cases hne : c = x
      · subst hne
        exact .inr ⟨rfl, rfl, hx.located, hx.toGrafts.entry?_self⟩
      · exact .inl ((hx.toGrafts.entry?_of_ne hne).trans hc)

/-- The tables are compared with the hierarchy document and spare it. -/
theorem documents_spare_or_replace (ht : t.WellFormed)
    (hlocated : t.locate current classesPath = .ok c) (hc : t.entry? c = some (.file content))
    (hapart : ∀ doc ∈ tableDocuments a outDir pretty,
      t.sameEntry current classesPath doc.1 = false)
    (h : Attempts current t
      (tableDocuments a outDir pretty ++ reportDocuments a outDir pretty writeReport) failure t₁) :
    t₁.entry? c = some (.file content) ∨
      OverwritesWithReport current a outDir pretty writeReport failure c t₁ := by
  have helsewhere : ∀ doc ∈ tableDocuments a outDir pretty,
      t.locate current doc.1 ≠ .ok c := by
    intro doc hdoc hsame
    have htrue := sameEntry_eq_true_iff.mpr ⟨c, hlocated, hsame⟩
    rw [hapart doc hdoc] at htrue
    cases htrue
  rcases h.of_append with ⟨htables, -⟩ | ⟨t₂, htables, hreport⟩
  · exact .inl (htables.spares ht hc helsewhere)
  · have ht₂ := (htables.keeps ht).wellFormed ht
    exact report_spares_or_replaces ht₂ (htables.spares ht hc helsewhere) hreport

end Report

def ReportReplaces (current : Location) (settings : Settings) (classesPath : String)
    (r : Except Failure MergeReport) (t₁ : FileTree) : Prop :=
  t₁.sameEntry current classesPath (Path.join settings.outDir.value reportFile) = true ∧
    ∃ report, r = .ok report ∧ t₁.readFile current classesPath =
      .ok (report.toJson.documentBytes (layout settings.pretty.value))

/-- After a merge, whether it succeeds or fails, the path of the hierarchy document leads where it
led before, and the document is the same, unless a report was asked for and replaced it. -/
theorem readFile_of_ends_merge {r : Except Failure MergeReport} (ht : t.WellFormed)
    (hend : Ends (merge (fileSystem current) settings classesPath observationsDir writeReport
      generatedAt) t r t₁) :
    t₁.locate current classesPath = t.locate current classesPath ∧
      (t₁.readFile current classesPath = t.readFile current classesPath ∨
        writeReport = true ∧ ReportReplaces current settings classesPath r t₁) := by
  cases endings_of_ends hend with
  | refused f => exact ⟨rfl, .inl rfl⟩
  | stopped f hprepares hbuilds =>
    obtain ⟨c, content, hlocated, hread, hlocated₁, hc⟩ := hprepares.exists_located hbuilds
    refine ⟨hlocated₁.trans hlocated.symm, .inl ?_⟩
    rw [hread]
    exact readFile_eq_ok_iff.mpr ⟨c, hlocated₁, hc⟩
  | wrote hprepares hbuilds hapart hattempts =>
    obtain ⟨c, content, hlocated, hread, hlocated', hc⟩ := hprepares.exists_located hbuilds
    have ht' := hbuilds.wellFormed ht
    have hlocated₁ := locate_mono (hattempts.keeps ht') hlocated'
    refine ⟨hlocated₁.trans hlocated.symm, ?_⟩
    rw [hread]
    rcases documents_spare_or_replace ht' hlocated' hc hapart hattempts with
      hkept | ⟨hasked, rfl, hreport, hnew⟩
    · exact .inl (readFile_eq_ok_iff.mpr ⟨c, hlocated₁, hkept⟩)
    · exact .inr ⟨hasked, sameEntry_eq_true_iff.mpr ⟨c, hlocated₁, hreport⟩, _, rfl,
        readFile_eq_ok_iff.mpr ⟨c, hlocated₁, hnew⟩⟩

def reportNamedTree : FileTree :=
  ⟨[(["obs"], .directory), (["report.json"], .file [0x5B, 0x5D])], []⟩

/-- Without a report the hierarchy document of that name survives. -/
theorem readFile_of_ends_merge_sample :
    reportNamedTree.WellFormed ∧
      ((merge (fileSystem []) Settings.defaults "report.json" "obs" false "").run.run
        reportNamedTree).2.readFile [] "report.json" =
          reportNamedTree.readFile [] "report.json" := by
  have ht : reportNamedTree.WellFormed := by decide
  obtain ⟨r, t₁, hend⟩ := exists_ends
    (merge (fileSystem []) Settings.defaults "report.json" "obs" false "") reportNamedTree
  obtain ⟨-, hread | ⟨hasked, -⟩⟩ := readFile_of_ends_merge ht hend
  · rw [show _ = (r, t₁) from hend]
    exact ⟨ht, hread⟩
  · cases hasked

/-- With a report it does not. -/
theorem report_replaces_hierarchy_document :
    reportNamedTree.WellFormed ∧
      (reportNamedTree.readFile [] "report.json").toOption = some [0x5B, 0x5D] ∧
      (((merge (fileSystem []) Settings.defaults "report.json" "obs" true "").run.run
        reportNamedTree).2.readFile [] "report.json").toOption ≠ some [0x5B, 0x5D] := by
  decide +kernel

end VtableMerge.Run
