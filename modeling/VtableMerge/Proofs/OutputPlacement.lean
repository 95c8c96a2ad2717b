import VtableMerge.Proofs.MergeRuns

/-!
The documents of a merge and the directory of the observations. The two directories are compared
before any directory is made. So documents get among the observations in three ways only: by the
empty path, which is not compared with anything, by a path that led nowhere before its
directories were made, and by a link with the name of a document.
-/
namespace VtableMerge.Run

open FileTree

variable {t t₁ : FileTree} {current d : Location} {settings : Settings}
  {classesPath observationsDir generatedAt outDir : String} {writeReport : Bool}

def documentNames (writeReport : Bool) : List String :=
  [classesFile, prototypesFile] ++ if writeReport then [reportFile] else []

theorem exists_documentName {a : Artifacts} {pretty : Bool} {doc : String × List UInt8}
    (hdoc : doc ∈ tableDocuments a outDir pretty ++ reportDocuments a outDir pretty writeReport) :
    ∃ name ∈ documentNames writeReport, doc.1 = Path.join outDir name := by
  cases writeReport with
  | false =>
    simp only [tableDocuments, reportDocuments, Bool.false_eq_true, if_false, List.append_nil,
      List.mem_cons, List.not_mem_nil, or_false] at hdoc
    rcases hdoc with rfl | rfl
    · exact ⟨classesFile, by simp [documentNames], rfl⟩
    · exact ⟨prototypesFile, by simp [documentNames], rfl⟩
  | true =>
    simp only [tableDocuments, reportDocuments, if_true, List.mem_append, List.mem_cons,
      List.not_mem_nil, or_false] at hdoc
    rcases hdoc with (rfl | rfl) | rfl
    · exact ⟨classesFile, by simp [documentNames], rfl⟩
    · exact ⟨prototypesFile, by simp [documentNames], rfl⟩
    · exact ⟨reportFile, by simp [documentNames], rfl⟩

theorem isName_of_mem_documentNames {name : String} (hname : name ∈ documentNames writeReport) :
    IsName name ∧ '/' ∉ name.toList := by
  have hall : ∀ name ∈ documentNames true,
      (name.isEmpty = false ∧ name ≠ "." ∧ name ≠ "..") ∧ '/' ∉ name.toList := by decide
  have hmem : name ∈ documentNames true := by
    cases writeReport with
    | true => exact hname
    | false => exact List.mem_append_left _ (by simpa [documentNames] using hname)
  obtain ⟨⟨hnonempty, hhere, habove⟩, hslash⟩ := hall name hmem
  exact ⟨⟨hnonempty, hhere, habove⟩, hslash⟩

/-- How documents get into a directory that is not to receive them. -/
inductive Evades (t t₁ : FileTree) (current : Location) (outDir : String) (writeReport : Bool)
    (d : Location) : Prop
  /-- The empty path denotes the current directory, but leads nowhere. -/
  | unnamed (hempty : outDir.isEmpty = true) (hcurrent : current = d)
  /-- The path leads to the directory since directories were made for it. -/
  | made (hbefore : t.status current outDir = .missing)
      (hafter : t₁.locate current outDir = .ok d)
  /-- A link with the name of a document leads there. -/
  | linked {o name target x} (hname : name ∈ documentNames writeReport)
      (ho : Receives t₁ current outDir o) (hlink : t₁.entry? (o ++ [name]) = some (.link target))
      (hx : t₁.locate current (Path.join outDir name) = .ok x) (hinside : x.dropLast = d)

/-- A document in another directory than the compared one got there in one of the three ways. -/
theorem evades_of_located (hkeeps : Keeps t t₁) (hd : t.locate current observationsDir = .ok d)
    (hapart : t.sameEntry current observationsDir outDir = false) {name : String}
    (hname : name ∈ documentNames writeReport) {x : Location}
    (hx : t₁.locate current (Path.join outDir name) = .ok x) (hinside : x.dropLast = d) :
    Evades t t₁ current outDir writeReport d := by
  obtain ⟨hentry, hslash⟩ := isName_of_mem_documentNames hname
  obtain ⟨o, ho, ⟨target, hlink⟩ | rfl⟩ := exists_receives hentry hslash hx
  · exact .linked hname ho hlink hx hinside
  · rw [List.dropLast_concat] at hinside
    subst hinside
    rw [Receives] at ho
    cases hempty : outDir.isEmpty with
    | true =>
      rw [if_pos hempty] at ho
      exact .unnamed hempty ho.symm
    | false =>
      rw [if_neg (by simp [hempty])] at ho
      refine .made ?_ ho
      rw [status]
      cases hbefore : t.locate current outDir with
      | error e => rfl
      | ok o' =>
        have hsame : o' = o := Except.ok.inj ((locate_mono hkeeps hbefore).symm.trans ho)
        subst hsame
        rw [sameEntry_eq_true_iff.mpr ⟨o', hd, hbefore⟩] at hapart
        cases hapart

/-- A merge, whether it succeeds or fails, changes no file directly inside the directory of the
observations, unless a document gets there in one of the three ways. -/
theorem spares_observations_of_ends_merge {r : Except Failure MergeReport} (ht : t.WellFormed)
    (hd : t.locate current observationsDir = .ok d)
    (hend : Ends (merge (fileSystem current) settings classesPath observationsDir writeReport
      generatedAt) t r t₁) :
    (∀ x : Location, x.dropLast = d → ∀ content,
      t₁.entry? x = some (.file content) ↔ t.entry? x = some (.file content)) ∨
    Evades t t₁ current settings.outDir.value writeReport d := by
  cases endings_of_ends hend with
  | refused f => exact .inl fun _ _ _ => Iff.rfl
  | stopped f _ hbuilds => exact .inl fun x _ => hbuilds.sameFiles x
  | wrote hprepares hbuilds _ hattempts =>
    have ht' := hbuilds.wellFormed ht
    have hkeeps := hbuilds.toKeeps.trans (hattempts.keeps ht')
    refine Classical.or_iff_not_imp_right.mpr fun hevades x hinside content => ?_
    rcases hattempts.changes ht' x with hsame | ⟨doc, hdoc, hx⟩
    · rw [hsame]
      exact hbuilds.sameFiles x content
    · obtain ⟨name, hname, hpath⟩ := exists_documentName hdoc
      rw [hpath] at hx
      exact absurd (evades_of_located hkeeps hd hprepares.apart hname hx hinside) hevades

/-- An empty hierarchy document, a directory of observations and one with a link into it. -/
def linkedTree : FileTree :=
  ⟨[(["in"], .directory), (["in", "h.json"], .file [0x5B, 0x5D]), (["obs"], .directory),
    (["out"], .directory), (["out", "classes.json"], .link "../obs/classes.json")], []⟩

def settingsInto (outDir : String) : Settings :=
  { Settings.defaults with outDir := ⟨outDir, .flag⟩ }

def mergedInto (outDir observationsDir : String) : FileTree :=
  ((merge (fileSystem []) (settingsInto outDir) "in/h.json" observationsDir false "").run.run
    linkedTree).2

/-- Documents in a new directory leave the observations alone. -/
theorem spares_observations_of_ends_merge_sample :
    linkedTree.WellFormed ∧ linkedTree.locate [] "obs" = .ok ["obs"] ∧
      entry? (mergedInto "new" "obs") ["new", "classes.json"] = some (.file [0x5B, 0x5D, 0x0A]) ∧
      ∀ x : Location, x.dropLast = ["obs"] → ∀ content,
        entry? (mergedInto "new" "obs") x = some (.file content) ↔
          linkedTree.entry? x = some (.file content) := by
  have ht : linkedTree.WellFormed := by decide
  have hd : linkedTree.locate [] "obs" = .ok ["obs"] := by rfl
  refine ⟨ht, hd, by decide +kernel, ?_⟩
  have hend : Ends (merge (fileSystem []) (settingsInto "new") "in/h.json" "obs" false "")
    linkedTree _ (mergedInto "new" "obs") := rfl
  obtain hspares | hevades := spares_observations_of_ends_merge ht hd hend
  · exact hspares
  · exfalso
    cases hevades with
    | unnamed hempty => exact absurd hempty (by decide)
    | made _ hafter =>
      have hnew : ((mergedInto "new" "obs").locate [] "new").toOption = some ["new"] := by
        decide +kernel
      rw [show (mergedInto "new" "obs").locate [] "new" = .ok ["obs"] from hafter] at hnew
      exact absurd hnew (by decide)
    | @linked _ name _ x hname _ _ hx hinside =>
      have hnew : ∀ name ∈ documentNames false,
          ((mergedInto "new" "obs").locate [] (Path.join "new" name)).toOption.map List.dropLast =
            some ["new"] := by
        decide +kernel
      have hother := hnew name hname
      rw [show (mergedInto "new" "obs").locate [] (Path.join "new" name) = .ok x from hx] at hother
      exact absurd (hinside.symm.trans (Option.some.inj hother)) (by decide)

/-- The ways into the directory of the observations: a path through a directory that is new, the
empty path, and a link. -/
theorem documents_among_observations :
    linkedTree.entry? ["obs", "classes.json"] = none ∧
      entry? (mergedInto "obs/new/.." "obs") ["obs", "classes.json"] ≠ none ∧
      linkedTree.entry? ["classes.json"] = none ∧
      entry? (mergedInto "" ".") ["classes.json"] ≠ none ∧
      entry? (mergedInto "out" "obs") ["obs", "classes.json"] ≠ none := by
  decide +kernel

end VtableMerge.Run
