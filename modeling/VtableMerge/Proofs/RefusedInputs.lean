import VtableMerge.Proofs.MergeRuns

/-!
Merges that are refused. Whatever is wrong with the inputs, at whichever document, and wherever
the documents may not go, is found before the first document is written. So a merge that fails in
any other way than by writing leaves every regular file as it was.
-/
namespace VtableMerge.Run

open FileTree

variable {t t₁ : FileTree} {current : Location} {settings : Settings}
  {classesPath observationsDir generatedAt : String} {writeReport : Bool} {a : Artifacts}

/-- What can be wrong with the inputs of a merge and with the places of its documents. -/
inductive Fault (t : FileTree) (current : Location) (settings : Settings)
    (classesPath observationsDir : String) : Prop
  | observationsReceive
      (hsame : t.sameEntry current observationsDir settings.outDir.value = true)
  | hierarchyUnread (hread : ∀ bytes, t.readFile current classesPath ≠ .ok bytes)
  /-- The hierarchy document is malformed or has a class twice. -/
  | hierarchyInvalid (bytes : List UInt8) (e : LoadError)
      (hread : t.readFile current classesPath = .ok bytes)
      (hinvalid : Load.hierarchy classesPath bytes = .error e)
  | globInvalid (e : LoadError) (hinvalid : Load.pattern settings.glob.value = .error e)
  /-- The path of the observations leads nowhere or to something else than a directory. -/
  | noDirectory (hstatus : t.status current observationsDir ≠ .directory)
  | documentUnread (pattern : Glob.Pattern) (names : List String) (name : String)
      (hglob : Load.pattern settings.glob.value = .ok pattern)
      (hnames : t.regularFiles current observationsDir = .ok names) (hname : name ∈ names)
      (hmatch : pattern.isMatch (Utf8.encodeString name) = true)
      (hread : ∀ bytes, t.readFile current (Path.join observationsDir name) ≠ .ok bytes)
  /-- One of the documents that match is malformed, whichever it is. -/
  | documentMalformed (pattern : Glob.Pattern) (names : List String) (name : String)
      (bytes : List UInt8) (e : LoadError)
      (hglob : Load.pattern settings.glob.value = .ok pattern)
      (hnames : t.regularFiles current observationsDir = .ok names) (hname : name ∈ names)
      (hmatch : pattern.isMatch (Utf8.encodeString name) = true)
      (hread : t.readFile current (Path.join observationsDir name) = .ok bytes)
      (hmalformed : Load.observations (Path.join observationsDir name) bytes = .error e)
  /-- Once there is an output directory, a table would take the place of the hierarchy. -/
  | hierarchyReceives (t₁ : FileTree) (name : String)
      (hmade : ((fileSystem current).makeDirectories settings.outDir.value).run t = (.ok (), t₁))
      (hname : name = classesFile ∨ name = prototypesFile)
      (hsame : t₁.sameEntry current classesPath (Path.join settings.outDir.value name) = true)

/-- When everything is loaded, nothing can be wrong but the place of the hierarchy. -/
theorem Prepares.exists_of_fault
    (hprepares : Prepares t current settings classesPath observationsDir generatedAt a)
    (hfault : Fault t current settings classesPath observationsDir) :
    ∃ t₁ name, ((fileSystem current).makeDirectories settings.outDir.value).run t = (.ok (), t₁) ∧
      (name = classesFile ∨ name = prototypesFile) ∧
      t₁.sameEntry current classesPath (Path.join settings.outDir.value name) = true := by
  obtain ⟨hierarchy, loaded, hhierarchy, hobservations, -⟩ := hprepares.loaded
  obtain ⟨content, hcontent, hvalid⟩ := (ends_hierarchyFile hhierarchy).2 hierarchy rfl
  obtain ⟨hdirectory, pattern, names, hpattern, hnames, hdocuments⟩ :=
    (ends_observationDirectory hobservations).2 loaded rfl
  cases hfault with
  | observationsReceive hsame =>
    rw [hprepares.apart] at hsame
    cases hsame
  | hierarchyUnread hread => exact absurd hcontent (hread content)
  | hierarchyInvalid bytes e hread hinvalid =>
    obtain rfl : content = bytes := Except.ok.inj (hcontent.symm.trans hread)
    rw [hvalid] at hinvalid
    cases hinvalid
  | globInvalid e hinvalid =>
    rw [hpattern] at hinvalid
    cases hinvalid
  | noDirectory hstatus => exact absurd hdirectory hstatus
  | documentUnread pattern' names' name hglob hnames' hname hmatch hread =>
    obtain rfl : pattern = pattern' := Except.ok.inj (hpattern.symm.trans hglob)
    obtain rfl : names = names' := Except.ok.inj (hnames.symm.trans hnames')
    obtain ⟨bytes, -, hbytes, -⟩ := hdocuments name hname hmatch
    exact absurd hbytes (hread bytes)
  | documentMalformed pattern' names' name bytes e hglob hnames' hname hmatch hread hmalformed =>
    obtain rfl : pattern = pattern' := Except.ok.inj (hpattern.symm.trans hglob)
    obtain rfl : names = names' := Except.ok.inj (hnames.symm.trans hnames')
    obtain ⟨bytes', document, hbytes, hparsed⟩ := hdocuments name hname hmatch
    obtain rfl : bytes' = bytes := Except.ok.inj (hbytes.symm.trans hread)
    rw [hparsed] at hmalformed
    cases hmalformed
  | hierarchyReceives t₁ name hmade hname hsame => exact ⟨t₁, name, hmade, hname, hsame⟩

/-- The tables are compared with the hierarchy before they are written. -/
theorem refused_of_ends_deliver {t' : FileTree} {name : String} {r : Except Failure MergeReport}
    (hmade : ((fileSystem current).makeDirectories settings.outDir.value).run t = (.ok (), t'))
    (hname : name = classesFile ∨ name = prototypesFile)
    (hsame : t'.sameEntry current classesPath (Path.join settings.outDir.value name) = true)
    (h : Ends (deliver (fileSystem current) settings classesPath writeReport a) t r t₁) :
    ∃ f, r = .error f ∧ f.isWrite = false := by
  have hmake : Ends (makeOutDir (fileSystem current) settings.outDir.value) t (.ok ()) t' := by
    rw [makeOutDir, ends_bind_of_lift hmade]
    exact ends_pure.mpr ⟨rfl, rfl⟩
  rw [deliver, ends_bind_of_ok hmake] at h
  rcases ends_bind.mp h with ⟨⟨⟩, t'', hclasses, hguard⟩ | ⟨f, hclasses, rfl⟩
  · obtain ⟨rfl, hclasses, -⟩ := ends_refuseOverwrite hclasses
    rcases ends_bind.mp hguard with ⟨⟨⟩, t', hprototypes, -⟩ | ⟨f, hprototypes, rfl⟩
    · obtain ⟨rfl, hprototypes, -⟩ := ends_refuseOverwrite hprototypes
      rcases hname with rfl | rfl
      · rw [hclasses rfl] at hsame
        cases hsame
      · rw [hprototypes rfl] at hsame
        cases hsame
    · exact ⟨f, rfl, (ends_refuseOverwrite hprototypes).refused f rfl⟩
  · exact ⟨f, rfl, (ends_refuseOverwrite hclasses).refused f rfl⟩

/-- What is wrong with the inputs is a failure of its own, never one of writing. -/
theorem refused_of_fault {r : Except Failure MergeReport}
    (hfault : Fault t current settings classesPath observationsDir)
    (hend : Ends (merge (fileSystem current) settings classesPath observationsDir writeReport
      generatedAt) t r t₁) :
    ∃ f, r = .error f ∧ f.isWrite = false := by
  rcases refused_or_prepares_of_ends hend with ⟨-, hrefused⟩ | ⟨a, hprepares, hdeliver⟩
  · exact hrefused
  · obtain ⟨t', name, hmade, hname, hsame⟩ := hprepares.exists_of_fault hfault
    exact refused_of_ends_deliver hmade hname hsame hdeliver

/-- A failure that is none of writing leaves all files. -/
theorem sameFiles_of_not_isWrite {f : Failure} (hf : f.isWrite = false)
    (hend : Ends (merge (fileSystem current) settings classesPath observationsDir writeReport
      generatedAt) t (.error f) t₁) : SameFiles t t₁ := by
  generalize hr : (.error f : Except Failure MergeReport) = r at hend
  cases endings_of_ends hend with
  | refused f' => exact SameFiles.refl t
  | stopped f' _ hbuilds => exact hbuilds.sameFiles
  | @wrote a t' _ failure _ _ _ _ =>
    cases failure with
    | none => cases hr
    | some failed =>
      obtain rfl := Except.error.inj hr
      cases hf

/-- A merge that fails, and not by writing, leaves every regular file as it was: none is created,
none removed and none changed. And it does fail so whenever something is wrong with its inputs:
with the hierarchy, with the pattern, with the directory of the observations or any document
there that matches, or with the places where the documents would go. -/
theorem sameFiles_of_ends_merge {r : Except Failure MergeReport}
    (hend : Ends (merge (fileSystem current) settings classesPath observationsDir writeReport
      generatedAt) t r t₁) :
    (∀ f, r = .error f → f.isWrite = false → SameFiles t t₁) ∧
    (Fault t current settings classesPath observationsDir →
      (∃ f, r = .error f ∧ f.isWrite = false) ∧ SameFiles t t₁) := by
  have hkept : ∀ f, r = .error f → f.isWrite = false → SameFiles t t₁ := by
    rintro f rfl hf
    exact sameFiles_of_not_isWrite hf hend
  refine ⟨hkept, fun hfault => ?_⟩
  obtain ⟨f, hr, hf⟩ := refused_of_fault hfault hend
  exact ⟨⟨f, hr, hf⟩, hkept f hr hf⟩

/-- A tree with two documents of observations. The first one is empty, the second one breaks
off. -/
def brokenTree : FileTree :=
  ⟨[(["h.json"], .file [0x5B, 0x5D]), (["obs"], .directory),
    (["obs", "a.json"], .file [0x7B, 0x7D]), (["obs", "b.json"], .file [0x7B])], []⟩

theorem sameFiles_of_ends_merge_sample :
    Fault brokenTree [] Settings.defaults "h.json" "obs" ∧
      ∃ r t₁, Ends (merge (fileSystem []) Settings.defaults "h.json" "obs" true "") brokenTree
          r t₁ ∧
        (∃ f, r = .error f ∧ f.isWrite = false) ∧ SameFiles brokenTree t₁ := by
  have hmalformed : ∃ e, Load.observations "obs/b.json" [0x7B] = .error e := ⟨_, rfl⟩
  obtain ⟨e, he⟩ := hmalformed
  have hfault : Fault brokenTree [] Settings.defaults "h.json" "obs" :=
    Fault.documentMalformed
      [.zeroOrMore, .literal '.', .literal 'j', .literal 's', .literal 'o', .literal 'n']
      ["a.json", "b.json"] "b.json" [0x7B] e rfl rfl (by simp) (by decide +kernel) rfl he
  obtain ⟨r, t₁, hend⟩ := exists_ends
    (merge (fileSystem []) Settings.defaults "h.json" "obs" true "") brokenTree
  exact ⟨hfault, r, t₁, hend, (sameFiles_of_ends_merge hend).2 hfault⟩

end VtableMerge.Run
