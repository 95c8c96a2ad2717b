import VtableMerge.Proofs.Programs

/-!
How merging files can end. Until everything is loaded nothing changes; then directories are made,
and after two comparisons with the hierarchy document the documents are written one after the
other. Every statement about what a merge does to files is a case analysis on these endings.
-/
namespace VtableMerge

/-- Something could not be written: a directory could not be made, or a document not be put
there. -/
def Failure.isWrite : Failure → Bool
  | .writeFailed _ _ => true
  | _ => false

theorem Failure.isWrite_ofLoadError (e : LoadError) : (Failure.ofLoadError e).isWrite = false := by
  cases e <;> rfl

namespace Run

open FileTree
open Json (Value)

variable {t t₁ t₂ : FileTree} {current : Location}

section Writing
variable {α : Type} {path : String} {value : Value} {pretty : Bool}

def outcome (a : α) : Option (String × OsError) → Except Failure α
  | none => .ok a
  | some (path, e) => .error (.writeFailed path e.message)

theorem ends_writeDocument {r : Except Failure Unit}
    (h : Ends (writeDocument (fileSystem current) path value pretty) t r t₁) :
    (t.writeFile current path (value.documentBytes (layout pretty)) = .ok t₁ ∧ r = .ok ()) ∨
      ∃ e, t.writeFile current path (value.documentBytes (layout pretty)) = .error e ∧ t₁ = t ∧
        r = .error (.writeFailed path e.message) := by
  cases hwrite : t.writeFile current path (value.documentBytes (layout pretty)) with
  | ok t' =>
    rw [writeDocument, ends_bind_of_lift (run_writeFile_of_ok hwrite)] at h
    obtain ⟨rfl, rfl⟩ := ends_pure.mp h
    exact .inl ⟨rfl, rfl⟩
  | error e =>
    rw [writeDocument, ends_bind_of_lift (run_writeFile_of_error hwrite)] at h
    obtain ⟨rfl, rfl⟩ := ends_throw.mp h
    exact .inr ⟨e, rfl, rfl, rfl⟩

/-- Writing a document and going on with other documents. -/
theorem attempts_of_ends_bind {f : Unit → ExceptT Failure (StateM FileTree) α}
    {rest : List (String × List UInt8)} {a : α} {r : Except Failure α}
    (h : Ends (writeDocument (fileSystem current) path value pretty >>= f) t r t₂)
    (hrest : ∀ t₁, Ends (f ()) t₁ r t₂ →
      ∃ failure, Attempts current t₁ rest failure t₂ ∧ r = outcome a failure) :
    ∃ failure, Attempts current t ((path, value.documentBytes (layout pretty)) :: rest) failure t₂ ∧
      r = outcome a failure := by
  rcases ends_bind.mp h with ⟨⟨⟩, t₁, hwrite, h₁⟩ | ⟨e, hwrite, rfl⟩
  · rcases ends_writeDocument hwrite with ⟨hok, -⟩ | ⟨e, -, -, hr⟩
    · obtain ⟨failure, hattempts, hr⟩ := hrest t₁ h₁
      exact ⟨failure, .wrote hok hattempts, hr⟩
    · cases hr
  · rcases ends_writeDocument hwrite with ⟨-, hr⟩ | ⟨e, herror, rfl, hr⟩
    · cases hr
    · cases hr
      exact ⟨some (path, e), .failed herror, rfl⟩

def writtenReport (a : Artifacts) (outDir : String) (writeReport : Bool) : MergeReport :=
  { a.report with
    outputs := some ⟨Path.join outDir classesFile, Path.join outDir prototypesFile,
      if writeReport then some (Path.join outDir reportFile) else none⟩ }

def tableDocuments (a : Artifacts) (outDir : String) (pretty : Bool) :
    List (String × List UInt8) :=
  [(Path.join outDir classesFile,
      (ClassEntry.documentToJson a.classes).documentBytes (layout pretty)),
    (Path.join outDir prototypesFile,
      (Prototype.entriesToJson a.prototypes).documentBytes (layout pretty))]

def reportDocuments (a : Artifacts) (outDir : String) (pretty writeReport : Bool) :
    List (String × List UInt8) :=
  if writeReport then
    [(Path.join outDir reportFile,
      (writtenReport a outDir writeReport).toJson.documentBytes (layout pretty))]
  else []

theorem attempts_of_ends_writeArtifacts {a : Artifacts} {outDir : String} {writeReport : Bool}
    {r : Except Failure MergeReport}
    (h : Ends (writeArtifacts (fileSystem current) a outDir pretty writeReport) t r t₁) :
    ∃ failure, Attempts current t
        (tableDocuments a outDir pretty ++ reportDocuments a outDir pretty writeReport) failure t₁ ∧
      r = outcome (writtenReport a outDir writeReport) failure := by
  refine attempts_of_ends_bind h fun t₂ h₂ => attempts_of_ends_bind h₂ fun t₃ h₃ => ?_
  cases writeReport with
  | true =>
    refine attempts_of_ends_bind h₃ fun t₄ h₄ => ?_
    obtain ⟨rfl, rfl⟩ := ends_pure.mp h₄
    exact ⟨none, .done _, rfl⟩
  | false =>
    obtain ⟨rfl, rfl⟩ := ends_pure.mp h₃
    exact ⟨none, .done _, rfl⟩

end Writing

section Checks
variable {input output outDir : String} {r : Except Failure Unit}

/-- A comparison changes nothing; it fails, and not by writing, where the two are the same. -/
structure Compares (t : FileTree) (current : Location) (input output : String)
    (r : Except Failure Unit) (t₁ : FileTree) : Prop where
  tree_eq : t₁ = t
  apart : r = .ok () → t.sameEntry current input output = false
  refused : ∀ f, r = .error f → f.isWrite = false

theorem compares_of_ends {f : Failure} (hf : f.isWrite = false)
    (h : Ends (liftM ((fileSystem current).sameEntry input output) >>= fun same : Bool =>
      if same then throw f else pure ()) t r t₁) : Compares t current input output r t₁ := by
  rw [ends_bind_of_lift (run_sameEntry t current input output)] at h
  cases hsame : t.sameEntry current input output with
  | true =>
    rw [hsame] at h
    obtain ⟨rfl, rfl⟩ := ends_throw.mp h
    exact ⟨rfl, by simp, fun e he => Except.error.inj he ▸ hf⟩
  | false =>
    rw [hsame] at h
    obtain ⟨rfl, rfl⟩ := ends_pure.mp h
    exact ⟨rfl, fun _ => hsame, by simp⟩

theorem ends_refuseOverwrite
    (h : Ends (refuseOverwrite (fileSystem current) input output) t r t₁) :
    Compares t current input output r t₁ := compares_of_ends rfl h

theorem ends_refuseOutputIntoObservations
    (h : Ends (refuseOutputIntoObservations (fileSystem current) input outDir) t r t₁) :
    Compares t current input outDir r t₁ := compares_of_ends rfl h

theorem ends_makeOutDir (h : Ends (makeOutDir (fileSystem current) outDir) t r t₁) :
    Builds t t₁ := by
  have hbuilds := onlyBuilds_makeDirectories current outDir t
  rcases hrun : ((fileSystem current).makeDirectories outDir).run t with ⟨made, t'⟩
  rw [hrun] at hbuilds
  rw [makeOutDir, ends_bind_of_lift hrun] at h
  cases made with
  | ok => exact (ends_pure.mp h).2 ▸ hbuilds
  | error e => exact (ends_throw.mp h).2 ▸ hbuilds

end Checks

section Endings
variable {settings : Settings} {classesPath observationsDir generatedAt : String}
  {writeReport : Bool}

structure Prepares (t : FileTree) (current : Location) (settings : Settings)
    (classesPath observationsDir generatedAt : String) (a : Artifacts) : Prop where
  apart : t.sameEntry current observationsDir settings.outDir.value = false
  loaded : ∃ h loaded, Ends (Load.hierarchyFile (fileSystem current) classesPath) t (.ok h) t ∧
    Ends (Load.observationDirectory (fileSystem current) observationsDir settings.glob.value h)
      t (.ok loaded) t ∧
    a = artifacts h loaded settings.encoding.value settings.fixGetters.value generatedAt

inductive Endings (t : FileTree) (current : Location) (settings : Settings)
    (classesPath observationsDir : String) (writeReport : Bool) (generatedAt : String) :
    Except Failure MergeReport → FileTree → Prop
  | refused (f : Failure) :
      Endings t current settings classesPath observationsDir writeReport generatedAt (.error f) t
  | stopped {a t₁} (f : Failure)
      (hprepares : Prepares t current settings classesPath observationsDir generatedAt a)
      (hbuilds : Builds t t₁) :
      Endings t current settings classesPath observationsDir writeReport generatedAt (.error f) t₁
  | wrote {a t₁ t₂ failure}
      (hprepares : Prepares t current settings classesPath observationsDir generatedAt a)
      (hbuilds : Builds t t₁)
      (hapart : ∀ doc ∈ tableDocuments a settings.outDir.value settings.pretty.value,
        t₁.sameEntry current classesPath doc.1 = false)
      (hattempts : Attempts current t₁
        (tableDocuments a settings.outDir.value settings.pretty.value ++
          reportDocuments a settings.outDir.value settings.pretty.value writeReport) failure t₂) :
      Endings t current settings classesPath observationsDir writeReport generatedAt
        (outcome (writtenReport a settings.outDir.value writeReport) failure) t₂

def deliver {m : Type → Type} [Monad m] (fs : FileSystem m) (settings : Settings)
    (classesPath : String) (writeReport : Bool) (a : Artifacts) :
    ExceptT Failure m MergeReport := do
  makeOutDir fs settings.outDir.value
  refuseOverwrite fs classesPath (Path.join settings.outDir.value classesFile)
  refuseOverwrite fs classesPath (Path.join settings.outDir.value prototypesFile)
  writeArtifacts fs a settings.outDir.value settings.pretty.value writeReport

/-- Directories are made, and the documents are written unless one would replace the hierarchy. -/
theorem endings_of_ends_deliver {a : Artifacts} {r : Except Failure MergeReport}
    (hprepares : Prepares t current settings classesPath observationsDir generatedAt a)
    (h : Ends (deliver (fileSystem current) settings classesPath writeReport a) t r t₁) :
    Endings t current settings classesPath observationsDir writeReport generatedAt r t₁ := by
  rcases ends_bind.mp h with ⟨⟨⟩, t', hmake, hguards⟩ | ⟨f, hmake, rfl⟩
  · have hbuilds := ends_makeOutDir hmake
    rcases ends_bind.mp hguards with ⟨⟨⟩, t'', hclasses, hguard⟩ | ⟨f, hclasses, rfl⟩
    · obtain ⟨rfl, hclasses, -⟩ := ends_refuseOverwrite hclasses
      rcases ends_bind.mp hguard with ⟨⟨⟩, t', hprototypes, hwrites⟩ | ⟨f, hprototypes, rfl⟩
      · obtain ⟨rfl, hprototypes, -⟩ := ends_refuseOverwrite hprototypes
        obtain ⟨failure, hattempts, rfl⟩ := attempts_of_ends_writeArtifacts hwrites
        refine .wrote hprepares hbuilds ?_ hattempts
        simp [tableDocuments, hclasses, hprototypes]
      · obtain ⟨rfl, -⟩ := ends_refuseOverwrite hprototypes
        exact .stopped f hprepares hbuilds
    · obtain ⟨rfl, -⟩ := ends_refuseOverwrite hclasses
      exact .stopped f hprepares hbuilds
  · exact .stopped f hprepares (ends_makeOutDir hmake)

/-- Either something is wrong with the inputs, and then nothing is changed, or everything is
loaded from the tree as it is. -/
theorem refused_or_prepares_of_ends {r : Except Failure MergeReport}
    (h : Ends (merge (fileSystem current) settings classesPath observationsDir writeReport
      generatedAt) t r t₁) :
    (t₁ = t ∧ ∃ f, r = .error f ∧ f.isWrite = false) ∨
      ∃ a, Prepares t current settings classesPath observationsDir generatedAt a ∧
        Ends (deliver (fileSystem current) settings classesPath writeReport a) t r t₁ := by
  rcases ends_bind.mp h with ⟨⟨⟩, t', hcheck, hloads⟩ | ⟨f, hcheck, rfl⟩
  · obtain ⟨rfl, hapart, -⟩ := ends_refuseOutputIntoObservations hcheck
    rcases ends_bind.mp hloads with ⟨hierarchy, t'', hread, hload⟩ | ⟨f, hread, rfl⟩
    · have hhierarchy := ends_adapt_ok.mp hread
      obtain ⟨rfl, -⟩ := ends_hierarchyFile hhierarchy
      rcases ends_bind.mp hload with ⟨loaded, t', hall, hdeliver⟩ | ⟨f, hall, rfl⟩
      · have hloaded := ends_adapt_ok.mp hall
        obtain ⟨rfl, -⟩ := ends_observationDirectory hloaded
        exact .inr ⟨_, ⟨hapart rfl, hierarchy, loaded, hhierarchy, hloaded, rfl⟩, hdeliver⟩
      · obtain ⟨e, hfailed, rfl⟩ := ends_adapt_error.mp hall
        obtain ⟨rfl, -⟩ := ends_observationDirectory hfailed
        exact .inl ⟨rfl, _, rfl, Failure.isWrite_ofLoadError e⟩
    · obtain ⟨e, hfailed, rfl⟩ := ends_adapt_error.mp hread
      obtain ⟨rfl, -⟩ := ends_hierarchyFile hfailed
      exact .inl ⟨rfl, _, rfl, Failure.isWrite_ofLoadError e⟩
  · obtain ⟨rfl, -, hrefused⟩ := ends_refuseOutputIntoObservations hcheck
    exact .inl ⟨rfl, f, rfl, hrefused f rfl⟩

theorem endings_of_ends {r : Except Failure MergeReport}
    (h : Ends (merge (fileSystem current) settings classesPath observationsDir writeReport
      generatedAt) t r t₁) :
    Endings t current settings classesPath observationsDir writeReport generatedAt r t₁ := by
  rcases refused_or_prepares_of_ends h with ⟨rfl, f, rfl, -⟩ | ⟨a, hprepares, hdeliver⟩
  · exact .refused f
  · exact endings_of_ends_deliver hprepares hdeliver

end Endings

end Run

end VtableMerge
