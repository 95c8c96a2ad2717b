import VtableMerge.Proofs.DirectoryListings
import VtableMerge.Proofs.Programs
import VtableMerge.Proofs.StoreHistories

/-!
Loading the observations of a directory. The matching files are taken in in the order of their
names, and the first one that is no observation document ends the loading. What is loaded is a
matter of the contents of these files alone.
-/
namespace VtableMerge

structure ObservationFile where
  name : String
  bytes : List UInt8
  document : ObservationDocument

namespace ObservationFile

def Holds (f : ObservationFile) : Prop :=
  ObservationDocument.reader.ofBytes f.bytes = .ok f.document

def request (known : String → Bool) (directory : String) (f : ObservationFile) : StoreRequest :=
  .ingest known (Path.join directory f.name) f.document

end ObservationFile

/-- What some files give, read one after the other: a new store with all their documents, and a
digest of each. -/
structure LoadedFrom (known : String → Bool) (directory : String) (files : List ObservationFile)
    (loaded : LoadedObservations) : Prop where
  store : loaded.store = ObservationStore.filled (files.map (·.request known directory))
  digests : loaded.documents.map (fun d => (d.path, d.sha256, d.classes)) =
    files.map fun f => (Path.join directory f.name, Sha256.hex f.bytes, f.document.length)
  counts : loaded.documents.map (fun d => StoreAnswer.ingested d.counts) =
    ObservationStore.empty.answers (files.map (·.request known directory))
  all : ∀ d ∈ loaded.documents, d.counts.accepted + d.counts.dropped = d.classes
  replaced : ∀ d ∈ loaded.documents, d.counts.replaced ≤ d.counts.accepted
  size : (loaded.documents.map fun d => d.counts.accepted - d.counts.replaced).sum =
    loaded.store.size
  known : ∀ name, loaded.store.contains name = true → known name = true

section Files
variable {known : String → Bool} {directory : String} {files : List ObservationFile}
  {loaded : LoadedObservations}

theorem loadedFrom_empty : LoadedFrom known directory [] LoadedObservations.empty where
  store := rfl
  digests := rfl
  counts := rfl
  all := List.forall_mem_nil _
  replaced := List.forall_mem_nil _
  size := rfl
  known _ := nofun

theorem LoadedFrom.add (h : LoadedFrom known directory files loaded) (f : ObservationFile) :
    LoadedFrom known directory (files ++ [f])
      (loaded.add known (Path.join directory f.name) f.bytes f.document) := by
  obtain ⟨hle, hsize⟩ := @ObservationStore.size_ingest loaded.store known
    (Path.join directory f.name) f.document
  simp only [LoadedObservations.add]
  constructor
  case store =>
    rw [h.store, List.map_append, ObservationStore.filled, ObservationStore.filled,
      List.foldl_append]
    rfl
  case digests =>
    rw [List.map_append, List.map_append, h.digests]
    rfl
  case counts =>
    rw [List.map_append, List.map_append, h.counts, ObservationStore.answers_append, h.store]
    rfl
  case all =>
    refine List.forall_mem_append.mpr ⟨h.all, List.forall_mem_singleton.mpr ?_⟩
    exact ObservationStore.accepted_add_dropped_ingest ..
  case replaced =>
    exact List.forall_mem_append.mpr ⟨h.replaced, List.forall_mem_singleton.mpr hle⟩
  case size =>
    rw [List.map_append, List.sum_append, h.size, List.map_singleton, List.sum_singleton]
    dsimp only
    omega
  case known =>
    intro name hname
    rcases ObservationStore.contains_ingest hname with hknown | hname
    · exact hknown
    · exact h.known name hname

end Files

namespace Load
open FileTree

variable {known : String → Bool} {directory : String} {contents : List (String × List UInt8)}
  {loaded : LoadedObservations} {r : Except LoadError LoadedObservations}

def takeContents (known : String → Bool) (directory : String) (loaded : LoadedObservations)
    (contents : List (String × List UInt8)) : Except LoadError LoadedObservations :=
  contents.foldlM (fun loaded (name, bytes) =>
    (observations (Path.join directory name) bytes).map
      (loaded.add known (Path.join directory name) bytes)) loaded

/-- How files in some order are loaded: all of them, or up to the first one that is no observation
document. -/
inductive Loads (known : String → Bool) (directory : String)
    (contents : List (String × List UInt8)) : Except LoadError LoadedObservations → Prop
  | all (files : List ObservationFile) (loaded : LoadedObservations)
      (hcontents : contents = files.map fun f => (f.name, f.bytes)) (hholds : ∀ f ∈ files, f.Holds)
      (hloaded : LoadedFrom known directory files loaded) :
      Loads known directory contents (.ok loaded)
  | malformed (files : List ObservationFile) (name : String) (bytes : List UInt8)
      (after : List (String × List UInt8)) (cause : Json.ReadError)
      (hcontents : contents = (files.map fun f => (f.name, f.bytes)) ++ (name, bytes) :: after)
      (hholds : ∀ f ∈ files, f.Holds)
      (hfirst : ObservationDocument.reader.ofBytes bytes = .error cause) :
      Loads known directory contents (.error (.malformed (Path.join directory name) cause))

theorem loads_takeContents {files : List ObservationFile} (hholds : ∀ f ∈ files, f.Holds)
    (hloaded : LoadedFrom known directory files loaded) :
    Loads known directory ((files.map fun f => (f.name, f.bytes)) ++ contents)
      (takeContents known directory loaded contents) := by
  -- What is loaded is known of the files before, so each step puts one more file to them.
  induction contents generalizing files loaded with
  | nil => exact .all files loaded (List.append_nil _) hholds hloaded
  | cons first rest ih =>
    obtain ⟨name, bytes⟩ := first
    rw [takeContents, List.foldlM_cons]
    dsimp only
    cases hparsed : ObservationDocument.reader.ofBytes bytes with
    | error cause =>
      rw [observations, document, hparsed]
      exact .malformed files name bytes rest cause rfl hholds hparsed
    | ok document =>
      have hholds' : ∀ f ∈ files ++ [⟨name, bytes, document⟩], f.Holds :=
        List.forall_mem_append.mpr ⟨hholds, List.forall_mem_singleton.mpr hparsed⟩
      have hnext := ih hholds' (hloaded.add ⟨name, bytes, document⟩)
      rw [List.map_append, List.append_assoc] at hnext
      rw [observations, Load.document, hparsed]
      exact hnext

/-- Loading succeeds exactly when every file is an observation document. -/
theorem Loads.isOk_iff (h : Loads known directory contents r) : (∃ loaded, r = .ok loaded) ↔
    ∀ f ∈ contents, ∃ document, ObservationDocument.reader.ofBytes f.2 = .ok document := by
  cases h with
  | all files loaded hcontents hholds hloaded =>
    subst hcontents
    refine iff_of_true ⟨loaded, rfl⟩ (List.forall_mem_map.mpr fun f hf => ?_)
    exact ⟨f.document, hholds f hf⟩
  | malformed files name bytes after cause hcontents hholds hfirst =>
    subst hcontents
    refine iff_of_false (by simp) fun hall => ?_
    obtain ⟨document, hparsed⟩ := hall (name, bytes) (by simp)
    rw [hfirst] at hparsed
    cases hparsed

section Programs
variable {t : FileTree} {current loc : Location} {pattern : Glob.Pattern} {patternText : String}

structure Readable (t : FileTree) (current : Location) (directory : String)
    (pattern : Glob.Pattern) (loc : Location) : Prop where
  located : t.locate current directory = .ok loc
  isDirectory : t.entry? loc = some .directory
  /-- A location has one entry. -/
  distinct : (t.entries.map Prod.fst).Nodup
  files : ∀ name bytes, t.Offers loc pattern name bytes →
    t.readFile current (Path.join directory name) = .ok bytes

/-- Files that can be read are taken in by their contents. -/
theorem ends_observationPaths_of_readFile
    (hread : ∀ f ∈ contents, t.readFile current (Path.join directory f.1) = .ok f.2) :
    Ends (observationPaths (fileSystem current) known loaded
      (contents.map fun f => Path.join directory f.1)) t
      (takeContents known directory loaded contents) t := by
  induction contents generalizing loaded with
  | nil => exact ends_pure.mpr ⟨rfl, rfl⟩
  | cons first rest ih =>
    obtain ⟨name, bytes⟩ := first
    obtain ⟨hfirst, hrest⟩ := List.forall_mem_cons.mp hread
    rw [List.map_cons, observationPaths, ends_bind_of_ok (ends_readBytes_of_readFile hfirst),
      takeContents, List.foldlM_cons]
    dsimp only
    cases hparsed : observations (Path.join directory name) bytes with
    | error e => exact (ends_bind_of_error (ends_liftExcept.mpr ⟨rfl, rfl⟩)).mpr ⟨rfl, rfl⟩
    | ok document => exact (ends_bind_of_ok (ends_liftExcept.mpr ⟨rfl, rfl⟩)).mpr (ih hrest)

theorem ends_observationFiles_of_readable (ht : Readable t current directory pattern loc) :
    Ends (observationFiles (fileSystem current) directory pattern) t
      (.ok ((matchingNames pattern (t.entries.filterMap (fileNameIn? loc))).map
        (Path.join directory))) t := by
  rw [observationFiles, ends_bind_of_lift (run_status t current directory),
    status_of_locate ht.located ht.isDirectory]
  dsimp only
  rw [ends_bind_of_lift (run_regularFiles t current directory),
    regularFiles_of_locate ht.located ht.isDirectory]
  exact ends_pure.mpr ⟨rfl, rfl⟩

/-- A directory is loaded by the contents of its matching files in their order. -/
theorem ends_observationDirectory_of_lists (hierarchy : Hierarchy)
    (hpattern : Load.pattern patternText = .ok pattern)
    (ht : Readable t current directory pattern loc) (hcontents : t.Lists loc pattern contents) :
    Ends (observationDirectory (fileSystem current) directory patternText hierarchy) t
      (takeContents hierarchy.contains directory LoadedObservations.empty contents) t := by
  obtain ⟨contents', hlists, hnames⟩ := exists_lists ht.distinct loc pattern
  obtain rfl := hlists.unique hcontents fun _ _ => Iff.rfl
  rw [observationDirectory, hpattern]
  refine (ends_bind_of_ok (ends_liftExcept.mpr ⟨rfl, rfl⟩)).mpr ?_
  refine (ends_bind_of_ok (ends_observationFiles_of_readable ht)).mpr ?_
  rw [← hnames, List.map_map]
  exact ends_observationPaths_of_readFile fun f hf =>
    ht.files f.1 f.2 ((hcontents.mem_iff f.1 f.2).mp hf)

/-- Loading a directory is all or nothing. It succeeds exactly when every regular file directly in
the directory whose name matches is an observation document, and then these documents went into a
new store in the order of their names; otherwise the first of them that is none is told. Any other
directory that offers the same files under the same path gives the same. -/
theorem exists_ends_observationDirectory (hierarchy : Hierarchy)
    (hpattern : Load.pattern patternText = .ok pattern)
    (ht : Readable t current directory pattern loc) :
    ∃ r, Ends (observationDirectory (fileSystem current) directory patternText hierarchy) t r t ∧
      ((∃ loaded, r = .ok loaded) ↔ ∀ name bytes, t.Offers loc pattern name bytes →
        ∃ document, ObservationDocument.reader.ofBytes bytes = .ok document) ∧
      (∃ contents, t.Lists loc pattern contents ∧
        Loads hierarchy.contains directory contents r) ∧
      ∀ t' current' loc', Readable t' current' directory pattern loc' →
        (∀ name bytes, t'.Offers loc' pattern name bytes ↔ t.Offers loc pattern name bytes) →
        Ends (observationDirectory (fileSystem current') directory patternText hierarchy)
          t' r t' := by
  obtain ⟨contents, hlists, -⟩ := exists_lists ht.distinct loc pattern
  have hloads : Loads hierarchy.contains directory contents
      (takeContents hierarchy.contains directory LoadedObservations.empty contents) :=
    loads_takeContents (List.forall_mem_nil _) loadedFrom_empty
  refine ⟨_, ends_observationDirectory_of_lists hierarchy hpattern ht hlists, ?_,
    ⟨contents, hlists, hloads⟩, fun t' current' loc' ht' hsame => ?_⟩
  · rw [hloads.isOk_iff, Prod.forall]
    simp only [hlists.mem_iff]
  · obtain ⟨contents', hlists', -⟩ := exists_lists ht'.distinct loc' pattern
    obtain rfl := hlists'.unique hlists hsame
    exact ends_observationDirectory_of_lists hierarchy hpattern ht' hlists'

end Programs

def cardDocument : List UInt8 := [0x7B, 0x22, 0x43, 0x22, 0x3A, 0x5B, 0x5D, 0x7D]

def jsonPattern : Glob.Pattern :=
  [.zeroOrMore, .literal '.', .literal 'j', .literal 's', .literal 'o', .literal 'n']

/-- Two documents, and beside them a directory with a name that matches and a file with one that
does not. -/
def observedTree : FileTree :=
  ⟨[(["obs", "old.json"], .directory), (["obs", "b.json"], .file cardDocument),
    (["obs", "notes"], .file []), (["obs", "a.json"], .file cardDocument),
    (["obs", "old.json", "c.json"], .file []), (["obs"], .directory)], []⟩

theorem distinct_observedTree : (observedTree.entries.map Prod.fst).Nodup := by decide +kernel

theorem lists_observedTree : observedTree.Lists ["obs"] jsonPattern
    [("a.json", cardDocument), ("b.json", cardDocument)] := by
  refine ⟨fun name bytes => ?_, by decide +kernel⟩
  rw [List.mem_pair, Prod.mk.injEq, Prod.mk.injEq]
  constructor
  · rintro (⟨rfl, rfl⟩ | ⟨rfl, rfl⟩)
    · exact ⟨by decide +kernel, by decide +kernel⟩
    · exact ⟨by decide +kernel, by decide +kernel⟩
  · rintro ⟨hentry, hmatch⟩
    rw [entry?_eq_some_iff_mem distinct_observedTree (List.concat_ne_nil _ _)] at hentry
    have hfiles : (name = "b.json" ∧ bytes = cardDocument) ∨ (name = "notes" ∧ bytes = []) ∨
        (name = "a.json" ∧ bytes = cardDocument) := by simpa [observedTree] using hentry
    rcases hfiles with ⟨rfl, rfl⟩ | ⟨rfl, rfl⟩ | ⟨rfl, rfl⟩
    · exact .inr ⟨rfl, rfl⟩
    · exact absurd hmatch (by decide +kernel)
    · exact .inl ⟨rfl, rfl⟩

theorem exists_ends_observationDirectory_sample :
    Load.pattern "*.json" = .ok jsonPattern ∧
      Readable observedTree [] "obs" jsonPattern ["obs"] ∧
      ∃ loaded, Ends (observationDirectory (fileSystem []) "obs" "*.json"
          ⟨[ClassNode.root "C"], by decide⟩) observedTree (.ok loaded) observedTree ∧
        loaded.documents.map DocumentDigest.path = ["obs/a.json", "obs/b.json"] := by
  have hpattern : Load.pattern "*.json" = .ok jsonPattern := rfl
  have hreadable : Readable observedTree [] "obs" jsonPattern ["obs"] := by
    refine ⟨by decide +kernel, by decide +kernel, distinct_observedTree,
      fun name bytes hoffers => ?_⟩
    have hmem := (lists_observedTree.mem_iff name bytes).mpr hoffers
    rw [List.mem_pair, Prod.mk.injEq, Prod.mk.injEq] at hmem
    obtain ⟨rfl, rfl⟩ | ⟨rfl, rfl⟩ := hmem
    · decide +kernel
    · decide +kernel
  obtain ⟨r, hend, -, ⟨contents, hlists, hloads⟩, -⟩ := exists_ends_observationDirectory
    ⟨[ClassNode.root "C"], by decide⟩ hpattern hreadable
  obtain rfl := hlists.unique lists_observedTree fun _ _ => Iff.rfl
  have hdocument : ObservationDocument.reader.ofBytes cardDocument = .ok [("C", [])] := by
    decide +kernel
  obtain ⟨loaded, rfl⟩ := hloads.isOk_iff.mpr (by simp [hdocument])
  refine ⟨hpattern, hreadable, loaded, hend, ?_⟩
  cases hloads with
  | all files loaded hcontents hholds hloaded =>
    have hpaths := congrArg (List.map Prod.fst) hloaded.digests
    rw [List.map_map, List.map_map] at hpaths
    refine hpaths.trans ?_
    have hnames := congrArg (List.map fun f => Path.join "obs" f.1) hcontents
    rw [List.map_map] at hnames
    exact hnames.symm.trans (by decide +kernel)

end Load

end VtableMerge
