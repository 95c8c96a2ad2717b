import VtableMerge.Proofs.Writing
import VtableMerge.Run

/-!
Programs on trees. A program ends with a result or a failure and leaves a tree in both cases.
Loading only reads; making directories only makes directories.
-/
namespace VtableMerge.FileTree

variable {ε ε' α β : Type} {t t₁ t₂ : FileTree} {current : Location}

/-- On a tree, the program gives the result, or the failure, and leaves the other tree. -/
def Ends (x : ExceptT ε (StateM FileTree) α) (t : FileTree) (r : Except ε α) (t₁ : FileTree) :
    Prop :=
  x.run.run t = (r, t₁)

theorem exists_ends (x : ExceptT ε (StateM FileTree) α) (t : FileTree) :
    ∃ r t₁, Ends x t r t₁ := ⟨_, _, rfl⟩

theorem Ends.unique {x : ExceptT ε (StateM FileTree) α} {r r' : Except ε α}
    (h : Ends x t r t₁) (h' : Ends x t r' t₂) : r = r' ∧ t₁ = t₂ :=
  Prod.mk.inj (h.symm.trans h')

section Steps
variable {r : Except ε α}

theorem ends_pure {a : α} :
    Ends (pure a : ExceptT ε (StateM FileTree) α) t r t₁ ↔ r = .ok a ∧ t₁ = t := by
  constructor
  · intro h
    cases h
    exact ⟨rfl, rfl⟩
  · rintro ⟨rfl, rfl⟩
    rfl

theorem ends_throw {e : ε} :
    Ends (throw e : ExceptT ε (StateM FileTree) α) t r t₁ ↔ r = .error e ∧ t₁ = t := by
  constructor
  · intro h
    cases h
    exact ⟨rfl, rfl⟩
  · rintro ⟨rfl, rfl⟩
    rfl

theorem ends_lift {y : StateM FileTree α} :
    Ends (liftM y : ExceptT ε (StateM FileTree) α) t r t₁ ↔
      r = .ok (y.run t).1 ∧ t₁ = (y.run t).2 := by
  constructor
  · intro h
    cases h
    exact ⟨rfl, rfl⟩
  · rintro ⟨rfl, rfl⟩
    rfl

section Bind
variable {x : ExceptT ε (StateM FileTree) β} {f : β → ExceptT ε (StateM FileTree) α}

theorem ends_bind_of_ok {b : β} (hx : Ends x t (.ok b) t₁) :
    Ends (x >>= f) t r t₂ ↔ Ends (f b) t₁ r t₂ := by
  have hrun : (x >>= f).run.run t = (f b).run.run t₁ := by
    rw [ExceptT.run_bind, StateT.run_bind, show x.run.run t = (.ok b, t₁) from hx]
    rfl
  rw [Ends, Ends, hrun]

theorem ends_bind_of_error {e : ε} (hx : Ends x t (.error e) t₁) :
    Ends (x >>= f) t r t₂ ↔ r = .error e ∧ t₂ = t₁ := by
  have hrun : (x >>= f).run.run t = (.error e, t₁) := by
    rw [ExceptT.run_bind, StateT.run_bind, show x.run.run t = (.error e, t₁) from hx]
    rfl
  constructor
  · intro h
    obtain ⟨hr, ht⟩ := Prod.mk.inj (h.symm.trans hrun)
    exact ⟨hr, ht⟩
  · rintro ⟨rfl, rfl⟩
    exact hrun

/-- A sequence ends where its second part ends, or its first part fails. -/
theorem ends_bind :
    Ends (x >>= f) t r t₂ ↔
      (∃ b t₁, Ends x t (.ok b) t₁ ∧ Ends (f b) t₁ r t₂) ∨
        ∃ e, Ends x t (.error e) t₂ ∧ r = .error e := by
  constructor
  · intro h
    obtain ⟨r', t₁, hx⟩ := exists_ends x t
    cases r' with
    | ok b => exact .inl ⟨b, t₁, hx, (ends_bind_of_ok hx).mp h⟩
    | error e =>
      obtain ⟨rfl, rfl⟩ := (ends_bind_of_error hx).mp h
      exact .inr ⟨e, hx, rfl⟩
  · rintro (⟨b, t₁, hx, h⟩ | ⟨e, hx, rfl⟩)
    · exact (ends_bind_of_ok hx).mpr h
    · exact (ends_bind_of_error hx).mpr ⟨rfl, rfl⟩

theorem ends_bind_of_lift {y : StateM FileTree β} {b : β} (hy : y.run t = (b, t₁)) :
    Ends (liftM y >>= f) t r t₂ ↔ Ends (f b) t₁ r t₂ := by
  refine ends_bind_of_ok (ends_lift.mpr ?_)
  rw [hy]
  exact ⟨rfl, rfl⟩

end Bind

theorem ends_adapt {g : ε' → ε} {x : ExceptT ε' (StateM FileTree) α} :
    Ends (ExceptT.adapt g x) t r t₁ ↔ ∃ r', Ends x t r' t₁ ∧ r = r'.mapError g := by
  obtain ⟨r', t', hx⟩ := exists_ends x t
  have hadapt : Ends (ExceptT.adapt g x) t (r'.mapError g) t' := by
    change Prod.map (Except.mapError g) id (x.run.run t) = _
    rw [show x.run.run t = (r', t') from hx]
    rfl
  constructor
  · intro h
    obtain ⟨rfl, rfl⟩ := h.unique hadapt
    exact ⟨r', hx, rfl⟩
  · rintro ⟨r'', h, rfl⟩
    obtain ⟨rfl, rfl⟩ := h.unique hx
    exact hadapt

theorem ends_adapt_ok {g : ε' → ε} {x : ExceptT ε' (StateM FileTree) α} {a : α} :
    Ends (ExceptT.adapt g x) t (.ok a) t₁ ↔ Ends x t (.ok a) t₁ := by
  rw [ends_adapt]
  constructor
  · rintro ⟨r' | a', h, hr⟩
    · cases hr
    · cases hr
      exact h
  · intro h
    exact ⟨.ok a, h, rfl⟩

theorem ends_adapt_error {g : ε' → ε} {x : ExceptT ε' (StateM FileTree) α} {e : ε} :
    Ends (ExceptT.adapt g x) t (.error e) t₁ ↔ ∃ e', Ends x t (.error e') t₁ ∧ e = g e' := by
  rw [ends_adapt]
  constructor
  · rintro ⟨r' | a, h, hr⟩
    · cases hr
      exact ⟨r', h, rfl⟩
    · cases hr
  · rintro ⟨e', h, rfl⟩
    exact ⟨.error e', h, rfl⟩

theorem ends_liftExcept {x : Except ε α} :
    Ends (liftM x : ExceptT ε (StateM FileTree) α) t r t₁ ↔ r = x ∧ t₁ = t := by
  constructor
  · intro h
    cases h
    exact ⟨rfl, rfl⟩
  · rintro ⟨rfl, rfl⟩
    rfl

end Steps

section Requests
variable (t : FileTree) (current : Location) (path other : String)

theorem run_status :
    ((fileSystem current).status path).run t = (t.status current path, t) := rfl

theorem run_readFile :
    ((fileSystem current).readFile path).run t = (t.readFile current path, t) := rfl

theorem run_regularFiles :
    ((fileSystem current).regularFiles path).run t = (t.regularFiles current path, t) := rfl

theorem run_sameEntry :
    ((fileSystem current).sameEntry path other).run t = (t.sameEntry current path other, t) := rfl

variable {t current path} {content : List UInt8}

theorem run_writeFile_of_ok (hwrite : t.writeFile current path content = .ok t₁) :
    ((fileSystem current).writeFile path content).run t = (.ok (), t₁) := by
  change attempt (fun t => t.writeFile current path content) t = _
  rw [attempt, hwrite]

theorem run_writeFile_of_error {e : OsError}
    (hwrite : t.writeFile current path content = .error e) :
    ((fileSystem current).writeFile path content).run t = (.error e, t) := by
  change attempt (fun t => t.writeFile current path content) t = _
  rw [attempt, hwrite]

end Requests

section Reading
variable {path directory patternText : String} {known : String → Bool}

theorem ends_readBytes_of_readFile {bytes : List UInt8}
    (hread : t.readFile current path = .ok bytes) :
    Ends (Load.readBytes (fileSystem current) path) t (.ok bytes) t := by
  rw [Load.readBytes, ends_bind_of_lift (run_readFile t current path), hread]
  exact ends_pure.mpr ⟨rfl, rfl⟩

theorem ends_readBytes {r : Except LoadError (List UInt8)}
    (h : Ends (Load.readBytes (fileSystem current) path) t r t₁) :
    t₁ = t ∧ ∀ bytes, r = .ok bytes → t.readFile current path = .ok bytes := by
  rw [Load.readBytes, ends_bind_of_lift (run_readFile t current path)] at h
  cases hread : t.readFile current path with
  | ok bytes =>
    rw [hread] at h
    obtain ⟨rfl, rfl⟩ := ends_pure.mp h
    exact ⟨rfl, fun _ hbytes => by rw [Except.ok.inj hbytes]⟩
  | error e =>
    rw [hread] at h
    cases e with
    | notFound =>
      obtain ⟨rfl, rfl⟩ := ends_throw.mp h
      exact ⟨rfl, by simp⟩
    | _ =>
      obtain ⟨rfl, rfl⟩ := ends_throw.mp h
      exact ⟨rfl, by simp⟩

theorem ends_hierarchyFile {r : Except LoadError Hierarchy}
    (h : Ends (Load.hierarchyFile (fileSystem current) path) t r t₁) :
    t₁ = t ∧ ∀ hierarchy, r = .ok hierarchy → ∃ bytes, t.readFile current path = .ok bytes ∧
      Load.hierarchy path bytes = .ok hierarchy := by
  rw [Load.hierarchyFile, ends_bind] at h
  rcases h with ⟨bytes, t', hread, h⟩ | ⟨e, hread, rfl⟩
  · obtain ⟨rfl, hbytes⟩ := ends_readBytes hread
    obtain ⟨rfl, rfl⟩ := ends_liftExcept.mp h
    exact ⟨rfl, fun _ hok => ⟨bytes, hbytes bytes rfl, hok⟩⟩
  · exact ⟨(ends_readBytes hread).1, by simp⟩

theorem ends_observationPaths {paths : List String} {loaded : LoadedObservations}
    {r : Except LoadError LoadedObservations}
    (h : Ends (Load.observationPaths (fileSystem current) known loaded paths) t r t₁) :
    t₁ = t ∧ ∀ all, r = .ok all → ∀ path ∈ paths, ∃ bytes document,
      t.readFile current path = .ok bytes ∧ Load.observations path bytes = .ok document := by
  induction paths generalizing loaded with
  | nil => exact ⟨(ends_pure.mp h).2, by simp⟩
  | cons path rest ih =>
    rw [Load.observationPaths, ends_bind] at h
    rcases h with ⟨bytes, t', hread, h⟩ | ⟨e, hread, rfl⟩
    · obtain ⟨rfl, hbytes⟩ := ends_readBytes hread
      rw [ends_bind] at h
      rcases h with ⟨document, t'', hdocument, h⟩ | ⟨e, hdocument, rfl⟩
      · obtain ⟨hparsed, rfl⟩ := ends_liftExcept.mp hdocument
        obtain ⟨rfl, hrest⟩ := ih h
        refine ⟨rfl, fun all hall => List.forall_mem_cons.mpr ⟨?_, hrest all hall⟩⟩
        exact ⟨bytes, document, hbytes bytes rfl, hparsed.symm⟩
      · exact ⟨(ends_liftExcept.mp hdocument).2, by simp⟩
    · exact ⟨(ends_readBytes hread).1, by simp⟩

theorem ends_observationFiles {pattern : Glob.Pattern} {r : Except LoadError (List String)}
    (h : Ends (Load.observationFiles (fileSystem current) directory pattern) t r t₁) :
    t₁ = t ∧ ∀ paths, r = .ok paths → t.status current directory = .directory ∧
      ∃ names, t.regularFiles current directory = .ok names ∧
        paths = (Load.matchingNames pattern names).map (Path.join directory) := by
  rw [Load.observationFiles, ends_bind_of_lift (run_status t current directory)] at h
  cases hstatus : t.status current directory with
  | missing =>
    rw [hstatus] at h
    obtain ⟨rfl, rfl⟩ := ends_throw.mp h
    exact ⟨rfl, by simp⟩
  | nonDirectory =>
    rw [hstatus] at h
    obtain ⟨rfl, rfl⟩ := ends_throw.mp h
    exact ⟨rfl, by simp⟩
  | directory =>
    rw [hstatus] at h
    dsimp only at h
    rw [ends_bind_of_lift (run_regularFiles t current directory)] at h
    cases hnames : t.regularFiles current directory with
    | error e =>
      rw [hnames] at h
      obtain ⟨rfl, rfl⟩ := ends_throw.mp h
      exact ⟨rfl, by simp⟩
    | ok names =>
      rw [hnames] at h
      obtain ⟨rfl, rfl⟩ := ends_pure.mp h
      exact ⟨rfl, fun paths hpaths => ⟨rfl, names, rfl, (Except.ok.inj hpaths).symm⟩⟩

structure ReadsObservations (t : FileTree) (current : Location)
    (directory patternText : String) : Prop where
  status : t.status current directory = .directory
  documents : ∃ pattern names, Load.pattern patternText = .ok pattern ∧
    t.regularFiles current directory = .ok names ∧
    ∀ name ∈ names, pattern.isMatch (Utf8.encodeString name) = true → ∃ bytes document,
      t.readFile current (Path.join directory name) = .ok bytes ∧
      Load.observations (Path.join directory name) bytes = .ok document

theorem ends_observationDirectory {hierarchy : Hierarchy} {r : Except LoadError LoadedObservations}
    (h : Ends (Load.observationDirectory (fileSystem current) directory patternText hierarchy)
      t r t₁) :
    t₁ = t ∧ ∀ loaded, r = .ok loaded → ReadsObservations t current directory patternText := by
  rw [Load.observationDirectory, ends_bind] at h
  rcases h with ⟨pattern, t', hpattern, h⟩ | ⟨e, hpattern, rfl⟩
  · obtain ⟨hparsed, rfl⟩ := ends_liftExcept.mp hpattern
    rw [ends_bind] at h
    rcases h with ⟨paths, t'', hpaths, h⟩ | ⟨e, hpaths, rfl⟩
    · obtain ⟨rfl, hfiles⟩ := ends_observationFiles hpaths
      obtain ⟨rfl, hread⟩ := ends_observationPaths h
      refine ⟨rfl, fun loaded hloaded => ?_⟩
      obtain ⟨hstatus, names, hnames, rfl⟩ := hfiles paths rfl
      refine ⟨hstatus, pattern, names, hparsed.symm, hnames, fun name hname hmatch => ?_⟩
      apply hread loaded hloaded
      apply List.mem_map_of_mem
      exact List.mem_mergeSort.mpr (List.mem_filter.mpr ⟨hname, hmatch⟩)
    · exact ⟨(ends_observationFiles hpaths).1, by simp⟩
  · exact ⟨(ends_liftExcept.mp hpattern).2, by simp⟩

end Reading

section Directories

def OnlyBuilds (y : StateM FileTree α) : Prop := ∀ t, Builds t (y.run t).2

theorem onlyBuilds_pure (a : α) : OnlyBuilds (pure a) := Builds.refl

theorem OnlyBuilds.bind {y : StateM FileTree β} {f : β → StateM FileTree α} (hy : OnlyBuilds y)
    (hf : ∀ b, OnlyBuilds (f b)) : OnlyBuilds (y >>= f) :=
  fun t => (hy t).trans (hf _ _)

theorem onlyBuilds_makeDirectory (current : Location) (path : String) :
    OnlyBuilds ((fileSystem current).makeDirectory path) := by
  intro t
  change Builds t (attempt (fun t => t.makeDirectory current path) t).2
  rw [attempt]
  split
  · next hmake =>
    obtain ⟨x, hgraft⟩ := grafts_of_makeDirectory hmake
    exact ⟨hgraft.keeps, hgraft.sameFiles⟩
  · exact Builds.refl t

theorem onlyBuilds_acceptExisting (current : Location) (path : String)
    (result : Except OsError Unit) :
    OnlyBuilds ((fileSystem current).acceptExisting path result) := by
  cases result with
  | ok => exact onlyBuilds_pure _
  | error e =>
    refine OnlyBuilds.bind (fun t => Builds.refl t) fun status => ?_
    cases status with
    | directory => exact onlyBuilds_pure _
    | missing => exact onlyBuilds_pure _
    | nonDirectory => exact onlyBuilds_pure _

theorem onlyBuilds_makeChain (current : Location) (paths : List String) :
    OnlyBuilds ((fileSystem current).makeChain paths) := by
  induction paths with
  | nil => exact onlyBuilds_pure _
  | cons path above ih =>
    refine (onlyBuilds_makeDirectory current path).bind fun first => ?_
    split
    · refine ih.bind fun built => ?_
      cases built with
      | error e => exact onlyBuilds_pure _
      | ok =>
        exact (onlyBuilds_makeDirectory current path).bind
          (onlyBuilds_acceptExisting current path)
    · exact onlyBuilds_acceptExisting current path first

theorem onlyBuilds_makeDirectories (current : Location) (path : String) :
    OnlyBuilds ((fileSystem current).makeDirectories path) :=
  onlyBuilds_makeChain current (Path.chain path)

end Directories

end VtableMerge.FileTree
