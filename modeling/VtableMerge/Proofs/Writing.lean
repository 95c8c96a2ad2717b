import VtableMerge.Proofs.Places

/-!
What the changes of a tree do. A written file is at one location, which is where its path leads
afterwards; every other entry remains. Paths that did not lead there lead to the same places as
before. Making directories changes no file.
-/
namespace VtableMerge.FileTree

variable {t t₁ t₂ : FileTree} {current x c : Location} {path : String} {content : List UInt8}

structure Writes (t : FileTree) (current : Location) (path : String) (content : List UInt8)
    (x : Location) (t₁ : FileTree) : Prop extends Grafts t x (.file content) t₁ where
  located : t₁.locate current path = .ok x
  found : t.locate current path = .ok x ∨ t.entry? x = none

theorem grafts_of_file (ht : t.WellFormed) {old : List UInt8} (hx : t.entry? x = some (.file old)) :
    Grafts t x (.file content) (t.set x (.file content)) := by
  refine ⟨rfl, ?_, ht.parent hx, .inr ⟨⟨old, hx⟩, content, rfl⟩⟩
  rintro rfl
  cases hx

theorem writes_of_writeFile (ht : t.WellFormed)
    (hwrite : t.writeFile current path content = .ok t₁) :
    ∃ x, Writes t current path content x t₁ := by
  have hparts := Path.parts_ne_nil path
  rw [writeFile] at hwrite
  cases hplace : t.place .writeFile current path with
  | error e =>
    rw [hplace] at hwrite
    cases hwrite
  | ok place =>
    obtain ⟨husable, hroute⟩ := place_eq_ok_iff.mp hplace
    rw [if_neg (by simp)] at hroute
    rw [hplace] at hwrite
    cases place with
    | found x =>
      obtain ⟨entry, hentry, hlink⟩ :=
        hroute.exists_entry ht (by simp) rfl fun h => absurd h hparts
      have hlocated : t.locate current path = .ok x := locate_eq_ok_iff.mpr ⟨husable, hroute.use⟩
      simp only [bind, Except.bind, hentry] at hwrite
      cases entry with
      | directory => cases hwrite
      | link target => exact absurd rfl (hlink target)
      | file old =>
        obtain ⟨-, rfl⟩ := put_eq_ok_iff.mp hwrite
        have hgraft := @grafts_of_file t x content ht old hentry
        exact ⟨x, hgraft, locate_mono hgraft.keeps hlocated, .inl hlocated⟩
    | free x =>
      obtain ⟨hnone, hroot, hparent⟩ := hroute.free_entry rfl
      obtain ⟨-, rfl⟩ := put_eq_ok_iff.mp hwrite
      have hgraft : Grafts t x (.file content) (t.set x (.file content)) :=
        ⟨rfl, hroot, hparent, .inl hnone⟩
      exact ⟨x, hgraft, locate_eq_ok_iff.mpr ⟨husable, (hroute.written hgraft rfl).use⟩, .inr hnone⟩

theorem Writes.readFile_eq (h : Writes t current path content x t₁) :
    t₁.readFile current path = .ok content :=
  readFile_eq_ok_iff.mpr ⟨x, h.located, h.toGrafts.entry?_self⟩

theorem grafts_of_makeDirectory (hmake : t.makeDirectory current path = .ok t₁) :
    ∃ x, Grafts t x .directory t₁ := by
  rw [makeDirectory] at hmake
  cases hplace : t.place .makeDirectory current path with
  | error e =>
    rw [hplace] at hmake
    cases hmake
  | ok place =>
    rw [hplace] at hmake
    cases place with
    | found x => cases hmake
    | free x =>
      obtain ⟨-, hroute⟩ := place_eq_ok_iff.mp hplace
      obtain ⟨hnone, hroot, hparent⟩ := hroute.free_entry rfl
      obtain ⟨-, rfl⟩ := put_eq_ok_iff.mp hmake
      exact ⟨x, rfl, hroot, hparent, .inl hnone⟩

/-- The directories of a path are made, all of them or some. -/
structure Builds (t t₁ : FileTree) : Prop extends Keeps t t₁ where
  sameFiles : SameFiles t t₁

theorem Builds.refl (t : FileTree) : Builds t t := ⟨Keeps.refl t, SameFiles.refl t⟩

theorem Builds.trans (h : Builds t t₁) (h₁ : Builds t₁ t₂) : Builds t t₂ :=
  ⟨h.toKeeps.trans h₁.toKeeps, h.sameFiles.trans h₁.sameFiles⟩

/-- Documents are written one after the other, up to the first that cannot be written. -/
inductive Attempts (current : Location) :
    FileTree → List (String × List UInt8) → Option (String × OsError) → FileTree → Prop
  | done (t : FileTree) : Attempts current t [] none t
  | failed {t path content rest e} (hwrite : t.writeFile current path content = .error e) :
      Attempts current t ((path, content) :: rest) (some (path, e)) t
  | wrote {t t₁ t₂ path content rest failure}
      (hwrite : t.writeFile current path content = .ok t₁)
      (hrest : Attempts current t₁ rest failure t₂) :
      Attempts current t ((path, content) :: rest) failure t₂

variable {docs more : List (String × List UInt8)} {failure : Option (String × OsError)}

theorem Attempts.of_append (h : Attempts current t (docs ++ more) failure t₂) :
    (Attempts current t docs failure t₂ ∧ failure.isSome) ∨
      ∃ t₁, Attempts current t docs none t₁ ∧ Attempts current t₁ more failure t₂ := by
  induction docs generalizing t with
  | nil => exact .inr ⟨t, .done t, h⟩
  | cons doc docs ih =>
    cases h with
    | failed hwrite => exact .inl ⟨.failed hwrite, rfl⟩
    | wrote hwrite hrest =>
      rcases ih hrest with ⟨hdocs, hfailure⟩ | ⟨t₁, hdocs, hmore⟩
      · exact .inl ⟨.wrote hwrite hdocs, hfailure⟩
      · exact .inr ⟨t₁, .wrote hwrite hdocs, hmore⟩

theorem Attempts.keeps (ht : t.WellFormed) (h : Attempts current t docs failure t₁) :
    Keeps t t₁ := by
  induction h with
  | done t => exact Keeps.refl t
  | @failed t => exact Keeps.refl t
  | wrote hwrite _ ih =>
    obtain ⟨x, hx⟩ := writes_of_writeFile ht hwrite
    have hkeeps := hx.toGrafts.keeps
    exact hkeeps.trans (ih (hkeeps.wellFormed ht))

/-- A path that leads to another file neither changes this one nor makes other paths lead to
it. -/
theorem Writes.spares (h : Writes t current path content x t₁) {old : List UInt8}
    (hc : t.entry? c = some (.file old)) (hpath : t.locate current path ≠ .ok c) :
    t₁.entry? c = some (.file old) ∧
      ∀ other, t.locate current other ≠ .ok c → t₁.locate current other ≠ .ok c := by
  have hne : c ≠ x := by
    rintro rfl
    rcases h.found with hfound | hnone
    · exact hpath hfound
    · rw [hnone] at hc
      cases hc
  refine ⟨(h.toGrafts.entry?_of_ne hne).trans hc, fun other hother hlocated => ?_⟩
  obtain ⟨husable, hroute⟩ := locate_eq_ok_iff.mp hlocated
  rcases hroute.back h.toGrafts rfl with hx | hbefore
  · exact hne hx
  · exact hother (locate_eq_ok_iff.mpr ⟨husable, hbefore⟩)

/-- Documents whose paths lead elsewhere at first leave a file as it is. -/
theorem Attempts.spares (ht : t.WellFormed) (h : Attempts current t docs failure t₁)
    {old : List UInt8} (hc : t.entry? c = some (.file old))
    (hdocs : ∀ doc ∈ docs, t.locate current doc.1 ≠ .ok c) :
    t₁.entry? c = some (.file old) := by
  induction h with
  | done => exact hc
  | failed => exact hc
  | wrote hwrite _ ih =>
    obtain ⟨x, hx⟩ := writes_of_writeFile ht hwrite
    obtain ⟨hfirst, hrest⟩ := List.forall_mem_cons.mp hdocs
    -- A new file can make later paths lead somewhere, but only to itself.
    obtain ⟨hkept, hothers⟩ := hx.spares hc hfirst
    exact ih (hx.toGrafts.keeps.wellFormed ht) hkept fun doc hdoc => hothers doc.1 (hrest doc hdoc)

/-- Only files to which the paths of the documents lead in the end are changed. -/
theorem Attempts.changes (ht : t.WellFormed) (h : Attempts current t docs failure t₁)
    (c : Location) : t₁.entry? c = t.entry? c ∨ ∃ doc ∈ docs, t₁.locate current doc.1 = .ok c := by
  induction h with
  | done => exact .inl rfl
  | failed => exact .inl rfl
  | @wrote t t₁ t₂ path content rest failure hwrite hrest ih =>
    obtain ⟨x, hx⟩ := writes_of_writeFile ht hwrite
    have ht₁ := hx.toGrafts.keeps.wellFormed ht
    by_cases hc : c = x
    -- Later documents do not change where this path leads.
    · subst hc
      exact .inr ⟨(path, content), by simp, locate_mono (hrest.keeps ht₁) hx.located⟩
    · rcases ih ht₁ with hsame | ⟨doc, hdoc, hlocated⟩
      · exact .inl (hsame.trans (hx.toGrafts.entry?_of_ne hc))
      · exact .inr ⟨doc, List.mem_cons_of_mem _ hdoc, hlocated⟩

end VtableMerge.FileTree
