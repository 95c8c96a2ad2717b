import VtableMerge.FileSystem.Tree

/-!
Trees in which every entry lies in a directory. A change puts one entry into a directory, in
place of nothing or a file in place of a file, so directories, links and files remain what they
are. Contents of files change at one location at most, and nothing becomes read-only.
-/
namespace VtableMerge.FileTree

variable {t t₁ t₂ : FileTree} {loc other changed : Location} {entry : FileEntry}

section Entries

theorem entry?_root (t : FileTree) : t.entry? [] = some .directory := rfl

theorem entry?_eq_lookup (t : FileTree) (hloc : loc ≠ []) :
    t.entry? loc = t.entries.lookup loc := by
  unfold entry?
  rw [if_neg (by simpa using hloc)]

theorem lookup_filter_ne (entries : List (Location × FileEntry)) (hne : other ≠ loc) :
    (entries.filter fun e => e.1 != loc).lookup other = entries.lookup other := by
  induction entries with
  | nil => rfl
  | cons e entries ih =>
    obtain ⟨at_, entry⟩ := e
    by_cases hat : at_ = loc
    · subst hat
      simpa [List.lookup_cons, beq_eq_false_iff_ne.mpr hne] using ih
    · simp [hat, List.lookup_cons, ih]

theorem entry?_set_self (hloc : loc ≠ []) : entry? (t.set loc entry) loc = some entry := by
  rw [entry?_eq_lookup _ hloc]
  simp [set]

theorem entry?_set_of_ne (hne : other ≠ loc) :
    entry? (t.set loc entry) other = t.entry? other := by
  by_cases hroot : other = []
  · rw [hroot, entry?_root, entry?_root]
  · rw [entry?_eq_lookup _ hroot, entry?_eq_lookup _ hroot, set, List.lookup_cons,
      beq_eq_false_iff_ne.mpr hne]
    exact lookup_filter_ne t.entries hne

theorem isReadOnly_set :
    (t.set loc entry).isReadOnly other = true ↔ t.isReadOnly other = true ∧ other ≠ loc := by
  simp [isReadOnly, set]

theorem put_eq_ok_iff :
    t.put changed loc entry = .ok t₁ ↔ t.isReadOnly changed = false ∧ t₁ = t.set loc entry := by
  unfold put
  split
  · next hyes => simp [hyes]
  · next hno => simp [hno, eq_comm]

end Entries

/-- Every entry lies in a directory. -/
def WellFormed (t : FileTree) : Prop :=
  ∀ e ∈ t.entries, t.entry? e.1.dropLast = some .directory

instance (t : FileTree) : Decidable t.WellFormed := List.decidableBAll _ _

theorem WellFormed.parent (ht : t.WellFormed) (hentry : t.entry? loc = some entry) :
    t.entry? loc.dropLast = some .directory := by
  by_cases hloc : loc = []
  · rw [hloc, List.dropLast_nil, entry?_root]
  · rw [entry?_eq_lookup t hloc] at hentry
    obtain ⟨before, after, hsplit, -⟩ := List.lookup_eq_some_iff.mp hentry
    exact ht (loc, entry) (by simp [hsplit])

/-- One entry is put into a directory, where there was none, or a file where there was a file. -/
structure Grafts (t : FileTree) (loc : Location) (entry : FileEntry) (t₁ : FileTree) : Prop where
  eq_set : t₁ = t.set loc entry
  ne_root : loc ≠ []
  parent : t.entry? loc.dropLast = some .directory
  replaced : t.entry? loc = none ∨
    (∃ content, t.entry? loc = some (.file content)) ∧ ∃ content, entry = .file content

/-- Directories and links remain, and files remain files. Nothing becomes read-only. -/
structure Keeps (t t₁ : FileTree) : Prop where
  wellFormed : t.WellFormed → t₁.WellFormed
  directory : ∀ loc, t.entry? loc = some .directory → t₁.entry? loc = some .directory
  link : ∀ loc target, t.entry? loc = some (.link target) → t₁.entry? loc = some (.link target)
  file : ∀ loc content, t.entry? loc = some (.file content) →
    ∃ content, t₁.entry? loc = some (.file content)
  readOnly : ∀ loc, t₁.isReadOnly loc = true → t.isReadOnly loc = true

theorem Keeps.refl (t : FileTree) : Keeps t t :=
  ⟨id, fun _ h => h, fun _ _ h => h, fun _ content h => ⟨content, h⟩, fun _ h => h⟩

theorem Keeps.trans (h : Keeps t t₁) (h₁ : Keeps t₁ t₂) : Keeps t t₂ where
  wellFormed ht := h₁.wellFormed (h.wellFormed ht)
  directory loc hloc := h₁.directory loc (h.directory loc hloc)
  link loc target hloc := h₁.link loc target (h.link loc target hloc)
  file loc content hloc := by
    obtain ⟨content₁, hloc₁⟩ := h.file loc content hloc
    exact h₁.file loc content₁ hloc₁
  readOnly loc hloc := h.readOnly loc (h₁.readOnly loc hloc)

def SameFiles (t t₁ : FileTree) : Prop :=
  ∀ loc content, t₁.entry? loc = some (.file content) ↔ t.entry? loc = some (.file content)

theorem SameFiles.refl (t : FileTree) : SameFiles t t := fun _ _ => Iff.rfl

theorem SameFiles.trans (h : SameFiles t t₁) (h₁ : SameFiles t₁ t₂) : SameFiles t t₂ :=
  fun loc content => (h₁ loc content).trans (h loc content)

namespace Grafts

theorem entry?_self (h : Grafts t loc entry t₁) : t₁.entry? loc = some entry := by
  rw [h.eq_set, entry?_set_self h.ne_root]

theorem entry?_of_ne (h : Grafts t loc entry t₁) (hne : other ≠ loc) :
    t₁.entry? other = t.entry? other := by
  rw [h.eq_set, entry?_set_of_ne hne]

theorem isReadOnly_iff (h : Grafts t loc entry t₁) :
    t₁.isReadOnly other = true ↔ t.isReadOnly other = true ∧ other ≠ loc := by
  rw [h.eq_set, isReadOnly_set]

theorem ne_of_no_file (h : Grafts t loc entry t₁) {e : FileEntry} (hother : t.entry? other = some e)
    (he : ∀ content, e ≠ .file content) : other ≠ loc := by
  rintro rfl
  rcases h.replaced with hnone | ⟨⟨content, hfile⟩, -⟩
  · rw [hnone] at hother
    cases hother
  · rw [hfile] at hother
    exact he content (Option.some.inj hother).symm

theorem keeps_no_file (h : Grafts t loc entry t₁) {e : FileEntry}
    (hother : t.entry? other = some e) (he : ∀ content, e ≠ .file content) :
    t₁.entry? other = some e := by
  rw [h.entry?_of_ne (h.ne_of_no_file hother he), hother]

theorem keeps_file (h : Grafts t loc entry t₁) {content : List UInt8}
    (hother : t.entry? other = some (.file content)) :
    ∃ content, t₁.entry? other = some (.file content) := by
  by_cases hne : other = loc
  · subst hne
    rcases h.replaced with hnone | ⟨-, content', hentry⟩
    · rw [hnone] at hother
      cases hother
    · exact ⟨content', h.entry?_self.trans (congrArg some hentry)⟩
  · exact ⟨content, (h.entry?_of_ne hne).trans hother⟩

theorem keeps (h : Grafts t loc entry t₁) : Keeps t t₁ where
  wellFormed ht := by
    intro e he
    rw [h.eq_set] at he
    rcases List.mem_cons.mp he with rfl | hmem
    · exact h.keeps_no_file h.parent (by simp)
    · exact h.keeps_no_file (ht e (List.mem_filter.mp hmem).1) (by simp)
  directory _ hother := h.keeps_no_file hother (by simp)
  link _ _ hother := h.keeps_no_file hother (by simp)
  file _ _ hother := h.keeps_file hother
  readOnly _ hother := (h.isReadOnly_iff.mp hother).1

theorem entry?_of_no_file {content : List UInt8} (h : Grafts t loc (.file content) t₁)
    {e : FileEntry} (hother : t₁.entry? other = some e) (he : ∀ content, e ≠ .file content) :
    t.entry? other = some e := by
  have hne : other ≠ loc := by
    rintro rfl
    rw [h.entry?_self] at hother
    exact he content (Option.some.inj hother).symm
  rw [← h.entry?_of_ne hne, hother]

/-- A new directory is no change of a file. -/
theorem sameFiles (h : Grafts t loc .directory t₁) : SameFiles t t₁ := by
  intro other content
  by_cases hne : other = loc
  · subst hne
    rcases h.replaced with hnone | ⟨-, content', hentry⟩
    · rw [h.entry?_self, hnone]
      simp
    · cases hentry
  · rw [h.entry?_of_ne hne]

end Grafts

end VtableMerge.FileTree
