import VtableMerge.Load
import VtableMerge.Proofs.ByteOrder
import VtableMerge.Proofs.KeyedEntries
import VtableMerge.Proofs.Trees

/-!
The files that a pattern offers in a directory. In a tree that has each location once, the regular
files directly inside a directory are those whose entries say so, and the matching ones in the
order of their names are one list, in whatever order the entries of the tree stand.
-/
namespace VtableMerge

namespace Load
variable {pattern : Glob.Pattern} {names : List String}

theorem mem_matchingNames {name : String} : name ∈ matchingNames pattern names ↔
    name ∈ names ∧ pattern.isMatch (Utf8.encodeString name) = true := by
  rw [matchingNames, List.mem_mergeSort, List.mem_filter]

/-- Distinct names are put into the order of their bytes. -/
theorem pairwise_matchingNames (hdistinct : names.Nodup) :
    (matchingNames pattern names).Pairwise
      fun a b => Utf8.encodeString a < Utf8.encodeString b := by
  have hsorted : (matchingNames pattern names).Pairwise fun a b => a ≤ b := by
    rw [matchingNames]
    refine (List.pairwise_mergeSort ?_ ?_ _).imp ?_
    all_goals
      simp only [Bool.not_eq_true', Bool.or_eq_true, decide_eq_false_iff_not, not_lt]
    · exact fun a b c => le_trans
    · exact le_total
    · exact id
  have hnodup : (matchingNames pattern names).Nodup :=
    (List.mergeSort_perm _ _).nodup_iff.mpr (hdistinct.filter _)
  exact hsorted.imp₂ (fun a b hle hne => Utf8.encodeString_lt_iff.mpr (lt_of_le_of_ne hle hne))
    hnodup

end Load

namespace FileTree
variable {t : FileTree} {current loc : Location} {directory name : String}
  {pattern : Glob.Pattern} {content : List UInt8}

section Entries

theorem entry?_eq_some_iff_mem (hdistinct : (t.entries.map Prod.fst).Nodup) (hloc : loc ≠ [])
    {entry : FileEntry} : t.entry? loc = some entry ↔ (loc, entry) ∈ t.entries := by
  rw [entry?_eq_lookup t hloc, List.lookup_eq_some_iff]
  constructor
  · rintro ⟨before, after, hsplit, -⟩
    simp [hsplit]
  · intro hmem
    obtain ⟨before, after, hsplit⟩ := List.append_of_mem hmem
    refine ⟨before, after, hsplit, fun e he => ?_⟩
    rw [hsplit, List.map_append, List.nodup_append] at hdistinct
    simpa using fun heq : loc = e.1 =>
      hdistinct.2.2 e.1 (List.mem_map_of_mem he) loc (by simp) heq.symm

theorem fileNameIn?_eq_some_iff {e : Location × FileEntry} :
    fileNameIn? loc e = some name ↔ e.1 = loc ++ [name] ∧ ∃ content, e.2 = .file content := by
  obtain ⟨at_, entry⟩ := e
  cases entry with
  | directory => simp [fileNameIn?]
  | link target => simp [fileNameIn?]
  | file content =>
    rcases List.eq_nil_or_concat at_ with rfl | ⟨front, last, rfl⟩
    · simp [fileNameIn?]
    · simp [fileNameIn?, List.append_eq_append_iff_of_size_eq_right]

/-- The regular files directly inside a directory are found at their locations. -/
theorem mem_filterMap_fileNameIn? (hdistinct : (t.entries.map Prod.fst).Nodup) :
    name ∈ t.entries.filterMap (fileNameIn? loc) ↔
      ∃ content, t.entry? (loc ++ [name]) = some (.file content) := by
  rw [List.mem_filterMap]
  simp only [fileNameIn?_eq_some_iff, entry?_eq_some_iff_mem hdistinct (List.concat_ne_nil _ _)]
  constructor
  · rintro ⟨⟨_, _⟩, hmem, rfl, content, rfl⟩
    exact ⟨content, hmem⟩
  · rintro ⟨content, hmem⟩
    exact ⟨_, hmem, rfl, content, rfl⟩

theorem nodup_filterMap_fileNameIn? (hdistinct : (t.entries.map Prod.fst).Nodup) :
    (t.entries.filterMap (fileNameIn? loc)).Nodup := by
  refine (List.pairwise_map.mp hdistinct).filterMap _ fun e f hne name hname name' hname' => ?_
  rintro rfl
  obtain ⟨he, -⟩ := fileNameIn?_eq_some_iff.mp hname
  obtain ⟨hf, -⟩ := fileNameIn?_eq_some_iff.mp hname'
  exact hne (he.trans hf.symm)

theorem regularFiles_of_locate (hlocate : t.locate current directory = .ok loc)
    (hentry : t.entry? loc = some .directory) :
    t.regularFiles current directory = .ok (t.entries.filterMap (fileNameIn? loc)) := by
  simp only [regularFiles, hlocate, bind, Except.bind, hentry]
  rfl

theorem status_of_locate (hlocate : t.locate current directory = .ok loc)
    (hentry : t.entry? loc = some .directory) : t.status current directory = .directory := by
  simp [status, hlocate, hentry]

end Entries

structure Offers (t : FileTree) (loc : Location) (pattern : Glob.Pattern) (name : String)
    (content : List UInt8) : Prop where
  entry : t.entry? (loc ++ [name]) = some (.file content)
  isMatch : pattern.isMatch (Utf8.encodeString name) = true

structure Lists (t : FileTree) (loc : Location) (pattern : Glob.Pattern)
    (contents : List (String × List UInt8)) : Prop where
  mem_iff : ∀ name content, (name, content) ∈ contents ↔ t.Offers loc pattern name content
  ascending : contents.Pairwise fun a b => Utf8.encodeString a.1 < Utf8.encodeString b.1

/-- Two directories that offer the same files list them alike. -/
theorem Lists.unique {t' : FileTree} {loc' : Location}
    {contents contents' : List (String × List UInt8)} (h : t.Lists loc pattern contents)
    (h' : t'.Lists loc' pattern contents')
    (hoffers : ∀ name content, t.Offers loc pattern name content ↔
      t'.Offers loc' pattern name content) : contents = contents' := by
  refine Keyed.Ascending.eq_of_mem_iff (h.ascending.imp Utf8.encodeString_lt_iff.mp)
    (h'.ascending.imp Utf8.encodeString_lt_iff.mp) fun ⟨name, content⟩ => ?_
  rw [h.mem_iff, hoffers, ← h'.mem_iff]

def contentAt (t : FileTree) (loc : Location) : List UInt8 :=
  match t.entry? loc with
  | some (.file content) => content
  | _ => []

/-- The matching names of a directory are those of its files, in the same order. -/
theorem exists_lists (hdistinct : (t.entries.map Prod.fst).Nodup) (loc : Location)
    (pattern : Glob.Pattern) : ∃ contents, t.Lists loc pattern contents ∧
      contents.map Prod.fst =
        Load.matchingNames pattern (t.entries.filterMap (fileNameIn? loc)) := by
  have hmem : ∀ name,
      name ∈ Load.matchingNames pattern (t.entries.filterMap (fileNameIn? loc)) ↔
        t.Offers loc pattern name (t.contentAt (loc ++ [name])) := by
    intro name
    rw [Load.mem_matchingNames, mem_filterMap_fileNameIn? hdistinct]
    constructor
    · rintro ⟨⟨content, hentry⟩, hmatch⟩
      exact ⟨by rw [contentAt, hentry], hmatch⟩
    · exact fun ⟨hentry, hmatch⟩ => ⟨⟨_, hentry⟩, hmatch⟩
  refine ⟨(Load.matchingNames pattern (t.entries.filterMap (fileNameIn? loc))).map fun name =>
    (name, t.contentAt (loc ++ [name])), ⟨fun name content => ?_, ?_⟩, ?_⟩
  · rw [List.mem_map]
    constructor
    · rintro ⟨_, hname, heq⟩
      cases heq
      exact (hmem name).mp hname
    · intro hoffers
      have hcontent : t.contentAt (loc ++ [name]) = content := by rw [contentAt, hoffers.entry]
      refine ⟨name, (hmem name).mpr ?_, by rw [hcontent]⟩
      rwa [hcontent]
  · exact List.pairwise_map.mpr
      (Load.pairwise_matchingNames (nodup_filterMap_fileNameIn? hdistinct))
  · rw [List.map_map]
    exact List.map_id _

end FileTree

end VtableMerge
