import VtableMerge.Proofs.Routes

/-!
Where the texts of paths lead. The path of a name in a directory leads to that name in the place
to which the path of the directory leads, with or without a slash at its end, unless a link has
the name.
-/
namespace VtableMerge

namespace Path

theorem split_ne_nil (cs : List Char) : split cs ≠ [] := by
  cases cs with
  | nil => simp [split]
  | cons c cs =>
    rw [split]
    split
    · simp
    · split <;> simp

theorem split_append_slash (before after : List Char) :
    split (before ++ '/' :: after) = split before ++ split after := by
  induction before with
  | nil => simp [split]
  | cons c before ih =>
    rw [List.cons_append, split, split, ih]
    obtain ⟨part, parts, hsplit⟩ := List.exists_cons_of_ne_nil (split_ne_nil before)
    rw [hsplit]
    split
    · rfl
    · rfl

theorem split_of_no_slash {cs : List Char} (hcs : '/' ∉ cs) : split cs = [cs] := by
  induction cs with
  | nil => rfl
  | cons c cs ih =>
    simp only [List.mem_cons, not_or] at hcs
    rw [split, if_neg (Ne.symm hcs.1), ih hcs.2]

theorem parts_ne_nil (path : String) : parts path ≠ [] := by
  simpa [parts] using split_ne_nil path.toList

variable {directory name : String}

theorem parts_of_no_slash (hname : '/' ∉ name.toList) : parts name = [name] := by
  simp [parts, split_of_no_slash hname]

/-- The text before a name in a path, which ends in a slash and denotes the directory as well. -/
theorem exists_join_eq (hdirectory : directory.isEmpty = false) (name : String) :
    ∃ before, (join directory name).toList = before ++ '/' :: name.toList ∧
      (directory.toList = before ∨ directory.toList = before ++ ['/']) := by
  rw [join, if_neg (by simp [hdirectory])]
  split
  · next hslash =>
    obtain ⟨before, hbefore⟩ := List.getLast?_eq_some_iff.mp (beq_iff_eq.mp hslash)
    exact ⟨before, by simp [hbefore], .inr hbefore⟩
  · exact ⟨directory.toList, by simp, .inl rfl⟩

theorem exists_parts_join (hdirectory : directory.isEmpty = false) (hname : '/' ∉ name.toList) :
    ∃ before, parts (join directory name) = before ++ [name] ∧
      (parts directory = before ∨ parts directory = before ++ [""]) := by
  obtain ⟨before, hjoin, hdir⟩ := exists_join_eq hdirectory name
  refine ⟨(split before).map String.ofList, ?_, ?_⟩
  · simp [parts, hjoin, split_append_slash, split_of_no_slash hname]
  · rcases hdir with hdir | hdir
    · exact .inl (by rw [parts, hdir])
    · exact .inr (by simp [parts, hdir, split_append_slash, split])

theorem exists_join_eq_append (hdirectory : directory.isEmpty = false) (name : String) :
    ∃ after, join directory name = directory ++ after := by
  rw [join, if_neg (by simp [hdirectory])]
  split
  · exact ⟨name, rfl⟩
  · exact ⟨"/" ++ name, String.append_assoc⟩

theorem isAbsolute_join (hdirectory : directory.isEmpty = false) (name : String) :
    isAbsolute (join directory name) = isAbsolute directory := by
  obtain ⟨after, hafter⟩ := exists_join_eq_append hdirectory name
  have hne : directory.toList ≠ [] := by
    intro hnil
    rw [String.toList_eq_nil_iff.mp hnil] at hdirectory
    cases hdirectory
  obtain ⟨first, rest, hfirst⟩ := List.exists_cons_of_ne_nil hne
  rw [isAbsolute, isAbsolute, hafter, String.toList_append, hfirst]
  rfl

theorem isAbsolute_of_no_slash (hname : '/' ∉ name.toList) : isAbsolute name = false := by
  rw [isAbsolute]
  cases hchars : name.toList with
  | nil => rfl
  | cons first rest =>
    rw [hchars, List.mem_cons, not_or] at hname
    simpa using Ne.symm hname.1

end Path

namespace FileTree

variable {t t₁ : FileTree} {purpose : Purpose} {current x : Location} {path : String}
  {place : Place}

structure Usable (path : String) : Prop where
  nonempty : path.isEmpty = false
  clean : path.toList.contains '\x00' = false
  short : path.utf8ByteSize ≤ pathLimit

def start (current : Location) (path : String) : Location :=
  if Path.isAbsolute path then [] else current

theorem place_eq_ok_iff :
    t.place purpose current path = .ok place ↔ Usable path ∧
      Route t purpose linkLimit (start current path)
        (if purpose = .makeDirectory then withoutEndSlashes (Path.parts path)
          else Path.parts path) place := by
  constructor
  · intro h
    rw [FileTree.place] at h
    split at h
    · cases h
    · next hnonempty =>
      split at h
      · cases h
      · next hclean =>
        split at h
        · cases h
        · next hshort =>
          exact ⟨⟨by simpa using hnonempty, by simpa using hclean, Nat.not_lt.mp hshort⟩,
            walk_eq_ok_iff.mp h⟩
  · rintro ⟨husable, hroute⟩
    rw [FileTree.place, if_neg (by simp [husable.nonempty]),
      if_neg (ne_true_of_eq_false husable.clean), if_neg (Nat.not_lt.mpr husable.short)]
    exact walk_eq_ok_iff.mpr hroute

theorem locate_eq_ok_iff_place :
    t.locate current path = .ok x ↔ t.place .use current path = .ok (.found x) := by
  rw [locate]
  split
  · next hplace => simp [hplace]
  · next hplace => simp [hplace]
  · next hplace => simp [hplace]

theorem locate_eq_ok_iff :
    t.locate current path = .ok x ↔ Usable path ∧
      Route t .use linkLimit (start current path) (Path.parts path) (.found x) := by
  rw [locate_eq_ok_iff_place, place_eq_ok_iff, if_neg (by simp)]

theorem locate_mono (hkeeps : Keeps t t₁) (hx : t.locate current path = .ok x) :
    t₁.locate current path = .ok x := by
  obtain ⟨husable, hroute⟩ := locate_eq_ok_iff.mp hx
  exact locate_eq_ok_iff.mpr ⟨husable, hroute.mono hkeeps rfl⟩

theorem readFile_eq_ok_iff {content : List UInt8} :
    t.readFile current path = .ok content ↔
      ∃ x, t.locate current path = .ok x ∧ t.entry? x = some (.file content) := by
  rw [readFile]
  cases hx : t.locate current path with
  | error e => simp [bind, Except.bind]
  | ok x =>
    simp only [bind, Except.bind, Except.ok.injEq, exists_eq_left']
    split
    · next found hfound => simp [hfound, pure, Except.pure]
    · next hdirectory => simp [hdirectory]
    · next hfile _ => simpa using hfile content

theorem sameEntry_eq_true_iff {other : String} :
    t.sameEntry current path other = true ↔
      ∃ x, t.locate current path = .ok x ∧ t.locate current other = .ok x := by
  rw [sameEntry]
  split
  · next x y hx hy =>
    rw [hx, hy, beq_iff_eq]
    constructor
    · rintro rfl
      exact ⟨x, rfl, rfl⟩
    · rintro ⟨z, hxz, hyz⟩
      exact (Except.ok.inj hxz).trans (Except.ok.inj hyz).symm
  · next hneither =>
    simp only [Bool.false_eq_true, false_iff, not_exists]
    rintro x ⟨hx, hy⟩
    exact hneither x x hx hy

section Joined
variable {outDir name : String}

/-- The directory that receives documents, which is the current one for the empty path. -/
def Receives (t : FileTree) (current : Location) (outDir : String) (o : Location) : Prop :=
  if outDir.isEmpty then o = current else t.locate current outDir = .ok o

theorem usable_directory (hdirectory : outDir.isEmpty = false)
    (hjoin : Usable (Path.join outDir name)) : Usable outDir := by
  obtain ⟨after, hafter⟩ := Path.exists_join_eq_append hdirectory name
  rw [hafter] at hjoin
  refine ⟨hdirectory, ?_, ?_⟩
  · have hclean := hjoin.clean
    simp only [String.toList_append, List.contains_append, Bool.or_eq_false_iff] at hclean
    exact hclean.1
  · have hshort := hjoin.short
    rw [String.utf8ByteSize_append] at hshort
    omega

/-- A document is in the directory that receives it, or a link has its name. -/
theorem exists_receives (hname : IsName name) (hslash : '/' ∉ name.toList)
    (hx : t.locate current (Path.join outDir name) = .ok x) :
    ∃ o, Receives t current outDir o ∧
      ((∃ target, t.entry? (o ++ [name]) = some (.link target)) ∨ x = o ++ [name]) := by
  obtain ⟨husable, hroute⟩ := locate_eq_ok_iff.mp hx
  cases hdirectory : outDir.isEmpty with
  | true =>
    have hparts : Path.parts name = [] ++ [name] := Path.parts_of_no_slash hslash
    rw [Path.join, if_pos hdirectory, start, Path.isAbsolute_of_no_slash hslash,
      if_neg Bool.false_ne_true] at hroute
    obtain ⟨o, hprefix, -, hend⟩ := hroute.of_append_name hname hparts
    cases hprefix
    refine ⟨current, ?_, by simpa only [Place.found.injEq, reduceCtorEq, or_false] using hend⟩
    rw [Receives, if_pos hdirectory]
  | false =>
    obtain ⟨before, hjoin, hparts⟩ := Path.exists_parts_join hdirectory hslash
    obtain ⟨o, hprefix, ho, hend⟩ := hroute.of_append_name hname hjoin
    rw [start, Path.isAbsolute_join hdirectory] at hprefix
    refine ⟨o, ?_, by simpa only [Place.found.injEq, reduceCtorEq, or_false] using hend⟩
    rw [Receives, hdirectory, if_neg (by simp), locate_eq_ok_iff]
    refine ⟨usable_directory hdirectory husable, ?_⟩
    rcases hparts with hparts | hparts
    · rw [hparts]
      exact hprefix
    · rw [hparts]
      exact hprefix.append_slash rfl ho

end Joined

end FileTree

end VtableMerge
