import VtableMerge.Proofs.Trees

/-!
Walks as derivations. A route says step by step how the parts of a path lead from a location to
a place, independently of the order in which the walk tests its cases. What is true of all walks
is proved by induction on routes: a tree that keeps the entries keeps the routes, and a path with
one more name leads to that name in the directory to which the shorter path leads.
-/
namespace VtableMerge.FileTree

structure IsName (part : String) : Prop where
  nonempty : part.isEmpty = false
  ne_here : part ≠ "."
  ne_above : part ≠ ".."

structure Names (t : FileTree) (purpose : Purpose) (loc : Location) (part : String)
    (rest : List String) : Prop extends IsName part where
  directory : t.entry? loc = some .directory
  unslashed : purpose = .writeFile → isSlashed rest = false
  short : part.utf8ByteSize ≤ nameLimit

/-- How the parts of a path lead from a location to a place when so many links can be followed. -/
inductive Route (t : FileTree) (purpose : Purpose) :
    Nat → Location → List String → Place → Prop
  | done (links : Nat) (loc : Location) : Route t purpose links loc [] (.found loc)
  | stay {links loc part rest place} (hloc : t.entry? loc = some .directory)
      (hpart : part.isEmpty = true ∨ part = ".") (hrest : Route t purpose links loc rest place) :
      Route t purpose links loc (part :: rest) place
  | above {links loc rest place} (hloc : t.entry? loc = some .directory)
      (hrest : Route t purpose links loc.dropLast rest place) :
      Route t purpose links loc (".." :: rest) place
  | into {links loc part rest place entry} (hpart : Names t purpose loc part rest)
      (hentry : t.entry? (loc ++ [part]) = some entry) (hlink : ∀ target, entry ≠ .link target)
      (hrest : Route t purpose links (loc ++ [part]) rest place) :
      Route t purpose links loc (part :: rest) place
  | follow {links loc part rest place target} (hpart : Names t purpose loc part rest)
      (hentry : t.entry? (loc ++ [part]) = some (.link target))
      (hpurpose : purpose = .makeDirectory → rest ≠ [])
      (hrest : Route t purpose links (if Path.isAbsolute target then [] else loc)
        (Path.parts target ++ rest) place) :
      Route t purpose (links + 1) loc (part :: rest) place
  | atLink {links loc part target} (hpart : Names t purpose loc part [])
      (hentry : t.entry? (loc ++ [part]) = some (.link target))
      (hpurpose : purpose = .makeDirectory) :
      Route t purpose links loc [part] (.found (loc ++ [part]))
  | free {links loc part rest} (hpart : Names t purpose loc part rest)
      (hentry : t.entry? (loc ++ [part]) = none) (hrest : rest.all String.isEmpty = true) :
      Route t purpose links loc (part :: rest) (.free (loc ++ [part]))

variable {t t₁ : FileTree} {purpose : Purpose} {links : Nat} {loc : Location}
  {part name : String} {rest parts : List String} {place : Place}

section Walks
variable {follow : Location → List String → Except OsError Place}

theorem directory_of_walkWith (hwalk : t.walkWith purpose follow loc (part :: rest) = .ok place) :
    t.entry? loc = some .directory := by
  rw [walkWith] at hwalk
  split at hwalk
  · assumption
  · cases hwalk
  · cases hwalk

theorem walkWith_stay (hloc : t.entry? loc = some .directory)
    (hpart : part.isEmpty = true ∨ part = ".") :
    t.walkWith purpose follow loc (part :: rest) = t.walkWith purpose follow loc rest := by
  rw [walkWith, hloc]
  exact if_pos (by simpa using hpart)

theorem walkWith_above (hloc : t.entry? loc = some .directory) :
    t.walkWith purpose follow loc (".." :: rest) = t.walkWith purpose follow loc.dropLast rest := by
  rw [walkWith, hloc]
  rfl

theorem walkWith_name (hpart : Names t purpose loc part rest) :
    t.walkWith purpose follow loc (part :: rest) =
      match t.entry? (loc ++ [part]) with
      | none => if rest.all String.isEmpty then .ok (.free (loc ++ [part])) else .error .notFound
      | some (.link target) =>
        if purpose = .makeDirectory && rest.isEmpty then .ok (.found (loc ++ [part]))
        else follow (if Path.isAbsolute target then [] else loc) (Path.parts target ++ rest)
      | some _ => t.walkWith purpose follow (loc ++ [part]) rest := by
  have hstay : ¬(part.isEmpty || part == ".") = true := by
    simp [hpart.nonempty, hpart.ne_here]
  have habove : ¬(part == "..") = true := by simp [hpart.ne_above]
  have hslashed : ¬(decide (purpose = .writeFile) && isSlashed rest) = true := by
    by_cases hpurpose : purpose = .writeFile
    · simp [hpurpose, hpart.unslashed hpurpose]
    · simp [hpurpose]
  rw [walkWith, hpart.directory]
  exact (if_neg hstay).trans ((if_neg habove).trans
    ((if_neg hslashed).trans (if_neg (Nat.not_lt.mpr hpart.short))))

theorem names_of_walkWith (hname : IsName part)
    (hwalk : t.walkWith purpose follow loc (part :: rest) = .ok place) :
    Names t purpose loc part rest := by
  have hloc := directory_of_walkWith hwalk
  rw [walkWith, hloc] at hwalk
  simp only [hname.nonempty, beq_eq_false_iff_ne.mpr hname.ne_here, Bool.or_self,
    Bool.false_eq_true, if_false, beq_eq_false_iff_ne.mpr hname.ne_above] at hwalk
  split at hwalk
  · cases hwalk
  · next hslashed =>
    split at hwalk
    · cases hwalk
    · next hshort =>
      refine ⟨hname, hloc, fun hpurpose => ?_, Nat.not_lt.mp hshort⟩
      simpa [hpurpose] using hslashed

theorem route_of_walkWith
    (hfollow : ∀ loc parts place, follow loc parts = .ok place →
      ∃ fewer, links = fewer + 1 ∧ Route t purpose fewer loc parts place)
    (hwalk : t.walkWith purpose follow loc parts = .ok place) :
    Route t purpose links loc parts place := by
  induction parts generalizing loc with
  | nil =>
    cases hwalk
    exact .done _ _
  | cons part rest ih =>
    have hloc := directory_of_walkWith hwalk
    by_cases hstay : part.isEmpty = true ∨ part = "."
    · rw [walkWith_stay hloc hstay] at hwalk
      exact .stay hloc hstay (ih hwalk)
    · obtain ⟨hnonempty, hhere⟩ := not_or.mp hstay
      by_cases habove : part = ".."
      · subst habove
        rw [walkWith_above hloc] at hwalk
        exact .above hloc (ih hwalk)
      · have hpart := names_of_walkWith ⟨by simpa using hnonempty, hhere, habove⟩ hwalk
        rw [walkWith_name hpart] at hwalk
        split at hwalk
        · next hentry =>
          split at hwalk
          · next hrest =>
            cases hwalk
            exact .free hpart hentry hrest
          · cases hwalk
        · next hentry =>
          split at hwalk
          · next hlink =>
            obtain ⟨hpurpose, rfl⟩ : purpose = .makeDirectory ∧ rest = [] := by
              simpa using hlink
            cases hwalk
            exact .atLink hpart hentry hpurpose
          · next hlink =>
            obtain ⟨fewer, rfl, hrest⟩ := hfollow _ _ _ hwalk
            exact .follow hpart hentry (by simpa using hlink) hrest
        · next hlink hentry => exact .into hpart hentry hlink (ih hwalk)

theorem route_of_walk (hwalk : t.walk purpose links loc parts = .ok place) :
    Route t purpose links loc parts place := by
  induction links generalizing loc parts place with
  | zero =>
    refine route_of_walkWith (fun loc parts place hfollow => ?_) hwalk
    cases hfollow
  | succ links ih =>
    exact route_of_walkWith (fun loc parts place hfollow => ⟨links, rfl, ih hfollow⟩) hwalk

theorem exists_walk_eq (links : Nat) :
    ∃ follow, t.walk purpose links = t.walkWith purpose follow := by
  cases links with
  | zero => exact ⟨_, rfl⟩
  | succ links => exact ⟨_, rfl⟩

theorem walk_of_route (hroute : Route t purpose links loc parts place) :
    t.walk purpose links loc parts = .ok place := by
  induction hroute with
  | done links loc =>
    obtain ⟨follow, hwalk⟩ := @exists_walk_eq t purpose links
    rw [hwalk]
    rfl
  | @stay links loc part rest place hloc hpart _ ih =>
    obtain ⟨follow, hwalk⟩ := @exists_walk_eq t purpose links
    rw [hwalk] at ih ⊢
    rw [walkWith_stay hloc hpart, ih]
  | @above links loc rest place hloc _ ih =>
    obtain ⟨follow, hwalk⟩ := @exists_walk_eq t purpose links
    rw [hwalk] at ih ⊢
    rw [walkWith_above hloc, ih]
  | @into links loc part rest place entry hpart hentry hlink _ ih =>
    obtain ⟨follow, hwalk⟩ := @exists_walk_eq t purpose links
    rw [hwalk] at ih ⊢
    rw [walkWith_name hpart, hentry]
    cases entry with
    | link target => exact absurd rfl (hlink target)
    | directory => exact ih
    | file content => exact ih
  | @follow links loc part rest place target hpart hentry hpurpose _ ih =>
    rw [walk, walkWith_name hpart, hentry]
    exact (if_neg (by simpa using hpurpose)).trans ih
  | @atLink links loc part target hpart hentry hpurpose =>
    obtain ⟨follow, hwalk⟩ := @exists_walk_eq t purpose links
    rw [hwalk, walkWith_name hpart, hentry, hpurpose]
    rfl
  | @free links loc part rest hpart hentry hrest =>
    obtain ⟨follow, hwalk⟩ := @exists_walk_eq t purpose links
    rw [hwalk, walkWith_name hpart, hentry]
    exact if_pos hrest

/-- The walks that succeed are the routes. -/
theorem walk_eq_ok_iff :
    t.walk purpose links loc parts = .ok place ↔ Route t purpose links loc parts place :=
  ⟨route_of_walk, walk_of_route⟩

end Walks

section Places

theorem Names.mono (hkeeps : Keeps t t₁) (hpart : Names t purpose loc part rest) :
    Names t₁ purpose loc part rest :=
  { hpart with directory := hkeeps.directory loc hpart.directory }

/-- What a path leads to remains where it is. -/
theorem Route.mono (hkeeps : Keeps t t₁) {x : Location} (hplace : place = .found x)
    (hroute : Route t purpose links loc parts place) :
    Route t₁ purpose links loc parts place := by
  induction hroute with
  | done links loc => exact .done links loc
  | @stay _ loc _ _ _ hloc hpart _ ih => exact .stay (hkeeps.directory loc hloc) hpart (ih hplace)
  | @above _ loc _ _ hloc _ ih => exact .above (hkeeps.directory loc hloc) (ih hplace)
  | @into _ loc part _ _ entry hpart hentry hlink _ ih =>
    cases entry with
    | directory => exact .into (hpart.mono hkeeps) (hkeeps.directory _ hentry) hlink (ih hplace)
    | file content =>
      obtain ⟨content₁, hentry₁⟩ := hkeeps.file _ _ hentry
      exact .into (hpart.mono hkeeps) hentry₁ (by simp) (ih hplace)
    | link target => exact absurd rfl (hlink target)
  | follow hpart hentry hpurpose _ ih =>
    exact .follow (hpart.mono hkeeps) (hkeeps.link _ _ hentry) hpurpose (ih hplace)
  | atLink hpart hentry hpurpose =>
    exact .atLink (hpart.mono hkeeps) (hkeeps.link _ _ hentry) hpurpose
  | free => cases hplace

/-- A path for writing leads to the same place when it is used. -/
theorem Route.use (hroute : Route t .writeFile links loc parts place) :
    Route t .use links loc parts place := by
  have huse : ∀ {loc part rest}, Names t .writeFile loc part rest → Names t .use loc part rest :=
    fun hpart => { hpart with unslashed := by simp }
  induction hroute with
  | done links loc => exact .done links loc
  | stay hloc hpart _ ih => exact .stay hloc hpart ih
  | above hloc _ ih => exact .above hloc ih
  | into hpart hentry hlink _ ih => exact .into (huse hpart) hentry hlink ih
  | follow hpart hentry _ _ ih => exact .follow (huse hpart) hentry (by simp) ih
  | atLink _ _ hpurpose => cases hpurpose
  | free hpart hentry hrest => exact .free (huse hpart) hentry hrest

/-- Unless links are not followed, a route ends at an entry that is no link. -/
theorem Route.exists_entry (ht : t.WellFormed) (hpurpose : purpose ≠ .makeDirectory)
    {x : Location} (hplace : place = .found x) (hroute : Route t purpose links loc parts place)
    (hstart : parts = [] → ∃ entry, t.entry? loc = some entry ∧ ∀ target, entry ≠ .link target) :
    ∃ entry, t.entry? x = some entry ∧ ∀ target, entry ≠ .link target := by
  induction hroute with
  | done links loc =>
    cases hplace
    exact hstart rfl
  | stay hloc _ _ ih => exact ih hplace fun _ => ⟨_, hloc, by simp⟩
  | above hloc _ ih => exact ih hplace fun _ => ⟨_, ht.parent hloc, by simp⟩
  | into _ hentry hlink _ ih => exact ih hplace fun _ => ⟨_, hentry, hlink⟩
  | follow hpart _ _ _ ih =>
    refine ih hplace fun _ => ⟨.directory, ?_, by simp⟩
    split
    · rfl
    · exact hpart.directory
  | atLink _ _ hlink => exact absurd hlink hpurpose
  | free => cases hplace

theorem Route.free_entry {x : Location} (hplace : place = .free x)
    (hroute : Route t purpose links loc parts place) :
    t.entry? x = none ∧ x ≠ [] ∧ t.entry? x.dropLast = some .directory := by
  induction hroute with
  | done => cases hplace
  | stay _ _ _ ih => exact ih hplace
  | above _ _ ih => exact ih hplace
  | into _ _ _ _ ih => exact ih hplace
  | follow _ _ _ _ ih => exact ih hplace
  | atLink => cases hplace
  | free hpart hentry _ =>
    cases hplace
    exact ⟨hentry, by simp, by simpa using hpart.directory⟩

/-- Nothing lies behind what is no directory. -/
theorem Route.end_of_no_directory (hloc : t.entry? loc ≠ some .directory)
    (hroute : Route t purpose links loc parts place) : parts = [] ∧ place = .found loc := by
  cases hroute with
  | done => exact ⟨rfl, rfl⟩
  | stay hdir => exact absurd hdir hloc
  | above hdir => exact absurd hdir hloc
  | into hpart => exact absurd hpart.directory hloc
  | follow hpart => exact absurd hpart.directory hloc
  | atLink hpart => exact absurd hpart.directory hloc
  | free hpart => exact absurd hpart.directory hloc

end Places

section Writing
variable {x : Location} {content : List UInt8}

/-- After a file is written, a path leads to that file or where it led before. -/
theorem Route.back (hgraft : Grafts t x (.file content) t₁) {y : Location}
    (hplace : place = .found y) (hroute : Route t₁ purpose links loc parts place) :
    y = x ∨ Route t purpose links loc parts place := by
  have hdir : ∀ {loc}, t₁.entry? loc = some .directory → t.entry? loc = some .directory :=
    fun hloc => hgraft.entry?_of_no_file hloc (by simp)
  have hback : ∀ {loc part rest}, Names t₁ purpose loc part rest → Names t purpose loc part rest :=
    fun hpart => { hpart with directory := hdir hpart.directory }
  induction hroute with
  | done links loc => exact .inr (.done links loc)
  | stay hloc hpart _ ih =>
    exact (ih hplace).imp_right (.stay (hdir hloc) hpart)
  | above hloc _ ih =>
    exact (ih hplace).imp_right (.above (hdir hloc))
  | @into _ loc part _ _ _ hpart hentry hlink hrest ih =>
    by_cases hne : loc ++ [part] = x
    -- Nothing lies behind the new file, so a route into it ends there.
    · have hfile : t₁.entry? (loc ++ [part]) ≠ some .directory := by
        rw [hne, hgraft.entry?_self]
        simp
      rw [(hrest.end_of_no_directory hfile).2] at hplace
      exact .inl ((Place.found.inj hplace).symm.trans hne)
    · rw [hgraft.entry?_of_ne hne] at hentry
      exact (ih hplace).imp_right (.into (hback hpart) hentry hlink)
  | follow hpart hentry hpurpose _ ih =>
    have hlink := hgraft.entry?_of_no_file hentry (by simp)
    exact (ih hplace).imp_right (.follow (hback hpart) hlink hpurpose)
  | atLink hpart hentry hpurpose =>
    exact .inr (.atLink (hback hpart) (hgraft.entry?_of_no_file hentry (by simp)) hpurpose)
  | free => cases hplace

/-- A path to a free location leads to the file that is written there. -/
theorem Route.written (hgraft : Grafts t x (.file content) t₁) (hplace : place = .free x)
    (hroute : Route t .writeFile links loc parts place) :
    Route t₁ .writeFile links loc parts (.found x) := by
  have hkeeps := hgraft.keeps
  induction hroute with
  | done => cases hplace
  | @stay _ loc _ _ _ hloc hpart _ ih => exact .stay (hkeeps.directory loc hloc) hpart (ih hplace)
  | @above _ loc _ _ hloc _ ih => exact .above (hkeeps.directory loc hloc) (ih hplace)
  | @into _ _ _ _ _ entry hpart hentry hlink hrest ih =>
    cases entry with
    | directory => exact .into (hpart.mono hkeeps) (hkeeps.directory _ hentry) hlink (ih hplace)
    | file =>
      rw [(hrest.end_of_no_directory (by simp [hentry])).2] at hplace
      cases hplace
    | link target => exact absurd rfl (hlink target)
  | follow hpart hentry hpurpose _ ih =>
    exact .follow (hpart.mono hkeeps) (hkeeps.link _ _ hentry) hpurpose (ih hplace)
  | atLink => cases hplace
  | @free _ loc part rest hpart hentry hrest =>
    cases hplace
    obtain rfl : rest = [] := by
      have hunslashed := hpart.unslashed rfl
      rw [isSlashed, hrest] at hunslashed
      simpa using hunslashed
    exact .into (hpart.mono hkeeps) hgraft.entry?_self (by simp) (.done _ _)

end Writing

section Extension

/-- A path with a name at its end leads to that name in the directory to which the path without
it leads, unless a link has the name. -/
theorem Route.of_append_name (hname : IsName name) {whole : List String}
    (hwhole : whole = parts ++ [name]) (hroute : Route t .use links loc whole place) :
    ∃ o, Route t .use links loc parts (.found o) ∧ t.entry? o = some .directory ∧
      ((∃ target, t.entry? (o ++ [name]) = some (.link target)) ∨
        place = .found (o ++ [name]) ∨ place = .free (o ++ [name])) := by
  have huse : ∀ {loc part rest}, Names t .use loc part (rest ++ [name]) →
      Names t .use loc part rest := fun hpart => { hpart with unslashed := by simp }
  induction hroute generalizing parts with
  | done => simp at hwhole
  | @stay _ loc part rest place hloc hpart _ ih =>
    cases parts with
    | nil =>
      obtain ⟨rfl, rfl⟩ := List.cons.inj hwhole
      rcases hpart with hempty | hdot
      · rw [hname.nonempty] at hempty
        cases hempty
      · exact absurd hdot hname.ne_here
    | cons first parts =>
      obtain ⟨rfl, rfl⟩ := List.cons.inj hwhole
      obtain ⟨o, hprefix, hend⟩ := ih rfl
      exact ⟨o, .stay hloc hpart hprefix, hend⟩
  | @above _ loc rest place hloc _ ih =>
    cases parts with
    | nil => exact absurd (List.cons.inj hwhole).1.symm hname.ne_above
    | cons first parts =>
      obtain ⟨rfl, rfl⟩ := List.cons.inj hwhole
      obtain ⟨o, hprefix, hend⟩ := ih rfl
      exact ⟨o, .above hloc hprefix, hend⟩
  | @into _ loc part rest place entry hpart hentry hlink hrest ih =>
    cases parts with
    | nil =>
      obtain ⟨rfl, rfl⟩ := List.cons.inj hwhole
      cases hrest
      exact ⟨loc, .done _ _, hpart.directory, .inr (.inl rfl)⟩
    | cons first parts =>
      obtain ⟨rfl, rfl⟩ := List.cons.inj hwhole
      obtain ⟨o, hprefix, hend⟩ := ih rfl
      exact ⟨o, .into (huse hpart) hentry hlink hprefix, hend⟩
  | @follow _ loc part rest place target hpart hentry _ _ ih =>
    cases parts with
    | nil =>
      obtain ⟨rfl, rfl⟩ := List.cons.inj hwhole
      exact ⟨loc, .done _ _, hpart.directory, .inl ⟨target, hentry⟩⟩
    | cons first parts =>
      obtain ⟨rfl, rfl⟩ := List.cons.inj hwhole
      obtain ⟨o, hprefix, hend⟩ := ih (List.append_assoc ..).symm
      exact ⟨o, .follow (huse hpart) hentry (by simp) hprefix, hend⟩
  | atLink _ _ hpurpose => cases hpurpose
  | @free _ loc part rest hpart hentry hrest =>
    cases parts with
    | nil =>
      obtain ⟨rfl, rfl⟩ := List.cons.inj hwhole
      exact ⟨loc, .done _ _, hpart.directory, .inr (.inr rfl)⟩
    | cons first parts =>
      obtain ⟨rfl, rfl⟩ := List.cons.inj hwhole
      simp [hname.nonempty] at hrest

/-- A slash behind the path of a directory does not matter. -/
theorem Route.append_slash {o : Location} (hplace : place = .found o)
    (ho : t.entry? o = some .directory) (hroute : Route t .use links loc parts place) :
    Route t .use links loc (parts ++ [""]) place := by
  have huse : ∀ {loc part rest}, Names t .use loc part rest →
      Names t .use loc part (rest ++ [""]) := fun hpart => { hpart with unslashed := by simp }
  induction hroute with
  | done links loc =>
    cases hplace
    exact .stay ho (.inl rfl) (.done _ _)
  | stay hloc hpart _ ih => exact .stay hloc hpart (ih hplace)
  | above hloc _ ih => exact .above hloc (ih hplace)
  | into hpart hentry hlink _ ih => exact .into (huse hpart) hentry hlink (ih hplace)
  | follow hpart hentry _ _ ih =>
    have hrest := ih hplace
    rw [List.append_assoc] at hrest
    exact .follow (huse hpart) hentry (by simp) hrest
  | atLink _ _ hpurpose => cases hpurpose
  | free => cases hplace

end Extension

end VtableMerge.FileTree
