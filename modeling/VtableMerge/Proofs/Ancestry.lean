import Mathlib.Combinatorics.Pigeonhole
import VtableMerge.Hierarchy

/-!
Parent links followed any number of steps. More steps inside the hierarchy than it has classes
meet some class twice, so every class above another one is met within as many steps as there
are classes. The search for a circle meets one more class at every turn. It ends where it meets a
class again, and then every link out of what it met leads back into it, so it misses no circle.
-/
namespace VtableMerge

section Keys
variable {α κ : Type} [BEq κ] [LawfulBEq κ] (key : α → κ) {entries others : List α}

/-- Where keys are distinct, every entry is found under its own key. -/
theorem find?_key_eq_some_iff (hdistinct : (entries.map key).Nodup) {k : κ} {a : α} :
    entries.find? (fun e => key e == k) = some a ↔ a ∈ entries ∧ key a = k := by
  constructor
  · intro hfound
    exact ⟨List.mem_of_find?_eq_some hfound, by simpa using List.find?_some hfound⟩
  · rintro ⟨ha, rfl⟩
    obtain ⟨b, hb⟩ : ∃ b, entries.find? (fun e => key e == key a) = some b := by
      rw [← Option.isSome_iff_exists, List.find?_isSome]
      exact ⟨a, ha, by simp⟩
    have hkey : key b = key a := by simpa using List.find?_some hb
    have hsame := List.inj_on_of_nodup_map hdistinct (List.mem_of_find?_eq_some hb) ha hkey
    rw [hb, hsame]

/-- Where keys are distinct, the order of the entries does not matter. -/
theorem find?_key_eq_of_perm (hdistinct : (entries.map key).Nodup) (hperm : others.Perm entries)
    (k : κ) : others.find? (fun e => key e == k) = entries.find? (fun e => key e == k) := by
  have hothers : (others.map key).Nodup := (hperm.map key).nodup_iff.mpr hdistinct
  refine Option.ext fun a => ?_
  rw [find?_key_eq_some_iff key hothers, find?_key_eq_some_iff key hdistinct, hperm.mem_iff]

end Keys

namespace Hierarchy

/-- The name met after a number of steps along parent links. The last step may lead out of the
hierarchy. -/
def climb (h : Hierarchy) : Nat → String → Option String
  | 0, name => some name
  | n + 1, name => (h.parentName? name).bind (h.climb n)

variable (h : Hierarchy)

theorem name_of_get? {name : String} {c : ClassNode} (hc : h.get? name = some c) :
    c.name = name := by
  simpa using List.find?_some hc

theorem mem_of_get? {name : String} {c : ClassNode} (hc : h.get? name = some c) :
    c ∈ h.nodes := List.mem_of_find?_eq_some hc

/-- Names are distinct, so a class is found under its own name. -/
theorem get?_of_mem {c : ClassNode} (hc : c ∈ h.nodes) : h.get? c.name = some c :=
  (find?_key_eq_some_iff ClassNode.name h.distinct).mpr ⟨hc, rfl⟩

theorem contains_iff_exists {name : String} :
    h.contains name = true ↔ ∃ c, h.get? name = some c := Option.isSome_iff_exists

theorem contains_iff_mem_names {name : String} :
    h.contains name = true ↔ name ∈ h.nodes.map ClassNode.name := by
  rw [contains_iff_exists, List.mem_map]
  constructor
  · rintro ⟨c, hc⟩
    exact ⟨c, h.mem_of_get? hc, h.name_of_get? hc⟩
  · rintro ⟨c, hc, rfl⟩
    exact ⟨c, h.get?_of_mem hc⟩

theorem parentName?_of_get? {name : String} {c : ClassNode} (hc : h.get? name = some c) :
    h.parentName? name = c.parent := by
  simp [parentName?, hc]

theorem contains_of_parentName? {name parent : String}
    (hp : h.parentName? name = some parent) : h.contains name = true := by
  obtain ⟨c, hc, -⟩ := Option.bind_eq_some_iff.mp hp
  exact h.contains_iff_exists.mpr ⟨c, hc⟩

theorem climb_add (m n : Nat) (name : String) :
    h.climb (m + n) name = (h.climb m name).bind (h.climb n) := by
  induction m generalizing name with
  | zero => simp [climb]
  | succ m ih =>
    rw [Nat.add_right_comm]
    simp only [climb, Option.bind_assoc, ih]

theorem climb_one (name : String) : h.climb 1 name = h.parentName? name := by
  simp [climb]

theorem climb_succ_last (n : Nat) (name : String) :
    h.climb (n + 1) name = (h.climb n name).bind h.parentName? := by
  rw [climb_add]
  exact congrArg (Option.bind _) (funext h.climb_one)

/-- Every name passed on the way is a class, since it has a parent. -/
theorem contains_below_climb {n i : Nat} {name above : String}
    (hclimb : h.climb n name = some above) (hi : i < n) :
    ∃ passed, h.climb i name = some passed ∧ h.contains passed = true := by
  have hsplit : n = i + (1 + (n - i - 1)) := by omega
  rw [hsplit, climb_add, Option.bind_eq_some_iff] at hclimb
  obtain ⟨passed, hpassed, hrest⟩ := hclimb
  rw [climb_add, climb_one, Option.bind_eq_some_iff] at hrest
  obtain ⟨parent, hparent, -⟩ := hrest
  exact ⟨passed, hpassed, h.contains_of_parentName? hparent⟩

/-- More classes in a row than the hierarchy has: one of them is met twice. -/
theorem climb_meets_twice {n : Nat} {name : String} (hn : h.size ≤ n)
    (hinside : ∀ i ≤ n, ∃ passed, h.climb i name = some passed ∧ h.contains passed = true) :
    ∃ i j passed, i < j ∧ j ≤ n ∧ h.climb i name = some passed ∧
      h.climb j name = some passed := by
  classical
  have hmaps : ∀ i ∈ Finset.range (n + 1),
      (h.climb i name).getD "" ∈ (h.nodes.map ClassNode.name).toFinset := by
    intro i hi
    obtain ⟨passed, hpassed, hcontains⟩ := hinside i (by simpa [Nat.lt_succ_iff] using hi)
    simpa [hpassed] using h.contains_iff_mem_names.mp hcontains
  have hcard : (h.nodes.map ClassNode.name).toFinset.card < (Finset.range (n + 1)).card := by
    have hle := List.toFinset_card_le (h.nodes.map ClassNode.name)
    simp only [List.length_map] at hle
    simp only [Finset.card_range]
    unfold size at hn
    omega
  obtain ⟨i, hi, j, hj, hne, heq⟩ :=
    Finset.exists_ne_map_eq_of_card_lt_of_maps_to hcard hmaps
  simp only [Finset.mem_range] at hi hj
  obtain ⟨a, ha, -⟩ := hinside i (by omega)
  obtain ⟨b, hb, -⟩ := hinside j (by omega)
  have hab : a = b := by simpa [ha, hb] using heq
  subst hab
  rcases Nat.lt_or_gt_of_ne hne with hlt | hgt
  · exact ⟨i, j, a, hlt, by omega, ha, hb⟩
  · exact ⟨j, i, a, hgt, by omega, hb, ha⟩

/-- Leaving out the part of a walk between two visits of one class shortens it to at most as
many steps as there are classes. -/
theorem exists_climb_le_size {n : Nat} {name above : String} (hn : 0 < n)
    (hclimb : h.climb n name = some above) :
    ∃ k, 0 < k ∧ k ≤ h.size ∧ h.climb k name = some above := by
  induction n using Nat.strong_induction_on with
  | h n ih =>
    by_cases hsize : n ≤ h.size
    · exact ⟨n, hn, hsize, hclimb⟩
    · have hinside : ∀ i ≤ n - 1, ∃ passed, h.climb i name = some passed ∧
          h.contains passed = true := fun i hi => h.contains_below_climb hclimb (by omega)
      obtain ⟨i, j, passed, hij, hj, hi, hj'⟩ := h.climb_meets_twice (by omega) hinside
      have hshort : h.climb (i + (n - j)) name = some above := by
        have hsplit : n = j + (n - j) := by omega
        rw [hsplit, climb_add, hj'] at hclimb
        rw [climb_add, hi]
        exact hclimb
      exact ih (i + (n - j)) (by omega) (by omega) hshort

/-- Distinct classes are no more than there are. -/
theorem length_le_size {names : List String} (hnodup : names.Nodup)
    (hinside : ∀ name ∈ names, h.contains name = true) : names.length ≤ h.size := by
  have hsub : names ⊆ h.nodes.map ClassNode.name := fun name hname =>
    h.contains_iff_mem_names.mp (hinside name hname)
  simpa only [size, List.length_map] using (List.subperm_of_subset hnodup hsub).length_le

/-- Where every link out of a set of names leads back into it, every walk stays inside. -/
theorem mem_of_climb {names : List String} {n : Nat} {name above : String}
    (hclosed : ∀ name ∈ names, ∀ parent, h.parentName? name = some parent → parent ∈ names)
    (hname : name ∈ names) (hclimb : h.climb n name = some above) : above ∈ names := by
  induction n generalizing name with
  | zero => exact Option.some.inj hclimb ▸ hname
  | succ n ih =>
    obtain ⟨parent, hparent, hrest⟩ := Option.bind_eq_some_iff.mp hclimb
    exact ih (hclosed name hname parent hparent) hrest

section Search
variable {sought : String} {turns : Nat} {met : List String} {next : Option String}

theorem comesTo?_none : h.comesTo? sought turns met none = some false := by rw [comesTo?]

/-- An answer does not change when more turns are allowed. -/
theorem comesTo?_mono {answer : Bool} {turns' : Nat} (hturns : turns ≤ turns')
    (hanswer : h.comesTo? sought turns met next = some answer) :
    h.comesTo? sought turns' met next = some answer := by
  induction turns generalizing turns' met next with
  | zero =>
    cases next with
    | none => simpa only [comesTo?_none] using hanswer
    | some name => cases hanswer
  | succ turns ih =>
    cases next with
    | none => simpa only [comesTo?_none] using hanswer
    | some name =>
      obtain ⟨more, rfl⟩ := Nat.exists_eq_add_of_le' (Nat.le_trans (Nat.le_add_left 1 turns) hturns)
      rw [comesTo?] at hanswer ⊢
      split
      · next hfound => rwa [if_pos hfound] at hanswer
      · next hother =>
        rw [if_neg hother] at hanswer
        split
        · next hmet => rwa [if_pos hmet] at hanswer
        · next hnew =>
          rw [if_neg hnew] at hanswer
          exact ih (Nat.le_of_succ_le_succ hturns) hanswer

/-- A walk ends before its turns run out, since every turn meets one more of the classes other than
the sought one. -/
theorem exists_comesTo? (hsought : h.contains sought = true) (hnodup : (sought :: met).Nodup)
    (hinside : ∀ name ∈ met, h.contains name = true) (hturns : h.size ≤ turns + met.length) :
    ∃ answer, h.comesTo? sought turns met next = some answer := by
  induction turns generalizing met next with
  | zero =>
    have hroom := h.length_le_size hnodup (List.forall_mem_cons.mpr ⟨hsought, hinside⟩)
    simp only [List.length_cons] at hroom
    omega
  | succ turns ih =>
    cases next with
    | none => exact ⟨false, h.comesTo?_none⟩
    | some name =>
      rw [comesTo?]
      split
      · exact ⟨true, rfl⟩
      · next hother =>
        split
        · exact ⟨false, rfl⟩
        · next hnew =>
          cases hparent : h.parentName? name with
          | none => exact ⟨false, h.comesTo?_none⟩
          | some parent =>
            obtain ⟨hout, hmet⟩ := List.nodup_cons.mp hnodup
            simp only [beq_iff_eq] at hother
            simp only [List.contains_iff_mem] at hnew
            refine ih ?_ ?_ ?_
            · refine List.nodup_cons.mpr ⟨?_, List.nodup_cons.mpr ⟨hnew, hmet⟩⟩
              exact List.not_mem_cons_of_ne_of_not_mem (Ne.symm hother) hout
            · exact List.forall_mem_cons.mpr ⟨h.contains_of_parentName? hparent, hinside⟩
            · simp only [List.length_cons]
              omega

/-- A walk that comes to a name takes some number of steps up to it. -/
theorem exists_climb_of_comesTo? (hcomes : h.comesTo? sought turns met next = some true) :
    ∃ name n, next = some name ∧ h.climb n name = some sought := by
  induction turns generalizing met next with
  | zero => cases next <;> cases hcomes
  | succ turns ih =>
    cases next with
    | none => cases hcomes
    | some name =>
      rw [comesTo?] at hcomes
      split at hcomes
      · next hfound => exact ⟨name, 0, rfl, congrArg some (beq_iff_eq.mp hfound)⟩
      · split at hcomes
        · cases hcomes
        · obtain ⟨parent, n, hparent, hclimb⟩ := ih hcomes
          exact ⟨name, n + 1, rfl, by rw [climb, hparent]; exact hclimb⟩

/-- A walk that ends without the sought name does not come to it later either: when it meets a
name again, every link out of what it met leads back into it. -/
theorem climb_ne_of_comesTo? (hout : sought ∉ met)
    (hlinks : ∀ name ∈ met, ∀ parent, h.parentName? name = some parent →
      parent ∈ met ∨ next = some parent)
    (hends : h.comesTo? sought turns met next = some false) {name : String}
    (hnext : next = some name) (n : Nat) : h.climb n name ≠ some sought := by
  induction turns generalizing met next name n with
  | zero =>
    subst hnext
    cases hends
  | succ turns ih =>
    subst hnext
    rw [comesTo?] at hends
    split at hends
    · cases hends
    · next hother =>
      simp only [beq_iff_eq] at hother
      split at hends
      · next hagain =>
        simp only [List.contains_iff_mem] at hagain
        intro hclimb
        refine hout (h.mem_of_climb (fun passed hpassed parent hparent => ?_) hagain hclimb)
        rcases hlinks passed hpassed parent hparent with hin | hin
        · exact hin
        · exact Option.some.inj hin ▸ hagain
      · cases n with
        | zero => exact fun hclimb => hother (Option.some.inj hclimb)
        | succ n =>
          intro hclimb
          obtain ⟨parent, hparent, hrest⟩ := Option.bind_eq_some_iff.mp hclimb
          refine ih ?_ ?_ hends hparent n hrest
          · exact List.not_mem_cons_of_ne_of_not_mem (Ne.symm hother) hout
          · refine List.forall_mem_cons.mpr ⟨fun above habove => Or.inr habove, ?_⟩
            intro passed hpassed above habove
            rcases hlinks passed hpassed above habove with hin | hin
            · exact Or.inl (List.mem_cons_of_mem _ hin)
            · exact Or.inl (Option.some.inj hin ▸ List.mem_cons_self)

end Search

/-- With as many turns as there are classes, or more, the search for a circle comes to an end. -/
theorem comesTo?_self {turns : Nat} (hturns : h.size ≤ turns) (name : String) :
    h.comesTo? name turns [] (h.parentName? name) = some (h.isCyclic name) := by
  refine h.comesTo?_mono hturns ?_
  obtain ⟨answer, hanswer⟩ :
      ∃ answer, h.comesTo? name h.size [] (h.parentName? name) = some answer := by
    cases hparent : h.parentName? name with
    | none => exact ⟨false, h.comesTo?_none⟩
    | some parent =>
      exact h.exists_comesTo? (h.contains_of_parentName? hparent) (List.nodup_singleton name)
        (List.forall_mem_nil _) (Nat.le_add_right _ _)
  rw [isCyclic, hanswer]
  cases answer <;> rfl

theorem isCyclic_iff_climb {name : String} :
    h.isCyclic name = true ↔ ∃ n, 0 < n ∧ h.climb n name = some name := by
  have hends := h.comesTo?_self (Nat.le_refl _) name
  constructor
  · intro hcyclic
    rw [hcyclic] at hends
    obtain ⟨parent, n, hparent, hclimb⟩ := h.exists_climb_of_comesTo? hends
    exact ⟨n + 1, Nat.succ_pos n, by rw [climb, hparent]; exact hclimb⟩
  · rintro ⟨n, hpos, hclimb⟩
    obtain ⟨steps, rfl⟩ := Nat.exists_eq_add_of_le' hpos
    obtain ⟨parent, hparent, hrest⟩ := Option.bind_eq_some_iff.mp hclimb
    by_contra hacyclic
    rw [Bool.not_eq_true] at hacyclic
    rw [hacyclic] at hends
    exact h.climb_ne_of_comesTo? List.not_mem_nil (List.forall_mem_nil _) hends hparent steps hrest

/-- A class on a circle has its parent on the circle, so in the hierarchy. -/
theorem contains_parent_of_isCyclic {name parent : String}
    (hcyclic : h.isCyclic name = true) (hlink : h.parentName? name = some parent) :
    h.contains parent = true := by
  obtain ⟨n, hpos, hclimb⟩ := h.isCyclic_iff_climb.mp hcyclic
  by_cases hone : n = 1
  · rw [hone, h.climb_one, hlink, Option.some.injEq] at hclimb
    rw [hclimb]
    exact h.contains_of_parentName? hlink
  · obtain ⟨passed, hpassed, hinside⟩ := h.contains_below_climb hclimb (show 1 < n by omega)
    rw [h.climb_one, hlink, Option.some.injEq] at hpassed
    rw [hpassed]
    exact hinside

/-- A class that is not cyclic is met by at most one number of steps. -/
theorem climb_unique_of_not_cyclic {m n : Nat} {name above : String}
    (hacyclic : h.isCyclic above = false) (hm : h.climb m name = some above)
    (hn : h.climb n name = some above) : m = n := by
  have hle : ∀ {m n : Nat}, h.climb m name = some above → h.climb n name = some above →
      n ≤ m := by
    intro m n hm hn
    by_contra hlt
    have hsplit : n = m + (n - m) := by omega
    rw [hsplit, climb_add, hm] at hn
    have hcyclic := h.isCyclic_iff_climb.mpr ⟨n - m, by omega, hn⟩
    rw [hacyclic] at hcyclic
    cases hcyclic
  exact Nat.le_antisymm (hle hn hm) (hle hm hn)

end Hierarchy

end VtableMerge
