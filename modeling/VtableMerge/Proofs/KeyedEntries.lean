import Mathlib.Data.List.Nodup
import Mathlib.Data.String.Basic
import VtableMerge.Text.Keyed

/-!
Entries in ascending order of their keys. Putting an entry in keeps the order, so whatever comes
in ends up in order, and entries with distinct keys end up as the same list whatever order they
came in.
-/
namespace VtableMerge.Keyed
variable {α : Type} {key : String} {value : α} {sorted entries : List (String × α)}

def Ascending (entries : List (String × α)) : Prop :=
  entries.Pairwise fun first second => first.1 < second.1

theorem Ascending.nodup_keys (h : Ascending entries) : (entries.map Prod.fst).Nodup :=
  List.pairwise_map.mpr (h.imp fun hlt => ne_of_lt hlt)

/-- Entries in order are determined by which they are. -/
theorem Ascending.eq_of_mem_iff {others : List (String × α)} (h : Ascending entries)
    (h' : Ascending others) (hmem : ∀ e, e ∈ entries ↔ e ∈ others) : entries = others := by
  have hperm : entries.Perm others :=
    (List.perm_ext_iff_of_nodup (.of_map Prod.fst h.nodup_keys)
      (.of_map Prod.fst h'.nodup_keys)).mpr hmem
  refine hperm.eq_of_pairwise (fun a b _ _ hab hba => ?_) h h'
  exact absurd hba (lt_asymm hab)

theorem mem_insert (h : Ascending sorted) {e : String × α} :
    e ∈ insert key value sorted ↔ e = (key, value) ∨ (e ∈ sorted ∧ e.1 ≠ key) := by
  induction sorted with
  | nil => simp [insert]
  | cons first rest ih =>
    obtain ⟨k, v⟩ := first
    obtain ⟨hfirst, hrest⟩ := List.pairwise_cons.mp h
    rw [insert]
    split
    · next hlt =>
      -- The new key is below all others.
      have hne : ∀ f ∈ (k, v) :: rest, f.1 ≠ key := by
        refine List.forall_mem_cons.mpr ⟨ne_of_gt hlt, fun f hf => ?_⟩
        exact ne_of_gt (lt_trans hlt (hfirst f hf))
      rw [List.mem_cons, and_iff_left_of_imp (hne e)]
    split
    · next hkey =>
      subst hkey
      have hne : ∀ f ∈ rest, f.1 ≠ key := fun f hf => ne_of_gt (hfirst f hf)
      constructor
      · intro he
        rcases List.mem_cons.mp he with rfl | he
        · exact .inl rfl
        · exact .inr ⟨List.mem_cons_of_mem _ he, hne e he⟩
      · rintro (rfl | ⟨he, hno⟩)
        · exact List.mem_cons_self
        · rcases List.mem_cons.mp he with rfl | he
          · exact absurd rfl hno
          · exact List.mem_cons_of_mem _ he
    · next hkey =>
      rw [List.mem_cons, ih hrest, List.mem_cons, or_and_right]
      constructor
      · rintro (rfl | he | he)
        · exact .inr (.inl ⟨rfl, Ne.symm hkey⟩)
        · exact .inl he
        · exact .inr (.inr he)
      · rintro (he | ⟨he, -⟩ | he)
        · exact .inr (.inl he)
        · exact .inl he
        · exact .inr (.inr he)

theorem ascending_insert (h : Ascending sorted) : Ascending (insert key value sorted) := by
  induction sorted with
  | nil => exact List.pairwise_singleton _ _
  | cons first rest ih =>
    obtain ⟨k, v⟩ := first
    obtain ⟨hfirst, hrest⟩ := List.pairwise_cons.mp h
    rw [insert]
    split
    · next hlt =>
      refine List.pairwise_cons.mpr ⟨List.forall_mem_cons.mpr ⟨hlt, fun f hf => ?_⟩, h⟩
      exact lt_trans hlt (hfirst f hf)
    split
    · next hkey =>
      subst hkey
      exact List.pairwise_cons.mpr ⟨hfirst, hrest⟩
    · next hlt hkey =>
      refine List.pairwise_cons.mpr ⟨fun f hf => ?_, ih hrest⟩
      rcases (mem_insert hrest).mp hf with rfl | ⟨hf, -⟩
      · exact lt_of_le_of_ne (not_lt.mp hlt) (Ne.symm hkey)
      · exact hfirst f hf

theorem ascending_foldl_insert (h : Ascending sorted) :
    Ascending (entries.foldl (fun sorted e => insert e.1 e.2 sorted) sorted) := by
  induction entries generalizing sorted with
  | nil => exact h
  | cons e rest ih => exact ih (ascending_insert h)

theorem ascending_ofEntries (entries : List (String × α)) : Ascending (ofEntries entries) :=
  ascending_foldl_insert List.Pairwise.nil

theorem mem_foldl_insert (h : Ascending sorted) (hdistinct : (entries.map Prod.fst).Nodup)
    {e : String × α} : e ∈ entries.foldl (fun sorted e => insert e.1 e.2 sorted) sorted ↔
      e ∈ entries ∨ (e ∈ sorted ∧ e.1 ∉ entries.map Prod.fst) := by
  induction entries generalizing sorted with
  | nil => simp
  | cons f rest ih =>
    obtain ⟨hf, hrest⟩ := List.nodup_cons.mp hdistinct
    rw [List.foldl_cons, ih (ascending_insert h) hrest, mem_insert h, List.map_cons]
    simp only [List.mem_cons, not_or]
    constructor
    · rintro (he | ⟨rfl | ⟨he, hne⟩, hno⟩)
      · exact .inl (.inr he)
      · exact .inl (.inl rfl)
      · exact .inr ⟨he, hne, hno⟩
    · rintro ((rfl | he) | ⟨he, hne, hno⟩)
      · exact .inr ⟨.inl rfl, hf⟩
      · exact .inl he
      · exact .inr ⟨.inr ⟨he, hne⟩, hno⟩

/-- Entries with the keys of a map, in any order, are put into the order of the map. -/
theorem ofEntries_of_perm {d : List (String × α)} (hperm : entries.Perm d) (hd : Ascending d) :
    ofEntries entries = d := by
  have hdistinct : (entries.map Prod.fst).Nodup :=
    (hperm.map Prod.fst).nodup_iff.mpr hd.nodup_keys
  refine (ascending_ofEntries entries).eq_of_mem_iff hd fun e => ?_
  rw [ofEntries, mem_foldl_insert List.Pairwise.nil hdistinct, hperm.mem_iff]
  simp

end VtableMerge.Keyed
