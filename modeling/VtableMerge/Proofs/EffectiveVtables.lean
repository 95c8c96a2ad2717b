import VtableMerge.Proofs.Owners

/-!
What looking up an effective vtable gives in any documents. The walk upward never enters a class
by a name that it came through, so it ends after as many classes as there are, whatever the parent
links are. What is shown follows from the classes on that way: the first one with a vtable owns it,
and its slots are shown if all of them have their prototypes.
-/
namespace VtableMerge.ExportedTables

/-- The classes on the way up from a class, by the names that the way came through before. The way
goes on to the first class of the name of the parent. It ends where there is no parent, where no
class has its name, or where it came through that name. -/
inductive Ascent (t : ExportedTables) : List String → ClassEntry → List ClassEntry → Prop
  | last {seen : List String} {c : ClassEntry} (hend : ∀ parent, c.parent = some parent →
      parent ∈ c.name :: seen ∨ ∀ d ∈ t.classes, d.name ≠ parent) : Ascent t seen c [c]
  | up {seen : List String} {c d : ClassEntry} {parent : String} {rest : List ClassEntry}
      (hparent : c.parent = some parent) (hnew : parent ∉ c.name :: seen)
      (hfirst : t.class? parent = some d) (hrest : Ascent t (c.name :: seen) d rest) :
      Ascent t seen c (c :: rest)

/-- A walk to the owner of a vtable, round by round and without a count of the rounds, and what it
finds. -/
inductive Walk (t : ExportedTables) : List String → ClassEntry → Option ClassEntry → Prop
  | found {seen : List String} {c : ClassEntry} (hfilled : c.vtable.isSome = true) :
      Walk t seen c (some c)
  | lost {seen : List String} {c : ClassEntry} (hempty : c.vtable = none)
      (hnone : t.nextClass? (c.name :: seen) c = none) : Walk t seen c none
  | round {seen : List String} {c d : ClassEntry} {owner : Option ClassEntry}
      (hempty : c.vtable = none) (hnext : t.nextClass? (c.name :: seen) c = some d)
      (hrest : Walk t (c.name :: seen) d owner) : Walk t seen c owner

variable {t : ExportedTables} {name : String} {seen : List String} {c d : ClassEntry}
  {chain : List ClassEntry}

section Ways

def unseen (t : ExportedTables) (seen : List String) : Nat :=
  (t.classes.filter fun c => c.name ∉ seen).length

/-- One more name leaves fewer classes. -/
theorem unseen_cons_lt (hc : c ∈ t.classes) (hnew : c.name ∉ seen) :
    t.unseen (c.name :: seen) < t.unseen seen := by
  have hfilter : (t.classes.filter fun d => d.name ∉ c.name :: seen) =
      (t.classes.filter fun d => d.name ∉ seen).filter fun d => d.name ≠ c.name := by
    rw [List.filter_filter]
    congr 1
    funext d
    simp
  rw [unseen, unseen, hfilter, List.length_filter_lt_length_iff_exists]
  exact ⟨c, List.mem_filter.mpr ⟨hc, by simpa using hnew⟩, by simp⟩

/-- From every class there is a way up, with at most one class for each name that is new. -/
theorem exists_ascent (hc : c ∈ t.classes) (hnew : c.name ∉ seen) :
    ∃ chain, t.Ascent seen c chain ∧ chain.length ≤ t.unseen seen := by
  induction hn : t.unseen seen using Nat.strongRecOn generalizing seen c with
  | ind n ih =>
    have hlt := unseen_cons_lt hc hnew
    by_cases hend : ∀ parent, c.parent = some parent →
        parent ∈ c.name :: seen ∨ ∀ d ∈ t.classes, d.name ≠ parent
    · refine ⟨[c], Ascent.last hend, ?_⟩
      rw [List.length_singleton]
      omega
    · push Not at hend
      obtain ⟨parent, hparent, hfresh, other, hother, hname⟩ := hend
      obtain ⟨d, hd⟩ : ∃ d, t.class? parent = some d := by
        rw [← Option.ne_none_iff_exists', ne_eq, class?_eq_none_iff]
        exact fun hnone => hnone other hother hname
      obtain ⟨rest, hrest, hlength⟩ := ih _ (hn ▸ hlt) (mem_of_class? hd)
        (by rwa [name_of_class? hd]) rfl
      refine ⟨c :: rest, Ascent.up hparent hfresh hd hrest, ?_⟩
      rw [List.length_cons]
      omega

theorem ascent_unique {other : List ClassEntry} (h : t.Ascent seen c chain)
    (hother : t.Ascent seen c other) : other = chain := by
  induction h generalizing other with
  | last hend =>
    cases hother with
    | last => rfl
    | up hparent hnew hfirst =>
      rcases hend _ hparent with hseen | hmissing
      · exact absurd hseen hnew
      · exact absurd (name_of_class? hfirst) (hmissing _ (mem_of_class? hfirst))
  | up hparent hnew hfirst _ ih =>
    cases hother with
    | last hend =>
      rcases hend _ hparent with hseen | hmissing
      · exact absurd hseen hnew
      · exact absurd (name_of_class? hfirst) (hmissing _ (mem_of_class? hfirst))
    | up hparent' _ hfirst' hrest =>
      obtain rfl := Option.some.inj (hparent.symm.trans hparent')
      obtain rfl := Option.some.inj (hfirst.symm.trans hfirst')
      rw [ih hrest]

/-- The walk ends at the first class with a vtable on the way up, or at its end. -/
theorem walk_of_ascent (h : t.Ascent seen c chain) :
    t.Walk seen c (chain.find? fun d => d.vtable.isSome) := by
  induction h with
  | @last seen c hend =>
    cases hvtable : c.vtable with
    | none =>
      have hnone : [c].find? (fun d => d.vtable.isSome) = none := by simp [hvtable]
      rw [hnone]
      exact Walk.lost hvtable (nextClass?_eq_none hend)
    | some slots =>
      have hfound : [c].find? (fun d => d.vtable.isSome) = some c := by simp [hvtable]
      rw [hfound]
      exact Walk.found (by rw [hvtable]; rfl)
  | @up seen c d parent rest hparent hnew hfirst hrest ih =>
    cases hvtable : c.vtable with
    | none =>
      rw [List.find?_cons_of_neg (by simp [hvtable])]
      exact Walk.round hvtable (nextClass?_eq_some hparent hnew hfirst) ih
    | some slots =>
      rw [List.find?_cons_of_pos (by simp [hvtable])]
      exact Walk.found (by rw [hvtable]; rfl)

/-- With enough steps, counting them makes no difference. -/
theorem ownerFrom?_of_ascent {steps : Nat} (h : t.Ascent seen c chain)
    (hsteps : chain.length ≤ steps) :
    t.ownerFrom? steps seen c = chain.find? fun d => d.vtable.isSome := by
  induction h generalizing steps with
  | @last seen c hend =>
    obtain ⟨k, rfl⟩ : ∃ k, steps = k + 1 := ⟨steps - 1, by simp at hsteps; omega⟩
    rw [ownerFrom?, nextClass?_eq_none hend]
    cases hvtable : c.vtable <;> simp [hvtable]
  | @up seen c d parent rest hparent hnew hfirst hrest ih =>
    rw [List.length_cons] at hsteps
    obtain ⟨k, rfl⟩ : ∃ k, steps = k + 1 := ⟨steps - 1, by omega⟩
    rw [ownerFrom?, nextClass?_eq_some hparent hnew hfirst, Option.bind_some, ih (by omega)]
    cases hvtable : c.vtable <;> simp [hvtable]

theorem ascent_length_le (hc : t.class? name = some c) (h : t.Ascent [] c chain) :
    chain.length ≤ t.classes.length := by
  obtain ⟨other, hother, hlength⟩ := exists_ascent (mem_of_class? hc) List.not_mem_nil
  rw [ascent_unique h hother] at hlength
  exact Nat.le_trans hlength (List.length_filter_le _ _)

theorem vtableOwner_of_ascent (hc : t.class? name = some c) (h : t.Ascent [] c chain) :
    t.vtableOwner name =
      (chain.find? fun d => d.vtable.isSome).elim (.error (.noVtable name)) .ok := by
  unfold vtableOwner
  simp only [hc, ownerFrom?_of_ascent h (ascent_length_le hc h)]
  cases chain.find? fun d => d.vtable.isSome <;> rfl

end Ways

section Slots

def Carries (t : ExportedTables) (id : ProtoId) : Prop := ∃ p ∈ t.prototypes, p.id = id

structure ShowsSlot (t : ExportedTables) (i : Nat) (slot : VtableSlot) (method : EffectiveMethod) :
    Prop where
  slotIndex : method.slotIndex = i
  mangledName : method.mangledName = slot.mangledName
  mem : method.prototype ∈ t.prototypes
  id : method.prototype.id = slot.id
  prototype : t.prototype? slot.id = some method.prototype

structure ShowsSlots (t : ExportedTables) (slots : List VtableSlot)
    (methods : List EffectiveMethod) : Prop where
  length_eq : methods.length = slots.length
  shows : ∀ (i : Nat) (method : EffectiveMethod), methods[i]? = some method →
    ∃ slot, slots[i]? = some slot ∧ t.ShowsSlot i slot method

theorem of_prototype?_eq_some {id : ProtoId} {p : Prototype} (hp : t.prototype? id = some p) :
    p ∈ t.prototypes ∧ p.id = id := by
  unfold prototype? at hp
  split at hp
  · next q hq =>
    obtain rfl := Option.some.inj hp
    obtain ⟨hmem, hid⟩ := Option.filter_eq_some_iff.mp hq
    exact ⟨List.mem_of_getElem? hmem, by simpa using hid⟩
  · exact ⟨List.mem_of_find?_eq_some hp, by simpa using List.find?_some hp⟩

theorem prototype?_eq_none_iff {id : ProtoId} : t.prototype? id = none ↔ ¬ t.Carries id := by
  constructor
  · intro hnone
    rintro ⟨p, hp, hid⟩
    unfold prototype? at hnone
    split at hnone
    · cases hnone
    · exact List.find?_eq_none.mp hnone p hp (by simp [hid])
  · intro hnot
    cases hp : t.prototype? id with
    | none => rfl
    | some p => exact absurd ⟨p, of_prototype?_eq_some hp⟩ hnot

theorem exists_prototype?_of_carries {id : ProtoId} (hid : t.Carries id) :
    ∃ p, t.prototype? id = some p := by
  cases hp : t.prototype? id with
  | none => exact absurd hid (prototype?_eq_none_iff.mp hp)
  | some p => exact ⟨p, rfl⟩

theorem exists_showsSlots {slots : List VtableSlot} (owner : String)
    (hall : ∀ slot ∈ slots, t.Carries slot.id) :
    ∃ methods, t.methodsFrom owner 0 slots = .ok methods ∧ t.ShowsSlots slots methods := by
  obtain ⟨methods, hmethods, hlength, htold⟩ := @exists_methodsFrom t owner slots 0
    fun slot hslot => exists_prototype?_of_carries (hall slot hslot)
  refine ⟨methods, hmethods, hlength, fun i method hmethod => ?_⟩
  obtain ⟨slot, hslot, hindex, hprototype, hmangled⟩ := htold i method hmethod
  obtain ⟨hmem, hid⟩ := of_prototype?_eq_some hprototype
  exact ⟨slot, hslot, hindex.trans (Nat.zero_add i), hmangled, hmem, hid, hprototype⟩

theorem ShowsSlot.unique {i : Nat} {slot : VtableSlot} {method other : EffectiveMethod}
    (h : t.ShowsSlot i slot method) (hother : t.ShowsSlot i slot other) : other = method := by
  have hindex := hother.slotIndex.trans h.slotIndex.symm
  have hprototype := Option.some.inj (hother.prototype.symm.trans h.prototype)
  have hmangled := hother.mangledName.trans h.mangledName.symm
  cases method
  cases other
  cases hindex
  cases hprototype
  cases hmangled
  rfl

theorem ShowsSlots.unique {slots : List VtableSlot} {methods others : List EffectiveMethod}
    (h : t.ShowsSlots slots methods) (hothers : t.ShowsSlots slots others) : others = methods := by
  refine List.ext_getElem (hothers.length_eq.trans h.length_eq.symm) fun i hi hi' => ?_
  obtain ⟨slot, hslot, hshows⟩ := h.shows i _ (List.getElem?_eq_getElem hi')
  obtain ⟨slot', hslot', hshows'⟩ := hothers.shows i _ (List.getElem?_eq_getElem hi)
  obtain rfl := Option.some.inj (hslot.symm.trans hslot')
  exact hshows.unique hshows'

theorem ShowsSlots.carries {slots : List VtableSlot} {methods : List EffectiveMethod}
    (h : t.ShowsSlots slots methods) : ∀ slot ∈ slots, t.Carries slot.id := by
  intro slot hslot
  obtain ⟨i, hi, rfl⟩ := List.mem_iff_getElem.mp hslot
  have hlt : i < methods.length := h.length_eq ▸ hi
  obtain ⟨slot, hslot, hshows⟩ := h.shows i _ (List.getElem?_eq_getElem hlt)
  obtain rfl := Option.some.inj ((List.getElem?_eq_getElem hi).symm.trans hslot)
  exact ⟨_, hshows.mem, hshows.id⟩

theorem methodsFrom_of_showsSlots {slots : List VtableSlot} {methods : List EffectiveMethod}
    (h : t.ShowsSlots slots methods) (owner : String) :
    t.methodsFrom owner 0 slots = .ok methods := by
  obtain ⟨others, hothers, hshown⟩ := exists_showsSlots owner h.carries
  rw [hothers, h.unique hshown]

/-- The first slot without a prototype is told. -/
theorem methodsFrom_of_dangling {before after : List VtableSlot} {slot : VtableSlot}
    (hbefore : ∀ s ∈ before, t.Carries s.id) (hslot : ¬ t.Carries slot.id) (owner : String)
    (slotIndex : Nat) : t.methodsFrom owner slotIndex (before ++ slot :: after) =
      .error (.danglingPrototype owner slot.id) := by
  induction before generalizing slotIndex with
  | nil => simp only [List.nil_append, methodsFrom, prototype?_eq_none_iff.mpr hslot]
  | cons first rest ih =>
    obtain ⟨hfirst, hrest⟩ := List.forall_mem_cons.mp hbefore
    obtain ⟨p, hp⟩ := exists_prototype?_of_carries hfirst
    simp only [List.cons_append, methodsFrom, hp, ih hrest]
    rfl

/-- All slots have their prototypes, or there is a first one that has none. -/
theorem carries_or_dangling (t : ExportedTables) (slots : List VtableSlot) :
    (∀ slot ∈ slots, t.Carries slot.id) ∨ ∃ before slot after, slots = before ++ slot :: after ∧
      (∀ s ∈ before, t.Carries s.id) ∧ ¬ t.Carries slot.id := by
  induction slots with
  | nil => exact Or.inl (by simp)
  | cons first rest ih =>
    by_cases hfirst : t.Carries first.id
    · rcases ih with hall | ⟨before, slot, after, rfl, hbefore, hslot⟩
      · exact Or.inl (List.forall_mem_cons.mpr ⟨hfirst, hall⟩)
      · exact Or.inr ⟨first :: before, slot, after, rfl,
          List.forall_mem_cons.mpr ⟨hfirst, hbefore⟩, hslot⟩
    · exact Or.inr ⟨[], first, rest, rfl, by simp, hfirst⟩

end Slots

/-- The first class with a vtable on the way up from a name. -/
structure OwnsVtable (t : ExportedTables) (name : String) (owner : ClassEntry) : Prop where
  exists_ascent : ∃ first before after, t.class? name = some first ∧
    t.Ascent [] first (before ++ owner :: after) ∧ ∀ c ∈ before, c.vtable = none
  filled : owner.vtable.isSome = true

/-- What is shown of a name, by the documents alone. -/
inductive Shown (t : ExportedTables) (name : String) : Except LookupError EffectiveVtable → Prop
  | unknownClass (hnone : ∀ c ∈ t.classes, c.name ≠ name) :
      Shown t name (.error (.unknownClass name))
  | noVtable {first : ClassEntry} {chain : List ClassEntry} (hfirst : t.class? name = some first)
      (hchain : t.Ascent [] first chain) (hempty : ∀ c ∈ chain, c.vtable = none) :
      Shown t name (.error (.noVtable name))
  | danglingPrototype {owner : ClassEntry} {before after : List VtableSlot} {slot : VtableSlot}
      (howner : t.OwnsVtable name owner) (hslots : owner.slots = some (before ++ slot :: after))
      (hbefore : ∀ s ∈ before, t.Carries s.id) (hslot : ¬ t.Carries slot.id) :
      Shown t name (.error (.danglingPrototype owner.name slot.id))
  | methods {owner : ClassEntry} {slots : List VtableSlot} {methods : List EffectiveMethod}
      (howner : t.OwnsVtable name owner) (hslots : owner.slots = some slots)
      (hshown : t.ShowsSlots slots methods) : Shown t name (.ok ⟨name, owner.name, methods⟩)

section Results

theorem vtableOwner_of_ownsVtable {owner : ClassEntry} (h : t.OwnsVtable name owner) :
    t.vtableOwner name = .ok owner := by
  obtain ⟨first, before, after, hfirst, hchain, hbefore⟩ := h.exists_ascent
  have hfound : (before ++ owner :: after).find? (fun c => c.vtable.isSome) = some owner :=
    List.find?_eq_some_iff_append.mpr
      ⟨h.filled, before, after, rfl, fun c hc => by simp [hbefore c hc]⟩
  rw [vtableOwner_of_ascent hfirst hchain, hfound]
  rfl

theorem effectiveVtable_of_ownsVtable {owner : ClassEntry} {slots : List VtableSlot}
    (howner : t.OwnsVtable name owner) (hslots : owner.slots = some slots) :
    t.effectiveVtable name =
      (t.methodsFrom owner.name 0 slots).map fun methods => ⟨name, owner.name, methods⟩ := by
  rw [effectiveVtable, vtableOwner_of_ownsVtable howner]
  simp only [hslots, Option.getD_some, bind, Except.bind, pure, Except.pure]
  cases t.methodsFrom owner.name 0 slots <;> rfl

theorem effectiveVtable_of_shown {shown : Except LookupError EffectiveVtable}
    (h : t.Shown name shown) : t.effectiveVtable name = shown := by
  cases h with
  | unknownClass hnone => exact effectiveVtable_of_class?_eq_none (class?_eq_none_iff.mpr hnone)
  | @noVtable first chain hfirst hchain hempty =>
    have hnone : chain.find? (fun c => c.vtable.isSome) = none :=
      List.find?_eq_none.mpr fun c hc => by simp [hempty c hc]
    rw [effectiveVtable, vtableOwner_of_ascent hfirst hchain, hnone]
    rfl
  | danglingPrototype howner hslots hbefore hslot =>
    rw [effectiveVtable_of_ownsVtable howner hslots, methodsFrom_of_dangling hbefore hslot]
    rfl
  | methods howner hslots hshown =>
    rw [effectiveVtable_of_ownsVtable howner hslots, methodsFrom_of_showsSlots hshown]
    rfl

/-- Something is shown of every name. -/
theorem exists_shown (t : ExportedTables) (name : String) : ∃ shown, t.Shown name shown := by
  cases hfirst : t.class? name with
  | none => exact ⟨_, Shown.unknownClass (class?_eq_none_iff.mp hfirst)⟩
  | some first =>
    obtain ⟨chain, hchain, -⟩ := exists_ascent (mem_of_class? hfirst) List.not_mem_nil
    cases hfound : chain.find? fun c => c.vtable.isSome with
    | none =>
      have hempty : ∀ c ∈ chain, c.vtable = none := by simpa using hfound
      exact ⟨_, Shown.noVtable hfirst hchain hempty⟩
    | some owner =>
      obtain ⟨hfilled, before, after, rfl, hbefore⟩ := List.find?_eq_some_iff_append.mp hfound
      have howner : t.OwnsVtable name owner :=
        ⟨⟨first, before, after, hfirst, hchain, by simpa using hbefore⟩, hfilled⟩
      obtain ⟨slots, hslots⟩ : ∃ slots, owner.slots = some slots := by
        rw [← Option.isSome_iff_exists, ClassEntry.slots, Option.isSome_map]
        exact hfilled
      rcases t.carries_or_dangling slots with hall | ⟨front, slot, rest, rfl, hfront, hslot⟩
      · obtain ⟨methods, -, hshown⟩ := exists_showsSlots owner.name hall
        exact ⟨_, Shown.methods howner hslots hshown⟩
      · exact ⟨_, Shown.danglingPrototype howner hslots hfront hslot⟩

end Results

/-- In any documents there is exactly one way up from a class, a walk to the owner of a vtable
comes to its end, and looking up a name gives what the documents show of it. -/
theorem effectiveVtable_eq_iff_shown (t : ExportedTables) (name : String) :
    (∀ first, t.class? name = some first → (∃! chain, t.Ascent [] first chain) ∧
        ∃ owner, t.Walk [] first owner ∧
          t.vtableOwner name = owner.elim (.error (.noVtable name)) .ok) ∧
      ∀ shown, t.effectiveVtable name = shown ↔ t.Shown name shown := by
  constructor
  · intro first hfirst
    obtain ⟨chain, hchain, -⟩ := exists_ascent (mem_of_class? hfirst) List.not_mem_nil
    exact ⟨⟨chain, hchain, fun _ hother => ascent_unique hchain hother⟩,
      _, walk_of_ascent hchain, vtableOwner_of_ascent hfirst hchain⟩
  · intro shown
    constructor
    · rintro rfl
      obtain ⟨shown, hshown⟩ := t.exists_shown name
      rwa [effectiveVtable_of_shown hshown]
    · exact effectiveVtable_of_shown

end VtableMerge.ExportedTables
