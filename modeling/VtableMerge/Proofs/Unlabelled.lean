import VtableMerge.Proofs.FailedObservations
import VtableMerge.Proofs.LabelGrammar
import VtableMerge.Proofs.ShownMerges

/-!
No label of a disassembler gets through a merge. A store clears labels from whatever comes into
it. From there on texts are only copied: into a new prototype, into one that has no name yet, into
the slot of a class. The names that the passes make up are no labels either, since no label has
the letter with which they begin.
-/
namespace VtableMerge

namespace Label
variable {name : String}

def isLabelChar (c : Char) : Bool :=
  ['j', '_', 's', 'u', 'b', 'n', 'l'].contains c || isHexDigit c

theorem isLabelChar_of_isLabel (hlabel : IsLabel name) :
    ∀ c ∈ name.toList, isLabelChar c = true := by
  obtain ⟨jumps, routine, address, hroutine, -, hdigits, hname⟩ := hlabel
  rw [hname, List.append_assoc]
  refine List.forall_mem_append.mpr ⟨fun c hc => ?_, List.forall_mem_append.mpr ⟨?_, ?_⟩⟩
  · obtain ⟨mark, hmark, hmem⟩ := List.mem_flatten.mp hc
    rw [List.eq_of_mem_replicate hmark] at hmem
    exact List.all_eq_true.mp (by decide : jumpMark.all isLabelChar = true) c hmem
  · rcases hroutine with rfl | rfl
    · exact List.all_eq_true.mp (by decide)
    · exact List.all_eq_true.mp (by decide)
  · intro c hc
    rw [isLabelChar, isHexDigit_iff_mem.mpr (hdigits c hc), Bool.or_true]

theorem accepts_eq_false_of_mem {c : Char} (hc : c ∈ name.toList)
    (hno : isLabelChar c = false) : accepts name = false := by
  by_contra haccepts
  rw [Bool.not_eq_false] at haccepts
  rw [isLabelChar_of_isLabel (accepts_iff_isLabel.mp haccepts) c hc] at hno
  cases hno

theorem v_mem_placeholderName (slotIndex : Nat) : 'v' ∈ (placeholderName slotIndex).toList := by
  rw [placeholderName, String.toList_append]
  exact List.mem_append_left _ (by decide)

/-- A made-up name is no label, whatever stands before it. -/
theorem accepts_append_placeholderName (front : String) (slotIndex : Nat) :
    accepts (front ++ placeholderName slotIndex) = false := by
  have hmem : 'v' ∈ (front ++ placeholderName slotIndex).toList := by
    rw [String.toList_append]
    exact List.mem_append_right _ (v_mem_placeholderName slotIndex)
  exact accepts_eq_false_of_mem hmem (by decide)

theorem accepts_placeholderName (slotIndex : Nat) :
    accepts (placeholderName slotIndex) = false :=
  accepts_eq_false_of_mem (v_mem_placeholderName slotIndex) (by decide)

end Label

structure Signature.Unlabelled (s : Signature) : Prop where
  name : Label.accepts s.name = false
  mangledName : Label.accepts s.mangledName = false

def VtableSlot.Unlabelled (slot : VtableSlot) : Prop :=
  ∀ symbol, slot.mangledName = some symbol → Label.accepts symbol = false

namespace Signature.Unlabelled
variable {known seen : Signature}

theorem unknown : Signature.unknown.Unlabelled := ⟨by decide, by decide⟩

theorem normalized (o : Observation) : o.normalized.toSignature.Unlabelled :=
  ⟨Label.accepts_clear o.name, Label.accepts_clear o.mangledName⟩

theorem signature {o : Observation} (ho : o.toSignature.Unlabelled) : o.signature.Unlabelled := by
  unfold Observation.signature
  split
  · exact unknown
  · exact ho

theorem adoptNames (hknown : known.Unlabelled) (hseen : seen.Unlabelled) :
    (adoptNames known seen).1.Unlabelled where
  name := by
    rw [adoptNames_name]
    split
    · exact hseen.name
    · exact hknown.name
  mangledName := by
    rcases adoptNames_mangledName known seen with hname | hname
    · rw [hname]
      exact hknown.mangledName
    · rw [hname]
      exact hseen.mangledName

theorem enrich {p : Prototype} {o : Observation} (hp : p.toSignature.Unlabelled)
    (ho : o.toSignature.Unlabelled) (className : String) (slotIndex : Nat) :
    (p.enrich o className slotIndex).prototype.toSignature.Unlabelled := by
  have hnames := hp.adoptNames ho
  unfold Prototype.enrich
  split
  · exact hp
  · exact ⟨hnames.name, hnames.mangledName⟩

end Signature.Unlabelled

theorem VtableSlot.unlabelled_ofObservation {o : Observation} (ho : o.toSignature.Unlabelled)
    (id : ProtoId) : (VtableSlot.ofObservation id o).Unlabelled := by
  intro symbol hsymbol
  unfold VtableSlot.ofObservation at hsymbol
  dsimp only at hsymbol
  split at hsymbol
  · rw [← Option.some.inj hsymbol]
    exact ho.mangledName
  · cases hsymbol

section Stores

/-- What a store is filled with: one class, or the known classes of a document. -/
inductive StoreRequest
  | insertClass (name : String) (slots : List Observation) (source : String)
  | ingest (known : String → Bool) (source : String) (document : ObservationDocument)

namespace ObservationStore

def apply (store : ObservationStore) : StoreRequest → ObservationStore
  | .insertClass name slots source => (store.insertClass name slots source).1
  | .ingest known source document => (ingest known source document store).1

def filled (requests : List StoreRequest) : ObservationStore := requests.foldl apply empty

section Induction
variable {P : ObservationStore → Prop} (hinsert : ∀ (store : ObservationStore) (name : String)
  (slots : List Observation) (source : String), P store → P (store.insertClass name slots source).1)
include hinsert

/-- What every insertion keeps, a document keeps. -/
theorem ingest_induction {store : ObservationStore} (hstore : P store) (known : String → Bool)
    (source : String) (document : ObservationDocument) :
    P (ingest known source document store).1 := by
  induction document generalizing store with
  | nil => exact hstore
  | cons first rest ih =>
    obtain ⟨name, slots⟩ := first
    unfold ObservationStore.ingest
    split
    · exact ih (hinsert store name slots source hstore)
    · exact ih hstore

/-- What every insertion keeps holds of a store, whatever it was filled with. -/
theorem filled_induction (hempty : P empty) (requests : List StoreRequest) :
    P (filled requests) := by
  induction requests using List.reverseRecOn with
  | nil => exact hempty
  | append_singleton before r ih =>
    rw [filled, List.foldl_concat]
    cases r with
    | insertClass name slots source => exact hinsert _ name slots source ih
    | ingest known source document => exact ingest_induction hinsert ih known source document

end Induction

def Normal (store : ObservationStore) : Prop :=
  ∀ name observed, store.get? name = some observed →
    ∃ slots : List Observation, observed = slots.map Observation.normalized

namespace Normal
variable {store : ObservationStore}

theorem insertClass (hstore : store.Normal) (name : String) (slots : List Observation)
    (source : String) : (store.insertClass name slots source).1.Normal := by
  intro other observed hget
  rw [show (store.insertClass name slots source).1 =
    store.replace name ⟨source, slots.map Observation.normalized⟩ from rfl, get?_replace] at hget
  by_cases hother : other = name
  · rw [if_pos hother, Option.some.injEq] at hget
    exact ⟨slots, hget.symm⟩
  · rw [if_neg hother] at hget
    exact hstore other observed hget

theorem filled (requests : List StoreRequest) : (filled requests).Normal := by
  refine filled_induction ?_ ?_ requests
  · exact fun store name slots source hstore => hstore.insertClass name slots source
  · intro name observed hget
    cases hget

theorem unlabelled (hstore : store.Normal) {name : String} {observed : List Observation}
    (hget : store.get? name = some observed) : ∀ o ∈ observed, o.toSignature.Unlabelled := by
  obtain ⟨slots, rfl⟩ := hstore name observed hget
  intro o ho
  obtain ⟨raw, -, rfl⟩ := List.mem_map.mp ho
  exact Signature.Unlabelled.normalized raw

end Normal

end ObservationStore

end Stores

def PrototypeTable.Unlabelled (table : PrototypeTable) : Prop :=
  ∀ p ∈ table.prototypes, p.toSignature.Unlabelled

namespace Merge

section Laying
variable (className : String) {table : PrototypeTable} {o : Observation}

theorem unlabelled_create (htable : table.Unlabelled) {signature : Signature}
    (hsignature : signature.Unlabelled) (slotIndex : Nat) :
    (table.create className slotIndex signature).1.Unlabelled := by
  intro p hp
  rcases List.mem_append.mp hp with hp | hp
  · exact htable p hp
  · rw [List.mem_singleton.mp hp]
    exact hsignature

theorem unlabelled_enrichInherited (htable : table.Unlabelled) (ho : o.toSignature.Unlabelled)
    (slotIndex : Nat) (id : ProtoId) :
    (enrichInherited className slotIndex id o table).1.Unlabelled := by
  unfold enrichInherited
  split
  · exact htable
  · next p hp =>
    intro q hq
    rcases List.mem_or_eq_of_mem_set hq with hq | rfl
    · exact htable q hq
    · exact (htable p (List.mem_of_getElem? hp)).enrich ho className slotIndex

/-- The slots that are laid and the prototypes behind them have no labels, if the observations
have none. -/
theorem unlabelled_layFrom (slotIndex : Nat) (htable : table.Unlabelled) (ids : List ProtoId)
    {observed : List Observation} (hobserved : ∀ o ∈ observed, o.toSignature.Unlabelled) :
    (∀ slot ∈ (layFrom className slotIndex table ids observed).slots, slot.Unlabelled) ∧
      (layFrom className slotIndex table ids observed).table.Unlabelled := by
  induction observed generalizing slotIndex table ids with
  | nil =>
    rw [layFrom]
    exact ⟨List.forall_mem_nil _, htable⟩
  | cons o os ih =>
    obtain ⟨ho, hos⟩ := List.forall_mem_cons.mp hobserved
    cases ids with
    | nil =>
      have hrest := ih (slotIndex + 1) (unlabelled_create className htable ho.signature slotIndex)
        [] hos
      refine ⟨List.forall_mem_cons.mpr ⟨?_, hrest.1⟩, hrest.2⟩
      exact VtableSlot.unlabelled_ofObservation ho _
    | cons id ids =>
      have hrest := ih (slotIndex + 1)
        (unlabelled_enrichInherited className htable ho slotIndex id) ids hos
      refine ⟨List.forall_mem_cons.mpr ⟨?_, hrest.1⟩, hrest.2⟩
      exact VtableSlot.unlabelled_ofObservation ho id

end Laying

structure State.Unlabelled (s : State) : Prop where
  table : s.table.Unlabelled
  slots : ∀ name slots, s.outcome? name = some (.resolved slots) →
    ∀ slot ∈ slots, slot.Unlabelled

variable {h : Hierarchy} {store : ObservationStore} {s t : State} {c : ClassNode}

theorem State.Unlabelled.of_cons (hs : s.Unlabelled) {name : String} {o : Outcome}
    (ht : t.outcomes = (name, o) :: s.outcomes) (htable : t.table.Unlabelled)
    (ho : ∀ slots, o = .resolved slots → ∀ slot ∈ slots, slot.Unlabelled) : t.Unlabelled where
  table := htable
  slots other slots hother := by
    rw [State.outcome?_of_cons ht] at hother
    by_cases heq : other = name
    · rw [if_pos heq, Option.some.injEq] at hother
      exact ho slots hother
    · rw [if_neg heq] at hother
      exact hs.slots other slots hother

/-- Every step keeps labels out. -/
theorem unlabelled_of_settles (hstore : store.Normal) (hs : s.Unlabelled)
    (hstep : Settles h store s c t) : t.Unlabelled := by
  have hsettled (o : Outcome) (found : Diagnostics) (ho : ∀ slots, o ≠ .resolved slots) :
      (s.settleAs c.name o found).Unlabelled :=
    hs.of_cons rfl hs.table fun slots heq => absurd heq (ho slots)
  cases hstep with
  | unobserved hobs => exact hsettled _ _ (by simp)
  | cyclic observed hobs hcyclic => exact hsettled _ _ (by simp)
  | orphaned observed parent hobs hcyclic hparent hinside hfailed =>
    exact hsettled _ _ (by simp)
  | shrunk observed parent slots hobs hcyclic hparent hinside hslots hlength =>
    exact hsettled _ _ (by simp)
  | resolved observed hobs hcyclic hparent hlength =>
    obtain ⟨hslots, htable⟩ := unlabelled_layFrom c.name 0 hs.table
      ((s.parentVtable c).map VtableSlot.id) (hstore.unlabelled hobs)
    apply hs.of_cons rfl htable
    intro slots heq
    rw [← Outcome.resolved.inj heq]
    exact hslots

theorem unlabelled_of_leads (hstore : store.Normal) (hlead : Leads h store State.initial s) :
    s.Unlabelled := by
  induction hlead with
  | refl =>
    constructor
    · intro p hp
      cases hp
    · intro name slots hname
      cases hname
  | settle hlead hc ih =>
    exact unlabelled_of_settles hstore ih (settles_settle (inside_of_leads hlead) _)

structure Result.Unlabelled (r : Result) : Prop where
  table : r.prototypes.Unlabelled
  slots : ∀ c ∈ r.classes, ∀ slots, c.slots = some slots → ∀ slot ∈ slots, slot.Unlabelled

theorem State.Unlabelled.finish (hs : s.Unlabelled) (hplain : ∀ c ∈ h.nodes, c.slots = none) :
    (finish h s).Unlabelled where
  table := hs.table
  slots c hc slots hslots := by
    obtain ⟨d, hd, rfl⟩ := List.mem_map.mp hc
    unfold withVtable at hslots
    split at hslots
    · next found ho =>
      rw [← Option.some.inj hslots]
      exact hs.slots d.name found ho
    · rw [hplain d hd] at hslots
      cases hslots

end Merge

namespace Prototype
variable {p : Prototype}

theorem unlabelled_withoutVoidReturn? (hp : p.toSignature.Unlabelled) :
    (p.withoutVoidReturn?.getD p).toSignature.Unlabelled := by
  unfold withoutVoidReturn?
  split
  · exact ⟨hp.name, hp.mangledName⟩
  · exact hp

/-- A prototype keeps its name, or it is given one that is not empty and no label. -/
theorem unlabelled_withPlaceholderName? (hp : p.toSignature.Unlabelled) :
    (p.withPlaceholderName?.getD p).name ≠ "" ∧
      (p.withPlaceholderName?.getD p).toSignature.Unlabelled := by
  unfold withPlaceholderName?
  split
  · next hnamed => exact ⟨by simpa [Signature.isNamed] using hnamed, hp⟩
  · have hname : placeholderName p.slotIndex ≠ "" := by
      intro hempty
      have hmem := Label.v_mem_placeholderName p.slotIndex
      rw [hempty] at hmem
      cases hmem
    exact ⟨hname, Label.accepts_placeholderName p.slotIndex,
      Label.accepts_append_placeholderName _ p.slotIndex⟩

theorem unlabelled_exported (hp : p.toSignature.Unlabelled) (fixGetters : Bool) :
    (p.exported fixGetters).name ≠ "" ∧ (p.exported fixGetters).toSignature.Unlabelled := by
  cases fixGetters with
  | false => exact unlabelled_withPlaceholderName? hp
  | true => exact unlabelled_withPlaceholderName? (unlabelled_withoutVoidReturn? hp)

end Prototype

namespace Run
open Merge

structure Artifacts.Unlabelled (a : Artifacts) : Prop where
  named : ∀ p ∈ a.prototypes, p.name ≠ ""
  prototypes : ∀ p ∈ a.prototypes, p.toSignature.Unlabelled
  slots : ∀ c ∈ a.classes, ∀ slots, c.slots = some slots → ∀ slot ∈ slots, slot.Unlabelled

/-- Whatever a store is filled with, a merge over a hierarchy that comes without vtables gives no
label, neither in a prototype nor in a slot. The exported documents have none either, in any form
and with getters fixed or not, and there every prototype has a name. -/
theorem unlabelled_merge (h : Hierarchy) (requests : List StoreRequest)
    (hplain : ∀ c ∈ h.nodes, c.slots = none) :
    (Merge.run h (.filled requests)).Unlabelled ∧
      ∀ (documents : List DocumentDigest) (encoding : VtableEncoding) (fixGetters : Bool)
        (generatedAt : String),
        (artifacts h ⟨.filled requests, documents⟩ encoding fixGetters generatedAt).Unlabelled := by
  have hstore := ObservationStore.Normal.filled requests
  constructor
  · exact (unlabelled_of_leads hstore (leads_resolveAll _)).finish hplain
  · intro documents encoding fixGetters generatedAt
    have hs : (settled h ⟨.filled requests, documents⟩).Unlabelled :=
      unlabelled_of_leads hstore (leads_resolveAll _)
    have hexported : ∀ p ∈ (artifacts h ⟨.filled requests, documents⟩ encoding fixGetters
        generatedAt).prototypes, p.name ≠ "" ∧ p.toSignature.Unlabelled := by
      rw [artifacts_prototypes]
      intro p hp
      obtain ⟨q, hq, rfl⟩ := List.mem_map.mp hp
      exact Prototype.unlabelled_exported (hs.table q hq) fixGetters
    refine {
      named := fun p hp => (hexported p hp).1
      prototypes := fun p hp => (hexported p hp).2
      slots := ?_ }
    intro c hc slots hslots
    rw [artifacts_classes] at hc
    obtain ⟨d, hd, rfl⟩ := List.mem_map.mp hc
    rw [ofNode_withVtable_slots (hplain d hd), State.vtable?_eq_some_iff] at hslots
    exact hs.slots d.name slots hslots

/-- Two documents full of labels: neither of the two prototypes of Device keeps one. -/
def labelledRequests : List StoreRequest :=
  [.ingest (fun _ => true) "a"
      [("Device", [{ Observation.concrete 0 "sub_1A" with
          mangledName := "j_sub_1A", isImplementedHere := true },
        .concrete 1 "nullsub_7"])],
    .insertClass "Disk" [.concrete 0 "j_j_sub_FF", .concrete 1 "seek"] "b"]

theorem unlabelled_merge_sample :
    (∀ c ∈ sampleHierarchy.nodes, c.slots = none) ∧
      Label.accepts "j_j_sub_FF" = true ∧
      (Merge.run sampleHierarchy (.filled labelledRequests)).Unlabelled ∧
      (artifacts sampleHierarchy ⟨.filled labelledRequests, []⟩ .compact true "now").Unlabelled ∧
      (artifacts sampleHierarchy ⟨.filled labelledRequests, []⟩ .compact true "now").prototypes.map
        (fun p => p.name) = ["vmethod0", "seek"] :=
  ⟨by decide, by decide, (unlabelled_merge sampleHierarchy labelledRequests (by decide)).1,
    (unlabelled_merge sampleHierarchy labelledRequests (by decide)).2 [] .compact true "now",
    by decide +kernel⟩

end Run
end VtableMerge
