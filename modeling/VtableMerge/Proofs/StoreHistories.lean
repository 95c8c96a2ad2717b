import VtableMerge.Proofs.Unlabelled

/-!
The history of a store. Whatever it was filled with, a look-up gives what the last request to store
the class gave, an insertion tells where the entry it replaces came from, the counts of a document
are those of its classes, and the size of the store is what all requests together added to it.
-/
namespace VtableMerge

namespace StoreRequest

def stored? (name : String) : StoreRequest → Option StoredClass
  | .insertClass key slots source =>
    if name = key then some ⟨source, slots.map Observation.normalized⟩ else none
  | .ingest known source document =>
    if known name then
      (document.lookup name).map fun slots => ⟨source, slots.map Observation.normalized⟩
    else none

def HasDistinctClasses : StoreRequest → Prop
  | .insertClass _ _ _ => True
  | .ingest _ _ document => (document.map Prod.fst).Nodup

instance (r : StoreRequest) : Decidable r.HasDistinctClasses :=
  match r with
  | .insertClass _ _ _ => isTrue trivial
  | .ingest _ _ document => inferInstanceAs (Decidable (document.map Prod.fst).Nodup)

def lastStored? (requests : List StoreRequest) (name : String) : Option StoredClass :=
  requests.reverse.findSome? (stored? name)

end StoreRequest

/-- What a request answers: where a replaced entry came from, or how the classes of a document
fared. -/
inductive StoreAnswer
  | replaced (source : Option String)
  | ingested (counts : IngestCounts)

def StoreAnswer.added : StoreAnswer → Nat
  | .replaced none => 1
  | .replaced (some _) => 0
  | .ingested counts => counts.accepted - counts.replaced

structure IngestCounts.Tally (known : String → Bool) (document : ObservationDocument)
    (store : ObservationStore) (counts : IngestCounts) : Prop where
  all : counts.accepted + counts.dropped = document.length
  dropped : counts.dropped = document.countP fun e => !known e.1
  replaced : counts.replaced = document.countP fun e => known e.1 && store.contains e.1

namespace ObservationStore
open StoreRequest

def answer (store : ObservationStore) : StoreRequest → StoreAnswer
  | .insertClass name slots source => .replaced (store.insertClass name slots source).2
  | .ingest known source document => .ingested (ingest known source document store).2

def answers (store : ObservationStore) : List StoreRequest → List StoreAnswer
  | [] => []
  | r :: rest => store.answer r :: (store.apply r).answers rest

variable {store : ObservationStore} {known : String → Bool}

theorem answers_append (store : ObservationStore) (first second : List StoreRequest) :
    store.answers (first ++ second) =
      store.answers first ++ (first.foldl apply store).answers second := by
  induction first generalizing store with
  | nil => rfl
  | cons r rest ih => rw [List.cons_append, answers, ih, answers, List.foldl_cons, List.cons_append]

section Entries

theorem entry?_insertClass (store : ObservationStore) (name : String) (slots : List Observation)
    (source other : String) : entry? (store.insertClass name slots source).1 other =
      if other = name then some ⟨source, slots.map Observation.normalized⟩
      else store.entry? other :=
  lookup_put name other _ store.classes

theorem contains_eq_isSome (store : ObservationStore) (name : String) :
    store.contains name = (store.entry? name).isSome := by
  rw [contains, get?, Option.isSome_map]

theorem lookup_eq_none_of_not_mem {name : String} {document : ObservationDocument}
    (hname : name ∉ document.map Prod.fst) : document.lookup name = none := by
  rw [List.lookup_eq_none_iff]
  intro e he
  simpa using fun heq => hname (List.mem_map.mpr ⟨e, he, heq.symm⟩)

/-- A document stores the known classes it has, and leaves all others alone. -/
theorem entry?_ingest (source : String) {document : ObservationDocument}
    (hdistinct : (document.map Prod.fst).Nodup) (name : String) :
    entry? (ingest known source document store).1 name =
      ((StoreRequest.ingest known source document).stored? name).or (store.entry? name) := by
  induction document generalizing store with
  | nil => simp [ObservationStore.ingest, stored?]
  | cons first rest ih =>
    obtain ⟨key, slots⟩ := first
    obtain ⟨hkey, hrest⟩ := List.nodup_cons.mp hdistinct
    have hfresh := lookup_eq_none_of_not_mem hkey
    simp only [stored?] at ih ⊢
    cases hknown : known key with
    | true =>
      simp only [ObservationStore.ingest, hknown, if_true, ih hrest, entry?_insertClass]
      by_cases hname : name = key
      · subst hname
        simp [hknown, hfresh]
      · simp [List.lookup_cons, beq_eq_false_iff_ne.mpr hname, hname]
    | false =>
      simp only [ObservationStore.ingest, hknown, Bool.false_eq_true, if_false, ih hrest]
      by_cases hname : name = key
      · subst hname
        simp [hknown]
      · simp [List.lookup_cons, beq_eq_false_iff_ne.mpr hname]

theorem entry?_apply {r : StoreRequest} (hr : r.HasDistinctClasses) (name : String) :
    entry? (store.apply r) name = (r.stored? name).or (store.entry? name) := by
  cases r with
  | insertClass key slots source =>
    rw [apply, entry?_insertClass, stored?]
    split <;> rfl
  | ingest known source document => exact entry?_ingest source hr name

theorem entry?_foldl_apply {requests : List StoreRequest}
    (hrequests : ∀ r ∈ requests, r.HasDistinctClasses) (name : String) :
    entry? (requests.foldl apply store) name =
      (lastStored? requests name).or (store.entry? name) := by
  induction requests generalizing store with
  | nil => rfl
  | cons r rest ih =>
    obtain ⟨hr, hrest⟩ := List.forall_mem_cons.mp hrequests
    rw [List.foldl_cons, ih hrest, entry?_apply hr, lastStored?, lastStored?, List.reverse_cons,
      List.findSome?_append, Option.or_assoc]
    simp

theorem entry?_filled {requests : List StoreRequest}
    (hrequests : ∀ r ∈ requests, r.HasDistinctClasses) (name : String) :
    entry? (filled requests) name = lastStored? requests name :=
  (entry?_foldl_apply hrequests name).trans Option.or_none

end Entries

/-- A document only brings in classes that are known. -/
theorem contains_ingest {source name : String} {document : ObservationDocument}
    (hname : (ingest known source document store).1.contains name = true) :
    known name = true ∨ store.contains name = true := by
  induction document generalizing store with
  | nil => exact .inr hname
  | cons first rest ih =>
    obtain ⟨key, slots⟩ := first
    cases hknown : known key with
    | true =>
      simp only [ObservationStore.ingest, hknown, if_true] at hname
      rcases ih hname with h | h
      · exact .inl h
      · rw [contains_eq_isSome, entry?_insertClass] at h
        split at h
        · next heq => exact .inl (heq ▸ hknown)
        · exact .inr (by rwa [contains_eq_isSome])
    | false =>
      simp only [ObservationStore.ingest, hknown, Bool.false_eq_true, if_false] at hname
      exact ih hname

section Counts

/-- Dropped classes might as well not be in the document. -/
theorem ingest_filter (known : String → Bool) (source : String) (document : ObservationDocument)
    (store : ObservationStore) :
    (ingest (fun _ => true) source (document.filter fun e => known e.1) store).1 =
      (ingest known source document store).1 := by
  induction document generalizing store with
  | nil => rfl
  | cons first rest ih =>
    cases hknown : known first.1 with
    | true => simp [ObservationStore.ingest, hknown, ih]
    | false => simp [ObservationStore.ingest, hknown, ih]

/-- Every class of a document is counted once. -/
theorem accepted_add_dropped_ingest (known : String → Bool) (source : String)
    (document : ObservationDocument) (store : ObservationStore) :
    (ingest known source document store).2.accepted +
      (ingest known source document store).2.dropped = document.length := by
  induction document generalizing store with
  | nil => rfl
  | cons first rest ih =>
    obtain ⟨key, slots⟩ := first
    cases hknown : known key with
    | true =>
      have hrest := ih (store.insertClass key slots source).1
      simp only [ObservationStore.ingest, hknown, if_true, List.length_cons]
      omega
    | false =>
      have hrest := ih store
      simp only [ObservationStore.ingest, hknown, Bool.false_eq_true, if_false, List.length_cons]
      omega

theorem tally_ingest (source : String) {document : ObservationDocument}
    (hdistinct : (document.map Prod.fst).Nodup) :
    (ingest known source document store).2.Tally known document store := by
  induction document generalizing store with
  | nil => exact ⟨rfl, rfl, rfl⟩
  | cons first rest ih =>
    obtain ⟨key, slots⟩ := first
    obtain ⟨hkey, hrest⟩ := List.nodup_cons.mp hdistinct
    cases hknown : known key with
    | true =>
      have htally := @ih (store.insertClass key slots source).1 hrest
      -- The classes behind this one have other names, so it did not bring them in.
      have hother : (rest.countP fun e => known e.1 &&
          (store.insertClass key slots source).1.contains e.1) =
          rest.countP fun e => known e.1 && store.contains e.1 := by
        refine List.countP_congr fun e he => ?_
        have hne : e.1 ≠ key := fun heq => hkey (List.mem_map.mpr ⟨e, he, heq⟩)
        rw [contains_eq_isSome, entry?_insertClass, if_neg hne, contains_eq_isSome]
      have hprevious : (store.insertClass key slots source).2.isSome = store.contains key := by
        rw [insertClass, contains_eq_isSome, Option.isSome_map]
      constructor
      · exact accepted_add_dropped_ingest ..
      · simp [ObservationStore.ingest, hknown, htally.dropped]
      · simp [ObservationStore.ingest, hknown, htally.replaced, hother, hprevious,
          List.countP_cons]
    | false =>
      have htally := @ih store hrest
      constructor
      · exact accepted_add_dropped_ingest ..
      · simp [ObservationStore.ingest, hknown, htally.dropped]
      · simp [ObservationStore.ingest, hknown, htally.replaced]

end Counts

section Size

theorem keys_put (name : String) (entry : StoredClass) (classes : List (String × StoredClass)) :
    (put name entry classes).map Prod.fst =
      if name ∈ classes.map Prod.fst then classes.map Prod.fst
      else classes.map Prod.fst ++ [name] := by
  induction classes with
  | nil => simp [put]
  | cons first rest ih =>
    obtain ⟨key, old⟩ := first
    rw [put]
    by_cases hkey : key = name
    · simp [hkey]
    · have hname : name ≠ key := Ne.symm hkey
      rw [if_neg (by simpa using hkey), List.map_cons, ih]
      simp only [List.map_cons, List.mem_cons, hname, false_or]
      split <;> simp

theorem mem_keys_iff {name : String} :
    name ∈ store.classes.map Prod.fst ↔ (store.entry? name).isSome = true := by
  unfold entry?
  rw [List.lookup_isSome_iff, List.mem_map]
  exact exists_congr fun e => and_congr_right fun _ => by rw [beq_iff_eq, eq_comm]

/-- A store has each class once. -/
theorem nodup_keys_filled (requests : List StoreRequest) :
    ((filled requests).classes.map Prod.fst).Nodup := by
  refine @filled_induction (fun store => (store.classes.map Prod.fst).Nodup) ?_ List.nodup_nil
    requests
  intro store name slots source hstore
  rw [insertClass, keys_put]
  split
  · exact hstore
  · next hname =>
    rw [← List.concat_eq_append]
    exact hstore.concat hname

theorem size_insertClass (store : ObservationStore) (name : String) (slots : List Observation)
    (source : String) : (store.insertClass name slots source).1.size =
      store.size + if (store.insertClass name slots source).2.isSome then 0 else 1 := by
  have hlength := congrArg List.length (keys_put name
    ⟨source, slots.map Observation.normalized⟩ store.classes)
  rw [List.length_map] at hlength
  simp only [size, insertClass, Option.isSome_map, hlength, mem_keys_iff]
  split <;> simp

/-- Each accepted class is one more in the store, unless it was replaced. -/
theorem size_ingest (source : String) (document : ObservationDocument) :
    (ingest known source document store).2.replaced ≤
        (ingest known source document store).2.accepted ∧
      (ingest known source document store).1.size +
          (ingest known source document store).2.replaced =
        store.size + (ingest known source document store).2.accepted := by
  induction document generalizing store with
  | nil => exact ⟨Nat.le_refl _, rfl⟩
  | cons first rest ih =>
    obtain ⟨key, slots⟩ := first
    cases hknown : known key with
    | true =>
      obtain ⟨hle, hsize⟩ := @ih (store.insertClass key slots source).1
      have hone := store.size_insertClass key slots source
      simp only [ObservationStore.ingest, hknown, if_true]
      split at hone
      · next hsome =>
        rw [if_pos hsome]
        omega
      · next hnone =>
        rw [if_neg hnone]
        omega
    | false =>
      simp only [ObservationStore.ingest, hknown, Bool.false_eq_true, if_false]
      exact ih

theorem size_apply (store : ObservationStore) (r : StoreRequest) :
    (store.apply r).size = store.size + (store.answer r).added := by
  cases r with
  | insertClass name slots source =>
    rw [apply, size_insertClass, answer]
    cases (store.insertClass name slots source).2 <;> rfl
  | ingest known source document =>
    obtain ⟨hle, hsize⟩ := @size_ingest store known source document
    simp only [apply, answer, StoreAnswer.added]
    omega

theorem size_foldl_apply (store : ObservationStore) (requests : List StoreRequest) :
    (requests.foldl apply store).size =
      store.size + ((store.answers requests).map StoreAnswer.added).sum := by
  induction requests generalizing store with
  | nil => rfl
  | cons r rest ih =>
    rw [List.foldl_cons, ih, size_apply, answers, List.map_cons, List.sum_cons, Nat.add_assoc]

/-- The stored classes are those that some request stored. -/
theorem isSome_lastStored? {requests : List StoreRequest} {name : String} :
    (lastStored? requests name).isSome = true ↔ ∃ r ∈ requests, (r.stored? name).isSome = true := by
  rw [lastStored?, List.findSome?_isSome_iff]
  simp

end Size

/-- Let a store be filled by any requests. A look-up gives what the last request to store the class
gave, whole, in order and normalized; one more insertion tells the source of that request; one more
document is counted class by class, and its dropped classes leave no trace. The size is the number
of classes that were stored, and the sum of what the requests added one by one. -/
theorem lastWriterWins_filled (requests : List StoreRequest)
    (hrequests : ∀ r ∈ requests, r.HasDistinctClasses) :
    (∀ name, (filled requests).get? name = (lastStored? requests name).map StoredClass.slots) ∧
      (∀ name slots source, ((filled requests).insertClass name slots source).2 =
        (lastStored? requests name).map StoredClass.source) ∧
      (∀ known source document, (document.map Prod.fst).Nodup →
        (ingest known source document (filled requests)).2.Tally known document
            (filled requests) ∧
          (ingest known source document (filled requests)).1 =
            (ingest (fun _ => true) source (document.filter fun e => known e.1)
              (filled requests)).1) ∧
      (∃ names : Finset String,
        (∀ name, name ∈ names ↔ ∃ r ∈ requests, (r.stored? name).isSome = true) ∧
          (filled requests).size = names.card) ∧
      (filled requests).size = ((empty.answers requests).map StoreAnswer.added).sum := by
  have hentry := entry?_filled hrequests
  refine ⟨fun name => ?_, fun name slots source => ?_, fun known source document hdistinct => ?_,
    ⟨((filled requests).classes.map Prod.fst).toFinset, fun name => ?_, ?_⟩, ?_⟩
  · rw [get?, hentry]
  · rw [insertClass, hentry]
  · exact ⟨tally_ingest source hdistinct, (ingest_filter known source document _).symm⟩
  · rw [List.mem_toFinset, mem_keys_iff, hentry, isSome_lastStored?]
  · rw [List.toFinset_card_of_nodup (nodup_keys_filled requests), List.length_map, size]
  · exact (size_foldl_apply empty requests).trans (Nat.zero_add _)

/-- Two documents and a single class. Disk comes twice, Drum is not wanted, Tape has a label. -/
def overlappingRequests : List StoreRequest :=
  [.insertClass "Disk" [.concrete 0 "read"] "a",
    .ingest (fun name => name != "Drum") "b"
      [("Disk", [.concrete 0 "seek", .concrete 1 "stop"]), ("Drum", [.concrete 0 "turn"]),
        ("Tape", [.concrete 0 "sub_1A"])],
    .ingest (fun _ => true) "c" [("Card", []), ("Tape", [.pureVirtual 0])]]

def furtherDocument : ObservationDocument := [("Drum", []), ("Card", [.concrete 0 "play"])]

theorem lastWriterWins_filled_sample :
    (∀ r ∈ overlappingRequests, r.HasDistinctClasses) ∧
      (furtherDocument.map Prod.fst).Nodup ∧
      (filled overlappingRequests).get? "Disk" =
        some [.concrete 0 "seek", .concrete 1 "stop"] ∧
      (filled overlappingRequests).get? "Drum" = none ∧
      ((filled overlappingRequests).insertClass "Tape" [] "d").2 = some "c" ∧
      (ingest (fun name => name != "Drum") "d" furtherDocument (filled overlappingRequests)).2 =
        ⟨1, 1, 1⟩ ∧
      (ingest (fun name => name != "Drum") "d" furtherDocument (filled overlappingRequests)).2.Tally
        (fun name => name != "Drum") furtherDocument (filled overlappingRequests) ∧
      (filled overlappingRequests).size = 3 := by
  have hrequests : ∀ r ∈ overlappingRequests, r.HasDistinctClasses := by decide
  have hdistinct : (furtherDocument.map Prod.fst).Nodup := by decide
  obtain ⟨hget, hinsert, hingest, -, hsize⟩ := lastWriterWins_filled overlappingRequests hrequests
  refine ⟨hrequests, hdistinct, (hget "Disk").trans (by decide), (hget "Drum").trans (by decide),
    (hinsert "Tape" [] "d").trans (by decide), by decide, (hingest _ "d" _ hdistinct).1,
    hsize.trans (by decide)⟩

end ObservationStore

end VtableMerge
