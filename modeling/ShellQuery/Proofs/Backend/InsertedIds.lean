import Mathlib.Data.List.Sort
import ShellQuery.Backend.Reply

/-!
# Ids of inserted documents

The client in front of the backend reports the ids of new documents with their places, in an order
of its own.  As no two documents have the same place, sorting them brings back the order of the
documents, whatever the ids are and however often one of them occurs (`sortPlaced_eq_insertedIds`).
So the keys of the documents do not depend on the order of the report (`insertedKeys_of_perm`).
-/

namespace ShellQuery.Reply

variable {ids : List (Nat × Bson)} {documents : List Document}

/-! ## Sorting -/

/-- The place of the first id is not behind the place of the second. -/
def PlacedBefore (a b : Nat × Bson) : Prop :=
  a.1 ≤ b.1

instance : DecidableRel PlacedBefore :=
  fun a b => inferInstanceAs (Decidable (a.1 ≤ b.1))

instance : Std.Total PlacedBefore :=
  ⟨fun a b => Nat.le_total a.1 b.1⟩

instance : IsTrans (Nat × Bson) PlacedBefore :=
  ⟨fun _ _ _ => Nat.le_trans⟩

theorem insertPlaced_eq_orderedInsert (id : Nat × Bson) (ids : List (Nat × Bson)) :
    insertPlaced id ids = ids.orderedInsert PlacedBefore id := by
  induction ids with
  | nil => rfl
  | cons first rest ih =>
    rw [insertPlaced, List.orderedInsert_cons, ih]
    rfl

theorem sortPlaced_eq_insertionSort (ids : List (Nat × Bson)) :
    sortPlaced ids = ids.insertionSort PlacedBefore := by
  induction ids with
  | nil => rfl
  | cons first rest ih =>
    rw [sortPlaced, ih, insertPlaced_eq_orderedInsert, List.insertionSort_cons]

/-! ## Reports of ids -/

/-- The key of a document that was sent. -/
def documentKey (fields : Document) : String :=
  idKey ((Entries.find? fields "_id").getD .null)

/-- The places are those of the documents, one behind the other. -/
theorem map_fst_insertedIds (documents : List Document) :
    (insertedIds documents).map Prod.fst = List.range' 0 documents.length := by
  rw [insertedIds, List.map_map]
  exact List.zipIdx_map_snd 0 documents

theorem map_idKey_insertedIds (documents : List Document) :
    (insertedIds documents).map (fun e => idKey e.2) = documents.map documentKey := by
  have hdocuments : documents.map documentKey =
      (documents.zipIdx.map Prod.fst).map documentKey := by
    rw [List.zipIdx_map_fst]
  rw [hdocuments, insertedIds, List.map_map, List.map_map]
  rfl

/-- Sorting a report brings its ids into the order of the documents. -/
theorem sortPlaced_eq_insertedIds (h : ids.Perm (insertedIds documents)) :
    sortPlaced ids = insertedIds documents := by
  have hplaces : (insertedIds documents).Pairwise fun a b => a.1 < b.1 := by
    rw [← List.pairwise_map, map_fst_insertedIds]
    exact List.pairwise_lt_range'
  have hsorted : (sortPlaced ids).Pairwise PlacedBefore := by
    rw [sortPlaced_eq_insertionSort]
    exact List.pairwise_insertionSort PlacedBefore ids
  have hperm : (sortPlaced ids).Perm (insertedIds documents) := by
    rw [sortPlaced_eq_insertionSort]
    exact (List.perm_insertionSort PlacedBefore ids).trans h
  refine hperm.eq_of_pairwise ?_ hsorted (hplaces.imp Nat.le_of_lt)
  -- an id is known by its place
  intro a b ha hb hab hba
  have hnodup : ((insertedIds documents).map Prod.fst).Nodup := by
    rw [map_fst_insertedIds]
    exact List.nodup_range'
  exact List.inj_on_of_nodup_map hnodup (hperm.subset ha) hb (Nat.le_antisymm hab hba)

/-- The keys are those of the documents in their order, in whatever order their ids come. -/
theorem insertedKeys_of_perm (h : ids.Perm (insertedIds documents)) :
    insertedKeys ids = documents.map documentKey := by
  rw [insertedKeys, sortPlaced_eq_insertedIds h, map_idKey_insertedIds]

end ShellQuery.Reply
