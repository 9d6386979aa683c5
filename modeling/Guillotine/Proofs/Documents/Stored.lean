import Guillotine.Cache.FolderStore
import Guillotine.Proofs.Cache.ScoredSet
import Guillotine.Proofs.Calendar.Timestamp
import Guillotine.Proofs.Documents.Entry

/-! The documents of a folder are read back from their texts: texts with the point in time when
their time is over, and sets with scores, whose entries come back in another order. -/
namespace Guillotine

open Json (fields?_record proper_record)

namespace StoredValue

theorem proper_toJson (s : StoredValue) : (toJson s).Proper := by
  apply proper_record
  simp only [List.forall_mem_cons, List.not_mem_nil, false_imp_iff, implies_true, and_true]
  exact ⟨Document.proper_toJson s.value, .string (some _)⟩

/-- A stored text is read back if its point in time is one. -/
theorem read?_write {s : StoredValue} (h : s.expiry.inRange = true) :
    read? (write s) = some s := by
  have htime : (ofJson? (Json.text s.expiry.text) : Option Timestamp) = some s.expiry :=
    (Timestamp.ofJson?_text _).trans (Timestamp.ofText?_text h)
  have hread : (ofJson? (toJson s) : Option StoredValue) = some s := by
    show ((Json.record [_, ("expires_at", Json.text s.expiry.text)]).fields? _).bind _ = _
    generalize Json.text s.expiry.text = time at htime ⊢
    simp [fields?_record, Fields.required, Document.ofJson?_toJson, htime]
  unfold read? write
  rw [Json.ofString?_compact (proper_toJson s), Option.bind_eq_bind, Option.bind_some, hread]

end StoredValue

namespace ScoredSet

variable {s : ScoredSet}

theorem proper_toJson (s : ScoredSet) : (toJson s).Proper := by
  apply proper_record
  rw [List.forall_mem_map]
  exact fun e _ => Document.proper_toJson e.2

/-- The entries of a set in the order in which they are written. -/
def inOrder (s : ScoredSet) : List (String × Float) :=
  s.entries.mergeSort fun a b => (compare a.1 b.1).isLE

theorem inOrder_perm (s : ScoredSet) : s.inOrder.Perm s.entries := List.mergeSort_perm _ _

/-- A set is read back if its scores are finite. -/
theorem read?_write_eq (s : ScoredSet) : (read? (write s) : Option ScoredSet) =
    if s.inOrder.all fun e => isFinite e.2 then some (Table.ofList s.inOrder) else none := by
  have hentries : (s.inOrder.map fun e => ((some e.1 : Literal), toJson e.2)).mapM (fun e => do
      let score : Float ← ofJson? e.2
      return (← e.1, score)) =
        if s.inOrder.all fun e => isFinite e.2 then some s.inOrder else none := by
    refine mapM_map_eq_ite (fun e => ?_) _
    dsimp only
    rw [Document.ofJson?_toJson]
    cases isFinite e.2 <;> rfl
  unfold read? write
  rw [Json.ofString?_compact (proper_toJson s), Option.bind_eq_bind, Option.bind_some]
  show Option.bind (List.mapM (m := Option) _ ((s.inOrder.map _).map _)) _ = _
  rw [List.map_map]
  refine (congrArg (Option.bind · _) hentries).trans ?_
  split <;> rfl

/-- A set with finite scores is read back with the same entries. -/
theorem read?_write_of_finite (hnodup : (s.entries.map Prod.fst).Nodup)
    (hfinite : ∀ e ∈ s.entries, isFinite e.2 = true) :
    ∃ t : ScoredSet, read? (write s) = some t ∧ s.entries.Perm t.entries := by
  have hall : (s.inOrder.all fun e => isFinite e.2) = true :=
    List.all_eq_true.2 fun e he => hfinite e (s.inOrder_perm.subset he)
  have hnodup : (s.inOrder.map Prod.fst).Nodup :=
    (s.inOrder_perm.map Prod.fst).nodup_iff.2 hnodup
  refine ⟨Table.ofList s.inOrder, ?_, s.inOrder_perm.symm.trans (Table.perm_ofList hnodup).symm⟩
  rw [read?_write_eq, if_pos hall]

/-- A set with a score that is not finite is not read back. -/
theorem read?_write_of_not_finite {e : String × Float} (he : e ∈ s.entries)
    (hnot : isFinite e.2 = false) : (read? (write s) : Option ScoredSet) = none := by
  rw [read?_write_eq, if_neg]
  intro hall
  have hfinite := List.all_eq_true.1 hall e (s.inOrder_perm.mem_iff.2 he)
  exact Bool.false_ne_true (hnot.symm.trans hfinite)

/-- A set is read back with the same entries. -/
theorem read?_write (h : s.Orderly) :
    ∃ t : ScoredSet, read? (write s) = some t ∧ s.entries.Perm t.entries :=
  read?_write_of_finite h.nodup fun e he => (h.scores e he).finite

end ScoredSet

end Guillotine
