import KnowledgeBrain.Workflow.Attempts

/-!
# The record of obligations

Whatever transactions happen and in whatever order, the outbox and the
receipts of a document are a record that is only added to.
-/

namespace KnowledgeBrain
namespace Workflow

open Foundation

namespace DocumentRecord

/-- Jobs and receipts are only added, and the attempt does not fall. -/
def Ages (r r' : DocumentRecord) : Prop :=
  Grows r r' ∧ r.document.attempt ≤ r'.document.attempt

/-- Every job is stored under its own key, and nothing belongs to a later attempt. -/
def Filed (r : DocumentRecord) : Prop :=
  r.RowsWellKeyed ∧ r.Bounded

theorem Filed.apply {r : DocumentRecord} (h : r.Filed) (now : Time) (e : DocumentOp) :
    (e.apply now r).record.Filed :=
  ⟨(grows_apply now e r).wellKeyed h.1, bounded_apply now e h.2⟩

end DocumentRecord

/-- A document that is there stays, and its record ages. -/
theorem ages_perform (events : List Operation.Timed) {db : Database} {id : Uuid}
    {r : DocumentRecord} (hfind : db.find id = some r) :
    exists r', (perform Operation.step db events).find id = some r' ∧ r.Ages r' := by
  induction events generalizing db r with
  | nil => exact ⟨r, hfind, DocumentRecord.Grows.refl r, Nat.le_refl _⟩
  | cons t rest ih =>
      rcases Operation.find_step_of_some (t := t) hfind with hsame | ⟨e, _, hnew⟩
      · exact ih hsame
      · obtain ⟨r', hfind', hgrows, hattempt⟩ := ih hnew
        exact ⟨r', hfind', (DocumentRecord.grows_apply t.now e r).trans hgrows,
          Nat.le_trans (DocumentRecord.advances_apply t.now e r).attempt hattempt⟩

theorem filed_perform (events : List Operation.Timed) {db : Database}
    (hdb : forall id r, db.find id = some r -> r.Filed) :
    forall id r, (perform Operation.step db events).find id = some r -> r.Filed := by
  refine foldl_invariant (P := fun db : Database => forall id r, db.find id = some r -> r.Filed)
    ?_ hdb
  intro db t hdb
  apply Operation.forall_find_step (P := fun _ r => r.Filed) _ _ hdb
  · intro id r hcreated
    exact ⟨DocumentRecord.rowsWellKeyed_created hcreated, DocumentRecord.bounded_created hcreated⟩
  · intro id e r _ _ hr
    exact hr.apply t.now e

/-- The documents of one database are in the other, and what it holds is filed. -/
structure Database.Ages (db db' : Database) : Prop where
  kept : forall id r, db.find id = some r -> exists r', db'.find id = some r' ∧ r.Ages r'
  filed : forall id r, db'.find id = some r -> r.Filed

/-- No document, job or receipt is ever lost, after any transactions in any order. -/
theorem obligations_are_recorded (events more : List Operation.Timed) :
    (perform Operation.step Database.empty events).Ages
      (perform Operation.step Database.empty (events ++ more)) where
  kept := by
    intro id r hfind
    obtain ⟨r', hfind', hages⟩ := ages_perform more hfind
    unfold perform at hfind' ⊢
    rw [List.foldl_append]
    exact ⟨r', hfind', hages⟩
  filed := by
    apply filed_perform
    intro id r hfind
    rw [find_empty] at hfind
    cases hfind

end Workflow
end KnowledgeBrain
