import Guillotine.Proofs.Alike
import Guillotine.Proofs.Plane.Edges

/-! Moving the plane. Where a piece fits and which cut runs through depend on extents only, so that
the parts of a split move with the free rectangle, as long as its far edges are lengths. -/
namespace Guillotine

open List (Forall₂)

variable {dx dy : Length} {rs qs : List Rect}

/-- Whether `r` is `q` moved by `dx` to the right and by `dy` down, in exact arithmetic. -/
structure Rect.MovedFrom (dx dy : Length) (r q : Rect) : Prop where
  x : r.x.toNat = dx.toNat + q.x.toNat
  y : r.y.toNat = dy.toNat + q.y.toNat
  width : r.width = q.width
  height : r.height = q.height

namespace Rect.MovedFrom

variable {r q r' q' : Rect}

theorem fits (h : r.MovedFrom dx dy q) (w t : Length) : r.fits w t = q.fits w t := by
  simp only [Rect.fits, h.width, h.height]

theorem area (h : r.MovedFrom dx dy q) : r.area = q.area := by
  simp only [Rect.area, h.width, h.height]

theorem grown (h : r.MovedFrom dx dy q) (dw dh : Length) :
    (r.grown dw dh).MovedFrom dx dy (q.grown dw dh) :=
  ⟨h.x, h.y, congrArg (Length.addCapped · dw) h.width, congrArg (Length.addCapped · dh) h.height⟩

/-- Edges that are there to be looked at are there after moving back. -/
theorem shows (h : r.MovedFrom dx dy q) (h' : r'.MovedFrom dx dy q') (hr : r.Shows r') :
    q.Shows q' := by
  have hx := h.x
  have hy := h.y
  have hx' := h'.x
  simp only [Rect.Shows, Rect.SpansMeet, h.width, h.height, h'.width] at hr ⊢
  omega

end Rect.MovedFrom

theorem largestArea_moved (h : Forall₂ (Rect.MovedFrom dx dy) rs qs) :
    largestArea rs = largestArea qs := by
  rw [largestArea, largestArea]
  generalize (0 : Area) = a
  induction h generalizing a with
  | nil => rfl
  | cons hrq _ ih => rw [List.foldl_cons, List.foldl_cons, hrq.area, ih]

namespace Corner

/-- Whether a corner is another one with its free rectangle moved. -/
structure MovedFrom (dx dy : Length) (c d : Corner) : Prop where
  free : c.free.MovedFrom dx dy d.free
  width : c.width = d.width
  height : c.height = d.height
  kerf : c.kerf = d.kerf

namespace MovedFrom

variable {c d : Corner}

/-- What is left along an axis, and what is taken of it, does not move. -/
theorem extents (h : c.MovedFrom dx dy d) : c.leftWidth = d.leftWidth ∧
    c.leftHeight = d.leftHeight ∧ c.takenWidth = d.takenWidth ∧
    c.takenHeight = d.takenHeight := by
  have hwidth : c.leftWidth = d.leftWidth := by
    rw [leftWidth, leftWidth, h.free.width, h.width]
  have hheight : c.leftHeight = d.leftHeight := by
    rw [leftHeight, leftHeight, h.free.height, h.height]
  refine ⟨hwidth, hheight, ?_, ?_⟩
  · rw [takenWidth, takenWidth, hwidth, h.width, h.kerf]
  · rw [takenHeight, takenHeight, hheight, h.height, h.kerf]

/-- A sum that stays in front of the far edge moves with its start. -/
theorem toNat_addCapped_moved {x x' far taken : Length} (hx : x.toNat = dx.toNat + x'.toNat)
    (hfar : x.toNat + far.toNat < UInt32.size) (h : 0 < Length.subFloored far taken) :
    (Length.addCapped x taken).toNat = dx.toNat + (Length.addCapped x' taken).toNat := by
  rw [UInt32.lt_iff_toNat_lt, Length.toNat_subFloored, UInt32.toNat_zero] at h
  rw [Length.toNat_addCapped, Length.toNat_addCapped]
  simp only [UInt32.size] at hfar
  omega

theorem rightPart (h : c.MovedFrom dx dy d) (hc : c.free.HasEdges) (height : Length) :
    Option.Rel (Rect.MovedFrom dx dy) (c.rightPart height) (d.rightPart height) := by
  obtain ⟨hleft, -, htaken, -⟩ := h.extents
  simp only [Corner.rightPart, hleft, htaken, h.free.width]
  split
  next hparts =>
    rw [← h.free.width] at hparts
    exact .some ⟨toNat_addCapped_moved h.free.x hc.1 hparts.2.1, h.free.y, rfl, rfl⟩
  next => exact .none

theorem lowerPart (h : c.MovedFrom dx dy d) (hc : c.free.HasEdges) (width : Length) :
    Option.Rel (Rect.MovedFrom dx dy) (c.lowerPart width) (d.lowerPart width) := by
  obtain ⟨-, hleft, -, htaken⟩ := h.extents
  simp only [Corner.lowerPart, hleft, htaken, h.free.height]
  split
  next hparts =>
    rw [← h.free.height] at hparts
    exact .some ⟨h.free.x, toNat_addCapped_moved h.free.y hc.2 hparts.2.1, rfl, rfl⟩
  next => exact .none

theorem toList_moved {o o' : Option Rect} (h : Option.Rel (Rect.MovedFrom dx dy) o o') :
    Forall₂ (Rect.MovedFrom dx dy) o.toList o'.toList := by
  cases h with
  | none => exact .nil
  | some h => exact .cons h .nil

theorem lowerSpans (h : c.MovedFrom dx dy d) (hc : c.free.HasEdges) :
    Forall₂ (Rect.MovedFrom dx dy) c.lowerSpans d.lowerSpans := by
  rw [Corner.lowerSpans, Corner.lowerSpans, h.height, h.free.width]
  exact List.rel_append (toList_moved (h.rightPart hc _)) (toList_moved (h.lowerPart hc _))

theorem rightSpans (h : c.MovedFrom dx dy d) (hc : c.free.HasEdges) :
    Forall₂ (Rect.MovedFrom dx dy) c.rightSpans d.rightSpans := by
  rw [Corner.rightSpans, Corner.rightSpans, h.width, h.free.height]
  exact List.rel_append (toList_moved (h.lowerPart hc _)) (toList_moved (h.rightPart hc _))

/-- Each rule lets the same cut run through. -/
theorem rule_lowerSpans (h : c.MovedFrom dx dy d) (hc : c.free.HasEdges) (rule : SplitRule) :
    rule.lowerSpans c = rule.lowerSpans d := by
  obtain ⟨hwidth, hheight, -, -⟩ := h.extents
  cases rule <;> simp only [SplitRule.lowerSpans, hwidth, hheight, h.free.width, h.free.height,
    largestArea_moved (h.lowerSpans hc), largestArea_moved (h.rightSpans hc)]

/-- The parts of a split move with the free rectangle, and so do those of them that are kept. -/
theorem splitKept (h : c.MovedFrom dx dy d) (hc : c.free.HasEdges) (rule : SplitRule)
    (least : Length) :
    Forall₂ (Rect.MovedFrom dx dy) (rule.splitKept c least) (rule.splitKept d least) := by
  have hsplit : Forall₂ (Rect.MovedFrom dx dy) (rule.split c) (rule.split d) := by
    rw [SplitRule.split, SplitRule.split, h.rule_lowerSpans hc]
    split
    · exact h.lowerSpans hc
    · exact h.rightSpans hc
  exact forall₂_filter (fun r q hrq => by rw [hrq.width, hrq.height]) hsplit

end MovedFrom

end Corner

end Guillotine
