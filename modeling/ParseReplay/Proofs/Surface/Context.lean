import ParseReplay.Surface.Canvas

/-!
# Painting on a canvas context

A canvas context keeps its styles, its line width, its font, its alpha and its path from one call to
the next, so also from one picture to the next. A call that paints reads some of them, and the same
calls may paint differently on contexts that have been left differently. A mark is what such a call
paints, with everything that it reads. A setting takes whatever value it is given.

What a list of operations paints, and in which state it leaves a context, is said by a condition
before and one after. Such statements compose like the lists.

## Main definitions

* `Canvas.Context`, `Canvas.Context.call`: a context, and what a call makes of it
* `Canvas.Mark`, `Canvas.Context.paint?`: what a call paints, with all that it reads
* `Canvas.Context.marks`, `Canvas.Context.after`: what operations paint, and the context they leave
* `Canvas.Paints`: operations that paint the same marks on every context with a condition
* `Canvas.Context.Solid`: nothing is painted faded

## Main results

* `Canvas.Paints.append`, `Canvas.Paints.flatMap`: operations after each other
-/

namespace ParseReplay

namespace Canvas

/-- What a canvas context keeps from one call to the next, as far as there are operations for it. -/
structure Context (α : Type) where
  fillStyle : String
  strokeStyle : String
  lineWidth : α
  font : String
  alpha : α
  /-- The current path: the calls that have made it since it was begun. -/
  path : List (Call α)
deriving DecidableEq

/-- What a call paints, with all that it reads of the context. -/
inductive Mark (α : Type) where
  | rect (x y width height : α) (fillStyle : String) (alpha : α)
  | stroke (path : List (Call α)) (strokeStyle : String) (lineWidth alpha : α)
  | fill (path : List (Call α)) (fillStyle : String) (alpha : α)
  | text (text : String) (x y : α) (font fillStyle : String) (alpha : α)
deriving DecidableEq

variable {α : Type}

namespace Mark

/-- The alpha with which the mark is painted. -/
def alpha : Mark α → α
  | rect _ _ _ _ _ alpha => alpha
  | stroke _ _ _ alpha => alpha
  | fill _ _ alpha => alpha
  | text _ _ _ _ _ alpha => alpha

/-- The mark is a text. -/
def isText : Mark α → Bool
  | text .. => true
  | _ => false

end Mark

namespace Context

/-- The context after a call. -/
def call (x : Context α) (c : Call α) : Context α :=
  match c with
  | .beginPath => { x with path := [] }
  | .moveTo .. | .lineTo .. | .arc .. | .closePath => { x with path := x.path ++ [c] }
  | .stroke | .fill | .fillRect .. | .fillText .. | .measureText .. => x
  | .setFillStyle style => { x with fillStyle := style }
  | .setStrokeStyle style => { x with strokeStyle := style }
  | .setLineWidth width => { x with lineWidth := width }
  | .setFont font => { x with font := font }
  | .setGlobalAlpha alpha => { x with alpha := alpha }

/-- What a call paints, if it does. -/
def paint? (x : Context α) : Call α → Option (Mark α)
  | .stroke => some (.stroke x.path x.strokeStyle x.lineWidth x.alpha)
  | .fill => some (.fill x.path x.fillStyle x.alpha)
  | .fillRect left top width height => some (.rect left top width height x.fillStyle x.alpha)
  | .fillText text left base => some (.text text left base x.font x.fillStyle x.alpha)
  | _ => none

/-- The context after the operations. -/
def after (x : Context α) (ops : List (DrawOp α)) : Context α :=
  (ops.flatMap DrawOp.calls).foldl call x

/-- The marks of several calls. -/
def marksOfCalls : Context α → List (Call α) → List (Mark α)
  | _, [] => []
  | x, c :: calls => (x.paint? c).toList ++ (x.call c).marksOfCalls calls

/-- What the operations paint, in order. -/
def marks (x : Context α) (ops : List (DrawOp α)) : List (Mark α) :=
  x.marksOfCalls (ops.flatMap DrawOp.calls)

theorem after_append (x : Context α) (ops ops' : List (DrawOp α)) :
    x.after (ops ++ ops') = (x.after ops).after ops' := by
  rw [after, List.flatMap_append, List.foldl_append]
  rfl

theorem marksOfCalls_append (x : Context α) (calls calls' : List (Call α)) :
    x.marksOfCalls (calls ++ calls') =
      x.marksOfCalls calls ++ (calls.foldl call x).marksOfCalls calls' := by
  induction calls generalizing x with
  | nil => rfl
  | cons c calls ih =>
    rw [List.cons_append, marksOfCalls, marksOfCalls, ih, List.append_assoc, List.foldl_cons]

theorem marks_append (x : Context α) (ops ops' : List (DrawOp α)) :
    x.marks (ops ++ ops') = x.marks ops ++ (x.after ops).marks ops' := by
  rw [marks, List.flatMap_append, marksOfCalls_append]
  rfl

end Context

/-! ## Operations that paint the same -/

variable {P P' Q Q' R : Context α → Prop} {ops ops' : List (DrawOp α)}
  {marks marks' : List (Mark α)}

/-- On every context for which `P` holds, the operations paint the same marks, and they leave a
context for which `Q` holds. -/
def Paints (P Q : Context α → Prop) (ops : List (DrawOp α)) (marks : List (Mark α)) : Prop :=
  ∀ x, P x → x.marks ops = marks ∧ Q (x.after ops)

namespace Paints

theorem nil : Paints P P [] [] := fun _ hx => ⟨rfl, hx⟩

/-- **One after the other.** -/
theorem append (h : Paints P Q ops marks) (h' : Paints Q R ops' marks') :
    Paints P R (ops ++ ops') (marks ++ marks') := by
  intro x hx
  obtain ⟨hmarks, hafter⟩ := h x hx
  obtain ⟨hmarks', hafter'⟩ := h' (x.after ops) hafter
  rw [Context.marks_append, Context.after_append, hmarks, hmarks']
  exact ⟨rfl, hafter'⟩

/-- **A picture of every member of a list**, each of which keeps the condition. -/
theorem flatMap {β : Type} {l : List β} {picture : β → List (DrawOp α)} {paint : β → List (Mark α)}
    (h : ∀ b ∈ l, Paints P P (picture b) (paint b)) :
    Paints P P (l.flatMap picture) (l.flatMap paint) := by
  induction l with
  | nil => exact nil
  | cons b l ih =>
    rw [List.flatMap_cons, List.flatMap_cons]
    exact (h b List.mem_cons_self).append (ih fun b' hb' => h b' (List.mem_cons_of_mem b hb'))

theorem mono (h : Paints P Q ops marks) (hP : ∀ x, P' x → P x) (hQ : ∀ x, Q x → Q' x) :
    Paints P' Q' ops marks :=
  fun x hx => ⟨(h x (hP x hx)).1, hQ _ (h x (hP x hx)).2⟩

end Paints

end Canvas

/-! ## Solid contexts -/

open Canvas (Context Mark Paints)

variable {α : Type} [Scalar α]

/-- Nothing is painted faded. -/
def Canvas.Context.Solid (x : Context α) : Prop := x.alpha = 1.0

/-- What a background paints. -/
def backgroundMark (style : String) (size : Vec α) : Mark α :=
  .rect (Vec.zero : Vec α).x (Vec.zero : Vec α).y size.x size.y style 1.0

theorem paints_background (style : String) (size : Vec α) :
    Paints Context.Solid Context.Solid [.fillStyle style, .fillRect Vec.zero size]
      [backgroundMark style size] :=
  fun _ hx => ⟨congrArg (fun a => [Mark.rect _ _ size.x size.y style a]) hx, hx⟩

end ParseReplay
