import RuleCheck.Proofs.Category.Optional

/-! # Layers put around an annotation

An annotation can get another name, a marker, or the missing value as a further member, again and again.  Of all
this the search for a category keeps in mind only whether integers are unsigned; every other layer is taken off
again, a layer of the missing value by a step of its own.
-/

namespace RuleCheck

namespace Annotation

inductive Layer where
  | named (name : String)
  | optional
  | marked (marker : Marker)
  deriving DecidableEq, Repr

namespace Layer

def around : Layer → Annotation → Annotation
  | named name, a => .newType name a
  | optional, a => a.optional
  | marked marker, a => a.annotate [marker]

def isUnsigned : Layer → Bool
  | marked marker => marker == .unsigned
  | _ => false

end Layer

/-- The annotation with layers around it, the outermost one first. -/
def wrap (layers : List Layer) (a : Annotation) : Annotation :=
  layers.foldr Layer.around a

/-- The annotation, with integers unsigned if that is said. -/
def counted (unsigned : Bool) (a : Annotation) : Annotation :=
  if unsigned then a.annotate [.unsigned] else a

theorem isFlat_annotate (a : Annotation) (markers : List Marker) : (a.annotate markers).IsFlat := by
  cases a <;> trivial

theorem IsFlat.optional {a : Annotation} (h : a.IsFlat) : a.optional.IsFlat := by
  apply isFlat_unite (by simp)
  rw [List.forall_mem_cons, List.forall_mem_singleton]
  exact ⟨h, trivial⟩

theorem IsFlat.around {a : Annotation} (h : a.IsFlat) (layer : Layer) : (layer.around a).IsFlat := by
  cases layer with
  | named name => trivial
  | optional => exact h.optional
  | marked marker => exact isFlat_annotate a [marker]

theorem IsFlat.wrap {a : Annotation} (h : a.IsFlat) (layers : List Layer) : (a.wrap layers).IsFlat := by
  induction layers with
  | nil => exact h
  | cons layer layers ih => exact ih.around layer

theorem resolveAs_annotate (value : Value) (unsigned : Bool) (a : Annotation) (markers : List Marker) :
    value.resolveAs unsigned (a.annotate markers) =
      value.resolveAs (unsigned || markers.contains .unsigned) a := by
  cases a with
  | annotated inner earlier =>
      simp only [annotate, Value.resolveAs, List.contains_eq_mem, List.mem_append, Bool.decide_or,
        Bool.or_assoc, Bool.or_comm]
  | _ => rfl

theorem resolve_counted (value : Value) (unsigned : Bool) (a : Annotation) :
    value.resolve (a.counted unsigned) = value.resolveAs unsigned a := by
  cases unsigned with
  | false => rfl
  | true => exact resolveAs_annotate value false a [.unsigned]

/-- A layer is looked through, or it is one of the missing value, below which the annotation is what it was. -/
theorem resolveAs_around {a : Annotation} (h : a.IsFlat) (value : Value) (unsigned : Bool) (layer : Layer) :
    value.resolveAs unsigned (layer.around a) = value.resolveAs (unsigned || layer.isUnsigned) a ∨
      value.resolveAs unsigned (layer.around a) = .ofElement .optional (a.counted unsigned) ∧
        layer = .optional := by
  cases layer with
  | named name => exact .inl (by simp [Layer.around, Layer.isUnsigned, Value.resolveAs])
  | marked marker =>
      refine .inl ?_
      rw [Layer.around, resolveAs_annotate]
      simp [Layer.isUnsigned, eq_comm, Bool.beq_eq_decide_eq]
  | optional =>
      rcases Value.resolveAs_optional_eq h value unsigned with hsame | hlayer
      · exact .inl (by simp [Layer.around, Layer.isUnsigned, hsame])
      · exact .inr ⟨hlayer, rfl⟩

end Annotation

end RuleCheck
