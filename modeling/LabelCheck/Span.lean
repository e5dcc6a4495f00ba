/-!
# Spans

A stretch of procedure text, by the positions of its two ends.
-/

namespace LabelCheck

/-- The text from byte `start` up to byte `stop`. Nothing is promised about the order of the two:
a document may say anything. -/
structure Span where
  start : Nat
  stop : Nat
  deriving DecidableEq, Repr

namespace Span

/-- The ends are in order. -/
def Ordered (s : Span) : Prop := s.start ≤ s.stop

instance (s : Span) : Decidable s.Ordered := inferInstanceAs (Decidable (s.start ≤ s.stop))

/-- The span `inner` lies inside `outer`. -/
def Contains (outer inner : Span) : Prop := outer.start ≤ inner.start ∧ inner.stop ≤ outer.stop

instance (outer inner : Span) : Decidable (outer.Contains inner) :=
  inferInstanceAs (Decidable (_ ∧ _))

end Span

end LabelCheck
