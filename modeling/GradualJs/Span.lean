/-! Positions in a source text. A span whose first line is 0 belongs to no text:
covering leaves it out and it contains nothing. -/
namespace GradualJs

structure Span where
  line : Nat := 0
  column : Nat := 0
  endLine : Nat := 0
  endColumn : Nat := 0
  deriving DecidableEq, Inhabited

namespace Span

def point (line column : Nat) : Span := ⟨line,column,line,column⟩
def isSynthetic (s : Span) : Bool := s.line == 0

def notAfter (line column otherLine otherColumn : Nat) : Bool :=
  line < otherLine || (line == otherLine && column ≤ otherColumn)

def cover (a b : Span) : Span :=
  if a.isSynthetic then b
  else if b.isSynthetic then a
  else
    let start := if notAfter a.line a.column b.line b.column then (a.line,a.column) else (b.line,b.column)
    let stop := if notAfter b.endLine b.endColumn a.endLine a.endColumn
      then (a.endLine,a.endColumn) else (b.endLine,b.endColumn)
    ⟨start.1,start.2,stop.1,stop.2⟩

def contains (outer inner : Span) : Bool :=
  !outer.isSynthetic && !inner.isSynthetic && notAfter outer.line outer.column inner.line inner.column &&
    notAfter inner.endLine inner.endColumn outer.endLine outer.endColumn

def order (a b : Span) : Ordering :=
  ((compare a.line b.line).then (compare a.column b.column)).then
    ((compare a.endLine b.endLine).then (compare a.endColumn b.endColumn))

end Span
end GradualJs
