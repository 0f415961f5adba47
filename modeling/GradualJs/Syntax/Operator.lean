/-! The operators of expressions. -/
namespace GradualJs

inductive UnaryOperator where
  | not
  | negative
  | positive
  | bitNot
  | typeof
  | void
  | delete
  deriving DecidableEq

inductive UpdateOperator where
  | increment
  | decrement
  deriving DecidableEq

inductive LogicalOperator where
  | and
  | or
  deriving DecidableEq

inductive BinaryOperator where
  | add
  | subtract
  | multiply
  | divide
  | modulo
  | bitAnd
  | bitOr
  | bitXor
  | shiftLeft
  | shiftRight
  | unsignedShiftRight
  | less
  | lessEqual
  | greater
  | greaterEqual
  | equal
  | notEqual
  | strictEqual
  | strictNotEqual
  | instanceOf
  | isIn
  deriving DecidableEq

namespace BinaryOperator

/-- Operators that want numbers and give one. Addition is not among them: it also
joins strings. -/
def isArithmetic : BinaryOperator → Bool
  | .subtract | .multiply | .divide | .modulo | .bitAnd | .bitOr | .bitXor
  | .shiftLeft | .shiftRight | .unsignedShiftRight => true
  | _ => false

def isRelational : BinaryOperator → Bool
  | .less | .lessEqual | .greater | .greaterEqual => true
  | _ => false

def isEquality : BinaryOperator → Bool
  | .equal | .notEqual | .strictEqual | .strictNotEqual => true
  | _ => false

def symbol : BinaryOperator → String
  | .add => "+"
  | .subtract => "-"
  | .multiply => "*"
  | .divide => "/"
  | .modulo => "%"
  | .bitAnd => "&"
  | .bitOr => "|"
  | .bitXor => "^"
  | .shiftLeft => "<<"
  | .shiftRight => ">>"
  | .unsignedShiftRight => ">>>"
  | .less => "<"
  | .lessEqual => "<="
  | .greater => ">"
  | .greaterEqual => ">="
  | .equal => "=="
  | .notEqual => "!="
  | .strictEqual => "==="
  | .strictNotEqual => "!=="
  | .instanceOf => "instanceof"
  | .isIn => "in"

end BinaryOperator
end GradualJs
