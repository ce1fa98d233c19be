import Offload.Filter.Sink
import Offload.Sql.Pattern

namespace Offload

/-- What a binary operator of a filter becomes in SQL. -/
inductive FilterOperator
  | and
  | or
  | compare (token : String)
  deriving DecidableEq

namespace FilterOperator

/-- An operator without a counterpart of another name is its own token. -/
def ofText : String → FilterOperator
  | "==" => .compare "="
  | "!=" => .compare "<>"
  | "=~" => .compare "LIKE"
  | "!~" => .compare "NOT LIKE"
  | "AND" => .and
  | "OR" => .or
  | token => .compare token

def isPattern : FilterOperator → Bool
  | .compare token => token == "LIKE" || token == "NOT LIKE"
  | _ => false

end FilterOperator

namespace Expr

mutual

/-- The operand that a field, a literal or an array of operands stands for. -/
def operand : Expr → Except Fault Operand
  | .field name => .ok (.column name)
  | .string value => .ok (.string value)
  | .moment value => .ok (.timestamp value)
  | .null => .ok .null
  | .boolean value => .ok (.boolean value)
  | .number value => .ok (.number value)
  | .array items =>
    match operands items with
    | .ok values => .ok (.array values)
    | .error fault => .error fault
  | .binary op l r => .error (.notOperand (Expr.binary op l r).nodeName)
  | .unary op e => .error (.notOperand (Expr.unary op e).nodeName)

/-- The operands of the items of an array; the first fault counts. -/
def operands : List Expr → Except Fault (List Operand)
  | [] => .ok []
  | item :: rest =>
    match item.operand with
    | .error fault => .error fault
    | .ok value =>
      match operands rest with
      | .error fault => .error fault
      | .ok values => .ok (value :: values)

end

/-- The right operand of a comparison. A string literal that a value is matched against is a glob. -/
def rightOperand (op : FilterOperator) : Expr → Except Fault Operand
  | .string value =>
    .ok (.string (if op.isPattern then likeOfGlob value else value))
  | e => e.operand

variable {σ : Type} [Sink σ]

def compileCompare (op : FilterOperator) (token : String) (left right : Expr) : Build σ :=
  match left.operand with
  | .error fault => Build.fail fault
  | .ok leftValue =>
    match right.rightOperand op with
    | .error fault => Build.fail fault
    | .ok rightValue => fun state => (Sink.compare leftValue token rightValue state, none)

/-- Compiles a filter. A conjunction or disjunction is a group of its left side and a group of its
right side, so that the text keeps the shape of the tree. -/
def compile : Expr → Build σ
  | .binary op left right =>
    match FilterOperator.ofText op with
    | .and => Sink.group .plain (Build.andThen (compile left) (Sink.group .and (compile right)))
    | .or => Sink.group .plain (Build.andThen (compile left) (Sink.group .or (compile right)))
    | .compare token => compileCompare (.compare token) token left right
  | .unary op argument =>
    if op = "NOT" then Sink.group .not (compile argument) else Build.fail (.unsupported op)
  | e => Build.fail (.notPredicate e.nodeName)

end Expr

end Offload
