import Verdict.Rule.Kind

/-!
# Faults

Why a rule cannot be read, compiled or evaluated. A fault keeps its cause; the wording stands in
one place.
-/

namespace Verdict

/-- What is wrong with the shape of a path, an operand, a step or a rule. -/
inductive Reason where
  -- paths
  | unexpectedChar (c : Char)
  | nameMissing
  | quoteOpen
  | indexInvalid (text : String)
  | bracketOpen
  -- operators
  | logicalComparison
  | comparisonCombination
  -- steps
  | customCode
  -- operands
  | pathMissing
  | dayMissing
  | variableMissing
  | rangeMissing
  -- shapes of rules
  | compoundOperands
  | compoundLeft
  | iterateRight
  | presenceRight
  | noRight
  | childrenOfLeaf
  | comparisonKind
  -- completeness of rules
  | compoundEmpty
  | compoundOperator
  | iterateEmpty
  | iterateOperator
  | logicalLeaf
  | temporalOperator
  | leftMissing
  | rightMissing
  deriving DecidableEq

namespace Reason

def message : Reason → String
  | unexpectedChar c => "意外的字符 '" ++ String.singleton c ++ "'"
  | nameMissing => "缺少字段名"
  | quoteOpen => "引号未闭合"
  | indexInvalid text => "无效的下标 '" ++ text ++ "'"
  | bracketOpen => "缺少 ']'"
  | logicalComparison => "逻辑操作符不能用于比较两个值"
  | comparisonCombination => "比较操作符不能用于组合子条件"
  | customCode => "不支持执行自定义代码的变换"
  | pathMissing => "PATH 来源缺少 path"
  | dayMissing => "DATE 来源需要 today、yesterday 或 tomorrow"
  | variableMissing => "ENV 来源缺少变量名"
  | rangeMissing => "RANGE 来源缺少 range"
  | compoundOperands => "复合条件不能有 left 或 right"
  | compoundLeft => "复合条件不能有 left"
  | iterateRight => "迭代条件不能有 right"
  | presenceRight => "存在性条件不能有 right"
  | noRight => "该类型的条件不能有 right"
  | childrenOfLeaf => "只有复合或迭代条件可以包含子条件"
  | comparisonKind => "compare 只支持 PRIMITIVE、DATE、TIME"
  | compoundEmpty => "复合条件没有子条件"
  | compoundOperator => "复合条件需要逻辑操作符"
  | iterateEmpty => "迭代条件没有子条件"
  | iterateOperator => "迭代条件需要逻辑操作符"
  | logicalLeaf => "逻辑操作符只能用于复合或迭代条件"
  | temporalOperator => "时间条件只支持 EQUAL、NOT_EQUAL、LT、GT 和区间操作符"
  | leftMissing => "缺少 left"
  | rightMissing => "缺少 right"

end Reason

inductive StepReason where
  | notObject (text : String)
  | kindMissing (text : String)
  | patternMissing
  deriving DecidableEq

def StepReason.message : StepReason → String
  | notObject text => "变换定义必须是对象: " ++ text
  | kindMissing text => "变换缺少类型: " ++ text
  | patternMissing => "REGEXP 变换缺少匹配模式"

/-- Why an operation on rules fails. -/
inductive Fault where
  /-- A node, named by its text, has an impossible shape. -/
  | malformed (node : String) (reason : Reason)
  | unknownOperator (name : String)
  | unknownKind (name : String)
  | unknownStep (name : String)
  /-- An operand, given by its text, cannot be prepared or has an unusable value. -/
  | unresolved (operand : String) (cause : Fault)
  | invalidPattern (pattern : String)
  | ruleMissing (id : String)
  | unreadableStep (reason : StepReason)
  /-- JSON text or a value of the wrong shape. -/
  | unreadableJson
  deriving DecidableEq

namespace Fault

def message : Fault → String
  | malformed node reason => "条件结构错误 [" ++ node ++ "]: " ++ reason.message
  | unknownOperator name => "未知的操作符: " ++ name
  | unknownKind name => "未知的条件类型: " ++ name
  | unknownStep name => "未知的变换类型: " ++ name
  | unresolved operand cause => "取值失败 " ++ operand ++ ": " ++ cause.message
  | invalidPattern pattern => "无效的正则表达式 '" ++ pattern ++ "'"
  | ruleMissing id => "条件未找到: " ++ id
  | unreadableStep reason => "规则解析失败: " ++ reason.message
  | unreadableJson => "JSON 序列化错误"

def isStructural : Fault → Bool
  | malformed .. | unknownOperator _ | unknownKind _ | unknownStep _ => true
  | _ => false

end Fault

end Verdict
