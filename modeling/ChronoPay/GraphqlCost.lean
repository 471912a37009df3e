import Mathlib.Data.Rat.Floor
import ChronoPay.JsText
import ChronoPay.Lib.TextPieces
import ChronoPay.Lib.TextScan

/-!
# GraphqlCost — what a query is estimated to cost

`parseQueryFields` scans a query behind its first brace, character by
character, and takes every name that is not a keyword for a field at the
depth of the braces around it. The cost of a field goes up with its depth,
from 1 at depth 1. Behind the last brace of an operation the depth is 0,
where the formula gives −1/2: the names in the head of a fragment
definition, each piece of them between two digits, take costs away.
-/

namespace ChronoPay.GraphqlCost

open TextPieces (trimBy)

/-! ## Types -/

inductive OperationType where
  | query
  | mutation
  | subscription
  deriving DecidableEq

def OperationType.text : OperationType → String
  | .query => "query"
  | .mutation => "mutation"
  | .subscription => "subscription"

structure CostBudget where
  maxQueryCost : ℚ
  maxMutationCost : ℚ
  maxSubscriptionCost : ℚ

def defaultBudget : CostBudget := ⟨100, 200, 500⟩

structure CostResult where
  totalCost : ℚ
  allowed : Bool
  budget : ℚ
  deriving DecidableEq

structure GraphQLCostError where
  operationType : OperationType
  cost : ℚ
  budget : ℚ
  deriving DecidableEq

/-- `numberText` writes a number in a template. -/
def GraphQLCostError.message (numberText : ℚ → String) (err : GraphQLCostError) : String :=
  "Query cost " ++ numberText err.cost ++ " exceeds " ++ err.operationType.text ++ " budget of " ++
    numberText err.budget

structure ParsedField where
  name : List Char
  depth : Int
  isList : Bool
  hasSubfields : Bool
  argCount : Nat
  deriving DecidableEq

/-! ## Comments -/

def isLineTerminator (c : Char) : Bool := [0x0a, 0x0d, 0x2028, 0x2029].contains c.toNat

/-- `.replace(/#.*$/gm, "")`. The flag says that a comment is open. -/
def stripLineComments : Bool → List Char → List Char
  | _, [] => []
  | true, c :: text =>
    if isLineTerminator c then c :: stripLineComments false text else stripLineComments true text
  | false, c :: text =>
    if c = '#' then stripLineComments true text else c :: stripLineComments false text

/-- There is a `*/` in the text. -/
def closesBlock : List Char → Bool
  | [] => false
  | '*' :: '/' :: _ => true
  | _ :: text => closesBlock text

/-- `.replace(/\/\*[\s\S]*?\*\//g, "")`. The flag says that a comment is
open; one that is never closed is no comment. -/
def stripBlockComments : Bool → List Char → List Char
  | _, [] => []
  | true, '*' :: '/' :: text => stripBlockComments false text
  | true, _ :: text => stripBlockComments true text
  | false, '/' :: '*' :: text =>
    if closesBlock text then stripBlockComments true text
    else '/' :: stripBlockComments false ('*' :: text)
  | false, c :: text => c :: stripBlockComments false text

def cleaned (query : List Char) : List Char :=
  trimBy isJsSpace (stripBlockComments false (stripLineComments false query))

/-- `.replace(/\s+/g, " ")`. The flag says that the last character was
white space. -/
def squeeze : Bool → List Char → List Char
  | _, [] => []
  | blank, c :: text =>
    if isJsSpace c then (if blank then squeeze true text else ' ' :: squeeze true text)
    else c :: squeeze false text

/-- `\w` -/
def isWordChar (c : Char) : Bool := c.isAlphanum || c = '_'

/-- The text begins with the word, in upper or lower case, and the word
ends there. -/
def startsWord : List Char → List Char → Bool
  | [], [] => true
  | [], c :: _ => !isWordChar c
  | _ :: _, [] => false
  | k :: word, c :: text => c.toLower = k && startsWord word text

def extractOperationType (query : List Char) : OperationType :=
  let cleaned := squeeze false (stripLineComments false (trimBy isJsSpace query))
  if startsWord "mutation".toList cleaned then .mutation
  else if startsWord "subscription".toList cleaned then .subscription
  else .query

/-! ## The scan -/

/-- `findMatchingParen` from the beginning of a text: where the parenthesis
is. -/
def findMatchingParen (depth : Int) : List Char → Option Nat
  | [] => none
  | c :: text =>
    if c = '(' then (findMatchingParen (depth + 1) text).map (· + 1)
    else if c = ')' then
      if depth - 1 = 0 then some 0 else (findMatchingParen (depth - 1) text).map (· + 1)
    else (findMatchingParen depth text).map (· + 1)

/-- `a.trim().length > 0` -/
def isFilled (text : List Char) : Bool := text.any fun c => !isJsSpace c

def isNameChar (c : Char) : Bool := c.isAlpha || c = '_'

def keywords : List (List Char) :=
  ["query", "mutation", "subscription", "fragment", "on", "type", "interface", "true", "false",
    "null"].map String.toList

/-- The variables of the scan. `seen` is the text up to here, the last
character first. -/
structure Scan where
  depth : Int := 0
  currentField : List Char := []
  inArgParens : Int := 0
  currentArgCount : Nat := 0
  seen : List Char := []
  fields : List ParsedField := []

/-- `body.slice(body.lastIndexOf("(", i) + 1, i)`, if there is one. -/
def argContent (seen : List Char) : Option (List Char) :=
  if '(' ∈ seen then some (seen.takeWhile (· ≠ '(')).reverse else none

/-- The arguments counted at a closing parenthesis. -/
def countArgs (content : List Char) : Nat :=
  ((TextScan.split ',' content).filter fun a => isFilled a && !a.contains ':').length

/-- The arguments counted from the end of a name, at `ch`. -/
def argsAhead (currentArgCount : Nat) (ch : Char) (text : List Char) : Nat :=
  if ((ch :: text).dropWhile isJsSpace).head? = some '(' then
    match findMatchingParen 0 (ch :: text) with
    | some close => ((TextScan.split ',' (text.take (close - 1))).filter isFilled).length
    | none => currentArgCount
  else currentArgCount

/-- The end of a name, if there is one. -/
def Scan.endField (s : Scan) (ch : Char) (text : List Char) : Scan :=
  if s.currentField = [] then s
  else
    { s with
      fields := if s.currentField ∈ keywords then s.fields
        else s.fields ++ [{ name := s.currentField, depth := s.depth, isList := ch = '['
                            hasSubfields := ch = '{'
                            argCount := argsAhead s.currentArgCount ch text }]
      currentField := []
      currentArgCount := 0 }

/-- What a character does, with the text behind it. -/
def Scan.read (s : Scan) (ch : Char) (text : List Char) : Scan :=
  if ch = '(' then { s with inArgParens := s.inArgParens + 1 }
  else if ch = ')' then
    { s with
      inArgParens := s.inArgParens - 1
      currentArgCount :=
        if s.inArgParens - 1 = 0 ∧ s.currentField ≠ [] then
          ((argContent s.seen).map countArgs).getD s.currentArgCount
        else s.currentArgCount }
  else if s.inArgParens > 0 then s
  else if isNameChar ch then { s with currentField := s.currentField ++ [ch] }
  else
    let s := s.endField ch text
    { s with depth := if ch = '{' then s.depth + 1 else if ch = '}' then s.depth - 1 else s.depth }

def Scan.step (s : Scan) (ch : Char) (text : List Char) : Scan :=
  { s.read ch text with seen := ch :: s.seen }

def scan (s : Scan) : List Char → Scan
  | [] => s
  | ch :: text => scan (s.step ch text) text

/-- The text from its first brace on. -/
def bodyOf (query : List Char) : List Char := (cleaned query).dropWhile (· ≠ '{')

def parseQueryFields (query : List Char) : OperationType × List ParsedField :=
  (extractOperationType query, (scan {} (bodyOf query)).fields)

/-! ## Costs -/

/-- `Math.round(x * 100) / 100` -/
def round2 (x : ℚ) : ℚ := (⌊x * 100 + 1 / 2⌋ : ℚ) / 100

def fieldBaseCost : ℚ := 1
def objectFieldMultiplier : ℚ := 2
def listFanoutMultiplier : ℚ := 3
def depthPenalty : ℚ := 3 / 2

def computeFieldCost (field : ParsedField) : ℚ :=
  let cost := fieldBaseCost * (1 + depthPenalty * (field.depth - 1))
  let cost := if field.hasSubfields then cost * objectFieldMultiplier else cost
  let cost := if field.isList then cost * listFanoutMultiplier else cost
  round2 (cost + field.argCount)

structure Estimate where
  totalCost : ℚ
  fields : List (List Char × ℚ × Int)
  operationType : OperationType

/-- `fieldCosts.reduce((sum, f) => sum + f.cost, 0)` -/
def sumCosts (fields : List ParsedField) : ℚ :=
  fields.foldl (fun sum f => sum + computeFieldCost f) 0

def estimateQueryCost (query : List Char) : Estimate :=
  let (operationType, fields) := parseQueryFields query
  { totalCost := round2 (sumCosts fields)
    fields := fields.map fun f => (f.name, computeFieldCost f, f.depth)
    operationType }

def CostBudget.of (budget : CostBudget) : OperationType → ℚ
  | .query => budget.maxQueryCost
  | .mutation => budget.maxMutationCost
  | .subscription => budget.maxSubscriptionCost

def validateQueryCost (query : List Char) (budget : CostBudget) :
    Except GraphQLCostError CostResult :=
  let estimate := estimateQueryCost query
  let allowedBudget := budget.of estimate.operationType
  if estimate.totalCost > allowedBudget then
    .error ⟨estimate.operationType, estimate.totalCost, allowedBudget⟩
  else .ok ⟨estimate.totalCost, true, allowedBudget⟩

example : (estimateQueryCost "\x7b me \x7b id \x7d \x7d".toList).totalCost = 7 / 2 := by decide +kernel

end ChronoPay.GraphqlCost
