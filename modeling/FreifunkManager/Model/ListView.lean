import Mathlib.Data.Int.Notation
import Mathlib.Data.Nat.Notation
import Mathlib.Logic.Function.Basic

/-! # The inputs of the list

A row of the list has inputs for the host name and the two transmit powers of a node. What is typed is kept in the
view until the input is left, once for each kind of input and not for each row, and is what these inputs show when
the list is rendered. Powers are whole numbers here, or `none` where JavaScript has `undefined` or `NaN`. They stand for
numbers below 2^53: larger ones are rounded in JavaScript, and from 10^21 on an input shows them in exponent form.
-/

namespace FreifunkManager.ListView

/-- The number that the text begins with. -/
def parseDigits (chars : List Char) : Option ℕ :=
  let digits := chars.takeWhile Char.isDigit
  if digits.isEmpty then none else some (Nat.ofDigitChars 10 digits 0)

/-- White space and line ends of JavaScript, some of them outside of ASCII. -/
def isWhiteSpace (c : Char) : Bool :=
  c.toNat ∈ [0x09, 0x0A, 0x0B, 0x0C, 0x0D, 0x20, 0xA0, 0x1680, 0x2028, 0x2029, 0x202F, 0x205F, 0x3000, 0xFEFF] ||
    (0x2000 ≤ c.toNat && c.toNat ≤ 0x200A)

/-- `parseInt(text, 10)`. -/
def parseInt (text : String) : Option ℤ :=
  match text.toList.dropWhile isWhiteSpace with
  | '-' :: chars => (parseDigits chars).map fun n => -(n : ℤ)
  | '+' :: chars => (parseDigits chars).map fun n => (n : ℤ)
  | chars => (parseDigits chars).map fun n => (n : ℤ)

/-- What an input shows for a number below 10^21. -/
def numberText : Option ℤ → String
  | none => ""
  | some n =>
    let digits := Nat.toDigits 10 n.natAbs
    String.ofList (if n < 0 then '-' :: digits else digits)

inductive Input where
  | hostname | txPower24 | txPower5
deriving DecidableEq

/-- A value of a node. -/
inductive Value where
  | text (value : String)
  | number (value : Option ℤ)
deriving DecidableEq

/-- What the handler of the input makes of its text. -/
def Input.read : Input → String → Value
  | .hostname, text => .text text
  | .txPower24, text | .txPower5, text => .number (parseInt text)

def Value.shown : Value → String
  | .text value => value
  | .number value => numberText value

/-- The node of a row, as far as the row has inputs for it. -/
structure RowNode where
  hostname : String
  txPower24 : Option ℤ
  txPower5 : Option ℤ
deriving DecidableEq

namespace RowNode

variable (node : RowNode)

def value : Input → Value
  | .hostname => .text node.hostname
  | .txPower24 => .number node.txPower24
  | .txPower5 => .number node.txPower5

def set : Input → String → RowNode
  | .hostname, text => { node with hostname := text }
  | .txPower24, text => { node with txPower24 := parseInt text }
  | .txPower5, text => { node with txPower5 := parseInt text }

theorem set_value (input other : Input) (text : String) :
    (node.set input text).value other = if other = input then input.read text else node.value other := by
  cases input <;> cases other <;> rfl

end RowNode

variable {ι : Type} [DecidableEq ι]

structure State (ι : Type) where
  /-- The nodes of the store. -/
  nodes : ι → RowNode
  /-- `_hostname`, `_txpower24` and `_txpower5` of the view. -/
  buffer : Input → Option String := fun _ => none
  /-- `_node_id` of the view, which is never read. -/
  nodeID : Option ι := none
  /-- What the inputs show. -/
  shown : ι → Input → String
  /-- The nodes that were sent. -/
  sent : List (ι × RowNode) := []

inductive Event (ι : Type) where
  | input (row : ι) (input : Input) (text : String)
  | focusout (row : ι) (input : Input)
  | render
deriving DecidableEq

namespace State

variable (s : State ι)

/-- The `value` that an input is rendered with; an empty buffer counts as none. -/
def rendered (row : ι) (input : Input) : String :=
  match s.buffer input with
  | some text => if text = "" then ((s.nodes row).value input).shown else text
  | none => ((s.nodes row).value input).shown

def oninput (row : ι) (input : Input) (text : String) : State ι :=
  { s with
    shown := Function.update s.shown row (Function.update (s.shown row) input text)
    nodeID := some row
    buffer := Function.update s.buffer input (some text) }

def onfocusout (row : ι) (input : Input) : State ι :=
  let node := (s.nodes row).set input (s.shown row input)
  { s with
    buffer := Function.update s.buffer input none
    nodes := Function.update s.nodes row node
    sent := s.sent ++ [(row, node)] }

def render : State ι := { s with shown := s.rendered }

def step : Event ι → State ι
  | .input row input text => s.oninput row input text
  | .focusout row input => s.onfocusout row input
  | .render => s.render

end State

/-- The list as it is rendered first. -/
def initial (nodes : ι → RowNode) : State ι where
  nodes
  shown row input := ((nodes row).value input).shown

/-- The list after these events, of which the latest is the first. -/
def after (nodes : ι → RowNode) : List (Event ι) → State ι
  | [] => initial nodes
  | event :: past => (after nodes past).step event

end FreifunkManager.ListView
