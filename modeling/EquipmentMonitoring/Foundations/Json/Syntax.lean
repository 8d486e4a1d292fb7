import EquipmentMonitoring.Foundations.Utf8

/-!
# JSON Concrete Syntax (RFC 8259)

A JSON text is modelled by its concrete syntax tree: every token with the octets it was spelled
with and every run of whitespace. A tree can only be built from well-formed tokens, so `render`
maps trees onto exactly the texts of the grammar, and two readers of one text can be compared
on the tree they share.

## Layers

- `Space`, `Digits`, `Number`, `StringChar`: tokens with their well-formedness as fields
- `Tree`: the syntax tree, with `render` and the nesting `height`
- `Json`: the value a tree denotes, with strings decoded and numbers kept as spelled
-/

namespace EquipmentMonitoring.Json

/-! ## Whitespace and Digits -/

def isSpace (b : UInt8) : Bool :=
  b == 0x20 || b == 0x09 || b == 0x0A || b == 0x0D

def isDigit (b : UInt8) : Bool :=
  decide (0x30 ≤ b) && decide (b ≤ 0x39)

/-- A run of insignificant whitespace. -/
structure Space where
  text : Bytes
  spaces : text.all isSpace = true

/-- The empty run. -/
def Space.none : Space := ⟨[], rfl⟩

/-- A nonempty run of digits. -/
structure Digits where
  text : Bytes
  nonempty : text ≠ []
  digits : text.all isDigit = true

/-- The natural number a run of digits spells. -/
def digitsValue (text : Bytes) : Nat :=
  text.foldl (fun n b => 10 * n + (b.toNat - 0x30)) 0

def Digits.value (ds : Digits) : Nat := digitsValue ds.text

/-! ## Numbers -/

structure Exponent where
  marker : UInt8
  marker_valid : marker = 0x65 ∨ marker = 0x45
  sign : Option UInt8
  sign_valid : ∀ b ∈ sign, b = 0x2B ∨ b = 0x2D
  digits : Digits

/-- `[ minus ] int [ frac ] [ exp ]`, with no superfluous leading zero. -/
structure Number where
  negative : Bool
  int : Digits
  canonical : int.text.head? = some 0x30 → int.text = [0x30]
  frac : Option Digits
  exp : Option Exponent

def Exponent.render (e : Exponent) : Bytes :=
  e.marker :: (e.sign.toList ++ e.digits.text)

def Exponent.value (e : Exponent) : Int :=
  if e.sign = some 0x2D then -(e.digits.value : Int) else e.digits.value

def fracText : Option Digits → Bytes
  | some ds => 0x2E :: ds.text
  | none => []

def expText : Option Exponent → Bytes
  | some e => e.render
  | none => []

/-- The fraction and exponent parts as spelled. -/
def Number.renderTail (n : Number) : Bytes := fracText n.frac ++ expText n.exp

def Number.render (n : Number) : Bytes :=
  (if n.negative then [0x2D] else []) ++ n.int.text ++ n.renderTail

/-- Neither a fraction nor an exponent part. -/
def Number.isIntegral (n : Number) : Bool :=
  n.frac.isNone && n.exp.isNone

/-- The integer part with its sign. -/
def Number.intValue (n : Number) : Int :=
  if n.negative then -(n.int.value : Int) else n.int.value

/-- All digits of the significand read as one natural number. -/
def Number.coefficient (n : Number) : Nat :=
  digitsValue (n.int.text ++ (n.frac.map Digits.text).getD [])

/-- The power of ten that scales `coefficient`. -/
def Number.exponent (n : Number) : Int :=
  (n.exp.map Exponent.value).getD 0 - ((n.frac.map fun ds => ds.text.length).getD 0 : Nat)

/-! ## Strings -/

/-- Octets a string may hold unescaped. -/
def isPlain (b : UInt8) : Bool :=
  decide (0x20 ≤ b) && b != 0x22 && b != 0x5C

/-- The octet a two-character escape stands for. -/
def simpleEscape (c : UInt8) : Option UInt8 :=
  if c = 0x22 then some 0x22
  else if c = 0x5C then some 0x5C
  else if c = 0x2F then some 0x2F
  else if c = 0x62 then some 0x08
  else if c = 0x66 then some 0x0C
  else if c = 0x6E then some 0x0A
  else if c = 0x72 then some 0x0D
  else if c = 0x74 then some 0x09
  else none

def hexValue (b : UInt8) : Option Nat :=
  if isDigit b then some (b.toNat - 0x30)
  else if 0x61 ≤ b ∧ b ≤ 0x66 then some (b.toNat - 0x61 + 10)
  else if 0x41 ≤ b ∧ b ≤ 0x46 then some (b.toNat - 0x41 + 10)
  else none

def isHex (b : UInt8) : Bool := (hexValue b).isSome

/-- One spelled unit between the quotes of a string. -/
inductive StringChar where
  | plain (b : UInt8) (h : isPlain b = true)
  | escape (c : UInt8) (h : (simpleEscape c).isSome = true)
  | unicode (a b c d : UInt8) (h : (isHex a && isHex b && isHex c && isHex d) = true)

/-- A string token, by the units between its quotes. -/
abbrev Literal := List StringChar

def StringChar.render : StringChar → Bytes
  | .plain b _ => [b]
  | .escape c _ => [0x5C, c]
  | .unicode a b c d _ => [0x5C, 0x75, a, b, c, d]

/-- The octets between the quotes. -/
def Literal.raw (l : Literal) : Bytes := l.flatMap StringChar.render

def Literal.render (l : Literal) : Bytes := 0x22 :: (Literal.raw l ++ [0x22])

/-- The UTF-16 code unit of a `\u` escape. -/
def codeUnit (a b c d : UInt8) : Nat :=
  (((hexValue a).getD 0 * 16 + (hexValue b).getD 0) * 16 + (hexValue c).getD 0) * 16
    + (hexValue d).getD 0

def isHighSurrogate (u : Nat) : Bool := decide (0xD800 ≤ u) && decide (u ≤ 0xDBFF)
def isLowSurrogate (u : Nat) : Bool := decide (0xDC00 ≤ u) && decide (u ≤ 0xDFFF)

/-- The code point of a surrogate pair. -/
def pairValue (high low : Nat) : Nat := 0x10000 + (high - 0xD800) * 0x400 + (low - 0xDC00)

/-- An escaped high surrogate that no low surrogate followed. -/
def heldBack (pending : Option Nat) : Bytes := (pending.map Utf8.encode).getD []

/-- The text a string token denotes, after the high surrogate `pending` of an earlier escape. -/
def Literal.decodeFrom : Option Nat → Literal → Bytes
  | pending, [] => heldBack pending
  | pending, .plain b _ :: rest => heldBack pending ++ b :: Literal.decodeFrom none rest
  | pending, .escape c _ :: rest =>
    heldBack pending ++ (simpleEscape c).getD c :: Literal.decodeFrom none rest
  | some high, .unicode a b c d _ :: rest =>
    if isLowSurrogate (codeUnit a b c d) then
      Utf8.encode (pairValue high (codeUnit a b c d)) ++ Literal.decodeFrom none rest
    else if isHighSurrogate (codeUnit a b c d) then
      Utf8.encode high ++ Literal.decodeFrom (some (codeUnit a b c d)) rest
    -- neither half has its partner
    else Utf8.encode high ++ Utf8.encode (codeUnit a b c d) ++ Literal.decodeFrom none rest
  | none, .unicode a b c d _ :: rest =>
    if isHighSurrogate (codeUnit a b c d) then Literal.decodeFrom (some (codeUnit a b c d)) rest
    else Utf8.encode (codeUnit a b c d) ++ Literal.decodeFrom none rest

/-- The text a string token denotes. An escaped surrogate that is not part of a pair keeps its own
code point. -/
def Literal.decode (l : Literal) : Bytes := Literal.decodeFrom none l

/-- Every escaped surrogate is half of a pair; `pending` says that a high one was just read. -/
def Literal.pairedFrom : Bool → Literal → Bool
  | pending, [] => !pending
  | pending, .plain _ _ :: rest => !pending && Literal.pairedFrom false rest
  | pending, .escape _ _ :: rest => !pending && Literal.pairedFrom false rest
  | true, .unicode a b c d _ :: rest =>
    isLowSurrogate (codeUnit a b c d) && Literal.pairedFrom false rest
  | false, .unicode a b c d _ :: rest =>
    if isHighSurrogate (codeUnit a b c d) then Literal.pairedFrom true rest
    else !isLowSurrogate (codeUnit a b c d) && Literal.pairedFrom false rest

def Literal.wellPaired (l : Literal) : Bool := Literal.pairedFrom false l

/-! ## Syntax Trees -/

/-- An array element, or a whole document, with the whitespace around it. -/
structure Element (α : Type) where
  before : Space
  value : α
  after : Space

/-- An object member with its four runs of whitespace. -/
structure Member (α : Type) where
  before : Space
  key : Literal
  afterKey : Space
  beforeValue : Space
  value : α
  after : Space

inductive Tree where
  | null
  | bool (b : Bool)
  | number (n : Number)
  | string (l : Literal)
  | emptyArray (inner : Space)
  | array (first : Element Tree) (rest : List (Element Tree))
  | emptyObject (inner : Space)
  | object (first : Member Tree) (rest : List (Member Tree))

section Induction

set_option linter.unusedSectionVars false

variable {P : Tree → Prop} (null : P .null) (bool : ∀ b, P (.bool b)) (number : ∀ n, P (.number n))
  (string : ∀ l, P (.string l)) (emptyArray : ∀ inner, P (.emptyArray inner))
  (array : ∀ first rest, (∀ e ∈ first :: rest, P e.value) → P (.array first rest))
  (emptyObject : ∀ inner, P (.emptyObject inner))
  (object : ∀ first rest, (∀ m ∈ first :: rest, P m.value) → P (.object first rest))

include null bool number string emptyArray array emptyObject object

mutual

/-- Induction on trees, with the hypothesis for every element or member of a container. -/
@[induction_eliminator]
theorem Tree.ind : ∀ t : Tree, P t
  | .null => null
  | .bool b => bool b
  | .number n => number n
  | .string l => string l
  | .emptyArray inner => emptyArray inner
  | .array ⟨_, v, _⟩ rest =>
    array _ rest (List.forall_mem_cons.mpr ⟨Tree.ind v, ind_elements rest⟩)
  | .emptyObject inner => emptyObject inner
  | .object ⟨_, _, _, _, v, _⟩ rest =>
    object _ rest (List.forall_mem_cons.mpr ⟨Tree.ind v, ind_members rest⟩)

theorem ind_elements : ∀ es : List (Element Tree), ∀ e ∈ es, P e.value
  | [] => by simp
  | ⟨_, v, _⟩ :: rest => List.forall_mem_cons.mpr ⟨Tree.ind v, ind_elements rest⟩

theorem ind_members : ∀ ms : List (Member Tree), ∀ m ∈ ms, P m.value
  | [] => by simp
  | ⟨_, _, _, _, v, _⟩ :: rest => List.forall_mem_cons.mpr ⟨Tree.ind v, ind_members rest⟩

end

end Induction

/-- The key of a member as decoded. -/
def Member.name {α : Type} (m : Member α) : Bytes := Literal.decode m.key

mutual

/-- The text of a tree. -/
def Tree.render : Tree → Bytes
  | .null => ascii "null"
  | .bool true => ascii "true"
  | .bool false => ascii "false"
  | .number n => n.render
  | .string l => Literal.render l
  | .emptyArray inner => 0x5B :: (inner.text ++ [0x5D])
  | .array first rest => 0x5B :: (renderElement first ++ renderElements rest ++ [0x5D])
  | .emptyObject inner => 0x7B :: (inner.text ++ [0x7D])
  | .object first rest => 0x7B :: (renderMember first ++ renderMembers rest ++ [0x7D])

def renderElement : Element Tree → Bytes
  | ⟨before, value, after⟩ => before.text ++ value.render ++ after.text

/-- The elements after the first, each with its comma. -/
def renderElements : List (Element Tree) → Bytes
  | [] => []
  | e :: rest => 0x2C :: (renderElement e ++ renderElements rest)

def renderMember : Member Tree → Bytes
  | ⟨before, key, afterKey, beforeValue, value, after⟩ =>
    before.text ++ Literal.render key ++ afterKey.text ++ 0x3A ::
      (beforeValue.text ++ value.render ++ after.text)

/-- The members after the first, each with its comma. -/
def renderMembers : List (Member Tree) → Bytes
  | [] => []
  | m :: rest => 0x2C :: (renderMember m ++ renderMembers rest)

end

end EquipmentMonitoring.Json
