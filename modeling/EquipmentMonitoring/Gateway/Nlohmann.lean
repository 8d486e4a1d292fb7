import EquipmentMonitoring.Foundations.Decimal
import EquipmentMonitoring.Foundations.Json.Reports
import EquipmentMonitoring.Foundations.Json.RoundTrip

/-!
# What the Gateway Uses of `nlohmann::json`

The gateway reads and writes JSON through `nlohmann::json`. The library is a parameter: `Library`
holds its two functions and what is documented of them, as far as the gateway depends on it.

- `json::parse`: the grammar of RFC 8259, after an optional byte order mark; strings must be
  well-formed UTF-8 with paired surrogates, numbers must convert to a finite double
- the parser callback sees `ParseEvent`s with their depths; of a text that turns out to be malformed,
  only that keys are reported inside of objects is assumed
- number kinds: unsigned, signed integer, float
- `dump`: a string token for the text
-/

namespace EquipmentMonitoring.Nlohmann

open EquipmentMonitoring.Json

/-! ## Tokens -/

/-- The literal's conversion to double is finite. -/
def finiteDouble (n : Number) : Bool :=
  compareNat n.coefficient n.exponent doubleBound == .lt

theorem finiteDouble_iff (n : Number) :
    finiteDouble n = true ↔ (n.coefficient : ℚ) * 10 ^ n.exponent < doubleBound := by
  rw [finiteDouble, compareNat_eq, beq_iff_eq, compare_lt_iff_lt]

def dialect : Dialect where
  number := finiteDouble
  string l := Utf8.valid (Literal.raw l) && Literal.wellPaired l

/-! ## Parsing -/

def byteOrderMark : Bytes := [0xEF, 0xBB, 0xBF]

/-- The text without its byte order mark. -/
def skipBom (s : Bytes) : Bytes :=
  if byteOrderMark.isPrefixOf s then s.drop 3 else s

/-- The library, with what is documented of it. -/
class Library where
  /-- `json::parse`, with the reports its callback receives; no result where it throws. -/
  read : Bytes → Sax (Element Tree)
  /-- A text is parsed if and only if it is JSON. -/
  parses : ∀ s doc, (read s).result = some doc ↔
    renderElement doc = skipBom s ∧ doc.value.accepted dialect = true
  /-- The callback sees the document's events in order, each with its depth. -/
  reports : ∀ s doc, (read s).result = some doc → (read s).reports = doc.value.events 0
  /-- A key is reported one level inside of an object that was reported, whatever follows it. -/
  announced : ∀ s, Announced [] (read s).reports
  /-- The string token `dump` writes for a text. -/
  token : Bytes → Literal
  token_decode : ∀ text, Literal.decode (token text) = text
  token_string : ∀ text, Utf8.valid text = true → dialect.string (token text) = true
  /-- No octet takes more than `\u00xx`. -/
  length_token : ∀ text, (Literal.render (token text)).length ≤ 2 + 6 * text.length

section Library

variable [Library]

/-- `json::parse`, with the reports its callback receives. -/
def read (s : Bytes) : Sax (Element Tree) := Library.read s

/-- `json::parse` without a callback. -/
def parse (s : Bytes) : Option (Element Tree) := (read s).result

/-- `json(text).dump()`: throws on text that is not UTF-8. -/
def dump (text : Bytes) : Option Bytes :=
  if Utf8.valid text then some (Literal.render (Library.token text)) else none

theorem parse_eq_some_iff {s : Bytes} {doc : Element Tree} :
    parse s = some doc ↔ renderElement doc = skipBom s ∧ doc.value.accepted dialect = true :=
  Library.parses s doc

theorem read_reports {s : Bytes} {doc : Element Tree} (h : parse s = some doc) :
    (read s).reports = doc.value.events 0 :=
  Library.reports s doc h

end Library

/-! ## Values -/

/-- How a number is stored. -/
inductive NumberKind where
  | unsigned (n : Nat)
  | integer (i : Int)
  | float
deriving DecidableEq

def numberKind (n : Number) : NumberKind :=
  if n.isIntegral then
    if n.negative then if -2 ^ 63 ≤ n.intValue then .integer n.intValue else .float
    else if n.int.value < 2 ^ 64 then .unsigned n.int.value else .float
  else .float

/-- The integer stored for a number, if it is stored as one. -/
def NumberKind.toInt? : NumberKind → Option Int
  | .unsigned n => some n
  | .integer i => some i
  | .float => none

def isObject : Value → Bool
  | .object _ => true
  | _ => false

/-- `size()` of an object. -/
def size (v : Value) : Nat := v.members.length

def contains (v : Value) (key : Bytes) : Bool := (v.get? key).isSome

/-- The value is the given string. -/
def isText (v : Value) (text : Bytes) : Bool :=
  match v with
  | .string t => t == text
  | _ => false

/-! ## Writing Strings -/

def hexDigit (n : Nat) : UInt8 := if n < 10 then (0x30 + n).toUInt8 else (0x57 + n).toUInt8

/-- What `dump` writes for one octet of a string. -/
def dumpByte (b : UInt8) : Bytes :=
  if b = 0x08 then ascii "\\b"
  else if b = 0x09 then ascii "\\t"
  else if b = 0x0A then ascii "\\n"
  else if b = 0x0C then ascii "\\f"
  else if b = 0x0D then ascii "\\r"
  else if b = 0x22 then ascii "\\\""
  else if b = 0x5C then ascii "\\\\"
  -- the other control characters have no short escape
  else if b < 0x20 then ascii "\\u00" ++ [hexDigit (b.toNat / 16), hexDigit (b.toNat % 16)]
  else [b]

/-- The spelled unit `dump` writes for one octet. -/
def dumpChar (b : UInt8) : StringChar :=
  if h : isPlain b = true then .plain b h
  else if b = 0x08 then .escape 0x62 rfl
  else if b = 0x09 then .escape 0x74 rfl
  else if b = 0x0A then .escape 0x6E rfl
  else if b = 0x0C then .escape 0x66 rfl
  else if b = 0x0D then .escape 0x72 rfl
  else if b = 0x22 then .escape 0x22 rfl
  else if b = 0x5C then .escape 0x5C rfl
  else if h : (isHex 0x30 && isHex 0x30 && isHex (hexDigit (b.toNat / 16)) &&
      isHex (hexDigit (b.toNat % 16))) = true then
    .unicode 0x30 0x30 (hexDigit (b.toNat / 16)) (hexDigit (b.toNat % 16)) h
  else .escape 0x2F rfl

def dumpLiteral (text : Bytes) : Literal := text.map dumpChar

theorem dumpChar_render (b : UInt8) : (dumpChar b).render = dumpByte b :=
  of_decide_eq_true (Utf8.forall_octet (p := fun b => decide ((dumpChar b).render = dumpByte b))
    (by decide +kernel) b)

/-- The unit stands for the octet `b` and is no surrogate. -/
def StandsFor (b : UInt8) : StringChar → Bool
  | .plain c _ => c == b
  | .escape c _ => simpleEscape c == some b
  | .unicode w x y z _ =>
    !isHighSurrogate (codeUnit w x y z) && !isLowSurrogate (codeUnit w x y z) &&
      Utf8.encode (codeUnit w x y z) == [b]

theorem dumpChar_standsFor (b : UInt8) : StandsFor b (dumpChar b) = true := by
  revert b
  exact Utf8.forall_octet (by decide +kernel)

section StandsFor

variable {b : UInt8} {c : StringChar} (h : StandsFor b c = true)

include h

theorem decodeFrom_standsFor (rest : Literal) :
    Literal.decodeFrom none (c :: rest) = b :: Literal.decodeFrom none rest := by
  cases c with
  | plain c _ => simp_all [StandsFor, Literal.decodeFrom, heldBack]
  | escape c _ => simp_all [StandsFor, Literal.decodeFrom, heldBack]
  | unicode w x y z _ => simp_all [StandsFor, Literal.decodeFrom]

theorem pairedFrom_standsFor (rest : Literal) :
    Literal.pairedFrom false (c :: rest) = Literal.pairedFrom false rest := by
  cases c with
  | plain c _ => simp [Literal.pairedFrom]
  | escape c _ => simp [Literal.pairedFrom]
  | unicode w x y z _ => simp_all [StandsFor, Literal.pairedFrom]

end StandsFor

/-- A text spelled octet by octet is denoted by what is spelled. -/
theorem decode_map {f : UInt8 → StringChar} (hf : ∀ b, StandsFor b (f b) = true) (text : Bytes) :
    Literal.decode (text.map f) = text := by
  induction text with
  | nil => rfl
  | cons b rest ih =>
    simp only [Literal.decode, List.map_cons, decodeFrom_standsFor (hf b)] at ih ⊢
    rw [ih]

theorem dumpLiteral_decode (text : Bytes) : Literal.decode (dumpLiteral text) = text :=
  decode_map dumpChar_standsFor text

theorem dumpLiteral_paired (text : Bytes) : Literal.wellPaired (dumpLiteral text) = true := by
  induction text with
  | nil => rfl
  | cons b rest ih =>
    simp only [dumpLiteral, Literal.wellPaired, List.map_cons,
      pairedFrom_standsFor (dumpChar_standsFor b)] at ih ⊢
    rw [ih]

theorem dumpLiteral_raw (text : Bytes) :
    Literal.raw (dumpLiteral text) = text.flatMap dumpByte := by
  simp [dumpLiteral, Literal.raw, List.flatMap_map, dumpChar_render]

/-- Escaping touches ASCII octets only, and yields ASCII. -/
theorem dumpByte_shape (b : UInt8) :
    if b ≤ 0x7F then ∀ c ∈ dumpByte b, c ≤ 0x7F else dumpByte b = [b] := by
  have hb := Utf8.forall_octet (p := fun b => if b ≤ 0x7F then
    (dumpByte b).all fun c => decide (c ≤ 0x7F) else dumpByte b == [b]) (by decide +kernel) b
  split
  · next h => simpa [h] using hb
  · next h => simpa [h] using hb

theorem dumpLiteral_valid {text : Bytes} (h : Utf8.valid text = true) :
    Utf8.valid (Literal.raw (dumpLiteral text)) = true := by
  rw [dumpLiteral_raw]
  exact Utf8.valid_flatMap dumpByte_shape h

theorem length_dumpByte (b : UInt8) : (dumpByte b).length ≤ 6 :=
  of_decide_eq_true (Utf8.forall_octet (p := fun b => decide ((dumpByte b).length ≤ 6))
    (by decide +kernel) b)

theorem length_dumpLiteral (text : Bytes) :
    (Literal.render (dumpLiteral text)).length ≤ 2 + 6 * text.length := by
  have hflat := length_flatMap_le fun b (_ : b ∈ text) => length_dumpByte b
  rw [Literal.render, dumpLiteral_raw, List.length_cons, List.length_append, List.length_singleton]
  omega

theorem dumpLiteral_string {text : Bytes} (h : Utf8.valid text = true) :
    dialect.string (dumpLiteral text) = true :=
  Bool.and_eq_true _ _ ▸ ⟨dumpLiteral_valid h, dumpLiteral_paired text⟩

/-! ## A Library as Documented -/

/-- A parser that stops at the first octet the grammar does not have, and the shortest escapes. -/
instance documented : Library where
  read s := readDocument dialect (skipBom s)
  parses _ _ := Json.parse_eq_some_iff
  reports _ _ := reports_of_parse
  announced _ := readDocument_announced dialect _
  token := dumpLiteral
  token_decode := dumpLiteral_decode
  token_string _ := dumpLiteral_string
  length_token := length_dumpLiteral

end EquipmentMonitoring.Nlohmann
