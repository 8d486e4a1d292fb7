import EquipmentMonitoring.Foundations.Json.Value

/-!
# An Event-Driven JSON Reader

A recursive-descent reader for the grammar of `Syntax`, parameterised by the `Dialect` of tokens
it takes. It reports events as it goes, so the reports made before an error are part of its
result. Termination is by fuel; `readDocument` supplies enough for every text.

## Layers

- `Sax`: reports so far, and the result unless an error was met
- token scanners
- `readValue`, `readMembers`, `readElements`, `readDocument`
-/

namespace EquipmentMonitoring.Json

/-! ## Reports and Results -/

/-- What a reader has reported, with its result unless it met an error. -/
structure Sax (α : Type) where
  reports : List ParseEvent
  result : Option α

namespace Sax

variable {α β : Type}

/-- A result after the given reports. -/
def done (reports : List ParseEvent) (a : α) : Sax α := ⟨reports, some a⟩

def ok (a : α) : Sax α := done [] a

/-- A syntax error. -/
def fail : Sax α := ⟨[], none⟩

def emit (depth : Nat) (kind : EventKind) : Sax Unit := done [⟨depth, kind⟩] ()

def andThen (x : Sax α) (f : α → Sax β) : Sax β :=
  match x.result with
  | none => ⟨x.reports, none⟩
  | some a => ⟨x.reports ++ (f a).reports, (f a).result⟩

instance : Monad Sax where
  pure := ok
  bind := andThen

def ofOption : Option α → Sax α
  | some a => ok a
  | none => fail

end Sax

/-! ## Token Scanners -/

/-- Skip a run of whitespace. -/
def takeSpace (s : Bytes) : Space × Bytes :=
  (⟨s.takeWhile isSpace, List.all_takeWhile⟩, s.dropWhile isSpace)

def scanDigits (s : Bytes) : Option (Digits × Bytes) :=
  if h : s.takeWhile isDigit ≠ [] then
    some (⟨s.takeWhile isDigit, h, List.all_takeWhile⟩, s.dropWhile isDigit)
  else none

/-- The integer part: a single zero, or digits that do not begin with one. -/
def scanInt (s : Bytes) :
    Option ({ ds : Digits // ds.text.head? = some 0x30 → ds.text = [0x30] } × Bytes) :=
  match s with
  | [] => none
  | b :: rest =>
    -- no digit follows a leading zero
    if b = 0x30 then some (⟨⟨[0x30], by simp, by decide⟩, fun _ => rfl⟩, rest)
    else
      match scanDigits (b :: rest) with
      | some (ds, after) =>
        if h : ds.text.head? = some 0x30 → ds.text = [0x30] then some (⟨ds, h⟩, after) else none
      | none => none

def scanFrac (s : Bytes) : Option (Option Digits × Bytes) :=
  match s with
  | [] => some (none, [])
  | b :: rest =>
    if b = 0x2E then (scanDigits rest).map fun p => (some p.1, p.2) else some (none, b :: rest)

def scanSign (s : Bytes) : { sign : Option UInt8 // ∀ b ∈ sign, b = 0x2B ∨ b = 0x2D } × Bytes :=
  match s with
  | [] => (⟨none, by simp⟩, [])
  | b :: rest =>
    if h : b = 0x2B ∨ b = 0x2D then (⟨some b, by simpa using h⟩, rest)
    else (⟨none, by simp⟩, b :: rest)

def scanExp (s : Bytes) : Option (Option Exponent × Bytes) :=
  match s with
  | [] => some (none, [])
  | b :: rest =>
    if h : b = 0x65 ∨ b = 0x45 then
      (scanDigits (scanSign rest).2).map fun p =>
        (some ⟨b, h, (scanSign rest).1.1, (scanSign rest).1.2, p.1⟩, p.2)
    else some (none, b :: rest)

/-- The number without its minus sign. -/
def scanUnsigned (negative : Bool) (s : Bytes) : Option (Number × Bytes) := do
  let (int, s₁) ← scanInt s
  let (frac, s₂) ← scanFrac s₁
  let (exp, s₃) ← scanExp s₂
  return (⟨negative, int.1, int.2, frac, exp⟩, s₃)

def scanNumber (s : Bytes) : Option (Number × Bytes) :=
  match s with
  | [] => none
  | b :: rest => if b = 0x2D then scanUnsigned true rest else scanUnsigned false (b :: rest)

/-- The rest of a string token after its opening quote. -/
def scanString : Bytes → Option (Literal × Bytes)
  | [] => none
  | b :: rest =>
    if b = 0x22 then some ([], rest)
    else if b = 0x5C then
      match rest with
      | [] => none
      | c :: rest =>
        -- a Unicode escape has four hexadecimal digits
        if c = 0x75 then
          match rest with
          | w :: x :: y :: z :: rest =>
            if h : (isHex w && isHex x && isHex y && isHex z) = true then
              (scanString rest).map fun p => (.unicode w x y z h :: p.1, p.2)
            else none
          | _ => none
        else if h : (simpleEscape c).isSome = true then
          (scanString rest).map fun p => (.escape c h :: p.1, p.2)
        else none
    else if h : isPlain b = true then
      (scanString rest).map fun p => (.plain b h :: p.1, p.2)
    else none

/-- Skip one given octet. -/
def expectByte (b : UInt8) : Bytes → Option Bytes
  | [] => none
  | c :: rest => if c = b then some rest else none

/-- Skip a given word. -/
def expectWord : Bytes → Bytes → Option Bytes
  | [], s => some s
  | b :: word, s => (expectByte b s).bind (expectWord word)

/-- A comma (true) or the given closing octet (false). -/
def commaOr (close : UInt8) : Bytes → Option (Bool × Bytes)
  | [] => none
  | c :: rest =>
    if c = 0x2C then some (true, rest) else if c = close then some (false, rest) else none

/-! ## The Reader -/

variable (d : Dialect)

/-- The rest of a string the dialect takes. -/
def scanLiteral (s : Bytes) : Option (Literal × Bytes) :=
  (scanString s).filter fun p => d.string p.1

/-- The scalar that begins with `b`. -/
def scanScalar (b : UInt8) (rest : Bytes) : Option (Tree × Bytes) :=
  if b = 0x22 then (scanLiteral d rest).map fun p => (Tree.string p.1, p.2)
  else if b = 0x6E then (expectWord (ascii "ull") rest).map (Tree.null, ·)
  else if b = 0x74 then (expectWord (ascii "rue") rest).map (Tree.bool true, ·)
  else if b = 0x66 then (expectWord (ascii "alse") rest).map (Tree.bool false, ·)
  else ((scanNumber (b :: rest)).filter fun p => d.number p.1).map
    fun p => (Tree.number p.1, p.2)

mutual

/-- A value that begins at the first octet. -/
def readValue : Nat → Nat → Bytes → Sax (Tree × Bytes)
  | 0, _, _ => Sax.fail
  | _ + 1, _, [] => Sax.fail
  | fuel + 1, depth, b :: rest =>
    if b = 0x7B then do
      Sax.emit depth .objectStart
      match expectByte 0x7D (takeSpace rest).2 with
      | some after => do
        Sax.emit depth .objectEnd
        Sax.ok (.emptyObject (takeSpace rest).1, after)
      | none => do
        let (ms, after) ← readMembers fuel (depth + 1) rest
        Sax.emit depth .objectEnd
        Sax.ok (.object ms.1 ms.2, after)
    else if b = 0x5B then do
      Sax.emit depth .arrayStart
      match expectByte 0x5D (takeSpace rest).2 with
      | some after => do
        Sax.emit depth .arrayEnd
        Sax.ok (.emptyArray (takeSpace rest).1, after)
      | none => do
        let (es, after) ← readElements fuel (depth + 1) rest
        Sax.emit depth .arrayEnd
        Sax.ok (.array es.1 es.2, after)
    else do
      let p ← Sax.ofOption (scanScalar d b rest)
      Sax.emit depth .value
      Sax.ok p

/-- The members of an object up to and including its closing brace. -/
def readMembers : Nat → Nat → Bytes → Sax ((Member Tree × List (Member Tree)) × Bytes)
  | 0, _, _ => Sax.fail
  | fuel + 1, depth, s => do
    let s₁ ← Sax.ofOption (expectByte 0x22 (takeSpace s).2)
    let (key, s₂) ← Sax.ofOption (scanLiteral d s₁)
    -- the name is reported before its value is read
    Sax.emit depth (.key (Literal.decode key))
    let s₃ ← Sax.ofOption (expectByte 0x3A (takeSpace s₂).2)
    let (v, s₄) ← readValue fuel depth (takeSpace s₃).2
    let (more, s₅) ← Sax.ofOption (commaOr 0x7D (takeSpace s₄).2)
    let m : Member Tree :=
      ⟨(takeSpace s).1, key, (takeSpace s₂).1, (takeSpace s₃).1, v, (takeSpace s₄).1⟩
    if more then do
      let (ms, s₆) ← readMembers fuel depth s₅
      Sax.ok ((m, ms.1 :: ms.2), s₆)
    else Sax.ok ((m, []), s₅)

/-- The elements of an array up to and including its closing bracket. -/
def readElements : Nat → Nat → Bytes → Sax ((Element Tree × List (Element Tree)) × Bytes)
  | 0, _, _ => Sax.fail
  | fuel + 1, depth, s => do
    let (v, s₁) ← readValue fuel depth (takeSpace s).2
    let (more, s₂) ← Sax.ofOption (commaOr 0x5D (takeSpace s₁).2)
    let e : Element Tree := ⟨(takeSpace s).1, v, (takeSpace s₁).1⟩
    if more then do
      let (es, s₃) ← readElements fuel depth s₂
      Sax.ok ((e, es.1 :: es.2), s₃)
    else Sax.ok ((e, []), s₂)

end

/-- A whole text: one value with whitespace around it. -/
def readDocument (s : Bytes) : Sax (Element Tree) := do
  let (v, s₁) ← readValue d (2 * s.length + 1) 0 (takeSpace s).2
  if (takeSpace s₁).2.isEmpty then Sax.ok ⟨(takeSpace s).1, v, (takeSpace s₁).1⟩ else Sax.fail

/-- The document of a text, if the dialect takes it. -/
def parse (s : Bytes) : Option (Element Tree) := (readDocument d s).result

end EquipmentMonitoring.Json
