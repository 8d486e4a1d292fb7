import EquipmentMonitoring.Foundations.Numerals

/-!
# Escaped Texts

A text is escaped octet by octet: each octet is replaced by its code, and most octets stand for
themselves. A buffer takes the codes one after the other, and refuses the first that does not fit.

## Layers

- `fill`: a buffer takes the codes of a text
- `percentDecode`: what a text with percent codes stands for
- `decodeEntities`: what a text with character references stands for

## Key Results

- `fill_eq_some`: the codes are taken exactly if all of them fit
- `decode_flatMap`: a code that is read back octet by octet is read back
-/

namespace EquipmentMonitoring

open EquipmentMonitoring.Json

/-! ## Filling a Buffer -/

/-- The codes of a text, behind what is there already. Each must leave `reserve` octets free. -/
def fill (code : UInt8 → Bytes) (reserve capacity : Nat) (text out : Bytes) : Option Bytes :=
  text.foldlM (fun out b =>
    if capacity < out.length + (code b).length + reserve then none else some (out ++ code b)) out

theorem fill_eq_some {code : UInt8 → Bytes} {reserve capacity : Nat} {text out result : Bytes}
    (hout : out.length + reserve ≤ capacity) :
    fill code reserve capacity text out = some result ↔
      result = out ++ text.flatMap code ∧ result.length + reserve ≤ capacity := by
  induction text generalizing out with
  | nil =>
    rw [fill, List.foldlM_nil, List.flatMap_nil, List.append_nil]
    constructor
    · intro h
      obtain rfl := Option.some.inj h
      exact ⟨rfl, hout⟩
    · rintro ⟨rfl, -⟩
      rfl
  | cons b rest ih =>
    rw [List.flatMap_cons, ← List.append_assoc, fill, List.foldlM_cons]
    by_cases hfull : capacity < out.length + (code b).length + reserve
    · -- what comes later does not make room
      rw [if_pos hfull]
      refine iff_of_false (by simp) ?_
      rintro ⟨rfl, hfits⟩
      rw [List.length_append, List.length_append] at hfits
      omega
    · have hnext : (out ++ code b).length + reserve ≤ capacity := by
        rw [List.length_append]
        omega
      rw [if_neg hfull]
      exact ih hnext

/-! ## Reading Back -/

/-- A code that is read back octet by octet is read back. -/
theorem decode_flatMap {code : UInt8 → Bytes} {decode : Bytes → Option Bytes}
    (hnil : decode [] = some [])
    (hcode : ∀ b rest, decode (code b ++ rest) = (decode rest).map (b :: ·)) (text : Bytes) :
    decode (text.flatMap code) = some text := by
  induction text with
  | nil => exact hnil
  | cons b rest ih => rw [List.flatMap_cons, hcode, ih, Option.map_some]

/-! ## Percent Codes -/

/-- The octet two hexadecimal digits stand for. -/
def hexPairValue (high low : UInt8) : Option UInt8 := do
  let high ← hexValue high
  let low ← hexValue low
  return (high * 16 + low).toUInt8

/-- The text that percent codes stand for; there is none if a percent sign begins no code. -/
def percentDecode : Bytes → Option Bytes
  | [] => some []
  | b :: rest =>
    if b = 0x25 then
      match rest with
      -- a percent sign without two digits is malformed
      | high :: low :: rest => do
        let b ← hexPairValue high low
        (percentDecode rest).map (b :: ·)
      | _ => none
    else (percentDecode rest).map (b :: ·)

theorem percentDecode_plain {b : UInt8} (h : b ≠ 0x25) (rest : Bytes) :
    percentDecode (b :: rest) = (percentDecode rest).map (b :: ·) := by
  cases rest with
  | nil => simp [percentDecode, h]
  | cons _ rest => cases rest <;> simp [percentDecode, h]

theorem percentDecode_code {high low b : UInt8} (h : hexPairValue high low = some b) (rest : Bytes) :
    percentDecode (0x25 :: high :: low :: rest) = (percentDecode rest).map (b :: ·) := by
  rw [percentDecode, if_pos rfl, h]
  rfl

/-! ## Character References -/

/-- What a character reference stands for, by name or by number. -/
def characterReference (name : Bytes) : Option Bytes :=
  if name = ascii "amp" then some [0x26]
  else if name = ascii "lt" then some [0x3C]
  else if name = ascii "gt" then some [0x3E]
  else if name = ascii "quot" then some [0x22]
  else
    match name with
    | 0x23 :: digits =>
      if digits ≠ [] ∧ digits.all isDigit then some (Utf8.encode (digitsValue digits)) else none
    | _ => none

/-- The text behind, or within a character reference whose name has been read so far. -/
def decodeReference : Option Bytes → Bytes → Option Bytes
  | none, [] => some []
  | some _, [] => none
  | none, b :: rest =>
    if b = 0x26 then decodeReference (some []) rest else (decodeReference none rest).map (b :: ·)
  | some name, b :: rest =>
    if b = 0x3B then do
      let text ← characterReference name
      (decodeReference none rest).map (text ++ ·)
    else decodeReference (some (name ++ [b])) rest

/-- The text that character references stand for; there is none if an ampersand begins no
reference. -/
def decodeEntities (text : Bytes) : Option Bytes := decodeReference none text

theorem decodeEntities_plain {b : UInt8} (h : b ≠ 0x26) (rest : Bytes) :
    decodeEntities (b :: rest) = (decodeEntities rest).map (b :: ·) := by
  rw [decodeEntities, decodeReference, if_neg h]
  rfl

theorem decodeReference_name {name more : Bytes} (hmore : 0x3B ∉ more) (rest : Bytes) :
    decodeReference (some name) (more ++ 0x3B :: rest) =
      (characterReference (name ++ more)).bind fun text => (decodeEntities rest).map (text ++ ·) := by
  induction more generalizing name with
  | nil =>
    rw [List.nil_append, List.append_nil, decodeReference, if_pos rfl]
    rfl
  | cons b more ih =>
    rw [List.mem_cons, not_or] at hmore
    rw [List.cons_append, decodeReference, if_neg (Ne.symm hmore.1), ih hmore.2, List.append_assoc,
      List.singleton_append]

theorem decodeEntities_reference {name text : Bytes} (hname : 0x3B ∉ name)
    (h : characterReference name = some text) (rest : Bytes) :
    decodeEntities (0x26 :: (name ++ 0x3B :: rest)) = (decodeEntities rest).map (text ++ ·) := by
  rw [decodeEntities, decodeReference, if_pos rfl, decodeReference_name hname, List.nil_append, h]
  rfl

end EquipmentMonitoring
