import EquipmentMonitoring.Gateway.Forwarder

/-!
# The HTTP Client (`http/client.cpp`)

A request is sent when it has at most 9 MiB. The response is collected by a callback that takes
whatever pieces the library hands over, and gives up when they would exceed 1 MiB. Its sizes are
machine words; under the bound on what was collected, none of them wraps.

## Key Results

- `receive_eq`: the callback takes a piece that fits, and no other
- `collect_bounded`: what was collected never exceeds the limit
- `transfer_eq`: pieces that fit together are all taken
-/

namespace EquipmentMonitoring.Client

open EquipmentMonitoring.Forwarder

def maxRequestBytes : Nat := 9 * 1024 * 1024

def maxResponseBytes : UInt64 := 1024 * 1024

/-! ## The Callback -/

/-- A piece of the response: `count` elements of `size` bytes. -/
structure Piece where
  size : UInt64
  count : UInt64
  data : Bytes
  whole : data.length = size.toNat * count.toNat

/-- The size of a text as `size_t`. -/
def bodySize (body : Bytes) : UInt64 := UInt64.ofNat body.length

/-- `receive`: how many bytes it took, and what is collected now. -/
def receive (piece : Piece) (body : Bytes) : UInt64 × Bytes :=
  if piece.size ≠ 0 ∧ piece.count > maxResponseBytes / piece.size then (0, body)
  else
    let bytes := piece.size * piece.count
    if bytes > maxResponseBytes - bodySize body then (0, body)
    else (bytes, body ++ piece.data.take bytes.toNat)

/-- What is collected after these pieces. -/
def collect (pieces : List Piece) : Bytes :=
  pieces.foldl (fun body piece => (receive piece body).2) []

/-- The library stops at a piece that was not taken whole. -/
def transfer : List Piece → Bytes → Option Bytes
  | [], body => some body
  | piece :: rest, body =>
    if (receive piece body).1.toNat = piece.data.length then transfer rest (receive piece body).2
    else none

/-! ## Arithmetic -/

section Arithmetic

variable {piece : Piece} {body : Bytes}

theorem maxResponseBytes_toNat : maxResponseBytes.toNat = 1048576 := rfl

/-- A piece that passes the first check has a size that does not wrap. -/
theorem mul_exact (h : ¬ (piece.size ≠ 0 ∧ piece.count > maxResponseBytes / piece.size)) :
    (piece.size * piece.count).toNat = piece.size.toNat * piece.count.toNat := by
  rw [UInt64.toNat_mul, Nat.mod_eq_of_lt]
  by_cases hsize : piece.size = 0
  · simp [hsize]
  · -- The guard divides, so the product cannot wrap around.
    have hcount : piece.count ≤ maxResponseBytes / piece.size := by
      rw [not_and, gt_iff_lt, UInt64.not_lt] at h
      exact h hsize
    rw [UInt64.le_iff_toNat_le, UInt64.toNat_div] at hcount
    calc piece.size.toNat * piece.count.toNat
        ≤ piece.size.toNat * (maxResponseBytes.toNat / piece.size.toNat) :=
          Nat.mul_le_mul_left _ hcount
      _ ≤ maxResponseBytes.toNat := Nat.mul_div_le _ _
      _ < 2 ^ 64 := by decide

/-- What is left under the limit does not wrap. -/
theorem sub_exact (h : body.length ≤ maxResponseBytes.toNat) :
    (maxResponseBytes - bodySize body).toNat = maxResponseBytes.toNat - body.length := by
  have hsize : (bodySize body).toNat = body.length := by
    rw [maxResponseBytes_toNat] at h
    rw [bodySize, UInt64.toNat_ofNat']
    exact Nat.mod_eq_of_lt (by omega)
  rw [UInt64.toNat_sub_of_le, hsize]
  rw [UInt64.le_iff_toNat_le, hsize]
  exact h

/-- The first check refuses only what the second one would. -/
theorem length_of_refused (h : piece.size ≠ 0 ∧ piece.count > maxResponseBytes / piece.size) :
    maxResponseBytes.toNat < piece.data.length := by
  obtain ⟨hsize, hcount⟩ := h
  have hpos : 0 < piece.size.toNat := Nat.pos_of_ne_zero fun hzero => hsize (UInt64.toNat_inj.mp hzero)
  rw [gt_iff_lt, UInt64.lt_iff_toNat_lt, UInt64.toNat_div, Nat.div_lt_iff_lt_mul hpos] at hcount
  rw [piece.whole, Nat.mul_comm]
  exact hcount

/-- The callback takes a piece that fits, and no other. -/
theorem receive_eq (h : body.length ≤ maxResponseBytes.toNat) :
    ((receive piece body).1.toNat, (receive piece body).2) =
      if body.length + piece.data.length ≤ maxResponseBytes.toNat then
        (piece.data.length, body ++ piece.data)
      else (0, body) := by
  have hmax := maxResponseBytes_toNat
  unfold receive
  split
  · next hrefused =>
    have hlong := length_of_refused hrefused
    rw [if_neg (by omega)]
    rfl
  · next hpassed =>
    -- the guard has excluded an overflow, so the product is the size of the piece
    have hbytes : (piece.size * piece.count).toNat = piece.data.length := by
      rw [mul_exact hpassed, piece.whole]
    simp only [gt_iff_lt, UInt64.lt_iff_toNat_lt, sub_exact h, hbytes]
    split
    · rw [if_neg (by omega)]
      rfl
    · rw [if_pos (by omega), List.take_length, hbytes]

theorem receive_bounded (h : body.length ≤ maxResponseBytes.toNat) :
    (receive piece body).2.length ≤ maxResponseBytes.toNat := by
  have hreceive : ((receive piece body).1.toNat, (receive piece body).2) = _ := receive_eq h
  rw [congrArg Prod.snd hreceive]
  split
  · rw [List.length_append]
    assumption
  · exact h

theorem collect_bounded (pieces : List Piece) :
    (collect pieces).length ≤ maxResponseBytes.toNat := by
  unfold collect
  induction pieces using List.reverseRecOn with
  | nil => exact Nat.zero_le _
  | append_singleton pieces piece ih =>
    rw [List.foldl_append]
    exact receive_bounded ih

/-- Pieces that fit together are all taken. -/
theorem transfer_eq (pieces : List Piece)
    (h : body.length + (pieces.flatMap Piece.data).length ≤ maxResponseBytes.toNat) :
    transfer pieces body = some (body ++ pieces.flatMap Piece.data) := by
  induction pieces generalizing body with
  | nil => simp [transfer]
  | cons piece rest ih =>
    rw [List.flatMap_cons, List.length_append] at h
    have hreceive : ((receive piece body).1.toNat, (receive piece body).2) = _ :=
      receive_eq (by omega)
    rw [if_pos (by omega), Prod.mk.injEq] at hreceive
    -- the callback took the whole piece, so curl goes on
    obtain ⟨htaken, hbody⟩ := hreceive
    rw [transfer, if_pos htaken, hbody, ih, List.flatMap_cons, List.append_assoc]
    rw [List.length_append]
    omega

end Arithmetic

/-! ## A Request -/

/-- What the library does for one request. -/
structure Attempt where
  handle : Bool
  contentType : Bool
  authorization : Bool
  pieces : List Piece
  failure : Option String
  status : Option Int

/-- `CurlClient::post_batch`. -/
def postBatch (stopping : Bool) (attempt : Attempt) (body : Bytes) : Except String Response :=
  if body.isEmpty || decide (body.length > maxRequestBytes) then
    .error "HTTP batch exceeds allowed size"
  else if stopping then .error "HTTP client is stopping"
  else if attempt.handle = false then .error "cannot create HTTP request"
  else if attempt.contentType = false then .error "cannot allocate HTTP headers"
  else if attempt.authorization = false then .error "cannot allocate HTTP authorization header"
  else
    match transfer attempt.pieces [], attempt.failure with
    -- receive refused a piece, which fails the transfer
    | none, _ => .error "HTTP request failed: Failed writing received data to disk/application"
    | some _, some what => .error ("HTTP request failed: " ++ what)
    | some text, none =>
      match attempt.status with
      | none => .error "cannot read HTTP response status"
      | some status =>
        if status < 0 ∨ status > 999 then .error "cannot read HTTP response status"
        else .ok ⟨status, text⟩

/-- Nothing but a size stands against a request. -/
structure Attempt.Answered (attempt : Attempt) (status : Int) : Prop where
  handle : attempt.handle = true
  contentType : attempt.contentType = true
  authorization : attempt.authorization = true
  failure : attempt.failure = none
  read : attempt.status = some status
  range : 0 ≤ status ∧ status ≤ 999

/-- A request and a response of allowed sizes are exchanged. -/
theorem postBatch_answered {attempt : Attempt} {status : Int} {body : Bytes}
    (h : attempt.Answered status) (hne : body ≠ []) (hbody : body.length ≤ maxRequestBytes)
    (hresponse : (attempt.pieces.flatMap Piece.data).length ≤ maxResponseBytes.toNat) :
    postBatch false attempt body = .ok ⟨status, attempt.pieces.flatMap Piece.data⟩ := by
  obtain ⟨hhandle, hcontent, hauthorization, hfailure, hstatus, hlow, hhigh⟩ := h
  have hsize : (body.isEmpty || decide (body.length > maxRequestBytes)) = false := by
    simp [hne, hbody]
  have htransfer : transfer attempt.pieces [] = some (attempt.pieces.flatMap Piece.data) :=
    transfer_eq attempt.pieces (by simpa using hresponse)
  have hrange : ¬ (status < 0 ∨ status > 999) := by omega
  simp [postBatch, hsize, hhandle, hcontent, hauthorization, htransfer, hfailure, hstatus, hrange]

end EquipmentMonitoring.Client
