import ManyRs.Cbor.Basic
import ManyRs.Store.Merk
import Mathlib.Data.Nat.Digits

/-! `EventId`, the big-endian byte string that numbers events, with the `BigUint`
conversions its arithmetic goes through, its CBOR codec and its derived order. The order
compares bytes, while the arithmetic writes the shortest bytes of a number, so an id that
gains a byte sorts below the ids it follows. -/
namespace ManyRs.Events
open ManyRs.Cbor

/-- `BigUint::to_bytes_be`: the shortest big-endian bytes, `[0]` for zero. -/
def toBytesBE (n : Nat) : Bytes :=
  if n = 0 then [0] else ((Nat.digits 256 n).map UInt8.ofNat).reverse

theorem fromBytesBE_digits {l : List Nat} (hl : ∀ d ∈ l, d < 256) :
    fromBytesBE (l.map UInt8.ofNat).reverse = Nat.ofDigits 256 l := by
  induction l with
  | nil => rfl
  | cons d l ih =>
    have hd : (UInt8.ofNat d).toNat = d :=
      UInt8.toNat_ofNat_of_lt (hl d (List.mem_cons_self d l))
    rw [List.map_cons, List.reverse_cons, fromBytesBE_append_singleton, hd,
      ih fun e he => hl e (List.mem_cons_of_mem d he), Nat.ofDigits_cons]
    ring

@[simp] theorem fromBytesBE_toBytesBE (n : Nat) : fromBytesBE (toBytesBE n) = n := by
  unfold toBytesBE
  split_ifs with h
  · simp [h, fromBytesBE]
  · rw [fromBytesBE_digits fun d hd => Nat.digits_lt_base (by decide) hd, Nat.ofDigits_digits]

/-- `EventId(ByteVec)`. -/
structure EventId where
  bytes : Bytes
  deriving DecidableEq, Repr

namespace EventId

/-- `From<u64>`: the eight bytes of `v.to_be_bytes()`. -/
def ofU64 (v : UInt64) : EventId := ⟨beBytes 8 v.toNat⟩

/-- `From<BigUint>`. -/
def ofBigUint (n : Nat) : EventId := ⟨toBytesBE n⟩

/-- The number an id stands for: `BigUint::from_bytes_be` of its bytes. -/
def value (id : EventId) : Nat := fromBytesBE id.bytes

/-- `Add<u32>` (and `AddAssign<u32>`, which replaces the id by this sum). -/
def addU32 (id : EventId) (rhs : UInt32) : EventId := ofBigUint (id.value + rhs.toNat)

@[simp] theorem value_ofBigUint (n : Nat) : (ofBigUint n).value = n :=
  fromBytesBE_toBytesBE n

@[simp] theorem value_addU32 (id : EventId) (rhs : UInt32) :
    (id.addU32 rhs).value = id.value + rhs.toNat := by
  simp [addU32]

/-- `Encode`: the id as a CBOR byte string. -/
def encode (id : EventId) : Bytes := encodeBytes id.bytes

/-- `Decode`: a CBOR byte string. -/
def decode : Decoder EventId := (fun b => ⟨b⟩) <$> Cbor.bytes

theorem decode_bind (id : EventId) (hid : id.bytes.length < 2 ^ 64) {α : Type}
    (f : EventId → Decoder α) (rest : Bytes) : (decode >>= f) (id.encode ++ rest) = f id rest := by
  simp only [decode, Decoder.map_eq_bind, Decoder.bind_assoc, Decoder.pure_bind, encode]
  exact bytes_bind rest hid _

/-- The derived `Ord for EventId`: its bytes compared as a `Vec<u8>`. -/
def lt (a b : EventId) : Bool := Store.keyLt a.bytes b.bytes

end EventId

theorem digits_pow_sub_one (k : Nat) : Nat.digits 256 (256 ^ k - 1) = List.replicate k 255 := by
  induction k with
  | zero => simp
  | succ k ih =>
    have hk : 256 ^ (k + 1) - 1 = 255 + 256 * (256 ^ k - 1) := by
      have := Nat.one_le_pow k 256 (by norm_num)
      rw [pow_succ]
      omega
    rw [hk, Nat.digits_add 256 (by norm_num) 255 _ (by norm_num) (Or.inl (by norm_num)), ih,
      List.replicate_succ]

theorem digits_pow (k : Nat) : Nat.digits 256 (256 ^ k) = List.replicate k 0 ++ [1] := by
  induction k with
  | zero => norm_num
  | succ k ih =>
    rw [pow_succ, mul_comm, ← zero_add (256 * _),
      Nat.digits_add 256 (by norm_num) 0 _ (by norm_num) (Or.inr (by positivity)), ih]
    rfl

/-- The `k` bytes `ff .. ff` of `256 ^ k - 1`. -/
theorem toBytesBE_pow_sub_one {k : Nat} (hk : 1 ≤ k) :
    toBytesBE (256 ^ k - 1) = List.replicate k 0xff := by
  have h : 256 ^ k - 1 ≠ 0 := by
    have := Nat.pow_le_pow_right (show 0 < 256 by norm_num) hk
    omega
  rw [toBytesBE, if_neg h, digits_pow_sub_one, List.map_replicate, List.reverse_replicate]
  rfl

/-- The `k + 1` bytes `01 00 .. 00` of `256 ^ k`. -/
theorem toBytesBE_pow (k : Nat) : toBytesBE (256 ^ k) = 1 :: List.replicate k 0 := by
  rw [toBytesBE, if_neg (by positivity), digits_pow, List.map_append, List.map_replicate,
    List.reverse_append, List.reverse_replicate]
  rfl

/-- At every width `k` the id `ff .. ff` has successor `01 00 .. 00`, one byte longer, and
the derived order puts the successor first. -/
theorem successor_sorts_first (k : Nat) (hk : 1 ≤ k) :
    (EventId.ofBigUint (256 ^ k - 1)).addU32 1 = EventId.ofBigUint (256 ^ k) ∧
    (EventId.ofBigUint (256 ^ k)).lt (EventId.ofBigUint (256 ^ k - 1)) = true ∧
    (EventId.ofBigUint (256 ^ k - 1)).lt (EventId.ofBigUint (256 ^ k)) = false := by
  have hpos := Nat.one_le_pow k 256 (by norm_num)
  obtain ⟨j, rfl⟩ : ∃ j, k = j + 1 := ⟨k - 1, by omega⟩
  refine ⟨?_, ?_, ?_⟩
  · rw [EventId.addU32, EventId.value_ofBigUint]
    congr 1
    simp
    omega
  · simp [EventId.lt, EventId.ofBigUint, toBytesBE_pow, toBytesBE_pow_sub_one hk,
      List.replicate_succ, Store.keyLt]
  · simp [EventId.lt, EventId.ofBigUint, toBytesBE_pow, toBytesBE_pow_sub_one hk,
      List.replicate_succ, Store.keyLt]

theorem successor_sorts_first_at_ff : 1 ≤ 1 ∧
    ((EventId.ofBigUint (256 ^ 1 - 1)).addU32 1 = EventId.ofBigUint (256 ^ 1) ∧
    (EventId.ofBigUint (256 ^ 1)).lt (EventId.ofBigUint (256 ^ 1 - 1)) = true ∧
    (EventId.ofBigUint (256 ^ 1 - 1)).lt (EventId.ofBigUint (256 ^ 1)) = false) :=
  ⟨le_rfl, successor_sorts_first 1 le_rfl⟩

end ManyRs.Events
