import Mathlib.Tactic.Ring

/-! Byte-level CBOR as minicbor writes and reads it: the initial byte and its shortest
argument (`Encoder::type_len`), the `Decoder` reads the event codecs use, and the codec of
a field type, which carries its own round trip. -/
namespace ManyRs.Cbor

abbrev Bytes := List UInt8

/-- The errors of `minicbor::decode::Error` that the modelled decoders raise. -/
inductive DecodeError
  | endOfInput
  | typeMismatch (major : Nat)
  | overflow (value : Nat)
  | message (text : String)
  | unknownVariant (index : Nat)
  | missingValue (index : Nat)
  deriving Repr, DecidableEq

/-- A decoder reads a prefix of its input and returns what follows it. -/
def Decoder (α : Type) := Bytes → Except DecodeError (α × Bytes)

namespace Decoder

variable {α β γ : Type}

protected def pure (a : α) : Decoder α := fun s => .ok (a, s)

protected def bind (x : Decoder α) (f : α → Decoder β) : Decoder β := fun s =>
  match x s with
  | .ok (a, s') => f a s'
  | .error e => .error e

instance : Monad Decoder where
  pure := Decoder.pure
  bind := Decoder.bind

def fail (e : DecodeError) : Decoder α := fun _ => .error e

@[simp] theorem pure_apply (a : α) (s : Bytes) : (pure a : Decoder α) s = .ok (a, s) := rfl

@[simp] theorem fail_apply (e : DecodeError) (s : Bytes) : (fail e : Decoder α) s = .error e :=
  rfl

theorem bind_apply (x : Decoder α) (f : α → Decoder β) (s : Bytes) :
    (x >>= f) s = match x s with
      | .ok (a, s') => f a s'
      | .error e => .error e := rfl

theorem bind_of_ok {x : Decoder α} {s s' : Bytes} {a : α} (h : x s = .ok (a, s'))
    (f : α → Decoder β) : (x >>= f) s = f a s' := by
  simp [bind_apply, h]

@[simp] theorem pure_bind (a : α) (f : α → Decoder β) : (pure a >>= f) = f a := rfl

@[simp] theorem bind_assoc (x : Decoder α) (f : α → Decoder β) (g : β → Decoder γ) :
    (x >>= f >>= g) = x >>= fun a => f a >>= g := by
  funext s
  simp only [bind_apply]
  cases x s with
  | error e => rfl
  | ok p => rfl

@[simp] theorem fail_bind (e : DecodeError) (f : α → Decoder β) :
    (fail e >>= f) = fail e := rfl

@[simp] theorem map_eq_bind (f : α → β) (x : Decoder α) :
    (f <$> x) = x >>= fun a => pure (f a) := rfl

end Decoder

open Decoder

/-- One byte of input. -/
def readByte : Decoder UInt8
  | [] => .error .endOfInput
  | b :: s => .ok (b, s)

/-- The next `k` bytes as a big-endian number, added below `acc`. -/
def readBE : Nat → Nat → Decoder Nat
  | 0, acc => pure acc
  | k+1, acc => readByte >>= fun b => readBE k (acc * 256 + b.toNat)

/-- The `k` big-endian bytes of `n` (its low `8k` bits). -/
def beBytes : Nat → Nat → Bytes
  | 0, _ => []
  | k+1, n => UInt8.ofNat (n / 256 ^ k % 256) :: beBytes k n

@[simp] theorem readByte_cons (b : UInt8) (s : Bytes) : readByte (b :: s) = .ok (b, s) := rfl

@[simp] theorem beBytes_length (k n : Nat) : (beBytes k n).length = k := by
  induction k with
  | zero => rfl
  | succ k ih => simp [beBytes, ih]

theorem readBE_beBytes (k acc n : Nat) (rest : Bytes) :
    readBE k acc (beBytes k n ++ rest) = .ok (acc * 256 ^ k + n % 256 ^ k, rest) := by
  induction k generalizing acc with
  | zero => simp [readBE, beBytes, Nat.mod_one]
  | succ k ih =>
    have hb : (UInt8.ofNat (n / 256 ^ k % 256)).toNat = n / 256 ^ k % 256 :=
      UInt8.toNat_ofNat_of_lt (Nat.mod_lt _ (by decide))
    simp only [readBE, beBytes, List.cons_append, bind_of_ok (readByte_cons _ _), hb, ih,
      Nat.mod_pow_succ]
    congr 2
    ring

/-- The number big-endian bytes stand for (`BigUint::from_bytes_be`). -/
def fromBytesBE (b : Bytes) : Nat := b.foldl (fun acc x => acc * 256 + x.toNat) 0

@[simp] theorem fromBytesBE_nil : fromBytesBE [] = 0 := rfl

theorem fromBytesBE_append_singleton (b : Bytes) (x : UInt8) :
    fromBytesBE (b ++ [x]) = fromBytesBE b * 256 + x.toNat := by
  simp [fromBytesBE, List.foldl_append]

theorem foldl_beBytes (k acc n : Nat) :
    (beBytes k n).foldl (fun acc x => acc * 256 + x.toNat) acc = acc * 256 ^ k + n % 256 ^ k := by
  induction k generalizing acc with
  | zero => simp [beBytes, Nat.mod_one]
  | succ k ih =>
    have hb : (UInt8.ofNat (n / 256 ^ k % 256)).toNat = n / 256 ^ k % 256 :=
      UInt8.toNat_ofNat_of_lt (Nat.mod_lt _ (by decide))
    simp only [beBytes, List.foldl_cons, hb, ih, Nat.mod_pow_succ]
    ring

@[simp] theorem fromBytesBE_beBytes (k n : Nat) : fromBytesBE (beBytes k n) = n % 256 ^ k := by
  simp [fromBytesBE, foldl_beBytes]

/-- The value of the additional information `info` of an initial byte: itself below 24,
the next 1, 2, 4 or 8 bytes for 24 to 27, and `none` (indefinite length) for 31. -/
def argument (info : Nat) : Decoder (Option Nat) :=
  if info < 24 then pure (some info)
  else if info = 24 then some <$> readBE 1 0
  else if info = 25 then some <$> readBE 2 0
  else if info = 26 then some <$> readBE 4 0
  else if info = 27 then some <$> readBE 8 0
  else if info = 31 then pure none
  else fail (.message "reserved additional information")

/-- An initial byte and its argument: the major type and the argument. -/
def decodeHead : Decoder (Nat × Option Nat) := do
  let b ← readByte
  let arg ← argument (b.toNat % 32)
  pure (b.toNat / 32, arg)

/-- `Encoder::type_len`: the initial byte of major type `major` and the shortest
encoding of `n`. -/
def encodeHead (major n : Nat) : Bytes :=
  if n < 24 then [UInt8.ofNat (major * 32 + n)]
  else if n < 2 ^ 8 then UInt8.ofNat (major * 32 + 24) :: beBytes 1 n
  else if n < 2 ^ 16 then UInt8.ofNat (major * 32 + 25) :: beBytes 2 n
  else if n < 2 ^ 32 then UInt8.ofNat (major * 32 + 26) :: beBytes 4 n
  else UInt8.ofNat (major * 32 + 27) :: beBytes 8 n

theorem decodeHead_initial {major info : Nat} (hm : major < 8) (hi : info < 32) (s : Bytes) :
    decodeHead (UInt8.ofNat (major * 32 + info) :: s) =
      (argument info >>= fun a => pure (major, a)) s := by
  have hb : (UInt8.ofNat (major * 32 + info)).toNat = major * 32 + info :=
    UInt8.toNat_ofNat_of_lt (by show _ < 256; omega)
  have h1 : (major * 32 + info) % 32 = info := by omega
  have h2 : (major * 32 + info) / 32 = major := by omega
  simp only [decodeHead, bind_assoc, bind_of_ok (readByte_cons _ _), hb, h1, h2]

theorem readBE_bind (k n : Nat) (hn : n < 256 ^ k) {α : Type} (f : Nat → Decoder α)
    (rest : Bytes) : (readBE k 0 >>= f) (beBytes k n ++ rest) = f n rest := by
  have hr := readBE_beBytes k 0 n rest
  rw [Nat.mod_eq_of_lt hn, Nat.zero_mul, Nat.zero_add] at hr
  exact bind_of_ok hr f

theorem decodeHead_encodeHead {major n : Nat} (hm : major < 8) (hn : n < 2 ^ 64)
    (rest : Bytes) : decodeHead (encodeHead major n ++ rest) = .ok ((major, some n), rest) := by
  unfold encodeHead
  split_ifs with h0 h1 h2 h3
  · rw [List.singleton_append, decodeHead_initial hm (by omega)]
    simp [argument, h0]
  · rw [List.cons_append, decodeHead_initial hm (by omega)]
    simp [argument, readBE_bind 1 n (by omega)]
  · rw [List.cons_append, decodeHead_initial hm (by omega)]
    simp [argument, readBE_bind 2 n (by omega)]
  · rw [List.cons_append, decodeHead_initial hm (by omega)]
    simp [argument, readBE_bind 4 n (by omega)]
  · rw [List.cons_append, decodeHead_initial hm (by omega)]
    simp [argument, readBE_bind 8 n (by omega)]

theorem decodeHead_bind (major n : Nat) (hm : major < 8) (hn : n < 2 ^ 64)
    {α : Type} (f : Nat × Option Nat → Decoder α) (rest : Bytes) :
    (decodeHead >>= f) (encodeHead major n ++ rest) = f (major, some n) rest :=
  bind_of_ok (decodeHead_encodeHead hm hn rest) f

/-- The next `n` bytes. -/
def take (n : Nat) : Decoder Bytes := fun s =>
  if n ≤ s.length then .ok (s.take n, s.drop n) else .error .endOfInput

/-- `Decoder::u8`, `u32` and `u64`: an unsigned integer, refused above the type's
maximum `max`. -/
def unsigned (max : Nat) : Decoder Nat := do
  match ← decodeHead with
  | (0, some n) => if n ≤ max then pure n else fail (.overflow n)
  | (major, _) => fail (.typeMismatch major)

def u8 : Decoder Nat := unsigned 255
def u32 : Decoder Nat := unsigned (2 ^ 32 - 1)
def u64 : Decoder Nat := unsigned (2 ^ 64 - 1)

/-- `Decoder::map`: the length of a map, `none` when it is indefinite. -/
def map : Decoder (Option Nat) := do
  match ← decodeHead with
  | (5, len) => pure len
  | (major, _) => fail (.typeMismatch major)

/-- `Decoder::bytes`: a definite-length byte string. -/
def bytes : Decoder Bytes := do
  match ← decodeHead with
  | (2, some n) => take n
  | (major, _) => fail (.typeMismatch major)

/-- `Encoder::u8`, `u32` and `u64`. -/
def encodeUnsigned (n : Nat) : Bytes := encodeHead 0 n

/-- `Encoder::map`. -/
def encodeMap (len : Nat) : Bytes := encodeHead 5 len

/-- `Encoder::bytes`. -/
def encodeBytes (b : Bytes) : Bytes := encodeHead 2 b.length ++ b

/-- A text string: its UTF-8 bytes behind a head of major type 3. -/
def encodeText (s : String) : Bytes := encodeHead 3 s.toUTF8.toList.length ++ s.toUTF8.toList

/-- A definite array of text strings, as `minicbor` writes a `Vec<String>`. -/
def encodeTextArray (l : List String) : Bytes := encodeHead 4 l.length ++ (l.map encodeText).flatten

/-- The first byte of a head carries its major type in its top three bits. -/
theorem encodeHead_major {major : Nat} (hm : major < 8) (n : Nat) :
    (encodeHead major n).head?.map (fun b => b.toNat / 32) = some major := by
  have h : ∀ k, k < 32 → (UInt8.ofNat (major * 32 + k)).toNat / 32 = major := fun k hk => by
    rw [UInt8.toNat_ofNat_of_lt (by show _ < 256; omega)]; omega
  unfold encodeHead
  split_ifs <;> simp only [List.head?_cons, Option.map_some'] <;> rw [h _ (by omega)]

section RoundTrip

variable {α : Type} (f : Nat → Decoder α) (rest : Bytes)

theorem unsigned_bind {n max : Nat} (hn : n ≤ max) (hmax : max < 2 ^ 64) :
    (unsigned max >>= f) (encodeUnsigned n ++ rest) = f n rest := by
  simp [unsigned, encodeUnsigned, decodeHead_bind 0 n (by decide) (by omega), hn]

theorem map_bind {len : Nat} (hlen : len < 2 ^ 64) (g : Option Nat → Decoder α) :
    (map >>= g) (encodeMap len ++ rest) = g (some len) rest := by
  simp [map, encodeMap, decodeHead_bind 5 len (by decide) hlen]

theorem bytes_bind {b : Bytes} (hb : b.length < 2 ^ 64) (g : Bytes → Decoder α) :
    (bytes >>= g) (encodeBytes b ++ rest) = g b rest := by
  simp only [bytes, encodeBytes, List.append_assoc, bind_assoc,
    decodeHead_bind 2 _ (by decide) hb]
  exact bind_of_ok (by simp [take]) g

end RoundTrip

/-- The codec of a field type as the event macros use it: its encoder, its decoder, and
that the decoder reads back exactly what the encoder wrote, whatever follows it. -/
structure Codec (α : Type) where
  encode : α → Bytes
  decode : Decoder α
  decode_encode : ∀ a rest, decode (encode a ++ rest) = .ok (a, rest)

theorem Codec.decode_bind {α β : Type} (c : Codec α) (a : α) (g : α → Decoder β)
    (rest : Bytes) : (c.decode >>= g) (c.encode a ++ rest) = g a rest :=
  bind_of_ok (c.decode_encode a rest) g

/-- A byte string with each byte escaped by a 1 and a 0 at the end: a prefix-free encoding
that reads back from any stream it starts, for the codecs of concrete environments. -/
def escape : Bytes → Bytes
  | [] => [0]
  | b :: bs => 1 :: b :: escape bs

def unescape : Bytes → Except DecodeError (Bytes × Bytes)
  | 0 :: rest => .ok ([], rest)
  | 1 :: b :: rest => (unescape rest).map fun r => (b :: r.1, r.2)
  | _ => .error .endOfInput

theorem unescape_escape (b rest : Bytes) : unescape (escape b ++ rest) = .ok (b, rest) := by
  induction b with
  | nil => rfl
  | cons x b ih => simp [escape, unescape, ih, Except.map]

theorem escape_append_injective {a b rest rest' : Bytes}
    (h : escape a ++ rest = escape b ++ rest') : a = b ∧ rest = rest' := by
  have := (unescape_escape a rest).symm.trans (h ▸ unescape_escape b rest')
  simpa using this

end ManyRs.Cbor
