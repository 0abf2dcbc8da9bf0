import ManyRs.Cbor.Basic
import ManyRs.Cbor.Map

/-! `many_types::cbor::CborAny`, a CBOR value of any shape, with the codec `cbor.rs` gives it.
The encoder writes definite lengths and a map's entries in key order. The decoder
dispatches on `Decoder::datatype`, reads definite or indefinite arrays and maps, and
collects a map's entries into a `BTreeMap`. -/
namespace ManyRs.Cbor

open Decoder

/-- Modelled from the spec: the lead bytes of a multi-byte UTF-8 sequence, with the range
its second byte must lie in and the sequence's length (`core::str::from_utf8`,
RFC 3629). Overlong forms, surrogates and code points above U+10FFFF are refused. -/
def leadRange (b : UInt8) : Option (UInt8 × UInt8 × Nat) :=
  if 0xC2 ≤ b ∧ b ≤ 0xDF then some (0x80, 0xBF, 2)
  else if b = 0xE0 then some (0xA0, 0xBF, 3)
  else if 0xE1 ≤ b ∧ b ≤ 0xEC then some (0x80, 0xBF, 3)
  else if b = 0xED then some (0x80, 0x9F, 3)
  else if 0xEE ≤ b ∧ b ≤ 0xEF then some (0x80, 0xBF, 3)
  else if b = 0xF0 then some (0x90, 0xBF, 4)
  else if 0xF1 ≤ b ∧ b ≤ 0xF3 then some (0x80, 0xBF, 4)
  else if b = 0xF4 then some (0x80, 0x8F, 4)
  else none

def isContinuation (c : UInt8) : Bool := 0x80 ≤ c ∧ c ≤ 0xBF

/-- Modelled from the spec: `core::str::from_utf8` accepts exactly the byte strings that
are sequences of well-formed UTF-8 characters. -/
def validUtf8 : Bytes → Bool
  | [] => true
  | b :: rest =>
    if b < 0x80 then validUtf8 rest else
    match leadRange b, rest with
    | some (lo, hi, 2), c :: rest => decide (lo ≤ c ∧ c ≤ hi) && validUtf8 rest
    | some (lo, hi, 3), c :: d :: rest =>
      decide (lo ≤ c ∧ c ≤ hi) && isContinuation d && validUtf8 rest
    | some (lo, hi, 4), c :: d :: e :: rest =>
      decide (lo ≤ c ∧ c ≤ hi) && isContinuation d && isContinuation e && validUtf8 rest
    | _, _ => false

/-- A Rust `String`: its UTF-8 bytes. -/
structure Utf8String where
  bytes : Bytes
  valid : validUtf8 bytes = true

/-- Two valid strings joined are valid, as `str_iter().collect().join("")` relies on. -/
theorem validUtf8_append (a c : Bytes) (ha : validUtf8 a = true) (hc : validUtf8 c = true) :
    validUtf8 (a ++ c) = true := by
  induction a using validUtf8.induct with
  | case1 => exact hc
  | case2 b rest hb ih =>
    rw [List.cons_append, validUtf8.eq_def]
    rw [validUtf8.eq_def] at ha
    simp only [hb, if_true] at ha ⊢
    exact ih ha
  | case3 b hb lo hi c' rest hl ih | case4 b hb lo hi c' d rest hl ih
  | case5 b hb lo hi c' d e rest hl ih =>
    rw [List.cons_append, validUtf8.eq_def]
    rw [validUtf8.eq_def] at ha
    simp only [hb, hl, if_false, List.cons_append, Bool.and_eq_true] at ha ⊢
    exact ⟨ha.1, ih ha.2⟩
  | case6 b rest hb h2 h3 h4 =>
    rw [validUtf8.eq_def] at ha
    simp only [hb, if_false] at ha
    cases ha

/-- `String + &str`. -/
def Utf8String.append (a c : Utf8String) : Utf8String :=
  ⟨a.bytes ++ c.bytes, validUtf8_append _ _ a.valid c.valid⟩

/-- `Ord for Vec<T>` over an element order: lexicographic, a proper prefix first. -/
def compareLex {α : Type} (c : α → α → Ordering) : List α → List α → Ordering
  | [], [] => .eq
  | [], _ :: _ => .lt
  | _ :: _, [] => .gt
  | a :: as, b :: bs => (c a b).then (compareLex c as bs)

/-- `Ord for String`: its bytes compared as a `Vec<u8>`. -/
def Utf8String.compare (a b : Utf8String) : Ordering := compareLex Ord.compare a.bytes b.bytes

theorem then_swap (x y : Ordering) : (x.then y).swap = x.swap.then y.swap := by
  cases x <;> rfl

theorem compareLex_swap {α : Type} (c : α → α → Ordering) (hc : ∀ a b, c b a = (c a b).swap) :
    ∀ l l' : List α, compareLex c l' l = (compareLex c l l').swap
  | [], [] => rfl
  | [], _ :: _ => rfl
  | _ :: _, [] => rfl
  | a :: as, b :: bs => by
    rw [compareLex, compareLex, then_swap, hc a b, compareLex_swap c hc as bs]

theorem compare_swap_uint8 (a b : UInt8) : Ord.compare b a = (Ord.compare a b).swap := by
  have hlt : ∀ x y : UInt8, x < y ↔ x.toNat < y.toNat := fun _ _ => Iff.rfl
  have heq : ∀ x y : UInt8, x = y ↔ x.toNat = y.toNat := fun _ _ => ⟨congrArg _, UInt8.toNat.inj⟩
  simp only [Ord.compare, compareOfLessAndEq, hlt, heq]
  split_ifs <;> first | rfl | omega

theorem Utf8String.compare_swap (a b : Utf8String) : b.compare a = (a.compare b).swap :=
  compareLex_swap _ compare_swap_uint8 a.bytes b.bytes

/-- `Encoder::str`. -/
def encodeStr (s : Utf8String) : Bytes := encodeHead 3 s.bytes.length ++ s.bytes

/-- A Rust `i64`. -/
@[ext] structure I64 where
  val : Int
  lo : -2 ^ 63 ≤ val
  hi : val < 2 ^ 63

/-- Modelled from the spec: minicbor 0.19's `data::Tag`, the IANA tags it names and
`Unassigned` for every other number. -/
inductive Tag
  | dateTime
  | timestamp
  | posBignum
  | negBignum
  | decimal
  | bigfloat
  | toBase64Url
  | toBase64
  | toBase16
  | cbor
  | uri
  | base64Url
  | base64
  | regex
  | mime
  | unassigned (n : UInt64)
  deriving DecidableEq, Repr

namespace Tag

/-- Modelled from the spec: `Tag::from`, which `Decoder::tag` applies to the number it
reads: a named number is its named tag. -/
def «from» (n : UInt64) : Tag :=
  match n.toNat with
  | 0x00 => .dateTime
  | 0x01 => .timestamp
  | 0x02 => .posBignum
  | 0x03 => .negBignum
  | 0x04 => .decimal
  | 0x05 => .bigfloat
  | 0x15 => .toBase64Url
  | 0x16 => .toBase64
  | 0x17 => .toBase16
  | 0x18 => .cbor
  | 0x20 => .uri
  | 0x21 => .base64Url
  | 0x22 => .base64
  | 0x23 => .regex
  | 0x24 => .mime
  | _ => .unassigned n

/-- Modelled from the spec: `Tag::numeric`, the number `Encoder::tag` writes. -/
def numeric : Tag → UInt64
  | .dateTime => 0x00
  | .timestamp => 0x01
  | .posBignum => 0x02
  | .negBignum => 0x03
  | .decimal => 0x04
  | .bigfloat => 0x05
  | .toBase64Url => 0x15
  | .toBase64 => 0x16
  | .toBase16 => 0x17
  | .cbor => 0x18
  | .uri => 0x20
  | .base64Url => 0x21
  | .base64 => 0x22
  | .regex => 0x23
  | .mime => 0x24
  | .unassigned n => n

/-- The tag a decoder gives back for this one: `Unassigned(n)` of a named number `n` is not. -/
def canonical (t : Tag) : Bool := decide («from» t.numeric = t)

/-- The position of a variant in the declaration. -/
def index : Tag → Nat
  | .dateTime => 0
  | .timestamp => 1
  | .posBignum => 2
  | .negBignum => 3
  | .decimal => 4
  | .bigfloat => 5
  | .toBase64Url => 6
  | .toBase64 => 7
  | .toBase16 => 8
  | .cbor => 9
  | .uri => 10
  | .base64Url => 11
  | .base64 => 12
  | .regex => 13
  | .mime => 14
  | .unassigned _ => 15

/-- The derived `Ord for Tag`: the variant, then the number of an `Unassigned`. -/
def compare : Tag → Tag → Ordering
  | .unassigned m, .unassigned n => Ord.compare m n
  | a, b => Ord.compare a.index b.index

end Tag

/-- `CborAny`, with a `BTreeMap` known through its entries in key order. -/
inductive CborAny
  | bool (b : Bool)
  | int (i : I64)
  | string (s : Utf8String)
  | bytes (b : Bytes)
  | array (items : List CborAny)
  | map (entries : List (CborAny × CborAny))
  | tagged (tag : Tag) (value : CborAny)

namespace CborAny

/-- The position of a variant in the declaration, which the derived `Ord` compares first. -/
def rank : CborAny → Nat
  | .bool _ => 0
  | .int _ => 1
  | .string _ => 2
  | .bytes _ => 3
  | .array _ => 4
  | .map _ => 5
  | .tagged _ _ => 6

mutual
/-- The derived `Ord for CborAny`: the variant first, then its fields; a map compares as
the sequence of its entries. -/
def compare : CborAny → CborAny → Ordering
  | .bool a, .bool b => Ord.compare a b
  | .int a, .int b => Ord.compare a.val b.val
  | .string a, .string b => a.compare b
  | .bytes a, .bytes b => compareLex Ord.compare a b
  | .array a, .array b => compareItems a b
  | .map a, .map b => compareEntries a b
  | .tagged t a, .tagged u b => (t.compare u).then (compare a b)
  | a, b => Ord.compare a.rank b.rank
def compareItems : List CborAny → List CborAny → Ordering
  | [], [] => .eq
  | [], _ :: _ => .lt
  | _ :: _, [] => .gt
  | a :: as, b :: bs => (compare a b).then (compareItems as bs)
def compareEntries : List (CborAny × CborAny) → List (CborAny × CborAny) → Ordering
  | [], [] => .eq
  | [], _ :: _ => .lt
  | _ :: _, [] => .gt
  | (k, v) :: as, (k', v') :: bs =>
    ((compare k k').then (compare v v')).then (compareEntries as bs)
end

mutual
/-- What every Rust value of the type satisfies: lengths fit the `u64` of a CBOR head, and
a map's keys are strictly increasing (`BTreeMap`'s invariant). -/
def wellFormed : CborAny → Bool
  | .string s => decide (s.bytes.length < 2 ^ 64)
  | .bytes b => decide (b.length < 2 ^ 64)
  | .array items => decide (items.length < 2 ^ 64) && itemsWellFormed items
  | .map entries =>
    decide (entries.length < 2 ^ 64) && decide (SortedKeys compare entries) &&
      entriesWellFormed entries
  | .tagged _ v => wellFormed v
  | .bool _ | .int _ => true
def itemsWellFormed : List CborAny → Bool
  | [] => true
  | x :: xs => wellFormed x && itemsWellFormed xs
def entriesWellFormed : List (CborAny × CborAny) → Bool
  | [] => true
  | (k, v) :: es => wellFormed k && wellFormed v && entriesWellFormed es
end

mutual
/-- Every tag in the value is canonical. -/
def canonicalTags : CborAny → Bool
  | .array items => itemsCanonicalTags items
  | .map entries => entriesCanonicalTags entries
  | .tagged t v => t.canonical && canonicalTags v
  | .string _ | .bytes _ | .bool _ | .int _ => true
def itemsCanonicalTags : List CborAny → Bool
  | [] => true
  | x :: xs => canonicalTags x && itemsCanonicalTags xs
def entriesCanonicalTags : List (CborAny × CborAny) → Bool
  | [] => true
  | (k, v) :: es => canonicalTags k && canonicalTags v && entriesCanonicalTags es
end

/-- `Encoder::i64`: major type 0 for a non-negative value, else major type 1 with
`-1 - i`. -/
def encodeI64 (i : I64) : Bytes :=
  if 0 ≤ i.val then encodeHead 0 i.val.toNat else encodeHead 1 (-1 - i.val).toNat

mutual
/-- `Encode for CborAny`. -/
def encode : CborAny → Bytes
  | .bool b => [if b then 0xf5 else 0xf4]
  | .int i => encodeI64 i
  | .string s => encodeStr s
  | .bytes b => encodeBytes b
  | .array items => encodeHead 4 items.length ++ encodeItems items
  | .map entries => encodeHead 5 entries.length ++ encodeEntries entries
  | .tagged t v => encodeHead 6 t.numeric.toNat ++ encode v
def encodeItems : List CborAny → Bytes
  | [] => []
  | x :: xs => encode x ++ encodeItems xs
def encodeEntries : List (CborAny × CborAny) → Bytes
  | [] => []
  | (k, v) :: es => encode k ++ encode v ++ encodeEntries es
end

end CborAny

/-- `minicbor::data::Type`, as far as the decoders of this repository tell types apart. -/
inductive DataType
  | bool
  | unsigned
  | negative
  | bytes
  | bytesIndef
  | string
  | stringIndef
  | array
  | arrayIndef
  | map
  | mapIndef
  | tag
  | break_
  | other (major : Nat)
  deriving DecidableEq, Repr

/-- The major type a `DataType` belongs to, which a type mismatch reports. -/
def DataType.major : DataType → Nat
  | .unsigned => 0
  | .negative => 1
  | .bytes | .bytesIndef => 2
  | .string | .stringIndef => 3
  | .array | .arrayIndef => 4
  | .map | .mapIndef => 5
  | .tag => 6
  | .bool | .break_ => 7
  | .other major => major

/-- The type an initial byte announces (`Decoder::datatype`); reserved additional
information, `null`, `undefined`, simple values and floats are `other`. -/
def dataType (b : UInt8) : DataType :=
  let info := b.toNat % 32
  match b.toNat / 32 with
  | 0 => if info < 28 then .unsigned else .other 0
  | 1 => if info < 28 then .negative else .other 1
  | 2 => if info < 28 then .bytes else if info = 31 then .bytesIndef else .other 2
  | 3 => if info < 28 then .string else if info = 31 then .stringIndef else .other 3
  | 4 => if info < 28 then .array else if info = 31 then .arrayIndef else .other 4
  | 5 => if info < 28 then .map else if info = 31 then .mapIndef else .other 5
  | 6 => if info < 28 then .tag else .other 6
  | major => if info = 20 ∨ info = 21 then .bool else if info = 31 then .break_ else .other major

/-- `Decoder::datatype` reads the next byte without consuming it. -/
def peekByte : Decoder UInt8 := fun s =>
  match s with
  | [] => .error .endOfInput
  | b :: _ => .ok (b, s)

/-- `Decoder::bool`. -/
def bool : Decoder Bool := do
  let b ← readByte
  if b = 0xf5 then pure true else if b = 0xf4 then pure false
  else fail (.typeMismatch (b.toNat / 32))

/-- `Decoder::i64`: an unsigned or negative integer, refused outside `i64`. -/
def i64 : Decoder I64 := do
  match ← decodeHead with
  | (0, some n) =>
    if h : n < 2 ^ 63 then pure ⟨n, by omega, by omega⟩ else fail (.overflow n)
  | (1, some n) =>
    if h : n < 2 ^ 63 then pure ⟨-1 - n, by omega, by omega⟩ else fail (.overflow n)
  | (major, _) => fail (.typeMismatch major)

/-- `Decoder::str`: a definite text string, refused unless it is UTF-8. -/
def str : Decoder Utf8String := do
  match ← decodeHead with
  | (3, some n) => do
    let b ← take n
    if h : validUtf8 b = true then pure ⟨b, h⟩ else fail (.message "invalid utf-8")
  | (major, _) => fail (.typeMismatch major)

/-- `Decoder::tag`. -/
def tag : Decoder Tag := do
  match ← decodeHead with
  | (6, some n) => pure (Tag.«from» (UInt64.ofNat n))
  | (major, _) => fail (.typeMismatch major)

/-- `Decoder::array`: the length of an array, `none` when it is indefinite. -/
def array : Decoder (Option Nat) := do
  match ← decodeHead with
  | (4, len) => pure len
  | (major, _) => fail (.typeMismatch major)

variable {α : Type}

/-- Exactly `n` items. -/
def readN (item : Decoder α) : Nat → Decoder (List α)
  | 0 => pure []
  | n + 1 => do
    let x ← item
    let xs ← readN item n
    pure (x :: xs)

/-- Items up to the break byte, which is consumed. Every item reads at least a byte, so
a fuel of the input's length never runs out before the input does. -/
def readUntilBreak (item : Decoder α) : Nat → Decoder (List α)
  | 0 => fail .endOfInput
  | fuel + 1 => fun s =>
    match s with
    | b :: rest => if b = 0xff then .ok ([], rest) else
      (do
        let x ← item
        let xs ← readUntilBreak item fuel
        pure (x :: xs)) s
    | [] => .error .endOfInput

/-- `ArrayIter` and `MapIter`: the items of a definite or an indefinite length. -/
def readItems (item : Decoder α) (fuel : Nat) : Option Nat → Decoder (List α)
  | some n => readN item n
  | none => readUntilBreak item fuel

/-- One entry of a map: its key, then its value. -/
def entry (item : Decoder α) : Decoder (α × α) := do
  let k ← item
  let v ← item
  pure (k, v)

namespace CborAny

/-- The arms of `match d.datatype()?` in `Decode for CborAny`, given the decoder `item` of
the nested values. -/
def decodeArms (item : Decoder CborAny) (fuel : Nat) : DataType → Decoder CborAny
  | .bool => CborAny.bool <$> Cbor.bool
  | .unsigned | .negative => CborAny.int <$> i64
  | .bytes => CborAny.bytes <$> Cbor.bytes
  | .string => CborAny.string <$> str
  | .array | .arrayIndef => do
    let len ← Cbor.array
    CborAny.array <$> readItems item fuel len
  | .map | .mapIndef => do
    let len ← Cbor.map
    let entries ← readItems (entry item) fuel len
    pure (CborAny.map (fromIter compare entries))
  | .tag => do
    let t ← tag
    let v ← item
    pure (CborAny.tagged t v)
  | t => fail (.typeMismatch t.major)

/-- `Decode for CborAny`, with the fuel bounding the nesting and the indefinite loops. -/
def decodeAny : Nat → Decoder CborAny
  | 0 => fail .endOfInput
  | fuel + 1 => peekByte >>= fun b => decodeArms (decodeAny fuel) fuel (dataType b)

/-- `minicbor::decode::<CborAny>`. -/
def decode : Decoder CborAny := fun s => decodeAny s.length s

end CborAny

section RoundTrip

/-- The first byte of a head carries its major type and a definite additional
information. -/
theorem encodeHead_eq_cons (major n : Nat) (hm : major < 8) :
    ∃ b tl, encodeHead major n = b :: tl ∧ b.toNat / 32 = major ∧ b.toNat % 32 < 28 := by
  have h : ∀ k, k < 28 → (UInt8.ofNat (major * 32 + k)).toNat / 32 = major ∧
      (UInt8.ofNat (major * 32 + k)).toNat % 32 < 28 := fun k hk => by
    rw [UInt8.toNat_ofNat_of_lt (by show _ < 256; omega)]; omega
  unfold encodeHead
  split_ifs <;> exact ⟨_, _, rfl, h _ (by omega)⟩

/-- Only the major type and whether the length is definite decide a head's type. -/
theorem dataType_eq_of_head (b b' : UInt8) (h : b.toNat / 32 = b'.toNat / 32)
    (hm : b.toNat / 32 < 7) (hb : b.toNat % 32 < 28) (hb' : b'.toNat % 32 < 28) :
    dataType b = dataType b' := by
  unfold dataType
  rw [h]
  split
  all_goals first
    | (simp only [imp_false] at *; omega)
    | simp only [hb, hb', if_true]

theorem encodeHead_length_pos (major n : Nat) (hm : major < 8) : 0 < (encodeHead major n).length := by
  obtain ⟨b, tl, he, -⟩ := encodeHead_eq_cons major n hm
  simp [he]

@[simp] theorem peekByte_cons (b : UInt8) (s : Bytes) : peekByte (b :: s) = .ok (b, b :: s) := rfl

/-- `Decoder::datatype` on a definite head of major type below 7 sees only the major type. -/
theorem peekByte_encodeHead (major n : Nat) (hm : major < 7) (s : Bytes) :
    ∃ b, peekByte (encodeHead major n ++ s) = .ok (b, encodeHead major n ++ s) ∧
      dataType b = dataType (UInt8.ofNat (major * 32)) := by
  obtain ⟨b, tl, he, hmaj, hinfo⟩ := encodeHead_eq_cons major n (by omega)
  have hb : (UInt8.ofNat (major * 32)).toNat = major * 32 :=
    UInt8.toNat_ofNat_of_lt (by show _ < 256; omega)
  rw [he, List.cons_append]
  exact ⟨b, rfl, dataType_eq_of_head b _ (by omega) (by omega) hinfo (by omega)⟩

theorem decodeAny_encodeHead (fuel major n : Nat) (hm : major < 7) (s : Bytes) :
    CborAny.decodeAny (fuel + 1) (encodeHead major n ++ s) =
      CborAny.decodeArms (CborAny.decodeAny fuel) fuel (dataType (UInt8.ofNat (major * 32)))
        (encodeHead major n ++ s) := by
  obtain ⟨b, hp, hd⟩ := peekByte_encodeHead major n hm s
  rw [CborAny.decodeAny, bind_of_ok hp, hd]

variable {α : Type} (rest : Bytes)

theorem array_bind {len : Nat} (hlen : len < 2 ^ 64) (g : Option Nat → Decoder α) :
    (array >>= g) (encodeHead 4 len ++ rest) = g (some len) rest := by
  simp [array, decodeHead_bind 4 len (by decide) hlen]

theorem tag_bind (n : UInt64) (g : Tag → Decoder α) :
    (tag >>= g) (encodeHead 6 n.toNat ++ rest) = g (Tag.«from» n) rest := by
  have hn : UInt64.ofNat n.toNat = n := UInt64.eq_of_val_eq (Fin.ext (Nat.mod_eq_of_lt n.toNat_lt_size))
  simp [tag, decodeHead_bind 6 n.toNat (by decide) n.toNat_lt_size, hn]

theorem take_bind (b : Bytes) (g : Bytes → Decoder α) :
    (take b.length >>= g) (b ++ rest) = g b rest :=
  bind_of_ok (by simp [take]) g

theorem str_encodeStr (s : Utf8String) (hs : s.bytes.length < 2 ^ 64) :
    str (encodeStr s ++ rest) = .ok (s, rest) := by
  rw [encodeStr, List.append_assoc, str, bind_of_ok (decodeHead_encodeHead (by decide : 3 < 8) hs _)]
  simp only [take_bind, s.valid, dif_pos]
  rfl

theorem str_bind (s : Utf8String) (hs : s.bytes.length < 2 ^ 64) (g : Utf8String → Decoder α) :
    (str >>= g) (encodeStr s ++ rest) = g s rest :=
  bind_of_ok (str_encodeStr rest s hs) g

theorem i64_bind (i : I64) (g : I64 → Decoder α) :
    (i64 >>= g) (CborAny.encodeI64 i ++ rest) = g i rest := by
  have := i.lo; have := i.hi
  unfold CborAny.encodeI64
  split_ifs with h
  · have hv : i.val.toNat < 2 ^ 63 := by omega
    simp only [i64, bind_assoc, decodeHead_bind 0 i.val.toNat (by decide) (by omega), hv,
      dif_pos, Decoder.pure_bind]
    congr
    omega
  · have hv : (-1 - i.val).toNat < 2 ^ 63 := by omega
    simp only [i64, Decoder.bind_assoc, decodeHead_bind 1 (-1 - i.val).toNat (by decide)
      (by omega), hv, dif_pos, Decoder.pure_bind]
    congr
    omega

namespace CborAny

theorem encode_length_pos (v : CborAny) : 0 < (encode v).length := by
  cases v with
  | bool b => simp [encode]
  | int i =>
    unfold encode encodeI64
    split_ifs
    · exact encodeHead_length_pos 0 _ (by decide)
    · exact encodeHead_length_pos 1 _ (by decide)
  | string s => simp [encode, encodeStr, encodeHead_length_pos 3 _ (by decide)]
  | bytes b => simp [encode, encodeBytes, encodeHead_length_pos 2 _ (by decide)]
  | array items => simp [encode, encodeHead_length_pos 4 _ (by decide)]
  | map entries => simp [encode, encodeHead_length_pos 5 _ (by decide)]
  | tagged t v => simp [encode, encodeHead_length_pos 6 _ (by decide)]

variable (fuel : Nat) (rest : Bytes)

theorem decodeAny_bool (b : Bool) : decodeAny (fuel + 1) (encode (.bool b) ++ rest) = .ok (.bool b, rest) := by
  cases b <;> rfl

theorem decodeAny_int (i : I64) : decodeAny (fuel + 1) (encode (.int i) ++ rest) = .ok (.int i, rest) := by
  have key : decodeAny (fuel + 1) (encodeI64 i ++ rest) = (CborAny.int <$> i64) (encodeI64 i ++ rest) := by
    unfold encodeI64
    split_ifs
    · exact decodeAny_encodeHead fuel 0 _ (by decide) rest
    · exact decodeAny_encodeHead fuel 1 _ (by decide) rest
  rw [encode, key, map_eq_bind, i64_bind]
  rfl

theorem decodeAny_string (s : Utf8String) (hs : s.bytes.length < 2 ^ 64) :
    decodeAny (fuel + 1) (encode (.string s) ++ rest) = .ok (.string s, rest) := by
  rw [encode, encodeStr, List.append_assoc, decodeAny_encodeHead fuel 3 _ (by decide),
    ← List.append_assoc, ← encodeStr]
  change (CborAny.string <$> str) _ = _
  rw [map_eq_bind, str_bind _ s hs]
  rfl

theorem decodeAny_bytes (b : Bytes) (hb : b.length < 2 ^ 64) :
    decodeAny (fuel + 1) (encode (.bytes b) ++ rest) = .ok (.bytes b, rest) := by
  rw [encode, encodeBytes, List.append_assoc, decodeAny_encodeHead fuel 2 _ (by decide),
    ← List.append_assoc, ← encodeBytes]
  change (CborAny.bytes <$> Cbor.bytes) _ = _
  rw [map_eq_bind, bytes_bind _ hb]
  rfl

theorem decodeAny_array (items : List CborAny) (hlen : items.length < 2 ^ 64)
    (h : readN (decodeAny fuel) items.length (encodeItems items ++ rest) = .ok (items, rest)) :
    decodeAny (fuel + 1) (encode (.array items) ++ rest) = .ok (.array items, rest) := by
  rw [encode, List.append_assoc, decodeAny_encodeHead fuel 4 _ (by decide)]
  change (Cbor.array >>= fun len => CborAny.array <$> readItems (decodeAny fuel) fuel len) _ = _
  rw [array_bind _ hlen, map_eq_bind, readItems, bind_of_ok h]
  rfl

theorem decodeAny_map (entries : List (CborAny × CborAny)) (hlen : entries.length < 2 ^ 64)
    (hsorted : SortedKeys compare entries)
    (h : readN (entry (decodeAny fuel)) entries.length (encodeEntries entries ++ rest) =
      .ok (entries, rest)) :
    decodeAny (fuel + 1) (encode (.map entries) ++ rest) = .ok (.map entries, rest) := by
  rw [encode, List.append_assoc, decodeAny_encodeHead fuel 5 _ (by decide)]
  change (Cbor.map >>= fun len => readItems (entry (decodeAny fuel)) fuel len >>= fun entries =>
    pure (CborAny.map (fromIter compare entries))) _ = _
  rw [← encodeMap, map_bind _ hlen, readItems, bind_of_ok h, fromIter_of_sorted compare hsorted]
  rfl

/-- A tag reads back as the tag `Tag::from` gives its number. -/
theorem decodeAny_tagged (t : Tag) (v : CborAny)
    (h : decodeAny fuel (encode v ++ rest) = .ok (v, rest)) :
    decodeAny (fuel + 1) (encode (.tagged t v) ++ rest) =
      .ok (.tagged (Tag.«from» t.numeric) v, rest) := by
  rw [encode, List.append_assoc, decodeAny_encodeHead fuel 6 _ (by decide)]
  change (tag >>= fun t => decodeAny fuel >>= fun v => pure (CborAny.tagged t v)) _ = _
  rw [tag_bind, bind_of_ok h]
  rfl

variable {fuel rest}

theorem entry_bind {k v : CborAny} {s s' : Bytes}
    (hk : decodeAny fuel s = .ok (k, s')) (hv : decodeAny fuel s' = .ok (v, rest)) :
    entry (decodeAny fuel) s = .ok ((k, v), rest) := by
  rw [entry, bind_of_ok hk, bind_of_ok hv]
  rfl

mutual
/-- Every value reads back from its encoding, whatever follows it, once the fuel covers the
encoding's length. -/
theorem decodeAny_encode : ∀ (v : CborAny), wellFormed v = true → canonicalTags v = true →
    ∀ fuel, (encode v).length ≤ fuel → ∀ rest, decodeAny fuel (encode v ++ rest) = .ok (v, rest)
  | v, _, _, 0, hf, _ => absurd hf (by have := encode_length_pos v; omega)
  | .bool b, _, _, fuel + 1, _, rest => decodeAny_bool fuel rest b
  | .int i, _, _, fuel + 1, _, rest => decodeAny_int fuel rest i
  | .string s, hv, _, fuel + 1, _, rest =>
    decodeAny_string fuel rest s (by simpa [wellFormed] using hv)
  | .bytes b, hv, _, fuel + 1, _, rest =>
    decodeAny_bytes fuel rest b (by simpa [wellFormed] using hv)
  | .array items, hv, hc, fuel + 1, hf, rest => by
    simp only [wellFormed, Bool.and_eq_true, decide_eq_true_eq] at hv
    have := encodeHead_length_pos 4 items.length (by decide)
    simp only [encode, List.length_append] at hf
    exact decodeAny_array fuel rest items hv.1
      (readN_encodeItems items hv.2 hc fuel (by omega) rest)
  | .map entries, hv, hc, fuel + 1, hf, rest => by
    simp only [wellFormed, Bool.and_eq_true, decide_eq_true_eq] at hv
    have := encodeHead_length_pos 5 entries.length (by decide)
    simp only [encode, List.length_append] at hf
    exact decodeAny_map fuel rest entries hv.1.1 hv.1.2
      (readN_encodeEntries entries hv.2 hc fuel (by omega) rest)
  | .tagged t v, hv, hc, fuel + 1, hf, rest => by
    simp only [canonicalTags, Tag.canonical, Bool.and_eq_true, decide_eq_true_eq] at hc
    have := encodeHead_length_pos 6 t.numeric.toNat (by decide)
    simp only [encode, List.length_append] at hf
    rw [decodeAny_tagged fuel rest t v (decodeAny_encode v hv hc.2 fuel (by omega) rest), hc.1]
theorem readN_encodeItems : ∀ (items : List CborAny), itemsWellFormed items = true →
    itemsCanonicalTags items = true → ∀ fuel, (encodeItems items).length ≤ fuel → ∀ rest,
      readN (decodeAny fuel) items.length (encodeItems items ++ rest) = .ok (items, rest)
  | [], _, _, _, _, _ => rfl
  | x :: xs, hv, hc, fuel, hf, rest => by
    simp only [itemsWellFormed, itemsCanonicalTags, Bool.and_eq_true] at hv hc
    simp only [encodeItems, List.length_append] at hf
    rw [encodeItems, List.append_assoc, List.length_cons, readN,
      bind_of_ok (decodeAny_encode x hv.1 hc.1 fuel (by omega) _),
      bind_of_ok (readN_encodeItems xs hv.2 hc.2 fuel (by omega) rest)]
    rfl
theorem readN_encodeEntries : ∀ (entries : List (CborAny × CborAny)),
    entriesWellFormed entries = true → entriesCanonicalTags entries = true → ∀ fuel,
      (encodeEntries entries).length ≤ fuel → ∀ rest,
      readN (entry (decodeAny fuel)) entries.length (encodeEntries entries ++ rest) =
        .ok (entries, rest)
  | [], _, _, _, _, _ => rfl
  | (k, v) :: es, hv, hc, fuel, hf, rest => by
    simp only [entriesWellFormed, entriesCanonicalTags, Bool.and_eq_true] at hv hc
    simp only [encodeEntries, List.length_append] at hf
    rw [encodeEntries, List.append_assoc, List.append_assoc, List.length_cons, readN,
      bind_of_ok (entry_bind (decodeAny_encode k hv.1.1 hc.1.1 fuel (by omega) _)
        (decodeAny_encode v hv.1.2 hc.1.2 fuel (by omega) _)),
      bind_of_ok (readN_encodeEntries es hv.2 hc.2 fuel (by omega) rest)]
    rfl
end

end CborAny

end RoundTrip

/-- A `CborAny` whose tags are canonical reads back from its bytes: `minicbor::decode` gives
the value and leaves exactly what followed its encoding, so nothing of the encoding is left
over. -/
theorem cborAny_round_trip (v : CborAny) (hv : v.wellFormed = true) (hc : v.canonicalTags = true)
    (rest : Bytes) : CborAny.decode (CborAny.encode v ++ rest) = .ok (v, rest) :=
  CborAny.decodeAny_encode v hv hc _ (by simp) rest

theorem cborAny_round_trip_nested :
    (CborAny.map [(.int ⟨-3, by decide, by decide⟩,
        .array [.bool true, .tagged .cbor (.bytes [1, 2])]),
      (.string ⟨[0x61], rfl⟩, .map [])]).wellFormed = true ∧
    (CborAny.map [(.int ⟨-3, by decide, by decide⟩,
        .array [.bool true, .tagged .cbor (.bytes [1, 2])]),
      (.string ⟨[0x61], rfl⟩, .map [])]).canonicalTags = true ∧
    CborAny.decode (CborAny.encode (.map [(.int ⟨-3, by decide, by decide⟩,
        .array [.bool true, .tagged .cbor (.bytes [1, 2])]),
      (.string ⟨[0x61], rfl⟩, .map [])]) ++ []) =
      .ok (.map [(.int ⟨-3, by decide, by decide⟩,
        .array [.bool true, .tagged .cbor (.bytes [1, 2])]),
      (.string ⟨[0x61], rfl⟩, .map [])], []) :=
  ⟨by decide, by decide, cborAny_round_trip _ (by decide) (by decide) []⟩

/-- `Tagged(Unassigned(0), true)` is a `CborAny` whose tag number names `DateTime`: it reads
back as `Tagged(DateTime, true)`. -/
theorem unassigned_tag_reads_back_named :
    (CborAny.tagged (.unassigned 0) (.bool true)).wellFormed = true ∧
    CborAny.decode (CborAny.encode (.tagged (.unassigned 0) (.bool true)) ++ []) =
      .ok (.tagged .dateTime (.bool true), []) :=
  ⟨rfl, rfl⟩

end ManyRs.Cbor
