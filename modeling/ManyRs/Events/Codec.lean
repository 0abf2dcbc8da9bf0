import ManyRs.Events.EventId
import ManyRs.Events.Kind
import ManyRs.Identity
import Mathlib.Logic.Equiv.List

/-! The event codec of `_4_events.rs`. The encoder and decoder that `encode_event_info!`
expands for every row of the table are one definition over a row's fields, and
`define_multisig_event!` gives `AccountMultisigTransaction`, whose multisig submits nest.
`EventLog` has the map codec `#[cbor(map)]` derives. The codecs of the field types, of
`AttributeRelatedIndex` and of the method arguments are not in src: they are parameters
that carry their own round trip. -/
namespace ManyRs.Events
open ManyRs.Cbor Decoder

/-- The codec of an argument record that holds one nested value (`SubmitTransactionArgs` and
its `transaction`): the bytes written before and after the nested value's bytes, and a
decoder given the nested value's decoder, which reads back what was written whenever that
decoder does. -/
structure NestedCodec (ρ : Type) where
  before : ρ → Bytes
  after : ρ → Bytes
  decode : {α : Type} → Decoder α → Decoder (ρ × α)
  decode_encode : ∀ {α : Type} (d : Decoder α) (r : ρ) (a : α) (b : Bytes),
    (∀ rest, d (b ++ rest) = .ok (a, rest)) →
      ∀ rest, decode d (before r ++ b ++ after r ++ rest) = .ok ((r, a), rest)

/-- The types of the table whose code is not in src, with the codec of every field type, of
`AttributeRelatedIndex` and of every method argument. -/
structure EventCodecs where
  TokenAmount : Type
  Roles : Type
  FeatureSet : Type
  Memo : Type
  Timestamp : Type
  Data : Type
  ResponseMessage : Type
  Arg : EventKind → Type
  SubmitArgs : Type
  address : Codec Address
  tokenAmount : Codec TokenAmount
  optString : Codec (Option String)
  roles : Codec Roles
  featureSet : Codec FeatureSet
  string : Codec String
  optMemo : Codec (Option Memo)
  optByteVec : Codec (Option Bytes)
  u64 : Codec UInt64
  timestamp : Codec Timestamp
  bool : Codec Bool
  optData : Codec (Option Data)
  byteVec : Codec Bytes
  optAddress : Codec (Option Address)
  responseMessage : Codec ResponseMessage
  optU64 : Codec (Option UInt64)
  optBool : Codec (Option Bool)
  attributeIndex : Codec AttributeRelatedIndex
  arg : (k : EventKind) → Codec (Arg k)
  submitArgs : NestedCodec SubmitArgs

variable (C : EventCodecs)

namespace EventKind

/-- `Encode`: the kind's attribute index. -/
def encode (k : EventKind) : Bytes := C.attributeIndex.encode k.attributeIndex

/-- `Decode`: an attribute index, refused unless it is some row's. -/
def decode : Decoder EventKind := do
  match ofAttributeIndex (← C.attributeIndex.decode) with
  | some k => pure k
  | none => fail (.message "Invalid attribute index")

theorem decode_bind (k : EventKind) {α : Type} (g : EventKind → Decoder α) (rest : Bytes) :
    (decode C >>= g) (k.encode C ++ rest) = g k rest := by
  simp only [decode, encode, Decoder.bind_assoc, C.attributeIndex.decode_bind,
    ofAttributeIndex_attributeIndex, pure_bind]

end EventKind

/-- `AccountMultisigTransaction`: a transaction of a kind with a plain method argument, or a
multisig submit, whose `SubmitTransactionArgs` hold a further transaction. -/
inductive AccountMultisigTransaction
  | plain (kind : EventKind) (hkind : kind.methodArg = .plain) (arg : C.Arg kind)
  | accountMultisigSubmit (args : C.SubmitArgs) (transaction : AccountMultisigTransaction)

namespace AccountMultisigTransaction

/-- The first three items both arms write: `e.map(2)?.u8(0)?.encode(kind)?.u8(1)?`. -/
def header (k : EventKind) : Bytes :=
  encodeMap 2 ++ encodeUnsigned 0 ++ k.encode C ++ encodeUnsigned 1

variable {C}

/-- `Encode`: `{0: kind, 1: arg}`, the argument of a submit around its nested transaction. -/
def encode : AccountMultisigTransaction C → Bytes
  | plain k _ arg => header C k ++ (C.arg k).encode arg
  | accountMultisigSubmit args t =>
    header C .accountMultisigSubmit ++
      (C.submitArgs.before args ++ encode t ++ C.submitArgs.after args)

/-- How many submits a transaction is nested in. -/
def depth : AccountMultisigTransaction C → Nat
  | plain .. => 0
  | accountMultisigSubmit _ t => t.depth + 1

theorem depth_lt_length (t : AccountMultisigTransaction C) : t.depth < t.encode.length := by
  have hh : ∀ k : EventKind, 0 < (header C k).length := fun k => by
    simp [header, encodeMap, encodeHead]
  induction t with
  | plain k _ _ => simp only [depth, encode, List.length_append]; have := hh k; omega
  | accountMultisigSubmit _ t ih =>
    simp only [depth, encode, List.length_append]
    have := hh .accountMultisigSubmit
    omega

variable (C)

/-- `if d.u8()? != 1 { Err("Invalid field index") }`, then the argument. -/
def readArg {α : Type} (x : Decoder α) : Decoder α := do
  if (← u8) ≠ 1 then fail (.message "Invalid field index") else x

/-- `Decode`, given how deep it may still nest. `decode` passes the input's length: every
level reads its map header first, so no input nests deeper, and running out is the end of
input the decoder would reach. -/
def decodeWith : Nat → Decoder (AccountMultisigTransaction C)
  | 0 => fail .endOfInput
  | fuel + 1 => do
    let some len ← map | fail (.message "Invalid event type.")
    if len ≠ 2 then fail (.message "Transactions must have 2 values") else
    if (← u8) ≠ 0 then fail (.message "EventKind should be the first item.") else
    let k ← EventKind.decode C
    if h : k.methodArg = .plain then readArg (plain k h <$> (C.arg k).decode)
    else if k = .accountMultisigSubmit then
      readArg ((fun p => accountMultisigSubmit p.1 p.2) <$> C.submitArgs.decode (decodeWith fuel))
    else fail (.message "Unsupported transaction kind")

def decode : Decoder (AccountMultisigTransaction C) := fun s => decodeWith C s.length s

variable {C}

theorem readArg_apply {α : Type} (x : Decoder α) (rest : Bytes) :
    readArg x (encodeUnsigned 1 ++ rest) = x rest := by
  simpa [readArg, u8] using unsigned_bind _ rest (by decide : 1 ≤ 255) (by decide)

/-- What both arms read before the argument. -/
theorem decodeWith_header (k : EventKind) (fuel : Nat) (rest : Bytes) :
    decodeWith C (fuel + 1) (header C k ++ rest) =
      (if h : k.methodArg = .plain then readArg (plain k h <$> (C.arg k).decode)
        else if k = .accountMultisigSubmit then
          readArg ((fun p => accountMultisigSubmit p.1 p.2) <$>
            C.submitArgs.decode (decodeWith C fuel))
        else fail (.message "Unsupported transaction kind")) (encodeUnsigned 1 ++ rest) := by
  simp only [decodeWith, header, List.append_assoc, Decoder.bind_assoc,
    map_bind _ (by decide : 2 < 2 ^ 64)]
  simp [u8, unsigned_bind, EventKind.decode_bind]

theorem decodeWith_encode (t : AccountMultisigTransaction C) (fuel : Nat) (hfuel : t.depth < fuel)
    (rest : Bytes) : decodeWith C fuel (t.encode ++ rest) = .ok (t, rest) := by
  obtain ⟨fuel, rfl⟩ : ∃ n, fuel = n + 1 := ⟨fuel - 1, by omega⟩
  induction t generalizing fuel rest with
  | plain k hk arg =>
    rw [encode, List.append_assoc, decodeWith_header, dif_pos hk, readArg_apply]
    simp [bind_of_ok ((C.arg k).decode_encode arg rest)]
  | accountMultisigSubmit args t ih =>
    have hsub : (EventKind.accountMultisigSubmit).methodArg ≠ .plain := by decide
    obtain ⟨fuel, rfl⟩ : ∃ n, fuel = n + 1 := ⟨fuel - 1, by simp only [depth] at hfuel; omega⟩
    have hnest := C.submitArgs.decode_encode (decodeWith C (fuel + 1)) args t t.encode
      (fun r => ih r fuel (by simp only [depth] at hfuel; omega)) rest
    rw [encode, List.append_assoc, decodeWith_header, dif_neg hsub, if_pos rfl, readArg_apply]
    simp [← List.append_assoc, bind_of_ok hnest]

/-- `AccountMultisigTransaction`'s codec. -/
def codec (C : EventCodecs) : Codec (AccountMultisigTransaction C) where
  encode := encode
  decode := decode C
  decode_encode t rest := decodeWith_encode t _ (by
    have := depth_lt_length t
    simp only [List.length_append]
    omega) rest

end AccountMultisigTransaction

/-- The Lean type of each field type. -/
def FieldType.denote : FieldType → Type
  | .address => Address
  | .tokenAmount => C.TokenAmount
  | .optString => Option String
  | .roles => C.Roles
  | .featureSet => C.FeatureSet
  | .string => String
  | .optMemo => Option C.Memo
  | .transaction => AccountMultisigTransaction C
  | .optByteVec => Option Bytes
  | .u64 => UInt64
  | .timestamp => C.Timestamp
  | .bool => Bool
  | .optData => Option C.Data
  | .byteVec => Bytes
  | .optAddress => Option Address
  | .responseMessage => C.ResponseMessage
  | .optU64 => Option UInt64
  | .optBool => Option Bool

/-- The codec `.encode($name)` and `d.decode()` use for each field type. -/
def FieldType.codec : (t : FieldType) → Codec (t.denote C)
  | .address => C.address
  | .tokenAmount => C.tokenAmount
  | .optString => C.optString
  | .roles => C.roles
  | .featureSet => C.featureSet
  | .string => C.string
  | .optMemo => C.optMemo
  | .transaction => AccountMultisigTransaction.codec C
  | .optByteVec => C.optByteVec
  | .u64 => C.u64
  | .timestamp => C.timestamp
  | .bool => C.bool
  | .optData => C.optData
  | .byteVec => C.byteVec
  | .optAddress => C.optAddress
  | .responseMessage => C.responseMessage
  | .optU64 => C.optU64
  | .optBool => C.optBool

/-- A value of each field of a row. -/
def Values : List Field → Type
  | [] => Unit
  | f :: fs => f.type.denote C × Values fs

/-- `EventInfo`: the variant of a kind, with its fields. -/
structure EventInfo where
  kind : EventKind
  values : Values C kind.fields

/-- `.u8($idx)?.encode($name)?` for each field in order. -/
def encodeValues : (fs : List Field) → Values C fs → Bytes
  | [], _ => []
  | f :: fs, v => encodeUnsigned f.index ++ (f.type.codec C).encode v.1 ++ encodeValues fs v.2

/-- `Encode`: `e.map(1 + n)?.u8(0)?.encode(kind)?`, then the fields. -/
def EventInfo.encode (e : EventInfo C) : Bytes :=
  encodeMap (1 + e.kind.fields.length) ++ encodeUnsigned 0 ++ e.kind.encode C ++
    encodeValues C e.kind.fields e.values

/-- The decoder's `let mut $name : Option<$type> = None;` for each field. -/
def Slots : List Field → Type
  | [] => Unit
  | f :: fs => Option (f.type.denote C) × Slots fs

namespace Slots

def empty : (fs : List Field) → Slots C fs
  | [] => ()
  | _ :: fs => (none, empty fs)

/-- The arm `$idx => $name = Some(d.decode()?)` of the first field of index `i`. -/
def arm : (fs : List Field) → Nat → Option (Slots C fs → Decoder (Slots C fs))
  | [], _ => none
  | f :: fs, i =>
    if i = f.index then some fun s => (fun v => (some v, s.2)) <$> (f.type.codec C).decode
    else (arm fs i).map fun a s => (fun r => (s.1, r)) <$> a s.2

/-- `let $name = $name.ok_or(missing_value($idx))?;` for each field in order. -/
def finish : (fs : List Field) → Slots C fs → Except DecodeError (Values C fs)
  | [], _ => .ok ()
  | f :: fs, s => match s.1 with
    | none => .error (.missingValue f.index)
    | some v => (finish fs s.2).map fun vs => (v, vs)

end Slots

/-- `while len > 1 { match d.u32()? { .. } len -= 1; }`: `n` rounds of reading a key and
running its arm. -/
def fieldLoop {σ : Type} (arm : Nat → σ → Decoder σ) : Nat → σ → Decoder σ
  | 0, s => pure s
  | n + 1, s => do
    let i ← u32
    let s ← arm i s
    fieldLoop arm n s

/-- The match of the decode loop, with `x => return Err(unknown_variant(x))`. -/
def infoArm (fs : List Field) (i : Nat) (s : Slots C fs) : Decoder (Slots C fs) :=
  match Slots.arm C fs i with
  | some a => a s
  | none => fail (.unknownVariant i)

/-- `Decode`. The macro's arm `_ => Err("Unsupported event kind")` is unreachable, as every
kind has a row. -/
def EventInfo.decode : Decoder (EventInfo C) := do
  let some len ← map | fail (.message "Invalid event type.")
  if (← u8) ≠ 0 then fail (.message "EventKind should be the first item.") else
  let k ← EventKind.decode C
  let s ← fieldLoop (infoArm C k.fields) (len - 1) (Slots.empty C k.fields)
  match Slots.finish C k.fields s with
  | .ok v => pure ⟨k, v⟩
  | .error e => fail e

/-- One key and value as an encoder writes them, and what reading them back does to the
decoder's state. -/
structure Write (σ : Type) where
  index : Nat
  bytes : Bytes
  update : σ → σ

/-- The same write, to the second component of a pair. -/
def Write.under {α σ : Type} (w : Write σ) : Write (α × σ) :=
  ⟨w.index, w.bytes, fun s => (s.1, w.update s.2)⟩

theorem foldl_under {α σ : Type} (ws : List (Write σ)) (a : α) (s : σ) :
    (ws.map Write.under).foldl (fun s w => w.update s) (a, s) =
      (a, ws.foldl (fun s w => w.update s) s) := by
  induction ws generalizing s with
  | nil => rfl
  | cons w ws ih => exact ih _

/-- The loop reads back any writes its arms read back, one a round. -/
theorem fieldLoop_writes {σ : Type} (arm : Nat → σ → Decoder σ) (ws : List (Write σ))
    (hws : ∀ w ∈ ws, w.index < 2 ^ 32 ∧
      ∀ s rest, arm w.index s (w.bytes ++ rest) = .ok (w.update s, rest))
    (s : σ) (rest : Bytes) :
    fieldLoop arm ws.length s
        ((ws.map fun w => encodeUnsigned w.index ++ w.bytes).flatten ++ rest) =
      .ok (ws.foldl (fun s w => w.update s) s, rest) := by
  induction ws generalizing s with
  | nil => rfl
  | cons w ws ih =>
    obtain ⟨hlt, hw⟩ := hws w (List.mem_cons_self w ws)
    simp only [List.length_cons, fieldLoop, List.map_cons, List.flatten_cons, List.append_assoc,
      List.foldl_cons, u32, unsigned_bind _ _ (show w.index ≤ 2 ^ 32 - 1 by omega) (by decide),
      bind_apply, hw s]
    exact ih (fun w' h => hws w' (List.mem_cons_of_mem w h)) _

namespace Slots

/-- Every slot filled with its value. -/
def full : (fs : List Field) → Values C fs → Slots C fs
  | [], _ => ()
  | _ :: fs, v => (some v.1, full fs v.2)

/-- The writes of the encoder for the values `v`, each filling its field's slot. -/
def writes : (fs : List Field) → Values C fs → List (Write (Slots C fs))
  | [], _ => []
  | f :: fs, v => ⟨f.index, (f.type.codec C).encode v.1, fun s => (some v.1, s.2)⟩ ::
      (writes fs v.2).map Write.under

variable {C}

theorem encodeAll_writes (fs : List Field) (v : Values C fs) :
    ((writes C fs v).map fun w => encodeUnsigned w.index ++ w.bytes).flatten =
      encodeValues C fs v := by
  induction fs with
  | nil => rfl
  | cons f fs ih => simp [writes, encodeValues, Write.under, Function.comp_def, ← ih]

theorem length_writes (fs : List Field) (v : Values C fs) : (writes C fs v).length = fs.length := by
  induction fs with
  | nil => rfl
  | cons f fs ih => simp [writes, ih]

theorem index_mem_of_mem_writes {fs : List Field} {v : Values C fs} {w : Write (Slots C fs)}
    (hw : w ∈ writes C fs v) : w.index ∈ fs.map Field.index := by
  induction fs with
  | nil => cases hw
  | cons f fs ih =>
    simp only [writes, List.mem_cons, List.mem_map] at hw
    rcases hw with rfl | ⟨w', hw', rfl⟩
    · exact List.mem_cons_self _ _
    · exact List.mem_cons_of_mem _ (ih hw')

/-- Each write of the encoder has its arm, which reads it back; the arm found is the write's
own field, as no other field has its index. -/
theorem arm_of_mem_writes {fs : List Field} (hnd : (fs.map Field.index).Nodup) {v : Values C fs}
    {w : Write (Slots C fs)} (hw : w ∈ writes C fs v) :
    ∃ a, arm C fs w.index = some a ∧ ∀ s rest, a s (w.bytes ++ rest) = .ok (w.update s, rest) := by
  induction fs with
  | nil => cases hw
  | cons f fs ih =>
    simp only [List.map_cons, List.nodup_cons] at hnd
    simp only [writes, List.mem_cons, List.mem_map] at hw
    rcases hw with rfl | ⟨w', hw', rfl⟩
    · refine ⟨_, if_pos rfl, fun s rest => ?_⟩
      simp [bind_of_ok ((f.type.codec C).decode_encode v.1 rest)]
    · obtain ⟨a, ha, hrun⟩ := ih hnd.2 hw'
      have hne : w'.index ≠ f.index := fun h => hnd.1 (h ▸ index_mem_of_mem_writes hw')
      refine ⟨_, by simp only [arm, Write.under, if_neg hne, ha, Option.map_some']; rfl,
        fun s rest => ?_⟩
      simp [Write.under, bind_of_ok (hrun s.2 rest)]

theorem foldl_writes (fs : List Field) (v : Values C fs) (s : Slots C fs) :
    (writes C fs v).foldl (fun s w => w.update s) s = full C fs v := by
  induction fs with
  | nil => rfl
  | cons f fs ih => exact (foldl_under (writes C fs v.2) (some v.1) s.2).trans (congrArg _ (ih _ _))

theorem finish_full (fs : List Field) (v : Values C fs) : finish C fs (full C fs v) = .ok v := by
  induction fs with
  | nil => rfl
  | cons f fs ih => simp only [full, finish, ih]; rfl

end Slots

section RoundTrip

variable {C}

/-- The loop reads back the fields of a row, whatever they are. -/
theorem fieldLoop_values {fs : List Field} (hnd : (fs.map Field.index).Nodup)
    (hlt : ∀ f ∈ fs, f.index < 2 ^ 32) (v : Values C fs) (s : Slots C fs) (rest : Bytes) :
    fieldLoop (infoArm C fs) fs.length s (encodeValues C fs v ++ rest) =
      .ok (Slots.full C fs v, rest) := by
  rw [← Slots.encodeAll_writes, ← Slots.length_writes fs v, fieldLoop_writes, Slots.foldl_writes]
  intro w hw
  obtain ⟨a, ha, hrun⟩ := Slots.arm_of_mem_writes hnd hw
  obtain ⟨f, hf, hidx⟩ := List.mem_map.mp (Slots.index_mem_of_mem_writes hw)
  exact ⟨hidx ▸ hlt f hf, fun s rest => by simp only [infoArm, ha, hrun]⟩

theorem EventInfo.decode_encode (e : EventInfo C) (rest : Bytes) :
    EventInfo.decode C (e.encode C ++ rest) = .ok (e, rest) := by
  obtain ⟨k, v⟩ := e
  simp only [EventInfo.decode, EventInfo.encode, List.append_assoc, Decoder.bind_assoc,
    map_bind _ k.fields_length_lt]
  simp only [u8, unsigned_bind _ _ (by decide : 0 ≤ 255) (by decide), ne_eq, not_true_eq_false,
    if_false, EventKind.decode_bind, Nat.add_sub_cancel_left,
    bind_of_ok (fieldLoop_values k.fields_nodup k.index_lt_of_mem_fields v _ rest),
    Slots.finish_full]
  rfl

end RoundTrip

/-- `EventLog`, `#[cbor(map)]` with `#[n(0)] id`, `#[n(1)] time` and `#[n(2)] content`. -/
structure EventLog where
  id : EventId
  time : C.Timestamp
  content : EventInfo C

/-- The derived `Encode`: a map of the three fields, in order. -/
def EventLog.encode (log : EventLog C) : Bytes :=
  encodeMap 3 ++ encodeUnsigned 0 ++ log.id.encode ++ encodeUnsigned 1 ++
    C.timestamp.encode log.time ++ encodeUnsigned 2 ++ log.content.encode C

/-- The derived decoder's `let mut $field = None;` for the three fields. -/
abbrev LogSlots := Option EventId × Option C.Timestamp × Option (EventInfo C)

/-- The derived decoder's match on a key: a field's decoder, and `d.skip()` for any other. -/
def logArm (skip : Decoder Unit) (i : Nat) (s : LogSlots C) : Decoder (LogSlots C) :=
  match i with
  | 0 => (fun x => (some x, s.2)) <$> EventId.decode
  | 1 => (fun x => (s.1, some x, s.2.2)) <$> C.timestamp.decode
  | 2 => (fun x => (s.1, s.2.1, some x)) <$> EventInfo.decode C
  | _ => (fun _ => s) <$> skip

/-- The derived loop over an indefinite map: `while d.datatype()? != Type::Break`, then
`d.skip()` over the break. Every round reads a key, so no input has more rounds than bytes,
and running out is the end of input the decoder would reach. -/
def untilBreak {σ : Type} (arm : Nat → σ → Decoder σ) : Nat → σ → Decoder σ
  | 0, _ => fail .endOfInput
  | fuel + 1, s => fun input => match input with
    | [] => .error .endOfInput
    | b :: rest => if b = 0xff then .ok (s, rest)
      else (do let s ← u32 >>= fun i => arm i s; untilBreak arm fuel s) input

/-- The derived `Decode`: the entries of a definite or indefinite map, unknown keys skipped,
then `missing_value` for the first field not read. -/
def EventLog.decode (skip : Decoder Unit) : Decoder (EventLog C) := fun input => (do
  let s ← match ← map with
    | some n => fieldLoop (logArm C skip) n (none, none, none)
    | none => untilBreak (logArm C skip) input.length (none, none, none)
  let some id := s.1 | fail (.missingValue 0)
  let some time := s.2.1 | fail (.missingValue 1)
  let some content := s.2.2 | fail (.missingValue 2)
  pure (⟨id, time, content⟩ : EventLog C)) input

/-- The entries the derived encoder writes, each filling its field's slot. -/
def EventLog.writes (log : EventLog C) : List (Write (LogSlots C)) :=
  [⟨0, log.id.encode, fun s => (some log.id, s.2)⟩,
    ⟨1, C.timestamp.encode log.time, fun s => (s.1, some log.time, s.2.2)⟩,
    ⟨2, log.content.encode C, fun s => (s.1, s.2.1, some log.content)⟩]

theorem EventLog.decode_encode (skip : Decoder Unit) (log : EventLog C)
    (hid : log.id.bytes.length < 2 ^ 64) (rest : Bytes) :
    EventLog.decode C skip (log.encode ++ rest) = .ok (log, rest) := by
  have hws : ∀ w ∈ log.writes, w.index < 2 ^ 32 ∧
      ∀ s r, logArm C skip w.index s (w.bytes ++ r) = .ok (w.update s, r) := by
    simp only [writes, List.mem_cons, List.mem_singleton, List.not_mem_nil, or_false,
      forall_eq_or_imp, forall_eq]
    refine ⟨⟨by decide, fun s r => ?_⟩, ⟨by decide, fun s r => ?_⟩, ⟨by decide, fun s r => ?_⟩⟩
    · exact EventId.decode_bind log.id hid (fun x => pure (some x, s.2)) r
    · exact C.timestamp.decode_bind log.time (fun x => pure (s.1, some x, s.2.2)) r
    · exact bind_of_ok (EventInfo.decode_encode log.content r) _
  have hloop := fieldLoop_writes (logArm C skip) log.writes hws (none, none, none) rest
  simp only [writes, List.length_cons, List.length_nil, Nat.reduceAdd, List.map_cons, List.map_nil,
    List.flatten_cons, List.flatten_nil, List.append_nil, List.foldl_cons, List.foldl_nil,
    List.append_assoc] at hloop
  simp only [EventLog.decode, EventLog.encode, List.append_assoc, Decoder.bind_assoc,
    map_bind _ (by decide : 3 < 2 ^ 64)]
  simp [bind_of_ok hloop]

/-- Every event, every multisig transaction, nested to any depth, and every event log whose
id fits a CBOR length reads back from its encoding, and the decoder stops where the encoding
ends. -/
theorem event_codec_round_trip (skip : Decoder Unit) :
    (∀ (e : EventInfo C) rest, EventInfo.decode C (e.encode C ++ rest) = .ok (e, rest)) ∧
    (∀ (t : AccountMultisigTransaction C) rest,
      AccountMultisigTransaction.decode C (t.encode ++ rest) = .ok (t, rest)) ∧
    (∀ (log : EventLog C) rest, log.id.bytes.length < 2 ^ 64 →
      EventLog.decode C skip (log.encode ++ rest) = .ok (log, rest)) :=
  ⟨EventInfo.decode_encode, (AccountMultisigTransaction.codec C).decode_encode,
    fun log rest hid => EventLog.decode_encode C skip log hid rest⟩

/-- A type's bytes and their parser, from which the codecs of an instance of
`EventCodecs` are built: the field codecs can all be had at once. -/
structure ByteForm (α : Type) where
  toBytes : α → Bytes
  parse : Bytes → Option α
  parse_toBytes : ∀ a, parse (toBytes a) = some a

namespace ByteForm

variable {α β : Type}

/-- The codec writing a value's bytes escaped. -/
def codec (F : ByteForm α) : Codec α where
  encode a := escape (F.toBytes a)
  decode s := match unescape s with
    | .ok (b, rest) => match F.parse b with
      | some a => .ok (a, rest)
      | none => .error (.message "unparsed")
    | .error e => .error e
  decode_encode a rest := by simp only [unescape_escape, F.parse_toBytes]

/-- Through `Encodable`: the big-endian bytes of the value's number. -/
def encodable [Encodable α] : ByteForm α :=
  ⟨fun a => toBytesBE (Encodable.encode a), fun b => Encodable.decode (fromBytesBE b),
    fun a => by simp⟩

/-- Through a type that `g` embeds into and `f` reads back from. -/
def map (F : ByteForm α) (f : α → β) (g : β → α) (h : ∀ b, f (g b) = b) : ByteForm β :=
  ⟨fun b => F.toBytes (g b), fun l => (F.parse l).map f, fun b => by simp [F.parse_toBytes, h]⟩

def bytes : ByteForm Bytes := ⟨id, some, fun _ => rfl⟩

def option (F : ByteForm α) : ByteForm (Option α) :=
  ⟨fun | none => [] | some a => 0 :: F.toBytes a,
    fun | [] => some none | _ :: l => (F.parse l).map some,
    fun | none => rfl | some a => by simp [F.parse_toBytes]⟩

def address : ByteForm Address := bytes.map Address.mk Address.bytes fun _ => rfl

def string : ByteForm String :=
  (encodable : ByteForm (List Nat)).map (fun l => ⟨l.map Char.ofNat⟩) (fun s => s.toList.map Char.toNat)
    fun s => by simp [Function.comp_def]

def u64 : ByteForm UInt64 :=
  (encodable : ByteForm Nat).map UInt64.ofNat UInt64.toNat fun n => by
    cases n with
    | mk b => simp [UInt64.ofNat, UInt64.toNat]

def attributeIndex : ByteForm AttributeRelatedIndex :=
  (encodable : ByteForm (List Nat)).map AttributeRelatedIndex.mk AttributeRelatedIndex.flattened
    fun _ => rfl

end ByteForm

/-- A submit's other arguments written before its transaction, as the derived map writes the
fields in order. -/
def unitNested : NestedCodec Unit where
  before _ := []
  after _ := []
  decode d := (fun a => ((), a)) <$> d
  decode_encode d _ a b hd rest := by simpa using bind_of_ok (hd rest) _

/-- Field codecs with every type the table leaves open taken as `Unit`. -/
def plainCodecs : EventCodecs where
  TokenAmount := Unit
  Roles := Unit
  FeatureSet := Unit
  Memo := Unit
  Timestamp := Unit
  Data := Unit
  ResponseMessage := Unit
  Arg _ := Unit
  SubmitArgs := Unit
  address := ByteForm.address.codec
  tokenAmount := ByteForm.encodable.codec
  optString := ByteForm.string.option.codec
  roles := ByteForm.encodable.codec
  featureSet := ByteForm.encodable.codec
  string := ByteForm.string.codec
  optMemo := ByteForm.encodable.codec
  optByteVec := ByteForm.bytes.option.codec
  u64 := ByteForm.u64.codec
  timestamp := ByteForm.encodable.codec
  bool := ByteForm.encodable.codec
  optData := ByteForm.encodable.codec
  byteVec := ByteForm.bytes.codec
  optAddress := ByteForm.address.option.codec
  responseMessage := ByteForm.encodable.codec
  optU64 := ByteForm.u64.option.codec
  optBool := ByteForm.encodable.codec
  attributeIndex := ByteForm.attributeIndex.codec
  arg _ := ByteForm.encodable.codec
  submitArgs := unitNested

theorem event_codec_round_trip_plain :
    (⟨[7]⟩ : EventId).bytes.length < 2 ^ 64 ∧
      EventLog.decode plainCodecs (fun s => .ok ((), s))
          ((⟨⟨[7]⟩, (), ⟨.accountDisable, (⟨[1]⟩, ())⟩⟩ : EventLog plainCodecs).encode ++ []) =
        .ok (⟨⟨[7]⟩, (), ⟨.accountDisable, (⟨[1]⟩, ())⟩⟩, []) :=
  ⟨by decide, (event_codec_round_trip plainCodecs (fun s => .ok ((), s))).2.2 _ [] (by decide)⟩

end ManyRs.Events
