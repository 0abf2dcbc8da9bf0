import ManyRs.Cbor.Any
import ManyRs.Identity
import ManyRs.Store.Merk

/-! `Status`, the reply of the base module's `status` endpoint, and its hand-written CBOR
codec (`many/src/server/module/_0_base.rs`). The encoder writes an indefinite map with the
keys 0 to 5 and the extras. The decoder's loop reads the keys 0 to 7 and the string keys of
the extras, passes over an integer key above 7 without its value, and reads nothing at all
for an item of any other type. -/
namespace ManyRs.Server
open ManyRs.Cbor Decoder

/-- What `Status` borrows from crates outside this repository (modelled from the spec): the
`Identity` and `AttributeSet` codecs, the decoder of `VecOrSingle<String>`, and the COSE key
conversions. -/
structure StatusCodecs where
  CoseKey : Type
  AttributeSet : Type
  NetworkName : Type
  identity : Codec Address
  attributes : Codec AttributeSet
  networkName : Decoder NetworkName
  /-- `cose_helpers::public_key`, `none` when it fails. -/
  publicKey : CoseKey → Option CoseKey
  /-- `CborSerializable::to_vec`, `none` when it fails. -/
  toVec : CoseKey → Option Bytes
  /-- `CoseKey::from_slice`, `none` when it fails. -/
  fromSlice : Bytes → Option CoseKey
  fromSlice_toVec : ∀ k b, toVec k = some b → fromSlice b = some k
  /-- A `Vec` is shorter than `2 ^ 64`. -/
  toVec_length : ∀ k b, toVec k = some b → b.length < 2 ^ 64

variable {C : StatusCodecs}

variable (C) in
structure Status where
  version : UInt8
  name : Utf8String
  publicKey : Option C.CoseKey
  identity : Address
  attributes : C.AttributeSet
  serverVersion : Option Utf8String
  networkName : Option C.NetworkName
  timeout : Option UInt64
  extras : List (Utf8String × CborAny)

namespace Status

/-- An entry of the extras: `e.str(k)?.encode(v)?`. -/
def encodeExtra (e : Utf8String × CborAny) : Bytes := encodeStr e.1 ++ e.2.encode

/-- `if let Some(ref pk) = self.public_key { e.u8(2)?.bytes(..)?; }`, given the key's bytes. -/
def publicKeyEntry : Option Bytes → Bytes
  | some pk => encodeUnsigned 2 ++ encodeBytes pk
  | none => []

/-- `if let Some(ref sv) = self.server_version { e.u8(5)?.str(sv)?; }`. -/
def serverVersionEntry : Option Utf8String → Bytes
  | some sv => encodeUnsigned 5 ++ encodeStr sv
  | none => []

/-- What `Encode for Status` writes between `begin_map` and `end`, given the bytes of the
public key it writes. -/
def entries (s : Status C) (publicKey : Option Bytes) : Bytes :=
  encodeUnsigned 0 ++ encodeUnsigned s.version.toNat ++
    encodeUnsigned 1 ++ encodeStr s.name ++
    publicKeyEntry publicKey ++
    encodeUnsigned 3 ++ C.identity.encode s.identity ++
    encodeUnsigned 4 ++ C.attributes.encode s.attributes ++
    serverVersionEntry s.serverVersion ++
    (s.extras.map encodeExtra).flatten

/-- `Status::to_bytes`: an indefinite map. `public_key(pk).unwrap().to_vec().unwrap()` panics
when either step fails. Neither `network_name` nor `timeout` is written. -/
def toBytes (s : Status C) : Store.Outcome Bytes :=
  match s.publicKey with
  | none => .returns ([0xbf] ++ s.entries none ++ [0xff])
  | some pk =>
    match C.publicKey pk with
    | none => .aborts "called Result::unwrap() on an Err value"
    | some pub =>
      match C.toVec pub with
      | none => .aborts "called Result::unwrap() on an Err value"
      | some b => .returns ([0xbf] ++ s.entries (some b) ++ [0xff])

variable (C) in
/-- The bytes the encoder writes for a public key: `to_vec` of the key, when there is one. -/
def KeyBytes : Option Bytes → Option C.CoseKey → Prop
  | some p, some key => C.toVec key = some p
  | none, none => True
  | _, _ => False

/-- What every Rust value of the type satisfies: lengths fit a CBOR head, and the extras are
a `BTreeMap` (keys strictly increasing) of values that satisfy it. -/
def wellFormed (s : Status C) : Bool :=
  decide (s.name.bytes.length < 2 ^ 64) &&
    (match s.serverVersion with
      | some sv => decide (sv.bytes.length < 2 ^ 64)
      | none => true) &&
    decide (SortedKeys Utf8String.compare s.extras) &&
    s.extras.all fun e => decide (e.1.bytes.length < 2 ^ 64) && e.2.wellFormed

/-- Every tag in the extras is canonical, so that they read back as they are. -/
def canonicalTags (s : Status C) : Bool := s.extras.all fun e => e.2.canonicalTags

end Status

variable (C) in
/-- `StatusBuilder`: a field is `none` until its key is read. -/
structure Builder where
  version : Option UInt8
  name : Option Utf8String
  publicKey : Option C.CoseKey
  identity : Option Address
  attributes : Option C.AttributeSet
  serverVersion : Option Utf8String
  networkName : Option C.NetworkName
  timeout : Option UInt64

namespace Builder

variable (C) in
/-- `StatusBuilder::default()`. -/
def empty : Builder C := ⟨none, none, none, none, none, none, none, none⟩

/-- `.extras(extras).build()`: the fields without a default must have been read. -/
def build (b : Builder C) (extras : List (Utf8String × CborAny)) : Except DecodeError (Status C) :=
  match b.version, b.name, b.identity, b.attributes with
  | some v, some n, some i, some a =>
    .ok ⟨v, n, b.publicKey, i, a, b.serverVersion, b.networkName, b.timeout, extras⟩
  | _, _, _, _ => .error (.message "could not build")

/-- The arms of `match d.u8()?`: the field a key sets, read from the item after it. A key
above 7 reads nothing. -/
def readField (b : Builder C) : Nat → Decoder (Builder C)
  | 0 => do
    let v ← u8
    pure { b with version := some (UInt8.ofNat v) }
  | 1 => do
    let n ← str
    pure { b with name := some n }
  | 2 => do
    let bytes ← Cbor.bytes
    match C.fromSlice bytes with
    | some key => pure { b with publicKey := some key }
    | none => fail (.message "Invalid cose key.")
  | 3 => do
    let i ← C.identity.decode
    pure { b with identity := some i }
  | 4 => do
    let a ← C.attributes.decode
    pure { b with attributes := some a }
  | 5 => do
    let sv ← str
    pure { b with serverVersion := some sv }
  | 6 => do
    let nn ← C.networkName
    pure { b with networkName := some nn }
  | 7 => do
    let t ← u64
    pure { b with timeout := some (UInt64.ofNat t) }
  | _ => pure b

end Builder

/-- The definite chunks of an indefinite text string, joined, up to its break. -/
def strChunks : Nat → Utf8String → Decoder Utf8String
  | 0, _ => fail .endOfInput
  | fuel + 1, acc => fun s =>
    match s with
    | b :: rest => if b = 0xff then .ok (acc, rest) else
      (str >>= fun c => strChunks fuel (acc.append c)) s
    | [] => .error .endOfInput

/-- `d.str_iter()?.collect::<Result<Vec<_>, _>>()?.join("")`. -/
def strIter : Decoder Utf8String := fun s =>
  match s with
  | b :: rest => if b = 0x7f then strChunks rest.length ⟨[], rfl⟩ rest else str s
  | [] => .error .endOfInput

variable (C) in
/-- The variables of the loop: the builder, the extras and the count `i`. -/
structure LoopState where
  builder : Builder C
  extras : List (Utf8String × CborAny)
  count : Nat

/-- The arms of `match d.datatype()?`, for which the loop has no arm and reads nothing. -/
def skipped : DataType → Bool
  | .break_ | .unsigned | .string | .stringIndef => false
  | _ => true

/-- One pass of the loop body before `i += 1`, from the builder and the extras: `none` when it
read the break, which ends the loop. The extras take an entry through `BTreeMap::insert`. -/
def entryStep (b : Builder C) (extras : List (Utf8String × CborAny)) :
    Decoder (Option (Builder C × List (Utf8String × CborAny))) := do
  let byte ← peekByte
  match dataType byte with
  | .break_ => do
    let _ ← readByte
    pure none
  | .unsigned => do
    let k ← u8
    let b' ← b.readField k
    pure (some (b', extras))
  | .string | .stringIndef => do
    let k ← strIter
    let v ← CborAny.decode
    pure (some (b, insertEntry Utf8String.compare k v extras))
  | _ => pure (some (b, extras))

/-- `len.map_or(false, |x| i >= x)`. -/
def lengthReached (len : Option Nat) (i : Nat) : Bool :=
  match len with
  | some x => decide (x ≤ i)
  | none => false

/-- The loop of `Decode for Status`, for at most `fuel` passes: `none` when it has not ended
by then. -/
def decodeLoop (len : Option Nat) : Nat → LoopState C → Bytes →
    Option (Except DecodeError (LoopState C × Bytes))
  | 0, _, _ => none
  | fuel + 1, st, s =>
    match entryStep st.builder st.extras s with
    | .error e => some (.error e)
    | .ok (none, s') => some (.ok (st, s'))
    | .ok (some (b', extras'), s') =>
      if lengthReached len (st.count + 1) then some (.ok (⟨b', extras', st.count + 1⟩, s'))
      else decodeLoop len fuel ⟨b', extras', st.count + 1⟩ s'

/-- The build after the loop. -/
def finish (r : Except DecodeError (LoopState C × Bytes)) : Except DecodeError (Status C × Bytes) :=
  r.bind fun (st, rest) => (st.builder.build st.extras).map fun s => (s, rest)

namespace Status

variable (C) in
/-- `Decode for Status`, with at most `fuel` passes of its loop: `none` when the loop has
not ended by then. -/
def decode (fuel : Nat) (s : Bytes) : Option (Except DecodeError (Status C × Bytes)) :=
  match Cbor.map s with
  | .error e => some (.error e)
  | .ok (len, s') => (decodeLoop len fuel ⟨Builder.empty C, [], 0⟩ s').map finish

variable (C) in
/-- `Status::from_bytes`: `minicbor::decode`, which leaves what follows the value unread. -/
def fromBytes (fuel : Nat) (b : Bytes) : Option (Except DecodeError (Status C)) :=
  (decode C fuel b).map (Except.map Prod.fst)

end Status

section Fields

variable (b : Builder C) (t : Bytes)

theorem readField_version (v : UInt8) :
    b.readField 0 (encodeUnsigned v.toNat ++ t) = .ok ({ b with version := some v }, t) := by
  have hv : UInt8.ofNat v.toNat = v := UInt8.toNat.inj (UInt8.toNat_ofNat_of_lt v.toNat_lt_size)
  rw [Builder.readField, u8, unsigned_bind _ _ (Nat.lt_succ_iff.mp v.toNat_lt_size) (by decide),
    hv]
  rfl

theorem readField_name (n : Utf8String) (hn : n.bytes.length < 2 ^ 64) :
    b.readField 1 (encodeStr n ++ t) = .ok ({ b with name := some n }, t) := by
  rw [Builder.readField, str_bind _ n hn]
  rfl

theorem readField_publicKey {key : C.CoseKey} {pk : Bytes} (h : C.toVec key = some pk) :
    b.readField 2 (encodeBytes pk ++ t) = .ok ({ b with publicKey := some key }, t) := by
  rw [Builder.readField, bytes_bind _ (C.toVec_length _ _ h), C.fromSlice_toVec _ _ h]
  rfl

theorem readField_identity (i : Address) :
    b.readField 3 (C.identity.encode i ++ t) = .ok ({ b with identity := some i }, t) := by
  rw [Builder.readField, Codec.decode_bind]
  rfl

theorem readField_attributes (a : C.AttributeSet) :
    b.readField 4 (C.attributes.encode a ++ t) = .ok ({ b with attributes := some a }, t) := by
  rw [Builder.readField, Codec.decode_bind]
  rfl

theorem readField_serverVersion (sv : Utf8String) (hsv : sv.bytes.length < 2 ^ 64) :
    b.readField 5 (encodeStr sv ++ t) = .ok ({ b with serverVersion := some sv }, t) := by
  rw [Builder.readField, str_bind _ sv hsv]
  rfl

/-- A key above 7 leaves the builder as it is and reads nothing after itself. -/
theorem readField_unknown {k : Nat} (hk : 7 < k) : b.readField k = pure b := by
  obtain ⟨j, rfl⟩ : ∃ j, k = j + 8 := ⟨k - 8, by omega⟩
  rfl

end Fields

section Steps

variable (b : Builder C) (ex : List (Utf8String × CborAny))

/-- An integer key below 256 is read, then its field. -/
theorem entryStep_key {k : Nat} (hk : k ≤ 255) (t : Bytes) :
    entryStep b ex (encodeUnsigned k ++ t) =
      (b.readField k >>= fun b' => pure (some (b', ex))) t := by
  obtain ⟨byte, hp, hd⟩ := peekByte_encodeHead 0 k (by decide) t
  have h0 : dataType (UInt8.ofNat (0 * 32)) = .unsigned := rfl
  rw [entryStep, encodeUnsigned, bind_of_ok hp]
  simp only [hd, h0]
  rw [← encodeUnsigned, u8, unsigned_bind _ _ hk (by decide)]

/-- An integer key above 255 fails `d.u8()`. -/
theorem entryStep_key_overflow {k : Nat} (hk : 255 < k) (hk' : k < 2 ^ 64) (t : Bytes) :
    entryStep b ex (encodeUnsigned k ++ t) = .error (.overflow k) := by
  obtain ⟨byte, hp, hd⟩ := peekByte_encodeHead 0 k (by decide) t
  have h0 : dataType (UInt8.ofNat (0 * 32)) = .unsigned := rfl
  rw [entryStep, encodeUnsigned, bind_of_ok hp]
  simp only [hd, h0]
  simp [u8, unsigned, decodeHead_bind 0 k (by decide) hk', show ¬k ≤ 255 by omega]

theorem entryStep_field {k : Nat} (hk : k ≤ 255) {s t : Bytes} {b' : Builder C}
    (h : b.readField k s = .ok (b', t)) :
    entryStep b ex (encodeUnsigned k ++ s) = .ok (some (b', ex), t) := by
  rw [entryStep_key b ex hk, bind_of_ok h]
  rfl

theorem strIter_encodeStr (k : Utf8String) (hk : k.bytes.length < 2 ^ 64) (t : Bytes) :
    strIter (encodeStr k ++ t) = .ok (k, t) := by
  obtain ⟨byte, tl, he, -, hinfo⟩ := encodeHead_eq_cons 3 k.bytes.length (by decide)
  have hne : byte ≠ 0x7f := fun h => by subst h; revert hinfo; decide
  have hs : encodeStr k ++ t = byte :: (tl ++ k.bytes ++ t) := by rw [encodeStr, he]; rfl
  rw [hs, strIter, if_neg hne, ← hs, str_encodeStr t k hk]

/-- An entry of the extras goes into the map through `BTreeMap::insert`. -/
theorem entryStep_extra (e : Utf8String × CborAny) (hk : e.1.bytes.length < 2 ^ 64)
    (hv : e.2.wellFormed = true) (hc : e.2.canonicalTags = true) (t : Bytes) :
    entryStep b ex (Status.encodeExtra e ++ t) =
      .ok (some (b, insertEntry Utf8String.compare e.1 e.2 ex), t) := by
  obtain ⟨byte, hp, hd⟩ :=
    peekByte_encodeHead 3 e.1.bytes.length (by decide) (e.1.bytes ++ (e.2.encode ++ t))
  have h3 : dataType (UInt8.ofNat (3 * 32)) = .string := rfl
  have hval : CborAny.decode (e.2.encode ++ t) = .ok (e.2, t) :=
    CborAny.decodeAny_encode e.2 hv hc _ (by simp) t
  rw [Status.encodeExtra, encodeStr, List.append_assoc, List.append_assoc, entryStep,
    bind_of_ok hp]
  simp only [hd, h3]
  rw [← List.append_assoc, ← encodeStr, bind_of_ok (strIter_encodeStr _ hk _), bind_of_ok hval]
  rfl

/-- An item of a type the loop has no arm for is left where it is. -/
theorem entryStep_skipped {byte : UInt8} (h : skipped (dataType byte) = true) (t : Bytes) :
    entryStep b ex (byte :: t) = .ok (some (b, ex), byte :: t) := by
  rw [entryStep, bind_of_ok (peekByte_cons byte t)]
  cases hd : dataType byte <;> rw [hd] at h <;> first | rfl | cases h

@[simp] theorem entryStep_break (t : Bytes) : entryStep b ex (0xff :: t) = .ok (none, t) := rfl

end Steps

section Loop

variable {b b' : Builder C} {ex ex' : List (Utf8String × CborAny)} {s s' t : Bytes} {k : Nat}
  {r : Option (Except DecodeError (Status C × Bytes))}

/-- An item of a type the loop has no arm for keeps an indefinite map's loop going forever. -/
theorem decodeLoop_skipped {byte : UInt8} (h : skipped (dataType byte) = true) (t : Bytes) :
    ∀ (fuel : Nat) (st : LoopState C), decodeLoop none fuel st (byte :: t) = none
  | 0, _ => rfl
  | fuel + 1, st => by
    simp only [decodeLoop, entryStep_skipped _ _ h, lengthReached, Bool.false_eq_true, if_false]
    exact decodeLoop_skipped h t fuel _

/-- From every count, the loop over an indefinite map started with this builder and these
extras ends in `r`, after the build, once its fuel reaches `k`. -/
def LoopEnds (b : Builder C) (ex : List (Utf8String × CborAny)) (s : Bytes) (k : Nat)
    (r : Option (Except DecodeError (Status C × Bytes))) : Prop :=
  ∀ i fuel, k ≤ fuel → (decodeLoop none fuel ⟨b, ex, i⟩ s).map finish = r

theorem LoopEnds.mono {k' : Nat} (h : LoopEnds b ex s k r) (hk : k ≤ k') : LoopEnds b ex s k' r :=
  fun i fuel hf => h i fuel (le_trans hk hf)

theorem LoopEnds.step (h : entryStep b ex s = .ok (some (b', ex'), s'))
    (hr : LoopEnds b' ex' s' k r) : LoopEnds b ex s (k + 1) r := by
  intro i fuel hf
  obtain ⟨f, rfl⟩ : ∃ f, fuel = f + 1 := ⟨fuel - 1, by omega⟩
  simp only [decodeLoop, h, lengthReached, Bool.false_eq_true, if_false]
  exact hr (i + 1) f (by omega)

theorem LoopEnds.field {n : Nat} (hn : n ≤ 255) (h : b.readField n s = .ok (b', s'))
    (hr : LoopEnds b' ex s' k r) : LoopEnds b ex (encodeUnsigned n ++ s) (k + 1) r :=
  LoopEnds.step (entryStep_field b ex hn h) hr

theorem loopEnds_break (b : Builder C) (ex : List (Utf8String × CborAny)) (t : Bytes) :
    LoopEnds b ex (0xff :: t) 1 (some ((b.build ex).map fun st => (st, t))) := by
  intro i fuel hf
  obtain ⟨f, rfl⟩ : ∃ f, fuel = f + 1 := ⟨fuel - 1, by omega⟩
  rfl

theorem loopEnds_error {e : DecodeError} (h : entryStep b ex s = .error e) :
    LoopEnds b ex s 1 (some (.error e)) := by
  intro i fuel hf
  obtain ⟨f, rfl⟩ : ∃ f, fuel = f + 1 := ⟨fuel - 1, by omega⟩
  simp only [decodeLoop, h]
  rfl

/-- The extras, written in key order, are inserted in that order and rebuild the map. -/
theorem loopEnds_extras (b : Builder C) (t : Bytes) (k : Nat) (r) :
    ∀ (l acc : List (Utf8String × CborAny)), SortedKeys Utf8String.compare (acc ++ l) →
      (∀ e ∈ l, e.1.bytes.length < 2 ^ 64 ∧ e.2.wellFormed = true ∧ e.2.canonicalTags = true) →
      LoopEnds b (acc ++ l) t k r →
      LoopEnds b acc ((l.map Status.encodeExtra).flatten ++ t) (k + l.length) r
  | [], acc, _, _, h => by simpa using h
  | e :: l, acc, hs, hw, h => by
    have hgt : ∀ x ∈ acc, Utf8String.compare e.1 x.1 = .gt := fun x hx => by
      rw [Utf8String.compare_swap,
        (List.pairwise_append.mp hs).2.2 x hx e (List.mem_cons_self _ _)]
      rfl
    obtain ⟨hk, hv, hc⟩ := hw e (List.mem_cons_self _ _)
    have hstep := entryStep_extra b acc e hk hv hc ((l.map Status.encodeExtra).flatten ++ t)
    rw [insertEntry_of_gt _ _ _ hgt] at hstep
    have ih := loopEnds_extras b t k r l (acc ++ [e]) (by simpa using hs)
      (fun x hx => hw x (List.mem_cons_of_mem _ hx)) (by simpa using h)
    rw [List.map_cons, List.flatten_cons, List.append_assoc, List.length_cons, ← Nat.add_assoc]
    exact LoopEnds.step hstep ih

end Loop

section Run

variable {ex : List (Utf8String × CborAny)} {t : Bytes} {k : Nat}
  {r : Option (Except DecodeError (Status C × Bytes))}

/-- The public-key entry when the encoder writes one; nothing otherwise. -/
theorem loopEnds_publicKey {b : Builder C} (hb : b.publicKey = none) (pk : Option Bytes)
    (key : Option C.CoseKey) (hpk : Status.KeyBytes C pk key)
    (h : LoopEnds { b with publicKey := key } ex t k r) :
    LoopEnds b ex (Status.publicKeyEntry pk ++ t) (k + 1) r := by
  match pk, key, hpk with
  | some _, some _, hpk =>
    rw [Status.publicKeyEntry, List.append_assoc]
    exact LoopEnds.field (by decide) (readField_publicKey b _ hpk) h
  | none, none, _ =>
    obtain ⟨_, _, _, _, _, _, _, _⟩ := b
    cases hb
    exact h.mono (Nat.le_succ k)

/-- The server-version entry when there is one; nothing otherwise. -/
theorem loopEnds_serverVersion {b : Builder C} (hb : b.serverVersion = none)
    (sv : Option Utf8String)
    (hsv : (match sv with
      | some v => decide (v.bytes.length < 2 ^ 64)
      | none => true) = true)
    (h : LoopEnds { b with serverVersion := sv } ex t k r) :
    LoopEnds b ex (Status.serverVersionEntry sv ++ t) (k + 1) r := by
  match sv, hsv with
  | some v, hsv =>
    rw [Status.serverVersionEntry, List.append_assoc]
    exact LoopEnds.field (by decide) (readField_serverVersion b _ v (by simpa using hsv)) h
  | none, _ =>
    obtain ⟨_, _, _, _, _, _, _, _⟩ := b
    cases hb
    exact h.mono (Nat.le_succ k)

namespace Status

/-- The builder once the keys the encoder writes have been read. -/
def readBack (s : Status C) : Builder C :=
  ⟨some s.version, some s.name, s.publicKey, some s.identity, some s.attributes,
    s.serverVersion, none, none⟩

/-- Reading the entries the encoder writes leaves the builder at `readBack` and rebuilds the
extras, one pass per entry. -/
theorem loopEnds_entries (s : Status C) (hs : s.wellFormed = true) (hc : s.canonicalTags = true)
    (pk : Option Bytes)
    (hpk : KeyBytes C pk s.publicKey) (h : LoopEnds s.readBack s.extras t k r) :
    LoopEnds (Builder.empty C) [] (s.entries pk ++ t) (k + s.extras.length + 6) r := by
  obtain ⟨v, n, key, i, a, sv, nn, tm, ex⟩ := s
  simp only [wellFormed, canonicalTags, Bool.and_eq_true, decide_eq_true_eq, List.all_eq_true] at hs hc
  obtain ⟨⟨⟨hn, hsv⟩, hsorted⟩, hwf⟩ := hs
  have hx := loopEnds_extras _ t k r ex [] hsorted
    (fun e he => ⟨(hwf e he).1, (hwf e he).2, hc e he⟩) h
  simp only [entries, List.append_assoc]
  exact LoopEnds.field (by decide) (readField_version _ _ v)
    (LoopEnds.field (by decide) (readField_name _ _ n hn)
    (loopEnds_publicKey rfl pk key hpk
    (LoopEnds.field (by decide) (readField_identity _ _ i)
    (LoopEnds.field (by decide) (readField_attributes _ _ a)
    (loopEnds_serverVersion rfl sv hsv hx)))))

/-- `to_bytes` returns the indefinite map of the entries, with the public key's bytes. -/
theorem toBytes_returns (s : Status C)
    (hpk : ∀ key, s.publicKey = some key → C.publicKey key = some key ∧ (C.toVec key).isSome) :
    ∃ pk, s.toBytes = .returns ([0xbf] ++ s.entries pk ++ [0xff]) ∧ KeyBytes C pk s.publicKey := by
  cases hk : s.publicKey with
  | none => exact ⟨none, by simp [toBytes, hk], trivial⟩
  | some key =>
    obtain ⟨hpub, hvec⟩ := hpk key hk
    obtain ⟨p, hp⟩ := Option.isSome_iff_exists.mp hvec
    exact ⟨some p, by simp [toBytes, hk, hpub, hp], hp⟩

theorem map_indefinite (s : Bytes) : Cbor.map (0xbf :: s) = .ok (none, s) := rfl

theorem fromBytes_of_loopEnds {s : Bytes} {fuel : Nat} (h : LoopEnds (Builder.empty C) [] s k r)
    (hk : k ≤ fuel) : fromBytes C fuel ([0xbf] ++ s) = r.map (Except.map Prod.fst) := by
  rw [fromBytes, decode, List.singleton_append, map_indefinite]
  exact congrArg _ (h 0 fuel hk)

end Status

end Run

/-- `Status::from_bytes` of an indefinite map whose next item is of a type the loop has no
arm for (a byte string, a negative integer, an array, a map, a tag, a boolean, null, a
float) never returns: the loop reads nothing and never reaches a break. -/
theorem from_bytes_never_returns (byte : UInt8) (t : Bytes) (h : skipped (dataType byte) = true) :
    ∀ fuel, Status.fromBytes C fuel (0xbf :: byte :: t) = none := by
  intro fuel
  simp only [Status.fromBytes, Status.decode, Status.map_indefinite, decodeLoop_skipped h t]
  rfl

/-- A status read back from its own bytes keeps every field except `network_name` and
`timeout`, which the encoder never writes and the decoder reads as absent. -/
theorem from_bytes_drops_unwritten_fields (s : Status C) (hs : s.wellFormed = true)
    (hc : s.canonicalTags = true)
    (hpk : ∀ key, s.publicKey = some key → C.publicKey key = some key ∧ (C.toVec key).isSome) :
    ∃ b, s.toBytes = .returns b ∧ ∀ fuel, s.extras.length + 7 ≤ fuel →
      Status.fromBytes C fuel b = some (.ok { s with networkName := none, timeout := none }) := by
  obtain ⟨pk, hbytes, hrel⟩ := s.toBytes_returns hpk
  refine ⟨_, hbytes, fun fuel hf => ?_⟩
  rw [List.append_assoc, Status.fromBytes_of_loopEnds
    (s.loopEnds_entries hs hc pk hrel (loopEnds_break s.readBack s.extras [])) (by omega)]
  rfl

/-- An entry with an unknown integer key, added before the break, makes `from_bytes` fail:
a key up to 255 is read without its value, which is then read as the next key (here 0,
whose field finds the break); a larger key fails `d.u8()`. -/
theorem unknown_key_breaks_decoding (s : Status C) (hs : s.wellFormed = true)
    (hc : s.canonicalTags = true)
    (hpk : ∀ key, s.publicKey = some key → C.publicKey key = some key ∧ (C.toVec key).isSome)
    {k : Nat} (hk : 7 < k) (hk' : k < 2 ^ 64) :
    ∃ m, s.toBytes = .returns ([0xbf] ++ m ++ [0xff]) ∧
      (∀ fuel, s.extras.length + 7 ≤ fuel → Status.fromBytes C fuel ([0xbf] ++ m ++ [0xff]) =
        some (.ok { s with networkName := none, timeout := none })) ∧
      ∀ fuel, s.extras.length + 8 ≤ fuel →
        Status.fromBytes C fuel ([0xbf] ++ m ++ encodeUnsigned k ++
          CborAny.encode (.int ⟨0, by decide, by decide⟩) ++ [0xff]) =
          some (.error (if k ≤ 255 then .typeMismatch 7 else .overflow k)) := by
  obtain ⟨pk, hbytes, hrel⟩ := s.toBytes_returns hpk
  refine ⟨_, hbytes, fun fuel hf => ?_, fun fuel hf => ?_⟩
  · rw [List.append_assoc, Status.fromBytes_of_loopEnds
      (s.loopEnds_entries hs hc pk hrel (loopEnds_break s.readBack s.extras [])) (by omega)]
    rfl
  · have hkey : LoopEnds s.readBack s.extras (encodeUnsigned k ++ [0x00, 0xff]) 2
        (some (.error (if k ≤ 255 then .typeMismatch 7 else .overflow k))) := by
      split_ifs with h255
      · exact LoopEnds.field h255 (by rw [readField_unknown _ hk]; rfl)
          (loopEnds_error (show entryStep s.readBack s.extras [0x00, 0xff] =
            .error (.typeMismatch 7) from rfl))
      · exact (loopEnds_error (entryStep_key_overflow _ _ (by omega) hk' _)).mono (by omega)
    rw [show [0xbf] ++ s.entries pk ++ encodeUnsigned k ++
        CborAny.encode (.int ⟨0, by decide, by decide⟩) ++ [0xff] =
        [0xbf] ++ (s.entries pk ++ (encodeUnsigned k ++ [0x00, 0xff])) by simp; rfl,
      Status.fromBytes_of_loopEnds (s.loopEnds_entries hs hc pk hrel hkey) (by omega)]
    rfl

/-- Codecs for a concrete server: keys, attribute sets and network names are byte strings
written escaped, and a key is its own public part. -/
def plainStatusCodecs : StatusCodecs where
  CoseKey := Bytes
  AttributeSet := Bytes
  NetworkName := Bytes
  identity := ⟨fun a => escape a.bytes, fun s => (unescape s).map fun r => (⟨r.1⟩, r.2),
    fun a rest => by simp only [unescape_escape]; rfl⟩
  attributes := ⟨escape, unescape, unescape_escape⟩
  networkName := unescape
  publicKey := some
  toVec := fun k => if k.length < 2 ^ 64 then some k else none
  fromSlice := some
  fromSlice_toVec := fun k b h => by
    simp only at h
    split_ifs at h
    simp_all
  toVec_length := fun k b h => by
    simp only at h
    split_ifs at h with hk
    simp_all

/-- A status with every field set. -/
def sampleStatus : Status plainStatusCodecs where
  version := 1
  name := ⟨[0x6d], rfl⟩
  publicKey := some [7]
  identity := ⟨[1]⟩
  attributes := []
  serverVersion := some ⟨[0x31], rfl⟩
  networkName := some []
  timeout := some 300
  extras := [(⟨[0x61], rfl⟩, .bool true)]

theorem sampleStatus_publicKey (key : plainStatusCodecs.CoseKey)
    (h : sampleStatus.publicKey = some key) :
    plainStatusCodecs.publicKey key = some key ∧ (plainStatusCodecs.toVec key).isSome := by
  cases Option.some.inj h
  exact ⟨rfl, by decide⟩

theorem from_bytes_never_returns_on_bytes_key :
    skipped (dataType 0x40) = true ∧
      ∀ fuel, Status.fromBytes plainStatusCodecs fuel [0xbf, 0x40] = none :=
  ⟨by decide, from_bytes_never_returns 0x40 [] (by decide)⟩

theorem from_bytes_drops_sample_timeout :
    sampleStatus.wellFormed = true ∧ sampleStatus.canonicalTags = true ∧
      (∀ key, sampleStatus.publicKey = some key →
        plainStatusCodecs.publicKey key = some key ∧ (plainStatusCodecs.toVec key).isSome) ∧
      ∃ b, sampleStatus.toBytes = .returns b ∧ ∀ fuel, sampleStatus.extras.length + 7 ≤ fuel →
        Status.fromBytes plainStatusCodecs fuel b =
          some (.ok { sampleStatus with networkName := none, timeout := none }) :=
  ⟨by decide, by decide, sampleStatus_publicKey,
    from_bytes_drops_unwritten_fields sampleStatus (by decide) (by decide) sampleStatus_publicKey⟩

theorem unknown_key_eight_breaks_sample :
    sampleStatus.wellFormed = true ∧ sampleStatus.canonicalTags = true ∧
      (∀ key, sampleStatus.publicKey = some key →
        plainStatusCodecs.publicKey key = some key ∧ (plainStatusCodecs.toVec key).isSome) ∧
      7 < 8 ∧ 8 < 2 ^ 64 ∧
      ∃ m, sampleStatus.toBytes = .returns ([0xbf] ++ m ++ [0xff]) ∧
        (∀ fuel, sampleStatus.extras.length + 7 ≤ fuel →
          Status.fromBytes plainStatusCodecs fuel ([0xbf] ++ m ++ [0xff]) =
            some (.ok { sampleStatus with networkName := none, timeout := none })) ∧
        ∀ fuel, sampleStatus.extras.length + 8 ≤ fuel →
          Status.fromBytes plainStatusCodecs fuel ([0xbf] ++ m ++ encodeUnsigned 8 ++
            CborAny.encode (.int ⟨0, by decide, by decide⟩) ++ [0xff]) =
            some (.error (if 8 ≤ 255 then .typeMismatch 7 else .overflow 8)) :=
  ⟨by decide, by decide, sampleStatus_publicKey, by decide, by decide,
    unknown_key_breaks_decoding sampleStatus (by decide) (by decide) sampleStatus_publicKey
      (by decide) (by decide)⟩

end ManyRs.Server
