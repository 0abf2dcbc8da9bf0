import ManyRs.Ledger.Commit
import ManyRs.Identity
import Mathlib.Data.List.Iterate

/-! The idstore of `LedgerStorage`: `store` writes a credential under the recall phrase and under
the address after a duplicate check, and `inc_idstore_seed` hands out the seeds of new phrases. -/
namespace ManyRs.Ledger
open ManyRs.Store ManyRs.Cbor

abbrev RecallPhrase := List String

abbrev CredentialId := Bytes

abbrev PublicKey := Bytes

/-- `CredentialStorage`, the value stored under both keys. -/
structure CredentialStorage where
  credId : CredentialId
  publicKey : PublicKey

/-- `IDSTORE_ROOT`. -/
def idstoreRoot : Key := ascii "/idstore/"

inductive IdStoreRootSeparator
  | recallPhrase
  | address

def IdStoreRootSeparator.value : IdStoreRootSeparator → Key
  | .recallPhrase => ascii "00"
  | .address => ascii "01"

/-- The errors of the idstore: `existing_entry`, `entry_not_found` with its text, a credential
that does not decode, and the storage errors of its writes. -/
inductive IdStoreError
  | existingEntry
  | entryNotFound (text : String)
  | deserialization (e : DecodeError)
  | storage (e : StorageError)

/-- What the idstore uses that is not in src: the CBOR codec of `CredentialStorage` and the
text of an address. -/
structure IdStoreEnv where
  credentialCodec : Codec CredentialStorage
  addressToString : Address → String

/-- `minicbor::to_vec(recall_phrase)`. -/
def recallPhraseCbor (recallPhrase : RecallPhrase) : Bytes := encodeTextArray recallPhrase

/-- The key `get_from_storage` reads for `key` and a separator. -/
def idstoreKey (sep : IdStoreRootSeparator) (key : Bytes) : Key := idstoreRoot ++ sep.value ++ key

variable (env : IdStoreEnv)

/-- `LedgerStorage::store`: refuses a recall phrase whose CBOR bytes are a key of the store,
else writes the credential under the recall phrase and under the address. -/
def store (faults : WriteFaults) (recallPhrase : RecallPhrase) (address : Address)
    (credId : CredentialId) (publicKey : PublicKey) :
    EStateM IdStoreError LedgerStorage (List Key) := fun st =>
  let cbor := recallPhraseCbor recallPhrase
  if (st.persistentStore.get cbor).isSome then .error .existingEntry st else
  let value := env.credentialCodec.encode ⟨credId, publicKey⟩
  let batch := [(idstoreKey .recallPhrase cbor, .put value),
    (idstoreKey .address address.toVec, .put value)]
  ((fun _ => [cbor, idstoreKey .recallPhrase cbor, idstoreKey .address address.toVec]) <$>
    (applyBatch faults batch).adaptExcept .storage) st

/-- `get_from_storage`: the value under `IDSTORE_ROOT`, the separator and `key`, and that key. -/
def getFromStorage (st : LedgerStorage) (key : Bytes) (sep : IdStoreRootSeparator) :
    Option Value × Key :=
  (st.persistentStore.get (idstoreKey sep key), idstoreKey sep key)

/-- The credential a stored value holds, with its storage key. -/
def credentialOf (stored : Option Value × Key) (missing : String) :
    Except IdStoreError (CredentialId × PublicKey × Key) :=
  match stored with
  | (some value, key) =>
    match env.credentialCodec.decode value with
    | .ok (c, _) => .ok (c.credId, c.publicKey, key)
    | .error e => .error (.deserialization e)
  | (none, _) => .error (.entryNotFound missing)

/-- `get_from_recall_phrase`. -/
def getFromRecallPhrase (st : LedgerStorage) (recallPhrase : RecallPhrase) :
    Except IdStoreError (CredentialId × PublicKey × Key) :=
  credentialOf env (getFromStorage st (recallPhraseCbor recallPhrase) .recallPhrase)
    (" ".intercalate recallPhrase)

/-- `get_from_address`. -/
def getFromAddress (st : LedgerStorage) (address : Address) :
    Except IdStoreError (CredentialId × PublicKey × Key) :=
  credentialOf env (getFromStorage st address.toVec .address) (env.addressToString address)

/-- A `store` call, with the storage failures of its write. -/
structure StoreCall where
  recallPhrase : RecallPhrase
  address : Address
  credId : CredentialId
  publicKey : PublicKey
  faults : WriteFaults

/-- A run of `store` calls; each leaves the storage its write left, whatever it answers. -/
def runStores : List StoreCall → LedgerStorage → LedgerStorage
  | [], st => st
  | c :: calls, st =>
    runStores calls (resultState (store env c.faults c.recallPhrase c.address c.credId c.publicKey st))

section Keys

theorem idstoreKey_head (sep : IdStoreRootSeparator) (key : Bytes) :
    (idstoreKey sep key).head? = some 47 := rfl

/-- The key the duplicate check reads starts with an array head, never with `/`: no idstore
key is it. -/
theorem recallPhraseCbor_ne_idstoreKey (rp : RecallPhrase) (sep : IdStoreRootSeparator)
    (key : Bytes) : recallPhraseCbor rp ≠ idstoreKey sep key := by
  intro h
  have hm := encodeHead_major (by decide : 4 < 8) rp.length
  have hk := congrArg (fun l => l.head?.map fun b => b.toNat / 32) h
  have h47 : (idstoreKey sep key).head?.map (fun b => b.toNat / 32) = some 1 := by
    rw [idstoreKey_head]; rfl
  cases he : encodeHead 4 rp.length with
  | nil => simp [he] at hm
  | cons b l =>
    simp only [recallPhraseCbor, encodeTextArray, he, List.cons_append, List.head?_cons,
      Option.map_some', h47] at hk hm
    exact absurd (Option.some.inj (hk.symm.trans hm)) (by decide)

theorem idstoreKey_sep_ne (k k' : Bytes) :
    idstoreKey .recallPhrase k ≠ idstoreKey .address k' := by
  simp [idstoreKey, idstoreRoot, IdStoreRootSeparator.value, ascii]

theorem idstoreKey_injective {sep : IdStoreRootSeparator} {k k' : Bytes}
    (h : idstoreKey sep k = idstoreKey sep k') : k = k' :=
  List.append_cancel_left h

end Keys

section Store

variable {env} {faults : WriteFaults} {st st' : LedgerStorage} {rp : RecallPhrase} {a : Address}
  {c : CredentialId} {k : PublicKey} {keys : List Key}

/-- The batch `store` writes. -/
def credentialBatch (env : IdStoreEnv) (rp : RecallPhrase) (a : Address) (c : CredentialId)
    (k : PublicKey) : Batch :=
  [(idstoreKey .recallPhrase (recallPhraseCbor rp), .put (env.credentialCodec.encode ⟨c, k⟩)),
    (idstoreKey .address a.toVec, .put (env.credentialCodec.encode ⟨c, k⟩))]

theorem get_credentialBatch (m : Merk) (key : Key) :
    (m.apply (credentialBatch env rp a c k)).get key =
      if key = idstoreKey .address a.toVec ∨ key = idstoreKey .recallPhrase (recallPhraseCbor rp)
      then some (env.credentialCodec.encode ⟨c, k⟩) else m.get key := by
  simp only [credentialBatch, Merk.apply_cons, Merk.apply_nil, Merk.get_stage, Op.result]
  by_cases h₁ : key = idstoreKey .address a.toVec
  · simp [h₁]
  · by_cases h₂ : key = idstoreKey .recallPhrase (recallPhraseCbor rp) <;> simp [h₁, h₂]

variable (env a c k) in
theorem store_of_absent (h : st.persistentStore.get (recallPhraseCbor rp) = none) :
    ∃ st', store env .none rp a c k st = .ok [recallPhraseCbor rp,
      idstoreKey .recallPhrase (recallPhraseCbor rp), idstoreKey .address a.toVec] st' := by
  obtain ⟨st', hw⟩ := applyBatch_none (credentialBatch env rp a c k) st
  exact ⟨st', by
    simp only [store, h, Option.isSome_none, Bool.false_eq_true, if_false]
    exact map_adaptExcept_of_ok _ _ hw⟩

/-- What a successful `store` leaves at each key: the credential under the recall phrase and
under the address, everything else as it was. -/
theorem get_of_store (h : store env faults rp a c k st = .ok keys st') (key : Key) :
    st'.persistentStore.get key =
      if key = idstoreKey .address a.toVec ∨ key = idstoreKey .recallPhrase (recallPhraseCbor rp)
      then some (env.credentialCodec.encode ⟨c, k⟩) else st.persistentStore.get key := by
  unfold store at h
  dsimp only at h
  split_ifs at h
  obtain ⟨u, hw, -⟩ := map_adaptExcept_eq_ok h
  rw [get_of_applyBatch_ok hw, ← credentialBatch, get_credentialBatch]

/-- Unless its `apply` fails, a `store` leaves every key but its two as it was, whatever it
answers. -/
theorem get_store_of_ne (hf : faults.apply = none) {key : Key}
    (h₁ : key ≠ idstoreKey .address a.toVec)
    (h₂ : key ≠ idstoreKey .recallPhrase (recallPhraseCbor rp)) :
    (resultState (store env faults rp a c k st)).persistentStore.get key =
      st.persistentStore.get key := by
  unfold store
  dsimp only
  split_ifs
  · rfl
  · rw [resultState_map, resultState_adaptExcept, get_applyBatch hf, ← credentialBatch,
      get_credentialBatch, if_neg (not_or.mpr ⟨h₁, h₂⟩)]

theorem credentialOf_encode (key : Key) (missing : String) :
    credentialOf env (some (env.credentialCodec.encode ⟨c, k⟩), key) missing = .ok (c, k, key) := by
  have hd := env.credentialCodec.decode_encode ⟨c, k⟩ []
  rw [List.append_nil] at hd
  simp [credentialOf, hd]

/-- A successful `store` does not write the key its own duplicate check reads. -/
theorem get_recallPhraseCbor_of_store (h : store env faults rp a c k st = .ok keys st')
    (rp' : RecallPhrase) :
    st'.persistentStore.get (recallPhraseCbor rp') = st.persistentStore.get (recallPhraseCbor rp') := by
  rw [get_of_store h, if_neg (not_or.mpr ⟨recallPhraseCbor_ne_idstoreKey _ _ _,
    recallPhraseCbor_ne_idstoreKey _ _ _⟩)]

/-- A run of `store` calls for other addresses, none of whose `apply` fails, leaves what is
stored under `a`. -/
theorem get_address_runStores (calls : List StoreCall)
    (hcalls : ∀ call ∈ calls, call.address ≠ a ∧ call.faults.apply = none) (s : LedgerStorage) :
    (runStores env calls s).persistentStore.get (idstoreKey .address a.toVec) =
      s.persistentStore.get (idstoreKey .address a.toVec) := by
  induction calls generalizing s with
  | nil => rfl
  | cons call calls ih =>
    obtain ⟨ha, hf⟩ := hcalls call (List.mem_cons_self _ _)
    rw [runStores, ih (fun call hm => hcalls call (List.mem_cons_of_mem _ hm)),
      get_store_of_ne hf (fun he => ha ?_) (idstoreKey_sep_ne _ _).symm]
    exact Address.toVec_injective (idstoreKey_injective he).symm

/-- After a successful `store` for `a`, `get_from_address(a)` returns its credential through
every later run of `store` calls for other addresses in which no `apply` fails. -/
theorem getFromAddress_runStores (h : store env faults rp a c k st = .ok keys st')
    (calls : List StoreCall) (hcalls : ∀ call ∈ calls, call.address ≠ a ∧ call.faults.apply = none) :
    getFromAddress env (runStores env calls st') a = .ok (c, k, idstoreKey .address a.toVec) := by
  simp only [getFromAddress, getFromStorage]
  rw [get_address_runStores calls hcalls, get_of_store h, if_pos (.inl rfl)]
  exact credentialOf_encode _ _

end Store

/-- On a storage whose store does not hold the recall phrase's CBOR bytes as a key (a fresh one
does not), two `store` calls with the same recall phrase both succeed, and the recall phrase then
reads the second credential. -/
theorem store_same_recall_phrase_twice (rp : RecallPhrase) (a a' : Address) (c c' : CredentialId)
    (k k' : PublicKey) {st : LedgerStorage}
    (h : st.persistentStore.get (recallPhraseCbor rp) = none) :
    ∃ keys₁ st₁ keys₂ st₂, store env .none rp a c k st = .ok keys₁ st₁ ∧
      store env .none rp a' c' k' st₁ = .ok keys₂ st₂ ∧
      getFromRecallPhrase env st₂ rp = .ok (c', k', idstoreKey .recallPhrase (recallPhraseCbor rp)) := by
  obtain ⟨st₁, h₁⟩ := store_of_absent env a c k h
  obtain ⟨st₂, h₂⟩ := store_of_absent env a' c' k'
    ((get_recallPhraseCbor_of_store h₁ rp).trans h)
  refine ⟨_, st₁, _, st₂, h₁, h₂, ?_⟩
  simp only [getFromRecallPhrase, getFromStorage]
  rw [get_of_store h₂, if_pos (.inr rfl)]
  exact credentialOf_encode _ _

/-! `inc_idstore_seed` reads the seed at `IDSTORE_SEED_ROOT`, 0 when none is stored, stages its
successor and returns it. No `store` writes that key, so over any run the seeds come out one
after another, until the addition overflows at `u64::MAX`. -/

/-- `IDSTORE_SEED_ROOT`. -/
def idstoreSeedRoot : Key := ascii "/config/idstore_seed"

/-- `u64::to_be_bytes`. -/
def u64ToBeBytes (x : UInt64) : Bytes := beBytes 8 x.toNat

/-- The seed `inc_idstore_seed` reads: 0 when none is stored, else `u64::from_be_bytes` of the
value, which `copy_from_slice` into 8 bytes refuses with a panic when it has another length. -/
def readSeed (st : LedgerStorage) : Outcome UInt64 :=
  match st.persistentStore.get idstoreSeedRoot with
  | none => .returns 0
  | some x =>
    let n := x.length
    if n = 8 then .returns (UInt64.ofNat (fromBytesBE x))
    else .aborts s!"source slice length ({n}) does not match destination slice length (8)"

/-- `inc_idstore_seed`: stages the seed plus one (`u64` addition, checked as in a debug build),
maybe commits, and returns the seed it read. -/
def incIdstoreSeed (faults : WriteFaults) (st : LedgerStorage) :
    Outcome (EStateM.Result IdStoreError LedgerStorage UInt64) :=
  match readSeed st with
  | .aborts message => .aborts message
  | .returns seed =>
    match checkedSucc seed with
    | none => .aborts "attempt to add with overflow"
    | some next =>
      .returns (((fun _ => seed) <$> (applyBatch faults [(idstoreSeedRoot, .put (u64ToBeBytes next))]).adaptExcept
        .storage) st)

/-- The storage errors of the `apply` calls of `with_idstore`, by their order. -/
def applyEach (applyFault : Nat → Option String) : Nat → List Batch → LedgerStorage →
    Except IdStoreError LedgerStorage
  | _, [], st => .ok st
  | i, batch :: batches, st =>
    match applyFault i with
    | some e => .error (.storage (.applyFailed e))
    | none => applyEach applyFault (i + 1) batches { st with persistentStore := st.persistentStore.apply batch }

/-- `with_idstore`, with the keys and values already decoded from base64: stages the seed, then
each pair, each by an `apply` of its own; nothing is committed. -/
def withIdstore (applyFault : Nat → Option String) (maybeSeed : Option UInt64)
    (maybeKeys : Option (List (Bytes × Bytes))) (st : LedgerStorage) :
    Except IdStoreError LedgerStorage :=
  let seedBatch := match maybeSeed with
    | some seed => [[(idstoreSeedRoot, Op.put (u64ToBeBytes seed))]]
    | none => []
  let keyBatches := match maybeKeys with
    | some keys => keys.map fun e => [(e.1, Op.put e.2)]
    | none => []
  applyEach applyFault 0 (seedBatch ++ keyBatches) st

/-- The idstore calls of a ledger, with the storage failures of their writes. -/
inductive IdStoreCall
  | store (recallPhrase : RecallPhrase) (address : Address) (credId : CredentialId)
      (publicKey : PublicKey) (faults : WriteFaults)
  | incSeed (faults : WriteFaults)

def IdStoreCall.isIncSeed : IdStoreCall → Bool
  | .incSeed _ => true
  | .store .. => false

def IdStoreCall.faults : IdStoreCall → WriteFaults
  | .store _ _ _ _ faults | .incSeed faults => faults

/-- The seed a call hands out: the one it returns, none when it answers an error. -/
def handedOut {ε σ α : Type} : EStateM.Result ε σ α → List α
  | .ok a _ => [a]
  | .error _ _ => []

/-- A run of idstore calls, with the seeds it hands out in order: each call leaves the storage
its write left, whatever it answers, and a panic ends the run. -/
def runIdStore : List IdStoreCall → LedgerStorage → Outcome (List UInt64 × LedgerStorage)
  | [], st => .returns ([], st)
  | .store rp a c k faults :: calls, st => runIdStore calls (resultState (store env faults rp a c k st))
  | .incSeed faults :: calls, st =>
    match incIdstoreSeed faults st with
    | .aborts message => .aborts message
    | .returns r =>
      match runIdStore calls (resultState r) with
      | .returns (seeds, st') => .returns (handedOut r ++ seeds, st')
      | .aborts message => .aborts message

section Seed

variable {env} {faults : WriteFaults} {st : LedgerStorage} {s : UInt64}

theorem idstoreSeedRoot_ne_idstoreKey (sep : IdStoreRootSeparator) (key : Bytes) :
    idstoreSeedRoot ≠ idstoreKey sep key := by
  intro h
  have h₂ : (idstoreSeedRoot.drop 1).head? = ((idstoreKey sep key).drop 1).head? := by rw [h]
  have hs : (idstoreSeedRoot.drop 1).head? = some 99 := rfl
  have hk : ((idstoreKey sep key).drop 1).head? = some 105 := rfl
  rw [hs, hk] at h₂
  exact absurd h₂ (by decide)

theorem readSeed_of_get (h : st.persistentStore.get idstoreSeedRoot = some (u64ToBeBytes s)) :
    readSeed st = .returns s := by
  have hb : fromBytesBE (u64ToBeBytes s) = s.toNat := by
    rw [fromBytesBE, u64ToBeBytes, foldl_beBytes, Nat.zero_mul, Nat.zero_add]
    exact Nat.mod_eq_of_lt (UInt64.toNat_lt_size s)
  simp only [readSeed, h, u64ToBeBytes, beBytes_length, if_true]
  rw [← u64ToBeBytes, hb]
  exact congrArg _ (UInt64.toNat.inj (UInt64.toNat_ofNat_of_lt (UInt64.toNat_lt_size s)))

variable (env) in
/-- Unless its `apply` fails, a `store` leaves the seed where it was, whatever it answers. -/
theorem readSeed_store (hf : faults.apply = none) (rp : RecallPhrase) (a : Address)
    (c : CredentialId) (k : PublicKey) :
    readSeed (resultState (store env faults rp a c k st)) = readSeed st := by
  simp only [readSeed, get_store_of_ne hf (idstoreSeedRoot_ne_idstoreKey _ _)
    (idstoreSeedRoot_ne_idstoreKey _ _)]

theorem handedOut_map_adaptExcept {ε ε' σ α β : Type} (x : EStateM ε σ α) (f : ε → ε')
    (g : α → β) (s : σ) : handedOut ((g <$> x.adaptExcept f) s) = (handedOut (x s)).map g := by
  change handedOut (EStateM.map g (x.adaptExcept f) s) = _
  unfold EStateM.map EStateM.adaptExcept
  cases x s <;> rfl

variable (faults) in
/-- Below `u64::MAX`, `inc_idstore_seed` stages the next seed, returns the one it read unless
its commit fails, and returns it when nothing fails; at `u64::MAX` it panics. -/
theorem incIdstoreSeed_of_readSeed (hf : faults.apply = none) (h : readSeed st = .returns s) :
    (s.toNat + 1 < 2 ^ 64 → ∃ r, incIdstoreSeed faults st = .returns r ∧
      readSeed (resultState r) = .returns (s + 1) ∧ (handedOut r).Sublist [s] ∧
      (faults.commit = none → handedOut r = [s])) ∧
    (s.toNat + 1 = 2 ^ 64 → incIdstoreSeed faults st = .aborts "attempt to add with overflow") := by
  refine ⟨fun hs => ⟨((fun _ => s) <$> (applyBatch faults
      [(idstoreSeedRoot, .put (u64ToBeBytes (s + 1)))]).adaptExcept .storage) st,
      by simp only [incIdstoreSeed, h, checkedSucc, if_pos hs], ?_, ?_, ?_⟩,
    fun hs => by
      simp only [incIdstoreSeed, h, checkedSucc, if_neg (by omega : ¬ s.toNat + 1 < 2 ^ 64)]⟩
  · refine readSeed_of_get ?_
    simp only [resultState_map, resultState_adaptExcept, get_applyBatch hf, Merk.apply_cons,
      Merk.apply_nil, Merk.get_stage, if_pos, Op.result]
  · rw [handedOut_map_adaptExcept]
    cases applyBatch faults [(idstoreSeedRoot, .put (u64ToBeBytes (s + 1)))] st <;>
      simp [handedOut]
  · intro hc
    obtain ⟨st', hw⟩ := applyBatch_of_none hf hc [(idstoreSeedRoot, .put (u64ToBeBytes (s + 1)))] st
    rw [handedOut_map_adaptExcept, hw]
    rfl

theorem iterate_succ_toNat (b : UInt64) (i : Nat) :
    ((· + 1)^[i] b).toNat = (b.toNat + i) % 2 ^ 64 := by
  induction i with
  | zero => exact (Nat.mod_eq_of_lt (UInt64.toNat_lt_size b)).symm
  | succ i ih =>
    rw [Function.iterate_succ_apply']
    show (((· + 1)^[i] b).toNat + 1) % 2 ^ 64 = _
    rw [ih]
    omega

/-- Fewer than `2 ^ 64` successive seeds are distinct. -/
theorem iterate_succ_nodup : ∀ (b : UInt64) {n : Nat}, n ≤ 2 ^ 64 → (List.iterate (· + 1) b n).Nodup
  | _, 0, _ => List.nodup_nil
  | b, n + 1, hn => by
    refine List.nodup_cons.mpr ⟨fun hm => ?_, iterate_succ_nodup (b + 1) (by omega)⟩
    obtain ⟨i, hi, he⟩ := List.mem_iterate.mp hm
    have h₁ := congrArg UInt64.toNat he
    rw [iterate_succ_toNat] at h₁
    have h₂ : (b + 1).toNat = (b.toNat + 1) % 2 ^ 64 := rfl
    have hb := UInt64.toNat_lt_size b
    rw [h₂] at h₁
    simp only [UInt64.size] at hb
    omega

theorem toNat_succ_of_lt (hs : s.toNat + 1 < 2 ^ 64) : (s + 1).toNat = s.toNat + 1 :=
  toNat_of_checkedSucc (by simp only [checkedSucc, if_pos hs])

/-- Over a run from a storage whose seed reads as `s`, in which no `apply` fails: while the seeds
stay below `u64::MAX` no call panics and the seeds handed out are among `s`, `s + 1`, … in
order, all of them when no commit fails; once a call reads `u64::MAX` the run panics. -/
theorem runIdStore_seeds (calls : List IdStoreCall) (hcalls : ∀ c ∈ calls, c.faults.apply = none)
    (h : readSeed st = .returns s) :
    (s.toNat + calls.countP IdStoreCall.isIncSeed < 2 ^ 64 →
      ∃ seeds st', runIdStore env calls st = .returns (seeds, st') ∧
        seeds.Sublist (List.iterate (· + 1) s (calls.countP IdStoreCall.isIncSeed)) ∧
        ((∀ c ∈ calls, c.faults.commit = none) →
          seeds = List.iterate (· + 1) s (calls.countP IdStoreCall.isIncSeed))) ∧
    (2 ^ 64 ≤ s.toNat + calls.countP IdStoreCall.isIncSeed →
      runIdStore env calls st = .aborts "attempt to add with overflow") := by
  induction calls generalizing st s with
  | nil =>
    have : s.toNat < 2 ^ 64 := s.toNat_lt_size
    exact ⟨fun _ => ⟨[], st, rfl, List.nil_sublist _, fun _ => rfl⟩,
      fun hs => by simp at hs; omega⟩
  | cons call calls ih =>
    rw [List.forall_mem_cons] at hcalls
    cases call with
    | store rp a c k faults =>
      have ih' := ih hcalls.2 ((readSeed_store env (hcalls.1 : faults.apply = none) rp a c k).trans h)
      simp only [List.countP_cons, IdStoreCall.isIncSeed, Bool.false_eq_true, if_false,
        Nat.add_zero, List.forall_mem_cons] at ih' ⊢
      exact ⟨fun hs => let ⟨seeds, st', hr, hsub, hall⟩ := ih'.1 hs
          ⟨seeds, st', hr, hsub, fun hc => hall hc.2⟩, ih'.2⟩
    | incSeed faults =>
      simp only [List.countP_cons, IdStoreCall.isIncSeed, if_true, List.forall_mem_cons,
        IdStoreCall.faults]
      have hinc := incIdstoreSeed_of_readSeed faults hcalls.1 h
      by_cases hs : s.toNat + 1 < 2 ^ 64
      · obtain ⟨r, hr, hs₁, hsub₁, hall₁⟩ := hinc.1 hs
        have ih' := ih hcalls.2 hs₁
        rw [toNat_succ_of_lt hs] at ih'
        refine ⟨fun hn => ?_, fun hn => ?_⟩
        · obtain ⟨seeds, st', hrun, hsub, hall⟩ := ih'.1 (by omega)
          refine ⟨handedOut r ++ seeds, st', by simp only [runIdStore, hr, hrun], ?_, fun hc => ?_⟩
          · simp only [List.iterate]
            exact List.singleton_append ▸ hsub₁.append hsub
          · rw [hall₁ hc.1, hall hc.2]
            rfl
        · simp only [runIdStore, hr, ih'.2 (by omega)]
      · have hmax : s.toNat + 1 = 2 ^ 64 := by have : s.toNat < 2 ^ 64 := s.toNat_lt_size; omega
        refine ⟨fun hn => absurd hn (by omega), fun _ => ?_⟩
        simp only [runIdStore, hinc.2 hmax]

end Seed

/-- An idstore whose credentials are written as the escaped id and key. -/
def plainIdStoreEnv : IdStoreEnv where
  credentialCodec := ⟨fun c => escape c.credId ++ escape c.publicKey,
    fun b => match unescape b with
      | .ok (i, r) => (unescape r).map fun x => (⟨i, x.1⟩, x.2)
      | .error e => .error e,
    fun ⟨i, p⟩ rest => by simp [unescape_escape, List.append_assoc, Except.map]⟩
  addressToString _ := ""

theorem store_same_recall_phrase_twice_on_fresh :
    fresh.persistentStore.get (recallPhraseCbor ["a"]) = none ∧
      ∃ keys₁ st₁ keys₂ st₂, store plainIdStoreEnv .none ["a"] ⟨[1]⟩ [1] [1] fresh = .ok keys₁ st₁ ∧
        store plainIdStoreEnv .none ["a"] ⟨[2]⟩ [2] [2] st₁ = .ok keys₂ st₂ ∧
        getFromRecallPhrase plainIdStoreEnv st₂ ["a"] =
          .ok ([2], [2], idstoreKey .recallPhrase (recallPhraseCbor ["a"])) :=
  ⟨rfl, store_same_recall_phrase_twice plainIdStoreEnv ["a"] ⟨[1]⟩ ⟨[2]⟩ [1] [2] [1] [2] rfl⟩

theorem getFromAddress_after_other_store :
    ∃ keys st', store plainIdStoreEnv .none ["a"] ⟨[1]⟩ [1] [1] fresh = .ok keys st' ∧
      (∀ call ∈ [StoreCall.mk ["b"] ⟨[2]⟩ [2] [2] .none],
        call.address ≠ ⟨[1]⟩ ∧ call.faults.apply = none) ∧
      getFromAddress plainIdStoreEnv (runStores plainIdStoreEnv [⟨["b"], ⟨[2]⟩, [2], [2], .none⟩] st')
        ⟨[1]⟩ = .ok ([1], [1], idstoreKey .address (Address.toVec ⟨[1]⟩)) := by
  obtain ⟨keys, st', h⟩ : ∃ keys st',
      store plainIdStoreEnv .none ["a"] ⟨[1]⟩ [1] [1] fresh = .ok keys st' := ⟨_, _, rfl⟩
  have hcalls : ∀ call ∈ [StoreCall.mk ["b"] ⟨[2]⟩ [2] [2] .none],
      call.address ≠ ⟨[1]⟩ ∧ call.faults.apply = none := by
    simp only [List.mem_singleton, forall_eq]
    exact ⟨by decide, rfl⟩
  exact ⟨keys, st', h, hcalls, getFromAddress_runStores h _ hcalls⟩

/-- Over any run of `store` and `inc_idstore_seed` calls in which no `apply` fails, from a storage
whose seed reads as `s`: while `s` plus the number of seed calls stays below `2 ^ 64`, no call
panics, the seeds handed out are distinct and among `s`, `s + 1`, … in order, and are all of
them when no commit fails; otherwise the run panics when the seed reaches `u64::MAX`. -/
theorem idstore_seeds_distinct {st : LedgerStorage} {s : UInt64} (calls : List IdStoreCall)
    (hcalls : ∀ c ∈ calls, c.faults.apply = none) (h : readSeed st = .returns s) :
    (s.toNat + calls.countP IdStoreCall.isIncSeed < 2 ^ 64 →
      ∃ seeds st', runIdStore env calls st = .returns (seeds, st') ∧
        seeds.Sublist (List.iterate (· + 1) s (calls.countP IdStoreCall.isIncSeed)) ∧ seeds.Nodup ∧
        ((∀ c ∈ calls, c.faults.commit = none) →
          seeds = List.iterate (· + 1) s (calls.countP IdStoreCall.isIncSeed))) ∧
    (2 ^ 64 ≤ s.toNat + calls.countP IdStoreCall.isIncSeed →
      runIdStore env calls st = .aborts "attempt to add with overflow") :=
  have hrun := runIdStore_seeds calls hcalls h
  ⟨fun hn => let ⟨seeds, st', hr, hsub, hall⟩ := hrun.1 hn
    ⟨seeds, st', hr, hsub, hsub.nodup (iterate_succ_nodup s (by omega)), hall⟩, hrun.2⟩

/-- A fresh ledger whose genesis set the seed to `u64::MAX`. -/
def maxSeedLedger : LedgerStorage :=
  { fresh with persistentStore := fresh.persistentStore.apply [(idstoreSeedRoot, .put (u64ToBeBytes 18446744073709551615))] }

/-- Two seeds around a `store` on a fresh ledger are 0 and 1; a seed call on a ledger whose seed
is `u64::MAX` panics. -/
theorem fresh_seeds_around_store :
    (∃ seeds st', runIdStore plainIdStoreEnv [.incSeed .none, .store ["a"] ⟨[1]⟩ [1] [1] .none,
        .incSeed .none] fresh = .returns (seeds, st') ∧
      seeds.Sublist (List.iterate (· + 1) 0 2) ∧ seeds.Nodup ∧
      ((∀ c ∈ [IdStoreCall.incSeed .none, .store ["a"] ⟨[1]⟩ [1] [1] .none, .incSeed .none],
        c.faults.commit = none) → seeds = List.iterate (· + 1) 0 2)) ∧
    runIdStore plainIdStoreEnv [.incSeed .none] maxSeedLedger = .aborts "attempt to add with overflow" :=
  ⟨(idstore_seeds_distinct plainIdStoreEnv _ (by simp [IdStoreCall.faults, WriteFaults.none])
      (show readSeed fresh = .returns 0 from rfl)).1 (by decide),
    (idstore_seeds_distinct plainIdStoreEnv [.incSeed .none] (by simp [IdStoreCall.faults, WriteFaults.none])
      (show readSeed maxSeedLedger = .returns 18446744073709551615 from rfl)).2 (by decide)⟩

end ManyRs.Ledger
