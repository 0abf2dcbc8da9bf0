import ManyRs.Store.Merk
import ManyRs.Events.EventId
import ManyRs.Identity

/-! `KvStoreStorage`: each user key has an ACL entry under `a` and a data entry under `s`,
next to the reserved `/config/*`, `/height` and `/latest_event_id` entries. Over every run of
its operations, in either mode, its reads follow an abstract key-value map with per-key
metadata and a count of commits. Failures of the Merk's own I/O are not modelled. -/
namespace ManyRs.KvStore
open ManyRs.Store ManyRs.Events ManyRs.Cbor

/-- Modelled from the spec: `KvStoreMetadata`, an owner and an optional disabling, either a
flag or a reason. -/
structure KvStoreMetadata (Reason : Type) where
  owner : Address
  disabled : Option (Bool ⊕ Reason)

/-- The kvstore events `log_event` records. -/
inductive EventInfo (Reason : Type)
  | kvStorePut (key value : Bytes) (owner : Address)
  | kvStoreDisable (key : Bytes) (reason : Option Reason)
  | kvStoreTransfer (key : Bytes) (owner newOwner : Address)

/-- The errors the modelled reads return: `error::key_disabled()` and
`ManyError::deserialization_error`. -/
inductive KvError
  | keyDisabled
  | deserializationError (e : DecodeError)

/-- What the storage calls that is not in src: the CBOR codec of `KvStoreMetadata` (which the
ACL map of `new` is taken to be written with too), the key and the value `log_event` stages
for an event, with its keys in the reserved `/` space and away from `/height`,
`Address::with_subresource_id`, and the root hash of the committed contents. -/
structure Environment (Reason : Type) where
  metaCodec : Codec (KvStoreMetadata Reason)
  eventKey : EventId → Key
  eventValue : EventId → EventInfo Reason → Value
  eventKey_head : ∀ id, (eventKey id).head? = some 47
  eventKey_ne_height : ∀ id, heightKey ≠ eventKey id
  withSubresourceId : Address → UInt32 → Except String Address
  rootHash : Contents → Bytes

/-- The part of `KvStoreStorage` its operations read and write (`current_time` only dates
events, which the environment's `eventValue` stands for). -/
structure KvStoreStorage where
  persistentStore : Merk
  blockchain : Bool
  latestEventId : EventId
  currentHash : Option Bytes
  nextSubresource : UInt32
  rootIdentity : Address

/-- `AclMap`, the `BTreeMap` that `new` writes in its key order. -/
abbrev AclMap (Reason : Type) := List (Bytes × KvStoreMetadata Reason)

/-- `KVSTORE_ROOT`. -/
def kvstoreRoot : Key := ascii "s"

/-- `KVSTORE_ACL_ROOT`. -/
def kvstoreAclRoot : Key := ascii "a"

def identityKey : Key := ascii "/config/identity"

def subresourceIdKey : Key := ascii "/config/subresource_id"

def latestEventIdKey : Key := ascii "/latest_event_id"

@[simp] theorem kvstoreRoot_eq : kvstoreRoot = [115] := rfl

@[simp] theorem kvstoreAclRoot_eq : kvstoreAclRoot = [97] := rfl

/-! The layout: user keys' entries are apart from each other and from every key in the `/`
space, where the reserved keys and the events lie. -/

section Layout

variable {k k' key : Bytes}

theorem aclKey_ne_dataKey : kvstoreAclRoot ++ k ≠ kvstoreRoot ++ k' := by simp

theorem aclKey_ne_of_head (h : key.head? = some 47) : kvstoreAclRoot ++ k ≠ key := by
  rintro rfl; simp at h

theorem dataKey_ne_of_head (h : key.head? = some 47) : kvstoreRoot ++ k ≠ key := by
  rintro rfl; simp at h

theorem heightKey_head : heightKey.head? = some 47 := rfl

theorem subresourceIdKey_head : subresourceIdKey.head? = some 47 := rfl

theorem latestEventIdKey_head : latestEventIdKey.head? = some 47 := rfl

theorem identityKey_head : identityKey.head? = some 47 := rfl

end Layout

variable {Reason : Type} (env : Environment Reason)

/-- `_get`: the entry of `key` under the root `root`. -/
def getRaw (st : KvStoreStorage) (key root : Bytes) : Option Value :=
  st.persistentStore.get (root ++ key)

/-- `KvStoreStorage::get`: an ACL entry that disables the key makes it an error, whatever is
stored under it. -/
def get (st : KvStoreStorage) (key : Bytes) : Except KvError (Option Value) :=
  match getRaw st key kvstoreAclRoot with
  | some cbor =>
    match env.metaCodec.decode cbor with
    | .error e => .error (.deserializationError e)
    | .ok (meta, _) =>
      match meta.disabled with
      | some (.inl false) => .ok (getRaw st key kvstoreRoot)
      | some _ => .error .keyDisabled
      | none => .ok (getRaw st key kvstoreRoot)
  | none => .ok (getRaw st key kvstoreRoot)

/-- `KvStoreStorage::get_metadata`. -/
def getMetadata (st : KvStoreStorage) (key : Bytes) : Option Value :=
  getRaw st key kvstoreAclRoot

/-- `KvStoreStorage::get_height`; `none` where `copy_from_slice` panics. -/
def getHeight (st : KvStoreStorage) : Option UInt64 := readHeight st.persistentStore

/-- `KvStoreStorage::new` on a fresh path: the identity and the ACL map, the first event id,
and a commit. -/
def new (acl : AclMap Reason) (identity : Address) (blockchain : Bool) : KvStoreStorage :=
  let batch := (identityKey, .put identity.toVec) ::
    acl.map fun e => (kvstoreAclRoot ++ e.1, .put (env.metaCodec.encode e.2))
  let latestEventId : EventId := ⟨[0]⟩
  let m := (Merk.empty.apply batch).apply [(latestEventIdKey, .put latestEventId.encode)]
  ⟨m.commit, blockchain, latestEventId, none, 0, identity⟩

/-- Modelled from the spec: `log_event` takes `latest + 1` as the event's id and stages the
event. -/
def logEvent (info : EventInfo Reason) (st : KvStoreStorage) : KvStoreStorage :=
  let id := st.latestEventId.addU32 1
  { st with
    persistentStore := st.persistentStore.apply [(env.eventKey id, .put (env.eventValue id info))]
    latestEventId := id }

/-- The commit that ends a write in immediate mode (`!self.blockchain`). -/
def commitIfImmediate (st : KvStoreStorage) : KvStoreStorage :=
  if st.blockchain then st else { st with persistentStore := st.persistentStore.commit }

/-- The shape `put`, `disable` and `transfer` share: apply a batch, log the event, and commit
in immediate mode. They return `Ok(())`. -/
def writeLogged (batch : Batch) (info : EventInfo Reason) (st : KvStoreStorage) :
    KvStoreStorage :=
  commitIfImmediate (logEvent env info { st with persistentStore := st.persistentStore.apply batch })

/-- `KvStoreStorage::put`: the metadata and the value. -/
def put (meta : KvStoreMetadata Reason) (key value : Bytes) (st : KvStoreStorage) :
    KvStoreStorage :=
  writeLogged env [(kvstoreAclRoot ++ key, .put (env.metaCodec.encode meta)),
    (kvstoreRoot ++ key, .put value)] (.kvStorePut key value meta.owner) st

/-- `KvStoreStorage::disable`: the metadata, and an event with its reason if it has one. -/
def disable (meta : KvStoreMetadata Reason) (key : Bytes) (st : KvStoreStorage) :
    KvStoreStorage :=
  let reason := match meta.disabled with
    | some (.inr reason) => some reason
    | _ => none
  writeLogged env [(kvstoreAclRoot ++ key, .put (env.metaCodec.encode meta))]
    (.kvStoreDisable key reason) st

/-- `KvStoreStorage::transfer`: the metadata of the new owner. -/
def transfer (key : Bytes) (previousOwner : Address) (meta : KvStoreMetadata Reason)
    (st : KvStoreStorage) : KvStoreStorage :=
  writeLogged env [(kvstoreAclRoot ++ key, .put (env.metaCodec.encode meta))]
    (.kvStoreTransfer key previousOwner meta.owner) st

/-- `KvStoreStorage::new_subresource_id`: the counter's `+= 1` panics at `u32::MAX` in a debug
build; the new counter is staged before `with_subresource_id` can fail. -/
def newSubresourceId (st : KvStoreStorage) :
    Outcome (Except String (Address × Key) × KvStoreStorage) :=
  let currentId := st.nextSubresource
  if currentId.toNat + 1 < 2 ^ 32 then
    let next := currentId + 1
    let st := { st with
      nextSubresource := next
      persistentStore := st.persistentStore.apply [(subresourceIdKey, .put (beBytes 4 next.toNat))] }
    .returns ((env.withSubresourceId st.rootIdentity currentId).map fun a => (a, subresourceIdKey), st)
  else .aborts "attempt to add with overflow"

/-- `inc_height`: stages `/height + 1` and returns the height before it; `current_height + 1`
panics at `u64::MAX`. -/
def incHeight (st : KvStoreStorage) : Outcome (UInt64 × KvStoreStorage) :=
  match readHeight st.persistentStore with
  | none => .aborts "source slice length does not match destination"
  | some h =>
    match checkedSucc h with
    | some h' => .returns (h, { st with persistentStore := withHeight st.persistentStore h' })
    | none => .aborts "attempt to add with overflow"

/-- `KvStoreStorage::commit`: the height, the event counter, the Merk commit and the hash. -/
def commit (st : KvStoreStorage) : Outcome (AbciCommitInfo × KvStoreStorage) :=
  match incHeight st with
  | .aborts m => .aborts m
  | .returns (_, st) =>
    let m := (st.persistentStore.apply [(latestEventIdKey, .put st.latestEventId.encode)]).commit
    let hash := env.rootHash m.committed
    .returns (⟨0, hash⟩, { st with persistentStore := m, currentHash := some hash })

/-- The operations of the storage. -/
inductive Call (Reason : Type)
  | put (meta : KvStoreMetadata Reason) (key value : Bytes)
  | disable (meta : KvStoreMetadata Reason) (key : Bytes)
  | transfer (key : Bytes) (previousOwner : Address) (meta : KvStoreMetadata Reason)
  | newSubresourceId
  | commit

def Call.isCommit : Call Reason → Bool
  | .commit => true
  | _ => false

/-- One operation; what it returns apart from the storage is dropped. -/
def step : Call Reason → KvStoreStorage → Outcome KvStoreStorage
  | .put meta key value, st => .returns (put env meta key value st)
  | .disable meta key, st => .returns (disable env meta key st)
  | .transfer key owner meta, st => .returns (transfer env key owner meta st)
  | .newSubresourceId, st =>
    match newSubresourceId env st with
    | .returns (_, st') => .returns st'
    | .aborts m => .aborts m
  | .commit, st =>
    match commit env st with
    | .returns (_, st') => .returns st'
    | .aborts m => .aborts m

/-- A run of operations, which stops when one of them panics. -/
def run : List (Call Reason) → KvStoreStorage → Outcome KvStoreStorage
  | [], st => .returns st
  | c :: cs, st =>
    match step env c st with
    | .returns st' => run cs st'
    | .aborts m => .aborts m

/-! The abstract store: a map of values, a map of metadata, and the height. -/

/-- Whether a metadata's `disabled` makes its key unreadable: `Some(Right(_))` or
`Some(Left(true))`. -/
def disables : Option (Bool ⊕ Reason) → Bool
  | some (.inl b) => b
  | some (.inr _) => true
  | none => false

structure KvMap (Reason : Type) where
  values : Bytes → Option Bytes
  meta : Bytes → Option (KvStoreMetadata Reason)
  height : Nat

namespace KvMap

def empty : KvMap Reason := ⟨fun _ => none, fun _ => none, 0⟩

def setMeta (a : KvMap Reason) (k : Bytes) (meta : KvStoreMetadata Reason) : KvMap Reason :=
  { a with meta := Function.update a.meta k (some meta) }

/-- The store `new` starts: the ACL map's metadata, in its order. -/
def new (acl : AclMap Reason) : KvMap Reason :=
  acl.foldl (fun a e => a.setMeta e.1 e.2) empty

def step : Call Reason → KvMap Reason → KvMap Reason
  | .put meta k v, a => { a.setMeta k meta with values := Function.update a.values k (some v) }
  | .disable meta k, a => a.setMeta k meta
  | .transfer k _ meta, a => a.setMeta k meta
  | .newSubresourceId, a => a
  | .commit, a => { a with height := a.height + 1 }

def run (cs : List (Call Reason)) (a : KvMap Reason) : KvMap Reason :=
  cs.foldl (fun a c => step c a) a

/-- A read: an error if the key's last metadata disables it, else its last value. -/
def get (a : KvMap Reason) (k : Bytes) : Except KvError (Option Bytes) :=
  match a.meta k with
  | some meta => if disables meta.disabled then .error .keyDisabled else .ok (a.values k)
  | none => .ok (a.values k)

@[simp] theorem height_setMeta (a : KvMap Reason) (k : Bytes) (meta : KvStoreMetadata Reason) :
    (a.setMeta k meta).height = a.height := rfl

theorem height_new (acl : AclMap Reason) : (new acl).height = 0 := by
  suffices ∀ a : KvMap Reason, (acl.foldl (fun a e => a.setMeta e.1 e.2) a).height = a.height from
    this empty
  induction acl with
  | nil => exact fun _ => rfl
  | cons e acl ih => exact fun a => (ih _).trans (height_setMeta a _ _)

/-- Only commits change the height, each by one. -/
theorem height_run (cs : List (Call Reason)) (a : KvMap Reason) :
    (a.run cs).height = a.height + (cs.filter Call.isCommit).length := by
  induction cs generalizing a with
  | nil => rfl
  | cons c cs ih =>
    rw [run, List.foldl_cons, ← run, ih]
    cases c <;> simp [step, Call.isCommit, Nat.add_assoc, Nat.add_comm 1]

end KvMap

/-! The abstraction: what the store reads at the user keys' entries and at `/height`. -/

/-- The store `m` reads the metadata and values of `a`, encoded, and its height. -/
structure Refines (m : Merk) (a : KvMap Reason) : Prop where
  acl : ∀ k, m.get (kvstoreAclRoot ++ k) = (a.meta k).map env.metaCodec.encode
  data : ∀ k, m.get (kvstoreRoot ++ k) = a.values k
  height : ∃ h : UInt64, readHeight m = some h ∧ h.toNat = a.height

namespace Refines

variable {env} {m : Merk} {a : KvMap Reason}

theorem empty : Refines env Merk.empty KvMap.empty :=
  ⟨fun _ => rfl, fun _ => rfl, ⟨0, rfl, rfl⟩⟩

theorem commit (hr : Refines env m a) : Refines env m.commit a :=
  ⟨hr.acl, hr.data, hr.height⟩

/-- A write in the `/` space, away from `/height`, is not observed. -/
theorem stage_reserved (hr : Refines env m a) {key : Key} (hk : key.head? = some 47)
    (hh : heightKey ≠ key) (op : Op) : Refines env (m.stage key op) a := by
  refine ⟨fun k => ?_, fun k => ?_, ?_⟩
  · rw [Merk.get_stage, if_neg (aclKey_ne_of_head hk), hr.acl]
  · rw [Merk.get_stage, if_neg (dataKey_ne_of_head hk), hr.data]
  · rw [readHeight_stage_of_ne m op hh]; exact hr.height

theorem stage_acl (hr : Refines env m a) (k : Bytes) (meta : KvStoreMetadata Reason) :
    Refines env (m.stage (kvstoreAclRoot ++ k) (.put (env.metaCodec.encode meta)))
      (a.setMeta k meta) := by
  refine ⟨fun k' => ?_, fun k' => ?_, ?_⟩
  · by_cases hk : k' = k
    · subst hk; simp [KvMap.setMeta, Op.result]
    · rw [Merk.get_stage, if_neg (mt List.append_cancel_left hk), hr.acl]
      simp [KvMap.setMeta, hk]
  · rw [Merk.get_stage, if_neg aclKey_ne_dataKey.symm, hr.data]; rfl
  · rw [readHeight_stage_of_ne m _ (aclKey_ne_of_head heightKey_head).symm]; exact hr.height

theorem stage_data (hr : Refines env m a) (k : Bytes) (v : Value) :
    Refines env (m.stage (kvstoreRoot ++ k) (.put v))
      { a with values := Function.update a.values k (some v) } := by
  refine ⟨fun k' => ?_, fun k' => ?_, ?_⟩
  · rw [Merk.get_stage, if_neg aclKey_ne_dataKey, hr.acl]
  · by_cases hk : k' = k
    · subst hk; simp [Op.result]
    · rw [Merk.get_stage, if_neg (mt List.append_cancel_left hk), hr.data]
      simp [hk]
  · rw [readHeight_stage_of_ne m _ (dataKey_ne_of_head heightKey_head).symm]; exact hr.height

theorem withHeight (hr : Refines env m a) {h h' : UInt64} (hh : readHeight m = some h)
    (hs : checkedSucc h = some h') :
    Refines env (Store.withHeight m h') { a with height := a.height + 1 } := by
  obtain ⟨g, hg, hn⟩ := hr.height
  obtain rfl : g = h := Option.some.inj (hg.symm.trans hh)
  refine ⟨fun k => ?_, fun k => ?_, ⟨h', readHeight_withHeight m h', ?_⟩⟩
  · simp only [Store.withHeight, Merk.apply_cons, Merk.apply_nil, Merk.get_stage,
      if_neg (aclKey_ne_of_head heightKey_head), hr.acl]
  · simp only [Store.withHeight, Merk.apply_cons, Merk.apply_nil, Merk.get_stage,
      if_neg (dataKey_ne_of_head heightKey_head), hr.data]
  · rw [toNat_of_checkedSucc hs, hn]

end Refines

/-! Each operation on a store that refines `a` gives one that refines `a.step`. -/

section Steps

variable {env} {st : KvStoreStorage} {a : KvMap Reason}

theorem refines_commitIfImmediate (hr : Refines env st.persistentStore a) :
    Refines env (commitIfImmediate st).persistentStore a := by
  unfold commitIfImmediate
  split_ifs
  · exact hr
  · exact hr.commit

theorem refines_logEvent (info : EventInfo Reason) (hr : Refines env st.persistentStore a) :
    Refines env (logEvent env info st).persistentStore a :=
  hr.stage_reserved (env.eventKey_head _) (env.eventKey_ne_height _) _

theorem refines_put (hr : Refines env st.persistentStore a) (meta : KvStoreMetadata Reason)
    (k v : Bytes) : Refines env (put env meta k v st).persistentStore (a.step (.put meta k v)) :=
  refines_commitIfImmediate (refines_logEvent _ ((hr.stage_acl k meta).stage_data k v))

theorem refines_disable (hr : Refines env st.persistentStore a) (meta : KvStoreMetadata Reason)
    (k : Bytes) : Refines env (disable env meta k st).persistentStore (a.step (.disable meta k)) :=
  refines_commitIfImmediate (refines_logEvent _ (hr.stage_acl k meta))

theorem refines_transfer (hr : Refines env st.persistentStore a) (k : Bytes) (owner : Address)
    (meta : KvStoreMetadata Reason) :
    Refines env (transfer env k owner meta st).persistentStore (a.step (.transfer k owner meta)) :=
  refines_commitIfImmediate (refines_logEvent _ (hr.stage_acl k meta))

theorem refines_newSubresourceId (hr : Refines env st.persistentStore a) {r}
    {st' : KvStoreStorage} (h : newSubresourceId env st = .returns (r, st')) :
    Refines env st'.persistentStore a := by
  unfold newSubresourceId at h
  dsimp only at h
  split_ifs at h
  cases h
  exact hr.stage_reserved subresourceIdKey_head (by decide) _

theorem refines_commit (hr : Refines env st.persistentStore a) {info}
    {st' : KvStoreStorage} (h : commit env st = .returns (info, st')) :
    Refines env st'.persistentStore (a.step .commit) := by
  obtain ⟨g, hg, -⟩ := hr.height
  cases hs : checkedSucc g with
  | none => simp [commit, incHeight, hg, hs] at h
  | some g' =>
    simp only [commit, incHeight, hg, hs, Outcome.returns.injEq, Prod.mk.injEq] at h
    rw [← h.2]
    exact ((hr.withHeight hg hs).stage_reserved latestEventIdKey_head (by decide) _).commit

theorem refines_step (hr : Refines env st.persistentStore a) (c : Call Reason)
    {st' : KvStoreStorage} (h : step env c st = .returns st') :
    Refines env st'.persistentStore (a.step c) := by
  cases c with
  | put meta k v => cases h; exact refines_put hr meta k v
  | disable meta k => cases h; exact refines_disable hr meta k
  | transfer k owner meta => cases h; exact refines_transfer hr k owner meta
  | newSubresourceId =>
    simp only [step] at h
    split at h
    · cases h; exact refines_newSubresourceId hr ‹_›
    · cases h
  | commit =>
    simp only [step] at h
    split at h
    · cases h; exact refines_commit hr ‹_›
    · cases h

theorem refines_run (cs : List (Call Reason)) (hr : Refines env st.persistentStore a)
    {st' : KvStoreStorage} (h : run env cs st = .returns st') :
    Refines env st'.persistentStore (a.run cs) := by
  induction cs generalizing st a with
  | nil => cases h; exact hr
  | cons c cs ih =>
    simp only [run] at h
    split at h
    · exact ih (refines_step hr c ‹_›) h
    · cases h

end Steps

theorem refines_new (acl : AclMap Reason) (identity : Address) (blockchain : Bool) :
    Refines env (new env acl identity blockchain).persistentStore (KvMap.new acl) := by
  have hacl : ∀ (m : Merk) (a : KvMap Reason), Refines env m a →
      Refines env (m.apply (acl.map fun e => (kvstoreAclRoot ++ e.1, .put (env.metaCodec.encode e.2))))
        (acl.foldl (fun a e => a.setMeta e.1 e.2) a) := by
    induction acl with
    | nil => exact fun _ _ hr => hr
    | cons e acl ih => exact fun m a hr => ih _ _ (hr.stage_acl e.1 e.2)
  have hid : Refines env (Merk.empty.stage identityKey (.put identity.toVec)) KvMap.empty :=
    Refines.empty.stage_reserved identityKey_head (by decide) _
  exact ((hacl _ _ hid).stage_reserved latestEventIdKey_head (by decide) _).commit

/-- What a refining store reads is what the abstract store reads. -/
theorem get_of_refines {st : KvStoreStorage} {a : KvMap Reason}
    (hr : Refines env st.persistentStore a) (key : Bytes) :
    get env st key = a.get key := by
  unfold get getRaw KvMap.get
  rw [hr.acl, hr.data]
  cases a.meta key with
  | none => rfl
  | some meta =>
    have hd := env.metaCodec.decode_encode meta []
    rw [List.append_nil] at hd
    simp only [Option.map_some', hd]
    rcases meta.disabled with _ | ⟨_ | _⟩ | _ <;> rfl

theorem kvstore_refines_kvMap (acl : AclMap Reason) (identity : Address) (blockchain : Bool)
    (calls : List (Call Reason)) {st : KvStoreStorage}
    (hrun : run env calls (new env acl identity blockchain) = .returns st) (key : Bytes) :
    get env st key = ((KvMap.new acl).run calls).get key ∧
      getMetadata st key = (((KvMap.new acl).run calls).meta key).map env.metaCodec.encode ∧
      (getHeight st).map UInt64.toNat = some (calls.filter Call.isCommit).length := by
  have hr := refines_run calls (refines_new env acl identity blockchain) hrun
  obtain ⟨h, hh, hn⟩ := hr.height
  refine ⟨get_of_refines env hr key, hr.acl key, ?_⟩
  rw [getHeight, hh, Option.map_some', hn, KvMap.height_run, KvMap.height_new, Nat.zero_add]

/-! A store for which the run theorem is applied: its metadata carries no reason and is written
as an escaped owner and a tag. -/

def flagTag : Option (Bool ⊕ Empty) → UInt8
  | none => 0
  | some (.inl false) => 1
  | some (.inl true) => 2

def flagOfTag : UInt8 → Option (Bool ⊕ Empty)
  | 1 => some (.inl false)
  | 2 => some (.inl true)
  | _ => none

def flagMetaCodec : Codec (KvStoreMetadata Empty) where
  encode meta := flagTag meta.disabled :: escape meta.owner.bytes
  decode
    | t :: b => (unescape b).map fun r => (⟨⟨r.1⟩, flagOfTag t⟩, r.2)
    | [] => .error .endOfInput
  decode_encode := by
    rintro ⟨⟨o⟩, d⟩ rest
    rcases d with _ | ⟨_ | _⟩ | ⟨⟨⟩⟩ <;> simp [unescape_escape, flagTag, flagOfTag, Except.map]

def flagEnv : Environment Empty where
  metaCodec := flagMetaCodec
  eventKey id := [47, 101] ++ id.bytes
  eventValue _ _ := []
  eventKey_head _ := by simp
  eventKey_ne_height _ h := by
    rw [show heightKey = [47, 104, 101, 105, 103, 104, 116] from rfl] at h
    simp at h
  withSubresourceId a _ := .ok a
  rootHash _ := []

theorem put_disable_commit_reads :
    ∃ st, run flagEnv [.put ⟨⟨[0]⟩, none⟩ [7] [8], .commit, .disable ⟨⟨[0]⟩, some (.inl true)⟩ [7]]
        (new flagEnv [] ⟨[0]⟩ true) = .returns st ∧
      get flagEnv st [7] = .error .keyDisabled ∧ getMetadata st [7] = some [2, 1, 0, 0] ∧
      (getHeight st).map UInt64.toNat = some 1 :=
  ⟨_, rfl, kvstore_refines_kvMap flagEnv [] ⟨[0]⟩ true
    [.put ⟨⟨[0]⟩, none⟩ [7] [8], .commit, .disable ⟨⟨[0]⟩, some (.inl true)⟩ [7]] rfl [7]⟩

end ManyRs.KvStore
