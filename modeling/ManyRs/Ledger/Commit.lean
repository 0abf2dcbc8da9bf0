import ManyRs.Store.Merk
import ManyRs.Events.EventId

/-! `LedgerStorage::commit` and the write that ends the ledger's other calls; the storage calls that
can fail take their failures as inputs. -/
namespace ManyRs.Ledger
open ManyRs.Store ManyRs.Events ManyRs.Cbor

/-- Modelled from the spec: the part of `LedgerStorage` (`many-ledger/src/storage.rs`) that its
commit, token and idstore calls read and write. -/
structure LedgerStorage where
  persistentStore : Merk
  blockchain : Bool
  latestTid : EventId
  currentHash : Option Bytes

/-- How the commit's closure stops early: with a `ManyError`, which `unwrap_or_else`
turns into the returned hash, or with a panic. -/
inductive Failure
  | error (e : String)
  | panic (message : String)

abbrev Storage := EStateM Failure LedgerStorage

/-- Modelled from the spec: the typed storage errors `storage_apply_failed` and
`storage_commit_failed`, with the store's error text. -/
inductive StorageError
  | applyFailed (e : String)
  | commitFailed (e : String)

/-- The storage errors of the write that ends a ledger call, if any: a failed `apply` returns its
error and leaves a store the spec leaves unspecified; a failed commit leaves the store as it was. -/
structure WriteFaults where
  apply : Option (String × Merk)
  commit : Option String

/-- A write in which no storage call fails. -/
def WriteFaults.none : WriteFaults := ⟨.none, .none⟩

/-- Modelled from the spec: `maybe_commit`, which in immediate mode commits the store, or
returns the commit's storage error with the batch still staged. -/
def maybeCommit (fault : Option String) : EStateM StorageError LedgerStorage Unit := fun st =>
  if st.blockchain then .ok () st else
  match fault with
  | some e => .error (.commitFailed e) st
  | none => .ok () { st with persistentStore := st.persistentStore.commit }

/-- `persistent_store.apply(batch).map_err(storage_apply_failed)?` then `maybe_commit()`, the
write that ends `mint_token`, `burn_token`, `store` and `inc_idstore_seed`. -/
def applyBatch (faults : WriteFaults) (batch : Batch) : EStateM StorageError LedgerStorage Unit :=
  fun st =>
    match faults.apply with
    | some (e, m) => .error (.applyFailed e) { st with persistentStore := m }
    | none => maybeCommit faults.commit { st with persistentStore := st.persistentStore.apply batch }

section Write

variable {faults : WriteFaults} {batch : Batch} {st st' : LedgerStorage}

/-- Whether it commits or not, and whether its commit fails or not, `maybe_commit` leaves a
store that reads as before. -/
@[simp] theorem get_maybeCommit (fault : Option String) (st : LedgerStorage) :
    (resultState (maybeCommit fault st)).persistentStore.get = st.persistentStore.get := by
  unfold maybeCommit
  split_ifs
  · rfl
  · cases fault <;> rfl

/-- Unless its `apply` fails, the write leaves a store that reads as the batch applied, whatever
it answers. -/
theorem get_applyBatch (h : faults.apply = none) (batch : Batch) (st : LedgerStorage) :
    (resultState (applyBatch faults batch st)).persistentStore.get =
      (st.persistentStore.apply batch).get := by
  simp only [applyBatch, h, get_maybeCommit]

theorem apply_none_of_applyBatch_ok {u : Unit} (h : applyBatch faults batch st = .ok u st') :
    faults.apply = none := by
  unfold applyBatch at h
  split at h
  · cases h
  · assumption

/-- A write that returns leaves a store that reads as the batch applied. -/
theorem get_of_applyBatch_ok {u : Unit} (h : applyBatch faults batch st = .ok u st') :
    st'.persistentStore.get = (st.persistentStore.apply batch).get := by
  have := get_applyBatch (apply_none_of_applyBatch_ok h) batch st
  rwa [h] at this

/-- When neither its `apply` nor its commit fails, the write returns. -/
theorem applyBatch_of_none (hf : faults.apply = none) (hc : faults.commit = none) (batch : Batch)
    (st : LedgerStorage) : ∃ st', applyBatch faults batch st = .ok () st' := by
  unfold applyBatch maybeCommit
  simp only [hf, hc]
  split_ifs <;> exact ⟨_, rfl⟩

theorem applyBatch_none (batch : Batch) (st : LedgerStorage) :
    ∃ st', applyBatch .none batch st = .ok () st' :=
  applyBatch_of_none rfl rfl batch st

end Write

/-- What the commit calls that is not in src: `HEIGHT_EVENTID_SHIFT`, the writes
`check_timed_out_multisig_transactions` stages (its errors are ignored), the writes and the
result of `update_at_height` at a height (any fallible transformation that stages), and the
root hash of the committed contents. -/
structure Environment where
  heightEventIdShift : UInt64
  checkTimedOut : Contents → Batch
  updateAtHeight : Contents → UInt64 → Batch × Except String Unit
  rootHash : Contents → Bytes

/-- The storage errors the fallible calls of one commit return, if any. -/
structure CommitFaults where
  incHeight : Option String
  firstCommit : Option String
  secondCommit : Option String

/-- A commit in which no storage call fails. -/
def CommitFaults.none : CommitFaults := ⟨.none, .none, .none⟩

/-- A freshly initialised store: no `/height` and `latest_tid = EventId::from(vec![0])`. -/
def fresh : LedgerStorage := ⟨Merk.empty, true, ⟨[0]⟩, none⟩

/-- A ledger with no timed-out multisig transactions and no migrations. -/
def quiet (shift : UInt64) (rootHash : Contents → Bytes) : Environment :=
  ⟨shift, fun _ => [], fun _ _ => ([], .ok ()), rootHash⟩

variable (env : Environment)

def getHeight : Storage UInt64 := fun st =>
  match readHeight st.persistentStore with
  | some h => .ok h st
  | none => .error (.panic "source slice length does not match destination") st

/-- The store once `check_timed_out_multisig_transactions` has staged its writes. -/
def afterTimedOut (m : Merk) : Merk := m.apply (env.checkTimedOut m.get)

/-- Modelled from the spec: `inc_height` stages `/height + 1` in the current batch and returns
the height before the increment, as `KvStoreStorage::inc_height` does; `fault` is the storage
error it returns instead. The addition is checked, as in a debug build. -/
def incHeight (fault : Option String) : Storage UInt64 :=
  match fault with
  | some e => throw (.error e)
  | none => do
    let h ← getHeight
    match checkedSucc h with
    | some h' =>
      modify fun st => { st with persistentStore := withHeight st.persistentStore h' }
      pure h
    | none => throw (.panic "attempt to add with overflow")

/-- Modelled from the spec: `commit_storage` commits the Merk, or returns the storage error
`fault` and leaves it as it is. -/
def commitStorage (fault : Option String) : Storage Unit :=
  match fault with
  | some e => throw (.error e)
  | none => modify fun st => { st with persistentStore := st.persistentStore.commit }

/-- `check_timed_out_multisig_transactions`, whose errors the commit ignores. -/
def checkTimedOutMultisigTransactions : Storage Unit :=
  modify fun st => { st with persistentStore := afterTimedOut env st.persistentStore }

/-- `migrations.update_at_height(&mut persistent_store, h, ..)`: its writes stay staged also
when it fails. -/
def updateMigrations (h : UInt64) : Storage Unit := do
  let st ← get
  let (batch, result) := env.updateAtHeight st.persistentStore.get h
  set { st with persistentStore := st.persistentStore.apply batch }
  match result with
  | .ok () => pure ()
  | .error e => throw (.error e)

/-- The closure of `LedgerStorage::commit`, up to its `unwrap_or_else`. -/
def commitClosure (faults : CommitFaults) : Storage (UInt64 × Bytes) := do
  checkTimedOutMultisigTransactions env
  let height ← incHeight faults.incHeight
  commitStorage faults.firstCommit
  updateMigrations env (height + 1)
  commitStorage faults.secondCommit
  let st ← get
  let hash := env.rootHash st.persistentStore.committed
  set { st with
    currentHash := some hash
    latestTid := EventId.ofU64 (height <<< env.heightEventIdShift) }
  pure (0, hash)

/-- `LedgerStorage::commit`: an error of the closure becomes the returned hash. -/
def commit (faults : CommitFaults) (st : LedgerStorage) :
    Outcome (AbciCommitInfo × LedgerStorage) :=
  match commitClosure env faults st with
  | .ok (retainHeight, hash) st' => .returns (⟨retainHeight, hash⟩, st')
  | .error (.error e) st' => .returns (⟨0, e.toUTF8.toList⟩, st')
  | .error (.panic m) _ => .aborts m

section Steps

/-! Each step of the closure, on a storage whose store is `m`; none of them touches the event
counter or the cached hash. -/

variable (st : LedgerStorage) (m : Merk) {h h' : UInt64} {batch : Batch}

theorem get_run : (get : Storage LedgerStorage) st = .ok st st := rfl

theorem checkTimedOut_run :
    checkTimedOutMultisigTransactions env st =
      .ok () { st with persistentStore := afterTimedOut env st.persistentStore } := rfl

theorem incHeight_fault (e : String) : incHeight (some e) st = .error (.error e) st := rfl

theorem incHeight_run (hh : readHeight m = some h) (hs : checkedSucc h = some h') :
    incHeight none { st with persistentStore := m } =
      .ok h { st with persistentStore := withHeight m h' } := by
  show (getHeight >>= _) _ = _
  rw [bind_ok (show getHeight { st with persistentStore := m } = .ok h { st with persistentStore := m }
    by simp [getHeight, hh])]
  simp only [hs]
  rfl

theorem commitStorage_fault (e : String) : commitStorage (some e) st = .error (.error e) st :=
  rfl

theorem commitStorage_run :
    commitStorage none { st with persistentStore := m } =
      .ok () { st with persistentStore := m.commit } := rfl

theorem updateMigrations_ok (hu : env.updateAtHeight m.get h = (batch, .ok ())) :
    updateMigrations env h { st with persistentStore := m.commit } =
      .ok () { st with persistentStore := m.commit.apply batch } := by
  show ((get : Storage LedgerStorage) >>= _) _ = _
  rw [bind_ok (get_run _)]
  simp only [Merk.get_commit, hu]
  rfl

theorem updateMigrations_error {e : String} (hu : env.updateAtHeight m.get h = (batch, .error e)) :
    updateMigrations env h { st with persistentStore := m.commit } =
      .error (.error e) { st with persistentStore := m.commit.apply batch } := by
  show ((get : Storage LedgerStorage) >>= _) _ = _
  rw [bind_ok (get_run _)]
  simp only [Merk.get_commit, hu]
  rfl

end Steps

section Commit

variable (st : LedgerStorage) {h h' : UInt64} {batch : Batch}

theorem commit_of_incHeight_fault (e : String) (f₁ f₂ : Option String) :
    commit env ⟨some e, f₁, f₂⟩ st = .returns (⟨0, e.toUTF8.toList⟩,
      { st with persistentStore := afterTimedOut env st.persistentStore }) := rfl

theorem commit_of_firstCommit_fault (e : String) (f₂ : Option String)
    (hh : readHeight (afterTimedOut env st.persistentStore) = some h)
    (hs : checkedSucc h = some h') :
    commit env ⟨none, some e, f₂⟩ st = .returns (⟨0, e.toUTF8.toList⟩,
      { st with persistentStore := withHeight (afterTimedOut env st.persistentStore) h' }) := by
  simp only [commit, commitClosure, bind_ok (checkTimedOut_run env st),
    bind_ok (incHeight_run st _ hh hs), bind_error (commitStorage_fault _ e)]

theorem commit_of_migration_error (e : String) (f₂ : Option String)
    (hh : readHeight (afterTimedOut env st.persistentStore) = some h)
    (hs : checkedSucc h = some h')
    (hu : env.updateAtHeight (withHeight (afterTimedOut env st.persistentStore) h').get (h + 1) =
      (batch, .error e)) :
    commit env ⟨none, none, f₂⟩ st = .returns (⟨0, e.toUTF8.toList⟩, { st with
      persistentStore := (withHeight (afterTimedOut env st.persistentStore) h').commit.apply batch }) := by
  simp only [commit, commitClosure, bind_ok (checkTimedOut_run env st),
    bind_ok (incHeight_run st _ hh hs), bind_ok (commitStorage_run st _),
    bind_error (updateMigrations_error env st _ hu)]

theorem commit_of_secondCommit_fault (e : String)
    (hh : readHeight (afterTimedOut env st.persistentStore) = some h)
    (hs : checkedSucc h = some h')
    (hu : env.updateAtHeight (withHeight (afterTimedOut env st.persistentStore) h').get (h + 1) =
      (batch, .ok ())) :
    commit env ⟨none, none, some e⟩ st = .returns (⟨0, e.toUTF8.toList⟩, { st with
      persistentStore := (withHeight (afterTimedOut env st.persistentStore) h').commit.apply batch }) := by
  simp only [commit, commitClosure, bind_ok (checkTimedOut_run env st),
    bind_ok (incHeight_run st _ hh hs), bind_ok (commitStorage_run st _),
    bind_ok (updateMigrations_ok env st _ hu), bind_error (commitStorage_fault _ e)]

/-- A commit that completes: everything staged before and by the migrations is committed, and
the event counter restarts at `EventId::from(h << HEIGHT_EVENTID_SHIFT)` for the height `h`
read before the increment. -/
theorem commit_of_success
    (hh : readHeight (afterTimedOut env st.persistentStore) = some h)
    (hs : checkedSucc h = some h')
    (hu : env.updateAtHeight (withHeight (afterTimedOut env st.persistentStore) h').get (h + 1) =
      (batch, .ok ())) :
    commit env .none st =
      let m := ((withHeight (afterTimedOut env st.persistentStore) h').commit.apply batch).commit
      .returns (⟨0, env.rootHash m.committed⟩,
        { st with
          persistentStore := m
          latestTid := EventId.ofU64 (h <<< env.heightEventIdShift)
          currentHash := some (env.rootHash m.committed) }) := by
  simp only [commit, commitClosure, CommitFaults.none, bind_ok (checkTimedOut_run env st),
    bind_ok (incHeight_run st _ hh hs), bind_ok (commitStorage_run st _),
    bind_ok (updateMigrations_ok env st _ hu), bind_ok (commitStorage_run _ _)]
  rfl

end Commit

/-- A commit returned, leaving `committed` for a reopen to find and a store that reads
`visible`, staged writes included. -/
def Leaves (o : Outcome (AbciCommitInfo × LedgerStorage)) (committed visible : Contents) : Prop :=
  ∃ info st', o = .returns (info, st') ∧ st'.persistentStore.committed = committed ∧
    st'.persistentStore.get = visible

/-- A commit that completes commits what the store read before it, except at the keys the
call itself writes. -/
theorem commit_commits_staged (st : LedgerStorage) {h h' : UInt64} {batch : Batch}
    (hh : readHeight (afterTimedOut env st.persistentStore) = some h)
    (hs : checkedSucc h = some h')
    (hu : env.updateAtHeight (withHeight (afterTimedOut env st.persistentStore) h').get (h + 1) =
      (batch, .ok ())) :
    ∃ info st', commit env .none st = .returns (info, st') ∧
      ∀ key, key ∉ (env.checkTimedOut st.persistentStore.get).map Prod.fst →
        key ≠ heightKey → key ∉ batch.map Prod.fst →
        st'.persistentStore.committed key = st.persistentStore.get key := by
  refine ⟨_, _, commit_of_success env st hh hs hu, fun key ht hk hb => ?_⟩
  simp only [Merk.committed_commit, Merk.get_apply_of_not_mem _ hb, Merk.get_commit, withHeight,
    Merk.apply_cons, Merk.apply_nil, Merk.get_stage, if_neg hk, afterTimedOut,
    Merk.get_apply_of_not_mem _ ht]

/-- What a commit that does not complete leaves, by the call that failed; `h'` is the new
height `inc_height` stages and `(batch, r)` what the migrations stage and return. -/
structure FailedCommitEffects (st : LedgerStorage) (e : String) (f₁ f₂ : Option String)
    (h' : UInt64) (batch : Batch) (r : Except String Unit) : Prop where
  incHeight_fails : Leaves (commit env ⟨some e, f₁, f₂⟩ st) st.persistentStore.committed
    (afterTimedOut env st.persistentStore).get
  firstCommit_fails : Leaves (commit env ⟨none, some e, f₂⟩ st) st.persistentStore.committed
    (withHeight (afterTimedOut env st.persistentStore) h').get
  migrations_fail : ∀ e', r = .error e' → Leaves (commit env ⟨none, none, f₂⟩ st)
    (withHeight (afterTimedOut env st.persistentStore) h').get
    ((withHeight (afterTimedOut env st.persistentStore) h').commit.apply batch).get
  secondCommit_fails : r = .ok () → Leaves (commit env ⟨none, none, some e⟩ st)
    (withHeight (afterTimedOut env st.persistentStore) h').get
    ((withHeight (afterTimedOut env st.persistentStore) h').commit.apply batch).get
  next_commit_commits : ∀ (st' : LedgerStorage) {g g' : UInt64} {batch' : Batch},
    readHeight (afterTimedOut env st'.persistentStore) = some g → checkedSucc g = some g' →
    env.updateAtHeight (withHeight (afterTimedOut env st'.persistentStore) g').get (g + 1) =
      (batch', .ok ()) →
    ∃ info st'', commit env .none st' = .returns (info, st'') ∧
      ∀ key, key ∉ (env.checkTimedOut st'.persistentStore.get).map Prod.fst →
        key ≠ heightKey → key ∉ batch'.map Prod.fst →
        st''.persistentStore.committed key = st'.persistentStore.get key

/-- A ledger whose one migration, at height 1, writes `b"k"` and then fails. -/
def failingMigration : Environment :=
  ⟨0, fun _ => [], fun _ h =>
    if h = 1 then ([(ascii "k", .put [1])], .error "migration failed") else ([], .ok ()),
    fun _ => []⟩

/-- Modelled from the spec: each event logged takes `latest_tid += 1` as its id. The events'
own writes to the store are left out: no modelled call reads them. -/
def logEvents : Nat → LedgerStorage → List EventId × LedgerStorage
  | 0, st => ([], st)
  | k+1, st =>
    let id := st.latestTid.addU32 1
    let rest := logEvents k { st with latestTid := id }
    (id :: rest.1, rest.2)

/-- Blocks that log the given numbers of events, each ended by a commit in which no storage
call fails; the ids assigned, in order. -/
def runBlocks : List Nat → LedgerStorage → Outcome (List EventId × LedgerStorage)
  | [], st => .returns ([], st)
  | k :: ks, st =>
    match commit env .none (logEvents k st).2 with
    | .returns (_, st') =>
      match runBlocks ks st' with
      | .returns (ids, st'') => .returns ((logEvents k st).1 ++ ids, st'')
      | .aborts m => .aborts m
    | .aborts m => .aborts m

theorem zero_shiftLeft (s : UInt64) : (0 : UInt64) <<< s = 0 :=
  UInt64.eq_of_toBitVec_eq (BitVec.zero_shiftLeft _)

theorem quiet_commit (shift : UInt64) (rootHash : Contents → Bytes) {h h' : UInt64}
    (st : LedgerStorage) (hh : readHeight st.persistentStore = some h)
    (hs : checkedSucc h = some h') :
    commit (quiet shift rootHash) .none st =
      .returns (⟨0, rootHash (withHeight st.persistentStore h').get⟩,
        { st with
          persistentStore := (withHeight st.persistentStore h').commit
          latestTid := EventId.ofU64 (h <<< shift)
          currentHash := some (rootHash (withHeight st.persistentStore h').get) }) :=
  commit_of_success (quiet shift rootHash) st hh hs rfl

/-- The first commit returns height 0 and resets the counter to `0 << SHIFT`, below the id its
block has used: whatever the shift, the first event of the second block is given the id of
the first event of the first block. -/
theorem first_commit_reuses_event_id (shift : UInt64) (rootHash : Contents → Bytes) :
    ∃ st, runBlocks (quiet shift rootHash) [1, 1] fresh =
      .returns ([EventId.ofBigUint 1, EventId.ofBigUint 1], st) := by
  have h₁ := quiet_commit shift rootHash (logEvents 1 fresh).2 rfl rfl
  have h₂ := fun t c => quiet_commit shift rootHash
    (logEvents 1 { (logEvents 1 fresh).2 with
      persistentStore := (withHeight (logEvents 1 fresh).2.persistentStore (0 + 1)).commit
      latestTid := t
      currentHash := c }).2
    (by simp [logEvents]) (show checkedSucc (0 + 1) = some (0 + 1 + 1) from rfl)
  simp only [runBlocks, h₁, h₂, zero_shiftLeft]
  exact ⟨_, rfl⟩

end ManyRs.Ledger
