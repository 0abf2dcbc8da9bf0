import ManyRs.KvStore.Storage

/-! The kvstore's event log over whole runs. `log_event` takes the id after the latest, so the
log only grows at its end: along any run that does not panic, the event counter advances by one
for each `put`, `disable` and `transfer`, an event is stored under every id it passes, and no
other event entry changes. No event is lost or overwritten, and no id is given twice. -/
namespace ManyRs.KvStore
open ManyRs.Store ManyRs.Events ManyRs.Cbor

variable {Reason : Type} (env : Environment Reason)

/-- What the event log needs of the event keys beyond the environment's own facts: distinct
ids have distinct keys, and no event key is `/config/subresource_id` or `/latest_event_id`. -/
structure EventKeysApart : Prop where
  injective : Function.Injective env.eventKey
  ne_subresourceIdKey : ∀ id, env.eventKey id ≠ subresourceIdKey
  ne_latestEventIdKey : ∀ id, env.eventKey id ≠ latestEventIdKey

/-- Whether a call logs an event: `put`, `disable` and `transfer` do. -/
def Call.logs : Call Reason → Bool
  | .put .. | .disable .. | .transfer .. => true
  | .newSubresourceId | .commit => false

/-- The entry of the event numbered `n`. -/
def eventEntry (m : Merk) (n : Nat) : Option Value := m.get (env.eventKey (.ofBigUint n))

/-- `m'` extends the event log of `m` from the number `n₀` to `n₁`: an event is stored under
each number after `n₀` up to `n₁`, and every other event entry is as in `m`. -/
structure Appends (n₀ n₁ : Nat) (m m' : Merk) : Prop where
  le : n₀ ≤ n₁
  stored : ∀ n, n₀ < n → n ≤ n₁ → (eventEntry env m' n).isSome
  frame : ∀ n, n ≤ n₀ ∨ n₁ < n → eventEntry env m' n = eventEntry env m n

namespace Appends

variable {env} {n₀ n₁ n₂ : Nat} {m m' m'' : Merk}

/-- A store whose event entries are those of `m` extends it by nothing. -/
theorem of_get (h : ∀ id, m'.get (env.eventKey id) = m.get (env.eventKey id)) (n : Nat) :
    Appends env n n m m' :=
  ⟨le_rfl, fun _ h₁ h₂ => absurd h₂ (by omega), fun _ _ => h _⟩

theorem trans (h₁ : Appends env n₀ n₁ m m') (h₂ : Appends env n₁ n₂ m' m'') :
    Appends env n₀ n₂ m m'' where
  le := h₁.le.trans h₂.le
  stored n h h' := by
    by_cases hn : n ≤ n₁
    · rw [h₂.frame n (.inl hn)]
      exact h₁.stored n h hn
    · exact h₂.stored n (by omega) h'
  frame n hn :=
    (h₂.frame n (hn.imp (·.trans h₁.le) id)).trans (h₁.frame n (hn.imp id (lt_of_le_of_lt h₂.le)))

/-- The log is read through `get`, so stores that `get` alike extend alike: `commit`. -/
theorem congr_get (h : Appends env n₀ n₁ m m') (hg : m''.get = m'.get) : Appends env n₀ n₁ m m'' :=
  ⟨h.le, fun n h₁ h₂ => by unfold eventEntry; rw [hg]; exact h.stored n h₁ h₂,
    fun n hn => by unfold eventEntry; rw [hg]; exact h.frame n hn⟩

end Appends

section Steps

variable {env} {st st' : KvStoreStorage}

theorem eventKey_ofBigUint_inj (hk : EventKeysApart env) {n k : Nat}
    (h : env.eventKey (.ofBigUint n) = env.eventKey (.ofBigUint k)) : n = k := by
  simpa using congrArg EventId.value (hk.injective h)

/-- A batch that names no event key keeps the event log. -/
theorem appends_apply {batch : Batch} (hb : ∀ id, env.eventKey id ∉ batch.map Prod.fst)
    (m : Merk) (n : Nat) : Appends env n n m (m.apply batch) :=
  .of_get (fun id => Merk.get_apply_of_not_mem m (hb id)) n

theorem get_commitIfImmediate (st : KvStoreStorage) :
    (commitIfImmediate st).persistentStore.get = st.persistentStore.get := by
  unfold commitIfImmediate
  split_ifs <;> rfl

/-- `log_event` stores the event under the id after the latest, and takes that id. -/
theorem appends_logEvent (hk : EventKeysApart env) (info : EventInfo Reason) (st : KvStoreStorage) :
    Appends env st.latestEventId.value (st.latestEventId.value + 1) st.persistentStore
        (logEvent env info st).persistentStore ∧
      (logEvent env info st).latestEventId.value = st.latestEventId.value + 1 := by
  refine ⟨⟨Nat.le_succ _, fun n h h' => ?_, fun n hn => ?_⟩, by simp [logEvent]⟩
  · obtain rfl : n = st.latestEventId.value + 1 := by omega
    simp [eventEntry, logEvent, EventId.addU32, Op.result]
  · have hne : env.eventKey (.ofBigUint n) ≠ env.eventKey (.ofBigUint (st.latestEventId.value + 1)) :=
      fun h => by have := eventKey_ofBigUint_inj hk h; omega
    simp only [eventEntry, logEvent, EventId.addU32, Merk.apply_cons, Merk.apply_nil, Merk.get_stage]
    exact if_neg hne

/-- `put`, `disable` and `transfer`: a batch of user keys, then the event. -/
theorem appends_writeLogged (hk : EventKeysApart env) {batch : Batch}
    (hb : ∀ id, env.eventKey id ∉ batch.map Prod.fst) (info : EventInfo Reason) (st : KvStoreStorage) :
    Appends env st.latestEventId.value (writeLogged env batch info st).latestEventId.value
        st.persistentStore (writeLogged env batch info st).persistentStore ∧
      (writeLogged env batch info st).latestEventId.value = st.latestEventId.value + 1 := by
  obtain ⟨hlog, hid⟩ :=
    appends_logEvent hk info { st with persistentStore := st.persistentStore.apply batch }
  have hid' : (writeLogged env batch info st).latestEventId.value = st.latestEventId.value + 1 := by
    unfold writeLogged commitIfImmediate
    split_ifs <;> exact hid
  exact ⟨hid' ▸ ((appends_apply hb _ _).trans hlog).congr_get (get_commitIfImmediate _), hid'⟩

theorem eventKey_not_mem_user (id : EventId) (k : Bytes) :
    env.eventKey id ∉ [kvstoreAclRoot ++ k] ∧
      env.eventKey id ∉ [kvstoreAclRoot ++ k, kvstoreRoot ++ k] := by
  have ha := (@aclKey_ne_of_head k _ (env.eventKey_head id)).symm
  have hd := (@dataKey_ne_of_head k _ (env.eventKey_head id)).symm
  simp only [List.mem_cons, List.not_mem_nil, or_false, not_or]
  exact ⟨ha, ha, hd⟩

/-- One call extends the event log by the event it logs, if it logs one. -/
theorem appends_step (hk : EventKeysApart env) {c : Call Reason} (h : step env c st = .returns st') :
    Appends env st.latestEventId.value st'.latestEventId.value st.persistentStore st'.persistentStore ∧
      st'.latestEventId.value = st.latestEventId.value + if c.logs then 1 else 0 := by
  cases c with
  | put meta k v =>
    cases h
    exact appends_writeLogged hk (fun id => by simpa using (eventKey_not_mem_user id k).2) _ st
  | disable meta k =>
    cases h
    exact appends_writeLogged hk (fun id => by simpa using (eventKey_not_mem_user id k).1) _ st
  | transfer k owner meta =>
    cases h
    exact appends_writeLogged hk (fun id => by simpa using (eventKey_not_mem_user id k).1) _ st
  | newSubresourceId =>
    simp only [step] at h
    split at h
    · rename_i r st₁ hn
      cases h
      unfold newSubresourceId at hn
      dsimp only at hn
      split_ifs at hn
      cases hn
      exact ⟨appends_apply (fun id => by simpa using hk.ne_subresourceIdKey id) _ _, rfl⟩
    · cases h
  | commit =>
    simp only [step] at h
    split at h
    · rename_i info st₁ hc
      cases h
      unfold commit at hc
      split at hc
      · cases hc
      · rename_i g st₂ hinc
        dsimp only at hc
        cases hc
        unfold incHeight at hinc
        split at hinc
        · cases hinc
        · split at hinc
          · cases hinc
            refine ⟨.of_get (fun id => ?_) _, rfl⟩
            rw [Merk.get_commit, Merk.get_apply_of_not_mem _ (by simpa using hk.ne_latestEventIdKey id),
              withHeight, Merk.get_apply_of_not_mem _ (by simpa using (env.eventKey_ne_height id).symm)]
          · cases hinc
    · cases h

/-- Over any run that does not panic, the kvstore's event log only grows at its end: the event
counter advances by the number of `put`, `disable` and `transfer` calls, an event is stored
under each id it passes, and every other event entry is as it was. -/
theorem run_appends_to_event_log (hk : EventKeysApart env) (cs : List (Call Reason))
    (h : run env cs st = .returns st') :
    st'.latestEventId.value = st.latestEventId.value + cs.countP Call.logs ∧
      Appends env st.latestEventId.value st'.latestEventId.value st.persistentStore
        st'.persistentStore := by
  induction cs generalizing st with
  | nil => cases h; exact ⟨rfl, .of_get (fun _ => rfl) _⟩
  | cons c cs ih =>
    simp only [run] at h
    split at h
    · rename_i st₁ h₁
      obtain ⟨ha₁, hv₁⟩ := appends_step hk h₁
      obtain ⟨hv, ha⟩ := ih h
      exact ⟨by rw [hv, hv₁, List.countP_cons]; omega, ha₁.trans ha⟩
    · cases h

end Steps

theorem flagEnv_eventKeysApart : EventKeysApart flagEnv where
  injective a b h := by
    cases a
    cases b
    simpa [flagEnv] using h
  ne_subresourceIdKey id h := by
    have h1 : subresourceIdKey[1]? = some 99 := rfl
    have := congrArg (fun k : Key => k.get? 1) h
    simp [flagEnv, h1] at this
  ne_latestEventIdKey id h := by
    have h1 : latestEventIdKey[1]? = some 108 := rfl
    have := congrArg (fun k : Key => k.get? 1) h
    simp [flagEnv, h1] at this

theorem put_disable_commit_appends :
    ∃ st, run flagEnv [.put ⟨⟨[0]⟩, none⟩ [7] [8], .commit, .disable ⟨⟨[0]⟩, some (.inl true)⟩ [7]]
        (new flagEnv [] ⟨[0]⟩ true) = .returns st ∧
      st.latestEventId.value = (new flagEnv [] ⟨[0]⟩ true).latestEventId.value + 2 ∧
      Appends flagEnv (new flagEnv [] ⟨[0]⟩ true).latestEventId.value st.latestEventId.value
        (new flagEnv [] ⟨[0]⟩ true).persistentStore st.persistentStore :=
  let ⟨st, h⟩ : ∃ st, run flagEnv [.put ⟨⟨[0]⟩, none⟩ [7] [8], .commit,
      .disable ⟨⟨[0]⟩, some (.inl true)⟩ [7]] (new flagEnv [] ⟨[0]⟩ true) = .returns st := ⟨_, rfl⟩
  ⟨st, h, run_appends_to_event_log flagEnv_eventKeysApart _ h⟩

end ManyRs.KvStore
