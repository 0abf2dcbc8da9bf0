import ManyRs.Ledger.MintBurn

/-! `LedgerStorage::with_balances`, which stages the initial state of a ledger in one sorted
batch: a balance for every holder and symbol given, the server identity and the symbols map. -/
namespace ManyRs.Ledger
open ManyRs.Store ManyRs.Events ManyRs.Cbor

/-- The errors of `with_balances`: `Unknown symbol "{symbol}" for identity {k}`, and the
storage error of its `apply`. -/
inductive BalancesError
  | unknownSymbol (symbol : Symbol) (identity : Address)
  | storage (e : StorageError)

variable (env : TokenEnv)

/-- What `with_balances` uses that is not in src beyond the token calls' keys: the key
`IDENTITY_ROOT`, apart from `SYMBOLS_ROOT` and from every balance key. -/
structure GenesisEnv where
  identityRoot : Key
  roots_ne : identityRoot ≠ env.symbolsRoot
  identityRoot_ne_balanceKey : ∀ a s, identityRoot ≠ env.keyForAccountBalance a s

variable (genv : GenesisEnv env)

/-- The inner loop of `with_balances` over the balances of the holder `k`. -/
def holderLoop (symbols : List (Symbol × String)) (k : Address) :
    List (Symbol × Nat) → Batch → Except BalancesError Batch
  | [], batch => .ok batch
  | (symbol, tokens) :: v, batch =>
    if symbol ∈ symbols.map Prod.fst then
      holderLoop symbols k v (batch ++ [(env.keyForAccountBalance k symbol, .put (toBytesBE tokens))])
    else .error (.unknownSymbol symbol k)

/-- The outer loop of `with_balances` over the holders. -/
def balancesLoop (symbols : List (Symbol × String)) :
    List (Address × List (Symbol × Nat)) → Batch → Except BalancesError Batch
  | [], batch => .ok batch
  | (k, v) :: rest, batch =>
    match holderLoop env symbols k v batch with
    | .ok batch => balancesLoop symbols rest batch
    | .error e => .error e

/-- `LedgerStorage::with_balances`: the balances, the identity and the symbols, staged in key
order, nothing committed; `applyFault` is the storage error its `apply` returns, if any. -/
def withBalances (applyFault : Option String) (identity : Address) (symbols : List (Symbol × String))
    (initialBalances : List (Address × List (Symbol × Nat))) (st : LedgerStorage) :
    Except BalancesError LedgerStorage := do
  let batch ← balancesLoop env symbols initialBalances []
  let batch := batch ++ [(genv.identityRoot, .put identity.toVec),
    (env.symbolsRoot, .put (env.encodeSymbols symbols))]
  match applyFault with
  | some e => throw (.storage (.applyFailed e))
  | none => pure { st with persistentStore := st.persistentStore.apply (sortBatch batch) }

/-- The balance entries of the initial balances, in the order the loops stage them. -/
def genesisEntries (initialBalances : List (Address × List (Symbol × Nat))) : Batch :=
  initialBalances.flatMap fun e =>
    e.2.map fun t => (env.keyForAccountBalance e.1 t.1, .put (toBytesBE t.2))

@[simp] theorem genesisEntries_cons (e : Address × List (Symbol × Nat))
    (rest : List (Address × List (Symbol × Nat))) :
    genesisEntries env (e :: rest) =
      e.2.map (fun t => (env.keyForAccountBalance e.1 t.1, .put (toBytesBE t.2))) ++
        genesisEntries env rest := rfl

section Loops

variable {env}
variable {symbols : List (Symbol × String)} {batch batch' : Batch}

/-- The inner loop stages every balance of the holder when it lists every symbol. -/
theorem holderLoop_eq_ok {k : Address} :
    ∀ {v : List (Symbol × Nat)} {batch batch' : Batch},
      holderLoop env symbols k v batch = .ok batch' ↔
        (∀ t ∈ v, t.1 ∈ symbols.map Prod.fst) ∧
          batch' = batch ++ v.map fun t => (env.keyForAccountBalance k t.1, .put (toBytesBE t.2))
  | [], _, _ => by simp [holderLoop, eq_comm]
  | (symbol, tokens) :: v, batch, batch' => by
    rw [holderLoop]
    split
    · next hs =>
      rw [holderLoop_eq_ok, List.forall_mem_cons, List.map_cons, List.append_assoc,
        List.singleton_append]
      exact ⟨fun h => ⟨⟨hs, h.1⟩, h.2⟩, fun h => ⟨h.1.2, h.2⟩⟩
    · next hs => exact ⟨nofun, fun h => absurd (List.forall_mem_cons.mp h.1).1 hs⟩

theorem balancesLoop_eq_ok :
    ∀ {initial : List (Address × List (Symbol × Nat))} {batch batch' : Batch},
      balancesLoop env symbols initial batch = .ok batch' ↔
        (∀ e ∈ initial, ∀ t ∈ e.2, t.1 ∈ symbols.map Prod.fst) ∧
          batch' = batch ++ genesisEntries env initial
  | [], _, _ => by simp [balancesLoop, genesisEntries, eq_comm]
  | (k, v) :: rest, batch, batch' => by
    rw [balancesLoop]
    split
    · next b hb =>
      obtain ⟨hv, rfl⟩ := holderLoop_eq_ok.mp hb
      rw [balancesLoop_eq_ok, List.forall_mem_cons, genesisEntries_cons, List.append_assoc]
      exact ⟨fun h => ⟨⟨hv, h.1⟩, h.2⟩, fun h => ⟨h.1.2, h.2⟩⟩
    · next e he =>
      have hv : ¬ ∀ t ∈ v, t.1 ∈ symbols.map Prod.fst := fun hv =>
        Except.noConfusion ((holderLoop_eq_ok.mpr ⟨hv, rfl⟩).symm.trans he)
      exact ⟨nofun, fun h => (hv (List.forall_mem_cons.mp h.1).1).elim⟩

end Loops

section Keys

variable {env}
variable {initial : List (Address × List (Symbol × Nat))}

theorem mem_genesisKeys {key : Key} :
    key ∈ (genesisEntries env initial).map Prod.fst ↔
      ∃ e ∈ initial, ∃ t ∈ e.2, key = env.keyForAccountBalance e.1 t.1 := by
  simp only [genesisEntries, List.mem_map, List.mem_flatMap]
  constructor
  · rintro ⟨x, ⟨e, he, t, ht, rfl⟩, rfl⟩
    exact ⟨e, he, t, ht, rfl⟩
  · rintro ⟨e, he, t, ht, rfl⟩
    exact ⟨_, ⟨e, he, t, ht, rfl⟩, rfl⟩

/-- Distinct holders with distinct symbols each give distinct balance keys. -/
theorem genesisKeys_nodup (hnd : (initial.map Prod.fst).Nodup)
    (hnd' : ∀ e ∈ initial, (e.2.map Prod.fst).Nodup) :
    ((genesisEntries env initial).map Prod.fst).Nodup := by
  induction initial with
  | nil => exact List.nodup_nil
  | cons e rest ih =>
    rw [List.map_cons, List.nodup_cons] at hnd
    rw [genesisEntries_cons, List.map_append, List.map_map]
    refine List.Nodup.append ?_ (ih hnd.2 fun e' he' => hnd' e' (List.mem_cons_of_mem _ he'))
      (List.disjoint_left.mpr fun key hk hk' => ?_)
    · have hm : e.2.map (Prod.fst ∘ fun t => (env.keyForAccountBalance e.1 t.1,
          Op.put (toBytesBE t.2))) = (e.2.map Prod.fst).map (env.keyForAccountBalance e.1) := by
        simp [Function.comp_def]
      rw [hm]
      exact (hnd' e (List.mem_cons_self _ _)).map fun s t h => (env.balanceKey_injective h).2
    · obtain ⟨t, -, rfl⟩ := List.mem_map.mp hk
      obtain ⟨e', he', t', -, hkey⟩ := mem_genesisKeys.mp hk'
      exact hnd.1 ((env.balanceKey_injective hkey).1 ▸ List.mem_map_of_mem Prod.fst he')

/-- The batch a successful `with_balances` stages, before it sorts it. -/
def genesisBatch (identity : Address) (symbols : List (Symbol × String))
    (initial : List (Address × List (Symbol × Nat))) : Batch :=
  genesisEntries env initial ++ [(genv.identityRoot, .put identity.toVec),
    (env.symbolsRoot, .put (env.encodeSymbols symbols))]

variable {genv} {identity : Address} {symbols : List (Symbol × String)}

theorem balanceKey_not_mem_roots (a : Address) (s : Symbol) :
    env.keyForAccountBalance a s ∉ [genv.identityRoot, env.symbolsRoot] := by
  simp only [List.mem_cons, List.not_mem_nil, or_false, not_or]
  exact ⟨(genv.identityRoot_ne_balanceKey _ _).symm, (env.symbolsRoot_ne_balanceKey _ _).symm⟩

theorem genesisBatch_nodup (hnd : (initial.map Prod.fst).Nodup)
    (hnd' : ∀ e ∈ initial, (e.2.map Prod.fst).Nodup) :
    ((genesisBatch genv identity symbols initial).map Prod.fst).Nodup := by
  rw [genesisBatch, List.map_append]
  refine (genesisKeys_nodup hnd hnd').append (by simpa using genv.roots_ne)
    (List.disjoint_left.mpr fun key hk hr => ?_)
  obtain ⟨e, -, t, -, rfl⟩ := mem_genesisKeys.mp hk
  exact balanceKey_not_mem_roots _ _ hr

/-- The balance keys the batch writes are those of the balances it is given. -/
theorem mem_initial_of_balanceKey {a : Address} {s : Symbol}
    (hk : env.keyForAccountBalance a s ∈ (genesisBatch genv identity symbols initial).map Prod.fst) :
    ∃ e ∈ initial, e.1 = a ∧ s ∈ e.2.map Prod.fst := by
  rw [genesisBatch, List.map_append, List.mem_append, mem_genesisKeys] at hk
  rcases hk with ⟨e, he, t, ht, hkey⟩ | hr
  · obtain ⟨rfl, rfl⟩ := env.balanceKey_injective hkey
    exact ⟨e, he, rfl, List.mem_map_of_mem _ ht⟩
  · exact absurd hr (balanceKey_not_mem_roots _ _)

end Keys

section WithBalances

variable {env} {genv : GenesisEnv env} {fault : Option String} {identity : Address}
  {symbols : List (Symbol × String)} {initial : List (Address × List (Symbol × Nat))}
  {st st' : LedgerStorage}

/-- `with_balances` succeeds exactly when every symbol it is given is listed and its `apply`
does not fail, and then it stages the balances, the identity and the symbols. -/
theorem withBalances_eq_ok :
    withBalances env genv fault identity symbols initial st = .ok st' ↔
      (∀ e ∈ initial, ∀ t ∈ e.2, t.1 ∈ symbols.map Prod.fst) ∧ fault = none ∧
        st' = { st with persistentStore :=
          st.persistentStore.apply (sortBatch (genesisBatch genv identity symbols initial)) } := by
  rw [withBalances, except_bind_eq_ok]
  constructor
  · rintro ⟨b, hb, h⟩
    obtain ⟨hs, rfl⟩ := balancesLoop_eq_ok.mp hb
    cases fault with
    | some e => cases h
    | none => cases h; exact ⟨hs, rfl, rfl⟩
  · rintro ⟨hs, rfl, rfl⟩
    exact ⟨_, balancesLoop_eq_ok.mpr ⟨hs, rfl⟩, rfl⟩

end WithBalances

/-- A root key apart from the keys of the one-token ledger. -/
def plainGenesisEnv : GenesisEnv plainTokenEnv where
  identityRoot := [3]
  roots_ne := by decide
  identityRoot_ne_balanceKey _ _ h := absurd (List.cons.inj h).1 (by decide)

/-- Two holders of the one token. -/
def tokenGenesis : List (Address × List (Symbol × Nat)) :=
  [(⟨[1]⟩, [(tokenSymbol, 5)]), (⟨[2]⟩, [(tokenSymbol, 3)])]

end ManyRs.Ledger
