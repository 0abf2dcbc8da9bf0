import ManyRs.Ledger.Commit
import ManyRs.Identity
import Mathlib.Algebra.Order.BigOperators.Group.Finset

/-! `LedgerStorage::mint_token` and `burn_token`: a distribution is checked against the balances
the ledger reports, then one sorted batch writes the new balances and the token's supply. -/
namespace ManyRs.Ledger
open ManyRs.Store ManyRs.Events ManyRs.Cbor

/-- `Symbol`, the address of a token. -/
abbrev Symbol := Address

/-- Modelled from the spec: `TokenInfoSupply`. -/
structure TokenInfoSupply where
  total : Nat
  circulating : Nat
  maximum : Option Nat
  deriving DecidableEq

/-- Modelled from the spec: `TokenInfo`, of which the calls read and change the supply only. -/
structure TokenInfo where
  supply : TokenInfoSupply
  deriving DecidableEq

/-- `LedgerTokensAddressMap`, a `BTreeMap<Address, TokenAmount>` in key order: no address twice. -/
structure LedgerTokensAddressMap where
  entries : List (Address × Nat)
  nodup : (entries.map Prod.fst).Nodup

namespace LedgerTokensAddressMap

def addresses (d : LedgerTokensAddressMap) : List Address := d.entries.map Prod.fst

def sum (d : LedgerTokensAddressMap) : Nat := (d.entries.map Prod.snd).sum

/-- The amount the map gives an address, 0 if none. -/
def amount (d : LedgerTokensAddressMap) (a : Address) : Nat := ((d.entries.lookup a).getD 0)

theorem lookup_of_mem {l : List (Address × Nat)} (hnd : (l.map Prod.fst).Nodup) {a : Address}
    {x : Nat} (h : (a, x) ∈ l) : l.lookup a = some x := by
  induction l with
  | nil => cases h
  | cons e l ih =>
    rw [List.map_cons, List.nodup_cons] at hnd
    rcases List.mem_cons.mp h with rfl | h
    · simp [List.lookup_cons]
    · have hne : a ≠ e.1 := fun he => hnd.1 (he ▸ List.mem_map_of_mem Prod.fst h)
      rw [List.lookup_cons, beq_eq_false_iff_ne.mpr hne, ih hnd.2 h]

theorem amount_of_mem (d : LedgerTokensAddressMap) {e : Address × Nat} (h : e ∈ d.entries) :
    d.amount e.1 = e.2 := by
  simp [amount, lookup_of_mem d.nodup h]

theorem amount_of_not_mem (d : LedgerTokensAddressMap) {a : Address} (h : a ∉ d.addresses) :
    d.amount a = 0 := by
  suffices d.entries.lookup a = none by simp [amount, this]
  refine List.lookup_eq_none_iff.mpr fun p hp => bne_iff_ne.mpr fun he => h ?_
  exact he ▸ List.mem_map_of_mem Prod.fst hp

/-- Over its addresses, the map's amounts add up to its sum. -/
theorem sum_amount (d : LedgerTokensAddressMap) :
    ∑ a ∈ d.addresses.toFinset, d.amount a = d.sum := by
  obtain ⟨l, hnd⟩ := d
  simp only [addresses, sum, amount]
  induction l with
  | nil => rfl
  | cons e l ih =>
    rw [List.map_cons, List.nodup_cons] at hnd
    rw [List.map_cons, List.toFinset_cons, Finset.sum_insert (by simpa using hnd.1), List.map_cons,
      List.sum_cons, ← ih hnd.2]
    congr 1
    · rw [List.lookup_cons, beq_self_eq_true]; rfl
    · refine Finset.sum_congr rfl fun a ha => ?_
      have hne : a ≠ e.1 := fun he => hnd.1 (he ▸ List.mem_toFinset.mp ha)
      rw [List.lookup_cons, beq_eq_false_iff_ne.mpr hne]

end LedgerTokensAddressMap

/-- The errors of the calls, with the values the source passes them. -/
inductive MintBurnError
  | unableToDistributeZero (address : Address)
  | overMaximumSupply (symbol : Symbol) (circulating maximum : Nat)
  | missingFunds (symbol : Symbol) (amount balance : Nat)
  | tokenNotFound (symbol : Symbol)
  | keyNotFound (key : Key)
  | deserialization (e : DecodeError)
  | storage (e : StorageError)

/-- What the calls use that is not in src: `key_for_account_balance`, injective,
`key_for_symbol`, apart from the balance keys, the key `SYMBOLS_ROOT`, apart from both, the CBOR
codec of `TokenInfo`, and that of the symbols map, of which `get_symbols` keeps the symbols. -/
structure TokenEnv where
  keyForAccountBalance : Address → Symbol → Key
  keyForSymbol : Symbol → Key
  symbolsRoot : Key
  balanceKey_injective : ∀ {a b s t}, keyForAccountBalance a s = keyForAccountBalance b t → a = b ∧ s = t
  symbolKey_ne_balanceKey : ∀ s a t, keyForSymbol s ≠ keyForAccountBalance a t
  symbolsRoot_ne_balanceKey : ∀ a s, symbolsRoot ≠ keyForAccountBalance a s
  symbolsRoot_ne_symbolKey : ∀ s, symbolsRoot ≠ keyForSymbol s
  infoCodec : Codec TokenInfo
  encodeSymbols : List (Symbol × String) → Bytes
  decodeSymbols : Decoder (List Symbol)
  decodeSymbols_encode : ∀ m rest, decodeSymbols (encodeSymbols m ++ rest) = .ok (m.map Prod.fst, rest)

variable (env : TokenEnv)

/-- Modelled from the spec: `get_symbols`, the symbols of the map stored at `SYMBOLS_ROOT`. -/
def getSymbols (st : LedgerStorage) : Except MintBurnError (List Symbol) :=
  match st.persistentStore.get env.symbolsRoot with
  | none => .error (.keyNotFound env.symbolsRoot)
  | some v =>
    match env.decodeSymbols v with
    | .ok (symbols, _) => .ok symbols
    | .error e => .error (.deserialization e)

/-- The symbols the ledger lists: none when `get_symbols` fails. -/
def listedSymbols (st : LedgerStorage) : List Symbol :=
  match getSymbols env st with
  | .ok symbols => symbols
  | .error _ => []

/-- `get_all_balances`: the map, as its lookup, of the symbols with a stored balance, and the
balance keys of the address; the anonymous address holds nothing. -/
def getAllBalances (st : LedgerStorage) (identity : Address) :
    Except MintBurnError ((Symbol → Option Nat) × List Key) :=
  if identity.isAnonymous then .ok (fun _ => none, []) else do
    let symbols ← getSymbols env st
    pure (fun s => if s ∈ symbols then
        (st.persistentStore.get (env.keyForAccountBalance identity s)).map fromBytesBE else none,
      symbols.map (env.keyForAccountBalance identity))

/-- `get_multiple_balances`: the balances of the given symbols, or all of them if none is given. -/
def getMultipleBalances (st : LedgerStorage) (identity : Address) (symbols : List Symbol) :
    Except MintBurnError ((Symbol → Option Nat) × List Key) := do
  let (balances, keys) ← getAllBalances env st identity
  pure (fun s => if symbols.isEmpty || symbols.contains s then balances s else none, keys)

/-- Modelled from the spec: `info_token`, the token's info as stored at `key_for_symbol`. -/
def infoToken (st : LedgerStorage) (symbol : Symbol) : Except MintBurnError TokenInfo :=
  match st.persistentStore.get (env.keyForSymbol symbol) with
  | none => .error (.tokenNotFound symbol)
  | some v =>
    match env.infoCodec.decode v with
    | .ok (info, _) => .ok info
    | .error e => .error (.deserialization e)

/-- The maximum a circulating supply would exceed after `circulating` more tokens. -/
def overMaximum (supply : TokenInfoSupply) (circulating : Nat) : Option Nat :=
  match supply.maximum with
  | some x => if supply.circulating + circulating > x then some x else none
  | none => none

/-- The loop of `mint_token` over the distribution, with the batch, the minted amount and the
keys so far. -/
def mintLoop (st : LedgerStorage) (symbol : Symbol) (supply : TokenInfoSupply) :
    List (Address × Nat) → Batch → Nat → List Key → Except MintBurnError (Batch × Nat × List Key)
  | [], batch, circulating, keys => .ok (batch, circulating, keys)
  | (address, amount) :: rest, batch, circulating, keys =>
    if amount = 0 then .error (.unableToDistributeZero address) else
    let circulating := circulating + amount
    match overMaximum supply circulating with
    | some x => .error (.overMaximumSupply symbol circulating x)
    | none =>
      match getMultipleBalances env st address [symbol] with
      | .error e => .error e
      | .ok (balances, balanceKeys) =>
        let newBalance := ((balances symbol).map (· + amount)).getD amount
        let key := env.keyForAccountBalance address symbol
        mintLoop st symbol supply rest (batch ++ [(key, .put (toBytesBE newBalance))]) circulating
          (keys ++ balanceKeys ++ [key])

/-- `mint_token` up to its write: the sorted batch of the new balances and of the supply raised
by the minted amount, with the keys it reports. -/
def mintBatch (symbol : Symbol) (distribution : LedgerTokensAddressMap) (st : LedgerStorage) :
    Except MintBurnError (Batch × List Key) := do
  let currentSupply := (← infoToken env st symbol).supply
  let (batch, circulating, keys) ←
    mintLoop env st symbol currentSupply distribution.entries [] 0 []
  let info ← infoToken env st symbol
  let info := { info with supply := { info.supply with
    circulating := info.supply.circulating + circulating
    total := info.supply.total + circulating } }
  let symbolKey := env.keyForSymbol symbol
  pure (sortBatch (batch ++ [(symbolKey, .put (env.infoCodec.encode info))]), keys ++ [symbolKey])

/-- `LedgerStorage::mint_token`: an error before the write leaves the storage as it was. -/
def mintToken (faults : WriteFaults) (symbol : Symbol) (distribution : LedgerTokensAddressMap) :
    EStateM MintBurnError LedgerStorage (List Key) := fun st =>
  match mintBatch env symbol distribution st with
  | .error e => .error e st
  | .ok (batch, keys) => ((fun _ => keys) <$> (applyBatch faults batch).adaptExcept .storage) st

/-- The loop of `burn_token`, which needs a reported balance of at least the amount. -/
def burnLoop (st : LedgerStorage) (symbol : Symbol) :
    List (Address × Nat) → Batch → Nat → List Key → Except MintBurnError (Batch × Nat × List Key)
  | [], batch, circulating, keys => .ok (batch, circulating, keys)
  | (address, amount) :: rest, batch, circulating, keys =>
    if amount = 0 then .error (.unableToDistributeZero address) else
    match getMultipleBalances env st address [symbol] with
    | .error e => .error e
    | .ok (balances, balanceKeys) =>
      match balances symbol with
      | none => .error (.missingFunds symbol amount 0)
      | some x =>
        if x < amount then .error (.missingFunds symbol amount x) else
        let key := env.keyForAccountBalance address symbol
        burnLoop st symbol rest (batch ++ [(key, .put (toBytesBE (x - amount)))])
          (circulating + amount) (keys ++ balanceKeys ++ [key])

/-- `burn_token` up to its write; the `BigUint` subtractions from the supply panic if they
would go below zero. -/
def burnBatch (symbol : Symbol) (distribution : LedgerTokensAddressMap) (st : LedgerStorage) :
    Outcome (Except MintBurnError (Batch × List Key)) :=
  match burnLoop env st symbol distribution.entries [] 0 [] with
  | .error e => .returns (.error e)
  | .ok (batch, circulating, keys) =>
    match infoToken env st symbol with
    | .error e => .returns (.error e)
    | .ok info =>
      if circulating ≤ info.supply.circulating ∧ circulating ≤ info.supply.total then
        let info := { info with supply := { info.supply with
          circulating := info.supply.circulating - circulating
          total := info.supply.total - circulating } }
        let symbolKey := env.keyForSymbol symbol
        .returns (.ok (sortBatch (batch ++ [(symbolKey, .put (env.infoCodec.encode info))]),
          keys ++ [symbolKey]))
      else .aborts "Cannot subtract b from a because b is larger than a."

/-- `LedgerStorage::burn_token`. -/
def burnToken (faults : WriteFaults) (symbol : Symbol) (distribution : LedgerTokensAddressMap)
    (st : LedgerStorage) : Outcome (EStateM.Result MintBurnError LedgerStorage (List Key)) :=
  match burnBatch env symbol distribution st with
  | .aborts message => .aborts message
  | .returns (.error e) => .returns (.error e st)
  | .returns (.ok (batch, keys)) =>
    .returns (((fun _ => keys) <$> (applyBatch faults batch).adaptExcept .storage) st)

/-- The balance of `symbol` that `get_multiple_balances(address, {symbol})` reports. -/
def reportedBalance (st : LedgerStorage) (address : Address) (symbol : Symbol) :
    Except MintBurnError (Option Nat) :=
  (getMultipleBalances env st address [symbol]).map fun r => r.1 symbol

/-- The reported balance as a number: 0 when none is reported or the read fails. -/
def balanceOf (st : LedgerStorage) (address : Address) (symbol : Symbol) : Nat :=
  match reportedBalance env st address symbol with
  | .ok b => b.getD 0
  | .error _ => 0

/-- The circulating supply of `symbol` is the sum of the reported balances, which are 0 outside
`holders`, and it is at most the total supply. -/
structure SupplyAccounted (st : LedgerStorage) (symbol : Symbol) (supply : TokenInfoSupply)
    (holders : Finset Address) : Prop where
  info : infoToken env st symbol = .ok ⟨supply⟩
  outside : ∀ a ∉ holders, balanceOf env st a symbol = 0
  circulating_eq : supply.circulating = ∑ a ∈ holders, balanceOf env st a symbol
  circulating_le : supply.circulating ≤ supply.total

/-- The batch both calls write: a new balance `f address amount` for each entry, then the
token's info. -/
def planned (symbol : Symbol) (d : LedgerTokensAddressMap) (f : Address → Nat → Nat)
    (info : Value) : Batch :=
  sortBatch (d.entries.map (fun e => (env.keyForAccountBalance e.1 symbol,
    .put (toBytesBE (f e.1 e.2)))) ++ [(env.keyForSymbol symbol, .put info)])

section Reads

variable {env} {st st' : LedgerStorage} {symbol : Symbol}

theorem getSymbols_congr
    (h : st'.persistentStore.get env.symbolsRoot = st.persistentStore.get env.symbolsRoot) :
    getSymbols env st' = getSymbols env st := by
  simp only [getSymbols, h]

theorem listedSymbols_congr
    (h : st'.persistentStore.get env.symbolsRoot = st.persistentStore.get env.symbolsRoot) :
    listedSymbols env st' = listedSymbols env st := by
  simp only [listedSymbols, getSymbols_congr h]

theorem getSymbols_of_mem (h : symbol ∈ listedSymbols env st) :
    getSymbols env st = .ok (listedSymbols env st) := by
  unfold listedSymbols at h ⊢
  cases hg : getSymbols env st with
  | ok symbols => rfl
  | error e => rw [hg] at h; cases h

/-- What `get_multiple_balances(address, {symbol})` reports for the symbol. -/
theorem reportedBalance_eq (st : LedgerStorage) (a : Address) (symbol : Symbol) :
    reportedBalance env st a symbol = if a.isAnonymous then .ok none else
      (getSymbols env st).map fun symbols => if symbol ∈ symbols then
        (st.persistentStore.get (env.keyForAccountBalance a symbol)).map fromBytesBE else none := by
  unfold reportedBalance getMultipleBalances getAllBalances
  split_ifs
  · simp [bind, Except.bind, pure, Except.pure, Except.map]
  · cases getSymbols env st <;> simp [bind, Except.bind, pure, Except.pure, Except.map]

theorem balanceOf_anonymous : balanceOf env st Address.anonymous symbol = 0 := by
  simp [balanceOf, reportedBalance_eq, Address.isAnonymous]

theorem balanceOf_of_not_anonymous (hs : symbol ∈ listedSymbols env st) {a : Address}
    (ha : a.isAnonymous = false) : balanceOf env st a symbol =
      ((st.persistentStore.get (env.keyForAccountBalance a symbol)).map fromBytesBE).getD 0 := by
  simp [balanceOf, reportedBalance_eq, ha, getSymbols_of_mem hs, hs, Except.map]

theorem balanceOf_congr {a : Address}
    (h : st'.persistentStore.get (env.keyForAccountBalance a symbol) =
      st.persistentStore.get (env.keyForAccountBalance a symbol))
    (hr : st'.persistentStore.get env.symbolsRoot = st.persistentStore.get env.symbolsRoot) :
    balanceOf env st' a symbol = balanceOf env st a symbol := by
  simp only [balanceOf, reportedBalance_eq, getSymbols_congr hr, h]

/-- The balance a loop reads from a successful `get_multiple_balances`. -/
theorem balanceOf_of_getMultipleBalances {a : Address} {balances : Symbol → Option Nat}
    {keys : List Key} (h : getMultipleBalances env st a [symbol] = .ok (balances, keys)) :
    balanceOf env st a symbol = (balances symbol).getD 0 := by
  simp [balanceOf, reportedBalance, h, Except.map]

end Reads

section Plans

variable {env} {symbol : Symbol}

variable (d : LedgerTokensAddressMap) (f : Address → Nat → Nat) (info : Value) (m : Merk)

theorem planned_nodup : ((planned env symbol d f info).map Prod.fst).Nodup := by
  rw [planned, ((sortBatch_perm _).map Prod.fst).nodup_iff, List.map_append, List.map_map]
  have hkeys : d.entries.map (Prod.fst ∘ fun e => (env.keyForAccountBalance e.1 symbol,
      Op.put (toBytesBE (f e.1 e.2)))) = d.addresses.map (env.keyForAccountBalance · symbol) := by
    simp [LedgerTokensAddressMap.addresses, Function.comp_def]
  rw [hkeys]
  refine (d.nodup.map fun a b h => (env.balanceKey_injective h).1).append (List.nodup_singleton _) ?_
  rw [List.map_singleton, List.disjoint_singleton]
  simp only [List.mem_map, not_exists, not_and]
  exact fun a _ h => env.symbolKey_ne_balanceKey _ _ _ h.symm

theorem get_planned_of_mem {e : Address × Nat} (he : e ∈ d.entries) :
    (m.apply (planned env symbol d f info)).get
      (env.keyForAccountBalance e.1 symbol) = some (toBytesBE (f e.1 e.2)) :=
  Merk.get_apply_of_mem m (planned_nodup d f info) ((sortBatch_perm _).mem_iff.mpr
    (List.mem_append_left _ (List.mem_map_of_mem _ he)))

theorem get_planned_of_not_mem {a : Address} (ha : a ∉ d.addresses) :
    (m.apply (planned env symbol d f info)).get
      (env.keyForAccountBalance a symbol) = m.get (env.keyForAccountBalance a symbol) := by
  refine Merk.get_apply_of_not_mem m fun hk => ?_
  rw [planned, ((sortBatch_perm _).map Prod.fst).mem_iff, List.map_append, List.map_map] at hk
  rcases List.mem_append.mp hk with hk | hk
  · obtain ⟨e, he, hek⟩ := List.mem_map.mp hk
    exact ha ((env.balanceKey_injective hek).1 ▸ List.mem_map_of_mem Prod.fst he)
  · exact env.symbolKey_ne_balanceKey _ _ _ (List.mem_singleton.mp hk).symm

theorem get_planned_symbol :
    (m.apply (planned env symbol d f info)).get (env.keyForSymbol symbol) =
      some info :=
  Merk.get_apply_of_mem m (planned_nodup d f info) ((sortBatch_perm _).mem_iff.mpr
    (List.mem_append_right _ (List.mem_singleton_self _)))

/-- A planned batch leaves the balances of every other symbol alone. -/
theorem get_planned_of_ne_symbol {t : Symbol} (ht : t ≠ symbol) (a : Address) :
    (m.apply (planned env symbol d f info)).get (env.keyForAccountBalance a t) =
      m.get (env.keyForAccountBalance a t) := by
  refine Merk.get_apply_of_not_mem m fun hk => ?_
  rw [planned, ((sortBatch_perm _).map Prod.fst).mem_iff, List.map_append, List.map_map] at hk
  rcases List.mem_append.mp hk with hk | hk
  · obtain ⟨e, -, hek⟩ := List.mem_map.mp hk
    exact ht (env.balanceKey_injective hek).2.symm
  · exact env.symbolKey_ne_balanceKey _ _ _ (List.mem_singleton.mp hk).symm

/-- A planned batch leaves the info of every other symbol alone, when symbols have keys of
their own. -/
theorem get_planned_symbolKey_of_ne (hsym : Function.Injective env.keyForSymbol) {t : Symbol}
    (ht : t ≠ symbol) :
    (m.apply (planned env symbol d f info)).get (env.keyForSymbol t) = m.get (env.keyForSymbol t) := by
  refine Merk.get_apply_of_not_mem m fun hk => ?_
  rw [planned, ((sortBatch_perm _).map Prod.fst).mem_iff, List.map_append, List.map_map] at hk
  rcases List.mem_append.mp hk with hk | hk
  · obtain ⟨e, -, hek⟩ := List.mem_map.mp hk
    exact env.symbolKey_ne_balanceKey _ _ _ hek.symm
  · exact ht (hsym (List.mem_singleton.mp hk))

/-- No planned batch writes the symbols map. -/
theorem get_planned_symbolsRoot :
    (m.apply (planned env symbol d f info)).get env.symbolsRoot = m.get env.symbolsRoot := by
  refine Merk.get_apply_of_not_mem m fun hk => ?_
  rw [planned, ((sortBatch_perm _).map Prod.fst).mem_iff, List.map_append, List.map_map] at hk
  rcases List.mem_append.mp hk with hk | hk
  · obtain ⟨e, -, hek⟩ := List.mem_map.mp hk
    exact env.symbolsRoot_ne_balanceKey _ _ hek.symm
  · exact env.symbolsRoot_ne_symbolKey _ (List.mem_singleton.mp hk)

end Plans

section Calls

variable {env} {st : LedgerStorage} {symbol : Symbol}

theorem getD_map_add (o : Option Nat) (n : Nat) : (o.map (· + n)).getD n = o.getD 0 + n := by
  cases o <;> simp

/-- A completed mint loop: the new balance of each entry is its reported balance plus its
amount, the minted amount is their sum, and no prefix passed the maximum. -/
theorem mintLoop_ok {supply : TokenInfoSupply} {entries : List (Address × Nat)} {batch batch' : Batch}
    {c c' : Nat} {keys keys' : List Key}
    (h : mintLoop env st symbol supply entries batch c keys = .ok (batch', c', keys')) :
    batch' = batch ++ entries.map (fun e => (env.keyForAccountBalance e.1 symbol,
      .put (toBytesBE (balanceOf env st e.1 symbol + e.2)))) ∧
    c' = c + (entries.map Prod.snd).sum ∧
    ∀ x, supply.maximum = some x → supply.circulating + c ≤ x → supply.circulating + c' ≤ x := by
  induction entries generalizing batch c keys with
  | nil => cases h; exact ⟨by simp, by simp, fun _ _ hx => hx⟩
  | cons e entries ih =>
    simp only [mintLoop] at h
    split_ifs at h
    split at h
    · cases h
    · rename_i hmax
      split at h
      · cases h
      · rename_i balances ks hb
        obtain ⟨hbatch, hc, hx⟩ := ih h
        refine ⟨by rw [hbatch, getD_map_add, ← balanceOf_of_getMultipleBalances hb]; simp,
          by rw [hc]; simp; omega, fun x hm _ => hx x hm ?_⟩
        simp only [overMaximum, hm] at hmax
        split_ifs at hmax with hgt
        omega

/-- A completed burn loop: each entry's address reports a balance of at least its nonzero
amount, which its new balance loses, and the burned amount is their sum. -/
theorem burnLoop_ok {entries : List (Address × Nat)} {batch batch' : Batch} {c c' : Nat}
    {keys keys' : List Key} (h : burnLoop env st symbol entries batch c keys = .ok (batch', c', keys')) :
    batch' = batch ++ entries.map (fun e => (env.keyForAccountBalance e.1 symbol,
      .put (toBytesBE (balanceOf env st e.1 symbol - e.2)))) ∧
    c' = c + (entries.map Prod.snd).sum ∧
    ∀ e ∈ entries, 0 < e.2 ∧ e.2 ≤ balanceOf env st e.1 symbol ∧ e.1.isAnonymous = false := by
  induction entries generalizing batch c keys with
  | nil => cases h; exact ⟨by simp, by simp, fun _ he => by cases he⟩
  | cons e entries ih =>
    simp only [burnLoop] at h
    split_ifs at h with h0
    split at h
    · cases h
    · rename_i balances ks hb
      split at h
      · cases h
      · rename_i x hx
        split_ifs at h with hlt
        have hrep : reportedBalance env st e.1 symbol = .ok (some x) := by
          simp [reportedBalance, hb, hx, Except.map]
        have hbal : balanceOf env st e.1 symbol = x := by simp [balanceOf, hrep]
        have hanon : e.1.isAnonymous = false := by
          by_contra hn
          rw [reportedBalance_eq, if_pos (by simpa using hn)] at hrep
          cases hrep
        obtain ⟨hbatch, hc, he⟩ := ih h
        refine ⟨by rw [hbatch]; simp [hbal], by rw [hc]; simp; omega, fun e' he' => ?_⟩
        rcases List.mem_cons.mp he' with rfl | he'
        · exact ⟨Nat.pos_of_ne_zero h0, hbal ▸ Nat.le_of_not_lt hlt, hanon⟩
        · exact he e' he'

/-- A mint that reaches its write plans each balance raised by its amount, and the supply by
the distribution's sum, which keeps below a maximum the supply was below. -/
theorem mintBatch_ok {d : LedgerTokensAddressMap} {batch : Batch} {keys : List Key}
    (h : mintBatch env symbol d st = .ok (batch, keys)) :
    ∃ info, infoToken env st symbol = .ok info ∧
      (∀ x, info.supply.maximum = some x → info.supply.circulating ≤ x →
        info.supply.circulating + d.sum ≤ x) ∧
      batch = planned env symbol d (fun a amount => balanceOf env st a symbol + amount)
        (env.infoCodec.encode { info with supply := { info.supply with
          circulating := info.supply.circulating + d.sum
          total := info.supply.total + d.sum } }) := by
  cases hi : infoToken env st symbol with
  | error e => simp [mintBatch, hi, bind, Except.bind] at h
  | ok info =>
    cases hl : mintLoop env st symbol info.supply d.entries [] 0 [] with
    | error e => simp [mintBatch, hi, hl, bind, Except.bind] at h
    | ok r =>
      obtain ⟨b, c, ks⟩ := r
      obtain ⟨rfl, rfl, hx⟩ := mintLoop_ok hl
      simp only [mintBatch, hi, hl, bind, Except.bind, pure, Except.pure, Except.ok.injEq,
        Prod.mk.injEq] at h
      obtain ⟨rfl, -⟩ := h
      refine ⟨info, rfl, fun x hm hle => by
        simpa [LedgerTokensAddressMap.sum] using hx x hm (by simpa using hle), ?_⟩
      simp [planned, LedgerTokensAddressMap.sum]

/-- A burn that reaches its write plans each balance lowered by its amount. -/
theorem burnBatch_planned {d : LedgerTokensAddressMap} {batch : Batch} {keys : List Key}
    (h : burnBatch env symbol d st = .returns (.ok (batch, keys))) :
    ∃ info, batch = planned env symbol d (fun a amount => balanceOf env st a symbol - amount) info := by
  unfold burnBatch at h
  split at h
  · cases h
  · rename_i b c ks hl
    obtain ⟨rfl, -, -⟩ := burnLoop_ok hl
    split at h
    · cases h
    · split_ifs at h
      · obtain ⟨rfl, -⟩ := Prod.mk.inj (Except.ok.inj (Outcome.returns.inj h))
        exact ⟨_, by rw [List.nil_append]; rfl⟩

variable {faults : WriteFaults} {d : LedgerTokensAddressMap}

/-- A mint that returns wrote its planned batch. -/
theorem mintToken_ok {keys : List Key} {st' : LedgerStorage}
    (h : mintToken env faults symbol d st = .ok keys st') :
    ∃ batch ks, mintBatch env symbol d st = .ok (batch, ks) ∧
      st'.persistentStore.get = (st.persistentStore.apply batch).get := by
  unfold mintToken at h
  split at h
  · cases h
  · rename_i batch ks hm
    obtain ⟨u, ha, -⟩ := map_adaptExcept_eq_ok h
    exact ⟨batch, ks, hm, get_of_applyBatch_ok ha⟩

/-- Unless its `apply` fails, a mint leaves, whatever it answers, a store that reads as before or
as its planned batch applied. -/
theorem get_mintToken (hf : faults.apply = none) :
    (resultState (mintToken env faults symbol d st)).persistentStore.get = st.persistentStore.get ∨
      ∃ batch keys, mintBatch env symbol d st = .ok (batch, keys) ∧
        (resultState (mintToken env faults symbol d st)).persistentStore.get =
          (st.persistentStore.apply batch).get := by
  unfold mintToken
  split
  · exact .inl rfl
  · rename_i batch ks hm
    exact .inr ⟨batch, ks, hm, by
      simp only [resultState_map, resultState_adaptExcept, get_applyBatch hf]⟩

/-- Unless its `apply` fails, a burn that returns leaves a store that reads as before or as its
planned batch applied. -/
theorem get_burnToken (hf : faults.apply = none)
    {r : EStateM.Result MintBurnError LedgerStorage (List Key)} (h : burnToken env faults symbol d st = .returns r) :
    (resultState r).persistentStore.get = st.persistentStore.get ∨
      ∃ batch keys, burnBatch env symbol d st = .returns (.ok (batch, keys)) ∧
        (resultState r).persistentStore.get = (st.persistentStore.apply batch).get := by
  unfold burnToken at h
  split at h
  · cases h
  · cases h; exact .inl rfl
  · rename_i batch ks hb
    cases h
    exact .inr ⟨batch, ks, hb, by
      simp only [resultState_map, resultState_adaptExcept, get_applyBatch hf]⟩

end Calls

/-! For a listed symbol, mint and burn keep its supply accounted for by the balances the ledger
reports, as long as the distribution leaves out the anonymous address. -/

section Supply

variable {env} {st : LedgerStorage} {symbol : Symbol} {supply : TokenInfoSupply}
  {holders : Finset Address}

/-- The supply of a symbol stays accounted for in a storage that agrees on the symbols map and
on the symbol's balances and info. -/
theorem SupplyAccounted.congr {st' : LedgerStorage} (hacc : SupplyAccounted env st symbol supply holders)
    (hbal : ∀ a, st'.persistentStore.get (env.keyForAccountBalance a symbol) =
      st.persistentStore.get (env.keyForAccountBalance a symbol))
    (hinfo : st'.persistentStore.get (env.keyForSymbol symbol) =
      st.persistentStore.get (env.keyForSymbol symbol))
    (hroot : st'.persistentStore.get env.symbolsRoot = st.persistentStore.get env.symbolsRoot) :
    SupplyAccounted env st' symbol supply holders where
  info := by rw [← hacc.info]; simp only [infoToken, hinfo]
  outside a ha := (balanceOf_congr (hbal a) hroot).trans (hacc.outside a ha)
  circulating_eq := by
    rw [hacc.circulating_eq]
    exact Finset.sum_congr rfl fun a _ => (balanceOf_congr (hbal a) hroot).symm
  circulating_le := hacc.circulating_le

/-- A planned batch of another symbol keeps a symbol's supply accounted for. -/
theorem SupplyAccounted.of_planned (hsym : Function.Injective env.keyForSymbol) {s : Symbol}
    (hs : symbol ≠ s) {d : LedgerTokensAddressMap} {f : Address → Nat → Nat} {info : Value}
    {st' : LedgerStorage}
    (hget : st'.persistentStore.get = (st.persistentStore.apply (planned env s d f info)).get)
    (hacc : SupplyAccounted env st symbol supply holders) :
    SupplyAccounted env st' symbol supply holders :=
  hacc.congr (fun a => by rw [hget, get_planned_of_ne_symbol d f info _ hs])
    (by rw [hget, get_planned_symbolKey_of_ne d f info _ hsym hs])
    (by rw [hget, get_planned_symbolsRoot])

theorem supply_eq_of_accounted (hacc : SupplyAccounted env st symbol supply holders) {info : TokenInfo}
    (hi : infoToken env st symbol = .ok info) : info = ⟨supply⟩ :=
  Except.ok.inj (hi.symm.trans hacc.info)

/-- The balances a planned batch leaves: `f` at the distribution's addresses, the old ones
elsewhere. -/
theorem balanceOf_planned (hs : symbol ∈ listedSymbols env st) (d : LedgerTokensAddressMap)
    (hanon : Address.anonymous ∉ d.addresses) (f : Address → Nat → Nat) (info : Value)
    {st' : LedgerStorage}
    (h : st'.persistentStore.get = (st.persistentStore.apply (planned env symbol d f info)).get)
    (a : Address) :
    balanceOf env st' a symbol =
      if a ∈ d.addresses then f a (d.amount a) else balanceOf env st a symbol := by
  have hroot : st'.persistentStore.get env.symbolsRoot = st.persistentStore.get env.symbolsRoot := by
    rw [h, get_planned_symbolsRoot]
  split_ifs with ha
  · obtain ⟨e, he, rfl⟩ := List.mem_map.mp ha
    have hna : e.1.isAnonymous = false := by
      simpa [Address.isAnonymous] using fun h' : e.1 = Address.anonymous => hanon (h' ▸ ha)
    rw [balanceOf_of_not_anonymous (listedSymbols_congr hroot ▸ hs) hna, h,
      get_planned_of_mem d f info _ he, d.amount_of_mem he]
    simp
  · exact balanceOf_congr (by rw [h, get_planned_of_not_mem d f info _ ha]) hroot

theorem info_of_planned (d : LedgerTokensAddressMap) (f : Address → Nat → Nat) (info : TokenInfo)
    {st' : LedgerStorage} (h : st'.persistentStore.get =
      (st.persistentStore.apply (planned env symbol d f (env.infoCodec.encode info))).get) :
    infoToken env st' symbol = .ok info := by
  have hd := env.infoCodec.decode_encode info []
  rw [List.append_nil] at hd
  simp only [infoToken, h, get_planned_symbol, hd]

/-- A mint that reaches its write, on a ledger whose supply is accounted for, plans a batch after
which the supply is accounted for: in every storage that reads as the batch applied, each
reported balance and both supplies have risen by the amounts minted. -/
theorem mintBatch_keeps_accounted (hs : symbol ∈ listedSymbols env st) {d : LedgerTokensAddressMap}
    (hanon : Address.anonymous ∉ d.addresses) (hacc : SupplyAccounted env st symbol supply holders)
    {batch : Batch} {keys : List Key} (hm : mintBatch env symbol d st = .ok (batch, keys))
    {st' : LedgerStorage} (hget : st'.persistentStore.get = (st.persistentStore.apply batch).get) :
    SupplyAccounted env st' symbol
        { supply with circulating := supply.circulating + d.sum, total := supply.total + d.sum }
        (holders ∪ d.addresses.toFinset) ∧
      (∀ a, balanceOf env st' a symbol = balanceOf env st a symbol + d.amount a) ∧
      ∀ x, supply.maximum = some x → supply.circulating ≤ x → supply.circulating + d.sum ≤ x := by
  obtain ⟨info, hi, hx, rfl⟩ := mintBatch_ok hm
  obtain rfl := supply_eq_of_accounted hacc hi
  have hbal : ∀ a, balanceOf env st' a symbol = balanceOf env st a symbol + d.amount a := by
    intro a
    rw [balanceOf_planned hs d hanon _ _ hget]
    split_ifs with ha
    · rfl
    · rw [d.amount_of_not_mem ha, Nat.add_zero]
  have hsum : ∑ a ∈ holders ∪ d.addresses.toFinset, balanceOf env st' a symbol =
      supply.circulating + d.sum := by
    rw [Finset.sum_congr rfl fun a _ => hbal a, Finset.sum_add_distrib, hacc.circulating_eq,
      ← d.sum_amount, ← Finset.sum_subset Finset.subset_union_left fun a _ ha => hacc.outside a ha,
      ← Finset.sum_subset Finset.subset_union_right fun a _ ha =>
        d.amount_of_not_mem (by simpa using ha)]
  refine ⟨⟨info_of_planned d _ _ hget, fun a ha => ?_, hsum.symm, ?_⟩, hbal, hx⟩
  · rw [Finset.mem_union, not_or] at ha
    rw [hbal, hacc.outside a ha.1, d.amount_of_not_mem (by simpa using ha.2)]
  · have := hacc.circulating_le
    dsimp only
    omega

/-- A mint that returns, with a distribution that leaves out the anonymous address, keeps the
supply accounted for: each reported balance and both supplies rise by the amounts minted, and
the circulating supply does not pass a maximum it was below. -/
theorem mintToken_accounted (hs : symbol ∈ listedSymbols env st) {d : LedgerTokensAddressMap}
    (hanon : Address.anonymous ∉ d.addresses) (hacc : SupplyAccounted env st symbol supply holders)
    {faults : WriteFaults} {keys : List Key} {st' : LedgerStorage}
    (h : mintToken env faults symbol d st = .ok keys st') :
    SupplyAccounted env st' symbol
        { supply with circulating := supply.circulating + d.sum, total := supply.total + d.sum }
        (holders ∪ d.addresses.toFinset) ∧
      (∀ a, balanceOf env st' a symbol = balanceOf env st a symbol + d.amount a) ∧
      ∀ x, supply.maximum = some x → supply.circulating ≤ x → supply.circulating + d.sum ≤ x :=
  have ⟨_, _, hm, hget⟩ := mintToken_ok h
  mintBatch_keeps_accounted hs hanon hacc hm hget

/-- The amounts a successful burn loop accepts are held: each is at most its address's
balance, none is the anonymous address's, and only holders have any, so the distribution's
sum is at most the circulating supply. -/
theorem burnLoop_within (hacc : SupplyAccounted env st symbol supply holders)
    {d : LedgerTokensAddressMap} {batch : Batch} {c : Nat} {ks : List Key}
    (hl : burnLoop env st symbol d.entries [] 0 [] = .ok (batch, c, ks)) :
    (∀ a, d.amount a ≤ balanceOf env st a symbol) ∧ Address.anonymous ∉ d.addresses ∧
      ∑ a ∈ holders, d.amount a = d.sum ∧ d.sum ≤ supply.circulating := by
  obtain ⟨-, -, he⟩ := burnLoop_ok hl
  have hle : ∀ a, d.amount a ≤ balanceOf env st a symbol := fun a => by
    by_cases ha : a ∈ d.addresses
    · obtain ⟨e, he', rfl⟩ := List.mem_map.mp ha
      exact d.amount_of_mem he' ▸ (he e he').2.1
    · simp [d.amount_of_not_mem ha]
  have hsub : d.addresses.toFinset ⊆ holders := fun a ha => by
    obtain ⟨e, he', rfl⟩ := List.mem_map.mp (List.mem_toFinset.mp ha)
    by_contra hn
    have := hacc.outside _ hn ▸ (he e he').2.1
    exact absurd (he e he').1 (by omega)
  have hamount : ∑ a ∈ holders, d.amount a = d.sum := by
    rw [← d.sum_amount, Finset.sum_subset hsub fun a _ ha =>
      d.amount_of_not_mem (by simpa using ha)]
  refine ⟨hle, fun ha => ?_, hamount, ?_⟩
  · obtain ⟨e, he', hea⟩ := List.mem_map.mp ha
    simpa [hea, Address.isAnonymous] using (he e he').2.2
  · rw [hacc.circulating_eq, ← hamount]
    exact Finset.sum_le_sum fun a _ => hle a

/-- A burn of a listed symbol, on a ledger whose supply is accounted for, never panics; when it
reaches its write it plans a batch after which, in every storage that reads as the batch
applied, the supply is accounted for and each reported balance has lost its amount, which it
had. -/
theorem burnBatch_keeps_accounted (hs : symbol ∈ listedSymbols env st) (d : LedgerTokensAddressMap)
    (hacc : SupplyAccounted env st symbol supply holders) :
    ∃ r, burnBatch env symbol d st = .returns r ∧
      ∀ batch keys, r = .ok (batch, keys) → ∀ st' : LedgerStorage,
        st'.persistentStore.get = (st.persistentStore.apply batch).get →
        SupplyAccounted env st' symbol
            { supply with circulating := supply.circulating - d.sum, total := supply.total - d.sum }
            holders ∧
          d.sum ≤ supply.circulating ∧ d.sum ≤ supply.total ∧
          ∀ a, balanceOf env st' a symbol + d.amount a = balanceOf env st a symbol := by
  cases hl : burnLoop env st symbol d.entries [] 0 [] with
  | error e => exact ⟨.error e, by simp only [burnBatch, hl], fun _ _ h => nomatch h⟩
  | ok r =>
    obtain ⟨batch, c, ks⟩ := r
    obtain ⟨hle, hanon, hamount, hcirc⟩ := burnLoop_within hacc hl
    obtain ⟨rfl, rfl, -⟩ := burnLoop_ok hl
    have htotal := hacc.circulating_le
    have hb : burnBatch env symbol d st = .returns (.ok (planned env symbol d
        (fun a amount => balanceOf env st a symbol - amount)
        (env.infoCodec.encode ⟨{ supply with
          circulating := supply.circulating - d.sum
          total := supply.total - d.sum }⟩), ks ++ [env.keyForSymbol symbol])) := by
      simp only [burnBatch, hl, hacc.info, Nat.zero_add, List.nil_append]
      rw [if_pos ⟨hcirc, hcirc.trans htotal⟩]
      rfl
    refine ⟨_, hb, fun batch keys hr st' hget => ?_⟩
    obtain ⟨rfl, -⟩ := Prod.mk.inj (Except.ok.inj hr)
    have hbal : ∀ a, balanceOf env st' a symbol + d.amount a =
        balanceOf env st a symbol := fun a => by
      rw [balanceOf_planned hs d hanon _ _ hget]
      split_ifs with ha
      · exact Nat.sub_add_cancel (hle a)
      · rw [d.amount_of_not_mem ha, Nat.add_zero]
    have hsum : ∑ a ∈ holders, balanceOf env st' a symbol + d.sum =
        supply.circulating := by
      rw [← hamount, ← Finset.sum_add_distrib, Finset.sum_congr rfl fun a _ => hbal a,
        hacc.circulating_eq]
    refine ⟨⟨info_of_planned d _ _ hget, fun a ha => ?_, by dsimp only; omega, by dsimp only; omega⟩,
      hcirc, hcirc.trans htotal, hbal⟩
    have := hbal a
    rw [hacc.outside a ha] at this
    omega

/-- A burn of a listed symbol on a ledger whose supply is accounted for never panics. -/
theorem burnToken_returns (hs : symbol ∈ listedSymbols env st) (d : LedgerTokensAddressMap)
    (hacc : SupplyAccounted env st symbol supply holders) (faults : WriteFaults) :
    ∃ r, burnToken env faults symbol d st = .returns r := by
  obtain ⟨r, hr, -⟩ := burnBatch_keeps_accounted hs d hacc
  unfold burnToken
  rw [hr]
  rcases r with e | ⟨batch, ks⟩ <;> exact ⟨_, rfl⟩

/-- A burn of a listed symbol never aborts. When it succeeds it keeps the supply accounted for,
and no balance and neither supply goes below zero: each reported balance loses at most what it
had, and both supplies lose the distribution's sum, which is at most each of them. -/
theorem burnToken_accounted (hs : symbol ∈ listedSymbols env st) (d : LedgerTokensAddressMap)
    (hacc : SupplyAccounted env st symbol supply holders) (faults : WriteFaults) :
    ∃ r, burnToken env faults symbol d st = .returns r ∧
      ∀ keys st', r = .ok keys st' →
        SupplyAccounted env st' symbol
            { supply with circulating := supply.circulating - d.sum, total := supply.total - d.sum }
            holders ∧
          d.sum ≤ supply.circulating ∧ d.sum ≤ supply.total ∧
          ∀ a, balanceOf env st' a symbol + d.amount a = balanceOf env st a symbol := by
  obtain ⟨r, hr, hok⟩ := burnBatch_keeps_accounted hs d hacc
  rcases r with e | ⟨batch, ks⟩
  · exact ⟨.error e st, by simp only [burnToken, hr], fun _ _ h => nomatch h⟩
  · refine ⟨((fun _ => ks) <$> (applyBatch faults batch).adaptExcept .storage) st,
      by simp only [burnToken, hr], fun keys st' h => ?_⟩
    obtain ⟨u, ha, -⟩ := map_adaptExcept_eq_ok h
    exact hok batch ks rfl st' (get_of_applyBatch_ok ha)

end Supply

/-! A ledger with one token, on which the statements are run: balance keys are an escaped
address and a symbol, the token's info is its supply's numbers, escaped, and the symbols map is
its symbols, escaped. -/

def tokenSymbol : Symbol := ⟨[7]⟩

/-- The supply's numbers as escaped big-endian bytes, the maximum behind a tag. -/
def encodeInfo (info : TokenInfo) : Bytes :=
  escape (toBytesBE info.supply.total) ++ escape (toBytesBE info.supply.circulating) ++
    match info.supply.maximum with
    | none => [0]
    | some x => 1 :: escape (toBytesBE x)

def decodeInfo : Decoder TokenInfo := fun b =>
  match unescape b with
  | .ok (t, r) =>
    match unescape r with
    | .ok (c, 0 :: r) => .ok (⟨⟨fromBytesBE t, fromBytesBE c, none⟩⟩, r)
    | .ok (c, 1 :: r) =>
      (unescape r).map fun x => (⟨⟨fromBytesBE t, fromBytesBE c, some (fromBytesBE x.1)⟩⟩, x.2)
    | .ok _ => .error .endOfInput
    | .error e => .error e
  | .error e => .error e

/-- The symbols of a map, each escaped after a 1, then a 0. -/
def encodeSymbolList : List (Symbol × String) → Bytes
  | [] => [0]
  | (s, _) :: m => 1 :: (escape s.bytes ++ encodeSymbolList m)

/-- The symbols written by `encodeSymbolList`, with a fuel of the input's length. -/
def decodeSymbolList : Nat → Decoder (List Symbol)
  | 0 => fun _ => .error .endOfInput
  | fuel + 1 => fun b =>
    match b with
    | 0 :: rest => .ok ([], rest)
    | 1 :: rest =>
      match unescape rest with
      | .ok (s, rest) => (decodeSymbolList fuel rest).map fun r => (⟨s⟩ :: r.1, r.2)
      | .error e => .error e
    | _ => .error .endOfInput

theorem decodeSymbolList_encode (m : List (Symbol × String)) :
    ∀ fuel rest, (encodeSymbolList m).length ≤ fuel →
      decodeSymbolList fuel (encodeSymbolList m ++ rest) = .ok (m.map Prod.fst, rest) := by
  induction m with
  | nil => rintro (_ | fuel) rest h <;> first | rfl | simp [encodeSymbolList] at h
  | cons e m ih =>
    rintro (_ | fuel) rest h
    · simp [encodeSymbolList] at h
    · simp only [encodeSymbolList, List.length_cons, List.length_append] at h
      simp only [encodeSymbolList, List.cons_append, List.append_assoc, decodeSymbolList,
        unescape_escape, ih fuel rest (by omega), Except.map, List.map_cons]

def plainTokenEnv : TokenEnv where
  keyForAccountBalance a s := 1 :: (escape a.bytes ++ s.bytes)
  keyForSymbol s := 2 :: s.bytes
  symbolsRoot := [4]
  balanceKey_injective h := by
    obtain ⟨ha, hs⟩ := escape_append_injective (List.cons.inj h).2
    exact ⟨congrArg Address.mk ha, congrArg Address.mk hs⟩
  symbolKey_ne_balanceKey _ _ _ h := absurd (List.cons.inj h).1 (by decide)
  symbolsRoot_ne_balanceKey _ _ h := absurd (List.cons.inj h).1 (by decide)
  symbolsRoot_ne_symbolKey _ h := absurd (List.cons.inj h).1 (by decide)
  infoCodec := ⟨encodeInfo, decodeInfo, by
    rintro ⟨⟨t, c, _ | x⟩⟩ rest <;>
      simp [encodeInfo, decodeInfo, unescape_escape, List.append_assoc, Except.map]⟩
  encodeSymbols := encodeSymbolList
  decodeSymbols b := decodeSymbolList b.length b
  decodeSymbols_encode m rest := decodeSymbolList_encode m _ rest (by simp)

/-- The token's info with no supply and the symbols map listing the token, committed, and no
balances. -/
def tokenLedger : LedgerStorage :=
  { fresh with persistentStore := (Merk.empty.apply
    [(plainTokenEnv.keyForSymbol tokenSymbol, .put (encodeInfo ⟨⟨0, 0, none⟩⟩)),
      (plainTokenEnv.symbolsRoot, .put (plainTokenEnv.encodeSymbols [(tokenSymbol, "T")]))]).commit }

theorem listedSymbols_tokenLedger : listedSymbols plainTokenEnv tokenLedger = [tokenSymbol] := rfl

theorem balanceOf_tokenLedger (a : Address) : balanceOf plainTokenEnv tokenLedger a tokenSymbol = 0 := by
  by_cases ha : a.isAnonymous
  · simp [balanceOf, reportedBalance_eq, ha]
  · rw [balanceOf_of_not_anonymous (listedSymbols_tokenLedger ▸ List.mem_singleton_self _)
      (by simpa using ha)]
    have hk : plainTokenEnv.keyForAccountBalance a tokenSymbol ∉
        [(plainTokenEnv.keyForSymbol tokenSymbol, Op.put (encodeInfo ⟨⟨0, 0, none⟩⟩)),
          (plainTokenEnv.symbolsRoot, .put (plainTokenEnv.encodeSymbols [(tokenSymbol, "T")]))].map
          Prod.fst := by
      simpa using ⟨(plainTokenEnv.symbolKey_ne_balanceKey _ _ _).symm,
        (plainTokenEnv.symbolsRoot_ne_balanceKey _ _).symm⟩
    simp only [tokenLedger, Merk.get_commit, Merk.get_apply_of_not_mem _ hk, Merk.get_empty]
    rfl

theorem tokenLedger_accounted : SupplyAccounted plainTokenEnv tokenLedger tokenSymbol ⟨0, 0, none⟩ ∅ :=
  ⟨rfl, fun a _ => balanceOf_tokenLedger a, rfl, le_rfl⟩

/-- One token to the address `[1]`. -/
def holderGrant : LedgerTokensAddressMap := ⟨[(⟨[1]⟩, 1)], by decide⟩

theorem mint_to_holder_accounted :
    ∃ keys st', mintToken plainTokenEnv .none tokenSymbol holderGrant tokenLedger = .ok keys st' ∧
      SupplyAccounted plainTokenEnv st' tokenSymbol ⟨0 + holderGrant.sum, 0 + holderGrant.sum, none⟩
          (∅ ∪ holderGrant.addresses.toFinset) ∧
        (∀ a, balanceOf plainTokenEnv st' a tokenSymbol =
          balanceOf plainTokenEnv tokenLedger a tokenSymbol + holderGrant.amount a) ∧
        ∀ x, (none : Option Nat) = some x → 0 ≤ x → 0 + holderGrant.sum ≤ x := by
  obtain ⟨keys, st', h⟩ : ∃ keys st',
      mintToken plainTokenEnv .none tokenSymbol holderGrant tokenLedger = .ok keys st' := ⟨_, _, rfl⟩
  exact ⟨keys, st', h, mintToken_accounted (listedSymbols_tokenLedger ▸ List.mem_singleton_self _)
    (by decide) tokenLedger_accounted h⟩

theorem burn_on_token_ledger :
    ∃ r, burnToken plainTokenEnv .none tokenSymbol holderGrant tokenLedger = .returns r ∧
      ∀ keys st', r = .ok keys st' →
        SupplyAccounted plainTokenEnv st' tokenSymbol ⟨0 - holderGrant.sum, 0 - holderGrant.sum, none⟩
            ∅ ∧
          holderGrant.sum ≤ 0 ∧ holderGrant.sum ≤ 0 ∧
          ∀ a, balanceOf plainTokenEnv st' a tokenSymbol + holderGrant.amount a =
            balanceOf plainTokenEnv tokenLedger a tokenSymbol :=
  burnToken_accounted (listedSymbols_tokenLedger ▸ List.mem_singleton_self _) holderGrant
    tokenLedger_accounted .none

/-- One token to the anonymous address. -/
def anonymousGrant : LedgerTokensAddressMap := ⟨[(Address.anonymous, 1)], by decide⟩

/-- On a ledger whose supply is accounted for, minting one token to the anonymous address
succeeds and raises the circulating supply to 1, yet every address still reports a balance of 0:
the circulating supply is no longer the sum of the reported balances. -/
theorem mint_to_anonymous_unaccounted :
    SupplyAccounted plainTokenEnv tokenLedger tokenSymbol ⟨0, 0, none⟩ ∅ ∧
      ∃ keys st', mintToken plainTokenEnv .none tokenSymbol anonymousGrant tokenLedger = .ok keys st' ∧
        infoToken plainTokenEnv st' tokenSymbol = .ok ⟨⟨1, 1, none⟩⟩ ∧
        ∀ a, balanceOf plainTokenEnv st' a tokenSymbol = 0 := by
  refine ⟨tokenLedger_accounted, ?_⟩
  obtain ⟨keys, st', h⟩ : ∃ keys st',
      mintToken plainTokenEnv .none tokenSymbol anonymousGrant tokenLedger = .ok keys st' := ⟨_, _, rfl⟩
  obtain ⟨batch, ks, hm, hget⟩ := mintToken_ok h
  obtain ⟨info, hi, -, rfl⟩ := mintBatch_ok hm
  obtain rfl := supply_eq_of_accounted tokenLedger_accounted hi
  refine ⟨keys, st', h, info_of_planned anonymousGrant _ _ hget, fun a => ?_⟩
  by_cases ha : a = Address.anonymous
  · subst ha; exact balanceOf_anonymous
  · have hk : st'.persistentStore.get (plainTokenEnv.keyForAccountBalance a tokenSymbol) =
        tokenLedger.persistentStore.get (plainTokenEnv.keyForAccountBalance a tokenSymbol) := by
      rw [hget, get_planned_of_not_mem _ _ _ _
        (by simpa [anonymousGrant, LedgerTokensAddressMap.addresses] using ha)]
    rw [balanceOf_congr hk (by rw [hget, get_planned_symbolsRoot]), balanceOf_tokenLedger]

end ManyRs.Ledger
