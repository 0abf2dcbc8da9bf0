import ManyRs.Ledger.MintBurn

/-! The endpoints `tokens.mint` and `tokens.burn` (`many-ledger/src/module/ledger_mintburn.rs`):
the gates, `mint_token` or `burn_token`, then `log_event`, and every token's supply over a run. -/
namespace ManyRs.Ledger
open ManyRs.Store ManyRs.Cbor

/-- The errors of the endpoints: those they raise, by the constructor that builds them, those
of `mint_token` and `burn_token`, and those of the calls that are not in src. -/
inductive EndpointError (ε : Type)
  | invalidMethodName (method : String)
  | noTokenOwner
  | symbolNotFound (symbol : Symbol)
  | partialBurnDisabled
  | storage (e : MintBurnError)
  | call (e : ε)

/-- Modelled from the spec: `TokenMintArgs`. -/
structure TokenMintArgs (Memo : Type) where
  symbol : Symbol
  distribution : LedgerTokensAddressMap
  memo : Option Memo

/-- Modelled from the spec: `TokenBurnArgs`. -/
structure TokenBurnArgs (Memo : Type) where
  symbol : Symbol
  distribution : LedgerTokensAddressMap
  memo : Option Memo
  errorOnUnderBurn : Option Bool

/-- What the endpoints call that is not in src, with the error type `ε` of those calls:
whether `TOKEN_MIGRATION` is active, `get_identity` at `TOKEN_IDENTITY_ROOT` and at
`IDENTITY_ROOT`, `get_owner`, `verify_tokens_sender`, and `log_event` of the `TokenMint` and
`TokenBurn` events, which may write before failing. -/
structure EndpointEnv (ε Memo : Type) where
  tokenMigrationActive : LedgerStorage → Bool
  getTokenIdentity : LedgerStorage → Except ε Address
  getServerIdentity : LedgerStorage → Except ε Address
  getOwner : LedgerStorage → Symbol → Except ε (Option Address)
  verifyTokensSender : Address → Address → Except ε Unit
  logMint : Symbol → LedgerTokensAddressMap → Option Memo → EStateM ε LedgerStorage Unit
  logBurn : Symbol → LedgerTokensAddressMap → Option Memo → EStateM ε LedgerStorage Unit

variable {ε Memo : Type} (env : TokenEnv) (menv : EndpointEnv ε Memo)

/-- `check_symbol_exists`. -/
def checkSymbolExists (symbol : Symbol) (symbols : List Symbol) : Except (EndpointError ε) Unit :=
  if symbol ∉ symbols then .error (.symbolNotFound symbol) else .ok ()

/-- The identity `verify_mint_burn_identity` compares the sender with: the token identity, or
the server identity when the token identity cannot be read. -/
def tokensIdentity (st : LedgerStorage) : Except ε Address :=
  match menv.getTokenIdentity st with
  | .ok identity => .ok identity
  | .error _ => menv.getServerIdentity st

/-- `verify_mint_burn_identity`: the `?` on the identity returns its error before the owner is
tried. -/
def verifyMintBurnIdentity (st : LedgerStorage) (sender : Address) (symbol : Symbol) :
    Except (EndpointError ε) Unit := do
  let identity ← (tokensIdentity menv st).mapError .call
  match menv.verifyTokensSender sender identity with
  | .ok () => pure ()
  | .error _ =>
    match menv.getOwner st symbol with
    | .ok (some owner) => (menv.verifyTokensSender sender owner).mapError .call
    | _ => throw .noTokenOwner

/-- The gates both endpoints open with: the token migration, the sender and the symbol, which
`get_symbols` must list. -/
def gates (method : String) (st : LedgerStorage) (sender : Address) (symbol : Symbol) :
    Except (EndpointError ε) Unit := do
  if !menv.tokenMigrationActive st then throw (.invalidMethodName method)
  verifyMintBurnIdentity menv st sender symbol
  let symbols ← (getSymbols env st).mapError .storage
  checkSymbolExists symbol symbols

/-- `LedgerMintBurnModuleBackend::mint`, on the module's storage, with the storage failures of
`mint_token`'s write. -/
def mint (faults : WriteFaults) (sender : Address) (args : TokenMintArgs Memo) (st : LedgerStorage) :
    EStateM.Result (EndpointError ε) LedgerStorage Unit :=
  match gates env menv "tokens.mint" st sender args.symbol with
  | .error e => .error e st
  | .ok () =>
    match mintToken env faults args.symbol args.distribution st with
    | .error e st' => .error (.storage e) st'
    | .ok _ st' => (menv.logMint args.symbol args.distribution args.memo).adaptExcept .call st'

/-- `LedgerMintBurnModuleBackend::burn`, on the module's storage: partial burns are refused,
and `burn_token` may panic. -/
def burn (faults : WriteFaults) (sender : Address) (args : TokenBurnArgs Memo) (st : LedgerStorage) :
    Outcome (EStateM.Result (EndpointError ε) LedgerStorage LedgerTokensAddressMap) :=
  match gates env menv "tokens.burn" st sender args.symbol with
  | .error e => .returns (.error e st)
  | .ok () =>
    if args.errorOnUnderBurn = some false then .returns (.error .partialBurnDisabled st) else
    match burnToken env faults args.symbol args.distribution st with
    | .aborts message => .aborts message
    | .returns (.error e st') => .returns (.error (.storage e) st')
    | .returns (.ok _ st') => .returns (((fun _ => args.distribution) <$>
      (menv.logBurn args.symbol args.distribution args.memo).adaptExcept .call) st')

theorem mem_symbols_of_gates {st : LedgerStorage} {sender : Address} {symbol : Symbol}
    {method : String} (h : gates env menv method st sender symbol = .ok ()) :
    symbol ∈ listedSymbols env st := by
  cases hm : menv.tokenMigrationActive st <;>
    simp [gates, hm, except_bind_eq_ok, checkSymbolExists, pure, Except.pure, throw, throwThe,
      MonadExceptOf.throw] at h
  obtain ⟨-, symbols, hg, hs⟩ := h
  simp only [listedSymbols, hg]
  exact hs

/-! A ledger module whose token identity is `[9]` and whose tokens are all owned by `[5]`, with
`verify_tokens_sender` as equality and an event log that writes nothing. -/

def sampleEndpointEnv : EndpointEnv String Unit where
  tokenMigrationActive _ := true
  getTokenIdentity _ := .ok ⟨[9]⟩
  getServerIdentity _ := .ok ⟨[0]⟩
  getOwner _ _ := .ok (some ⟨[5]⟩)
  verifyTokensSender a b := if a = b then .ok () else .error "unauthorized"
  logMint _ _ _ := pure ()
  logBurn _ _ _ := pure ()

/-- One token of the ledger's token to the address `[1]`, without a memo. -/
def holderMint : TokenMintArgs Unit := ⟨tokenSymbol, holderGrant, none⟩

def holderBurn : TokenBurnArgs Unit := ⟨tokenSymbol, holderGrant, none, none⟩

section Endpoints

variable {env menv} {st : LedgerStorage} {sender : Address}

/-- From a ledger whose supply of the symbol is accounted for, `tokens.burn` never panics,
whoever sends it, whatever it asks to burn and whatever storage call fails. -/
theorem accounted_burn_never_aborts {supply : TokenInfoSupply} {holders : Finset Address}
    (faults : WriteFaults) (args : TokenBurnArgs Memo)
    (hacc : SupplyAccounted env st args.symbol supply holders) :
    ∃ r, burn env menv faults sender args st = .returns r := by
  unfold burn
  split
  · exact ⟨_, rfl⟩
  · rename_i hg
    split_ifs
    · exact ⟨_, rfl⟩
    · obtain ⟨r, hr⟩ :=
        burnToken_returns (mem_symbols_of_gates env menv hg) args.distribution hacc faults
      rw [hr]
      rcases r with _ | _ <;> exact ⟨_, rfl⟩

theorem token_identity_burn_returns :
    ∃ r, burn plainTokenEnv sampleEndpointEnv .none ⟨[9]⟩ holderBurn tokenLedger = .returns r :=
  accounted_burn_never_aborts .none holderBurn tokenLedger_accounted

end Endpoints

/-! The module's storage over a whole run of calls, as the server passes the requests to it one
after the other: an answer of `Err` does not undo what the call wrote, and a panic stops the
node. -/

/-- An event log that leaves every balance, every token's info and the symbols map as they
were. -/
def KeepsTokens (log : Symbol → LedgerTokensAddressMap → Option Memo → EStateM ε LedgerStorage Unit) :
    Prop :=
  ∀ s d memo st,
    (∀ a t, (resultState (log s d memo st)).persistentStore.get (env.keyForAccountBalance a t) =
      st.persistentStore.get (env.keyForAccountBalance a t)) ∧
    (∀ t, (resultState (log s d memo st)).persistentStore.get (env.keyForSymbol t) =
      st.persistentStore.get (env.keyForSymbol t)) ∧
    (resultState (log s d memo st)).persistentStore.get env.symbolsRoot =
      st.persistentStore.get env.symbolsRoot

/-- Every listed token's supply is accounted for. -/
def AllAccounted (st : LedgerStorage) : Prop :=
  ∀ s ∈ listedSymbols env st, ∃ supply holders, SupplyAccounted env st s supply holders

/-- A call of the module's token endpoints, with the storage failures of its write. -/
inductive EndpointCall (Memo : Type)
  | mint (sender : Address) (args : TokenMintArgs Memo) (faults : WriteFaults)
  | burn (sender : Address) (args : TokenBurnArgs Memo) (faults : WriteFaults)

def EndpointCall.faults : EndpointCall Memo → WriteFaults
  | .mint _ _ faults | .burn _ _ faults => faults

/-- One call: the storage it leaves, whatever it answers, or the node's abort. -/
def EndpointCall.apply : EndpointCall Memo → LedgerStorage → Outcome LedgerStorage
  | .mint sender args faults, st => .returns (resultState (Ledger.mint env menv faults sender args st))
  | .burn sender args faults, st =>
    match Ledger.burn env menv faults sender args st with
    | .returns r => .returns (resultState r)
    | .aborts message => .aborts message

/-- The calls one after the other. -/
def runEndpoints : List (EndpointCall Memo) → LedgerStorage → Outcome LedgerStorage
  | [], st => .returns st
  | c :: cs, st =>
    match c.apply env menv st with
    | .returns st' => runEndpoints cs st'
    | .aborts message => .aborts message

/-- The call mints nothing to the anonymous address. -/
def EndpointCall.LeavesOutAnonymous : EndpointCall Memo → Prop
  | .mint _ args _ => Address.anonymous ∉ args.distribution.addresses
  | .burn _ _ _ => True

section Runs

variable {env menv} {st : LedgerStorage} {sender : Address} {symbol : Symbol} {faults : WriteFaults}

/-- Every listed token's supply is read through `get`, so stores that `get` alike agree on it. -/
theorem AllAccounted.of_get {st' : LedgerStorage} (h : st'.persistentStore.get = st.persistentStore.get)
    (hall : AllAccounted env st) : AllAccounted env st' := fun t ht =>
  let ⟨supply, holders, hacc⟩ := hall t (listedSymbols_congr (congrFun h _) ▸ ht)
  ⟨supply, holders, hacc.congr (fun _ => congrFun h _) (congrFun h _) (congrFun h _)⟩

theorem allAccounted_of_keepsTokens
    {log : Symbol → LedgerTokensAddressMap → Option Memo → EStateM ε LedgerStorage Unit}
    (hlog : KeepsTokens env log) (s : Symbol) (d : LedgerTokensAddressMap) (memo : Option Memo)
    (hall : AllAccounted env st) : AllAccounted env (resultState (log s d memo st)) := fun t ht =>
  have ⟨hbal, hinfo, hroot⟩ := hlog s d memo st
  let ⟨supply, holders, hacc⟩ := hall t (listedSymbols_congr hroot ▸ ht)
  ⟨supply, holders, hacc.congr (fun a => hbal a t) (hinfo t) hroot⟩

/-- A storage that reads as a planned batch of `s` applied keeps every other token accounted
for, and `s` too when the batch keeps it accounted for. -/
theorem allAccounted_planned (hsym : Function.Injective env.keyForSymbol) {s : Symbol}
    {d : LedgerTokensAddressMap} {f : Address → Nat → Nat} {info : Value} {st' : LedgerStorage}
    (hget : st'.persistentStore.get = (st.persistentStore.apply (planned env s d f info)).get)
    (hall : AllAccounted env st)
    (hs : ∀ supply holders, SupplyAccounted env st s supply holders →
      ∃ supply' holders', SupplyAccounted env st' s supply' holders') :
    AllAccounted env st' := by
  intro t ht
  have hroot : st'.persistentStore.get env.symbolsRoot = st.persistentStore.get env.symbolsRoot := by
    rw [hget, get_planned_symbolsRoot]
  rw [listedSymbols_congr hroot] at ht
  obtain ⟨supply, holders, hacc⟩ := hall t ht
  by_cases hts : t = s
  · subst hts
    exact hs supply holders hacc
  · exact ⟨supply, holders, hacc.of_planned hsym hts hget⟩

theorem allAccounted_mintToken (hsym : Function.Injective env.keyForSymbol)
    (hs : symbol ∈ listedSymbols env st) {d : LedgerTokensAddressMap}
    (hanon : Address.anonymous ∉ d.addresses) (hf : faults.apply = none) (hall : AllAccounted env st) :
    AllAccounted env (resultState (mintToken env faults symbol d st)) := by
  rcases get_mintToken hf with hget | ⟨batch, keys, hm, hget⟩
  · exact hall.of_get hget
  · have hacc := fun supply holders (hacc : SupplyAccounted env st symbol supply holders) =>
      (⟨_, _, (mintBatch_keeps_accounted hs hanon hacc hm hget).1⟩ :
        ∃ supply' holders', SupplyAccounted env _ symbol supply' holders')
    obtain ⟨info, -, -, rfl⟩ := mintBatch_ok hm
    exact allAccounted_planned hsym hget hall hacc

theorem allAccounted_burnToken (hsym : Function.Injective env.keyForSymbol)
    (hs : symbol ∈ listedSymbols env st) {d : LedgerTokensAddressMap} (hf : faults.apply = none)
    (hall : AllAccounted env st) {r : EStateM.Result MintBurnError LedgerStorage (List Key)}
    (h : burnToken env faults symbol d st = .returns r) : AllAccounted env (resultState r) := by
  rcases get_burnToken hf h with hget | ⟨batch, keys, hb, hget⟩
  · exact hall.of_get hget
  · have hacc := fun supply holders (hacc : SupplyAccounted env st symbol supply holders) =>
      let ⟨r', hr', hok⟩ := burnBatch_keeps_accounted hs d hacc
      (⟨_, _, (hok batch keys (Outcome.returns.inj (hr'.symm.trans hb)) _ hget).1⟩ :
        ∃ supply' holders', SupplyAccounted env _ symbol supply' holders')
    obtain ⟨info, rfl⟩ := burnBatch_planned hb
    exact allAccounted_planned hsym hget hall hacc

/-- A mint whose `apply` does not fail keeps every listed token's supply accounted for,
whatever it answers. -/
theorem allAccounted_mint (hsym : Function.Injective env.keyForSymbol)
    (hlog : KeepsTokens env menv.logMint) {args : TokenMintArgs Memo}
    (hanon : Address.anonymous ∉ args.distribution.addresses) (hf : faults.apply = none)
    (hall : AllAccounted env st) :
    AllAccounted env (resultState (mint env menv faults sender args st)) := by
  unfold mint
  split
  · exact hall
  · rename_i hg
    have hm := allAccounted_mintToken hsym (mem_symbols_of_gates env menv hg) hanon hf hall
    split
    · rename_i e st' heq
      rwa [heq] at hm
    · rename_i keys st' heq
      rw [heq] at hm
      rw [resultState_adaptExcept]
      exact allAccounted_of_keepsTokens hlog _ _ _ hm

/-- A burn whose `apply` does not fail never panics and keeps every listed token's supply
accounted for, whatever it answers. -/
theorem allAccounted_burn (hsym : Function.Injective env.keyForSymbol)
    (hlog : KeepsTokens env menv.logBurn) (args : TokenBurnArgs Memo) (hf : faults.apply = none)
    (hall : AllAccounted env st) :
    ∃ r, burn env menv faults sender args st = .returns r ∧ AllAccounted env (resultState r) := by
  unfold burn
  split
  · exact ⟨_, rfl, hall⟩
  · rename_i hg
    have hs := mem_symbols_of_gates env menv hg
    split_ifs
    · exact ⟨_, rfl, hall⟩
    · obtain ⟨supply, holders, hacc⟩ := hall _ hs
      obtain ⟨r, hr⟩ := burnToken_returns hs args.distribution hacc faults
      have hb := allAccounted_burnToken hsym hs hf hall hr
      rw [hr]
      rcases r with ⟨keys, st'⟩ | ⟨e, st'⟩
      · refine ⟨_, rfl, ?_⟩
        rw [resultState_map, resultState_adaptExcept]
        exact allAccounted_of_keepsTokens hlog _ _ _ hb
      · exact ⟨_, rfl, hb⟩

theorem EndpointCall.apply_accounted (hsym : Function.Injective env.keyForSymbol)
    (hmint : KeepsTokens env menv.logMint) (hburn : KeepsTokens env menv.logBurn)
    {c : EndpointCall Memo} (hc : c.LeavesOutAnonymous) (hf : c.faults.apply = none)
    (hall : AllAccounted env st) :
    ∃ st', c.apply env menv st = .returns st' ∧ AllAccounted env st' := by
  cases c with
  | mint sender args faults => exact ⟨_, rfl, allAccounted_mint hsym hmint hc hf hall⟩
  | burn sender args faults =>
    obtain ⟨r, hr, h⟩ : ∃ r, Ledger.burn env menv faults sender args st = .returns r ∧
        AllAccounted env (resultState r) := allAccounted_burn hsym hburn args hf hall
    exact ⟨_, by simp only [EndpointCall.apply, hr], h⟩

/-- From a ledger where every listed token's supply is accounted for, a run of mint and burn
calls by any senders, whose mints leave out the anonymous address and in which no storage
`apply` fails (after which the spec leaves the store unspecified), never panics and ends with
every listed token's supply still accounted for, whatever each call answers and whichever
commit fails. -/
theorem endpoint_runs_keep_supply_accounted (hsym : Function.Injective env.keyForSymbol)
    (hmint : KeepsTokens env menv.logMint) (hburn : KeepsTokens env menv.logBurn)
    (calls : List (EndpointCall Memo)) (hcalls : ∀ c ∈ calls, c.LeavesOutAnonymous)
    (happly : ∀ c ∈ calls, c.faults.apply = none) (hall : AllAccounted env st) :
    ∃ st', runEndpoints env menv calls st = .returns st' ∧ AllAccounted env st' := by
  induction calls generalizing st with
  | nil => exact ⟨st, rfl, hall⟩
  | cons c cs ih =>
    rw [List.forall_mem_cons] at hcalls happly
    obtain ⟨st₁, h₁, hall₁⟩ :=
      EndpointCall.apply_accounted hsym hmint hburn hcalls.1 happly.1 hall
    obtain ⟨st', h', hall'⟩ := ih hcalls.2 happly.2 hall₁
    exact ⟨st', by simp only [runEndpoints, h₁, h'], hall'⟩

theorem plainTokenEnv_keyForSymbol_injective : Function.Injective plainTokenEnv.keyForSymbol :=
  fun _ _ h => congrArg Address.mk (List.cons.inj h).2

theorem tokenLedger_allAccounted : AllAccounted plainTokenEnv tokenLedger := fun _ hs =>
  List.mem_singleton.mp (listedSymbols_tokenLedger ▸ hs) ▸ ⟨_, _, tokenLedger_accounted⟩

/-- The token identity mints a token to `[1]` and burns it, then `[1]` tries to mint. -/
def sampleRun : List (EndpointCall Unit) :=
  [.mint ⟨[9]⟩ holderMint .none, .burn ⟨[9]⟩ holderBurn .none, .mint ⟨[1]⟩ holderMint .none]

theorem sample_run_keeps_supply_accounted :
    ∃ st', runEndpoints plainTokenEnv sampleEndpointEnv sampleRun tokenLedger = .returns st' ∧
      AllAccounted plainTokenEnv st' :=
  endpoint_runs_keep_supply_accounted plainTokenEnv_keyForSymbol_injective
    (fun _ _ _ _ => ⟨fun _ _ => rfl, fun _ => rfl, rfl⟩ :
      KeepsTokens plainTokenEnv sampleEndpointEnv.logMint)
    (fun _ _ _ _ => ⟨fun _ _ => rfl, fun _ => rfl, rfl⟩ :
      KeepsTokens plainTokenEnv sampleEndpointEnv.logBurn)
    sampleRun (by simp [sampleRun, EndpointCall.LeavesOutAnonymous, holderMint, holderGrant,
      LedgerTokensAddressMap.addresses, Address.anonymous])
    (by simp [sampleRun, EndpointCall.faults, WriteFaults.none]) tokenLedger_allAccounted

end Runs

end ManyRs.Ledger
