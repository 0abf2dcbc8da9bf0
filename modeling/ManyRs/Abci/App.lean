import ManyRs.Store.Merk
import ManyRs.Identity

/-! The ABCI bridge `AbciApp`: `check_tx` runs the shared validator over an envelope,
`deliver_tx` forwards it to the backend, normalizes the reply and records it with
`message_executed`, and `begin_block` updates the migrations and the block time. The
validator, the migrations and the block time each sit behind a lock that a panic can poison. -/
namespace ManyRs.Abci
open ManyRs.Cbor ManyRs.Store

/-- `std::sync::RwLock`: the value, and whether a writer panicked while holding it. -/
structure RwLock (α : Type) where
  value : α
  poisoned : Bool

/-- The text of a `PoisonError`. -/
def poisonedLog : String := "poisoned lock: another task failed inside"

/-- Modelled from the spec: a `CoseSign1` envelope; the bridge reads only its payload. -/
structure CoseSign1 where
  protectedHeader : Bytes
  unprotectedHeader : Bytes
  payload : Option Bytes
  signature : Bytes
  deriving DecidableEq, Repr

/-- Modelled from the spec: `ManyError`. -/
structure ManyError where
  code : Int
  message : Option String
  arguments : List (String × String)

/-- Modelled from the spec: `ResponseMessage`; `attributes` is the attribute set as it
encodes. -/
structure ResponseMessage where
  version : Option UInt8
  «from» : Address
  «to» : Option Address
  data : Except ManyError Bytes
  timestamp : Option UInt64
  id : Option UInt64
  attributes : Bytes

/-- What the bridge calls that is not in src, for a request type `Request` and the migration
set `M` (`AbciAppMigrations`): the COSE and message codecs, `ResponseMessage::default()`,
`ManyErrorCode::is_attribute_specific` and `Unknown`, the text of a `ManyError`, the
`Timestamp` conversions, `RequestMessage::validate_time`, whether `legacy_error_code` is active
and `update_at_height`. -/
structure Environment (Request M : Type) where
  coseFromSlice : Bytes → Except String CoseSign1
  requestOfCose : CoseSign1 → Except String Request
  responseFromBytes : Bytes → Except String ResponseMessage
  responseToBytes : ResponseMessage → Except String Bytes
  responseDefault : ResponseMessage
  isAttributeSpecific : Int → Bool
  unknownCode : Int
  errorToString : ManyError → String
  timestampNew : UInt64 → Except String UInt64
  asSystemTime : UInt64 → Except String UInt64
  validateTime : Request → UInt64 → UInt64 → Except String Unit
  isLegacyActive : M → Bool
  updateAtHeight : M → UInt64 → M

/-- `RequestValidator` over a validator state `V`; `message_executed` takes `&mut self`. -/
structure RequestValidator (V Request : Type) where
  validateEnvelope : V → CoseSign1 → Except ManyError Unit
  validateRequest : V → Request → Except ManyError Unit
  messageExecuted : V → CoseSign1 → ResponseMessage → V × Except ManyError Unit

/-- The state of `AbciApp` its calls read and write. -/
structure AbciApp (V M : Type) where
  cache : RwLock V
  migrations : RwLock M
  blockTime : RwLock (Option UInt64)

inductive ManyAbciCheckErrorCodes
  | success
  | coseDeserializeError
  | messageDeserializeError
  | rwLockPoisonedError
  | timestampError
  | cannotGetSystemTimeError
  | timestampOutsideOfRangeError
  | validationError

/-- `as u32`. -/
def ManyAbciCheckErrorCodes.toU32 : ManyAbciCheckErrorCodes → UInt32
  | .success => 0
  | .coseDeserializeError => 4
  | .messageDeserializeError => 5
  | .rwLockPoisonedError => 6
  | .timestampError => 7
  | .cannotGetSystemTimeError => 8
  | .timestampOutsideOfRangeError => 9
  | .validationError => 10

inductive ManyAbciDeliverErrorCodes
  | success
  | transportRequestError
  | coseDeserializeError
  | transportResponseError
  | rwLockPoisonedError

/-- `as u32`. -/
def ManyAbciDeliverErrorCodes.toU32 : ManyAbciDeliverErrorCodes → UInt32
  | .success => 0
  | .transportRequestError => 1
  | .coseDeserializeError => 2
  | .transportResponseError => 3
  | .rwLockPoisonedError => 11

structure ResponseCheckTx where
  code : UInt32
  log : String

structure ResponseDeliverTx where
  code : UInt32
  data : Bytes
  log : String

/-- `MANYABCI_DEFAULT_TIMEOUT`. -/
def manyabciDefaultTimeout : UInt64 := 300

variable {Request V M : Type} (env : Environment Request M)
  (validator : RequestValidator V Request)

/-- `AbciApp::do_check_tx`, with `now` the wall clock that `Timestamp::now()` reads. -/
def doCheckTx (app : AbciApp V M) (tx : Bytes) (now : UInt64) :
    Except (ManyAbciCheckErrorCodes × String) Unit := do
  let cose ← (env.coseFromSlice tx).mapError fun log => (.coseDeserializeError, log)
  let message ← (env.requestOfCose cose).mapError fun log => (.messageDeserializeError, log)
  if app.cache.poisoned then throw (.rwLockPoisonedError, poisonedLog)
  match validator.validateEnvelope app.cache.value cose with
  | .error _ => throw (.validationError, "Transaction already in cache")
  | .ok () => pure ()
  (validator.validateRequest app.cache.value message).mapError fun e =>
    (.validationError, env.errorToString e)
  if app.blockTime.poisoned then throw (.rwLockPoisonedError, poisonedLog)
  let now ← match app.blockTime.value with
    | none => pure now
    | some x => (env.timestampNew x).mapError fun e => (.timestampError, e)
  let now ← (env.asSystemTime now).mapError fun log => (.cannotGetSystemTimeError, log)
  (env.validateTime message now manyabciDefaultTimeout).mapError fun log =>
    (.timestampOutsideOfRangeError, log)

/-- `Application::check_tx`. -/
def checkTx (app : AbciApp V M) (tx : Bytes) (now : UInt64) : ResponseCheckTx :=
  match doCheckTx env validator app tx now with
  | .ok () => ⟨ManyAbciCheckErrorCodes.success.toU32, ""⟩
  | .error (code, log) => ⟨code.toU32, log⟩

/-- The reply's payload as a `ResponseMessage` (the default one if it does not decode), with
`from` anonymous, no `version` and the timestamp `EPOCH`. -/
def normalized (reply : CoseSign1) : ResponseMessage :=
  let response := match env.responseFromBytes (reply.payload.getD []) with
    | .ok r => r
    | .error _ => env.responseDefault
  { response with «from» := Address.anonymous, version := none, timestamp := some 0 }

/-- The correction `legacy_error_code` makes: an attribute-specific error becomes `Unknown`. -/
def legacyErrorCode (response : ResponseMessage) : ResponseMessage :=
  { response with data := match response.data with
    | .error err =>
      if env.isAttributeSpecific err.code then .error { err with code := env.unknownCode }
      else .error err
    | x => x }

/-- Whether `deliver_tx` applies the correction: the migrations lock reads, and
`legacy_error_code` is active. -/
def legacyApplies (migrations : RwLock M) : Bool :=
  !migrations.poisoned && env.isLegacyActive migrations.value

/-- The response `deliver_tx` records and serializes. -/
def responseOf (migrations : RwLock M) (reply : CoseSign1) : ResponseMessage :=
  if legacyApplies env migrations then legacyErrorCode env (normalized env reply)
  else normalized env reply

/-- `Application::deliver_tx`, with `reply` what `send_envelope` returned for the envelope. A
failed `message_executed` panics. -/
def deliverTx (app : AbciApp V M) (tx : Bytes) (reply : Except String CoseSign1) :
    Outcome (ResponseDeliverTx × AbciApp V M) :=
  match env.coseFromSlice tx with
  | .error err => .returns (⟨ManyAbciDeliverErrorCodes.coseDeserializeError.toU32, [], err⟩, app)
  | .ok cose =>
    match reply with
    | .error err =>
      .returns (⟨ManyAbciDeliverErrorCodes.transportRequestError.toU32, [], err⟩, app)
    | .ok coseSign =>
      let response := responseOf env app.migrations coseSign
      if app.cache.poisoned then
        .returns (⟨ManyAbciDeliverErrorCodes.rwLockPoisonedError.toU32, [], ""⟩, app)
      else
        match validator.messageExecuted app.cache.value cose response with
        | (_, .error e) =>
          .aborts ("message_executed failed: " ++ env.errorToString e ++ "\nThe backend and " ++
            "tendermint states might be inconsistent and would need to revert to a previous block.")
        | (v, .ok ()) =>
          let app := { app with cache := { app.cache with value := v } }
          match env.responseToBytes response with
          | .ok data => .returns (⟨ManyAbciDeliverErrorCodes.success.toU32, data, ""⟩, app)
          | .error _ =>
            .returns (⟨ManyAbciDeliverErrorCodes.transportResponseError.toU32, [], ""⟩, app)

/-- A block header as `begin_block` reads it: the time's seconds and the height. -/
structure Header where
  seconds : Option Int
  height : Int

/-- `as u64` on an `i64`. -/
def asU64 (x : Int) : UInt64 := UInt64.ofNat (x % 2 ^ 64).toNat

/-- `Application::begin_block`: the migrations are updated at the block's height and the block
time is set, each only if its lock is not poisoned. -/
def beginBlock (app : AbciApp V M) (header : Option Header) : AbciApp V M :=
  let (time, height) := match header with
    | some x => (x.seconds.map asU64, some (if x.height > 0 then asU64 x.height else 0))
    | none => (none, none)
  let migrations := match height with
    | some h =>
      if app.migrations.poisoned then app.migrations
      else { app.migrations with value := env.updateAtHeight app.migrations.value h }
    | none => app.migrations
  let blockTime := if app.blockTime.poisoned then app.blockTime
    else { app.blockTime with value := time }
  { app with migrations, blockTime }

@[simp] theorem cache_beginBlock (app : AbciApp V M) (header : Option Header) :
    (beginBlock env app header).cache = app.cache := by
  cases header <;> rfl

/-! What `deliver_tx` can do: answer without touching the bridge, or record the envelope in the
validator once. -/

section Deliver

variable {env validator} {app app' : AbciApp V M} {tx : Bytes} {cose reply : CoseSign1}

theorem deliverTx_of_healthy (hc : env.coseFromSlice tx = .ok cose) (hp : app.cache.poisoned = false) :
    deliverTx env validator app tx (.ok reply) =
      match validator.messageExecuted app.cache.value cose (responseOf env app.migrations reply) with
      | (_, .error e) =>
        .aborts ("message_executed failed: " ++ env.errorToString e ++ "\nThe backend and " ++
          "tendermint states might be inconsistent and would need to revert to a previous block.")
      | (v, .ok ()) =>
        match env.responseToBytes (responseOf env app.migrations reply) with
        | .ok data => .returns (⟨0, data, ""⟩, { app with cache := { app.cache with value := v } })
        | .error _ => .returns (⟨3, [], ""⟩, { app with cache := { app.cache with value := v } }) := by
  simp only [deliverTx, hc, hp]
  rfl

theorem deliverTx_of_poisoned (hc : env.coseFromSlice tx = .ok cose)
    (hp : app.cache.poisoned = true) :
    deliverTx env validator app tx (.ok reply) = .returns (⟨11, [], ""⟩, app) := by
  simp only [deliverTx, hc, hp]
  rfl

/-- A `deliver_tx` that returns either leaves the bridge as it was, with a code other than
`Success`, or has recorded one envelope in the validator, whose lock was healthy. -/
theorem deliverTx_cases {reply : Except String CoseSign1} {resp : ResponseDeliverTx}
    (h : deliverTx env validator app tx reply = .returns (resp, app')) :
    (app' = app ∧ resp.code ≠ 0) ∨ ∃ cose r v, env.coseFromSlice tx = .ok cose ∧
      app.cache.poisoned = false ∧ validator.messageExecuted app.cache.value cose r = (v, .ok ()) ∧
      app' = { app with cache := { app.cache with value := v } } := by
  cases hc : env.coseFromSlice tx with
  | error err =>
    simp only [deliverTx, hc, Outcome.returns.injEq, Prod.mk.injEq] at h
    obtain ⟨rfl, rfl⟩ := h
    exact .inl ⟨rfl, show (2 : UInt32) ≠ 0 by decide⟩
  | ok cose =>
    cases reply with
    | error err =>
      simp only [deliverTx, hc, Outcome.returns.injEq, Prod.mk.injEq] at h
      obtain ⟨rfl, rfl⟩ := h
      exact .inl ⟨rfl, show (1 : UInt32) ≠ 0 by decide⟩
    | ok reply =>
      cases hp : app.cache.poisoned with
      | true =>
        rw [deliverTx_of_poisoned hc hp] at h
        cases h
        exact .inl ⟨rfl, by decide⟩
      | false =>
        rw [deliverTx_of_healthy hc hp] at h
        rcases he : validator.messageExecuted app.cache.value cose
          (responseOf env app.migrations reply) with ⟨v, _ | ⟨⟩⟩
        · rw [he] at h; cases h
        · rw [he] at h
          refine .inr ⟨cose, _, v, rfl, rfl, he, ?_⟩
          dsimp only at h
          split at h <;> (cases h; rfl)

/-- With the validator's lock poisoned, `deliver_tx` answers an envelope the backend executed
with `RwLockPoisonedError` and returns, whatever the reply: `message_executed` is never called,
and the validator is left as it was. -/
theorem poisoned_cache_skips_message_executed (hc : env.coseFromSlice tx = .ok cose)
    (hp : app.cache.poisoned = true) (reply : CoseSign1) :
    ∃ resp app', deliverTx env validator app tx (.ok reply) = .returns (resp, app') ∧
      resp.code = 11 ∧ app'.cache.value = app.cache.value :=
  ⟨_, _, deliverTx_of_poisoned hc hp, rfl, rfl⟩

end Deliver

/-! `deliver_tx`'s answer is a function of the reply's payload up to `from`, `version` and
`timestamp`, of whether the correction applies and of whether the validator's lock is
poisoned. -/

/-- Two replies whose payloads decode to responses that differ at most in `from`, `version`
and `timestamp`, or both fail to decode. -/
def SameUpToNormalization (reply reply' : CoseSign1) : Prop :=
  (∃ r r', env.responseFromBytes (reply.payload.getD []) = .ok r ∧
    env.responseFromBytes (reply'.payload.getD []) = .ok r' ∧
    r.«to» = r'.«to» ∧ r.data = r'.data ∧ r.id = r'.id ∧ r.attributes = r'.attributes) ∨
  (∃ e e', env.responseFromBytes (reply.payload.getD []) = .error e ∧
    env.responseFromBytes (reply'.payload.getD []) = .error e')

theorem normalized_eq {reply reply' : CoseSign1} (h : SameUpToNormalization env reply reply') :
    normalized env reply = normalized env reply' := by
  rcases h with ⟨r, r', h, h', hto, hdata, hid, hattr⟩ | ⟨e, e', h, h'⟩
  · simp only [normalized, h, h', hto, hdata, hid, hattr]
  · simp only [normalized, h, h']

/-- Two bridges whose validator locks are alike poisoned or healthy and that agree on whether
the correction applies answer two replies that are the same up to normalization with the
same code and the same data, whenever both calls return; neither the wall clock nor the block
time is read. -/
theorem deliverTx_same_answer {app₁ app₂ : AbciApp V M} {tx : Bytes} {reply₁ reply₂ : CoseSign1}
    {resp₁ resp₂ : ResponseDeliverTx} {a₁ a₂ : AbciApp V M}
    (hcache : app₁.cache.poisoned = app₂.cache.poisoned)
    (hlegacy : legacyApplies env app₁.migrations = legacyApplies env app₂.migrations)
    (hreply : SameUpToNormalization env reply₁ reply₂)
    (h₁ : deliverTx env validator app₁ tx (.ok reply₁) = .returns (resp₁, a₁))
    (h₂ : deliverTx env validator app₂ tx (.ok reply₂) = .returns (resp₂, a₂)) :
    resp₁.code = resp₂.code ∧ resp₁.data = resp₂.data := by
  have hr : responseOf env app₁.migrations reply₁ = responseOf env app₂.migrations reply₂ := by
    simp only [responseOf, hlegacy, normalized_eq env hreply]
  cases hc : env.coseFromSlice tx with
  | error err =>
    simp only [deliverTx, hc, Outcome.returns.injEq, Prod.mk.injEq] at h₁ h₂
    rw [← h₁.1, ← h₂.1]
    exact ⟨rfl, rfl⟩
  | ok cose =>
    cases hp : app₁.cache.poisoned with
    | true =>
      rw [deliverTx_of_poisoned hc hp] at h₁
      rw [deliverTx_of_poisoned hc (hcache ▸ hp)] at h₂
      cases h₁; cases h₂
      exact ⟨rfl, rfl⟩
    | false =>
      rw [deliverTx_of_healthy hc hp] at h₁
      rw [deliverTx_of_healthy hc (hcache ▸ hp), ← hr] at h₂
      split at h₁
      · cases h₁
      · split at h₂
        · cases h₂
        · split at h₁ <;> split at h₂ <;> simp_all

/-! A bridge on which the statements are run: every envelope's bytes are its payload, no
payload decodes as a message, and the validator rejects what it has executed. -/

def rawEnv : Environment Unit Unit where
  coseFromSlice b := .ok ⟨[], [], some b, []⟩
  requestOfCose _ := .error "not a request message"
  responseFromBytes _ := .error "not a response message"
  responseToBytes _ := .ok [0]
  responseDefault := ⟨none, Address.anonymous, none, .ok [], none, none, []⟩
  isAttributeSpecific _ := false
  unknownCode := 0
  errorToString _ := ""
  timestampNew := .ok
  asSystemTime := .ok
  validateTime _ _ _ := .ok ()
  isLegacyActive _ := false
  updateAtHeight m _ := m

/-- A validator that keeps the envelopes it executed and rejects them. -/
def cacheValidator : RequestValidator (List CoseSign1) Unit where
  validateEnvelope v c := if c ∈ v then .error ⟨1, some "already in cache", []⟩ else .ok ()
  validateRequest _ _ := .ok ()
  messageExecuted v c _ := (c :: v, .ok ())

/-- A bridge with the given validator lock and healthy other locks. -/
def bridge (cache : RwLock (List CoseSign1)) : AbciApp (List CoseSign1) Unit :=
  ⟨cache, ⟨(), false⟩, ⟨none, false⟩⟩

theorem poisoned_cache_run :
    rawEnv.coseFromSlice [1] = .ok ⟨[], [], some [1], []⟩ ∧ (bridge ⟨[], true⟩).cache.poisoned = true ∧
      ∃ resp app', deliverTx rawEnv cacheValidator (bridge ⟨[], true⟩) [1] (.ok ⟨[], [], some [1], []⟩) =
        .returns (resp, app') ∧ resp.code = 11 ∧ app'.cache.value = [] :=
  ⟨rfl, rfl, poisoned_cache_skips_message_executed rfl rfl _⟩

theorem deliverTx_same_answer_run :
    (bridge ⟨[], false⟩).cache.poisoned = (bridge ⟨[], false⟩).cache.poisoned ∧
      legacyApplies rawEnv (bridge ⟨[], false⟩).migrations =
        legacyApplies rawEnv (bridge ⟨[], false⟩).migrations ∧
      SameUpToNormalization rawEnv ⟨[], [], some [1], []⟩ ⟨[5], [], some [2], [6]⟩ ∧
      ∃ resp₁ resp₂ a₁ a₂,
        deliverTx rawEnv cacheValidator (bridge ⟨[], false⟩) [1] (.ok ⟨[], [], some [1], []⟩) =
          .returns (resp₁, a₁) ∧
        deliverTx rawEnv cacheValidator (bridge ⟨[], false⟩) [1] (.ok ⟨[5], [], some [2], [6]⟩) =
          .returns (resp₂, a₂) ∧
        resp₁.code = resp₂.code ∧ resp₁.data = resp₂.data :=
  have hs : SameUpToNormalization rawEnv ⟨[], [], some [1], []⟩ ⟨[5], [], some [2], [6]⟩ :=
    .inr ⟨_, _, rfl, rfl⟩
  ⟨rfl, rfl, hs, _, _, _, _, rfl, rfl, @deliverTx_same_answer _ _ _ rawEnv cacheValidator (bridge ⟨[], false⟩)
    (bridge ⟨[], false⟩) [1] _ _ _ _ _ _ rfl rfl hs rfl rfl⟩

/-- Two bridges that agree that `legacy_error_code` does not apply, given the same reply: the one
whose validator lock is poisoned answers 11, the other 0. -/
theorem poisoned_bridge_answers_differently :
    ∃ resp₁ resp₂ a₁ a₂,
      deliverTx rawEnv cacheValidator (bridge ⟨[], false⟩) [1] (.ok ⟨[], [], some [1], []⟩) =
        .returns (resp₁, a₁) ∧
      deliverTx rawEnv cacheValidator (bridge ⟨[], true⟩) [1] (.ok ⟨[], [], some [1], []⟩) =
        .returns (resp₂, a₂) ∧
      legacyApplies rawEnv (bridge ⟨[], false⟩).migrations =
        legacyApplies rawEnv (bridge ⟨[], true⟩).migrations ∧
      resp₁.code ≠ resp₂.code :=
  ⟨_, _, _, _, rfl, rfl, rfl, by decide⟩

end ManyRs.Abci
