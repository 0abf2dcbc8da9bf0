import ManyRs.Abci.App
import Mathlib.Logic.Relation

/-! The bridge's calls in any interleaving, with the panics that poison its locks, and what a
validator that rejects what it executed makes of a later `check_tx` of delivered bytes. -/
namespace ManyRs.Abci
open ManyRs.Cbor

variable {Request V M : Type} (env : Environment Request M)
  (validator : RequestValidator V Request)

/-- One call of the bridge, or a panic that poisons one of its locks. -/
inductive Step : AbciApp V M → AbciApp V M → Prop
  /-- `check_tx`, `end_block`, `commit`, `info`, `query`, `init_chain` and `flush` read the
  bridge's state and write none of it. -/
  | read (app : AbciApp V M) : Step app app
  | deliverTx {app app' : AbciApp V M} (tx : Bytes) (reply : Except String CoseSign1)
      (resp : ResponseDeliverTx) (h : deliverTx env validator app tx reply = .returns (resp, app')) :
      Step app app'
  | beginBlock (app : AbciApp V M) (header : Option Header) : Step app (beginBlock env app header)
  /-- A writer of the validator panics while holding its lock, leaving it in any state. -/
  | poisonCache (app : AbciApp V M) (v : V) : Step app { app with cache := ⟨v, true⟩ }
  /-- `update_at_height` panics while `begin_block` holds the migrations lock. -/
  | poisonMigrations (app : AbciApp V M) (m : M) : Step app { app with migrations := ⟨m, true⟩ }

/-- `v'` is a state the validator reaches from `v` by successful `message_executed` calls. -/
def ExecutesTo (v v' : V) : Prop :=
  Relation.ReflTransGen (fun a b => ∃ cose r, validator.messageExecuted a cose r = (b, .ok ())) v v'

/-- A validator whose `validate_envelope` rejects every envelope previously passed to its
`message_executed`: in the state that call leaves, and in every state later calls reach. -/
structure RecordsExecuted : Prop where
  rejects : ∀ {v cose r v₁ v₂}, validator.messageExecuted v cose r = (v₁, .ok ()) →
    ExecutesTo validator v₁ v₂ → ∃ e, validator.validateEnvelope v₂ cose = .error e

/-- The bridge has executed `cose`: its validator lock is poisoned, or its validator state
was reached from the state a `message_executed` of `cose` left. -/
def Executed (app : AbciApp V M) (cose : CoseSign1) : Prop :=
  app.cache.poisoned = true ∨
    ∃ v r v₁, validator.messageExecuted v cose r = (v₁, .ok ()) ∧
      ExecutesTo validator v₁ app.cache.value

variable {env validator} {cose : CoseSign1}

theorem executed_step {app app' : AbciApp V M} (hs : Step env validator app app')
    (hr : Executed validator app cose) : Executed validator app' cose := by
  cases hs with
  | read => exact hr
  | deliverTx tx reply resp h =>
    rcases deliverTx_cases h with ⟨rfl, -⟩ | ⟨cose', r', v', -, hp, he, rfl⟩
    · exact hr
    · obtain ⟨v, r, v₁, hm, hv⟩ := hr.resolve_left (by rw [hp]; decide)
      exact .inr ⟨v, r, v₁, hm, hv.tail ⟨cose', r', he⟩⟩
  | beginBlock header => simpa only [Executed, cache_beginBlock] using hr
  | poisonCache v => exact .inl rfl
  | poisonMigrations m => exact hr

theorem executed_run {app app' : AbciApp V M}
    (hrun : Relation.ReflTransGen (Step env validator) app app') (hr : Executed validator app cose) :
    Executed validator app' cose := by
  induction hrun with
  | refl => exact hr
  | tail _ hs ih => exact executed_step hs ih

/-- A `deliver_tx` that answers `Success` has executed the envelope its bytes decode to. -/
theorem executed_of_deliverTx {app app' : AbciApp V M} {tx : Bytes}
    {reply : Except String CoseSign1} {resp : ResponseDeliverTx}
    (hd : deliverTx env validator app tx reply = .returns (resp, app')) (h0 : resp.code = 0) :
    ∃ cose, env.coseFromSlice tx = .ok cose ∧ Executed validator app' cose := by
  rcases deliverTx_cases hd with ⟨-, hne⟩ | ⟨cose, r, v, hc, -, he, rfl⟩
  · exact absurd h0 hne
  · exact ⟨cose, hc, .inr ⟨_, r, v, he, .refl⟩⟩

/-- What `check_tx` answers for an envelope the bridge has executed. -/
theorem checkTx_of_executed (hv : RecordsExecuted validator) {app : AbciApp V M} {tx : Bytes}
    (hc : env.coseFromSlice tx = .ok cose) (hr : Executed validator app cose) (now : UInt64) :
    checkTx env validator app tx now =
      match env.requestOfCose cose with
      | .error log => ⟨5, log⟩
      | .ok _ => if app.cache.poisoned then ⟨6, poisonedLog⟩ else ⟨10, "Transaction already in cache"⟩ := by
  simp only [checkTx, doCheckTx, hc, Except.mapError, bind, Except.bind]
  cases hm : env.requestOfCose cose with
  | error log => rfl
  | ok message =>
    cases hp : app.cache.poisoned with
    | true => simp only [hp]; rfl
    | false =>
      obtain ⟨v, r, v₁, hm', hv'⟩ := hr.resolve_left (by rw [hp]; decide)
      obtain ⟨e, he⟩ := hv.rejects hm' hv'
      simp only [hp, he]; rfl

/-- Once `deliver_tx` has answered `Success` for `tx`, every `check_tx` of `tx` after any
interleaving of calls and panics refuses it: with `MessageDeserializeError` (5) if the
envelope holds no request message, else with `RwLockPoisonedError` (6) if the validator's lock
is poisoned, else with `ValidationError` (10) and "Transaction already in cache". -/
theorem delivered_envelope_refused (hv : RecordsExecuted validator) {app₀ app₁ app₂ : AbciApp V M}
    {tx : Bytes} {reply : Except String CoseSign1} {resp : ResponseDeliverTx}
    (hd : deliverTx env validator app₀ tx reply = .returns (resp, app₁)) (h0 : resp.code = 0)
    (hrun : Relation.ReflTransGen (Step env validator) app₁ app₂) (now : UInt64) :
    ∃ cose, env.coseFromSlice tx = .ok cose ∧
      checkTx env validator app₂ tx now =
        match env.requestOfCose cose with
        | .error log => ⟨5, log⟩
        | .ok _ =>
          if app₂.cache.poisoned then ⟨6, poisonedLog⟩ else ⟨10, "Transaction already in cache"⟩ := by
  obtain ⟨cose, hc, hr⟩ := executed_of_deliverTx hd h0
  exact ⟨cose, hc, checkTx_of_executed hv hc (executed_run hrun hr) now⟩

/-- A state reached from `v` by executions keeps every envelope of `v`. -/
theorem cacheValidator_subset {v v' : List CoseSign1} (h : ExecutesTo cacheValidator v v') :
    v ⊆ v' := by
  induction h with
  | refl => exact List.Subset.refl _
  | tail _ hs ih =>
    obtain ⟨c, r, hs⟩ := hs
    cases hs
    exact ih.trans (List.subset_cons_self _ _)

theorem cacheValidator_records : RecordsExecuted cacheValidator where
  rejects h hv := by
    cases h
    exact ⟨_, if_pos (cacheValidator_subset hv (List.mem_cons_self _ _))⟩

theorem delivered_envelope_refused_run :
    RecordsExecuted cacheValidator ∧
      deliverTx rawEnv cacheValidator (bridge ⟨[], false⟩) [1] (.ok ⟨[], [], some [1], []⟩) =
        .returns (⟨0, [0], ""⟩, bridge ⟨[⟨[], [], some [1], []⟩], false⟩) ∧
      ((⟨0, [0], ""⟩ : ResponseDeliverTx).code = 0) ∧
      ∃ cose, rawEnv.coseFromSlice [1] = .ok cose ∧
        checkTx rawEnv cacheValidator (bridge ⟨[⟨[], [], some [1], []⟩], false⟩) [1] 0 =
          match rawEnv.requestOfCose cose with
          | .error log => ⟨5, log⟩
          | .ok _ => if (bridge ⟨[⟨[], [], some [1], []⟩], false⟩).cache.poisoned then
              ⟨6, poisonedLog⟩ else ⟨10, "Transaction already in cache"⟩ :=
  ⟨cacheValidator_records, rfl, rfl,
    @delivered_envelope_refused _ _ _ rawEnv cacheValidator cacheValidator_records
      (bridge ⟨[], false⟩) _ _ [1] (.ok ⟨[], [], some [1], []⟩) _ rfl rfl .refl 0⟩

/-- After a `Success` delivery the validator's lock is healthy, yet `check_tx` of the same bytes
answers 5: the envelope holds no request message. -/
theorem delivered_envelope_refused_with_five :
    ∃ resp app₁,
      deliverTx rawEnv cacheValidator (bridge ⟨[], false⟩) [1] (.ok ⟨[], [], some [1], []⟩) =
        .returns (resp, app₁) ∧
      resp.code = 0 ∧ app₁.cache.poisoned = false ∧
      (checkTx rawEnv cacheValidator app₁ [1] 0).code = 5 :=
  ⟨_, _, rfl, rfl, rfl, rfl⟩

end ManyRs.Abci
