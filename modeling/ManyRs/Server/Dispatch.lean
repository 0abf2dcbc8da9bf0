import ManyRs.Server.Time
import ManyRs.Abci.App

/-! `ManyServer` (`many-server/src/server.rs`): `add_module` and its method cache, and `execute`,
which checks a request and hands it to the module that lists its method, else to the fallback. -/
namespace ManyRs.Server
open ManyRs.Store ManyRs.Abci

/-- Modelled from the spec: `Attribute`, of which the server reads the id. -/
structure Attribute where
  id : UInt32
  deriving DecidableEq, Repr

/-- Modelled from the spec: `ManyModuleInfo`. -/
structure ManyModuleInfo where
  name : String
  «attribute» : Option Attribute
  endpoints : List String
  deriving DecidableEq, Repr

/-- Modelled from the spec: the fields of a `RequestMessage` that `execute` reads beyond the
timestamp that `_validate_time` reads. -/
structure Request (Timestamp : Type) extends RequestMessage Timestamp where
  «to» : Address
  method : String
  id : Option UInt64

/-- Modelled from the spec: a `ManyModule`, with its info, `validate` and `execute`. -/
structure ManyModule (Timestamp : Type) where
  info : ManyModuleInfo
  validate : Request Timestamp → CoseSign1 → Except ManyError Unit
  execute : Request Timestamp → Except ManyError ResponseMessage

/-- Modelled from the spec: the fallback, with its own `execute` of an envelope and its
`endpoints`. -/
structure Fallback where
  execute : CoseSign1 → Except String CoseSign1
  endpoints : Except ManyError (List String)

/-- `ManyServer`, with the fields its calls read; the `BTreeSet` of cached methods is a list
read by membership, and `time_fn` may read the wall clock. -/
structure ManyServer (Timestamp : Type) where
  modules : List (ManyModule Timestamp)
  methodCache : List String
  identity : Address
  timeout : UInt64
  fallback : Option Fallback
  allowedOrigins : Option (List String)
  timeFn : Option (SystemTime → Except ManyError SystemTime)

/-- What the server calls that is not in src, over the timestamp type `T`:
`decode_request_from_cose_sign1`, `Timestamp::as_system_time`, `Address::to_string`,
`ResponseMessage::default()`, the `ManyError` constructors it raises, and
`encode_cose_sign1_from_response` with the server's key. -/
structure ServerEnv (T : Type) where
  decodeRequest : CoseSign1 → Option (List String) → Except ManyError (Request T)
  asSystemTime : T → Except ManyError SystemTime
  addressToString : Address → String
  responseDefault : ResponseMessage
  timestampOutOfRange : ManyError
  requiredFieldMissing : String → ManyError
  unknownDestination : String → String → ManyError
  couldNotRouteMessage : ManyError
  encodeResponse : ResponseMessage → Except String CoseSign1

/-- `MANYSERVER_DEFAULT_TIMEOUT`. -/
def manyserverDefaultTimeout : UInt64 := 300

variable {T : Type} (env : ServerEnv T)

/-- Modelled from the spec: `ResponseMessage::error`, the default response from `sender` to
the request `id`, carrying the error. -/
def ServerEnv.error (sender : Address) (id : Option UInt64) (e : ManyError) : ResponseMessage :=
  { env.responseDefault with «from» := sender, id := id, data := .error e }

/-- The `ManyError` that `_validate_time` returns. -/
def ServerEnv.timeError : TimeError ManyError → ManyError
  | .timestampOutOfRange => env.timestampOutOfRange
  | .requiredFieldMissing field => env.requiredFieldMissing field
  | .conversion e => e

namespace ManyServer

/-- `ManyServer::new`: no module, no fallback, the default timeout. -/
def new (identity : Address) (allowedOrigins : Option (List String)) : ManyServer T :=
  ⟨[], [], identity, manyserverDefaultTimeout, none, allowedOrigins, none⟩

/-- `set_timeout`. -/
def setTimeout (s : ManyServer T) (timeoutInSecs : UInt64) : ManyServer T :=
  { s with timeout := timeoutInSecs }

/-- `set_time_fn`. -/
def setTimeFn (s : ManyServer T) (timeFn : SystemTime → Except ManyError SystemTime) :
    ManyServer T :=
  { s with timeFn := some timeFn }

/-- `set_fallback_module`. -/
def setFallbackModule (s : ManyServer T) (module : Fallback) : ManyServer T :=
  { s with fallback := some module }

/-- The registered module whose attribute has the id `id`: the `find` of `add_module`. -/
def implementing (s : ManyServer T) (id : UInt32) : Option (ManyModule T) :=
  s.modules.find? fun m => m.info.«attribute».map (·.id) == some id

/-- The attribute clash `add_module` panics on: the name of the module that already
implements the new module's attribute, and the attribute's id. -/
def attributeClash (s : ManyServer T) (module : ManyModule T) : Option (String × UInt32) :=
  match module.info.«attribute» with
  | some a => (s.implementing a.id).map fun m => (m.info.name, a.id)
  | none => none

/-- What `add_module` does once its checks pass: each endpoint goes into the cache, and the
module to the end of the list. -/
def register (s : ManyServer T) (module : ManyModule T) : ManyServer T :=
  { s with
    methodCache := module.info.endpoints.foldl (fun cache e => cache.insert e) s.methodCache
    modules := s.modules ++ [module] }

/-- The text of the `panic!` of `add_module` on an attribute clash. -/
def attributeClashText (name : String) (id : UInt32) : String :=
  s!"Module {name} already implements attribute {id}."

/-- The text of the `unreachable!` of `add_module` on a method already in the cache. -/
def methodClashText (e : String) : String :=
  s!"internal error: entered unreachable code: Method \x27{e}\x27 already implemented, but there was no attribute conflict."

/-- `add_module`: a panic when a registered module implements the new module's attribute, and
the `unreachable!` when one of its endpoints is already in the cache. -/
def addModule (s : ManyServer T) (module : ManyModule T) : Outcome (ManyServer T) :=
  match s.attributeClash module with
  | some (name, id) => .aborts (attributeClashText name id)
  | none =>
    match module.info.endpoints.find? s.methodCache.contains with
    | some e => .aborts (methodClashText e)
    | none => .returns (s.register module)

/-- `validate_id`: the request is anonymous or addressed to this server. -/
def validateId (s : ManyServer T) (message : Request T) : Except ManyError Unit :=
  if message.«to».isAnonymous || s.identity == message.«to» then .ok ()
  else .error (env.unknownDestination (env.addressToString message.«to»)
    (env.addressToString s.identity))

/-- `find_module`: the first module whose endpoints contain the method. -/
def findModule (s : ManyServer T) (message : Request T) : Option (ManyModule T) :=
  s.modules.find? fun m => m.info.endpoints.contains message.method

/-- `BaseModuleBackend::endpoints`: the cached methods, and the fallback's with them. -/
def endpoints (s : ManyServer T) : Except ManyError (List String) :=
  match s.fallback with
  | none => .ok s.methodCache
  | some fb => do
    let e ← fb.endpoints
    pure (s.methodCache ∪ e)

/-- The instant `execute` reads: `time_fn` when it is set, else `SystemTime::now()`. -/
def clock (s : ManyServer T) (now : SystemTime) : Except ManyError SystemTime :=
  match s.timeFn with
  | none => .ok now
  | some f => f now

/-- The closure of `execute`: decode the request, read the clock, check the timestamp and
the destination, and let the module that implements the method validate the request. An
error goes back with the request's `id` once the request is decoded and the clock read. -/
def checkRequest (s : ManyServer T) (envelope : CoseSign1) (now : SystemTime) :
    Except (Option UInt64 × ManyError) (Request T × Option (ManyModule T)) := do
  let message ← (env.decodeRequest envelope s.allowedOrigins).mapError (none, ·)
  let now ← (s.clock now).mapError (none, ·)
  let id := message.id
  (validateTime env.asSystemTime message.toRequestMessage now s.timeout).mapError
    fun e => (id, env.timeError e)
  (s.validateId env message).mapError (id, ·)
  let maybeModule := s.findModule message
  match maybeModule with
  | some m => (m.validate message envelope).mapError (id, ·)
  | none => pure ()
  pure (message, maybeModule)

/-- What `execute` answers with: a response the server signs, or the envelope handed on to
the fallback. -/
inductive Reply
  | signed (response : ResponseMessage)
  | forwarded (fallback : Fallback)

/-- The `match response` of `execute`: the module's response, or its error, from this
server; the fallback when no module implements the method; else `could_not_route_message`. -/
def reply (s : ManyServer T) (envelope : CoseSign1) (now : SystemTime) : Reply :=
  match s.checkRequest env envelope now with
  | .ok (message, some m) =>
    let response :=
      match m.execute message with
      | .ok response => response
      | .error e => env.error s.identity message.id e
    .signed { response with «from» := s.identity }
  | .ok (message, none) =>
    match s.fallback with
    | some fb => .forwarded fb
    | none => .signed (env.error s.identity message.id env.couldNotRouteMessage)
  | .error (id, e) => .signed (env.error s.identity id e)

/-- `LowLevelManyRequestHandler::execute` of the server. -/
def execute (s : ManyServer T) (envelope : CoseSign1) (now : SystemTime) :
    Except String CoseSign1 :=
  match s.reply env envelope now with
  | .signed response => env.encodeResponse response
  | .forwarded fb => fb.execute envelope

end ManyServer

/-- The calls that configure a server. -/
inductive Call (T : Type)
  | addModule (module : ManyModule T)
  | setFallbackModule (module : Fallback)
  | setTimeout (timeoutInSecs : UInt64)
  | setTimeFn (timeFn : SystemTime → Except ManyError SystemTime)

/-- One call on a server. -/
def Call.apply : Call T → ManyServer T → Outcome (ManyServer T)
  | .addModule m, s => s.addModule m
  | .setFallbackModule fb, s => .returns (s.setFallbackModule fb)
  | .setTimeout t, s => .returns (s.setTimeout t)
  | .setTimeFn f, s => .returns (s.setTimeFn f)

namespace ManyServer

/-- A caller's configuration of a server, call after call; the first panic ends it. -/
def run (s : ManyServer T) : List (Call T) → Outcome (ManyServer T)
  | [] => .returns s
  | c :: cs =>
    match c.apply s with
    | .returns s' => run s' cs
    | .aborts message => .aborts message

/-- Two modules that can both be registered: no endpoint and no attribute id in common. -/
def Compatible (a b : ManyModule T) : Prop :=
  (∀ e ∈ a.info.endpoints, e ∉ b.info.endpoints) ∧
    ∀ x ∈ a.info.«attribute», ∀ y ∈ b.info.«attribute», x.id ≠ y.id

/-- The registry of a server agrees with itself: the cache holds exactly the modules'
endpoints, and no two modules share an endpoint or an attribute id. -/
structure Registry (s : ManyServer T) : Prop where
  cache_iff : ∀ e, e ∈ s.methodCache ↔ ∃ m ∈ s.modules, e ∈ m.info.endpoints
  pairwise : s.modules.Pairwise Compatible

variable {s s' : ManyServer T} {m : ManyModule T}

@[simp] theorem register_modules : (s.register m).modules = s.modules ++ [m] := rfl

theorem mem_foldl_insert (e : String) :
    ∀ (l c : List String), e ∈ l.foldl (fun c x => c.insert x) c ↔ e ∈ c ∨ e ∈ l
  | [], c => by simp
  | x :: l, c => by
    rw [List.foldl_cons, mem_foldl_insert e l, List.mem_insert_iff, List.mem_cons]
    tauto

theorem mem_register_methodCache (e : String) :
    e ∈ (s.register m).methodCache ↔ e ∈ s.methodCache ∨ e ∈ m.info.endpoints :=
  mem_foldl_insert e _ _

theorem attributeClash_eq_none :
    s.attributeClash m = none ↔
      ∀ a ∈ m.info.«attribute», ∀ m' ∈ s.modules, ∀ b ∈ m'.info.«attribute», b.id ≠ a.id := by
  unfold attributeClash implementing
  cases m.info.«attribute» with
  | none => simp
  | some a => simp [List.find?_eq_none]

/-- `add_module` returns exactly when neither check fires, and then it registers the
module. -/
theorem addModule_eq_returns :
    s.addModule m = .returns s' ↔
      s.attributeClash m = none ∧ (∀ e ∈ m.info.endpoints, e ∉ s.methodCache) ∧
        s' = s.register m := by
  unfold addModule
  rcases s.attributeClash m with _ | ⟨name, id⟩
  · rcases hf : m.info.endpoints.find? s.methodCache.contains with _ | e
    · have hf : ∀ e ∈ m.info.endpoints, e ∉ s.methodCache := by
        simpa [List.find?_eq_none] using hf
      simp only [Outcome.returns.injEq, true_and]
      exact ⟨fun h => ⟨hf, h.symm⟩, fun h => h.2.symm⟩
    · have hm := List.mem_of_find?_eq_some hf
      have hc : e ∈ s.methodCache := by simpa using List.find?_some hf
      simp only [reduceCtorEq, true_and, false_iff, not_and]
      exact fun h => absurd hc (h e hm)
  · simp

theorem registry_new (identity : Address) (allowedOrigins : Option (List String)) :
    Registry (new identity allowedOrigins : ManyServer T) :=
  ⟨by simp [new], List.Pairwise.nil⟩

/-- Registering a module that passed both checks keeps the registry. -/
theorem Registry.register (h : Registry s) (ha : s.attributeClash m = none)
    (he : ∀ e ∈ m.info.endpoints, e ∉ s.methodCache) : Registry (s.register m) := by
  refine ⟨fun e => ?_, ?_⟩
  · rw [mem_register_methodCache, h.cache_iff, register_modules]
    simp [or_and_right, exists_or]
  · rw [register_modules, List.pairwise_append]
    refine ⟨h.pairwise, List.pairwise_singleton _ _, fun a ha' b hb => ?_⟩
    rw [List.mem_singleton.mp hb]
    refine ⟨fun e hea hem => he e hem ((h.cache_iff e).mpr ⟨a, ha', hea⟩), ?_⟩
    exact fun x hx y hy => attributeClash_eq_none.mp ha y hy a ha' x hx

theorem Registry.addModule (h : Registry s) (hs : s.addModule m = .returns s') : Registry s' := by
  obtain ⟨ha, he, rfl⟩ := addModule_eq_returns.mp hs
  exact h.register ha he

theorem Registry.apply {c : Call T} (h : Registry s) (hs : c.apply s = .returns s') :
    Registry s' := by
  cases c with
  | addModule m => exact h.addModule hs
  | setFallbackModule fb => cases hs; exact ⟨h.1, h.2⟩
  | setTimeout t => cases hs; exact ⟨h.1, h.2⟩
  | setTimeFn f => cases hs; exact ⟨h.1, h.2⟩

theorem Registry.run :
    ∀ {s s' : ManyServer T} {cs : List (Call T)}, Registry s → s.run cs = .returns s' → Registry s'
  | _, _, [], h, hs => by cases hs; exact h
  | _, _, c :: cs, h, hs => by
    rw [ManyServer.run] at hs
    split at hs
    · next hc => exact Registry.run (h.apply hc) hs
    · cases hs

theorem find?_eq_some_of_pairwise {α : Type} {p : α → Bool} {a : α} :
    ∀ {l : List α}, l.Pairwise (fun x y => p x → p y → False) → a ∈ l → p a → l.find? p = some a
  | x :: l, hl, ha, hp => by
    rw [List.pairwise_cons] at hl
    rcases List.mem_cons.mp ha with rfl | ha
    · exact List.find?_cons_of_pos _ hp
    · rw [List.find?_cons_of_neg _ fun hx => hl.1 a ha hx hp]
      exact find?_eq_some_of_pairwise hl.2 ha hp

section Routing

variable {envelope : CoseSign1} {now : SystemTime} {message : Request T}

/-- In a consistent registry `find_module` finds exactly the module that lists the method. -/
theorem Registry.findModule_eq_some (h : Registry s) :
    s.findModule message = some m ↔ m ∈ s.modules ∧ message.method ∈ m.info.endpoints := by
  refine ⟨fun hf => ⟨List.mem_of_find?_eq_some hf, by simpa using List.find?_some hf⟩,
    fun ⟨hm, he⟩ => find?_eq_some_of_pairwise ?_ hm (by simpa using he)⟩
  exact h.pairwise.imp fun hc ha hb => hc.1 _ (by simpa using ha) (by simpa using hb)

theorem findModule_eq_none : s.findModule message = none ↔ ∀ m ∈ s.modules, message.method ∉ m.info.endpoints := by
  simp [findModule, List.find?_eq_none]

/-- The closure of `execute` goes through exactly when every check passes, and it returns the
module `find_module` finds. -/
theorem checkRequest_eq_ok {mm : Option (ManyModule T)} :
    s.checkRequest env envelope now = .ok (message, mm) ↔
      env.decodeRequest envelope s.allowedOrigins = .ok message ∧
      (∃ t, s.clock now = .ok t ∧
        validateTime env.asSystemTime message.toRequestMessage t s.timeout = .ok ()) ∧
      s.validateId env message = .ok () ∧ mm = s.findModule message ∧
      ∀ m ∈ mm, m.validate message envelope = .ok () := by
  unfold checkRequest
  simp only [except_bind_eq_ok, mapError_eq_ok]
  constructor
  · rintro ⟨a, hd, t, hc, ⟨⟩, ht, ⟨⟩, hv, h⟩
    cases hf : s.findModule a with
    | none =>
      rw [hf] at h
      injection h with h
      cases h
      exact ⟨hd, ⟨t, hc, ht⟩, hv, hf.symm, nofun⟩
    | some m =>
      simp only [hf, except_bind_eq_ok, mapError_eq_ok] at h
      obtain ⟨⟨⟩, hm, h⟩ := h
      injection h with h
      cases h
      exact ⟨hd, ⟨t, hc, ht⟩, hv, hf.symm, fun m' hm' => by cases hm'; exact hm⟩
  · rintro ⟨hd, ⟨t, hc, ht⟩, hv, rfl, hm⟩
    refine ⟨message, hd, t, hc, (), ht, (), hv, ?_⟩
    cases hf : s.findModule message with
    | none => rfl
    | some m => simp only [hm m (by rw [hf]; rfl)]; rfl

/-- A module with the attribute `id` and the methods `endpoints`, which accepts every request
and answers it with an error. -/
def sampleModule (name : String) (id : UInt32) (endpoints : List String) : ManyModule Unit :=
  ⟨⟨name, some ⟨id⟩, endpoints⟩, fun _ _ => .ok (), fun _ => .error ⟨1, none, []⟩⟩

def ledgerModule : ManyModule Unit := sampleModule "LedgerModule" 2 ["ledger.info", "ledger.balance"]

def kvstoreModule : ManyModule Unit := sampleModule "KvStoreModule" 3 ["kvstore.info", "kvstore.get"]

/-- A configuration: the ledger's module, a timeout of a minute, the key-value store's module. -/
def sampleCalls : List (Call Unit) :=
  [.addModule ledgerModule, .setTimeout 60, .addModule kvstoreModule]

/-- The server the configuration builds from an anonymous `ManyServer::new`. -/
def sampleServer : ManyServer Unit :=
  (((new Address.anonymous none).register ledgerModule).setTimeout 60).register kvstoreModule

theorem sampleCalls_run : (new Address.anonymous none).run sampleCalls = .returns sampleServer := rfl

theorem registry_sampleServer : Registry sampleServer := (registry_new _ _).run sampleCalls_run

/-- An anonymous `kvstore.get` request stamped at the epoch. -/
def getRequest : Request Unit := ⟨⟨some ()⟩, Address.anonymous, "kvstore.get", some 7⟩

def sampleEnvelope : CoseSign1 := ⟨[], [], none, []⟩

/-- An environment whose decoder reads every envelope as `getRequest`, and which cannot sign. -/
def sampleEnv : ServerEnv Unit where
  decodeRequest _ _ := .ok getRequest
  asSystemTime _ := .ok 0
  addressToString _ := ""
  responseDefault := ⟨some 1, Address.anonymous, none, .ok [], none, none, []⟩
  timestampOutOfRange := ⟨0, none, []⟩
  requiredFieldMissing _ := ⟨0, none, []⟩
  unknownDestination _ _ := ⟨0, none, []⟩
  couldNotRouteMessage := ⟨0, none, []⟩
  encodeResponse _ := .error "no key"

/-- Every server a run of calls builds from `ManyServer::new` is consistent, and its
`find_module` finds exactly the module that lists the method. -/
theorem run_from_new_keeps_registry (identity : Address) (allowedOrigins : Option (List String))
    (cs : List (Call T)) (hs : (new identity allowedOrigins).run cs = .returns s) :
    Registry s ∧ ∀ (message : Request T) m,
      s.findModule message = some m ↔ m ∈ s.modules ∧ message.method ∈ m.info.endpoints :=
  have h := (registry_new identity allowedOrigins).run hs
  ⟨h, fun _ _ => h.findModule_eq_some⟩

theorem sample_server_finds_kvstore_get : sampleServer.findModule getRequest = some kvstoreModule :=
  ((run_from_new_keeps_registry _ _ _ sampleCalls_run).2 _ _).mpr
    ⟨List.mem_cons_of_mem _ (List.mem_singleton_self _), by decide⟩

/-- The modules of a consistent registry have distinct attribute ids. -/
theorem Registry.pairwise_attribute (h : Registry s) (id : UInt32) :
    s.modules.Pairwise fun x y =>
      (x.info.«attribute».map (·.id) == some id) = true →
        (y.info.«attribute».map (·.id) == some id) = true → False :=
  h.pairwise.imp fun hc hx hy => by
    simp only [beq_iff_eq, Option.map_eq_some'] at hx hy
    obtain ⟨a, ha, rfl⟩ := hx
    obtain ⟨b, hb, hab⟩ := hy
    exact hc.2 a ha b hb hab.symm

theorem addModule_aborts_iff (h : Registry s) :
    (∃ msg, s.addModule m = .aborts msg) ↔ ∃ m' ∈ s.modules, ¬Compatible m' m := by
  have hret : (∃ s', s.addModule m = .returns s') ↔ ∀ m' ∈ s.modules, Compatible m' m := by
    simp only [addModule_eq_returns, exists_and_left, exists_eq, and_true,
      attributeClash_eq_none, h.cache_iff, Compatible]
    constructor
    · rintro ⟨ha, he⟩ m' hm'
      exact ⟨fun e hm hem => he e hem ⟨m', hm', hm⟩, fun x hx y hy => ha y hy m' hm' x hx⟩
    · intro hc
      exact ⟨fun a ha m' hm' b hb => (hc m' hm').2 b hb a ha,
        fun e he ⟨m', hm', hm⟩ => (hc m' hm').1 e hm he⟩
  rw [Outcome.exists_aborts_iff, hret]
  push_neg
  rfl

/-- On a consistent server `add_module` panics exactly when a registered module shares the
new module's attribute id or one of its methods. A shared attribute id gives the `panic!` that
names the module holding it; a shared method with no shared attribute id reaches the
`unreachable!`, which names a method of the new module that is already registered. -/
theorem add_module_panics_iff_clash (h : Registry s) :
    ((∃ msg, s.addModule m = .aborts msg) ↔ ∃ m' ∈ s.modules, ¬Compatible m' m) ∧
    (∀ a ∈ m.info.«attribute», ∀ m' ∈ s.modules, ∀ b ∈ m'.info.«attribute», b.id = a.id →
      s.addModule m = .aborts (attributeClashText m'.info.name a.id)) ∧
    ((∀ a ∈ m.info.«attribute», ∀ m' ∈ s.modules, ∀ b ∈ m'.info.«attribute», b.id ≠ a.id) →
      ∀ m' ∈ s.modules, ∀ e ∈ m.info.endpoints, e ∈ m'.info.endpoints →
        ∃ e' ∈ m.info.endpoints, (∃ m'' ∈ s.modules, e' ∈ m''.info.endpoints) ∧
          s.addModule m = .aborts (methodClashText e')) := by
  refine ⟨addModule_aborts_iff h, fun a ha m' hm' b hb hab => ?_, fun hna m' hm' e he hem => ?_⟩
  · have hi : s.implementing a.id = some m' :=
      find?_eq_some_of_pairwise (h.pairwise_attribute a.id) hm' (by simp [Option.mem_def.mp hb, hab])
    simp only [addModule, attributeClash, Option.mem_def.mp ha, hi, Option.map_some']
  · obtain ⟨e', hf⟩ : ∃ e', m.info.endpoints.find? s.methodCache.contains = some e' :=
      Option.ne_none_iff_exists'.mp fun hn => by
        rw [List.find?_eq_none] at hn
        exact hn e he (by simpa using (h.cache_iff e).mpr ⟨m', hm', hem⟩)
    refine ⟨e', List.mem_of_find?_eq_some hf,
      (h.cache_iff e').mp (by simpa using List.find?_some hf), ?_⟩
    simp only [addModule, attributeClash_eq_none.mpr hna, hf]

/-- A module with a fresh attribute and a method of the ledger's reaches the `unreachable!`. -/
theorem sample_server_refuses_second_ledger_info :
    ∃ e ∈ (sampleModule "Clash" 4 ["ledger.info"]).info.endpoints,
      (∃ m'' ∈ sampleServer.modules, e ∈ m''.info.endpoints) ∧
      sampleServer.addModule (sampleModule "Clash" 4 ["ledger.info"]) = .aborts (methodClashText e) :=
  (add_module_panics_iff_clash registry_sampleServer).2.2 (by decide) ledgerModule
    (List.mem_cons_self _ _) "ledger.info" (List.mem_singleton_self _) (by decide)

/-- On a consistent server the module that gets a request is the one that lists its method,
and only once the request has decoded, its timestamp is within the timeout of the clock, it
is addressed to this server or anonymous, and the module has validated it. -/
theorem routes_to_listing_module (h : Registry s) :
    s.checkRequest env envelope now = .ok (message, some m) ↔
      env.decodeRequest envelope s.allowedOrigins = .ok message ∧
      (∃ t, s.clock now = .ok t ∧
        validateTime env.asSystemTime message.toRequestMessage t s.timeout = .ok ()) ∧
      s.validateId env message = .ok () ∧ m ∈ s.modules ∧ message.method ∈ m.info.endpoints ∧
      m.validate message envelope = .ok () := by
  rw [checkRequest_eq_ok, @eq_comm _ (some m), h.findModule_eq_some]
  simp only [Option.mem_def, Option.some.injEq, forall_eq', and_assoc]

theorem sample_server_routes_get_to_kvstore :
    sampleServer.checkRequest sampleEnv sampleEnvelope 0 = .ok (getRequest, some kvstoreModule) :=
  (routes_to_listing_module sampleEnv registry_sampleServer).mpr
    ⟨rfl, ⟨0, rfl, rfl⟩, rfl, List.mem_cons_of_mem _ (List.mem_singleton_self _), by decide, rfl⟩

/-- The endpoints a consistent server reports are the methods of its modules and those of
its fallback. -/
theorem endpoints_mem_iff (h : Registry s) {eps : List String} (he : s.endpoints = .ok eps)
    (e : String) :
    e ∈ eps ↔ (∃ m ∈ s.modules, e ∈ m.info.endpoints) ∨
      ∃ fb feps, s.fallback = some fb ∧ fb.endpoints = .ok feps ∧ e ∈ feps := by
  unfold endpoints at he
  rw [← h.cache_iff]
  cases hf : s.fallback with
  | none =>
    rw [hf] at he
    injection he with he
    subst he
    simp
  | some fb =>
    rw [hf] at he
    obtain ⟨feps, hfe, he⟩ := (except_bind_eq_ok _ _ _).mp he
    injection he with he
    subst he
    simp [hfe, List.mem_union_iff]

theorem sample_server_lists_kvstore_get : "kvstore.get" ∈ sampleServer.methodCache :=
  (endpoints_mem_iff registry_sampleServer
    (show sampleServer.endpoints = .ok sampleServer.methodCache from rfl) _).mpr
    (.inl ⟨kvstoreModule, List.mem_cons_of_mem _ (List.mem_singleton_self _), by decide⟩)

end Routing

end ManyServer

end ManyRs.Server
