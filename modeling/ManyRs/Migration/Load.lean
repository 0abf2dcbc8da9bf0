import ManyRs.Cbor.Map
import ManyRs.Migration.Basic
import ManyRs.Store.Merk
import Mathlib.Data.List.Forall2
import Mathlib.Data.String.Basic

/-! `load_migrations`: the registry is collected into a `BTreeMap` by name, each entry of the
config is looked up in it by its type (the first unknown type fails the whole load), and the
enabled migrations are collected into a map by name, so that the last entry of a name wins.
The config document is read by `serde_json::from_str(data).unwrap()`; the list it parses to
is the input here. -/
namespace ManyRs.Migrations
open ManyRs.Cbor ManyRs.Store

variable {T E : Type}

/-- `IO`: an entry of a config, the migration's `type` and the metadata flattened beside it. -/
structure ConfigEntry where
  type : String
  metadata : Metadata

/-- The registry as `load_migrations` collects it: `(m.name, m)` into a `BTreeMap`. -/
def registryMap (registry : List (InnerMigration T E)) : List (String × InnerMigration T E) :=
  fromIter compare (registry.map fun m => (m.name, m))

/-- The closure mapped over the config: the registry's entry of the type, enabled with the
entry's metadata. -/
def resolve (registry : List (String × InnerMigration T E)) (io : ConfigEntry) :
    Except String (String × Migration T E) :=
  match getKeyValue compare io.type registry with
  | some (k, v) => .ok (k, ⟨v, io.metadata, .enabled⟩)
  | none => .error ("Unsupported migration type " ++ io.type)

/-- `load_migrations` over a parsed config: `collect::<Result<BTreeMap<_, _>, String>>()?`,
then `into_iter().collect()`. -/
def loadMigrations (registry : List (InnerMigration T E)) (config : List ConfigEntry) :
    Except String (List (String × Migration T E)) := do
  let entries ← config.mapM (resolve (registryMap registry))
  pure (fromIter compare (fromIter compare entries))

section Except

variable {α β ε : Type}

/-- A `mapM` that returns pairs each input with its result. -/
theorem mapM_eq_ok {f : α → Except ε β} :
    ∀ {l : List α} {out : List β}, l.mapM f = .ok out → List.Forall₂ (fun a b => f a = .ok b) l out
  | [], _, h => by cases h; exact .nil
  | a :: l, out, h => by
    obtain ⟨b, hb, h⟩ := (except_bind_eq_ok _ _ _).mp ((List.mapM_cons f).symm.trans h)
    obtain ⟨bs, hbs, h⟩ := (except_bind_eq_ok _ _ _).mp h
    cases h
    exact .cons hb (mapM_eq_ok hbs)

/-- A `mapM` that fails fails at one of its inputs. -/
theorem mapM_eq_error {f : α → Except ε β} :
    ∀ {l : List α} {e : ε}, l.mapM f = .error e → ∃ a ∈ l, f a = .error e
  | [], _, h => by cases h
  | a :: l, e, h => by
    rcases (except_bind_eq_error _ _ _).mp ((List.mapM_cons f).symm.trans h) with ha | ⟨b, -, h⟩
    · exact ⟨a, List.mem_cons_self _ _, ha⟩
    · rcases (except_bind_eq_error _ _ _).mp h with hl | ⟨_, -, h⟩
      · obtain ⟨a', ha', he⟩ := mapM_eq_error hl
        exact ⟨a', List.mem_cons_of_mem _ ha', he⟩
      · cases h

end Except

/-- Of a registry with distinct names, the map binds each name to its migration. -/
theorem lookup_registryMap (registry : List (InnerMigration T E))
    (hreg : (registry.map fun m => m.name).Nodup) (k : String) :
    (registryMap registry).lookup k = registry.find? fun m => m.name == k := by
  have hkeys : ((registry.map fun m => (m.name, m)).map Prod.fst).Nodup := by
    rwa [List.map_map]
  rw [registryMap, lookup_fromIter, lookup_reverse_of_nodup k hkeys,
    lookup_map_pair fun m : InnerMigration T E => m.name]

theorem resolve_eq_ok {registry : List (String × InnerMigration T E)} {io : ConfigEntry}
    {e : String × Migration T E} (h : resolve registry io = .ok e) :
    ∃ v, registry.lookup io.type = some v ∧ e = (io.type, ⟨v, io.metadata, .enabled⟩) := by
  rw [resolve, getKeyValue_eq_lookup] at h
  cases hv : registry.lookup io.type with
  | none => rw [hv] at h; cases h
  | some v => rw [hv] at h; cases h; exact ⟨v, rfl, rfl⟩

theorem resolve_eq_error {registry : List (String × InnerMigration T E)} {io : ConfigEntry}
    {msg : String} (h : resolve registry io = .error msg) :
    registry.lookup io.type = none ∧ msg = "Unsupported migration type " ++ io.type := by
  rw [resolve, getKeyValue_eq_lookup] at h
  cases hv : registry.lookup io.type with
  | none => rw [hv] at h; cases h; exact ⟨rfl, rfl⟩
  | some v => rw [hv] at h; cases h

/-- A failed load names the type of an entry the registry does not know. -/
theorem loadMigrations_error {registry : List (InnerMigration T E)} {config : List ConfigEntry}
    {msg : String} (h : loadMigrations registry config = .error msg) :
    ∃ io ∈ config, (registryMap registry).lookup io.type = none ∧
      msg = "Unsupported migration type " ++ io.type := by
  rcases (except_bind_eq_error _ _ _).mp h with h | ⟨_, -, h⟩
  · obtain ⟨io, hio, he⟩ := mapM_eq_error h
    exact ⟨io, hio, resolve_eq_error he⟩
  · cases h

/-- A load that succeeds resolved every entry, and collected the results into a map. -/
theorem loadMigrations_ok {registry : List (InnerMigration T E)} {config : List ConfigEntry}
    {map : List (String × Migration T E)} (h : loadMigrations registry config = .ok map) :
    ∃ entries, List.Forall₂ (fun io e => resolve (registryMap registry) io = .ok e)
      config entries ∧ map = fromIter compare entries := by
  obtain ⟨entries, he, h⟩ := (except_bind_eq_ok _ _ _).mp h
  cases h
  exact ⟨entries, mapM_eq_ok he, fromIter_fromIter entries⟩

/-- The resolved entries are named by the types of the config. -/
theorem keys_of_resolved {registry : List (String × InnerMigration T E)} :
    ∀ {config : List ConfigEntry} {entries : List (String × Migration T E)},
      List.Forall₂ (fun io e => resolve registry io = .ok e) config entries →
        entries.map Prod.fst = config.map fun io => io.type
  | _, _, .nil => rfl
  | _ :: _, _, .cons he hs => by
    obtain ⟨v, -, rfl⟩ := resolve_eq_ok he
    rw [List.map_cons, List.map_cons, keys_of_resolved hs]

/-- Every entry of a config that resolves names a migration of the registry. -/
theorem known_of_resolved {registry : List (String × InnerMigration T E)} :
    ∀ {config : List ConfigEntry} {entries : List (String × Migration T E)},
      List.Forall₂ (fun io e => resolve registry io = .ok e) config entries →
        ∀ io ∈ config, (registry.lookup io.type).isSome
  | _, _, .nil => fun _ h => absurd h (List.not_mem_nil _)
  | _ :: _, _, .cons he hs => fun io hio => by
    rcases List.mem_cons.mp hio with rfl | hio
    · obtain ⟨v, hv, -⟩ := resolve_eq_ok he
      rw [hv]
      rfl
    · exact known_of_resolved hs io hio

/-- The resolved entries bind a name as the first config entry of that name does. -/
theorem lookup_resolved (registry : List (String × InnerMigration T E)) (k : String) :
    ∀ {config : List ConfigEntry} {entries : List (String × Migration T E)},
      List.Forall₂ (fun io e => resolve registry io = .ok e) config entries →
        entries.lookup k = (config.find? fun io => io.type == k).bind fun io =>
          (registry.lookup k).map fun v => ⟨v, io.metadata, .enabled⟩
  | [], [], .nil => rfl
  | io :: config, e :: entries, .cons he hs => by
    obtain ⟨v, hv, rfl⟩ := resolve_eq_ok he
    rw [lookup_cons_pair, List.find?_cons, lookup_resolved registry k hs]
    by_cases h : io.type = k
    · rw [if_pos h, beq_iff_eq.mpr h, ← h, hv]
      rfl
    · rw [if_neg h, beq_eq_false_iff_ne.mpr h]

/-- `load_migrations` fails exactly when an entry of the config names no migration of the
registry; otherwise its map holds the names of the config, each bound to the registry's
migration of that name, enabled, with the metadata of the last entry naming it. -/
theorem load_migrations_spec (registry : List (InnerMigration T E))
    (hreg : (registry.map fun m => m.name).Nodup) (config : List ConfigEntry) :
    ((∃ msg, loadMigrations registry config = .error msg) ↔
        ∃ io ∈ config, ∀ m ∈ registry, m.name ≠ io.type) ∧
      ∀ map, loadMigrations registry config = .ok map →
        (∀ k, k ∈ map.map Prod.fst ↔ ∃ io ∈ config, io.type = k) ∧
        ∀ k, map.lookup k = (config.reverse.find? fun io => io.type == k).bind fun io =>
          (registry.find? fun m => m.name == k).map fun m => ⟨m, io.metadata, .enabled⟩ := by
  have hunknown : ∀ io : ConfigEntry, (registryMap registry).lookup io.type = none ↔
      ∀ m ∈ registry, m.name ≠ io.type := fun io => by
    simp [lookup_registryMap registry hreg, List.find?_eq_none]
  refine ⟨⟨fun ⟨msg, h⟩ => ?_, fun ⟨io, hio, hnone⟩ => ?_⟩, fun map h => ?_⟩
  · -- a failure is the failure of one entry
    obtain ⟨io, hio, hnone, -⟩ := loadMigrations_error h
    exact ⟨io, hio, (hunknown io).mp hnone⟩
  · -- an unknown entry cannot resolve
    cases hl : loadMigrations registry config with
    | error msg => exact ⟨msg, rfl⟩
    | ok map =>
      obtain ⟨entries, hs, -⟩ := loadMigrations_ok hl
      have hknown := known_of_resolved hs io hio
      rw [(hunknown io).mpr hnone] at hknown
      cases hknown
  · -- the map of the resolved entries
    obtain ⟨entries, hs, rfl⟩ := loadMigrations_ok h
    refine ⟨fun k => ?_, fun k => ?_⟩
    · rw [mem_keys_fromIter, keys_of_resolved hs, List.mem_map]
    · rw [lookup_fromIter, lookup_resolved _ k (List.forall₂_reverse_iff.mpr hs),
        lookup_registryMap registry hreg]

/-- `Metadata::default()`: block height 1, no issue. -/
def Metadata.default : Metadata := ⟨1, none⟩

/-- The status `load_enable_all_regular_migrations` gives a migration: enabled if it is regular,
disabled if it is a hotfix. -/
def regularStatus (m : InnerMigration T E) : Status :=
  match m.type with
  | .regular .. => .enabled
  | .hotfix _ => .disabled

/-- `load_enable_all_regular_migrations`: every migration of the registry by its name, with the
default metadata and its `regularStatus`. -/
def loadEnableAllRegularMigrations (registry : List (InnerMigration T E)) :
    List (String × Migration T E) :=
  fromIter compare (registry.map fun m => (m.name, ⟨m, Metadata.default, regularStatus m⟩))

theorem lookup_map_name {α : Type} (g : InnerMigration T E → α) (k : String) :
    ∀ l : List (InnerMigration T E),
      (l.map fun m => (m.name, g m)).lookup k = (l.find? fun m => m.name == k).map g
  | [] => rfl
  | m :: l => by
    rw [List.map_cons, lookup_cons_pair, List.find?_cons]
    by_cases h : m.name = k
    · rw [if_pos h, beq_iff_eq.mpr h]
      rfl
    · rw [if_neg h, beq_eq_false_iff_ne.mpr h, lookup_map_name g k l]

theorem mem_fromIter {K V : Type} {cmp : K → K → Ordering} {l : List (K × V)} {e : K × V}
    (h : e ∈ fromIter cmp l) : e ∈ l :=
  (List.mergeSort_perm l _).mem_iff.mp ((dedupLast_sublist cmp _).subset h)

/-- `load_enable_all_regular_migrations` binds each name of the registry to the last migration
of that name, with the default metadata, enabled exactly when it is regular. Whatever the
heights, none of the migrations it loads ever applies a hotfix, and a regular one is
initialized only at height 1 and updated only at heights 0 and 1. -/
theorem load_enable_all_regular_spec (registry : List (InnerMigration T E)) :
    (∀ k, (loadEnableAllRegularMigrations registry).lookup k =
      (registry.reverse.find? fun m => m.name == k).map fun m =>
        ⟨m, Metadata.default, regularStatus m⟩) ∧
    ∀ e ∈ loadEnableAllRegularMigrations registry, ∀ (storage : T) (b : List UInt8) (h : UInt64),
      e.2.hotfix b h = none ∧ (h ≠ 1 → e.2.initializeAt storage h = (storage, .ok ())) ∧
        (1 < h → e.2.update storage h = (storage, .ok ())) := by
  refine ⟨fun k => ?_, fun e he storage b h => ?_⟩
  · rw [loadEnableAllRegularMigrations, lookup_fromIter, ← List.map_reverse, lookup_map_name]
  · obtain ⟨m, -, rfl⟩ := List.mem_map.mp (mem_fromIter he)
    refine ⟨?_, fun hh => ?_, fun hh => Migration.update_of_lt hh storage⟩
    · cases hm : m.type <;> simp [Migration.hotfix, InnerMigration.hotfix, regularStatus, hm]
    · have : ¬ (1 : UInt64) = h := fun h1 => hh h1.symm
      simp [Migration.initializeAt, Metadata.default, this]

/-- Two hotfixes of distinct names. -/
def sampleRegistry : List (InnerMigration Unit Unit) :=
  [⟨.hotfix fun b => some b, "a", ""⟩, ⟨.hotfix fun _ => none, "b", ""⟩]

/-- A config that names `b` twice. -/
def sampleConfig : List ConfigEntry :=
  [⟨"b", ⟨3, none⟩⟩, ⟨"a", ⟨1, none⟩⟩, ⟨"b", ⟨5, some "x"⟩⟩]

theorem load_migrations_sample :
    (sampleRegistry.map fun m => m.name).Nodup ∧
      (((∃ msg, loadMigrations sampleRegistry sampleConfig = .error msg) ↔
          ∃ io ∈ sampleConfig, ∀ m ∈ sampleRegistry, m.name ≠ io.type) ∧
        ∀ map, loadMigrations sampleRegistry sampleConfig = .ok map →
          (∀ k, k ∈ map.map Prod.fst ↔ ∃ io ∈ sampleConfig, io.type = k) ∧
          ∀ k, map.lookup k = (sampleConfig.reverse.find? fun io => io.type == k).bind fun io =>
            (sampleRegistry.find? fun m => m.name == k).map fun m =>
              ⟨m, io.metadata, .enabled⟩) :=
  ⟨by decide, load_migrations_spec sampleRegistry (by decide) sampleConfig⟩

theorem load_enable_all_sample :
    (∀ k, (loadEnableAllRegularMigrations sampleRegistry).lookup k =
      (sampleRegistry.reverse.find? fun m => m.name == k).map fun m =>
        ⟨m, Metadata.default, regularStatus m⟩) ∧
    ∀ e ∈ loadEnableAllRegularMigrations sampleRegistry, ∀ (storage : Unit) (b : List UInt8)
      (h : UInt64), e.2.hotfix b h = none ∧ (h ≠ 1 → e.2.initializeAt storage h = (storage, .ok ())) ∧
        (1 < h → e.2.update storage h = (storage, .ok ())) :=
  load_enable_all_regular_spec sampleRegistry

end ManyRs.Migrations
