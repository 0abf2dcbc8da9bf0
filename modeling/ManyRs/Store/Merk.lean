import ManyRs.Cbor.Basic
import Mathlib.Logic.Function.Basic

/-! The Merk store as the storages use it: the committed contents, the operations `apply`
stages over them, reads that see what is staged, and `commit`. Disk and I/O failures are
not modelled here; the ledger's commit takes them as inputs. -/
namespace ManyRs.Store
open ManyRs.Cbor

abbrev Key := List UInt8
abbrev Value := List UInt8

/-- The bytes of an ASCII byte-string literal such as `b"/height"`. -/
def ascii (s : String) : Key := s.toList.map fun c => UInt8.ofNat c.toNat

/-- How a call of a storage or of the bridge ends: it returns, or it panics and the node
aborts. -/
inductive Outcome (α : Type)
  | returns (a : α)
  | aborts (message : String)

theorem Outcome.exists_aborts_iff {α : Type} (o : Outcome α) :
    (∃ message, o = .aborts message) ↔ ¬∃ a, o = .returns a := by
  cases o <;> simp

/-- `AbciCommitInfo`: what a storage's commit returns. -/
structure AbciCommitInfo where
  retainHeight : UInt64
  hash : List UInt8

section StateCalls

variable {ε σ α β : Type} {x : EStateM ε σ α} {s s' : σ}

/-- A call of `&mut self` that returned `Ok` goes on with the rest of the closure. -/
theorem bind_ok {a : α} (h : x s = .ok a s') (f : α → EStateM ε σ β) :
    (x >>= f) s = f a s' := by
  show EStateM.bind x f s = _
  simp [EStateM.bind, h]

/-- A call that returned `Err` ends the closure, with what it wrote kept: `?`. -/
theorem bind_error {e : ε} (h : x s = .error e s') (f : α → EStateM ε σ β) :
    (x >>= f) s = .error e s' := by
  show EStateM.bind x f s = _
  simp [EStateM.bind, h]

/-- A call whose error was converted failed with the error it converts. -/
theorem adaptExcept_eq_error {ε' : Type} {f : ε → ε'} {e : ε'}
    (h : x.adaptExcept f s = .error e s') : ∃ c, x s = .error c s' ∧ e = f c := by
  unfold EStateM.adaptExcept at h
  split at h
  · rename_i c t hx
    obtain ⟨rfl, rfl⟩ := EStateM.Result.error.inj h
    exact ⟨c, hx, rfl⟩
  · cases h

/-- A call whose result was mapped failed with the same error: `.map`. -/
theorem map_eq_error {g : α → β} {e : ε} (h : (g <$> x) s = .error e s') : x s = .error e s' := by
  change EStateM.map g x s = _ at h
  unfold EStateM.map at h
  split at h
  · cases h
  · rename_i hx
    obtain ⟨rfl, rfl⟩ := EStateM.Result.error.inj h
    exact hx

/-- The state a call leaves, whether it returned `Ok` or `Err`. -/
def resultState : EStateM.Result ε σ α → σ
  | .ok _ s => s
  | .error _ s => s

@[simp] theorem resultState_adaptExcept {ε' : Type} (x : EStateM ε σ α) (f : ε → ε') (s : σ) :
    resultState (x.adaptExcept f s) = resultState (x s) := by
  unfold EStateM.adaptExcept
  cases x s <;> rfl

@[simp] theorem resultState_map (x : EStateM ε σ α) (g : α → β) (s : σ) :
    resultState ((g <$> x) s) = resultState (x s) := by
  show resultState (EStateM.map g x s) = _
  unfold EStateM.map
  cases x s <;> rfl

/-- A call whose error was converted and whose result was mapped returned as the call did. -/
theorem map_adaptExcept_eq_ok {ε' : Type} {f : ε → ε'} {g : α → β} {b : β}
    (h : (g <$> x.adaptExcept f) s = .ok b s') : ∃ a, x s = .ok a s' ∧ g a = b := by
  change EStateM.map g (x.adaptExcept f) s = _ at h
  unfold EStateM.map EStateM.adaptExcept at h
  cases hx : x s with
  | ok a t =>
    simp only [hx, EStateM.Result.ok.injEq] at h
    exact ⟨a, h.2 ▸ rfl, h.1⟩
  | error e t => simp only [hx, reduceCtorEq] at h

theorem map_adaptExcept_of_ok {ε' : Type} (f : ε → ε') (g : α → β) {a : α}
    (h : x s = .ok a s') : (g <$> x.adaptExcept f) s = .ok (g a) s' := by
  change EStateM.map g (x.adaptExcept f) s = _
  unfold EStateM.map EStateM.adaptExcept
  rw [h]

end StateCalls

section ExceptCalls

variable {ε α β : Type}

theorem except_bind_eq_ok (x : Except ε α) (f : α → Except ε β) (b : β) :
    x >>= f = .ok b ↔ ∃ a, x = .ok a ∧ f a = .ok b := by
  cases x <;> simp [bind, Except.bind]

theorem except_bind_eq_error (x : Except ε α) (f : α → Except ε β) (e : ε) :
    x >>= f = .error e ↔ x = .error e ∨ ∃ a, x = .ok a ∧ f a = .error e := by
  cases x <;> simp [bind, Except.bind]

theorem exists_error_iff (x : Except ε α) : (∃ e, x = .error e) ↔ ¬∃ a, x = .ok a := by
  cases x <;> simp

@[simp] theorem mapError_eq_ok {ε' : Type} {f : ε → ε'} {x : Except ε α} {a : α} :
    x.mapError f = .ok a ↔ x = .ok a := by
  cases x <;> simp [Except.mapError]

theorem mapError_eq_error {ε' : Type} {f : ε → ε'} {x : Except ε α} {e : ε'} :
    x.mapError f = .error e ↔ ∃ e', x = .error e' ∧ f e' = e := by
  cases x <;> simp [Except.mapError]

end ExceptCalls

/-- `merk::Op`. -/
inductive Op
  | put (v : Value)
  | delete
  deriving DecidableEq, Repr

/-- The value an operation leaves at its key. -/
def Op.result : Op → Option Value
  | .put v => some v
  | .delete => none

abbrev Batch := List (Key × Op)

/-- What a store holds at each key. -/
abbrev Contents := Key → Option Value

/-- A Merk: what a reopen would find (`committed`), and the operations staged since the
last commit. -/
structure Merk where
  committed : Contents
  pending : Key → Option Op

namespace Merk

/-- A store with nothing in it, as `Merk::open` finds a fresh path. -/
def empty : Merk := ⟨fun _ => none, fun _ => none⟩

/-- `Merk::get`: the staged operation at `key` if there is one, else the committed value. -/
def get (m : Merk) (key : Key) : Option Value :=
  match m.pending key with
  | some op => op.result
  | none => m.committed key

/-- One staged operation. -/
def stage (m : Merk) (key : Key) (op : Op) : Merk :=
  { m with pending := Function.update m.pending key (some op) }

/-- `Merk::apply`: stages a batch, a later entry for a key over an earlier one. -/
def apply (m : Merk) : Batch → Merk
  | [] => m
  | (key, op) :: batch => (m.stage key op).apply batch

/-- `Merk::commit`: what `get` reads becomes what a reopen finds. -/
def commit (m : Merk) : Merk := ⟨m.get, fun _ => none⟩

@[simp] theorem get_empty (key : Key) : empty.get key = none := rfl

@[simp] theorem get_stage (m : Merk) (key key' : Key) (op : Op) :
    (m.stage key op).get key' = if key' = key then op.result else m.get key' := by
  by_cases h : key' = key
  · subst h; simp [stage, get]
  · simp [stage, get, h]

@[simp] theorem committed_stage (m : Merk) (key : Key) (op : Op) :
    (m.stage key op).committed = m.committed := rfl

@[simp] theorem apply_nil (m : Merk) : m.apply [] = m := rfl

@[simp] theorem apply_cons (m : Merk) (key : Key) (op : Op) (batch : Batch) :
    m.apply ((key, op) :: batch) = (m.stage key op).apply batch := rfl

theorem apply_append (m : Merk) (b₁ b₂ : Batch) : m.apply (b₁ ++ b₂) = (m.apply b₁).apply b₂ := by
  induction b₁ generalizing m with
  | nil => rfl
  | cons e b₁ ih => exact ih _

@[simp] theorem committed_apply (m : Merk) (batch : Batch) :
    (m.apply batch).committed = m.committed := by
  induction batch generalizing m with
  | nil => rfl
  | cons e batch ih => exact (ih _).trans rfl

/-- A key no entry of the batch names reads as before. -/
theorem get_apply_of_not_mem (m : Merk) {batch : Batch} {key : Key}
    (h : key ∉ batch.map Prod.fst) : (m.apply batch).get key = m.get key := by
  induction batch generalizing m with
  | nil => rfl
  | cons e batch ih =>
    simp only [List.map_cons, List.mem_cons, not_or] at h
    rw [apply_cons, ih _ h.2, get_stage, if_neg h.1]

/-- In a batch whose keys are distinct, each entry is what the store reads at its key. -/
theorem get_apply_of_mem (m : Merk) {batch : Batch} {key : Key} {op : Op}
    (hnd : (batch.map Prod.fst).Nodup) (h : (key, op) ∈ batch) :
    (m.apply batch).get key = op.result := by
  induction batch generalizing m with
  | nil => cases h
  | cons e batch ih =>
    rw [List.map_cons, List.nodup_cons] at hnd
    rcases List.mem_cons.mp h with rfl | h
    · rw [apply_cons, get_apply_of_not_mem _ hnd.1, get_stage, if_pos rfl]
    · exact ih _ hnd.2 h

@[simp] theorem get_commit (m : Merk) : m.commit.get = m.get := rfl

@[simp] theorem committed_commit (m : Merk) : m.commit.committed = m.get := rfl

end Merk

/-- `Ord for Vec<u8>`: keys compared byte by byte, a proper prefix first. -/
def keyLt : Key → Key → Bool
  | [], [] => false
  | [], _ :: _ => true
  | _ :: _, [] => false
  | a :: as, b :: bs => decide (a < b) || (a == b && keyLt as bs)

/-- `batch.sort_by(|(k1, _), (k2, _)| k1.cmp(k2))`: a stable sort by key. -/
def sortBatch (batch : Batch) : Batch :=
  batch.mergeSort fun e₁ e₂ => !keyLt e₂.1 e₁.1

theorem sortBatch_perm (batch : Batch) : (sortBatch batch).Perm batch :=
  List.mergeSort_perm _ _

/-! The height counter both storages keep at `/height`: `get_height` reads it, `inc_height`
stages its successor. -/

def heightKey : Key := ascii "/height"

/-- The height `get_height` reads: `u64::from_be_bytes` of `/height`, 0 when there is none,
and `none` where `copy_from_slice` panics because the value does not have eight bytes. -/
def readHeight (m : Merk) : Option UInt64 :=
  match m.get heightKey with
  | none => some 0
  | some v => if v.length = 8 then some (UInt64.ofNat (fromBytesBE v)) else none

/-- `h + 1` as a debug build computes it: `none` where the addition overflows. -/
def checkedSucc (h : UInt64) : Option UInt64 :=
  if h.toNat + 1 < 2 ^ 64 then some (h + 1) else none

theorem toNat_of_checkedSucc {h h' : UInt64} (hs : checkedSucc h = some h') :
    h'.toNat = h.toNat + 1 := by
  unfold checkedSucc at hs
  split_ifs at hs with hlt
  cases hs
  show (h.toBitVec + 1).toNat = _
  rw [BitVec.toNat_add]
  exact Nat.mod_eq_of_lt hlt

/-- The store once `inc_height` has staged the new height `h` at `/height`. -/
def withHeight (m : Merk) (h : UInt64) : Merk :=
  m.apply [(heightKey, .put (beBytes 8 h.toNat))]

@[simp] theorem readHeight_withHeight (m : Merk) (h : UInt64) :
    readHeight (withHeight m h) = some h := by
  have hlt : h.toNat % 256 ^ 8 = h.toNat := Nat.mod_eq_of_lt (UInt64.toNat_lt_size h)
  simp only [readHeight, withHeight, Merk.apply_cons, Merk.apply_nil, Merk.get_stage, if_pos,
    Op.result, beBytes_length, fromBytesBE_beBytes, hlt]
  exact congrArg some (UInt64.toNat.inj (UInt64.toNat_ofNat_of_lt (UInt64.toNat_lt_size h)))

@[simp] theorem readHeight_commit (m : Merk) : readHeight m.commit = readHeight m := rfl

theorem readHeight_stage_of_ne (m : Merk) {key : Key} (op : Op) (hk : heightKey ≠ key) :
    readHeight (m.stage key op) = readHeight m := by
  simp only [readHeight, Merk.get_stage, if_neg hk]

end ManyRs.Store
