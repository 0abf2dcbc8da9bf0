import ManyRs.Events.Codec

/-! The views `define_event_info_symbol!` and `define_event_info_addresses!` give `EventInfo`,
and `is_about`. Each arm of the macros walks the fields of a row and acts on the fields whose
first tag it names: `symbol()` returns the first field tagged `symbol`, else the symbol of the
first field tagged `inner`; `addresses()` collects the fields tagged `id`, the values of those
tagged `id_non_null`, and the addresses of every field tagged `inner`. The views of the nested
`AccountMultisigTransaction` are the ones `define_multisig_event!` writes. A `BTreeSet` is
known through its members, so `addresses()` is a list read by membership. -/
namespace ManyRs.Events
open ManyRs.Cbor

variable {C : EventCodecs}

namespace AccountMultisigTransaction

/-- `AccountMultisigTransaction::symbol`: `None`; the recursive check is left as a TODO. -/
def symbol (_ : AccountMultisigTransaction C) : Option Address := none

/-- `AccountMultisigTransaction::addresses`: `BTreeSet::new()`. -/
def addresses (_ : AccountMultisigTransaction C) : List Address := []

/-- `AccountMultisigTransaction::is_about`: `false`. -/
def isAbout (_ : AccountMultisigTransaction C) (_ : Address) : Bool := false

end AccountMultisigTransaction

/-- The macro arms match a field by its first tag. -/
def Field.tagged (f : Field) (t : FieldTag) : Bool := f.tags.head? == some t

namespace FieldType

/-- The value of a field of type `Address`: `&$name` of an `id` or `symbol` field. -/
def address? : (t : FieldType) → t.denote C → Option Address
  | .address, a => some a
  | _, _ => none

/-- The value of a field of type `Option<Address>`: `$name.as_ref()` of an `id_non_null`
field. -/
def optAddress? : (t : FieldType) → t.denote C → Option Address
  | .optAddress, a => a
  | _, _ => none

/-- `$name.symbol()` of an `inner` field. -/
def innerSymbol : (t : FieldType) → t.denote C → Option Address
  | .transaction, tx => tx.symbol
  | _, _ => none

/-- `$name.addresses()` of an `inner` field. -/
def innerAddresses : (t : FieldType) → t.denote C → List Address
  | .transaction, tx => tx.addresses
  | _, _ => []

end FieldType

/-- A tag's arm that returns at the first field with the tag: what `g` reads there
(`@pick_symbol`, and `@inner` of `symbol()`). -/
def firstTagged {α : Type} (t : FieldTag) (g : (ty : FieldType) → ty.denote C → Option α) :
    (fs : List Field) → Values C fs → Option α
  | [], _ => none
  | f :: fs, v => if f.tagged t then g f.type v.1 else firstTagged t g fs v.2

/-- A tag's arm that goes on past every field: what `g` reads from each field with the tag
(`@field` and `@inner` of `addresses()`). -/
def allTagged {α : Type} (t : FieldTag) (g : (ty : FieldType) → ty.denote C → List α) :
    (fs : List Field) → Values C fs → List α
  | [], _ => []
  | f :: fs, v => (if f.tagged t then g f.type v.1 else []) ++ allTagged t g fs v.2

namespace EventInfo

/-- `EventInfo::symbol`: `@pick_symbol`, then `@inner`, then `None`. -/
def symbol (e : EventInfo C) : Option Address :=
  (firstTagged .symbol FieldType.address? e.kind.fields e.values).orElse fun _ =>
    firstTagged .inner FieldType.innerSymbol e.kind.fields e.values

/-- `EventInfo::addresses`: `@field` inserts the `id` and `id_non_null` fields, then `@inner`
appends the nested addresses. -/
def addresses (e : EventInfo C) : List Address :=
  allTagged .id (fun t a => (FieldType.address? t a).toList) e.kind.fields e.values ++
    allTagged .idNonNull (fun t a => (FieldType.optAddress? t a).toList) e.kind.fields e.values ++
    allTagged .inner FieldType.innerAddresses e.kind.fields e.values

/-- `EventInfo::is_about`: `self.addresses().contains(id)`. -/
def isAbout (e : EventInfo C) (id : Address) : Bool := decide (id ∈ e.addresses)

end EventInfo

/-- `EventLog::symbol`. -/
def EventLog.symbol (log : EventLog C) : Option Address := log.content.symbol

/-- `EventLog::is_about`. -/
def EventLog.isAbout (log : EventLog C) (id : Address) : Bool := log.content.isAbout id

@[simp] theorem innerSymbol_eq_none (t : FieldType) (a : t.denote C) :
    t.innerSymbol a = none := by
  cases t <;> rfl

@[simp] theorem innerAddresses_eq_nil (t : FieldType) (a : t.denote C) :
    t.innerAddresses a = [] := by
  cases t <;> rfl

theorem firstTagged_eq_none {α : Type} (t : FieldTag) (g : (ty : FieldType) → ty.denote C → Option α)
    (hg : ∀ ty a, g ty a = none) : ∀ (fs : List Field) (v : Values C fs), firstTagged t g fs v = none
  | [], _ => rfl
  | f :: fs, v => by
    rw [firstTagged]
    split
    · exact hg _ _
    · exact firstTagged_eq_none t g hg fs v.2

theorem allTagged_eq_nil {α : Type} (t : FieldTag) (g : (ty : FieldType) → ty.denote C → List α)
    (hg : ∀ ty a, g ty a = []) : ∀ (fs : List Field) (v : Values C fs), allTagged t g fs v = []
  | [], _ => rfl
  | f :: fs, v => by
    rw [allTagged, allTagged_eq_nil t g hg fs v.2, hg, ite_self, List.append_nil]

namespace EventInfo

/-- The views read the event's own fields only: the nested transaction gives no symbol and
no address. -/
theorem symbol_eq_pickSymbol (e : EventInfo C) :
    e.symbol = firstTagged .symbol FieldType.address? e.kind.fields e.values := by
  rw [symbol, firstTagged_eq_none .inner _ innerSymbol_eq_none]
  cases firstTagged .symbol FieldType.address? e.kind.fields e.values <;> rfl

theorem isAbout_iff (e : EventInfo C) (x : Address) :
    e.isAbout x = true ↔
      x ∈ allTagged .id (fun t a => (FieldType.address? t a).toList) e.kind.fields e.values ∨
        x ∈ allTagged .idNonNull (fun t a => (FieldType.optAddress? t a).toList)
          e.kind.fields e.values := by
  rw [isAbout, decide_eq_true_iff, addresses,
    allTagged_eq_nil .inner _ innerAddresses_eq_nil, List.append_nil, List.mem_append]

end EventInfo

/-- A multisig submit is about its submitter and its account only, and has no symbol, whatever
transaction it wraps. -/
theorem submit_views_ignore_transaction (submitter account : Address) (memo : Option C.Memo)
    (transaction : AccountMultisigTransaction C) (token : Option Bytes) (threshold : UInt64)
    (timeout : C.Timestamp) (execute : Bool) (data : Option C.Data) :
    (⟨.accountMultisigSubmit, (submitter, account, memo, transaction, token, threshold, timeout,
        execute, data, ())⟩ : EventInfo C).symbol = none ∧
      ∀ x, (⟨.accountMultisigSubmit, (submitter, account, memo, transaction, token, threshold,
          timeout, execute, data, ())⟩ : EventInfo C).isAbout x = true ↔
        x = submitter ∨ x = account := by
  refine ⟨(EventInfo.symbol_eq_pickSymbol _).trans rfl, fun x => ?_⟩
  rw [EventInfo.isAbout_iff]
  simp [allTagged, Field.tagged, FieldType.address?, EventKind.fields]

end ManyRs.Events
